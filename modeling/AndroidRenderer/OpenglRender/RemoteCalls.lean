import AndroidRenderer.Emugen.Framing
import AndroidRenderer.Emugen.Reply
import AndroidRenderer.Lib.Run
import AndroidRenderer.OpenglRender.RenderThread

/-!
# Remote calls

The encoders of a guest's thread write into one stream. The render thread cuts it into packets
again, the decoder that knows a packet calls the server, and what the server left goes back. Here
the parts meet: the calls have the results that they have when they are made in the server.

What the server does is a parameter, a function over the state of the host.
-/

namespace AndroidRenderer.OpenglRender

open AndroidRenderer.Emugen LittleEndian

abbrev Spec := DecoderId → Nat → Option EntryPoint

abbrev Server (σ : Type) := σ → DecoderId → Nat → List Decoded → σ × Served

/-- What the caller gets: the contents of each pointer that is read back, by position, and the
bytes of the return value. -/
abbrev Result := List (Nat × List UInt8) × List UInt8

def callResult (c : Call) (r : Served) : Result :=
  ((c.entry.params.filter (isReadBack c.args)).map fun p =>
    (p.2, load (r.contents p.2) 0 (size c.args p)), retvalOf c.entry r)

variable {σ : Type}

/-- The calls made in the server itself. `others` is what other threads do to the server before a
call, with so many calls to go. -/
def direct (server : Server σ) (others : Nat → σ → σ) :
    σ → List (DecoderId × Call) → σ × List Result
  | st, [] => (st, [])
  | st, (d, c) :: cs =>
      let r := server (others cs.length st) d c.opcode (expectedArgs c.args c.entry.params)
      let after := direct server others r.1 cs
      (after.1, callResult c r.2 :: after.2)

section Serving

variable (spec : Spec) (server : Server σ)

/-- The `case` of a dispatched packet. -/
def serve (behind stale : Mem) (st : σ) (call : DecoderId × List UInt8) :
    Option (σ × List UInt8) :=
  let opcode := opcodeOf call.2
  (spec call.1 opcode).bind fun e =>
    (dispatch e ⟨ofList call.2 behind, fun args => (server st call.1 opcode args).2, stale⟩).bind
      fun s => s.called.map fun args => ((server st call.1 opcode args).1, s.reply)

/-- The dispatched packets in turn. `behind` and `stale` are what lies behind the packet and what
the reply's buffer held before, with so many packets to go. -/
def serveAll (others : Nat → σ → σ) (behind stale : Nat → Mem) :
    σ → List (DecoderId × List UInt8) → Option (σ × List UInt8)
  | st, [] => some (st, [])
  | st, call :: calls =>
      (serve spec server (behind calls.length) (stale calls.length) (others calls.length st)
        call).bind fun r =>
          (serveAll others behind stale r.1 calls).map fun after => (after.1, r.2 ++ after.2)

end Serving

def readAll : List (DecoderId × Call) → List UInt8 → Option (List Result × List UInt8)
  | [], incoming => some ([], incoming)
  | (_, c) :: cs, incoming =>
      (receiveAll c.args (genReadback c.entry) ⟨incoming, [], []⟩).bind fun r =>
        (readAll cs r.incoming).map fun after => ((r.received, r.retval) :: after.1, after.2)

/-- A call that can be made remotely: only its decoder knows its opcode, its arguments fit its
parameters and a packet, no hole precedes a parameter, and no pointer is `inout`. -/
structure Remote (spec : Spec) (c : DecoderId × Call) : Prop where
  entry : ∀ d, spec d c.2.opcode = if d = c.1 then some c.2.entry else none
  conform : c.2.args.Conform c.2.entry.params
  framable : c.2.Framable
  aligned : Aligned c.2.args 8 8 c.2.entry.params
  noInout : ∀ p ∈ c.2.entry.params, p.1.isPointer = true → p.1.pointerDir ≠ .pointerInout

def Spec.known (spec : Spec) (d : DecoderId) (opcode : Nat) : Bool := (spec d opcode).isSome

/-! ## The packet of a call -/

structure Carries (c : DecoderId × Call) (p : Packet) : Prop where
  opcode : p.opcode = c.2.opcode
  short : p.bytes.length < 2 ^ 31
  decoded : ∀ behind, decodeFrom (ofList p.bytes behind) 8 c.2.entry.params =
    expectedArgs c.2.args c.2.entry.params

/-- A header and what it announces make a packet. -/
theorem exists_packet {opcode : Nat} (hopcode : opcode < 2 ^ 32) (body : List UInt8)
    (hlen : 8 + body.length < 2 ^ 32) :
    ∃ p : Packet, p.bytes = header opcode (8 + body.length) ++ body ∧ p.opcode = opcode := by
  have hbytes : (header opcode (8 + body.length) ++ body).length = 8 + body.length := by
    rw [List.length_append, header_length]
  have hfield : packetLenOf (header opcode (8 + body.length) ++ body) = 8 + body.length := by
    rw [packetLenOf, header, List.append_assoc, List.drop_left' (leBytes_length 4 _),
      List.take_left' (leBytes_length 4 _)]
    exact ofLE_leBytes hlen
  refine ⟨⟨_, by omega, hfield.trans hbytes.symm⟩, rfl, ?_⟩
  change ofLE ((header opcode (8 + body.length) ++ body).take 4) = opcode
  rw [header, List.append_assoc, List.take_left' (leBytes_length 4 _)]
  exact ofLE_leBytes hopcode

variable {spec : Spec} {c : DecoderId × Call}

theorem Remote.emit (h : Remote spec c) (junk : Mem) (s : EncState) :
    ∃ t p, c.2.emit junk s = some t ∧ t.emitted = s.emitted ++ p.bytes ∧ Carries c p := by
  obtain ⟨hfits, hsize⟩ := h.framable
  obtain ⟨t, ht, hemitted⟩ :=
    Option.map_eq_some_iff.mp ((emit_emitted junk c.2 s).trans (if_pos hfits))
  rw [packetSize_eq, ← wireSize_mod, Nat.mod_eq_of_lt (by omega), List.append_assoc,
    ← layout_length h.conform hfits] at hemitted
  rw [← @layout_length _ junk _ h.conform (s.emitted.length + 8) _ _ hfits] at hsize
  obtain ⟨p, hp, hopcode⟩ := exists_packet c.2.opcode_lt
    (layout c.2.args junk (s.emitted.length + 8) 8 8 c.2.entry.params) (by omega)
  refine ⟨t, p, ht, by rw [hp]; exact hemitted, hopcode, ?_, fun behind => ?_⟩
  · rw [hp, List.length_append, header_length]
    exact hsize
  · rw [hp]
    apply decodeFrom_layout h.conform h.aligned
    rw [List.append_nil]
    exact header_length c.2.opcode _ ▸ holds_behind (header c.2.opcode _) _ behind

/-- The stream of some calls is the stream of their packets. -/
theorem emitAll_carries {calls : List (DecoderId × Call)} (h : ∀ c ∈ calls, Remote spec c)
    (junk : Mem) (s : EncState) :
    ∃ t ps, emitAll junk (calls.map Prod.snd) s = some t ∧
      t.emitted = s.emitted ++ Packet.stream ps ∧ List.Forall₂ Carries calls ps := by
  induction calls generalizing s with
  | nil => exact ⟨s, [], rfl, (List.append_nil _).symm, .nil⟩
  | cons c calls ih =>
      obtain ⟨u, p, hu, hemitted, hp⟩ := (h c (by simp)).emit junk s
      obtain ⟨t, ps, ht, hstream, hps⟩ := ih (fun d hd => h d (by simp [hd])) u
      refine ⟨t, p :: ps, ?_, ?_, .cons hp hps⟩
      · rw [List.map_cons, emitAll, hu, Option.bind_some, ht]
      · rw [hstream, hemitted, Packet.stream_cons, List.append_assoc]

/-! ## One call -/

theorem Remote.callOf_eq (h : Remote spec c) {p : Packet} (hp : Carries c p) :
    KnownToOne spec.known p ∧ callOf spec.known p = (c.1, p.bytes) := by
  have hknown : ∀ d, spec.known d p.opcode = true ↔ d = c.1 := by
    intro d
    rw [Spec.known, hp.opcode, h.entry]
    split <;> simp_all
  have hone : KnownToOne spec.known p :=
    ⟨c.1, (hknown _).mpr rfl, fun d hd => (hknown d).mp hd⟩
  exact ⟨hone, by rw [callOf, hone.decoderOf_eq ((hknown _).mpr rfl)]⟩

/-- Bytes behind the reply of a call stay where they are. -/
theorem receive_more {args : Args} {stmt : EncStmt} {s r : Readback}
    (h : stmt.receive args s = some r) (more : List UInt8) :
    stmt.receive args { s with incoming := s.incoming ++ more } =
      some { r with incoming := r.incoming ++ more } := by
  cases stmt <;> grind [EncStmt.receive]

theorem receiveAll_more {args : Args} {stmts : List EncStmt} {s r : Readback}
    (h : receiveAll args stmts s = some r) (more : List UInt8) :
    receiveAll args stmts { s with incoming := s.incoming ++ more } =
      some { r with incoming := r.incoming ++ more } := by
  induction stmts generalizing s with
  | nil =>
      obtain rfl := Option.some.inj h
      rfl
  | cons stmt stmts ih =>
      obtain ⟨u, hu, hrest⟩ := Option.bind_eq_some_iff.mp h
      rw [receiveAll, receive_more hu, Option.bind_some]
      exact ih hrest

/-- The server is called as the call was made, and the call reads back what the server left for it,
and nothing of what follows. -/
theorem Remote.served (h : Remote spec c) {p : Packet} (hp : Carries c p) (server : Server σ)
    (behind stale : Mem) (st : σ) {r : σ × Served}
    (hr : server st c.1 c.2.opcode (expectedArgs c.2.args c.2.entry.params) = r) :
    ∃ reply, serve spec server behind stale st (c.1, p.bytes) = some (r.1, reply) ∧
      ∀ more, receiveAll c.2.args (genReadback c.2.entry) ⟨reply ++ more, [], []⟩ =
        some ⟨more, (callResult c.2 r.2).1, (callResult c.2 r.2).2⟩ := by
  have hopcode : opcodeOf p.bytes = c.2.opcode := hp.opcode
  have hdecoded := hp.decoded behind
  obtain ⟨s, hs, hcalled, hreply⟩ := dispatch_eq c.2.entry ⟨ofList p.bytes behind,
    fun args => (server st c.1 c.2.opcode args).2, stale⟩
  rw [decodedArgs_eq, hdecoded] at hcalled hreply
  simp only [hr] at hreply
  have hlengths := outLengths_of_decodes h.conform .header hdecoded
  refine ⟨s.reply, ?_, fun more => ?_⟩
  · simp only [serve, hopcode, h.entry, if_true, Option.bind_some, hs, hcalled, Option.map_some, hr]
  · rw [hreply]
    exact receiveAll_more (receiveAll_genReadback r.2 h.noInout hlengths) more

/-! ## All calls -/

theorem serveAll_eq {calls : List (DecoderId × Call)} {ps : List Packet}
    (hps : List.Forall₂ Carries calls ps) (h : ∀ c ∈ calls, Remote spec c) (server : Server σ)
    (others : Nat → σ → σ) (behind stale : Nat → Mem) (st : σ) :
    ∃ reply, serveAll spec server others behind stale st (ps.map (callOf spec.known)) =
        some ((direct server others st calls).1, reply) ∧
      readAll calls reply = some ((direct server others st calls).2, []) := by
  induction hps generalizing st with
  | nil => exact ⟨[], rfl, rfl⟩
  | @cons c p calls ps hp hps ih =>
      have hc := h c (by simp)
      have hlength : (ps.map (callOf spec.known)).length = calls.length :=
        (List.length_map _).trans hps.length_eq.symm
      obtain ⟨front, hserve, hread⟩ := hc.served hp server (behind calls.length)
        (stale calls.length) (others calls.length st) rfl
      obtain ⟨reply, hserves, hreads⟩ := ih (fun d hd => h d (by simp [hd])) (server
        (others calls.length st) c.1 c.2.opcode (expectedArgs c.2.args c.2.entry.params)).1
      refine ⟨front ++ reply, ?_, ?_⟩
      · rw [List.map_cons, (hc.callOf_eq hp).2, serveAll, hlength, hserve, Option.bind_some,
          hserves]
        rfl
      · rw [readAll, hread, Option.bind_some, hreads]
        rfl

/-- Whatever calls the guest makes, whatever other threads do in between, and however the stream is
cut into chunks, the render thread leaves the server in the state that the same calls leave it in
when they are made there, and each call reads back the results that it has there. -/
theorem remote_eq_direct (spec : Spec) (server : Server σ) (others : Nat → σ → σ) (st : σ)
    (calls : List (DecoderId × Call)) (h : ∀ c ∈ calls, Remote spec c) (junk heap : Mem)
    (behind stale : Nat → Mem) :
    ∃ t, emitAll junk (calls.map Prod.snd) .start = some t ∧
      ∀ chunks : Socket, chunks.NonEmpty → chunks.flatten = t.emitted →
        ∃ fuel thread reply, main spec.known heap fuel chunks = some thread ∧
          thread.readBuf.validData = 0 ∧
          serveAll spec server others behind stale st thread.calls =
            some ((direct server others st calls).1, reply) ∧
          readAll calls reply = some ((direct server others st calls).2, []) := by
  obtain ⟨t, ps, ht, hstream, hps⟩ := emitAll_carries h junk .start
  have hpackets : ∀ p ∈ ps, KnownToOne spec.known p ∧ p.bytes.length < 2 ^ 31 := by
    intro p hp
    obtain ⟨c, hc, hcarries⟩ := Run.exists_of_forall₂_right hps hp
    exact ⟨((h c hc).callOf_eq hcarries).1, hcarries.short⟩
  obtain ⟨reply, hserve, hread⟩ := serveAll_eq hps h server others behind stale st
  refine ⟨t, ht, fun chunks hne hchunks => ?_⟩
  have hempty : (RenderThread.start heap chunks).readBuf.contents = [] := List.take_zero
  obtain ⟨b, s, hmain, hvalid⟩ := mainLoop_spec (t := .start heap chunks)
    (fun p hp => (hpackets p hp).1) (fun p hp => (hpackets p hp).2) hne
    (.inl (by rw [hempty]; decide)) (Nat.pow_pos (by decide))
    (by rw [hempty]; exact hchunks.trans hstream) (Nat.le_refl _)
  exact ⟨_, _, reply, hmain, hvalid, hserve, hread⟩

/-- `int f(void *a)` with `a` an `out` pointer. -/
def queryLike : EntryPoint := ⟨"f", intType, [.small ptrType .pointerOut false], by decide⟩

/-- A call that asks for two bytes and a value. -/
def query : DecoderId × Call := (.rc, ⟨queryLike, 6, fun _ => .room false 2, by decide⟩)

def queryOnly : Spec := fun d opcode => if d = .rc ∧ opcode = 6 then some queryLike else none

theorem remote_query : Remote queryOnly query where
  entry d := by cases d <;> rfl
  conform p hp := by
    obtain rfl := List.mem_singleton.mp hp
    exact .room rfl rfl (by decide) (by decide)
  framable := ⟨by decide, by decide⟩
  aligned := by simp [query, queryLike, EntryPoint.params, Var.small, Aligned]
  noInout := by decide

/-- A server that counts its calls and answers them with sevens and the count. -/
def counting : Server Nat := fun n _ _ _ => (n + 1, ⟨fun _ _ => 7, n⟩)

theorem remote_eq_direct_query :
    ∃ t, emitAll (fun _ => 0) [query.2] .start = some t ∧
      ∀ chunks : Socket, chunks.NonEmpty → chunks.flatten = t.emitted →
        ∃ fuel thread reply, main queryOnly.known (fun _ => 0) fuel chunks = some thread ∧
          thread.readBuf.validData = 0 ∧
          serveAll queryOnly counting (fun _ n => n + 2) (fun _ _ => 0) (fun _ _ => 0) 3
            thread.calls = some (6, reply) ∧
          readAll [query] reply = some ([([(0, [7, 7])], [5, 0, 0, 0])], []) :=
  remote_eq_direct queryOnly counting _ 3 [query] (List.forall_mem_singleton.mpr remote_query)
    (fun _ => 0) (fun _ => 0) (fun _ _ => 0) fun _ _ => 0

end AndroidRenderer.OpenglRender
