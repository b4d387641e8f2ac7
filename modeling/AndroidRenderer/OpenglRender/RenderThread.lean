import AndroidRenderer.Emugen.DecodeLoop
import AndroidRenderer.OpenglRender.ReadBuffer

/-!
# The loop of the render thread

`RenderThread::Main` reads into the buffer and lets the three decoders consume
packets in turn until none of them makes progress. Which opcodes a decoder knows is
a parameter; what a dispatched packet does is not modelled here, only that its
bytes reach the decoder.

For packets whose opcodes belong to exactly one decoder, the thread dispatches the
packets of the stream in order and to the end, however the stream is cut into
chunks, if and only if every packet is shorter than 2^31 bytes.
-/

namespace AndroidRenderer.OpenglRender

open AndroidRenderer.Emugen LittleEndian

/-- `m_glDec`, `m_gl2Dec` and `m_rcDec`. -/
inductive DecoderId
  | gl | gl2 | rc
  deriving DecidableEq, Repr

/-- The buffer, the socket and the packets dispatched so far. -/
structure RenderThread where
  readBuf : ReadBuffer
  stream : Socket
  calls : List (DecoderId × List UInt8)

section Loops

variable (known : DecoderId → Nat → Bool) (heap : Mem)

/-- `last = dec.decode(…); if (last > 0) { progress = true; readBuf.consume(last); }` -/
def tryDecode (fuel : Nat) (d : DecoderId) (t : RenderThread) : Option (Bool × RenderThread) :=
  (decode (known d) t.readBuf.buf t.readBuf.readPtr t.readBuf.validData fuel).bind fun r =>
    let calls := t.calls ++ r.2.map fun packet => (d, packet)
    if 0 < r.1 then
      (t.readBuf.consume r.1).map fun b => (true, ⟨b, t.stream, calls⟩)
    else some (false, ⟨t.readBuf, t.stream, calls⟩)

/-- One turn of the `do … while (progress)` loop. -/
def decodeTurn (fuel : Nat) (t : RenderThread) : Option (Bool × RenderThread) :=
  (tryDecode known fuel .gl t).bind fun r₁ =>
    (tryDecode known fuel .gl2 r₁.2).bind fun r₂ =>
      (tryDecode known fuel .rc r₂.2).map fun r₃ => (r₁.1 || r₂.1 || r₃.1, r₃.2)

def progressLoop : Nat → RenderThread → Option RenderThread
  | 0, _ => none
  | fuel + 1, t => (decodeTurn known fuel t).bind fun r =>
      if r.1 then progressLoop fuel r.2 else some r.2

/-- The `while (1)` loop. -/
def mainLoop : Nat → RenderThread → Option RenderThread
  | 0, _ => none
  | fuel + 1, t =>
      let r := t.readBuf.getData heap t.stream
      if r.1 ≤ 0 then some ⟨r.2.1, r.2.2, t.calls⟩
      else (progressLoop known fuel ⟨r.2.1, r.2.2, t.calls⟩).bind (mainLoop fuel)

def STREAM_BUFFER_SIZE : Nat := 4 * 1024 * 1024

def RenderThread.start (stream : Socket) : RenderThread :=
  ⟨.new heap STREAM_BUFFER_SIZE (by decide) (by decide), stream, []⟩

/-- `RenderThread::Main` on a socket that delivers these chunks and closes. -/
def main (fuel : Nat) (stream : Socket) : Option RenderThread :=
  mainLoop known heap fuel (.start heap stream)

def decoderOf (p : Packet) : DecoderId :=
  if known .gl p.opcode then .gl else if known .gl2 p.opcode then .gl2 else .rc

def callOf (p : Packet) : DecoderId × List UInt8 := (decoderOf known p, p.bytes)

/-- The thread ends with exactly these packets dispatched and nothing left over. -/
def Dispatches (stream : Socket) (ps : List Packet) : Prop :=
  ∃ fuel t, main known heap fuel stream = some t ∧ t.calls = ps.map (callOf known) ∧
    t.readBuf.validData = 0

end Loops

variable {known : DecoderId → Nat → Bool} {heap : Mem}

def KnownToOne (known : DecoderId → Nat → Bool) (p : Packet) : Prop :=
  ∃! d, known d p.opcode = true

theorem KnownToOne.decoderOf_eq {p : Packet} (h : KnownToOne known p) {d : DecoderId}
    (hd : known d p.opcode = true) : decoderOf known p = d := by
  obtain ⟨d', -, huniq⟩ := h
  have hself : known (decoderOf known p) p.opcode = true := by
    unfold decoderOf
    split
    · assumption
    · split
      · assumption
      · cases d <;> simp_all
  exact (huniq _ hself).trans (huniq _ hd).symm

/-! ## Short packets are dispatched -/

/-- The buffered bytes hold no complete packet. -/
def Incomplete (bs : List UInt8) : Prop := bs.length < 8 ∨ bs.length < packetLenOf bs

/-- A prefix of a stream consists of complete packets and an incomplete one. -/
theorem split_stream {todo : List Packet} {bs more : List UInt8}
    (h : bs ++ more = Packet.stream todo) :
    ∃ qs todo' rest, todo = qs ++ todo' ∧ bs = Packet.stream qs ++ rest ∧
      rest ++ more = Packet.stream todo' ∧ Incomplete rest ∧
      (rest = [] ∨ ∃ p ∈ todo', rest.length < p.bytes.length) := by
  induction todo generalizing bs with
  | nil =>
      have hbs : bs = [] := (List.append_eq_nil_iff.mp h).1
      exact ⟨[], [], [], rfl, hbs, by rw [← hbs]; exact h, Or.inl (by simp), Or.inl rfl⟩
  | cons p todo ih =>
      rw [Packet.stream_cons] at h
      by_cases hle : p.bytes.length ≤ bs.length
      · have hbs : bs = p.bytes ++ bs.drop p.bytes.length := by
          have := congrArg (List.take p.bytes.length) h
          rw [List.take_append_of_le_length hle, List.take_left] at this
          rw [← this, List.length_take, Nat.min_eq_left hle, List.take_append_drop]
        rw [hbs, List.append_assoc, List.append_cancel_left_eq] at h
        obtain ⟨qs, todo', rest, rfl, hqs, hmore, hinc, hrest⟩ := ih h
        refine ⟨p :: qs, todo', rest, rfl, ?_, hmore, hinc, hrest⟩
        rw [Packet.stream_cons, List.append_assoc, ← hqs]
        exact hbs
      · refine ⟨[], p :: todo, bs, rfl, rfl, by rw [Packet.stream_cons]; exact h, ?_,
          Or.inr ⟨p, by simp, by omega⟩⟩
        -- the header, once it is there, announces more than has arrived
        rcases Nat.lt_or_ge bs.length 8 with h8 | h8
        · exact Or.inl h8
        · refine Or.inr ?_
          have hpre : bs.take 8 = p.bytes.take 8 := by
            have := congrArg (List.take 8) h
            rwa [List.take_append_of_le_length h8, List.take_append_of_le_length p.length_ge]
              at this
          have hlen : packetLenOf bs = p.bytes.length := by
            rw [← p.packetLen, ← (header_of_take bs (Nat.le_refl 8)).1, hpre,
              (header_of_take p.bytes (Nat.le_refl 8)).1]
          omega

/-- One decoder takes the packets in front that it knows. -/
theorem tryDecode_spec {fuel : Nat} {d : DecoderId} {t : RenderThread} {qs : List Packet}
    {rest : List UInt8} (hone : ∀ p ∈ qs, KnownToOne known p)
    (hlt : ∀ p ∈ qs, p.bytes.length < 2 ^ 31) (hinc : Incomplete rest) (hfuel : qs.length < fuel)
    (h : t.readBuf.contents = Packet.stream qs ++ rest) :
    ∃ now later b, qs = now ++ later ∧
      tryDecode known fuel d t =
        some (!now.isEmpty, ⟨b, t.stream, t.calls ++ now.map (callOf known)⟩) ∧
      b.contents = Packet.stream later ++ rest ∧
      (now = [] → ∀ p ∈ qs.head?, known d p.opcode = false) := by
  generalize hnow : qs.takeWhile (fun p => known d p.opcode) = now
  generalize hlater : qs.dropWhile (fun p => known d p.opcode) = later
  have hsplit : qs = now ++ later := by
    rw [← hnow, ← hlater, List.takeWhile_append_dropWhile]
  have hknown : ∀ p ∈ now, known d p.opcode = true := by
    intro p hp
    rw [← hnow] at hp
    exact List.all_eq_true.mp List.all_takeWhile p hp
  have hstuck : Stuck (known d) (Packet.stream later ++ rest) := by
    cases later with
    | nil => exact hinc.imp_right Or.inl
    | cons p ps =>
        refine Or.inr (Or.inr ?_)
        rw [Packet.stream_cons, List.append_assoc, p.opcodeOf_append]
        have hne : qs.dropWhile (fun p => known d p.opcode) ≠ [] := by simp [hlater]
        have hnot := List.head_dropWhile_not (fun p : Packet => known d p.opcode) hne
        simpa [hlater] using hnot
  have hnowlen : now.length < fuel := by grind
  have hdecode := decode_spec t.readBuf.valid_le t.readBuf.size_lt hknown
    (fun p hp => hlt p (by simp [hsplit, hp])) hstuck hnowlen
    (by rw [← List.append_assoc, ← Packet.stream_append, ← hsplit]; exact h)
  have hcalls : (now.map Packet.bytes).map (fun packet => (d, packet)) =
      now.map (callOf known) := by
    rw [List.map_map]
    refine List.map_congr_left fun p hp => ?_
    rw [callOf, (hone p (by simp [hsplit, hp])).decoderOf_eq (hknown p hp)]
    rfl
  have hhead : now = [] → ∀ p ∈ qs.head?, known d p.opcode = false := by
    rintro hnil p hp
    cases qs with
    | nil => cases hp
    | cons q qs =>
        obtain rfl := Option.some.inj hp
        by_contra hk
        rw [Bool.not_eq_false] at hk
        grind [List.takeWhile_cons]
  rw [tryDecode, hdecode, Option.bind_some]
  dsimp only
  rw [hcalls]
  cases now with
  | nil =>
      refine ⟨[], later, t.readBuf, hsplit, rfl, ?_, hhead⟩
      grind
  | cons p ps =>
      have hpos : 0 < (Packet.stream (p :: ps)).length := by
        have := p.length_ge
        rw [Packet.stream_cons, List.length_append]
        omega
      have hle : (Packet.stream (p :: ps)).length ≤ t.readBuf.validData := by
        rw [← t.readBuf.contents_length, h, hsplit, Packet.stream_append, List.append_assoc,
          List.length_append]
        omega
      have hsome : ∃ b, t.readBuf.consume (Packet.stream (p :: ps)).length = some b :=
        ⟨_, dif_pos hle⟩
      obtain ⟨b, hb⟩ := hsome
      refine ⟨p :: ps, later, b, hsplit, by rw [if_pos hpos, hb]; rfl, ?_, hhead⟩
      rw [(ReadBuffer.contents_consume hb).1, h, hsplit, Packet.stream_append, List.append_assoc,
        List.drop_left]

/-- One turn takes at least the first complete packet. -/
theorem decodeTurn_spec {fuel : Nat} {t : RenderThread} {qs : List Packet}
    {rest : List UInt8} (hone : ∀ p ∈ qs, KnownToOne known p)
    (hlt : ∀ p ∈ qs, p.bytes.length < 2 ^ 31) (hinc : Incomplete rest) (hfuel : qs.length < fuel)
    (h : t.readBuf.contents = Packet.stream qs ++ rest) :
    ∃ now later b, qs = now ++ later ∧
      decodeTurn known fuel t =
        some (!now.isEmpty, ⟨b, t.stream, t.calls ++ now.map (callOf known)⟩) ∧
      b.contents = Packet.stream later ++ rest ∧ (now = [] → qs = []) := by
  obtain ⟨now₁, later₁, b₁, hs₁, ht₁, hb₁, hh₁⟩ :=
    @tryDecode_spec known fuel .gl t qs rest hone hlt hinc hfuel h
  have hlen₁ := congrArg List.length hs₁
  rw [List.length_append] at hlen₁
  obtain ⟨now₂, later₂, b₂, hs₂, ht₂, hb₂, hh₂⟩ := @tryDecode_spec known fuel .gl2
    ⟨b₁, t.stream, t.calls ++ now₁.map (callOf known)⟩ later₁ rest
    (fun p hp => hone p (by simp [hs₁, hp])) (fun p hp => hlt p (by simp [hs₁, hp])) hinc
    (by omega) hb₁
  have hlen₂ := congrArg List.length hs₂
  rw [List.length_append] at hlen₂
  obtain ⟨now₃, later₃, b₃, hs₃, ht₃, hb₃, hh₃⟩ := @tryDecode_spec known fuel .rc
    ⟨b₂, t.stream, t.calls ++ now₁.map (callOf known) ++ now₂.map (callOf known)⟩ later₂ rest
    (fun p hp => hone p (by simp [hs₁, hs₂, hp])) (fun p hp => hlt p (by simp [hs₁, hs₂, hp])) hinc
    (by omega) hb₂
  refine ⟨now₁ ++ (now₂ ++ now₃), later₃, b₃, by rw [hs₁, hs₂, hs₃]; simp, ?_, hb₃, ?_⟩
  · rw [decodeTurn, ht₁, Option.bind_some]
    dsimp only
    rw [ht₂, Option.bind_some, ht₃, Option.map_some]
    cases now₁ <;> cases now₂ <;> cases now₃ <;> simp
  · intro hnil
    obtain ⟨hnil₁, hnil⟩ := List.append_eq_nil_iff.mp hnil
    obtain ⟨hnil₂, hnil₃⟩ := List.append_eq_nil_iff.mp hnil
    rw [hnil₁, List.nil_append] at hs₁
    rw [hnil₂, List.nil_append, ← hs₁] at hs₂
    rw [← hs₁] at hh₂
    rw [← hs₂] at hh₃
    cases hqs : qs with
    | nil => rfl
    | cons p ps =>
        -- the first packet is known to one of the three decoders
        obtain ⟨d, hd, -⟩ := hone p (by simp [hqs])
        have hhead : p ∈ qs.head? := by simp [hqs]
        cases d with
        | gl => simp [hh₁ hnil₁ p hhead] at hd
        | gl2 => simp [hh₂ hnil₂ p hhead] at hd
        | rc => simp [hh₃ hnil₃ p hhead] at hd

theorem progressLoop_spec {fuel : Nat} {t : RenderThread} {qs : List Packet} {rest : List UInt8}
    (hone : ∀ p ∈ qs, KnownToOne known p) (hlt : ∀ p ∈ qs, p.bytes.length < 2 ^ 31)
    (hinc : Incomplete rest) (hfuel : qs.length + 2 ≤ fuel)
    (h : t.readBuf.contents = Packet.stream qs ++ rest) :
    ∃ b, progressLoop known fuel t =
      some ⟨b, t.stream, t.calls ++ qs.map (callOf known)⟩ ∧ b.contents = rest := by
  induction fuel generalizing t qs with
  | zero => omega
  | succ fuel ih =>
      obtain ⟨now, later, b, rfl, hturn, hb, hnow⟩ :=
        @decodeTurn_spec known fuel t qs rest hone hlt hinc (by omega) h
      rw [progressLoop, hturn, Option.bind_some]
      cases now with
      | nil =>
          obtain rfl := hnow rfl
          exact ⟨b, by simp, by simpa using hb⟩
      | cons p ps =>
          obtain ⟨b', hloop, hb'⟩ := @ih ⟨b, t.stream, t.calls ++ (p :: ps).map (callOf known)⟩
            later (fun q hq => hone q (by simp [hq])) (fun q hq => hlt q (by simp [hq]))
            (by simp only [List.length_append, List.length_cons] at hfuel; omega) hb
          grind

variable {fuel : Nat} {t t' : RenderThread}

/-- What is still to come is dispatched. -/
theorem mainLoop_spec {todo : List Packet}
    (hone : ∀ p ∈ todo, KnownToOne known p) (hlt : ∀ p ∈ todo, p.bytes.length < 2 ^ 31)
    (hs : t.stream.NonEmpty) (hinc : Incomplete t.readBuf.contents)
    (hsmall : t.readBuf.validData < 2 ^ 31)
    (h : t.readBuf.contents ++ t.stream.flatten = Packet.stream todo)
    (hfuel : t.stream.flatten.length + todo.length + 3 ≤ fuel) :
    ∃ b s, mainLoop known heap fuel t =
      some ⟨b, s, t.calls ++ todo.map (callOf known)⟩ ∧ b.validData = 0 := by
  induction fuel generalizing t todo with
  | zero => omega
  | succ fuel ih =>
      rw [mainLoop]
      rcases ReadBuffer.getData_spec heap t.readBuf hs with
        ⟨got, b', s', hget, hne, hcontents, hflat, hs'⟩ |
        ⟨b', s', hget, hcontents, -, -, hend⟩
      · rw [hget]
        dsimp only
        have hgot := List.length_pos_iff.mpr hne
        rw [if_neg (by omega)]
        have hstream : (t.readBuf.contents ++ got) ++ s'.flatten = Packet.stream todo := by
          rw [List.append_assoc, hflat, h]
        obtain ⟨qs, todo', rest, rfl, hqs, hmore, hinc', hrest⟩ := split_stream hstream
        have hlen := congrArg List.length hflat
        rw [List.length_append] at hlen
        obtain ⟨b'', hprogress, hb''⟩ := @progressLoop_spec known fuel ⟨b', s', t.calls⟩ qs rest
          (fun p hp => hone p (by simp [hp])) (fun p hp => hlt p (by simp [hp])) hinc'
          (by rw [List.length_append] at hfuel; omega) (hcontents.trans hqs)
        rw [hprogress, Option.bind_some]
        have hvalid : b''.validData < 2 ^ 31 := by
          rw [← b''.contents_length, hb'']
          grind
        obtain ⟨b, s, hmain, hdone⟩ := @ih
          ⟨b'', s', t.calls ++ qs.map (callOf known)⟩ todo'
          (fun p hp => hone p (by simp [hp])) (fun p hp => hlt p (by simp [hp])) hs'
          (by rw [hb'']; exact hinc') hvalid (by rw [hb'']; exact hmore)
          (by rw [List.length_append] at hfuel; dsimp only; omega)
        exact ⟨b, s, by rw [hmain]; simp, hdone⟩
      · rw [hget]
        dsimp only
        rw [if_pos (by decide)]
        have hnil : t.stream = [] := by grind
        rw [hnil, List.flatten_nil, List.append_nil] at h
        -- the buffered bytes are incomplete, so no packet is left
        have htodo : todo = [] := by
          cases todo with
          | nil => rfl
          | cons p ps =>
              have h8 := p.length_ge
              rw [h, Packet.stream_cons] at hinc
              unfold Incomplete at hinc
              rw [p.packetLenOf_append, List.length_append] at hinc
              omega
        subst htodo
        refine ⟨b', s', by simp, ?_⟩
        rw [← b'.contents_length, hcontents, h]
        rfl

/-! ## The balance of the buffer

Every byte that arrived is either still buffered or was consumed, and what was
consumed are the signed lengths of the dispatched packets. -/

/-- How far the dispatched packets moved the cursors. -/
def moved (calls : List (DecoderId × List UInt8)) : Int :=
  (calls.map fun c => toInt32 (packetLenOf c.2)).sum

def balance (t : RenderThread) : Int :=
  t.readBuf.validData + moved t.calls + t.stream.flatten.length

/-- The calls of `t'` continue those of `t`, and the balance stays, provided each
call contains its header. -/
def Keeps (t t' : RenderThread) : Prop :=
  t.calls <+: t'.calls ∧ ((∀ c ∈ t'.calls, 8 ≤ c.2.length) → balance t' = balance t)

theorem Keeps.trans {t'' : RenderThread} (h : Keeps t t') (h' : Keeps t' t'') :
    Keeps t t'' :=
  ⟨h.1.trans h'.1, fun hc => (h'.2 hc).trans (h.2 fun c hmem => hc c (h'.1.subset hmem))⟩

theorem tryDecode_keeps {d : DecoderId} {b : Bool}
    (h : tryDecode known fuel d t = some (b, t')) : t'.stream = t.stream ∧ Keeps t t' := by
  obtain ⟨⟨pos, packets⟩, hdec, h⟩ := Option.bind_eq_some_iff.mp h
  dsimp only at h
  have hpackets : moved (packets.map fun packet => (d, packet)) =
      (packets.map fun c => toInt32 (packetLenOf c)).sum := by
    rw [moved, List.map_map]
    rfl
  have hmoved : (∀ c ∈ t.calls ++ packets.map fun packet => (d, packet), 8 ≤ c.2.length) →
      pos ≤ t.readBuf.validData →
      moved (t.calls ++ packets.map fun packet => (d, packet)) = moved t.calls + pos := by
    intro hc hle
    have h8 : ∀ c ∈ packets, 8 ≤ c.length := fun c hmem =>
      hc (d, c) (List.mem_append_right _ (List.mem_map_of_mem hmem))
    rw [decode_moved t.readBuf.valid_le t.readBuf.size_lt hdec h8 hle, ← hpackets, moved, moved,
      moved, List.map_append, List.sum_append]
  split at h
  · obtain ⟨b', hb', heq⟩ := Option.map_eq_some_iff.mp h
    obtain ⟨-, rfl⟩ := Prod.mk.inj heq
    have hvalid := (ReadBuffer.contents_consume hb').2
    refine ⟨rfl, List.prefix_append _ _, fun hc => ?_⟩
    grind [balance]
  · obtain ⟨-, rfl⟩ := Prod.mk.inj (Option.some.inj h)
    refine ⟨rfl, List.prefix_append _ _, fun hc => ?_⟩
    have := hmoved hc (by omega)
    simp only [balance]
    omega

theorem decodeTurn_keeps {b : Bool}
    (h : decodeTurn known fuel t = some (b, t')) : t'.stream = t.stream ∧ Keeps t t' := by
  obtain ⟨⟨b₁, t₁⟩, h₁, h⟩ := Option.bind_eq_some_iff.mp h
  obtain ⟨⟨b₂, t₂⟩, h₂, h⟩ := Option.bind_eq_some_iff.mp h
  obtain ⟨⟨b₃, t₃⟩, h₃, heq⟩ := Option.map_eq_some_iff.mp h
  obtain ⟨-, rfl⟩ := Prod.mk.inj heq
  obtain ⟨hs₁, hk₁⟩ := tryDecode_keeps h₁
  obtain ⟨hs₂, hk₂⟩ := tryDecode_keeps h₂
  obtain ⟨hs₃, hk₃⟩ := tryDecode_keeps h₃
  exact ⟨hs₃.trans (hs₂.trans hs₁), (hk₁.trans hk₂).trans hk₃⟩

theorem progressLoop_keeps
    (h : progressLoop known fuel t = some t') : t'.stream = t.stream ∧ Keeps t t' := by
  induction fuel generalizing t with
  | zero => cases h
  | succ fuel ih =>
      obtain ⟨⟨b, t₁⟩, h₁, h⟩ := Option.bind_eq_some_iff.mp h
      obtain ⟨hs₁, hk₁⟩ := decodeTurn_keeps h₁
      dsimp only at h
      split at h
      · obtain ⟨hs, hk⟩ := ih h
        exact ⟨hs.trans hs₁, hk₁.trans hk⟩
      · grind

/-- The main loop keeps the balance, and it ends with an empty buffer only when the
socket is exhausted. -/
theorem mainLoop_keeps (hs : t.stream.NonEmpty)
    (h : mainLoop known heap fuel t = some t') :
    Keeps t t' ∧ (t'.readBuf.validData = 0 → t'.stream.flatten = []) := by
  induction fuel generalizing t with
  | zero => cases h
  | succ fuel ih =>
      rw [mainLoop] at h
      rcases ReadBuffer.getData_spec heap t.readBuf hs with
        ⟨got, b, s, hget, hne, hcontents, hflat, hs'⟩ | ⟨b, s, hget, hcontents, -, hflat, hend⟩
      · rw [hget] at h
        dsimp only at h
        have hgot := List.length_pos_iff.mpr hne
        rw [if_neg (by omega)] at h
        obtain ⟨t₁, h₁, h⟩ := Option.bind_eq_some_iff.mp h
        have hfill : Keeps t ⟨b, s, t.calls⟩ := by
          refine ⟨List.prefix_refl _, fun _ => ?_⟩
          have hvalid := congrArg List.length hcontents
          rw [List.length_append, b.contents_length, t.readBuf.contents_length] at hvalid
          grind [balance]
        obtain ⟨hstream, hk₁⟩ := progressLoop_keeps h₁
        obtain ⟨hk, hdone⟩ := ih (by rw [hstream]; exact hs') h
        exact ⟨(hfill.trans hk₁).trans hk, hdone⟩
      · rw [hget] at h
        dsimp only at h
        rw [if_pos (by decide)] at h
        obtain rfl := Option.some.inj h
        have hvalid := congrArg List.length hcontents
        rw [b.contents_length, t.readBuf.contents_length] at hvalid
        refine ⟨⟨List.prefix_refl _, fun _ => ?_⟩, fun hzero => ?_⟩
        · simp only [balance, hvalid, hflat]
        · grind

theorem sum_toInt32_eq (ns : List Nat) (h : (ns.map toInt32).sum = (ns.sum : Nat)) :
    ∀ n ∈ ns, n < 2 ^ 31 := by
  have hle : ∀ ns : List Nat, (ns.map toInt32).sum ≤ (ns.sum : Nat) := by
    intro ns
    induction ns with
    | nil => simp
    | cons n ns ih =>
        have := toInt32_le n
        grind
  induction ns with
  | nil => simp
  | cons n ns ih =>
      have hn := toInt32_le n
      have hns := hle ns
      simp only [List.map_cons, List.sum_cons] at h
      rw [List.forall_mem_cons]
      exact ⟨toInt32_eq_self_iff.mp (by omega), ih (by omega)⟩

theorem length_stream (ps : List Packet) :
    (Packet.stream ps).length = (ps.map fun p => p.bytes.length).sum := by
  rw [Packet.stream, List.length_flatMap]

/-- A thread that dispatches its packets to the end was given short ones. -/
theorem length_lt_of_dispatches {ps : List Packet} {stream : Socket} (hs : stream.NonEmpty)
    (hstream : stream.flatten = Packet.stream ps) (h : Dispatches known heap stream ps) :
    ∀ p ∈ ps, p.bytes.length < 2 ^ 31 := by
  obtain ⟨fuel, t, hmain, hcalls, hvalid⟩ := h
  obtain ⟨⟨-, hbalance⟩, hdone⟩ := mainLoop_keeps (t := .start heap stream) hs hmain
  have h8 : ∀ c ∈ t.calls, 8 ≤ c.2.length := by
    rw [hcalls]
    intro c hc
    obtain ⟨p, -, rfl⟩ := List.mem_map.mp hc
    exact p.length_ge
  have hmoved : moved t.calls = ((ps.map fun p => p.bytes.length).map toInt32).sum := by
    rw [hcalls, moved, List.map_map, List.map_map]
    congr 1
    exact List.map_congr_left fun p _ => by
      change toInt32 (packetLenOf p.bytes) = toInt32 p.bytes.length
      rw [p.packetLen]
  have hbalance := hbalance h8
  rw [balance, balance, hvalid, hdone hvalid, hmoved, List.length_nil] at hbalance
  change _ = (0 : Nat) + moved [] + (stream.flatten.length : Int) at hbalance
  rw [hstream, length_stream] at hbalance
  simp only [moved, List.map_nil, List.sum_nil] at hbalance
  grind [sum_toInt32_eq]

/-! ## Every cut of the stream -/

/-- However the stream of some packets is cut into chunks, the render thread
dispatches exactly these packets and stops with nothing left over, if and only if
each of them is shorter than 2^31 bytes. -/
theorem dispatches_iff_short (known : DecoderId → Nat → Bool) (heap : Mem) (ps : List Packet)
    (hone : ∀ p ∈ ps, KnownToOne known p) (chunks : Socket) (hs : chunks.NonEmpty)
    (hstream : chunks.flatten = Packet.stream ps) :
    Dispatches known heap chunks ps ↔ ∀ p ∈ ps, p.bytes.length < 2 ^ 31 := by
  refine ⟨length_lt_of_dispatches hs hstream, fun hlt => ?_⟩
  have hempty : (RenderThread.start heap chunks).readBuf.contents = [] := List.take_zero
  obtain ⟨b, s, hmain, hvalid⟩ := mainLoop_spec (t := .start heap chunks) hone hlt hs
    (Or.inl (by rw [hempty]; decide)) (Nat.pow_pos (by decide)) (by rw [hempty]; exact hstream)
    (Nat.le_refl _)
  exact ⟨_, _, hmain, rfl, hvalid⟩

def sizedBytes (n : Nat) : List UInt8 :=
  leBytes 4 1 ++ (leBytes 4 n ++ List.replicate (n - 8) 0)

theorem length_sizedBytes {n : Nat} (h8 : 8 ≤ n) : (sizedBytes n).length = n := by
  simp only [sizedBytes, List.length_append, leBytes_length, List.length_replicate]
  omega

theorem packetLenOf_sizedBytes {n : Nat} (h8 : 8 ≤ n) (hlt : n < 2 ^ 32) :
    packetLenOf (sizedBytes n) = (sizedBytes n).length := by
  rw [length_sizedBytes h8, packetLenOf, sizedBytes, List.drop_left' (leBytes_length 4 1),
    List.take_left' (leBytes_length 4 n), ofLE_leBytes hlt]

/-- A packet of `n` bytes with opcode 1. -/
def sizedPacket (n : Nat) (h8 : 8 ≤ n) (hlt : n < 2 ^ 32) : Packet where
  bytes := sizedBytes n
  length_ge := (length_sizedBytes h8).symm ▸ h8
  packetLen := packetLenOf_sizedBytes h8 hlt

private def glOnly (d : DecoderId) (_ : Nat) : Bool := d == .gl

private theorem glOnly_one (p : Packet) : KnownToOne glOnly p :=
  ⟨.gl, rfl, fun d hd => by simpa [glOnly] using hd⟩

/-- Two packets, cut inside both headers. -/
theorem dispatches_iff_short_cut :
    Dispatches glOnly (fun _ => 0) [[1, 0], [0, 0, 9, 0, 0, 0, 0, 1], [0, 0, 0, 8, 0, 0, 0]]
        [sizedPacket 9 (by decide) (by decide), sizedPacket 8 (by decide) (by decide)] ↔
      ∀ p ∈ [sizedPacket 9 (by decide) (by decide), sizedPacket 8 (by decide) (by decide)],
        p.bytes.length < 2 ^ 31 :=
  dispatches_iff_short glOnly (fun _ => 0) _ (fun p _ => glOnly_one p) _
    (by simp [Socket.NonEmpty]) (by decide)

/-- A packet of 2^31 bytes moves the cursor backwards. -/
theorem sizedPacket_not_dispatched :
    ¬ ∀ (known : DecoderId → Nat → Bool) (heap : Mem) (ps : List Packet) (chunks : Socket),
      (∀ p ∈ ps, KnownToOne known p) → chunks.NonEmpty → chunks.flatten = Packet.stream ps →
        Dispatches known heap chunks ps := by
  intro h
  obtain ⟨n, hn⟩ : ∃ n, n = 2 ^ 31 := ⟨_, rfl⟩
  have hlen : (sizedPacket n (by omega) (by omega)).bytes.length = n :=
    length_sizedBytes (by omega)
  generalize sizedPacket n (by omega) (by omega) = p at hlen
  have hs : Socket.NonEmpty [p.bytes] := by
    intro c hc
    rw [List.mem_singleton] at hc
    rintro rfl
    rw [← hc] at hlen
    exact absurd hlen (by rw [hn]; decide)
  have hstream : ([p.bytes] : Socket).flatten = Packet.stream [p] := by simp
  have hlt := length_lt_of_dispatches hs hstream
    (h glOnly (fun _ => 0) [p] [p.bytes] (fun q _ => glOnly_one q) hs hstream) p (by simp)
  omega

end AndroidRenderer.OpenglRender
