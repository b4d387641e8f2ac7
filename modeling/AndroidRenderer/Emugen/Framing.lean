import AndroidRenderer.Emugen.DecodeLoop
import AndroidRenderer.Emugen.RoundTrip

/-!
# Packet framing

The encoder sums all sizes once for the header's `packetSize` and again, fragment by
fragment, for what it allocates and writes. Both sums are `unsigned int`, so they
agree modulo 2^32: `wireSize` is what the fragments and the direct writes add up to,
`packetSize` is its remainder. The decoder then moves its cursor by the length field
read as an `int`.

A sequence of calls is framed exactly when every call fits its fragments and emits
less than 2^31 bytes.
-/

namespace AndroidRenderer.Emugen

open LittleEndian

/-- One call through the encoder. -/
structure Call where
  entry : EntryPoint
  opcode : Nat
  args : Args
  opcode_lt : opcode < 2 ^ 32

/-- The generated encoder runs on whatever the stream already carries. -/
def Call.emit (junk : Mem) (c : Call) (s : EncState) : Option EncState :=
  execAll (callEnv c.entry c.opcode c.args junk) (genEncoderImpl c.entry) s

def emitAll (junk : Mem) : List Call → EncState → Option EncState
  | [], s => some s
  | c :: cs, s => (c.emit junk s).bind (emitAll junk cs)

/-- In the stream `m`, written by running the calls from `s`, each packet starts with
its opcode, its length field is the number of bytes the call emitted, and adding that
field to the cursor leads to the start of the next packet. -/
def FramedFrom (junk m : Mem) : List Call → EncState → Prop
  | [], _ => True
  | c :: cs, s => ∃ t, c.emit junk s = some t ∧
      loadLE m s.emitted.length 4 = c.opcode ∧
      s.emitted.length + loadLE m (s.emitted.length + 4) 4 = t.emitted.length ∧
      (s.emitted.length : Int) + toInt32 (loadLE m (s.emitted.length + 4) 4) =
        t.emitted.length ∧
      FramedFrom junk m cs t

/-- The calls are emitted and framed; `rest` is what follows them in the stream. -/
def Framed (junk rest : Mem) (cs : List Call) : Prop :=
  ∃ t, emitAll junk cs .start = some t ∧ FramedFrom junk (ofList t.emitted rest) cs .start

/-- The bytes the fragments and direct writes take, each fragment's sum wrapping on
its own; `a` is the sum of the current fragment. -/
def wireSize (args : Args) : Nat → List Param → Nat
  | a, [] => a % 2 ^ 32
  | a, p :: ps =>
      if p.1.isLarge then a % 2 ^ 32 + allocSize args p + wireSize args 0 ps
      else wireSize args (a + allocSize args p) ps

/-- Every fragment holds what is stored into it and the packet is shorter than 2^31. -/
def Call.Framable (c : Call) : Prop :=
  Fits c.args 8 8 c.entry.params ∧ wireSize c.args 8 c.entry.params < 2 ^ 31

/-! ## Sizes -/

theorem wireSize_mod (args : Args) (a : Nat) (ps : List Param) :
    wireSize args a ps % 2 ^ 32 = (a + (ps.map (allocSize args)).sum) % 2 ^ 32 := by
  induction ps generalizing a with
  | nil => simp [wireSize]
  | cons p ps ih =>
      rw [wireSize, List.map_cons, List.sum_cons]
      grind

theorem sentLarge_length {args : Args} {junk : Mem} {pos : Nat} {p : Param}
    (hc : (args p.2).Conforms p.1) (hl : p.1.isLarge = true) :
    (sentLarge args junk pos p).length = allocSize args p := by
  have hp := Var.isLarge_isPointer hl
  rw [sentLarge, allocSize, if_pos hp, List.length_append, leBytes_length, Nat.add_comm]
  grind [size, size_of_buffer]

/-- The layout of a packet that fits has the length of its fragments and direct writes. -/
theorem layout_length {args : Args} {junk : Mem} {ps : List Param} (hc : args.Conform ps)
    {pos a w : Nat} (hfits : Fits args a w ps) :
    w + (layout args junk pos a w ps).length = wireSize args a ps := by
  induction ps generalizing pos a w with
  | nil => grind [Fits, layout, wireSize, gap]
  | cons p ps ih =>
      have hcps : args.Conform ps := fun q hq => hc q (by simp [hq])
      have hcp := hc p (by simp)
      rw [Fits] at hfits
      rw [layout, wireSize]
      split
      · rename_i hl
        rw [if_pos hl] at hfits
        have hbody := @sentLarge_length args junk (pos + gap a w) p hcp hl
        grind [gap]
      · grind

/-! ## One call -/

theorem execAll_genReadback (env : EncEnv) (e : EntryPoint) (s : EncState) :
    execAll env (genReadback e) s = some s := by
  have hreads : ∀ ps : List Param, execAll env (ps.map .readback) s = some s := by
    intro ps
    induction ps with
    | nil => rfl
    | cons p ps ih => simpa [execAll, EncStmt.exec] using ih
  rw [genReadback, execAll_append, hreads, Option.bind_some]
  split
  · rfl
  · split <;> rfl

theorem emit_emitted (junk : Mem) (c : Call) (s : EncState) :
    (c.emit junk s).map EncState.emitted =
      if Fits c.args 8 8 c.entry.params then
        some (s.emitted ++ header c.opcode (evalSize c.args (packetSizeExpr c.entry.params)) ++
          layout c.args junk (s.emitted.length + 8) 8 8 c.entry.params)
      else none := by
  have hreadback : execAll (callEnv c.entry c.opcode c.args junk) (genReadback c.entry) = some :=
    funext fun t => execAll_genReadback _ c.entry t
  simp [Call.emit, genEncoderImpl, execAll_append, Option.bind_fun_some, execAll_genPack, hreadback]

/-- The stream only grows. -/
theorem emitAll_prefix {junk : Mem} {cs : List Call} {s t : EncState}
    (h : emitAll junk cs s = some t) : s.emitted <+: t.emitted := by
  induction cs generalizing s with
  | nil =>
      obtain rfl := Option.some.inj h
      exact List.prefix_refl _
  | cons c cs ih =>
      obtain ⟨u, hu, ht⟩ := Option.bind_eq_some_iff.mp h
      refine List.IsPrefix.trans ?_ (ih ht)
      grind [emit_emitted]

/-- What a call that fits leaves in the stream: its header and `wireSize` bytes. -/
theorem emit_spec (junk : Mem) {c : Call} (hc : c.args.Conform c.entry.params)
    (hfits : Fits c.args 8 8 c.entry.params) (s : EncState) :
    ∃ t tail, c.emit junk s = some t ∧
      t.emitted = s.emitted ++ (leBytes 4 c.opcode ++
        (leBytes 4 (wireSize c.args 8 c.entry.params % 2 ^ 32) ++ tail)) ∧
      t.emitted.length = s.emitted.length + wireSize c.args 8 c.entry.params := by
  have hemitted := emit_emitted junk c s
  rw [if_pos hfits, packetSize_eq, ← wireSize_mod] at hemitted
  obtain ⟨t, ht, htemitted⟩ := Option.map_eq_some_iff.mp hemitted
  refine ⟨t, _, ht, by rw [htemitted, header, List.append_assoc, List.append_assoc], ?_⟩
  grind [header_length, layout_length]

/-- The length field of a call leads to the next packet if and only if it is framable. -/
theorem lands_iff (n pos : Nat) :
    (pos + n % 2 ^ 32 = pos + n ∧ (pos : Int) + toInt32 (n % 2 ^ 32) = (pos + n : Nat)) ↔
      n < 2 ^ 31 := by
  constructor
  · rintro ⟨hsize, hland⟩
    have hn : n % 2 ^ 32 = n := Nat.add_left_cancel hsize
    rw [hn] at hland
    exact toInt32_eq_self_iff.mp (by omega)
  · grind [toInt32_of_lt]

/-! ## Sequences of calls -/

theorem framedFrom_iff {junk : Mem} {cs : List Call}
    (hc : ∀ c ∈ cs, c.args.Conform c.entry.params) {s t : EncState}
    (ht : emitAll junk cs s = some t) (rest : Mem) :
    FramedFrom junk (ofList t.emitted rest) cs s ↔ ∀ c ∈ cs, c.Framable := by
  induction cs generalizing s with
  | nil => simp [FramedFrom]
  | cons c cs ih =>
      obtain ⟨u, hu, hut⟩ := Option.bind_eq_some_iff.mp ht
      have hih := ih (fun d hd => hc d (by simp [hd])) hut
      have hcc := hc c (by simp)
      have hfits : Fits c.args 8 8 c.entry.params := by
        by_contra hfits
        grind [emit_emitted]
      obtain ⟨u', tail, hu', hemitted, hlen⟩ := emit_spec junk hcc hfits s
      obtain rfl := Option.some.inj (hu.symm.trans hu')
      -- the header of the packet in the final stream
      have hmem : Holds (ofList t.emitted rest) s.emitted.length (leBytes 4 c.opcode ++
          (leBytes 4 (wireSize c.args 8 c.entry.params % 2 ^ 32) ++ tail)) := by
        obtain ⟨more, hmore⟩ := emitAll_prefix hut
        rw [← hmore, hemitted, List.append_assoc]
        exact (holds_append.mp (holds_behind s.emitted _ rest)).1
      rw [holds_append, holds_append, leBytes_length] at hmem
      obtain ⟨hopcode, hsize, -⟩ := hmem
      rw [FramedFrom, List.forall_mem_cons, ← hih, hopcode.loadLE c.opcode_lt,
        hsize.loadLE (Nat.mod_lt _ (by decide))]
      constructor
      · rintro ⟨u', hu', -, hland, hland', hrest⟩
        obtain rfl := Option.some.inj (hu.symm.trans hu')
        rw [hlen] at hland hland'
        exact ⟨⟨hfits, (lands_iff _ _).mp ⟨hland, hland'⟩⟩, hrest⟩
      · rintro ⟨hframable, hrest⟩
        have hland := (lands_iff _ s.emitted.length).mpr hframable.2
        grind

theorem emitAll_isSome (junk : Mem) {cs : List Call}
    (hc : ∀ c ∈ cs, c.args.Conform c.entry.params) (hcs : ∀ c ∈ cs, c.Framable) (s : EncState) :
    ∃ t, emitAll junk cs s = some t := by
  induction cs generalizing s with
  | nil => exact ⟨s, rfl⟩
  | cons c cs ih =>
      obtain ⟨u, -, hu, -⟩ := emit_spec junk (hc c (by simp)) (hcs c (by simp)).1 s
      obtain ⟨t, ht⟩ := ih (fun d hd => hc d (by simp [hd])) (fun d hd => hcs d (by simp [hd])) u
      exact ⟨t, by rw [emitAll, hu, Option.bind_some, ht]⟩

/-- A sequence of calls is framed exactly when each of its calls is framable. -/
theorem framed_iff_framable (junk rest : Mem) (cs : List Call)
    (hc : ∀ c ∈ cs, c.args.Conform c.entry.params) :
    Framed junk rest cs ↔ ∀ c ∈ cs, c.Framable := by
  constructor
  · rintro ⟨t, ht, hframed⟩
    exact (framedFrom_iff hc ht rest).mp hframed
  · intro hcs
    obtain ⟨t, ht⟩ := emitAll_isSome junk hc hcs .start
    exact ⟨t, ht, (framedFrom_iff hc ht rest).mpr hcs⟩

theorem framed_iff_framable_bufferData :
    Framed (fun _ => 0) (fun _ => 0) [⟨bufferDataLike, 5, bufferDataArgs, by decide⟩] ↔
      ∀ c ∈ [(⟨bufferDataLike, 5, bufferDataArgs, by decide⟩ : Call)], c.Framable :=
  framed_iff_framable (fun _ => 0) (fun _ => 0) _ (by
    simpa using bufferDataArgs_conform)

/-- The same call with `n` bytes behind the large pointer. -/
private def sizedArgs (n : Nat) : Args
  | 0 => .scalar 3
  | _ => .buffer false (List.replicate n 0)

private def sizedCall (n : Nat) : Call := ⟨bufferDataLike, 5, sizedArgs n, by decide⟩

private theorem sizedArgs_conform {n : Nat} (hn : n < 2 ^ 32) :
    (sizedArgs n).Conform bufferDataLike.params := by
  intro p hp
  simp only [EntryPoint.params, bufferDataLike, List.zipIdx_cons, List.zipIdx_nil,
    List.mem_cons, List.not_mem_nil, or_false] at hp
  rcases hp with rfl | rfl
  · exact .scalar rfl (by decide)
  · exact .buffer rfl rfl (by rwa [List.length_replicate]) (by simp)

private theorem wireSize_sizedArgs {n : Nat} (hn : n < 2 ^ 32) :
    wireSize (sizedArgs n) 8 bufferDataLike.params = n + 16 := by
  have hsize : size (sizedArgs n) (⟨ptrType, .pointerIn, true, true, by decide⟩, 1) = n := by
    simp [size, sizedArgs, Arg.isNull, Arg.len]
    omega
  simp only [bufferDataLike, EntryPoint.params, List.zipIdx_cons, List.zipIdx_nil, wireSize,
    allocSize, hsize]
  simp [Var.isPointer, ptrType, intType, VarType.bytes, VarConverter.bytes]
  omega

/-- Two gigabytes less one byte: the length field is negative as an `int`. -/
theorem sizedCall_not_framed :
    ¬ ∀ (junk rest : Mem) (cs : List Call), (∀ c ∈ cs, c.args.Conform c.entry.params) →
      Framed junk rest cs := by
  intro h
  generalize hn : 2 ^ 31 - 1 = n
  have hn32 : n < 2 ^ 32 := by omega
  have hc : ∀ c ∈ [sizedCall n], c.args.Conform c.entry.params := by
    rw [List.forall_mem_singleton]
    exact sizedArgs_conform hn32
  obtain ⟨t, ht, hframed⟩ := h (fun _ => 0) (fun _ => 0) [sizedCall n] hc
  have hframable := (framedFrom_iff hc ht fun _ => 0).mp hframed (sizedCall n) (by simp)
  have hsize := hframable.2
  rw [sizedCall, wireSize_sizedArgs hn32] at hsize
  omega

end AndroidRenderer.Emugen
