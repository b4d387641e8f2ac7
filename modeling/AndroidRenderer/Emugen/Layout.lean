import AndroidRenderer.Emugen.Encoder
import Mathlib.Data.List.TakeWhile

/-!
# The bytes of a packet, parameter by parameter

The generated code allocates fragment by fragment. `layout` describes the same
bytes in one pass over the parameters: it carries the sum `a` that the current
fragment's `alloc` is asked for and the number `w` of bytes stored into it. At the
end of a fragment the difference is a gap of undetermined bytes: `out` pointers
are counted with their length by `alloc`, but only their length field is stored.

`encode_eq` states that the generated encoder emits exactly this layout, and that
it overflows its buffer exactly when `Fits` fails.
-/

namespace AndroidRenderer.Emugen

open LittleEndian

def allocSize (args : Args) (p : Param) : Nat :=
  if p.1.isPointer then size args p + 4 else p.1.type.bytes

/-- The data bytes of a pointer that sends them. -/
def sentBytes (args : Args) (p : Param) : List UInt8 :=
  if p.1.nullAllowed && (args p.2).isNull then []
  else (args p.2).data.take (size args p)

/-- What the code stores into the fragment for a parameter that is not large. -/
def stored (args : Args) (p : Param) : List UInt8 :=
  if p.1.isPointer then
    leBytes 4 (size args p) ++ if p.1.sendsData then sentBytes args p else []
  else leBytes p.1.type.bytes (args p.2).value

/-- What the code sends directly for a large parameter whose length field lies at
stream position `pos`. -/
def sentLarge (args : Args) (junk : Mem) (pos : Nat) (p : Param) : List UInt8 :=
  leBytes 4 (size args p) ++
    if p.1.sendsData then sentBytes args p
    else if p.1.nullAllowed && (args p.2).isNull then []
    else load junk (pos + 4) (size args p)

/-- The gap that a fragment with sum `a` and `w` stored bytes leaves. -/
def gap (a w : Nat) : Nat := a % 2 ^ 32 - w

/-- The emitted bytes of the remaining parameters, from stream position `pos`. -/
def layout (args : Args) (junk : Mem) : Nat → Nat → Nat → List Param → List UInt8
  | pos, a, w, [] => load junk pos (gap a w)
  | pos, a, w, p :: ps =>
      if p.1.isLarge then
        let body := sentLarge args junk (pos + gap a w) p
        load junk pos (gap a w) ++ body ++
          layout args junk (pos + gap a w + body.length) 0 0 ps
      else
        stored args p ++ layout args junk (pos + (stored args p).length)
          (a + allocSize args p) (w + (stored args p).length) ps

/-- No fragment stores more bytes than its `alloc` was asked for. -/
def Fits (args : Args) : Nat → Nat → List Param → Prop
  | a, w, [] => w ≤ a % 2 ^ 32
  | a, w, p :: ps =>
      if p.1.isLarge then w ≤ a % 2 ^ 32 ∧ Fits args 0 0 ps
      else Fits args (a + allocSize args p) (w + (stored args p).length) ps

instance Fits.decidable (args : Args) : (a w : Nat) → (ps : List Param) →
    Decidable (Fits args a w ps)
  | a, w, [] => inferInstanceAs (Decidable (w ≤ a % 2 ^ 32))
  | a, w, p :: ps =>
      have := Fits.decidable args 0 0 ps
      have := Fits.decidable args (a + allocSize args p) (w + (stored args p).length) ps
      by unfold Fits; infer_instance

def header (opcode packetSize : Nat) : List UInt8 := leBytes 4 opcode ++ leBytes 4 packetSize

@[simp] theorem header_length (opcode packetSize : Nat) :
    (header opcode packetSize).length = 8 := by
  simp [header]

/-! ## Sizes -/

private theorem npointers_eq (ps : List Param) :
    (ps.map fun p => (writeVarEncodingSize p).2).sum * 4 =
      (ps.map fun p => if p.1.isPointer then 4 else 0).sum := by
  induction ps with
  | nil => rfl
  | cons p ps ih =>
      simp only [List.map_cons, List.sum_cons, Nat.add_mul, ih]
      cases hp : p.1.isPointer <;> simp [writeVarEncodingSize, hp]

private theorem sum_sizeTerms (args : Args) (ps : List Param) :
    ((sizeTerms ps).map (SizeTerm.eval args)).sum = (ps.map (allocSize args)).sum := by
  have hpoint : ∀ ps : List Param,
      (ps.map fun p => SizeTerm.eval args (writeVarEncodingSize p).1).sum +
        (ps.map fun p => if p.1.isPointer then 4 else 0).sum = (ps.map (allocSize args)).sum := by
    intro ps
    induction ps with
    | nil => rfl
    | cons p ps ih =>
        simp only [List.map_cons, List.sum_cons, ← ih]
        cases hp : p.1.isPointer <;>
          simp [writeVarEncodingSize, allocSize, SizeTerm.eval, hp] <;> omega
  rw [← hpoint, ← npointers_eq, sizeTerms]
  simp only [List.map_append, List.map_map, List.sum_append, Function.comp_def]
  split
  · simp [SizeTerm.eval]
  · rename_i hz
    simp only [Nat.not_lt, Nat.le_zero_eq] at hz
    simp [hz]

/-- A printed fragment size is the sum of what its parameters add. -/
theorem evalSize_sizeTerms (args : Args) (ps : List Param) :
    evalSize args (sizeTerms ps) = (ps.map (allocSize args)).sum % 2 ^ 32 := by
  rw [evalSize, sum_sizeTerms]

theorem evalSize_const_sizeTerms (args : Args) (n : Nat) (ps : List Param) :
    evalSize args (.const n :: sizeTerms ps) = (n + (ps.map (allocSize args)).sum) % 2 ^ 32 := by
  rw [evalSize, List.map_cons, List.sum_cons, sum_sizeTerms]
  rfl

/-! ## Conforming arguments -/

theorem size_of_buffer {args : Args} {p : Param} (hc : (args p.2).Conforms p.1)
    (hp : p.1.isPointer = true) (hd : p.1.sendsData = true) :
    sentBytes args p = (if p.1.nullAllowed && (args p.2).isNull then [] else (args p.2).data) ∧
      (sentBytes args p).length = size args p := by
  revert hc
  unfold sentBytes size
  generalize args p.2 = arg
  intro hc
  cases hc with
  | scalar hp' => simp [hp] at hp'
  | room _ hd' => simp [hd] at hd'
  | @buffer null data _ _ hlen _ =>
      cases hn : p.1.nullAllowed && null with
      | true => simp [Arg.isNull, hn]
      | false =>
          simp only [Arg.isNull, Arg.data, Arg.len, hn, Bool.false_eq_true, if_false]
          rw [Nat.mod_eq_of_lt hlen, List.take_length]
          exact ⟨rfl, rfl⟩

/-- What is stored for a parameter is what it adds to the printed sizes, unless
the parameter is an `out` pointer with room. -/
theorem stored_length {args : Args} {p : Param} (hc : (args p.2).Conforms p.1) :
    (stored args p).length +
      (if p.1.isPointer && !p.1.sendsData then size args p else 0) = allocSize args p := by
  unfold stored allocSize
  cases hp : p.1.isPointer with
  | false => simp
  | true =>
      cases hd : p.1.sendsData with
      | false => simp [Nat.add_comm]
      | true =>
          have hlen := (size_of_buffer hc hp hd).2
          simp [hlen, Nat.add_comm]

theorem stored_length_le {args : Args} {p : Param} (hc : (args p.2).Conforms p.1) :
    (stored args p).length ≤ allocSize args p :=
  stored_length hc ▸ Nat.le_add_right _ _

/-- A packet whose sizes do not wrap fits. -/
theorem fits_of_lt {args : Args} {ps : List Param} (hc : args.Conform ps) {a w : Nat}
    (hw : w ≤ a) (ha : a + (ps.map (allocSize args)).sum < 2 ^ 32) : Fits args a w ps := by
  induction ps generalizing a w with
  | nil =>
      rw [Fits]
      simp only [List.map_nil, List.sum_nil] at ha
      rwa [Nat.mod_eq_of_lt (by omega)]
  | cons p ps ih =>
      have hcps : args.Conform ps := fun q hq => hc q (by simp [hq])
      have hstored := stored_length_le (hc p (by simp))
      simp only [List.map_cons, List.sum_cons] at ha
      rw [Fits]
      split
      · exact ⟨by rw [Nat.mod_eq_of_lt (by omega)]; omega,
          ih hcps (Nat.le_refl 0) (by omega)⟩
      · exact ih hcps (by omega) (by omega)

/-! ## Stores -/

/-- Two stores in a row are one store of the concatenation. -/
@[simp] theorem EncState.store_append (s : EncState) (a b : List UInt8) :
    (s.store a).bind (·.store b) = s.store (a ++ b) := by
  simp only [EncState.store, ← Buffer.store?_bind_store? s.region s.ptr a b, List.length_append,
    ← Nat.add_assoc]
  cases Buffer.store? s.region s.ptr a <;> rfl

theorem EncState.alloc_store (env : EncEnv) (s : EncState) (n : Nat) (bs : List UInt8) :
    (s.alloc env n).store bs =
      if bs.length ≤ n then
        some ⟨s.wire, s.region ++ bs ++
          load env.junk (s.emitted.length + bs.length) (n - bs.length),
          s.region.length + bs.length⟩
      else none := by
  simp only [EncState.store, EncState.alloc, Buffer.store?_append, EncState.fresh, load_length]
  split
  · rename_i hb
    have hsplit : load env.junk (s.wire.length + s.region.length) n =
        load env.junk s.emitted.length bs.length ++
          load env.junk (s.emitted.length + bs.length) (n - bs.length) := by
      rw [← load_add, Nat.add_sub_of_le hb, EncState.emitted, List.length_append]
    rw [hsplit, List.drop_left' (by simp)]
    rfl
  · rfl

private theorem exec_storeData (env : EncEnv) (s : EncState) (p : Param)
    (hd : p.1.sendsData = true) :
    (EncStmt.storeData p).exec env s = s.store (sentBytes env.args p) := by
  simp [EncStmt.exec, pointerBytes, sentBytes, hd]

private theorem store_nil (s : EncState) (h : s.ptr ≤ s.region.length) : s.store [] = some s := by
  simp [EncState.store, Buffer.store?, h]

theorem execAll_writeVarEncodingExpression (env : EncEnv) (s : EncState) (p : Param)
    (h : s.ptr ≤ s.region.length) :
    execAll env (writeVarEncodingExpression p) s = s.store (stored env.args p) := by
  unfold writeVarEncodingExpression stored
  by_cases hp : p.1.isPointer = true
  · simp only [hp, if_true]
    by_cases hd : p.1.sendsData = true
    · simp only [hd, if_true, execAll, exec_storeData _ _ _ hd, Option.bind_fun_some]
      exact EncState.store_append s _ _
    · simp only [hd, execAll, EncStmt.exec, if_false, Bool.false_eq_true, List.append_nil,
        Option.bind_fun_some]
  · simp only [hp, Bool.false_eq_true, if_false]
    by_cases hv : p.1.isVoid = true
    · simp only [hv, if_true, execAll, Var.bytes_of_isVoid hv, leBytes]
      exact (store_nil s h).symm
    · simp only [hv, Bool.false_eq_true, if_false, execAll, EncStmt.exec, Option.bind_fun_some]

theorem EncState.store_ptr_le {s t : EncState} {bs : List UInt8} (h : s.store bs = some t) :
    t.ptr ≤ t.region.length := by
  obtain ⟨region, hr, rfl⟩ := Option.map_eq_some_iff.mp h
  have hfit := Buffer.store?_isSome_iff.mp (Option.isSome_of_mem hr)
  rw [← Buffer.store?_length hr] at hfit
  exact hfit

/-- The stores of a fragment are one store of what its parameters put there. -/
theorem execAll_small (env : EncEnv) (ps : List Param) (s : EncState)
    (h : s.ptr ≤ s.region.length) :
    execAll env (ps.flatMap writeVarEncodingExpression) s =
      s.store (ps.flatMap (stored env.args)) := by
  induction ps generalizing s with
  | nil => exact (store_nil s h).symm
  | cons p ps ih =>
      simp only [List.flatMap_cons]
      rw [execAll_append, execAll_writeVarEncodingExpression env s p h,
        ← EncState.store_append]
      cases hs : s.store (stored env.args p) with
      | none => rfl
      | some t =>
          simp only [Option.bind_some]
          exact ih t (EncState.store_ptr_le hs)

/-! ## One turn of the fragment loop -/

section Fragments

variable {args : Args} {junk : Mem}

private def NotLarge (ps : List Param) : Prop := ∀ p ∈ ps, p.1.isLarge = false

theorem layout_small {small : List Param} (h : NotLarge small) (pos a w : Nat)
    (rest : List Param) :
    layout args junk pos a w (small ++ rest) =
      small.flatMap (stored args) ++
        layout args junk (pos + (small.flatMap (stored args)).length)
          (a + (small.map (allocSize args)).sum)
          (w + (small.flatMap (stored args)).length) rest := by
  induction small generalizing pos a w with
  | nil => rfl
  | cons p small ih =>
      have hp : p.1.isLarge = false := h p (by simp)
      rw [List.cons_append, layout, if_neg (by simp [hp]),
        ih (fun q hq => h q (by simp [hq]))]
      simp only [List.flatMap_cons, List.map_cons, List.sum_cons, List.length_append,
        List.append_assoc, Nat.add_assoc]

theorem fits_small {small : List Param} (h : NotLarge small) (a w : Nat) (rest : List Param) :
    Fits args a w (small ++ rest) ↔
      Fits args (a + (small.map (allocSize args)).sum)
        (w + (small.flatMap (stored args)).length) rest := by
  induction small generalizing a w with
  | nil => rfl
  | cons p small ih =>
      have hp : p.1.isLarge = false := h p (by simp)
      rw [List.cons_append, Fits, if_neg (by simp [hp]), ih (fun q hq => h q (by simp [hq]))]
      simp only [List.flatMap_cons, List.map_cons, List.sum_cons, List.length_append,
        Nat.add_assoc]

/-- A fragment ends at a large parameter or at the end of the list; both check the
stored bytes against the allocation and leave the gap. -/
theorem layout_end (pos a w : Nat) {rest : List Param}
    (h : ∀ p ∈ rest.head?, p.1.isLarge = true) :
    layout args junk pos a w rest =
      load junk pos (gap a w) ++ layout args junk (pos + gap a w) 0 0 rest := by
  cases rest with
  | nil => simp [layout, gap]
  | cons p ps =>
      have hp := h p rfl
      simp [layout, hp, gap, Nat.add_assoc]

theorem fits_end (a w : Nat) {rest : List Param} (h : ∀ p ∈ rest.head?, p.1.isLarge = true) :
    Fits args a w rest ↔ w ≤ a % 2 ^ 32 ∧ Fits args 0 0 rest := by
  cases rest with
  | nil => simp [Fits]
  | cons p ps =>
      have hp := h p rfl
      simp [Fits, hp]

/-- Size and data of a large pointer go straight to the wire. -/
theorem execAll_large (env : EncEnv) (s : EncState) (p : Param) (hs : s.region = []) :
    execAll env (writeVarLargeEncodingExpression p) s =
      some (s.writeFully (sentLarge env.args env.junk s.emitted.length p)) := by
  simp only [writeVarLargeEncodingExpression, execAll, EncStmt.exec, Option.bind_some,
    EncState.writeFully, Option.some.injEq, EncState.mk.injEq, and_true, List.append_assoc,
    List.append_cancel_left_eq, sentLarge, pointerBytes, sentBytes, EncState.fresh,
    EncState.emitted, hs]
  cases hn : p.1.nullAllowed && (env.args p.2).isNull <;> simp

theorem execAll_larges (env : EncEnv) (large : List Param) (s : EncState) (hs : s.region = [])
    (hl : ∀ p ∈ large, p.1.isLarge = true) :
    ∃ t, execAll env (large.flatMap writeVarLargeEncodingExpression) s = some t ∧
      t.region = [] ∧ ∀ rest, (Fits env.args 0 0 (large ++ rest) ↔ Fits env.args 0 0 rest) ∧
        s.emitted ++ layout env.args env.junk s.emitted.length 0 0 (large ++ rest) =
          t.emitted ++ layout env.args env.junk t.emitted.length 0 0 rest := by
  induction large generalizing s with
  | nil => exact ⟨s, rfl, hs, fun rest => ⟨Iff.rfl, rfl⟩⟩
  | cons p large ih =>
      have hp := hl p (by simp)
      obtain ⟨t, ht, hr, hrest⟩ := ih (s.writeFully (sentLarge env.args env.junk s.emitted.length p))
        hs (fun q hq => hl q (by simp [hq]))
      refine ⟨t, ?_, hr, fun rest => ⟨?_, ?_⟩⟩
      · rw [List.flatMap_cons, execAll_append, execAll_large env s p hs, Option.bind_some, ht]
      · simp [Fits, hp, (hrest rest).1]
      · rw [← (hrest rest).2, List.cons_append, layout]
        simp [hp, gap, EncState.emitted, EncState.writeFully, hs]

private def turnHeader (env : EncEnv) (first : Bool) : List UInt8 :=
  if first then header env.opcode env.packetSize else []

private theorem turnHeader_length (env : EncEnv) (first : Bool) :
    (turnHeader env first).length = if first then 8 else 0 := by
  cases first <;> simp [turnHeader]

private theorem execAll_header (env : EncEnv) (first : Bool) (s : EncState)
    (h : s.ptr ≤ s.region.length) :
    execAll env (if first then [.storeOpcode, .storePacketSize] else []) s =
      s.store (turnHeader env first) := by
  cases first with
  | false => exact (store_nil s h).symm
  | true =>
      simp only [if_true, execAll, EncStmt.exec, Option.bind_fun_some, turnHeader]
      exact EncState.store_append s _ _

/-- Allocate `n` bytes, store header and parameters, and flush before large data. -/
private theorem execAll_fragment (env : EncEnv) (s : EncState) (first flush : Bool)
    (alloc : EncStmt) (n : Nat) (small : List Param)
    (halloc : alloc.exec env s = some (s.alloc env n)) :
    let bs := turnHeader env first ++ small.flatMap (stored env.args)
    let r := execAll env ([alloc] ++ (if first then [.storeOpcode, .storePacketSize] else []) ++
      small.flatMap writeVarEncodingExpression ++ (if flush then [.flush] else [])) s
    (n < bs.length → r = none) ∧
      (bs.length ≤ n → ∃ t, r = some t ∧ (flush = true → t.region = []) ∧
        t.emitted = s.emitted ++ bs ++ load env.junk (s.emitted.length + bs.length)
          (n - bs.length)) := by
  intro bs r
  have hptr : (s.alloc env n).ptr ≤ (s.alloc env n).region.length := by
    simp [EncState.alloc]
  have hstores : execAll env ((if first then [.storeOpcode, .storePacketSize] else []) ++
      small.flatMap writeVarEncodingExpression) (s.alloc env n) = (s.alloc env n).store bs := by
    rw [execAll_append, execAll_header env first _ hptr]
    change _ = (s.alloc env n).store (turnHeader env first ++ _)
    rw [← EncState.store_append]
    cases ht : (s.alloc env n).store (turnHeader env first) with
    | none => rfl
    | some t =>
        simp only [Option.bind_some]
        exact execAll_small env small t (EncState.store_ptr_le ht)
  have hr : r = ((s.alloc env n).store bs).bind (execAll env (if flush then [.flush] else [])) := by
    change execAll env _ s = _
    rw [execAll_append, List.append_assoc, List.singleton_append]
    simp only [execAll, halloc, Option.bind_some, hstores]
  rw [EncState.alloc_store] at hr
  refine ⟨fun hlt => ?_, fun hle => ?_⟩
  · rw [hr, if_neg (by omega)]
    rfl
  · rw [if_pos hle, Option.bind_some] at hr
    cases flush with
    | false => exact ⟨_, hr, by simp, by simp [EncState.emitted]⟩
    | true => exact ⟨_, hr, fun _ => rfl, by simp [EncState.emitted]⟩

private theorem takeWhile_notLarge (ps : List Param) :
    NotLarge (ps.takeWhile fun p => !p.1.isLarge) := by
  intro p hp
  simpa using List.all_eq_true.mp List.all_takeWhile p hp

private theorem head?_dropWhile {α : Type} (f : α → Bool) (l : List α) :
    ∀ p ∈ (l.dropWhile f).head?, f p = false := by
  intro p hp
  have hne : l.dropWhile f ≠ [] := by
    rintro h
    simp [h] at hp
  have := List.head_dropWhile_not f hne
  rw [List.head?_eq_some_head hne] at hp
  obtain rfl := Option.some.inj hp
  exact this

/-- The fragment of one turn, whether the turn needs one or not. -/
private theorem execAll_genFragment (env : EncEnv) (s : EncState) (first : Bool)
    (small rest : List Param) (hs : first = false → s.region = [])
    (hsize : first = true → rest = [] →
      env.packetSize = (8 + (small.map (allocSize env.args)).sum) % 2 ^ 32) {bs : List UInt8}
    (hbs : bs = turnHeader env first ++ small.flatMap (stored env.args)) {n : Nat}
    (hn : n = ((turnHeader env first).length + (small.map (allocSize env.args)).sum) % 2 ^ 32) :
    (n < bs.length → execAll env (genFragment first small rest) s = none) ∧
      (bs.length ≤ n → ∃ t, execAll env (genFragment first small rest) s = some t ∧
        (rest ≠ [] → t.region = []) ∧
        t.emitted = s.emitted ++ bs ++ load env.junk (s.emitted.length + bs.length)
          (n - bs.length)) := by
  unfold genFragment
  by_cases hfrag : first || !small.isEmpty
  · obtain ⟨alloc, halloc, hexec⟩ : ∃ alloc, (if first && rest.isEmpty then [EncStmt.allocPacket]
        else [.alloc ((if first then [.const 8] else []) ++ sizeTerms small)]) = [alloc] ∧
        alloc.exec env s = some (s.alloc env n) := by
      by_cases hall : first && rest.isEmpty
      · refine ⟨.allocPacket, by rw [if_pos hall], ?_⟩
        simp only [Bool.and_eq_true, List.isEmpty_iff] at hall
        simp only [EncStmt.exec, hsize hall.1 hall.2, hn, turnHeader_length, hall.1, if_true]
      · refine ⟨_, by rw [if_neg hall], ?_⟩
        cases first with
        | false => simp [EncStmt.exec, evalSize_sizeTerms, hn, turnHeader]
        | true => simp [EncStmt.exec, evalSize_const_sizeTerms, hn, turnHeader]
    have hflush : (if rest.isEmpty then [] else [EncStmt.flush]) =
        if !rest.isEmpty then [EncStmt.flush] else [] := by
      cases rest.isEmpty <;> rfl
    have hrun := execAll_fragment env s first (!rest.isEmpty) alloc n small hexec
    rw [if_pos hfrag, halloc, hflush, hbs]
    refine ⟨hrun.1, fun hle => ?_⟩
    obtain ⟨t, ht, hregion, hemitted⟩ := hrun.2 hle
    exact ⟨t, ht, fun hne => hregion (by simpa using hne), hemitted⟩
  · rw [if_neg hfrag]
    simp only [Bool.or_eq_true, not_or, Bool.not_eq_true, Bool.not_eq_false',
      List.isEmpty_iff] at hfrag
    obtain ⟨rfl, rfl⟩ := hfrag
    refine ⟨fun h => ?_, fun _ => ⟨s, rfl, fun _ => hs rfl, ?_⟩⟩
    · simp [hbs, turnHeader] at h
    · simp [hbs, hn, turnHeader]

/-- The loop emits the layout of the parameters it is given, behind the header on
the first turn. Between turns nothing waits in the stream buffer. -/
theorem execAll_genFragments (env : EncEnv) (fuel : Nat) (first : Bool) (rest : List Param)
    (s : EncState) (hfuel : rest.length < fuel) (hs : first = false → s.region = [])
    (hsize : first = true →
      env.packetSize = (8 + (rest.map (allocSize env.args)).sum) % 2 ^ 32) {k : Nat}
    (hk : k = (turnHeader env first).length) :
    (execAll env (genFragments fuel first rest) s).map EncState.emitted =
      if Fits env.args k k rest then
        some (s.emitted ++ turnHeader env first ++
          layout env.args env.junk (s.emitted.length + k) k k rest)
      else none := by
  induction fuel generalizing first rest s k with
  | zero => omega
  | succ fuel ih =>
      by_cases hdone : rest.isEmpty && !first
      · -- the loop condition fails
        simp only [Bool.and_eq_true, List.isEmpty_iff, Bool.not_eq_true'] at hdone
        obtain ⟨rfl, rfl⟩ := hdone
        simp [genFragments, execAll, turnHeader, hk, Fits, layout, gap]
      rw [genFragments, if_neg hdone]
      dsimp only
      generalize hsmall : (rest.takeWhile fun p => !p.1.isLarge) = small
      generalize hrest' : (rest.dropWhile fun p => !p.1.isLarge) = rest'
      generalize hlarge : (rest'.takeWhile fun p => p.1.isLarge) = large
      generalize hnext : (rest'.dropWhile fun p => p.1.isLarge) = next
      have hsplit : rest = small ++ rest' := by
        rw [← hsmall, ← hrest', List.takeWhile_append_dropWhile]
      have hsplit' : rest' = large ++ next := by
        rw [← hlarge, ← hnext, List.takeWhile_append_dropWhile]
      have hnot : NotLarge small := hsmall ▸ takeWhile_notLarge rest
      have hhead : ∀ p ∈ rest'.head?, p.1.isLarge = true := by
        intro p hp
        have := head?_dropWhile (fun p : Param => !p.1.isLarge) rest p (hrest' ▸ hp)
        simpa using this
      have hlarges : ∀ p ∈ large, p.1.isLarge = true := by
        intro p hp
        exact List.all_eq_true.mp List.all_takeWhile p (hlarge ▸ hp)
      have hbs : (turnHeader env first ++ small.flatMap (stored env.args)).length =
          k + (small.flatMap (stored env.args)).length := by
        rw [List.length_append, hk]
      have hfits : Fits env.args k k rest ↔
          k + (small.flatMap (stored env.args)).length ≤
            (k + (small.map (allocSize env.args)).sum) % 2 ^ 32 ∧ Fits env.args 0 0 rest' := by
        rw [hsplit, fits_small hnot, fits_end _ _ hhead]
      have hturn := execAll_genFragment env s first small rest' hs (by
        intro hf he
        rw [hsize hf, hsplit, he, List.append_nil]) rfl rfl
      rw [hbs, ← hk] at hturn
      rw [List.append_assoc, execAll_append]
      by_cases hle : k + (small.flatMap (stored env.args)).length ≤
          (k + (small.map (allocSize env.args)).sum) % 2 ^ 32
      · obtain ⟨t, ht, hregion, hemitted⟩ := hturn.2 hle
        rw [ht, Option.bind_some, execAll_append]
        by_cases hrest : rest' = []
        · -- the fragment was the last one
          obtain ⟨rfl, rfl⟩ := List.append_eq_nil_iff.mp (hsplit'.symm.trans hrest)
          have hnil : genFragments fuel false ([] : List Param) = [] := by
            cases fuel <;> rfl
          rw [hrest] at hfits
          rw [if_pos (hfits.mpr ⟨hle, Nat.le_refl 0⟩), hnil]
          simp only [List.flatMap_nil, execAll, Option.bind_some, Option.map_some, hemitted]
          rw [hsplit, hrest, layout_small hnot, layout]
          simp only [gap, List.append_assoc, hk, Nat.add_assoc]
        · have hnext_lt : next.length < fuel := by
            have hpos : small ≠ [] ∨ large ≠ [] := by
              right
              rintro rfl
              obtain ⟨p, ps, hps⟩ := List.exists_cons_of_ne_nil hrest
              have hp := hhead p (by rw [hps]; rfl)
              rw [hps, List.takeWhile_cons, if_pos hp] at hlarge
              cases hlarge
            have : rest.length = small.length + (large.length + next.length) := by
              rw [hsplit, hsplit', List.length_append, List.length_append]
            rcases hpos with h | h <;> have := List.length_pos_iff.mpr h <;> omega
          obtain ⟨u, hu, huregion, hlayout⟩ :=
            execAll_larges env large t (hregion hrest) hlarges
          have hrec := ih false next u hnext_lt (fun _ => huregion) (by simp) rfl
          simp only [turnHeader, Bool.false_eq_true, if_false, List.length_nil, Nat.add_zero,
            List.append_nil, ← (hlayout next).2] at hrec
          rw [hu, Option.bind_some, hrec]
          have hgap : t.emitted.length = s.emitted.length + k +
              (small.flatMap (stored env.args)).length +
              gap (k + (small.map (allocSize env.args)).sum)
                (k + (small.flatMap (stored env.args)).length) := by
            simp [hemitted, gap, hk]
            omega
          have hnextFits : Fits env.args 0 0 next ↔ Fits env.args k k rest := by
            rw [hfits, hsplit', (hlayout next).1, and_iff_right hle]
          simp only [hnextFits, ← hsplit', hgap]
          rw [hsplit, layout_small hnot,
            layout_end _ (k + (small.map (allocSize env.args)).sum) _ hhead, hemitted]
          simp only [gap, List.append_assoc, hk, Nat.add_assoc]
      · rw [hturn.1 (by omega), if_neg (fun h => hle (hfits.mp h).1)]
        rfl

end Fragments

/-- `packetSize` in closed form. -/
theorem packetSize_eq (args : Args) (ps : List Param) :
    evalSize args (packetSizeExpr ps) = (8 + (ps.map (allocSize args)).sum) % 2 ^ 32 :=
  evalSize_const_sizeTerms args 8 ps

/-- The generated encoder appends header and layout to whatever the stream already
carries, or overflows its buffer when the packet does not fit. -/
theorem execAll_genPack (e : EntryPoint) (opcode : Nat) (args : Args) (junk : Mem)
    (s : EncState) :
    (execAll (callEnv e opcode args junk) (genPack e) s).map EncState.emitted =
      if Fits args 8 8 e.params then
        some (s.emitted ++ header opcode (evalSize args (packetSizeExpr e.params)) ++
          layout args junk (s.emitted.length + 8) 8 8 e.params)
      else none :=
  execAll_genFragments (callEnv e opcode args junk) (e.params.length + 1) true e.params s
    (Nat.lt_succ_self _) (by simp) (fun _ => packetSize_eq args e.params) rfl

theorem encode_eq (e : EntryPoint) (opcode : Nat) (args : Args) (junk : Mem) :
    encode e opcode args junk =
      if Fits args 8 8 e.params then
        some (header opcode (evalSize args (packetSizeExpr e.params)) ++
          layout args junk 8 8 8 e.params)
      else none := by
  rw [encode, execAll_genPack]
  rfl

end AndroidRenderer.Emugen
