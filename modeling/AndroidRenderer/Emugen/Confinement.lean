import AndroidRenderer.Emugen.DecodeLoop
import AndroidRenderer.Emugen.RoundTrip

/-!
# Which bytes a dispatched packet makes the decoder read

The loop of `decode` compares the length field of a packet with the bytes that
remain. The printed `case` bodies do not look at it again: they follow the length
fields inside the packet wherever these lead. `reads` lists the stretches of memory
that the body of one case reads for its arguments, the contents of its `in` and
`inout` pointers and the sizes of its reply.

`Fields` says that the bytes of a packet hold one field after another for the
parameters. It is exactly the condition under which the reads stay in the packet.
-/

namespace AndroidRenderer.Emugen

open LittleEndian

/-- Some bytes behind `ptr`. -/
structure Span where
  off : Nat
  len : Nat
  deriving DecidableEq, Repr

/-- The bytes lie among the first `n` behind `ptr`. -/
def Span.Inside (n : Nat) (s : Span) : Prop := ∀ i, s.off ≤ i → i < s.off + s.len → i < n

variable {n : Nat} {s : Span} {m : Mem} {ps : List Param} {spec : Nat → Option EntryPoint}

theorem Span.inside_iff : s.Inside n ↔ s.len = 0 ∨ s.off + s.len ≤ n := by
  constructor
  · intro h
    rcases Nat.eq_zero_or_pos s.len with hzero | hpos
    · exact .inl hzero
    · have := h (s.off + s.len - 1) (by omega) (by omega)
      exact .inr (by omega)
  · intro h i hle hlt
    omega

instance (n : Nat) (s : Span) : Decidable (s.Inside n) := decidable_of_iff' _ Span.inside_iff

/-- The length fields that an offset is computed from. -/
def OffExpr.reads (m : Mem) : OffExpr → List Span
  | .header => []
  | .skip off _ => off.reads m
  | .skipData off => off.reads m ++ [⟨off.eval m, 4⟩]

/-- The contents behind a pointer are as long as its length field says. -/
def DecArg.reads (m : Mem) : DecArg → List Span
  | .scalar off bytes => off.reads m ++ [⟨off.eval m, bytes⟩]
  | .data _ off =>
      off.reads m ++ [⟨off.eval m, 4⟩, ⟨off.eval m + 4, loadLE m (off.eval m) 4⟩]
  | .tmpPtr _ _ => []

/-- What a statement reads, apart from the header of the packet. -/
def DecStmt.reads (m : Mem) : DecStmt → List Span
  | .tmpSize _ off => off.reads m ++ [⟨off.eval m, 4⟩]
  | .inoutPtr _ off => off.reads m ++ [⟨off.eval m, 4⟩]
  | .call _ args => args.flatMap (DecArg.reads m)
  | _ => []

/-- What the case of `e` reads. -/
def reads (e : EntryPoint) (m : Mem) : List Span :=
  (genDecoderImpl e).flatMap (DecStmt.reads m)

/-- The case of `e` reads nothing outside the first `packetLen` bytes. -/
def Confined (e : EntryPoint) (m : Mem) (packetLen : Nat) : Prop :=
  ∀ s ∈ reads e m, s.Inside packetLen

/-! ## The fields of a packet -/

/-- How long the field of a parameter at the front of `bs` claims to be. -/
def fieldLength (p : Param) (bs : List UInt8) : Nat :=
  if p.1.isVoid then 0
  else if !p.1.isPointer then p.1.type.bytes
  else if p.1.sendsData then 4 + ofLE (bs.take 4)
  else 4

def Fields : List Param → List UInt8 → Prop
  | [], _ => True
  | p :: ps, bs => fieldLength p bs ≤ bs.length ∧ Fields ps (bs.drop (fieldLength p bs))

instance Fields.decidable : (ps : List Param) → (bs : List UInt8) → Decidable (Fields ps bs)
  | [], _ => isTrue trivial
  | _ :: ps, bs => @instDecidableAnd _ _ _ (Fields.decidable ps (bs.drop _))

/-- The packet is well formed for `e`, or `e` has nothing to read from it. -/
def WellFormed (e : EntryPoint) (packet : List UInt8) : Prop :=
  (∀ p ∈ e.params, p.1.isVoid = true) ∨ 8 ≤ packet.length ∧ Fields e.params (packet.drop 8)

instance (e : EntryPoint) (packet : List UInt8) : Decidable (WellFormed e packet) := by
  unfold WellFormed
  infer_instance

/-! ## Reads at numeric offsets -/

/-- The field of a parameter that lies at `off`. -/
def spansAt (m : Mem) (p : Param) (off : Nat) : List Span :=
  if p.1.isVoid then []
  else if !p.1.isPointer then [⟨off, p.1.type.bytes⟩]
  else if p.1.sendsData then [⟨off, 4⟩, ⟨off + 4, loadLE m off 4⟩]
  else [⟨off, 4⟩]

def spansFrom (m : Mem) : Nat → List Param → List Span
  | _, [] => []
  | off, p :: ps => spansAt m p off ++ spansFrom m (stepOffset m p off) ps

theorem flatMap_spansAt (m : Mem) (off : OffExpr) (ps : List Param) :
    (varOffsets off ps).flatMap (fun q => spansAt m q.1 (q.2.eval m)) =
      spansFrom m (off.eval m) ps := by
  induction ps generalizing off with
  | nil => rfl
  | cons p ps ih =>
      rw [varOffsets, List.flatMap_cons, ih, eval_nextOffset]
      rfl

theorem reads_nextOffset {p : Param} {off : OffExpr}
    (h : s ∈ (nextOffset p off).reads m) : s ∈ off.reads m ∨ s ∈ spansAt m p (off.eval m) := by
  unfold nextOffset at h
  unfold spansAt
  cases hv : p.1.isVoid with
  | true => exact .inl (by simpa [hv] using h)
  | false =>
      cases hp : p.1.isPointer with
      | false => exact .inl (by simpa [hv, hp, OffExpr.reads] using h)
      | true =>
          cases hs : p.1.sendsData with
          | false => exact .inl (by simpa [hv, hp, hs, OffExpr.reads] using h)
          | true =>
              simp only [hv, hp, hs, OffExpr.reads, Bool.not_true, Bool.false_eq_true, if_false,
                if_true, List.mem_append, List.mem_singleton] at h ⊢
              grind

/-- The offsets are computed from the fields in front of them. -/
theorem reads_varOffsets {off : OffExpr} {q : Param × OffExpr}
    (hq : q ∈ varOffsets off ps) (hs : s ∈ q.2.reads m) :
    s ∈ off.reads m ∨ s ∈ spansFrom m (off.eval m) ps := by
  induction ps generalizing off with
  | nil => simp [varOffsets] at hq
  | cons p ps ih =>
      rw [varOffsets, List.mem_cons] at hq
      rw [spansFrom, List.mem_append, ← eval_nextOffset]
      grind [reads_nextOffset]

theorem mem_spansFrom {q : Param × OffExpr}
    (hq : q ∈ varOffsets .header ps) (hs : s ∈ spansAt m q.1 (q.2.eval m)) :
    s ∈ spansFrom m 8 ps := by
  have h := flatMap_spansAt m .header ps
  grind [OffExpr.eval]

theorem mem_pass {α : Type} {emit : Param → OffExpr → List α} {a : α} :
    a ∈ pass emit ps ↔ ∃ q ∈ varOffsets .header ps, a ∈ emit q.1 q.2 :=
  List.mem_flatMap

/-- Each statement that the passes print for a parameter reads its offset and its field. -/
theorem mem_spansFrom_of_mem_reads {e : EntryPoint} (h : s ∈ reads e m) :
    s ∈ spansFrom m 8 e.params := by
  have hoffset : ∀ q ∈ varOffsets .header e.params, s ∈ q.2.reads m →
      s ∈ spansFrom m 8 e.params := by
    intro q hq hs
    exact (reads_varOffsets hq hs).resolve_left (by simp [OffExpr.reads])
  obtain ⟨c, hc, hs⟩ := List.mem_flatMap.mp h
  simp only [genDecoderImpl, passTmpBuffAlloc, passMemAlloc, passFunctionCall, passEpilog,
    List.mem_append, List.mem_singleton, mem_pass] at hc
  rcases hc with (((((⟨q, hq, hc⟩ | hc) | hc) | ⟨q, hq, hc⟩) | hc) | hc | hc)
  · -- the sizes of the reply
    split at hc
    · rename_i hout
      obtain rfl := List.mem_singleton.mp hc
      rcases List.mem_append.mp hs with hs | hs
      · exact hoffset q hq hs
      · refine mem_spansFrom hq ?_
        simp only [isOut, Bool.and_eq_true, Bool.not_eq_true'] at hout
        simpa [spansAt, Var.not_isVoid_of_isPointer hout.1, hout.1, hout.2] using hs
    · cases hc
  · split at hc
    · obtain rfl := List.mem_singleton.mp hc
      cases hs
    · cases hc
  · split at hc
    · obtain rfl := List.mem_singleton.mp hc
      cases hs
    · cases hc
  · -- the pointers
    unfold memAlloc at hc
    split at hc
    · rename_i hp
      cases hd : q.1.1.pointerDir with
      | pointerIn => simp [hd] at hc
      | pointerOut =>
          simp only [hd, List.mem_singleton] at hc
          subst hc
          cases hs
      | pointerInout =>
          simp only [hd, List.mem_singleton] at hc
          subst hc
          rcases List.mem_append.mp hs with hs | hs
          · exact hoffset q hq hs
          · refine mem_spansFrom hq ?_
            grind [spansAt, Var.not_isVoid_of_isPointer]
    · cases hc
  · -- the call
    subst hc
    obtain ⟨a, ha, hs⟩ := List.mem_flatMap.mp hs
    obtain ⟨q, hq, ha⟩ := mem_pass.mp ha
    unfold decArg at ha
    split at ha
    · cases ha
    · rename_i hv
      split at ha
      · rename_i hp
        obtain rfl := List.mem_singleton.mp ha
        rcases List.mem_append.mp hs with hs | hs
        · exact hoffset q hq hs
        · exact mem_spansFrom hq (by simpa [spansAt, hv, hp] using hs)
      · rename_i hp
        split at ha
        · rename_i hd
          obtain rfl := List.mem_singleton.mp ha
          rcases List.mem_append.mp hs with hs | hs
          · exact hoffset q hq hs
          · exact mem_spansFrom hq (by simpa [spansAt, hv, hp, hd] using hs)
        · obtain rfl := List.mem_singleton.mp ha
          cases hs
  · split at hc
    · obtain rfl := List.mem_singleton.mp hc
      cases hs
    · cases hc
  · subst hc
    cases hs

/-- Every field is read, an `out` size for the reply and the others for the call. -/
theorem mem_reads_of_mem_spansFrom {e : EntryPoint}
    (h : s ∈ spansFrom m 8 e.params) : s ∈ reads e m := by
  have hflat := flatMap_spansAt m .header e.params
  rw [OffExpr.eval] at hflat
  rw [← hflat] at h
  obtain ⟨q, hq, hs⟩ := List.mem_flatMap.mp h
  have hcall : ∀ a ∈ decArg q.1 q.2, s ∈ a.reads m → s ∈ reads e m := by
    intro a ha hsa
    refine List.mem_flatMap.mpr ⟨_, List.mem_append_left _ (List.mem_append_right _
      (List.mem_singleton_self _)), ?_⟩
    exact List.mem_flatMap.mpr ⟨a, mem_pass.mpr ⟨q, hq, ha⟩, hsa⟩
  unfold spansAt at hs
  unfold decArg at hcall
  cases hv : q.1.1.isVoid with
  | true => simp [hv] at hs
  | false =>
      cases hp : q.1.1.isPointer with
      | false =>
          simp only [hv, hp, Bool.false_eq_true, Bool.not_false, if_false, if_true] at hs hcall
          exact hcall _ (List.mem_singleton_self _) (List.mem_append_right _ hs)
      | true =>
          cases hd : q.1.1.sendsData with
          | true =>
              simp only [hv, hp, hd, Bool.false_eq_true, Bool.not_true, if_false, if_true] at hs hcall
              exact hcall _ (List.mem_singleton_self _) (List.mem_append_right _ hs)
          | false =>
              simp only [hv, hp, hd, Bool.false_eq_true, Bool.not_true, if_false] at hs
              have hout : isOut q.1 = true := by simp [isOut, hp, hd]
              refine List.mem_flatMap.mpr ⟨.tmpSize q.1.2 q.2, ?_, List.mem_append_right _ hs⟩
              simp only [genDecoderImpl, passTmpBuffAlloc, List.mem_append, mem_pass]
              exact .inl (.inl (.inl (.inl (.inl ⟨q, hq, by simp [hout]⟩))))

theorem confined_iff_spansFrom {e : EntryPoint} :
    Confined e m n ↔ ∀ s ∈ spansFrom m 8 e.params, s.Inside n :=
  ⟨fun h s hs => h s (mem_reads_of_mem_spansFrom hs),
    fun h s hs => h s (mem_spansFrom_of_mem_reads hs)⟩

/-! ## Reads that stay in the packet -/

theorem load_drop (m : Mem) (off : Nat) {k : Nat} (h : k ≤ n) :
    (load m off n).drop k = load m (off + k) (n - k) := by
  have hsplit := load_add m off k (n - k)
  rw [Nat.add_sub_cancel' h] at hsplit
  rw [hsplit, List.drop_left' (load_length ..)]

theorem load_take (m : Mem) (off : Nat) {k : Nat} (h : k ≤ n) :
    (load m off n).take k = load m off k := by
  have hsplit := load_add m off k (n - k)
  rw [Nat.add_sub_cancel' h] at hsplit
  rw [hsplit, List.take_left' (load_length ..)]

theorem spansAt_inside_iff {p : Param} {off : Nat} (hv : p.1.isVoid = false) :
    (∀ s ∈ spansAt m p off, s.Inside n) ↔ stepOffset m p off ≤ n := by
  unfold spansAt stepOffset
  cases hp : p.1.isPointer with
  | false =>
      have hpos := Var.bytes_pos_of_not_isVoid hv hp
      simp only [hv, Bool.not_false, Bool.false_eq_true, if_false, if_true, List.mem_singleton,
        forall_eq, Span.inside_iff]
      omega
  | true =>
      cases hd : p.1.sendsData with
      | true =>
          simp only [hv, Bool.not_true, Bool.false_eq_true, if_false, if_true, List.mem_cons,
            List.not_mem_nil, or_false, forall_eq_or_imp, forall_eq, Span.inside_iff]
          omega
      | false =>
          simp only [hv, Bool.not_true, Bool.false_eq_true, if_false, List.mem_singleton,
            forall_eq, Span.inside_iff]
          omega

/-- The length that the packet claims for a field is the one the decoder steps over. -/
theorem fieldLength_load {p : Param} {off : Nat} (hoff : off ≤ n) :
    fieldLength p (load m off (n - off)) ≤ n - off ↔ stepOffset m p off ≤ n := by
  unfold fieldLength stepOffset
  split
  · omega
  · split
    · omega
    · split
      · by_cases hfour : 4 ≤ n - off
        · rw [load_take m off hfour]
          change 4 + loadLE m off 4 ≤ _ ↔ _
          omega
        · omega
      · omega

theorem add_fieldLength {p : Param} {off : Nat} (hoff : off ≤ n)
    (h : stepOffset m p off ≤ n) :
    off + fieldLength p (load m off (n - off)) = stepOffset m p off := by
  unfold fieldLength
  unfold stepOffset at h ⊢
  split
  · rfl
  · rename_i hv
    simp only [hv, Bool.false_eq_true, if_false] at h
    split
    · rfl
    · rename_i hp
      simp only [hp, Bool.false_eq_true, if_false] at h
      split
      · rename_i hd
        simp only [hd, if_true] at h
        rw [load_take m off (by omega)]
        exact (Nat.add_assoc off 4 _).symm
      · rfl

theorem fields_of_void (h : ∀ p ∈ ps, p.1.isVoid = true) (bs : List UInt8) :
    Fields ps bs := by
  induction ps generalizing bs with
  | nil => trivial
  | cons p ps ih =>
      have hzero : fieldLength p bs = 0 := by simp [fieldLength, h p (by simp)]
      exact ⟨by omega, ih (fun q hq => h q (by simp [hq])) _⟩

/-- Induction over the parameters: the reads stay inside exactly if one field lies behind
the other. -/
theorem spansFrom_inside_iff (m : Mem) (n off : Nat) (ps : List Param) :
    (∀ s ∈ spansFrom m off ps, s.Inside n) ↔
      (∀ p ∈ ps, p.1.isVoid = true) ∨ off ≤ n ∧ Fields ps (load m off (n - off)) := by
  induction ps generalizing off with
  | nil => simp [spansFrom]
  | cons p ps ih =>
      rw [spansFrom, List.forall_mem_append, ih, List.forall_mem_cons, Fields, load_length]
      cases hv : p.1.isVoid with
      | true => simp [stepOffset, fieldLength, List.drop_zero, spansAt, hv]
      | false =>
          have hle : off ≤ stepOffset m p off := by grind [stepOffset]
          rw [spansAt_inside_iff hv]
          simp only [Bool.false_eq_true, false_and, false_or]
          grind [load_drop, add_fieldLength, fields_of_void, fieldLength_load]

/-- What the case of `e` reads stays in the packet exactly if the packet is well formed. -/
theorem confined_iff (e : EntryPoint) (m : Mem) (packetLen : Nat) :
    Confined e m packetLen ↔ WellFormed e (load m 0 packetLen) := by
  rw [confined_iff_spansFrom, spansFrom_inside_iff, WellFormed, load_length]
  grind [load_drop]

/-! ## The packets that the loop dispatches -/

/-- A turn of the loop that runs the case of an entry point: where `ptr` points to in the
allocation, and the length field. -/
structure Dispatched where
  entry : EntryPoint
  ptr : Nat
  packetLen : Nat

def Dispatched.packet (d : Dispatched) (mem : List UInt8) : List UInt8 :=
  (mem.drop d.ptr).take d.packetLen

/-- The `while` loop for a specification, which gives the entry point of each opcode. -/
def dispatchLoop (spec : Nat → Option EntryPoint) (mem : List UInt8) (len : Nat) :
    Nat → Int → Nat → List Dispatched
  | 0, _, _ => []
  | fuel + 1, ptr, pos =>
      if sizeSub len pos < 8 then []
      else if ptr < 0 ∨ (mem.length : Int) < ptr + 8 then []
      else
        let packet := mem.drop ptr.toNat
        let packetLen := packetLenOf packet
        if sizeSub len pos < packetLen then []
        else
          match spec (opcodeOf packet) with
          | some e =>
              ⟨e, ptr.toNat, packetLen⟩ ::
                dispatchLoop spec mem len fuel (ptr + toInt32 packetLen) (advance pos packetLen)
          | none => []

/-- The packets dispatched by `decode(buf, len, stream)`. -/
def dispatched (spec : Nat → Option EntryPoint) (mem : List UInt8) (buf len fuel : Nat) :
    List Dispatched :=
  if len < 8 then [] else dispatchLoop spec mem len fuel buf 0

/-- These are the packets that the loop records. -/
theorem decodeLoop_dispatchLoop {mem : List UInt8}
    {len fuel pos pos' : Nat} {ptr : Int} {calls calls' : List (List UInt8)}
    (h : decodeLoop (fun opcode => (spec opcode).isSome) mem len fuel ptr pos calls =
      some (pos', calls')) :
    calls' = calls ++ (dispatchLoop spec mem len fuel ptr pos).map (Dispatched.packet · mem) := by
  induction fuel generalizing ptr pos calls with
  | zero => cases h
  | succ fuel ih =>
      rw [decodeLoop] at h
      rw [dispatchLoop]
      split at h
      · rename_i hdone
        obtain ⟨-, rfl⟩ := Prod.mk.inj (Option.some.inj h)
        simp [hdone]
      · rename_i hdone
        split at h
        · cases h
        · rename_i hbounds
          rw [if_neg hdone, if_neg hbounds]
          dsimp only at h ⊢
          split at h
          · rename_i hshort
            obtain ⟨-, rfl⟩ := Prod.mk.inj (Option.some.inj h)
            simp [hshort]
          · rename_i hshort
            rw [if_neg hshort]
            cases hspec : spec (opcodeOf (mem.drop ptr.toNat)) with
            | none => grind
            | some e =>
                simp only [hspec, Option.isSome_some, if_true] at h
                rw [ih h, List.map_cons, List.append_assoc]
                rfl

theorem decode_dispatched {mem : List UInt8}
    {buf len fuel pos : Nat} {calls : List (List UInt8)}
    (h : decode (fun opcode => (spec opcode).isSome) mem buf len fuel = some (pos, calls)) :
    calls = (dispatched spec mem buf len fuel).map (Dispatched.packet · mem) := by
  unfold decode at h
  unfold dispatched
  split at h
  · grind
  · rename_i hshort
    rw [if_neg hshort]
    simpa using decodeLoop_dispatchLoop h

/-- A packet that is dispatched lies between the cursor and the end of the buffer, also when
an earlier one has moved the cursor backwards. -/
theorem dispatchLoop_fits {mem : List UInt8} {buf len : Nat}
    (hlen : buf + len < 2 ^ 63) {fuel pos : Nat} {ptr : Int}
    (hpos : (pos : Int) = (ptr - buf) % 2 ^ 64) (hptr : ptr ≤ buf + len) {d : Dispatched}
    (hd : d ∈ dispatchLoop spec mem len fuel ptr pos) : d.ptr + d.packetLen ≤ buf + len := by
  induction fuel generalizing ptr pos with
  | zero => cases hd
  | succ fuel ih =>
      rw [dispatchLoop] at hd
      split at hd
      · cases hd
      · split at hd
        · cases hd
        · dsimp only at hd
          generalize packetLenOf (mem.drop ptr.toNat) = packetLen at hd
          split at hd
          · cases hd
          · have hremaining : (sizeSub len pos : Int) = buf + len - ptr := by
              unfold sizeSub
              omega
            have hsigned := toInt32_le packetLen
            split at hd
            · rcases List.mem_cons.mp hd with rfl | hd
              · grind
              · refine ih ?_ (by omega) hd
                unfold advance
                omega
            · cases hd

theorem dispatched_fits {mem : List UInt8} {buf len fuel : Nat}
    (hlen : buf + len < 2 ^ 63) {d : Dispatched} (hd : d ∈ dispatched spec mem buf len fuel) :
    d.ptr + d.packetLen ≤ buf + len := by
  unfold dispatched at hd
  split at hd
  · cases hd
  · exact dispatchLoop_fits hlen (by simp) (by omega) hd

namespace Dispatched

/-- The memory behind `ptr` in a turn of the loop; `rest` follows the allocation. -/
def mem (d : Dispatched) (mem : List UInt8) (rest : Mem) : Mem := ofList (mem.drop d.ptr) rest

theorem load_mem {d : Dispatched} {mem : List UInt8} (h : d.ptr + d.packetLen ≤ mem.length)
    (rest : Mem) : load (d.mem mem rest) 0 d.packetLen = d.packet mem := by
  have hlen : d.packetLen ≤ (mem.drop d.ptr).length := by grind
  have hload := load_take (ofList (mem.drop d.ptr) rest) 0 hlen
  rw [(holds_ofList _ rest).load_eq rfl] at hload
  exact hload.symm

end Dispatched

/-- Whatever the guest sent, a dispatched packet lies in the buffer and is read within its
bounds exactly if its length fields describe fields that lie in it. -/
theorem decode_confined_iff (spec : Nat → Option EntryPoint) {mem : List UInt8} {buf len : Nat}
    (hlen : buf + len ≤ mem.length) (hmem : mem.length < 2 ^ 63) (fuel : Nat) (rest : Mem) :
    ∀ d ∈ dispatched spec mem buf len fuel,
      d.ptr + d.packetLen ≤ buf + len ∧
        (Confined d.entry (d.mem mem rest) d.packetLen ↔ WellFormed d.entry (d.packet mem)) := by
  intro d hd
  have hfits := dispatched_fits (by omega) hd
  rw [confined_iff, Dispatched.load_mem (by omega)]
  exact ⟨hfits, Iff.rfl⟩

/-- An entry point `f(const void *data)`. -/
def sendData : EntryPoint where
  name := "sendData"
  retval := voidType
  vars := [.small ⟨"void *", .var32, true, by simp⟩ .pointerIn false]
  vars_length_lt := by simp

/-- A packet of `sendData` whose length field claims `n` bytes and that holds two. -/
def sendDataPacket (n : UInt8) : List UInt8 := [0, 0, 0, 0, 14, 0, 0, 0, n, 0, 0, 0, 1, 2]

theorem dispatched_sendDataPacket (n : UInt8) :
    dispatched (fun _ => some sendData) (sendDataPacket n) 0 14 2 = [⟨sendData, 0, 14⟩] := by
  have hpacketLen : packetLenOf (sendDataPacket n) = 14 := rfl
  have hlength : (sendDataPacket n).length = 14 := rfl
  simp [dispatched, dispatchLoop, sizeSub, hpacketLen, hlength, advance, toInt32]

theorem decode_confined_sendData :
    Confined sendData (Dispatched.mem ⟨sendData, 0, 14⟩ (sendDataPacket 2) fun _ => 0) 14 := by
  have h := decode_confined_iff (fun _ => some sendData) (by decide) (by decide) 2 (fun _ => 0)
    ⟨sendData, 0, 14⟩ (dispatched_sendDataPacket 2 ▸ List.mem_singleton_self _)
  exact h.2.mpr (by decide)

/-- The contents of a pointer reach past the end of a packet that is shorter than its length
field says. -/
theorem decode_not_confined :
    ¬∀ (spec : Nat → Option EntryPoint) (mem : List UInt8) (buf len fuel : Nat) (rest : Mem),
      buf + len ≤ mem.length → ∀ d ∈ dispatched spec mem buf len fuel,
        Confined d.entry (d.mem mem rest) d.packetLen := by
  intro h
  have hconfined := h (fun _ => some sendData) (sendDataPacket 100) 0 14 2 (fun _ => 0)
    (by decide) ⟨sendData, 0, 14⟩ (dispatched_sendDataPacket 100 ▸ List.mem_singleton_self _)
  have hread : (⟨12, 100⟩ : Span) ∈
      reads sendData (Dispatched.mem ⟨sendData, 0, 14⟩ (sendDataPacket 100) fun _ => 0) := by
    decide
  exact absurd (hconfined _ hread) (by decide)

end AndroidRenderer.Emugen
