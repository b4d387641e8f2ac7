import AndroidRenderer.OpenglCodecCommon.GLUtils

/-!
# Packing into a buffer and onto a stream

`glUtilsWritePackPointerData` is a second copy of `glUtilsPackPointerData` that hands the
elements to a stream. Both copies test `stride == vsize` before the loop, so that elements
without bytes only end there when the stride is 0 as well.
-/

namespace AndroidRenderer

/-- The `for` loop of `glUtilsWritePackPointerData`: the bytes of each `writeFully`. -/
def writePackLoop (vsize stride datalen : UInt32) :
    Nat → UInt32 → UInt32 → Option (List (List UInt32))
  | 0, _, _ => none
  | fuel + 1, i, src =>
      if datalen ≤ i then some []
      else (writePackLoop vsize stride datalen fuel (i + vsize) (src + stride)).map
        (addresses src vsize :: ·)

/-- `glUtilsWritePackPointerData`: the addresses of each `writeFully`. -/
def glUtilsWritePackPointerData (src : UInt32) (size : Int) (type : GLenum) (stride : UInt32)
    (datalen : UInt32) (fuel : Nat) : Option (List (List UInt32)) :=
  let vsize := UInt32.ofInt size * glSizeof type
  let stride := if stride = 0 then vsize else stride
  if stride = vsize then some [addresses src datalen]
  else writePackLoop vsize stride datalen fuel 0 src

/-- Element `k` of packed data is the element of the source at `k` strides. -/
def PacksElements (src stride vsize : UInt32) (n : Nat) (bytes : List UInt32) : Prop :=
  bytes.length = n * vsize.toNat ∧
    ∀ k < n, (bytes.drop (k * vsize.toNat)).take vsize.toNat =
      addresses (src + stride * UInt32.ofNat k) vsize

theorem elements_packs (src stride vsize : UInt32) (n : Nat) :
    PacksElements src stride vsize n (elements src stride vsize n) := by
  induction n generalizing src with
  | zero => exact ⟨by simp [elements], by simp⟩
  | succ n ih =>
      obtain ⟨hlen, hget⟩ := ih (src + stride)
      rw [elements_succ]
      have hlen' : (addresses src vsize ++ elements (src + stride) stride vsize n).length =
          (n + 1) * vsize.toNat := by
        rw [List.length_append, addresses_length, hlen, Nat.succ_mul, Nat.add_comm]
      refine ⟨hlen', fun k hk => ?_⟩
      cases k with
      | zero => simp
      | succ k =>
          have hdrop : (k + 1) * vsize.toNat = (addresses src vsize).length + k * vsize.toNat := by
            rw [addresses_length, Nat.succ_mul, Nat.add_comm]
          rw [hdrop, List.drop_length_add_append, hget k (by omega)]
          congr 1
          rw [UInt32.ofNat_add, UInt32.mul_add, UInt32.add_assoc, UInt32.add_comm stride]
          simp

theorem writePackLoop_of_packLoop {vsize stride datalen : UInt32} {fuel : Nat} {i src : UInt32}
    {bytes : List UInt32} (h : packLoop vsize stride datalen fuel i src = some bytes) :
    ∃ writes, writePackLoop vsize stride datalen fuel i src = some writes ∧
      writes.flatten = bytes := by
  induction fuel generalizing i src bytes with
  | zero => cases h
  | succ fuel ih =>
      rw [packLoop] at h
      rw [writePackLoop]
      split at h
      · rw [if_pos ‹_›]
        exact ⟨[], rfl, Option.some.inj h⟩
      · split at h
        · cases h
        · obtain ⟨rest, hrest, rfl⟩ := Option.map_eq_some_iff.mp h
          obtain ⟨writes, hwrites, rfl⟩ := ih hrest
          rw [if_neg ‹_›, hwrites]
          exact ⟨_, rfl, rfl⟩

/-- Neither loop ends when an element has no bytes. -/
theorem loops_zero {stride datalen : UInt32} (hne : datalen ≠ 0) (fuel : Nat) (src : UInt32) :
    packLoop 0 stride datalen fuel 0 src = none ∧
      writePackLoop 0 stride datalen fuel 0 src = none := by
  have hpos : ¬datalen ≤ 0 := fun hle => hne (UInt32.le_antisymm hle UInt32.zero_le)
  induction fuel generalizing src with
  | zero => exact ⟨rfl, rfl⟩
  | succ fuel ih =>
      rw [packLoop, writePackLoop, if_neg hpos, if_neg hpos]
      simp [ih]

/-- Both functions end, and with the same bytes, the elements of the array, when the length is
a multiple of an element's. -/
def PacksAlike (src : UInt32) (size : Int) (type : GLenum) (stride datalen : UInt32) : Prop :=
  let vsize := UInt32.ofInt size * glSizeof type
  ∃ bytes fuel writes,
    glUtilsPackPointerData src size type stride.toNat datalen = some bytes ∧
    glUtilsWritePackPointerData src size type stride datalen fuel = some writes ∧
    (vsize.toNat ∣ datalen.toNat → writes.flatten = bytes ∧ bytes.length = datalen.toNat ∧
      PacksElements src (if stride = 0 then vsize else stride) vsize
        (datalen.toNat / vsize.toNat) bytes)

private theorem ofInt_stride (v stride : UInt32) :
    (if (stride.toNat : Int) = 0 then v else UInt32.ofInt stride.toNat) =
      if stride = 0 then v else stride := by
  have hzero : (stride.toNat : Int) = 0 ↔ stride = 0 := by
    rw [← UInt32.toNat_inj]
    simp
  simp only [hzero]
  congr 1
  apply UInt32.toNat_inj.mp
  have hlt := stride.toNat_lt
  simp [UInt32.ofInt]
  omega

/-- Data of whole elements is packed alike, unless its elements have no bytes and the stride is
not 0. -/
theorem packsAlike_iff (src : UInt32) (size : Int) (type : GLenum) (stride datalen : UInt32) :
    ((UInt32.ofInt size * glSizeof type).toNat ∣ datalen.toNat ∨
        UInt32.ofInt size * glSizeof type = 0 → PacksAlike src size type stride datalen) ↔
      (UInt32.ofInt size * glSizeof type = 0 → stride = 0 ∨ datalen = 0) := by
  simp only [PacksAlike, glUtilsPackPointerData, glUtilsWritePackPointerData, ofInt_stride]
  generalize UInt32.ofInt size * glSizeof type = vsize
  constructor
  · rintro h rfl
    by_contra! hne
    obtain ⟨bytes, fuel, writes, hpack, -⟩ := h (.inr rfl)
    rw [if_neg hne.1, if_neg hne.1, (loops_zero hne.2 _ src).1] at hpack
    cases hpack
  · intro h hdvd
    generalize hstep : (if stride = 0 then vsize else stride) = step
    by_cases htight : step = vsize
    · refine ⟨_, 0, _, if_pos htight, if_pos htight, fun hdvd => ⟨by simp, by simp, ?_⟩⟩
      rw [htight]
      have hmul := Nat.div_mul_cancel hdvd
      have hlt := datalen.toNat_lt
      have helems := elements_packs src vsize vsize (datalen.toNat / vsize.toNat)
      rw [elements_tight src vsize (by omega)] at helems
      have hlen : UInt32.ofNat (datalen.toNat / vsize.toNat) * vsize = datalen := by
        apply UInt32.toNat_inj.mp
        rw [UInt32.toNat_mul, UInt32.toNat_ofNat', Nat.mod_mul_mod, hmul]
        exact Nat.mod_eq_of_lt hlt
      rwa [hlen] at helems
    · simp only [if_neg htight]
      by_cases hzero : vsize = 0
      · rcases h hzero with rfl | rfl
        · exact absurd hstep (by simpa using Ne.symm htight)
        · exact ⟨[], 1, [], by simp [packLoop], by simp [writePackLoop],
            fun _ => ⟨rfl, rfl, by simp [PacksElements]⟩⟩
      · have hpos : 0 < vsize.toNat := Nat.pos_of_ne_zero fun h0 => hzero (UInt32.toNat_inj.mp h0)
        have hdvd := hdvd.resolve_right hzero
        have hmul := Nat.div_mul_cancel hdvd
        have hle := Nat.div_le_self datalen.toNat vsize.toNat
        have hpack : packLoop vsize step datalen (datalen.toNat + 1) 0 src =
            some (elements src step vsize (datalen.toNat / vsize.toNat)) :=
          packLoop_eq hpos (by simpa using hmul) (by omega)
        obtain ⟨writes, hwrites, hflat⟩ := writePackLoop_of_packLoop hpack
        have helems := elements_packs src step vsize (datalen.toNat / vsize.toNat)
        exact ⟨_, _, writes, hpack, hwrites, fun _ => ⟨hflat, helems.1.trans hmul, helems⟩⟩

/-- Two elements of no components, four bytes apart. -/
theorem not_packsAlike_empty : ¬PacksAlike 0 0 GL_FLOAT 4 8 := by
  rintro ⟨bytes, fuel, writes, hpack, -⟩
  have hzero : UInt32.ofInt 0 * glSizeof GL_FLOAT = 0 := by decide
  simp only [glUtilsPackPointerData, hzero] at hpack
  rw [if_neg (by decide)] at hpack
  exact absurd ((loops_zero (by decide) _ 0).1.symm.trans hpack) (by simp)

end AndroidRenderer
