import AndroidRenderer.Translator.DirectCopies
import Mathlib.Order.Lattice.Nat

/-!
# Copies for `glDrawElements`

The size of the copy comes from the largest index, and the conversion loops take the indices one
by one. `findMaxIndex` is given the type of the array in place of that of the indices, so that it
always looks for 16-bit words; and the loops read 16-bit words wherever the indices are not bytes.
-/

namespace AndroidRenderer.Translator

open LittleEndian

/-- The 16-bit words at the indices. -/
def shortIndex (indices : Mem) (i : Nat) : Nat := loadLE indices (2 * i) 2

def maxDrawn (count : Nat) (type : GLenum) (indices : Mem) : Nat :=
  (Finset.range count).sup (drawnIndex type indices)

/-- The largest index is found; the elements that are drawn are in the copy, converted, and no
others are read. -/
structure ConvertsDrawn (x2f : UInt32 → UInt32) (p : ConvertedPointer) (count : Nat) (type : GLenum)
    (indices : Mem) : Prop where
  maxIndex : findMaxIndex count type indices = maxDrawn count type indices ∧
    findMaxIndex count p.type indices = maxDrawn count type indices
  converts : ∀ mem junk, ∃ cells reads,
    convertIndirect x2f mem p junk count type indices = .ok (cells, reads) ∧
    (∀ i < count, ∀ j < p.size, cells[drawnIndex type indices i * p.size + j]? =
      some (p.component x2f mem (p.element (drawnIndex type indices i) + j * p.bytes))) ∧
    ∀ addr ∈ reads, ∃ i < count, addr = p.element (drawnIndex type indices i)

/-- No 16-bit word is larger than all indices, the loops find the indices that are drawn and no
others, and the offsets of the elements are `unsigned int`s. -/
structure IndicesFit (p : ConvertedPointer) (count : Nat) (type : GLenum) (indices : Mem) :
    Prop where
  words : ∀ i < count, ∃ k < count, shortIndex indices i ≤ drawnIndex type indices k
  drawn : ∀ i < count, ∃ k < count, drawnIndex type indices i = conversionIndex type indices k
  converted : ∀ i < count, ∃ k < count,
    conversionIndex type indices i = drawnIndex type indices k
  offset_lt : ∀ i < count, drawnIndex type indices i * p.byteStride < 2 ^ 32

instance (p : ConvertedPointer) (count : Nat) (type : GLenum) (indices : Mem) :
    Decidable (IndicesFit p count type indices) :=
  decidable_of_iff
    ((∀ i < count, ∃ k < count, shortIndex indices i ≤ drawnIndex type indices k) ∧
      (∀ i < count, ∃ k < count, drawnIndex type indices i = conversionIndex type indices k) ∧
      (∀ i < count, ∃ k < count, conversionIndex type indices i = drawnIndex type indices k) ∧
      ∀ i < count, drawnIndex type indices i * p.byteStride < 2 ^ 32)
    ⟨fun h => ⟨h.1, h.2.1, h.2.2.1, h.2.2.2⟩,
      fun h => ⟨h.words, h.drawn, h.converted, h.offset_lt⟩⟩

/-! ## The largest index -/

section Max

variable {count : Nat} {type : GLenum} {indices : Mem}

theorem findMaxIndex_eq (count : Nat) (type : GLenum) (indices : Mem) :
    findMaxIndex count type indices = (Finset.range count).sup (conversionIndex type indices) := by
  unfold findMaxIndex
  induction count with
  | zero => rfl
  | succ count ih =>
      rw [List.range_succ, List.foldl_append, ih, Finset.range_add_one, Finset.sup_insert]
      change (if _ < conversionIndex type indices count then conversionIndex type indices count
        else _) = _
      grind

theorem findMaxIndex_arrayType (p : ConvertedPointer) (count : Nat) (indices : Mem) :
    findMaxIndex count p.type indices = (Finset.range count).sup (shortIndex indices) := by
  have hne : p.type ≠ GL_UNSIGNED_BYTE := by
    rcases p.type_eq with h | h <;> rw [h] <;> decide
  rw [findMaxIndex_eq]
  congr 1
  funext i
  exact if_neg hne

theorem sup_range_le {f g : Nat → Nat} (h : ∀ i < count, ∃ k < count, f i ≤ g k) :
    (Finset.range count).sup f ≤ (Finset.range count).sup g := by
  apply Finset.sup_le
  intro i hi
  obtain ⟨k, hk, hle⟩ := h i (Finset.mem_range.mp hi)
  exact Nat.le_trans hle (Finset.le_sup (Finset.mem_range.mpr hk))

theorem exists_le_of_le_sup {g : Nat → Nat} {i x : Nat} (hi : i < count)
    (hx : x ≤ (Finset.range count).sup g) : ∃ k < count, x ≤ g k := by
  obtain ⟨k, hk, hsup⟩ :=
    Finset.exists_mem_eq_sup _ ⟨i, Finset.mem_range.mpr hi⟩ g
  exact ⟨k, Finset.mem_range.mp hk, hsup ▸ hx⟩

/-- A byte is no larger than the word that it is part of. -/
theorem loadLE_one_le (m : Mem) (i : Nat) : loadLE m i 1 ≤ loadLE m (2 * (i / 2)) 2 := by
  have hone : loadLE m i 1 = (m i).toNat := by
    simp [loadLE, load, ofLE]
  have htwo : loadLE m (2 * (i / 2)) 2 =
      (m (2 * (i / 2))).toNat + 256 * (m (2 * (i / 2) + 1)).toNat := by
    simp [loadLE, load, ofLE, List.range_succ]
  grind

/-- What the loops read is among the words. -/
theorem conversionIndex_le (type : GLenum) (indices : Mem) {i : Nat} (hi : i < count) :
    ∃ k < count, conversionIndex type indices i ≤ shortIndex indices k := by
  unfold conversionIndex
  split
  · exact ⟨i / 2, by omega, loadLE_one_le indices i⟩
  · exact ⟨i, hi, Nat.le_refl _⟩

theorem conversionIndex_lt (type : GLenum) (indices : Mem) (i : Nat) :
    conversionIndex type indices i < 2 ^ 16 := by
  unfold conversionIndex
  split
  · exact Nat.lt_trans (loadLE_lt indices i 1) (by decide)
  · exact loadLE_lt indices (2 * i) 2

end Max

/-! ## The loop -/

namespace ConvertedPointer

/-- Different addresses may hold different components. -/
theorem component_inj {x2f : UInt32 → UInt32} (hx2f : x2f 0 ≠ x2f 1) (p : ConvertedPointer)
    {a b : Int} (h : ∀ mem, p.component x2f mem a = p.component x2f mem b) : a = b := by
  by_contra hne
  -- the lower of the two addresses holds a 1, and everything else a 0
  have hword : ∀ addr, p.component x2f (fun x => if x = addr then 1 else 0) addr =
      if p.type = GL_FIXED then .GLfloat (x2f 1) else .GLshort 1 := by
    simp [component, ofLE, List.range_succ]
  have hzero : ∀ addr low : Int, low < addr →
      p.component x2f (fun x => if x = low then 1 else 0) addr =
        if p.type = GL_FIXED then .GLfloat (x2f 0) else .GLshort 0 := by
    intro addr low hlt
    have hout : ∀ k : Nat, ¬addr + (k : Int) = low := fun k => by omega
    unfold component
    split
    · simp [ofLE, List.range_succ, hout]
    · simp [show ¬addr = low by omega]
  have hdiffer : (if p.type = GL_FIXED then Component.GLfloat (x2f 1) else .GLshort 1) ≠
      if p.type = GL_FIXED then Component.GLfloat (x2f 0) else .GLshort 0 := by grind
  rcases Int.lt_or_gt_of_ne hne with hlt | hlt
  · have hsame := h fun x => if x = a then 1 else 0
    rw [hword, hzero b a hlt] at hsame
    exact hdiffer hsame
  · grind

end ConvertedPointer

section Loop

variable {x2f : UInt32 → UInt32} {mem : Int → UInt8} {p : ConvertedPointer} {count : Nat}
  {type : GLenum} {indices : Mem}

/-- The address from which the loop reads the element of an index. -/
def offsetAddress (p : ConvertedPointer) (index : Nat) : Int :=
  p.data + (index * p.byteStride % 2 ^ 32 : Nat)

theorem offsetAddress_eq {index : Nat} (h : index * p.byteStride < 2 ^ 32) :
    offsetAddress p index = p.element index := by
  rw [offsetAddress, Nat.mod_eq_of_lt h, Int.natCast_mul]
  rfl

/-- The place of an element in the copy. -/
theorem cell_eq {index : Nat} (h : index < 2 ^ 16) :
    index * p.strideOut % 2 ^ 32 / p.outBytes = index * p.size := by
  have hmul : index * p.strideOut ≤ 2 ^ 16 * 16 :=
    Nat.mul_le_mul (Nat.le_of_lt h) p.strideOut_bounds.2
  rw [Nat.mod_eq_of_lt (by omega), p.mul_strideOut_div]

theorem div_mod_cell (index : Nat) {size j : Nat} (hj : j < size) :
    (index * size + j) / size = index ∧ (index * size + j) % size = j := by
  rw [Nat.mul_comm, Nat.mul_add_div (by omega), Nat.mul_add_mod, Nat.mod_eq_of_lt hj,
    Nat.div_eq_of_lt hj]
  exact ⟨rfl, rfl⟩

/-- Different elements have different places in the copy. -/
theorem cell_disjoint (size : Nat) {index index' : Nat} (h : index ≠ index') :
    index * size < index' * size ∨ index' * size + size ≤ index * size ∨ size = 0 := by
  rcases Nat.lt_or_gt_of_ne h with hlt | hlt
  · rcases Nat.eq_zero_or_pos size with hzero | hpos
    · exact .inr (.inr hzero)
    · exact .inl (Nat.mul_lt_mul_of_pos_right hlt hpos)
  · have hmul := Nat.mul_le_mul_right size (Nat.succ_le_of_lt hlt)
    grind

/-- What the loop stores. -/
def conversionWrites (x2f : UInt32 → UInt32) (mem : Int → UInt8) (p : ConvertedPointer)
    (count : Nat)
    (type : GLenum) (indices : Mem) : List (Nat × List Component) :=
  (List.range count).map fun i => (conversionIndex type indices i * p.size,
    p.attrib x2f mem (offsetAddress p (conversionIndex type indices i)))

/-- The copy holds the indices that the loop reads, each converted from where the loop finds it,
and nothing else. -/
theorem convertIndirect_spec (x2f : UInt32 → UInt32) (mem : Int → UInt8)
    (junk : Nat → Component) (p : ConvertedPointer) (count : Nat) (type : GLenum) (indices : Mem) :
    ∃ cells, convertIndirect x2f mem p junk count type indices =
        .ok (cells, (List.range count).map fun i =>
          offsetAddress p (conversionIndex type indices i)) ∧
      (∀ i < count, ∀ j < p.size, cells[conversionIndex type indices i * p.size + j]? =
        some (p.component x2f mem
          (offsetAddress p (conversionIndex type indices i) + j * p.bytes))) ∧
      ∀ index, (∀ i < count, conversionIndex type indices i ≠ index) → ∀ c,
        cells[index * p.size]? = some c → c = junk (index * p.size) := by
  have hwrites : ((List.range count).map fun i =>
      (conversionIndex type indices i * p.strideOut % 2 ^ 32 / p.outBytes,
        p.attrib x2f mem (p.data +
          (conversionIndex type indices i * p.byteStride % 2 ^ 32 : Nat)))) =
      conversionWrites x2f mem p count type indices := by
    apply List.map_congr_left
    intro i _
    rw [cell_eq (conversionIndex_lt type indices i)]
    rfl
  have hinside : ∀ write ∈ conversionWrites x2f mem p count type indices,
      write.1 + write.2.length ≤ (ConvertedPointer.allocArr junk
        (p.size * (findMaxIndex count p.type indices + 1))).length := by
    intro write hwrite
    obtain ⟨i, hi, rfl⟩ := List.mem_map.mp hwrite
    have hle : conversionIndex type indices i ≤ findMaxIndex count p.type indices := by
      rw [findMaxIndex_arrayType]
      obtain ⟨k, hk, hword⟩ := conversionIndex_le type indices
        (List.mem_range.mp hi)
      exact Nat.le_trans hword (Finset.le_sup (Finset.mem_range.mpr hk))
    have hmul := Nat.mul_le_mul_right p.size (Nat.succ_le_succ hle)
    rw [ConvertedPointer.attrib_length, ConvertedPointer.allocArr_length, ← Nat.succ_mul,
      Nat.mul_comm p.size]
    exact hmul
  obtain ⟨cells, hstore, -⟩ := Buffer.storeAll?_isSome hinside
  refine ⟨cells, ?_, ?_, ?_⟩
  · unfold convertIndirect convertIndirectLoop
    dsimp only
    rw [hwrites, hstore]
    rfl
  · intro i hi j hj
    have hread := Buffer.storeAll?_getElem? (fun c => p.component x2f mem
      (offsetAddress p (c / p.size) + (c % p.size : Nat) * p.bytes)) hstore ?_
      (i := conversionIndex type indices i * p.size + j) (.inr ?_)
    · grind [div_mod_cell]
    · intro write hwrite k hk
      obtain ⟨i', -, rfl⟩ := List.mem_map.mp hwrite
      dsimp only at hk ⊢
      rw [ConvertedPointer.attrib_length] at hk
      obtain ⟨hdiv, hmod⟩ := div_mod_cell (conversionIndex type indices i') hk
      rw [hdiv, hmod, ConvertedPointer.attrib_getElem? x2f mem _ hk]
    · refine ⟨_, List.mem_map.mpr ⟨i, List.mem_range.mpr hi, rfl⟩, Nat.le_add_right _ _, ?_⟩
      grind [ConvertedPointer.attrib_length]
  · intro index hindex c hc
    have houtside : cells[index * p.size]? = (ConvertedPointer.allocArr junk
        (p.size * (findMaxIndex count p.type indices + 1)))[index * p.size]? := by
      apply Buffer.storeAll?_getElem?_outside hstore
      intro write hwrite
      obtain ⟨i, hi, rfl⟩ := List.mem_map.mp hwrite
      have hdisjoint := cell_disjoint p.size (hindex i (List.mem_range.mp hi)).symm
      have hpos := p.size_pos
      rw [ConvertedPointer.attrib_length]
      dsimp only
      omega
    rw [houtside] at hc
    obtain ⟨hlt, -⟩ := List.getElem?_eq_some_iff.mp hc
    rw [ConvertedPointer.allocArr_length] at hlt
    rw [ConvertedPointer.allocArr_getElem? junk hlt] at hc
    exact (Option.some.inj hc).symm

end Loop

/-! ## When the copy is right -/

section Draw

variable {x2f : UInt32 → UInt32} {p : ConvertedPointer} {count : Nat} {type : GLenum} {indices : Mem}

theorem convertsDrawn_of_fits (h : IndicesFit p count type indices) :
    ConvertsDrawn x2f p count type indices := by
  constructor
  · have hconversion : (Finset.range count).sup (conversionIndex type indices) =
        maxDrawn count type indices :=
      Nat.le_antisymm
        (sup_range_le fun i hi => (h.converted i hi).imp fun k hk => ⟨hk.1, Nat.le_of_eq hk.2⟩)
        (sup_range_le fun i hi => (h.drawn i hi).imp fun k hk => ⟨hk.1, Nat.le_of_eq hk.2⟩)
    refine ⟨(findMaxIndex_eq count type indices).trans hconversion, ?_⟩
    rw [findMaxIndex_arrayType]
    apply Nat.le_antisymm (sup_range_le h.words)
    calc maxDrawn count type indices
        = (Finset.range count).sup (conversionIndex type indices) := hconversion.symm
      _ ≤ (Finset.range count).sup (shortIndex indices) :=
          sup_range_le fun i hi => conversionIndex_le type indices hi
  · intro mem junk
    obtain ⟨cells, hrun, hread, -⟩ := convertIndirect_spec x2f mem junk p count type indices
    refine ⟨cells, _, hrun, ?_, ?_⟩
    · intro i hi j hj
      obtain ⟨k, hk, heq⟩ := h.drawn i hi
      have hoffset := h.offset_lt i hi
      grind [offsetAddress_eq]
    · grind [offsetAddress_eq, h.converted, h.offset_lt]

theorem fits_of_convertsDrawn (hx2f : x2f 0 ≠ x2f 1) (h : ConvertsDrawn x2f p count type indices) :
    IndicesFit p count type indices := by
  have hmax : (Finset.range count).sup (shortIndex indices) = maxDrawn count type indices := by
    rw [← findMaxIndex_arrayType p]
    exact h.maxIndex.2
  have hdrawn : ∀ i < count, ∃ k < count,
      drawnIndex type indices i = conversionIndex type indices k := by
    intro i hi
    by_contra hnone
    -- the element is not converted, and the copy holds what it held before
    let wrong := (p.component x2f (fun _ => 0) 0).other
    obtain ⟨cells, reads, hrun, hcells, -⟩ := h.converts (fun _ => 0) fun _ => wrong
    obtain ⟨cells', hrun', -, hjunk⟩ :=
      convertIndirect_spec x2f (fun _ => 0) (fun _ => wrong) p count type indices
    obtain ⟨rfl, -⟩ := Prod.mk.inj (Except.ok.inj (hrun.symm.trans hrun'))
    have hcell := hcells i hi 0 p.size_pos
    have hwrong := hjunk (drawnIndex type indices i)
      (fun k hk heq => hnone ⟨k, hk, heq.symm⟩) _ hcell
    exact Component.other_ne _ hwrong.symm
  have hoffset : ∀ i < count, drawnIndex type indices i * p.byteStride < 2 ^ 32 := by
    intro i hi
    obtain ⟨k, hk, heq⟩ := hdrawn i hi
    have haddr : offsetAddress p (drawnIndex type indices i) =
        p.element (drawnIndex type indices i) := by
      apply p.component_inj hx2f
      intro mem
      obtain ⟨cells, reads, hrun, hcells, -⟩ := h.converts mem fun _ => .GLshort 0
      obtain ⟨cells', hrun', hread, -⟩ :=
        convertIndirect_spec x2f mem (fun _ => .GLshort 0) p count type indices
      obtain ⟨rfl, -⟩ := Prod.mk.inj (Except.ok.inj (hrun.symm.trans hrun'))
      have hfetched := hcells i hi 0 p.size_pos
      have hconverted := hread k hk 0 p.size_pos
      grind
    have hmod := Int.add_left_cancel haddr
    omega
  refine ⟨?_, hdrawn, ?_, hoffset⟩
  · intro i hi
    apply exists_le_of_le_sup hi
    have hle : shortIndex indices i ≤ (Finset.range count).sup (shortIndex indices) :=
      Finset.le_sup (Finset.mem_range.mpr hi)
    rw [hmax] at hle
    exact hle
  · intro i hi
    obtain ⟨cells, reads, hrun, -, hreads⟩ := h.converts (fun _ => 0) fun _ => .GLshort 0
    obtain ⟨cells', hrun', -, -⟩ :=
      convertIndirect_spec x2f (fun _ => 0) (fun _ => .GLshort 0) p count type indices
    obtain ⟨-, rfl⟩ := Prod.mk.inj (Except.ok.inj (hrun.symm.trans hrun'))
    obtain ⟨k, hk, haddr⟩ := hreads _ (List.mem_map_of_mem (List.mem_range.mpr hi))
    -- no index that is read is larger than all that are drawn
    obtain ⟨k', hk', hword⟩ := conversionIndex_le type indices hi
    have hsup : shortIndex indices k' ≤ (Finset.range count).sup (shortIndex indices) :=
      Finset.le_sup (Finset.mem_range.mpr hk')
    rw [hmax] at hsup
    obtain ⟨k'', hk'', hlarge⟩ := exists_le_of_le_sup hi (Nat.le_trans hword hsup)
    have hlt := Nat.lt_of_le_of_lt (Nat.mul_le_mul_right p.byteStride hlarge) (hoffset k'' hk'')
    rw [offsetAddress_eq hlt] at haddr
    exact ⟨k, hk, ConvertedPointer.element_inj haddr⟩

/-- The copy for `glDrawElements` is right exactly if its indices fit. -/
theorem convertsDrawn_iff (x2f : UInt32 → UInt32) (hx2f : x2f 0 ≠ x2f 1) (p : ConvertedPointer)
    (count : Nat) (type : GLenum) (indices : Mem) :
    ConvertsDrawn x2f p count type indices ↔ IndicesFit p count type indices :=
  ⟨fits_of_convertsDrawn hx2f, convertsDrawn_of_fits⟩

private theorem vectors_size_le : 2 ≤ 4 := by decide

/-- Vectors of two `GLfixed`s. -/
private def vectors : ConvertedPointer := .packedFixed 2 Nat.two_pos vectors_size_le

/-- Three 16-bit indices, of which two are the same. -/
theorem convertsDrawn_iff_shorts :
    ConvertsDrawn X2F vectors 3 GL_UNSIGNED_SHORT (ofList [2, 0, 0, 0, 2, 0] fun _ => 0) :=
  (convertsDrawn_iff X2F (by decide +kernel) vectors 3 GL_UNSIGNED_SHORT _).mpr (by decide +kernel)

/-- Two bytes are taken for one larger index, and the second of two 32-bit indices is missed. -/
theorem indices_misread :
    ¬ConvertsDrawn X2F vectors 2 GL_UNSIGNED_BYTE (ofList [0, 1] fun _ => 0) ∧
      ¬ConvertsDrawn X2F vectors 2 GL_UNSIGNED_INT
        (ofList [1, 0, 0, 0, 2, 0, 0, 0] fun _ => 0) := by
  constructor
  · intro h
    have hmax := h.maxIndex.2
    revert hmax
    decide +kernel
  · intro h
    have hmax := h.maxIndex.2
    revert hmax
    decide +kernel

end Draw

end AndroidRenderer.Translator
