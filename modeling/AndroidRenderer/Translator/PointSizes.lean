import AndroidRenderer.Translator.DirectCopies
import Mathlib.Data.List.Permutation

/-!
# Points with a size array

The driver has one point size for a draw. `drawPointsData` splits a draw of points into runs of one
size, sets the size, and draws the run. It looks up the size of a vertex in the array that
`setupArraysPointers` has left: the array itself, a copy, or a buffer that was converted in place.
-/

namespace AndroidRenderer.Translator

open LittleEndian

/-! ## Sizes -/

/-- The bits of a `float` that is not a number. -/
def isNaN (bits : UInt32) : Bool := 0x7F800000 < bits.toNat % 2 ^ 31

/-- `==` of two `float`s: a NaN is equal to nothing, and both zeros are equal. -/
def floatEq (a b : UInt32) : Bool :=
  !isNaN a && !isNaN b && (a == b || a.toNat % 2 ^ 31 == 0 && b.toNat % 2 ^ 31 == 0)

def SameSize (a b : UInt32) : Prop := a = b ∨ floatEq a b = true

instance (a b : UInt32) : Decidable (SameSize a b) := inferInstanceAs (Decidable (_ ∨ _))

/-- A draw of points that is accepted, as the arguments of `drawPointsData`. -/
structure PointDraw where
  first : Int
  count : Int
  type : GLenum
  isElemsDraw : Bool
  first_range : -2 ^ 31 ≤ first ∧ first < 2 ^ 31
  count_range : 0 ≤ count ∧ count < 2 ^ 31
  elems : isElemsDraw = true → first = 0 ∧ drawType type = true

/-- What became of the size array. -/
inductive SizeKind
  /-- it was not converted -/
  | pointer
  /-- `convertDirect` or `convertIndirect` have made a copy -/
  | copy
  /-- `convertDirectVBO` or `convertIndirectVBO` have converted the buffer -/
  | buffer
  deriving DecidableEq, Repr

/-- The size array: `data` is the address of the first element that the application has given, and
for a copy the address of the copy. -/
structure SizeArray where
  kind : SizeKind
  data : Int
  stride : Nat
  stride_lt : stride < 2 ^ 31

namespace SizeArray

variable (a : SizeArray) (d : PointDraw)

/-- `stride` of `drawPointsData`; a copy has stride 0. -/
def byteStride : Nat :=
  if a.kind = .copy ∨ a.stride = 0 then 4 else a.stride

/-- The address of the entry of a vertex. A copy for `glDrawArrays` begins with that of `first`. -/
def entry (vertex : Int) : Int :=
  if a.kind = .copy ∧ d.isElemsDraw = false then a.data + (vertex - d.first) * a.byteStride
  else a.data + vertex * a.byteStride

end SizeArray

namespace PointDraw

variable (d : PointDraw) (mem : Int → UInt8) (indices : Mem) (a : SizeArray)

/-- `INDEX` at position `i`. -/
def index (i : Nat) : Nat :=
  if d.type = GL_UNSIGNED_SHORT then loadLE indices (2 * i) 2 else loadLE indices i 1

/-- The vertex that the application draws at position `i`. -/
def vertex (i : Nat) : Int :=
  if d.isElemsDraw then drawnIndex d.type indices i else d.first + i

end PointDraw

section Sizes

variable {a b c : UInt32}

theorem SameSize.refl (a : UInt32) : SameSize a a := .inl rfl

theorem floatEq_comm (a b : UInt32) : floatEq a b = floatEq b a := by
  rw [Bool.eq_iff_iff]
  simp only [floatEq, Bool.and_eq_true, Bool.or_eq_true, beq_iff_eq]
  grind

theorem floatEq_trans (hab : floatEq a b = true) (hbc : floatEq b c = true) :
    floatEq a c = true := by
  simp only [floatEq, Bool.and_eq_true, Bool.or_eq_true, beq_iff_eq] at hab hbc ⊢
  grind

theorem SameSize.symm (h : SameSize a b) : SameSize b a := by
  rcases h with rfl | h
  · exact .inl rfl
  · exact .inr (floatEq_comm a b ▸ h)

theorem SameSize.trans (hab : SameSize a b) (hbc : SameSize b c) : SameSize a c := by
  rcases hab with rfl | hab
  · exact hbc
  · rcases hbc with rfl | hbc
    · exact .inr hab
    · exact .inr (floatEq_trans hab hbc)

end Sizes

/-! ## Copies -/

/-- The copy of a size array holds the size of a vertex, converted, at the entry of the vertex. -/
theorem convertDirect_entry {a : SizeArray} {d : PointDraw} {p : ConvertedPointer} {first : Nat}
    (hkind : a.kind = .copy) (harrays : d.isElemsDraw = false) (hfirst : d.first = first)
    (hsize : p.size = 1) (htype : p.type = GL_FIXED)
    (hbytes : (d.count.toNat + first) * 4 < 2 ^ 32) (hoffset : first * p.byteStride < 2 ^ 31)
    (x2f : UInt32 → UInt32) (mem : Int → UInt8) (junk : Nat → Component) :
    ∃ fuel cells reads, convertDirect x2f mem p junk first d.count.toNat fuel = .ok (cells, reads) ∧
      ∀ k < d.count.toNat, ∃ cell : Nat, a.entry d (first + k) = a.data + cell * 4 ∧
        cells[cell]? = some (p.component x2f mem (p.element (first + k))) := by
  have hout : p.outBytes = 4 := if_pos htype
  have hstride : p.strideOut = 4 := by rw [ConvertedPointer.strideOut, hsize, hout]
  have hcells : (p.size * d.count.toNat + first) % 2 ^ 32 = d.count.toNat + first := by grind
  have hdata : GLint ((first : Int) * p.byteStride) = first * p.byteStride := by
    rw [← Int.natCast_mul]
    exact GLint_of_range (by omega) (by omega)
  obtain ⟨cells, hloop, hread, -⟩ := @convertDirectLoop_spec x2f mem p
    ((d.count.toNat + first) * 4) (d.count.toNat + first) 0 0 (Nat.zero_mul _).symm
    (by rw [hstride, Nat.zero_add]) hbytes (p.data + first * p.byteStride)
    (ConvertedPointer.allocArr junk (d.count.toNat + first))
    (by rw [hsize, ConvertedPointer.allocArr_length, Nat.zero_add, Nat.mul_one]) _
    (Nat.lt_succ_self _)
  have hcopy : convertDirect x2f mem p junk first d.count.toNat (d.count.toNat + first + 1) =
      .ok (cells, (List.range (d.count.toNat + first)).map fun t : Nat =>
        p.data + first * p.byteStride + t * p.byteStride) := by
    unfold convertDirect
    dsimp only
    rw [hcells, hout, Nat.mod_eq_of_lt hbytes, hdata]
    exact hloop
  refine ⟨_, cells, _, hcopy, fun k hk => ⟨k, ?_, ?_⟩⟩
  · have hplace : (first : Int) + k - d.first = k := by omega
    have hfour : a.byteStride = 4 := if_pos (.inl hkind)
    rw [SizeArray.entry, if_pos ⟨hkind, harrays⟩, hplace, hfour]
    rfl
  · have hcell := hread k (by omega) 0 (by omega)
    rw [hsize, Nat.mul_one, Nat.zero_add, Nat.add_zero, Int.natCast_zero, Int.zero_mul,
      Int.add_zero] at hcell
    rw [hcell, ConvertedPointer.element, Int.natCast_add, Int.add_mul, Int.add_assoc]

theorem convertDirect_entry_two : ∃ fuel cells reads,
    convertDirect X2F (fun _ => 1) ⟨0, 1, GL_FIXED, 0, by decide, by decide, .inl rfl, by decide⟩
      (fun _ => .GLfloat 0) 1 2 fuel = .ok (cells, reads) ∧ ∀ k < 2, ∃ cell : Nat,
        SizeArray.entry ⟨.copy, 64, 0, by decide⟩ ⟨1, 2, 0, false, by decide, by decide, nofun⟩
          (1 + k : Nat) = 64 + cell * 4 ∧
        cells[cell]? = some (.GLfloat (X2F (.ofNat (ofLE [1, 1, 1, 1])))) :=
  @convertDirect_entry ⟨.copy, 64, 0, _⟩ ⟨1, 2, _, false, _, _, _⟩ ⟨0, 1, _, 0, _, _, _, _⟩ 1 rfl rfl
    rfl rfl rfl (show 12 < 2 ^ 32 by decide) (by decide) X2F _ _

/-! ## Runs -/

section Runs

variable {same : Nat → Bool} {n : Nat}

variable {fuel : Nat} {commands : List PointCommand}

variable {size : Nat → UInt32} {sub : Nat → Nat → SubDraw}

end Runs

/-! ## Draws -/

namespace PointDraw

variable {a : SizeArray} {d : PointDraw} {mem : Int → UInt8} {indices : Mem}

theorem byteStride_bounds (a : SizeArray) : 0 < a.byteStride ∧ a.byteStride < 2 ^ 31 := by
  have hlt := a.stride_lt
  unfold SizeArray.byteStride
  split <;> omega

section Arrays

variable (hd : d.isElemsDraw = false)

include hd

end Arrays

/-! ### Elements -/

section Elements

variable (hd : d.isElemsDraw = true)

include hd

theorem vertex_elements (i : Nat) : d.vertex indices i = (drawnIndex d.type indices i : Int) :=
  if_pos hd

variable (hwide : d.type = GL_UNSIGNED_INT)

include hwide

end Elements

end PointDraw

end AndroidRenderer.Translator
