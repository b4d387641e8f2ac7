import AndroidRenderer.Translator.DirectCopies

/-!
# The vertices of `glDrawArrays`

The driver is given `first` with the converted arrays. Copies hold the first vertex of the draw at
their start, and the pointer into a buffer object is moved by `first` elements, so that in both
cases the driver takes other vertices unless the draw begins at the first.
-/

namespace AndroidRenderer.Translator

open LittleEndian RangeList

/-- Where the driver finds a vertex of an array in a buffer object. The product is an `int`. -/
def vertexAddress (p : GLESpointer) (first vertex : Nat) : Int :=
  p.buffOffset.toNat + GLint (first * p.byteStride) + vertex * p.byteStride

/-- The driver finds the elements of the draw, converted, in the buffer object, and no others are
converted. `written` are the bytes as the application has written them. -/
def FetchesInPlace (x2f : UInt32 → UInt32) (b : GLESbuffer) (written : List UInt8)
    (p : GLESpointer) (first count : Nat) : Prop :=
  ∃ b' addresses, convertDirectVBO x2f b first count p = .ok (b', addresses) ∧
    (∀ k < count, ∀ j < p.size, wordAt b'.data (vertexAddress p first (first + k) + 4 * (j : Nat)) =
      x2f (wordAt written ((p.element (first + k : Nat)).start + 4 * (j : Nat)))) ∧
    ∀ addr ∈ addresses, ∃ k < count, addr = (p.element (first + k : Nat)).start

/-- A buffer whose dirty elements hold what is written, and the others its conversion. The draw
from the first element finds them. -/
structure ElementsFit (x2f : UInt32 → UInt32) (b : GLESbuffer) (written : List UInt8)
    (p : GLESpointer) (count : Nat) : Prop where
  length_lt : b.data.length < 2 ^ 31
  inside : ∀ d ∈ b.conversionManager, d.Inside b.data.length
  finds : (Draw.glDrawArrays 0 count).Finds p b.conversionManager
  separate : Separate ((Draw.glDrawArrays 0 count).elements.map p.element) b.conversionManager
  words : ∀ e < count, ∀ j < p.size, wordAt b.data ((p.element (e : Nat)).start + 4 * (j : Nat)) =
    if Clean b.conversionManager (p.element (e : Nat)) then
      x2f (wordAt written ((p.element (e : Nat)).start + 4 * (j : Nat)))
    else wordAt written ((p.element (e : Nat)).start + 4 * (j : Nat))

section InPlace

variable {x2f : UInt32 → UInt32} {b : GLESbuffer} {written : List UInt8} {p : GLESpointer}
  {first count : Nat}

theorem convertRanges_empty {dataIn : Int} {rl : List Range} (hrl : ∀ r ∈ rl, r.size = 0) :
    convertRanges x2f b p dataIn count rl = .ok (b, []) := by
  have hdel : delRanges b.conversionManager rl [] = some (b.conversionManager, []) := by
    induction rl with
    | nil => rfl
    | cons r rl ih => grind [delRanges, delRange_empty]
  unfold convertRanges
  split
  · rfl
  · rw [GLESbuffer.getConversions, hdel]
    rfl

/-- A draw of no elements. -/
theorem fetchesInPlace_zero : FetchesInPlace x2f b written p first 0 := by
  have hempty : ∀ r ∈ directToBytesRanges first 0 p, r.size = 0 := by
    intro r hr
    unfold directToBytesRanges at hr
    dsimp only at hr
    split at hr
    · obtain rfl := List.mem_singleton.mp hr
      dsimp only
      rw [Int.natCast_zero, Int.zero_mul]
      rfl
    · cases hr
  exact ⟨b, [], convertRanges_empty hempty, fun k hk => absurd hk (Nat.not_lt_zero k),
    fun _ haddr => by cases haddr⟩

/-- A dirty element is held by an entry as a whole. -/
theorem hits_start_pos {list : List Range} {q : Range} (haligned : Aligned list q)
    (hsize : 0 < q.size) (hdirty : ¬Clean list q) : 0 < hits list q.start := by
  rcases Nat.eq_zero_or_pos (hits list q.start) with hzero | hpos
  · grind [haligned.hits_eq, clean_of_hits]
  · exact hpos

theorem vertexAddress_zero (e : Nat) : vertexAddress p 0 (0 + e) = (p.element e).start := by
  have hzero : GLint (((0 : Nat) : Int) * p.byteStride) = 0 := by
    rw [Int.natCast_zero, Int.zero_mul]
    rfl
  rw [vertexAddress, hzero, Int.add_zero, Nat.zero_add]
  rfl

theorem fetchesInPlace_of_fits (h : ElementsFit x2f b written p count) :
    FetchesInPlace x2f b written p 0 count := by
  have haccepted : (Draw.glDrawArrays 0 count).Accepted := Int.natCast_nonneg count
  obtain ⟨hruns, hcovered⟩ := Draw.ranges_spec (p := p) haccepted h.finds.1
    fun e he => (h.finds.2 e he).1
  have helements : ∀ e : Nat, e < count → (e : Int) ∈ (Draw.glDrawArrays 0 count).elements :=
    fun e he => List.mem_map.mpr
      ⟨e, List.mem_range.mpr (by rwa [Int.toNat_natCast]), Int.zero_add _⟩
  have hsize : ∀ q ∈ (Draw.glDrawArrays 0 count).elements.map p.element, 0 < q.size := by
    intro q hq
    obtain ⟨e, -, rfl⟩ := List.mem_map.mp hq
    exact p.attribSize_pos
  obtain ⟨b', addresses, hconvert, -, hspec, hwords⟩ := convertRanges_spec x2f h.separate hsize
    (fun e he => List.mem_map_of_mem he) h.inside h.length_lt hruns (fun e he => (h.finds.2 e he).2)
    (Nat.le_of_eq (Draw.glDrawArrays 0 count).length_elements)
  rw [← Draw.convert_eq x2f b h.finds.1] at hconvert
  refine ⟨b', addresses, hconvert, ?_, ?_⟩
  · intro e he j hj
    have hmem := helements e he
    have hword := h.words e he j hj
    rw [vertexAddress_zero, Nat.zero_add]
    by_cases hclean : Clean b.conversionManager (p.element (e : Nat))
    · rw [if_pos hclean] at hword
      rw [← hword]
      have hlast := (h.finds.2 e hmem).1
      have hstart : 0 ≤ (p.element (e : Nat)).start := by
        have hprod : 0 ≤ (e : Int) * p.byteStride :=
          Int.mul_nonneg (Int.natCast_nonneg e) (Int.le_of_lt p.byteStride_pos)
        rw [GLESpointer.element_start]
        omega
      apply wordAt_congr (by omega)
      intro i hi
      apply hspec.unchanged
      rw [hspec.converted]
      have hcovers : (p.element (e : Nat)).Covers i := by
        have hattrib : (p.element (e : Nat)).size = p.size * 4 := rfl
        simp only [Range.Covers] at hi ⊢
        omega
      rw [hclean.hits_eq_zero hcovers, ite_self]
    · rw [if_neg hclean] at hword
      rw [← hword]
      obtain ⟨haligned, hothers⟩ := h.separate _ (List.mem_map_of_mem hmem)
      have hcovers := covers_start (q := p.element (e : Nat)) p.attribSize_pos
      have hhits : 0 < hits (addresses.map fun addr => ⟨addr, p.attribSize⟩)
          (p.element (e : Nat)).start := by
        obtain ⟨r, hr, hwithin⟩ := hcovered e hmem
        have hranges : 0 < hits ((Draw.glDrawArrays 0 count).ranges p) (p.element (e : Nat)).start :=
          List.countP_pos_iff.mpr ⟨r, hr, decide_eq_true (covers_of_within hcovers hwithin)⟩
        rw [hspec.converted, if_neg (by omega)]
        exact hits_start_pos haligned p.attribSize_pos hclean
      obtain ⟨range, hrange, hin⟩ := List.countP_pos_iff.mp hhits
      obtain ⟨addr, haddr, rfl⟩ := List.mem_map.mp hrange
      obtain ⟨⟨e', he', rfl⟩, hconverted⟩ := hwords addr haddr
      have hsame : p.element (e : Nat) = p.element e' := by
        rcases hothers _ (List.mem_map_of_mem he') with heq | hdisjoint | hclean'
        · exact heq
        · exact absurd (of_decide_eq_true hin) (hdisjoint.not_covers hcovers)
        · exact absurd hclean' hclean
      grind
  · intro addr haddr
    obtain ⟨⟨e, he, rfl⟩, -⟩ := hwords addr haddr
    obtain ⟨k, hk, rfl⟩ := List.mem_map.mp he
    grind

end InPlace

/-- Copies are right exactly if the draw begins at the first element and the copy is not too
large, or if it draws nothing. Elements in buffer objects are right if the draw begins at the
first and finds them, or draws nothing. -/
theorem glDrawArrays_fetches (x2f : UInt32 → UInt32) (first count : Nat) (hfirst : first < 2 ^ 31)
    (hcount : count < 2 ^ 31) :
    (∀ p : ConvertedPointer, FetchesCopy x2f p first count ↔ CopyFits p first count) ∧
      ∀ b written (p : GLESpointer), count = 0 ∨ first = 0 ∧ ElementsFit x2f b written p count →
        FetchesInPlace x2f b written p first count := by
  refine ⟨fun p => fetchesCopy_iff hfirst hcount, ?_⟩
  rintro b written p (rfl | ⟨rfl, hfit⟩)
  · exact fetchesInPlace_zero
  · exact fetchesInPlace_of_fits hfit

private theorem fixed_size_le : 1 ≤ 4 := by decide

/-- One `GLfixed` for each vertex. -/
private def fixedArray : ConvertedPointer := .packedFixed 1 Nat.one_pos fixed_size_le

/-- One `GLfixed` for each vertex, from the fourth byte of a buffer on. -/
private def fixedElements : GLESpointer :=
  ⟨1, 1, GL_FIXED, 0, 4, Nat.one_pos, fixed_size_le, ConvertedPointer.packed_stride_lt⟩

/-- The values 1, 2 and 3, of which the second has been converted. -/
private def fixedBuffer : GLESbuffer :=
  ⟨[0, 0, 1, 0, 0, 0, 0, 0x40, 0, 0, 3, 0, 0, 0, 4, 0], [⟨0, 4⟩, ⟨8, 8⟩]⟩

private def fixedWritten : List UInt8 := [0, 0, 1, 0, 0, 0, 2, 0, 0, 0, 3, 0, 0, 0, 4, 0]

private theorem fixedBuffer_fits : ElementsFit X2F fixedBuffer fixedWritten fixedElements 2 where
  length_lt := by decide
  inside := by
    intro d hd
    rcases List.mem_cons.mp hd with rfl | hd
    · exact ⟨⟨by decide, by decide, by decide, by decide⟩, by decide, by decide⟩
    · obtain rfl := List.mem_singleton.mp hd
      exact ⟨⟨by decide, by decide, by decide, by decide⟩, by decide, by decide⟩
  finds := by decide
  separate := by decide
  words := by decide +kernel

/-- Two vertices from the first on. -/
theorem glDrawArrays_fetches_two :
    FetchesCopy X2F fixedArray 0 2 ∧
      FetchesInPlace X2F fixedBuffer fixedWritten fixedElements 0 2 :=
  have h := glDrawArrays_fetches X2F 0 2 (by decide) (by decide)
  ⟨(h.1 fixedArray).mpr (by decide), h.2 _ _ _ (.inr ⟨rfl, fixedBuffer_fits⟩)⟩

/-- The second vertex of an array that is read from the second element on is the third element, in
a copy and in a buffer object. -/
theorem first_applied_twice :
    ¬FetchesCopy X2F fixedArray 1 1 ∧
      ¬FetchesInPlace X2F ⟨fixedWritten, [⟨0, 16⟩]⟩ fixedWritten fixedElements 1 1 := by
  constructor
  · rw [fetchesCopy_iff (by decide) (by decide)]
    decide
  · rintro ⟨b', addresses, hrun, -, hconverted⟩
    have haddresses : (convertDirectVBO X2F ⟨fixedWritten, [⟨0, 16⟩]⟩ (1 : Nat) 1 fixedElements).map
        Prod.snd = .ok [12] := by
      decide +kernel
    rw [hrun] at haddresses
    obtain rfl : addresses = [12] := Except.ok.inj haddresses
    obtain ⟨k, hk, hstart⟩ := hconverted 12 List.mem_cons_self
    obtain rfl := Nat.lt_one_iff.mp hk
    exact absurd hstart (by decide)

end AndroidRenderer.Translator
