import AndroidRenderer.Translator.ArrayCopies

/-!
# Copies for `glDrawArrays`

`convertDirect` begins at element `first` of the application's array and at the start of the
copy, and the driver takes its vertices from `first` on in the copy. Both agree if the draw
begins at the first element.
-/

namespace AndroidRenderer.Translator

open LittleEndian

/-- The driver takes the elements of the draw, converted, from the copy, and no others are read. -/
def FetchesCopy (x2f : UInt32 → UInt32) (p : ConvertedPointer) (first count : Nat) : Prop :=
  ∀ mem junk, ∃ fuel cells reads, convertDirect x2f mem p junk first count fuel = .ok (cells, reads) ∧
    (∀ k < count, ∀ j < p.size, cells[(first + k) * p.size + j]? =
      some (p.component x2f mem (p.element (first + k) + j * p.bytes))) ∧
    ∀ addr ∈ reads, ∃ k < count, addr = p.element (first + k)

namespace ConvertedPointer

variable (p : ConvertedPointer)

theorem bytes_pos : 0 < p.bytes := by
  unfold bytes
  split <;> decide

theorem outBytes_bounds : 2 ≤ p.outBytes ∧ p.outBytes ≤ 4 := by
  unfold outBytes
  split <;> decide

theorem byteStride_bounds : 0 < p.byteStride ∧ p.byteStride < 2 ^ 31 := by
  have hpos := Nat.mul_pos p.bytes_pos p.size_pos
  have hbytes : p.bytes ≤ 4 := by
    unfold bytes
    split <;> decide
  have hle := Nat.mul_le_mul hbytes p.size_le
  have hlt := p.stride_lt
  unfold byteStride
  split <;> omega

theorem strideOut_bounds : 0 < p.strideOut ∧ p.strideOut ≤ 16 := by
  obtain ⟨hlo, hhi⟩ := p.outBytes_bounds
  exact ⟨Nat.mul_pos p.size_pos (by omega), Nat.mul_le_mul p.size_le hhi⟩

/-- The first cell of an element of the copy. -/
theorem mul_strideOut_div (e : Nat) : e * p.strideOut / p.outBytes = e * p.size := by
  have hpos : 0 < p.outBytes := Nat.lt_of_lt_of_le Nat.two_pos p.outBytes_bounds.1
  rw [strideOut, ← Nat.mul_assoc, Nat.mul_div_cancel _ hpos]

variable {p}

@[simp] theorem attrib_length (x2f : UInt32 → UInt32) (mem : Int → UInt8) (addr : Int) :
    (p.attrib x2f mem addr).length = p.size := by
  rw [attrib, List.length_map, List.length_range]

theorem attrib_getElem? (x2f : UInt32 → UInt32) (mem : Int → UInt8) (addr : Int) {j : Nat}
    (hj : j < p.size) :
    (p.attrib x2f mem addr)[j]? = some (p.component x2f mem (addr + j * p.bytes)) := by
  rw [attrib, List.getElem?_map, List.getElem?_range hj]
  rfl

@[simp] theorem allocArr_length (junk : Nat → Component) (size : Nat) :
    (allocArr junk size).length = size := by
  rw [allocArr, List.length_map, List.length_range]

theorem allocArr_getElem? (junk : Nat → Component) {size c : Nat} (hc : c < size) :
    (allocArr junk size)[c]? = some (junk c) := by
  rw [allocArr, List.getElem?_map, List.getElem?_range hc]
  rfl

/-- Elements have different places. -/
theorem element_inj {e e' : Nat} (h : p.element e = p.element e') : e = e' := by
  have hpos := p.byteStride_bounds.1
  have hmul : (e : Int) * p.byteStride = e' * p.byteStride := Int.add_left_cancel h
  exact Int.ofNat.inj (Int.eq_of_mul_eq_mul_right (by omega) hmul)

end ConvertedPointer

section Loop

variable {x2f : UInt32 → UInt32} {mem : Int → UInt8} {p : ConvertedPointer} {nBytes : Nat}

/-- A loop that converts `n` elements, one behind the other. Induction over the elements. -/
theorem convertDirectLoop_spec {n i cell : Nat} (hi : i = cell * p.outBytes)
    (hend : i + n * p.strideOut = nBytes) (hlt : nBytes < 2 ^ 32) (dataIn : Int)
    {dataOut : List Component} (hcells : cell + n * p.size ≤ dataOut.length) {fuel : Nat}
    (hfuel : n < fuel) :
    ∃ cells, convertDirectLoop x2f mem p nBytes fuel i dataIn dataOut =
        .ok (cells, (List.range n).map fun t : Nat => dataIn + t * p.byteStride) ∧
      (∀ t < n, ∀ j < p.size, cells[cell + t * p.size + j]? =
        some (p.component x2f mem (dataIn + t * p.byteStride + j * p.bytes))) ∧
      ∀ c < cell, cells[c]? = dataOut[c]? := by
  have hout : 0 < p.outBytes := Nat.lt_of_lt_of_le Nat.two_pos p.outBytes_bounds.1
  induction n generalizing i cell dataIn dataOut fuel with
  | zero =>
      obtain ⟨fuel, rfl⟩ := Nat.exists_eq_add_of_le' hfuel
      refine ⟨dataOut, ?_, fun t ht => absurd ht (Nat.not_lt_zero t), fun _ _ => rfl⟩
      grind [convertDirectLoop]
  | succ n ih =>
      obtain ⟨fuel, rfl⟩ := Nat.exists_eq_add_of_le' (show 1 ≤ fuel by omega)
      obtain ⟨hstride, -⟩ := p.strideOut_bounds
      have hsize : (n + 1) * p.size = n * p.size + p.size := Nat.succ_mul n p.size
      have hbytes : (n + 1) * p.strideOut = n * p.strideOut + p.strideOut :=
        Nat.succ_mul n p.strideOut
      have hcell : i / p.outBytes = cell := by rw [hi, Nat.mul_div_cancel _ hout]
      have hroom : cell + (p.attrib x2f mem dataIn).length ≤ dataOut.length := by
        rw [ConvertedPointer.attrib_length]
        omega
      obtain ⟨cells₁, hstore⟩ :=
        Option.isSome_iff_exists.mp (Buffer.store?_isSome_iff.mpr hroom)
      have hlength := Buffer.store?_length hstore
      have hnext : (i + p.strideOut) % 2 ^ 32 = (cell + p.size) * p.outBytes := by
        rw [Nat.mod_eq_of_lt (by omega), Nat.add_mul, hi]
        rfl
      have hend' : (i + p.strideOut) % 2 ^ 32 + n * p.strideOut = nBytes := by omega
      have hcells' : cell + p.size + n * p.size ≤ cells₁.length := by omega
      obtain ⟨cells, hloop, hread, hkept⟩ := ih hnext hend' (dataIn + p.byteStride) hcells'
        (show n < fuel by omega)
      refine ⟨cells, ?_, ?_, ?_⟩
      · rw [convertDirectLoop, if_pos (by omega), hcell, hstore]
        dsimp only
        rw [hloop, List.range_succ_eq_map, List.map_cons, List.map_map]
        have hfirst : dataIn + ((0 : Nat) : Int) * p.byteStride = dataIn := by simp
        have hrest : (fun t : Nat => dataIn + p.byteStride + t * p.byteStride) =
            (fun t : Nat => dataIn + t * p.byteStride) ∘ Nat.succ := by grind
        rw [hfirst, hrest]
        rfl
      · intro t ht j hj
        cases t with
        | zero =>
            have hin := Buffer.store?_getElem?_inside hstore (i := cell + j) (by omega) (by
              rw [ConvertedPointer.attrib_length]
              omega)
            rw [Nat.zero_mul, Nat.add_zero, hkept _ (by omega), hin, Nat.add_sub_cancel_left,
              ConvertedPointer.attrib_getElem? x2f mem dataIn hj, Int.natCast_zero, Int.zero_mul,
              Int.add_zero]
        | succ t => grind
      · intro c hc
        rw [hkept c (by omega), Buffer.store?_getElem? hstore (.inl hc)]

/-- What a loop that ends has done in `turns` turns. Induction over the turns. -/
theorem convertDirectLoop_ok {fuel i : Nat} {dataIn : Int} {dataOut cells : List Component}
    {reads : List Int} (hi : i < 2 ^ 32)
    (h : convertDirectLoop x2f mem p nBytes fuel i dataIn dataOut = .ok (cells, reads)) :
    ∃ turns, (∀ t < turns, (i + t * p.strideOut) % 2 ^ 32 < nBytes ∧
        dataIn + t * p.byteStride ∈ reads) ∧
      nBytes ≤ (i + turns * p.strideOut) % 2 ^ 32 ∧
      ∀ c, (∀ t < turns, ¬((i + t * p.strideOut) % 2 ^ 32 / p.outBytes ≤ c ∧
        c < (i + t * p.strideOut) % 2 ^ 32 / p.outBytes + p.size)) → cells[c]? = dataOut[c]? := by
  induction fuel generalizing i dataIn dataOut cells reads with
  | zero => cases h
  | succ fuel ih =>
      have hmod := Nat.mod_eq_of_lt hi
      rw [convertDirectLoop] at h
      split at h
      · rename_i hlt
        split at h
        · cases h
        · rename_i cells₁ hstore
          obtain ⟨⟨cells₂, reads₂⟩, hloop, heq⟩ := Run.map_eq_ok.mp h
          obtain ⟨rfl, rfl⟩ := Prod.mk.inj heq
          obtain ⟨turns, hturns, hdone, hkept⟩ := ih (Nat.mod_lt _ (by decide)) hloop
          have hplace : ∀ t, ((i + p.strideOut) % 2 ^ 32 + t * p.strideOut) % 2 ^ 32 =
              (i + (t + 1) * p.strideOut) % 2 ^ 32 := by
            simp [Nat.mod_add_mod, Nat.succ_mul, Nat.add_assoc, Nat.add_comm]
          refine ⟨turns + 1, ?_, ?_, ?_⟩
          · intro t ht
            cases t with
            | zero =>
                rw [Nat.zero_mul, Nat.add_zero, hmod, Int.natCast_zero, Int.zero_mul, Int.add_zero]
                exact ⟨hlt, List.mem_cons_self⟩
            | succ t => grind
          · rw [← hplace]
            exact hdone
          · intro c hc
            have hfirst := hc 0 (Nat.succ_pos turns)
            rw [Nat.zero_mul, Nat.add_zero, hmod] at hfirst
            rw [hkept c fun t ht => hplace t ▸ hc (t + 1) (by omega)]
            apply Buffer.store?_getElem? hstore
            rw [ConvertedPointer.attrib_length]
            omega
      · rename_i hdone
        cases h
        refine ⟨0, fun t ht => absurd ht (Nat.not_lt_zero t), ?_, fun _ _ => rfl⟩
        omega

end Loop

/-- The draw begins at the first element and the bytes of its copy are an `unsigned int`. A draw of
nothing copies nothing. -/
def CopyFits (p : ConvertedPointer) (first count : Nat) : Prop :=
  if count = 0 then first * p.outBytes % 2 ^ 32 = 0 else first = 0 ∧ count * p.strideOut < 2 ^ 32

instance (p : ConvertedPointer) (first count : Nat) : Decidable (CopyFits p first count) := by
  unfold CopyFits
  infer_instance

section Draw

variable {x2f : UInt32 → UInt32} {p : ConvertedPointer} {first count : Nat}

theorem fetchesCopy_of_fits (hfirst : first < 2 ^ 31) (h : CopyFits p first count) :
    FetchesCopy x2f p first count := by
  intro mem junk
  unfold CopyFits at h
  split at h
  · rename_i hzero
    subst hzero
    refine ⟨1, ConvertedPointer.allocArr junk first, [], ?_,
      fun k hk => absurd hk (Nat.not_lt_zero k), fun _ haddr => by cases haddr⟩
    grind [convertDirect, convertDirectLoop]
  · obtain ⟨rfl, hlt⟩ := h
    have hbytes : p.size * count * p.outBytes = count * p.strideOut := by
      rw [ConvertedPointer.strideOut, Nat.mul_comm p.size, Nat.mul_assoc]
    have hcells : p.size * count ≤ count * p.strideOut := by
      rw [← hbytes]
      exact Nat.le_mul_of_pos_right _ (Nat.lt_of_lt_of_le Nat.two_pos p.outBytes_bounds.1)
    have hsize : (p.size * count + 0) % 2 ^ 32 = p.size * count := by omega
    have hdata : p.data + GLint (((0 : Nat) : Int) * p.byteStride) = p.data := by
      rw [Int.natCast_zero, Int.zero_mul, GLint_of_range (by decide) (by decide), Int.add_zero]
    have hroom : 0 + count * p.size ≤
        (ConvertedPointer.allocArr junk (p.size * count)).length := by
      rw [ConvertedPointer.allocArr_length, Nat.zero_add, Nat.mul_comm]
    obtain ⟨cells, hloop, hread, -⟩ := @convertDirectLoop_spec x2f mem p _ count 0 0
      (Nat.zero_mul _).symm (Nat.zero_add _) hlt p.data _ hroom _ (Nat.lt_succ_self count)
    refine ⟨count + 1, cells, (List.range count).map fun t : Nat => p.data + t * p.byteStride,
      ?_, ?_, ?_⟩
    · unfold convertDirect
      grind
    · intro k hk j hj
      have hcell := hread k hk j hj
      rw [Nat.zero_add] at hcell ⊢
      exact hcell
    · intro addr haddr
      obtain ⟨k, hk, rfl⟩ := List.mem_map.mp haddr
      exact ⟨k, List.mem_range.mp hk, by rw [Nat.zero_add]; rfl⟩

def Component.other : Component → Component
  | .GLfloat _ => .GLshort 0
  | .GLshort _ => .GLfloat 0

theorem Component.other_ne (c : Component) : c.other ≠ c := by
  cases c <;> intro h <;> cases h

/-- A loop that reads only elements of the draw begins at its first one and ends with its last. -/
theorem turns_le {turns : Nat} {reads : List Int} (hturns : ∀ t < turns,
      p.data + GLint (first * p.byteStride) + t * p.byteStride ∈ reads)
    (hreads : ∀ addr ∈ reads, ∃ k < count, addr = p.element (first + k)) : turns ≤ count := by
  by_contra hgt
  obtain ⟨hpos, -⟩ := p.byteStride_bounds
  -- the first element read is not before the first of the draw
  have hle : GLint (first * p.byteStride) ≤ first * p.byteStride := by
    have hnonneg : (0 : Int) ≤ first * p.byteStride :=
      Int.mul_nonneg (Int.natCast_nonneg _) (Int.natCast_nonneg _)
    have hbounds := GLint_bounds (first * p.byteStride)
    by_cases hlt : (first * p.byteStride : Int) < 2 ^ 31
    · exact Int.le_of_eq (GLint_of_range (by omega) hlt)
    · omega
  obtain ⟨k, hk, hfirst⟩ := hreads _ (hturns 0 (by omega))
  obtain ⟨k', hk', hlast⟩ := hreads _ (hturns count (by omega))
  unfold ConvertedPointer.element at hfirst hlast
  rw [Int.natCast_add, Int.add_mul] at hfirst hlast
  rw [Int.natCast_zero, Int.zero_mul, Int.add_zero] at hfirst
  have hk0 : (k : Int) * p.byteStride ≤ 0 := by omega
  have hknonneg : (0 : Int) ≤ k * p.byteStride :=
    Int.mul_nonneg (Int.natCast_nonneg _) (Int.natCast_nonneg _)
  have hmul : (count : Int) * p.byteStride = k' * p.byteStride := by omega
  have heq := Int.eq_of_mul_eq_mul_right (by omega) hmul
  omega

theorem fits_of_fetchesCopy (hfirst : first < 2 ^ 31) (hcount : count < 2 ^ 31)
    (h : FetchesCopy x2f p first count) : CopyFits p first count := by
  obtain ⟨hout, hout4⟩ := p.outBytes_bounds
  obtain ⟨hstride, hstride16⟩ := p.strideOut_bounds
  unfold CopyFits
  split
  · rename_i hzero
    subst hzero
    obtain ⟨fuel, cells, reads, hrun, -, hreads⟩ := h (fun _ => 0) (fun _ => .GLshort 0)
    obtain ⟨turns, hturns, hdone, -⟩ := convertDirectLoop_ok (by decide) hrun
    have hnone : turns = 0 :=
      Nat.le_zero.mp (turns_le (fun t ht => (hturns t ht).2) hreads)
    rw [hnone, Nat.zero_mul, Nat.mul_zero, Nat.zero_add,
      Nat.mod_eq_of_lt (show first < 2 ^ 32 by omega)] at hdone
    exact Nat.le_zero.mp hdone
  · rename_i hpos
    have hlast : first + (count - 1) = first + count - 1 := by omega
    -- unless it is written, the place of the last vertex holds something else
    obtain ⟨fuel, cells, reads, hrun, hcells, hreads⟩ := h (fun _ => 0)
      (fun _ => (p.component x2f (fun _ => 0) 0).other)
    obtain ⟨turns, hturns, hdone, hkept⟩ := convertDirectLoop_ok (by decide) hrun
    have hle := turns_le (fun t ht => (hturns t ht).2) hreads
    have hvertex := hcells (count - 1) (by omega) 0 p.size_pos
    obtain ⟨t, ht, hlo, hhi⟩ : ∃ t < turns,
        (0 + t * p.strideOut) % 2 ^ 32 / p.outBytes ≤ (first + (count - 1)) * p.size ∧
        (first + (count - 1)) * p.size <
          (0 + t * p.strideOut) % 2 ^ 32 / p.outBytes + p.size := by
      by_contra hnone
      rw [Nat.add_zero, hkept _ fun t ht hin => hnone ⟨t, ht, hin⟩] at hvertex
      obtain ⟨hinside, -⟩ := List.getElem?_eq_some_iff.mp hvertex
      rw [ConvertedPointer.allocArr_length] at hinside
      rw [ConvertedPointer.allocArr_getElem? _ hinside] at hvertex
      exact Component.other_ne _ (Option.some.inj hvertex)
    rw [Nat.zero_add] at hlo hhi
    have hbefore := (hturns t ht).1
    rw [Nat.zero_add] at hbefore
    have hplace := p.mul_strideOut_div t
    have hdiv : t * p.strideOut % 2 ^ 32 / p.outBytes ≤ t * p.size := by
      rw [← hplace]
      exact Nat.div_le_div_right (Nat.mod_le _ _)
    have hreach : first + (count - 1) < t + 1 := by
      apply Nat.lt_of_mul_lt_mul_right (a := p.size)
      rw [Nat.succ_mul]
      omega
    obtain rfl : first = 0 := by omega
    refine ⟨rfl, ?_⟩
    have hturn : t = count - 1 := by omega
    have hplain : t * p.strideOut < 2 ^ 32 := by
      have hcells : t * p.strideOut < t * p.strideOut % 2 ^ 32 + p.strideOut := by
        rw [Nat.zero_add, ← hturn] at hhi
        calc t * p.strideOut = t * p.size * p.outBytes := by
              rw [ConvertedPointer.strideOut, Nat.mul_assoc]
          _ < (t * p.strideOut % 2 ^ 32 / p.outBytes + p.size) * p.outBytes :=
              Nat.mul_lt_mul_of_pos_right hhi (by omega)
          _ = t * p.strideOut % 2 ^ 32 / p.outBytes * p.outBytes + p.strideOut := Nat.add_mul _ _ _
          _ ≤ t * p.strideOut % 2 ^ 32 + p.strideOut :=
              Nat.add_le_add_right (Nat.div_mul_le_self _ _) _
      omega
    have hbytes : (p.size * count + 0) % 2 ^ 32 * p.outBytes % 2 ^ 32 =
        (t * p.strideOut + p.strideOut) % 2 ^ 32 := by
      have hsucc : count = t + 1 := by omega
      rw [Nat.add_zero, Nat.mod_mul_mod, hsucc, ConvertedPointer.strideOut, Nat.mul_right_comm,
        Nat.mul_comm _ (t + 1), Nat.succ_mul]
    rw [hbytes] at hbefore
    have hall : count * p.strideOut = t * p.strideOut + p.strideOut := by
      have hsucc : count = t + 1 := by omega
      rw [hsucc, Nat.succ_mul]
    omega

/-- The driver takes what the application means, exactly if the copy fits. -/
theorem fetchesCopy_iff (hfirst : first < 2 ^ 31) (hcount : count < 2 ^ 31) :
    FetchesCopy x2f p first count ↔ CopyFits p first count :=
  ⟨fits_of_fetchesCopy hfirst hcount, fetchesCopy_of_fits hfirst⟩

end Draw

end AndroidRenderer.Translator
