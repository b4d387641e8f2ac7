import AndroidRenderer.Translator.VertexBuffers

/-!
# Elements and dirty ranges

The ranges that are taken out of a dirty list are turned back into indices of elements. That
is right as long as every drawn element lies in a dirty range as a whole or not at all: then
what is taken out is made of runs of whole elements.
-/

namespace AndroidRenderer.Translator

open RangeList

/-- Nothing of the range needs a conversion. -/
def Clean (list : List Range) (q : Range) : Prop := ∀ d ∈ list, q.Disjoint d

instance (list : List Range) (q : Range) : Decidable (Clean list q) :=
  List.decidableBAll _ list

/-- Each entry holds the whole element or nothing of it, and at most one entry holds it. -/
structure Aligned (list : List Range) (q : Range) : Prop where
  whole : ∀ d ∈ list, q.Within d ∨ q.Disjoint d
  once : hits list q.start ≤ 1

instance (list : List Range) (q : Range) : Decidable (Aligned list q) :=
  decidable_of_iff ((∀ d ∈ list, q.Within d ∨ q.Disjoint d) ∧ hits list q.start ≤ 1)
    ⟨fun h => ⟨h.1, h.2⟩, fun h => ⟨h.whole, h.once⟩⟩

/-- Elements that need a conversion do not overlap with others. -/
def Separate (elements : List Range) (list : List Range) : Prop :=
  ∀ q ∈ elements, Aligned list q ∧ ∀ q' ∈ elements, q = q' ∨ q.Disjoint q' ∨ Clean list q

instance (elements list : List Range) : Decidable (Separate elements list) :=
  List.decidableBAll _ elements

section Lists

variable {list : List Range} {q r : Range} {x : Int}

theorem Clean.hits_eq_zero (h : Clean list q) (hx : q.Covers x) : hits list x = 0 :=
  RangeList.hits_eq_zero.mpr fun d hd => (h d hd).not_covers hx

theorem clean_of_hits (hsize : 0 < q.size) (h : ∀ x, q.Covers x → hits list x = 0) :
    Clean list q := by
  intro d hd
  by_contra hnot
  have hx : q.Covers (max q.start d.start) ∧ d.Covers (max q.start d.start) := by
    unfold Range.Disjoint at hnot
    unfold Range.Covers
    omega
  exact RangeList.hits_eq_zero.mp (h _ hx.1) d hd hx.2

theorem covers_start (hsize : 0 < q.size) : q.Covers q.start := by
  unfold Range.Covers
  omega

theorem covers_of_within {d : Range} (hx : q.Covers x) (h : q.Within d) : d.Covers x := by
  unfold Range.Within at h
  unfold Range.Covers at *
  omega

/-- The bytes of an element are equally dirty. -/
theorem Aligned.hits_eq (h : Aligned list q) (hx : q.Covers x) :
    hits list x = hits list q.start := by
  apply List.countP_congr
  intro d hd
  have hwhole := h.whole d hd
  simp only [decide_eq_true_eq]
  unfold Range.Within Range.Disjoint at hwhole
  unfold Range.Covers at *
  omega

theorem Clean.aligned (h : Clean list q) (hsize : 0 < q.size) : Aligned list q :=
  ⟨fun d hd => .inr (h d hd), by
    rw [h.hits_eq_zero (covers_start hsize)]
    exact Nat.zero_le 1⟩

/-! ## Taking out a range of whole elements -/

variable {deleted list' deleted' elements : List Range}

theorem Clean.of_partOf (h : Clean list q) (hparts : ∀ d ∈ list', PartOf list d) :
    Clean list' q := by
  intro d hd
  obtain ⟨entry, hmem, hwithin, -⟩ := hparts d hd
  have hdisjoint := h entry hmem
  unfold Range.Disjoint Range.Within at *
  omega

/-- An element beside the range stays aligned: it lies in the remainder on its side. -/
theorem Aligned.delRange_of_disjoint (h : Aligned list q) (hsize : 0 < q.size)
    (hlist : ∀ d ∈ list, d.Fits) (hr : r.Fits) (hdisjoint : q.Disjoint r)
    (hdel : RangeList.delRange list r deleted = some (list', deleted')) : Aligned list' q := by
  constructor
  · have hkept := delRange_forall (P := fun d => d.Fits ∧ (q.Within d ∨ q.Disjoint d))
      (fun old inter hold hinter part hpart => ?_) hdel fun d hd => ⟨hlist d hd, h.whole d hd⟩
    · exact fun d hd => (hkept.1 d hd).2
    · obtain ⟨hstart, hend, hpos⟩ := Range.of_rangeIntersection hr hold.1 hinter
      obtain ⟨hpart₁, hsides⟩ := Range.of_mem_remainders hr hold.1 hinter hpart
      refine ⟨(hr.of_mem_remainders hold.1 hinter hpart).1, ?_⟩
      have hwhole := hold.2
      unfold Range.Disjoint Range.Within at *
      omega
  · rw [(delRange_hits hr hdel hlist q.start).1]
    grind [h.once]

/-- A range that is made of whole elements leaves the others as they are. -/
theorem Separate.delRange (h : Separate elements list) (hsize : ∀ q ∈ elements, 0 < q.size)
    (hlist : ∀ d ∈ list, d.Fits) (hr : r.Fits)
    (hwhole : ∀ x, r.Covers x → ∃ q ∈ elements, q.Covers x ∧ q.Within r)
    (hdel : RangeList.delRange list r deleted = some (list', deleted')) :
    Separate elements list' := by
  intro q hq
  obtain ⟨haligned, hothers⟩ := h q hq
  have hpos := hsize q hq
  by_cases hclean : Clean list q
  · have hclean' := hclean.of_partOf (delRange_partOf hr hdel hlist)
    exact ⟨hclean'.aligned hpos, fun _ _ => .inr (.inr hclean')⟩
  · have hothers' : ∀ q' ∈ elements, q = q' ∨ q.Disjoint q' := by
      intro q' hq'
      rcases hothers q' hq' with heq | hdisjoint | hc
      · exact .inl heq
      · exact .inr hdisjoint
      · exact absurd hc hclean
    have haligned' : Aligned list' q := by
      by_cases hdisjoint : q.Disjoint r
      · exact haligned.delRange_of_disjoint hpos hlist hr hdisjoint hdel
      · -- a common byte lies in an element of the range, which is `q` itself
        have hx : q.Covers (max q.start r.start) ∧ r.Covers (max q.start r.start) := by
          unfold Range.Disjoint at hdisjoint
          unfold Range.Covers
          omega
        obtain ⟨q', hq', hcovers, hwithin⟩ := hwhole _ hx.2
        have heq : q = q' := by
          rcases hothers' q' hq' with heq | hdisjoint'
          · exact heq
          · exact absurd hcovers (hdisjoint'.not_covers hx.1)
        have hclean' : Clean list' q := by
          refine clean_of_hits hpos fun x hxq => ?_
          have hxr : r.Covers x := by
            rw [← heq] at hwithin
            unfold Range.Within at hwithin
            unfold Range.Covers at *
            omega
          rw [(delRange_hits hr hdel hlist x).1, if_pos hxr]
        exact hclean'.aligned hpos
    exact ⟨haligned', fun q' hq' => (hothers' q' hq').imp id .inl⟩

end Lists

/-! ## Runs of elements -/

namespace GLESpointer

variable (p : GLESpointer)

theorem attribSize_pos : 0 < p.attribSize := by
  have := p.size_pos
  unfold attribSize
  omega

theorem byteStride_pos : 0 < p.byteStride := by
  have := p.attribSize_pos
  unfold byteStride
  split <;> omega

@[simp] theorem element_size (e : Int) : (p.element e).size = p.attribSize := rfl

@[simp] theorem element_start (e : Int) :
    (p.element e).start = p.buffOffset.toNat + e * p.byteStride := rfl

end GLESpointer

/-- Elements that follow each other fill the bytes between the first and the last. -/
theorem countP_tiles (a : Int) {size : Int} (hsize : 0 < size) (k : Nat) (x : Int) :
    (List.range k).countP (fun j : Nat => decide (a + j * size ≤ x ∧ x < a + j * size + size)) =
      if a ≤ x ∧ x < a + k * size then 1 else 0 := by
  induction k with
  | zero => simp
  | succ k ih =>
      have hk : 0 ≤ (k : Int) * size := Int.mul_nonneg (Int.natCast_nonneg k) (by omega)
      have hsucc : ((k + 1 : Nat) : Int) * size = k * size + size := by grind
      rw [List.range_succ, List.countP_append, ih, hsucc, List.countP_singleton]
      grind

/-- `c` holds the elements `e, …, e + k - 1`, which are drawn. There is more than one only where
they follow each other without gaps. -/
structure IsRun (p : GLESpointer) (elements : List Int) (c : Range) (e k : Nat) : Prop where
  start : c.start = p.buffOffset.toNat + e * p.byteStride
  size : c.size = k * p.attribSize
  pos : 0 < k
  tight : k = 1 ∨ p.byteStride = p.attribSize
  drawn : ∀ j < k, ((e + j : Nat) : Int) ∈ elements

namespace IsRun

variable {p : GLESpointer} {elements : List Int} {c r d : Range} {e k : Nat}

theorem element_start (h : IsRun p elements c e k) (j : Nat) (hj : j < k) :
    (p.element (e + j : Nat)).start = c.start + j * p.attribSize := by
  have hexpand : ((e + j : Nat) : Int) * p.byteStride = e * p.byteStride + j * p.byteStride := by
    grind
  grind [GLESpointer.element_start, h.start, h.tight]

theorem count (h : IsRun p elements c e k) (x : Int) :
    (List.range k).countP (fun j => decide ((p.element (e + j : Nat)).Covers x)) =
      if c.Covers x then 1 else 0 := by
  have hcovers : c.Covers x ↔ c.start ≤ x ∧ x < c.start + k * p.attribSize := by
    rw [← h.size]
    rfl
  rw [if_congr hcovers rfl rfl, ← countP_tiles c.start p.attribSize_pos k x]
  apply List.countP_congr
  intro j hj
  rw [decide_eq_true_eq, decide_eq_true_eq, Range.Covers,
    h.element_start j (List.mem_range.mp hj), GLESpointer.element_size]

theorem exists_element (h : IsRun p elements c e k) {x : Int} (hx : c.Covers x) :
    ∃ j < k, (p.element (e + j : Nat)).Covers x := by
  have hcount := h.count x
  rw [if_pos hx] at hcount
  obtain ⟨j, hj, hcovers⟩ := List.countP_pos_iff.mp (by rw [hcount]; exact Nat.one_pos)
  exact ⟨j, List.mem_range.mp hj, of_decide_eq_true hcovers⟩

theorem element_within (h : IsRun p elements c e k) {j : Nat} (hj : j < k) :
    (p.element (e + j : Nat)).Within c := by
  have hle : ((j + 1 : Nat) : Int) * p.attribSize ≤ k * p.attribSize :=
    Int.mul_le_mul_of_nonneg_right (by omega) (Int.le_of_lt p.attribSize_pos)
  have hsucc : ((j + 1 : Nat) : Int) * p.attribSize = j * p.attribSize + p.attribSize := by grind
  have hj0 : 0 ≤ (j : Int) * p.attribSize :=
    Int.mul_nonneg (Int.natCast_nonneg j) (Int.le_of_lt p.attribSize_pos)
  unfold Range.Within
  rw [h.element_start j hj, GLESpointer.element_size, h.size]
  omega

theorem inter (h : IsRun p elements r e k) (hr : r.Fits) (hd : d.Fits)
    (hwhole : ∀ e ∈ elements, (p.element e).Within d ∨ (p.element e).Disjoint d)
    (hinter : r.rangeIntersection d = some c) :
    ∃ e' k', IsRun p elements c e' k' := by
  obtain ⟨hstart, hend, hpos⟩ := Range.of_rangeIntersection hr hd hinter
  have hfirst : r.Covers c.start ∧ d.Covers c.start := by
    unfold Range.Covers
    omega
  have hlast : r.Covers (c.start + c.size - 1) ∧ d.Covers (c.start + c.size - 1) := by
    unfold Range.Covers
    omega
  obtain ⟨i, hi, hcovers⟩ := h.exists_element hfirst.1
  obtain ⟨j, hj, hcovers'⟩ := h.exists_element hlast.1
  have hwithin := h.element_within hi
  have hwithin' := h.element_within hj
  have hbegin := h.element_start i hi
  have hbegin' := h.element_start j hj
  have hfirst' : c.start = (p.element (e + i : Nat)).start := by
    have hd₁ := hwhole _ (h.drawn i hi)
    grind [Range.Within, Range.Disjoint, Range.Covers]
  have hlast' : c.start + c.size = (p.element (e + j : Nat)).start + p.attribSize := by
    have hd₂ := hwhole _ (h.drawn j hj)
    grind [Range.Within, Range.Disjoint, Range.Covers, GLESpointer.element_size]
  have hcount : c.size = ((j : Int) + 1 - i) * p.attribSize := by grind
  have hle : i ≤ j := by
    by_contra hlt
    have hneg : ((j : Int) + 1 - i) * p.attribSize ≤ 0 :=
      Int.mul_nonpos_of_nonpos_of_nonneg (by omega) (Int.le_of_lt p.attribSize_pos)
    omega
  refine ⟨e + i, j + 1 - i, hfirst', ?_, by omega, ?_, ?_⟩
  · grind
  · exact h.tight.imp (by omega) id
  · intro j' hj'
    rw [Nat.add_assoc]
    exact h.drawn (i + j') (by omega)

theorem rangeToIndices_eq (h : IsRun p elements c e k) (hend : c.start + c.size < 2 ^ 31)
    (hindex : ∀ j < k, e + j < 2 ^ 16) : rangeToIndices p c = (List.range k).map (e + ·) := by
  have hprod : 0 ≤ (e : Int) * p.byteStride :=
    Int.mul_nonneg (Int.natCast_nonneg e) (Int.le_of_lt p.byteStride_pos)
  have hsize : 0 < c.size := by
    rw [h.size]
    exact Int.mul_pos (by have := h.pos; omega) p.attribSize_pos
  have hstart := h.start
  have hfirst : GLint (c.start - GLint p.buffOffset.toNat) = e * p.byteStride := by
    grind [GLint_of_range]
  unfold rangeToIndices
  dsimp only
  rw [hfirst, h.size, Int.mul_tdiv_cancel _ (Int.ne_of_gt p.byteStride_pos),
    Int.mul_tdiv_cancel _ (Int.ne_of_gt p.attribSize_pos), Int.toNat_natCast]
  apply List.map_congr_left
  grind

end IsRun

/-! ## Ranges of a draw -/

/-- The range lies in the first `n` bytes. -/
structure Range.Inside (n : Int) (d : Range) : Prop extends d.Fits where
  start_nonneg : 0 ≤ d.start
  end_le : d.start + d.size ≤ n

theorem Range.Inside.of_within {n : Int} {d d' : Range} (h : d.Inside n) (hfits : d'.Fits)
    (hwithin : d'.Within d) : d'.Inside n := by
  have h₁ := h.start_nonneg
  have h₂ := h.end_le
  unfold Range.Within at hwithin
  exact ⟨hfits, by omega, by omega⟩

theorem RangeList.PartOf.inside {n : Int} {list : List Range} {d : Range} (h : PartOf list d)
    (hlist : ∀ d ∈ list, d.Inside n) (hfits : d.Fits) : d.Inside n := by
  obtain ⟨entry, hmem, hwithin, -⟩ := h
  exact (hlist entry hmem).of_within hfits hwithin

variable {p : GLESpointer} {list rl : List Range} {n : Int}

/-- What the ranges of a draw take out of the dirty list is made of runs, if each of them is one.
Induction over the ranges. -/
theorem delRanges_spec (deleted : List Range) {elements : List Range} {drawn : List Int}
    (hsep : Separate elements list) (hsize : ∀ q ∈ elements, 0 < q.size)
    (hdrawn : ∀ e ∈ drawn, p.element e ∈ elements) (hlist : ∀ d ∈ list, d.Inside n)
    (hrl : ∀ r ∈ rl, r.size = 0 ∨ r.Fits ∧ ∃ e k, IsRun p drawn r e k) :
    ∃ list' deleted', delRanges list rl deleted = some (list', deleted') ∧
      Separate elements list' ∧ (∀ d ∈ list', d.Inside n ∧ PartOf list d) ∧
      (∀ x, hits list' x = if hits rl x = 0 then hits list x else 0) ∧
      (∀ x, hits deleted' x = hits deleted x + if hits rl x = 0 then 0 else hits list x) ∧
      ∀ c ∈ deleted', c ∈ deleted ∨ c.Inside n ∧ ∃ e k, IsRun p drawn c e k := by
  induction rl generalizing list deleted with
  | nil =>
      exact ⟨list, deleted, rfl, hsep, fun d hd => ⟨hlist d hd, partOf_of_mem hd⟩,
        fun _ => rfl, fun _ => rfl, fun c hc => .inl hc⟩
  | cons r rl ih =>
      have hrest := fun r' hr' => hrl r' (List.mem_cons_of_mem r hr')
      rcases hrl r List.mem_cons_self with hempty | ⟨hr, e, k, hrun⟩
      · obtain ⟨list', deleted', hdel, hsep', hparts, hleft, hdeleted, hruns⟩ :=
          ih deleted hsep hlist hrest
        have hhits : ∀ x, hits (r :: rl) x = hits rl x := by
          intro x
          grind [Range.Covers]
        refine ⟨list', deleted', ?_, hsep', hparts, ?_, ?_, hruns⟩
        · rw [delRanges, delRange_empty hempty]
          exact hdel
        · intro x
          rw [hhits, hleft]
        · intro x
          rw [hhits, hdeleted]
      · have hfits : ∀ d ∈ list, d.Fits := fun d hd => (hlist d hd).toFits
        obtain ⟨list₁, deleted₁, hdel₁⟩ := delRange_terminates deleted hr hfits
        have hwhole : ∀ x, r.Covers x → ∃ q ∈ elements, q.Covers x ∧ q.Within r := by
          intro x hx
          grind [hrun.exists_element, hrun.drawn, hrun.element_within]
        have hparts₁ := delRange_partOf hr hdel₁ hfits
        have hinside₁ : ∀ d ∈ list₁, d.Inside n := fun d hd =>
          (hparts₁ d hd).inside hlist (delRange_fits hr hdel₁ hfits d hd)
        obtain ⟨list', deleted', hdel, hsep', hparts, hleft, hdeleted, hruns⟩ :=
          ih deleted₁ (hsep.delRange hsize hfits hr hwhole hdel₁) hinside₁ hrest
        have hhits := delRange_hits hr hdel₁ hfits
        refine ⟨list', deleted', ?_, hsep', ?_, ?_, ?_, ?_⟩
        · rw [delRanges, hdel₁]
          exact hdel
        · exact fun d hd => ⟨(hparts d hd).1, (hparts d hd).2.trans hparts₁⟩
        · grind
        · grind
        · intro c hc
          rcases hruns c hc with hc | hc
          · rcases delRange_deleted hr hdel₁ hfits c hc with hc | ⟨old, hold, hinter⟩
            · exact .inl hc
            · obtain ⟨hstart, hend, hpos⟩ := Range.of_rangeIntersection hr (hfits old hold) hinter
              have hinside : c.Inside n := by
                refine (hlist old hold).of_within (hr.of_rangeIntersection (hfits old hold) hinter) ?_
                unfold Range.Within
                omega
              exact .inr ⟨hinside, hrun.inter hr (hfits old hold)
                (fun e he => (hsep _ (hdrawn e he)).1.whole old hold) hinter⟩
          · exact .inr hc

/-! ## The conversion of the ranges -/

theorem indices_spec {drawn : List Int} {runs : List Range}
    (hruns : ∀ c ∈ runs, ∃ e k, IsRun p drawn c e k ∧ c.start + c.size < 2 ^ 31 ∧
      ∀ j < k, e + j < 2 ^ 16) :
    (∀ x, hits ((runs.flatMap (rangeToIndices p)).map fun e : Nat => p.element e) x =
      hits runs x) ∧
      ∀ e ∈ runs.flatMap (rangeToIndices p), (e : Int) ∈ drawn ∧
        ∃ c ∈ runs, (p.element e).Within c := by
  induction runs with
  | nil => exact ⟨fun _ => rfl, fun _ he => by cases he⟩
  | cons c runs ih =>
      obtain ⟨hhits, hmem⟩ := ih fun c' hc' => hruns c' (List.mem_cons_of_mem c hc')
      obtain ⟨e, k, hrun, hend, hindex⟩ := hruns c List.mem_cons_self
      have hindices := hrun.rangeToIndices_eq hend hindex
      constructor
      · intro x
        have hfirst : hits (((List.range k).map (e + ·)).map fun e : Nat => p.element e) x =
            if c.Covers x then 1 else 0 := by
          rw [← hrun.count x, hits, List.map_map, List.countP_map]
          rfl
        rw [List.flatMap_cons, List.map_append, hits_append, hhits, hits_cons, hindices, hfirst,
          Nat.add_comm]
      · intro e' he'
        rcases List.mem_append.mp he' with he' | he'
        · rw [hindices] at he'
          obtain ⟨j, hj, rfl⟩ := List.mem_map.mp he'
          have hlt := List.mem_range.mp hj
          exact ⟨hrun.drawn j hlt, c, List.mem_cons_self, hrun.element_within hlt⟩
        · obtain ⟨hdrawn, c', hc', hwithin⟩ := hmem e' he'
          exact ⟨hdrawn, c', List.mem_cons_of_mem c hc', hwithin⟩

/-- Each element has its own first byte, so that there are no more indices than drawn elements
if no byte is taken out twice. -/
theorem length_indices_le {drawn : List Int} {indices : List Nat}
    (hdrawn : ∀ e ∈ indices, (e : Int) ∈ drawn)
    (honce : ∀ e ∈ indices, hits (indices.map fun e : Nat => p.element e) (p.element e).start ≤ 1) :
    indices.length ≤ drawn.length := by
  have hnodup : indices.Nodup := by
    rw [List.nodup_iff_count_le_one]
    intro e
    by_cases he : e ∈ indices
    · refine Nat.le_trans ?_ (honce e he)
      rw [hits, List.countP_map, List.count]
      apply List.countP_mono_left
      intro e' _ heq
      rw [eq_of_beq heq]
      exact decide_eq_true (covers_start p.attribSize_pos)
    · grind
  have hsub : indices.map (fun e : Nat => (e : Int)) ⊆ drawn := by grind
  have hnodup' : (indices.map fun e : Nat => (e : Int)).Nodup :=
    hnodup.map fun _ _ heq => Int.ofNat.inj heq
  have hle := (hnodup'.subperm hsub).length_le
  rwa [List.length_map] at hle

theorem elementAddress_eq {e : Nat} (hend : (p.element e).start < 2 ^ 31) :
    elementAddress p.buffOffset.toNat p.byteStride e = (p.element e).start := by
  have hprod : 0 ≤ (e : Int) * p.byteStride :=
    Int.mul_nonneg (Int.natCast_nonneg e) (Int.le_of_lt p.byteStride_pos)
  rw [GLESpointer.element_start] at hend ⊢
  unfold elementAddress
  omega

structure ConvertsDirty (b b' : GLESbuffer) (p : GLESpointer) (rl : List Range)
    (addresses : List Int) : Prop where
  length : b'.data.length = b.data.length
  parts : ∀ d ∈ b'.conversionManager, d.Inside b.data.length ∧ PartOf b.conversionManager d
  dirty : ∀ x, hits b'.conversionManager x =
    if hits rl x = 0 then hits b.conversionManager x else 0
  converted : ∀ x, hits (addresses.map fun addr => ⟨addr, p.attribSize⟩) x =
    if hits rl x = 0 then 0 else hits b.conversionManager x
  unchanged : ∀ i : Nat, hits (addresses.map fun addr => ⟨addr, p.attribSize⟩) i = 0 →
    b'.data[i]? = b.data[i]?

theorem convertRanges_spec (x2f : UInt32 → UInt32) {b : GLESbuffer} {elements : List Range}
    {drawn : List Int} {count : Nat} (hsep : Separate elements b.conversionManager)
    (hsize : ∀ q ∈ elements, 0 < q.size) (hdrawn : ∀ e ∈ drawn, p.element e ∈ elements)
    (hlist : ∀ d ∈ b.conversionManager, d.Inside b.data.length)
    (hlength : b.data.length < 2 ^ 31)
    (hrl : ∀ r ∈ rl, r.size = 0 ∨ r.Fits ∧ ∃ e k, IsRun p drawn r e k)
    (hindex : ∀ e ∈ drawn, Clean b.conversionManager (p.element e) ∨ e < 2 ^ 16)
    (hcount : drawn.length ≤ count) :
    ∃ b' addresses, convertRanges x2f b p p.buffOffset.toNat count rl = .ok (b', addresses) ∧
      Separate elements b'.conversionManager ∧ ConvertsDirty b b' p rl addresses ∧
      ∀ addr ∈ addresses, (∃ e ∈ drawn, addr = (p.element e).start) ∧ ∀ j < p.size,
        wordAt b'.data (addr + 4 * (j : Nat)) = x2f (wordAt b.data (addr + 4 * (j : Nat))) := by
  unfold convertRanges
  split
  · rename_i hfully
    have hnil : b.conversionManager = [] := List.length_eq_zero_iff.mp (of_decide_eq_true hfully)
    refine ⟨b, [], rfl, hsep, ⟨rfl, fun d hd => ⟨hlist d hd, partOf_of_mem hd⟩, ?_, ?_, ?_⟩, ?_⟩
    · intro x
      rw [hnil, hits_nil, ite_self]
    · intro x
      rw [hnil, hits_nil, ite_self]
      rfl
    · exact fun _ _ => rfl
    · exact fun _ haddr => by cases haddr
  · obtain ⟨list', runs, hdel, hsep', hparts, hleft, htaken, hruns⟩ :=
      delRanges_spec [] hsep hsize hdrawn hlist hrl
    have htaken' : ∀ x, hits runs x = if hits rl x = 0 then 0 else hits b.conversionManager x := by
      intro x
      rw [htaken, hits_nil, Nat.zero_add]
    have hget : b.getConversions rl = .ok ({ b with conversionManager := list' }, runs) := by
      rw [GLESbuffer.getConversions, hdel]
      dsimp only
      rw [merge_eq]
    rw [hget]
    change ∃ b' addresses, (if runs.length = 0 then _ else _) = _ ∧ _
    split
    · rename_i hempty
      have hnil := List.length_eq_zero_iff.mp hempty
      refine ⟨_, [], rfl, hsep', ⟨rfl, hparts, hleft, ?_, fun _ _ => rfl⟩, fun _ haddr => by
        cases haddr⟩
      intro x
      rw [← htaken', hnil]
      rfl
    · have hruns' : ∀ c ∈ runs, c.Inside b.data.length ∧ ∃ e k, IsRun p drawn c e k := by
        intro c hc
        rcases hruns c hc with hc | hc
        · cases hc
        · exact hc
      have hdirty : ∀ c ∈ runs, ∀ x, c.Covers x → 0 < hits b.conversionManager x := by
        intro c hc x hx
        have hpos : 0 < hits runs x := List.countP_pos_iff.mpr ⟨c, hc, decide_eq_true hx⟩
        rw [htaken'] at hpos
        split at hpos
        · cases hpos
        · exact hpos
      have hfound : ∀ c ∈ runs, ∃ e k, IsRun p drawn c e k ∧ c.start + c.size < 2 ^ 31 ∧
          ∀ j < k, e + j < 2 ^ 16 := by
        intro c hc
        obtain ⟨hinside, e, k, hrun⟩ := hruns' c hc
        have hend := hinside.end_le
        refine ⟨e, k, hrun, by omega, ?_⟩
        intro j hj
        rcases hindex _ (hrun.drawn j hj) with hclean | hlt
        · have hx := covers_start (q := p.element (e + j : Nat)) p.attribSize_pos
          have hpos := hdirty c hc _ (covers_of_within hx (hrun.element_within hj))
          rw [hclean.hits_eq_zero hx] at hpos
          cases hpos
        · omega
      obtain ⟨hhits, hmem⟩ := indices_spec hfound
      generalize hindices : runs.flatMap (rangeToIndices p) = indices at hhits hmem
      have honce : ∀ e ∈ indices, ∀ x, (p.element e).Covers x →
          hits (indices.map fun e : Nat => p.element e) x ≤ 1 := by
        intro e he x hx
        have haligned := (hsep _ (hdrawn _ (hmem e he).1)).1
        rw [hhits, htaken']
        split
        · exact Nat.zero_le 1
        · rw [haligned.hits_eq hx]
          exact haligned.once
      have hle : indices.length ≤ count := by
        refine Nat.le_trans (length_indices_le (p := p) (fun e he => (hmem e he).1) ?_) hcount
        exact fun e he => honce e he _ (covers_start p.attribSize_pos)
      have hinside : ∀ e ∈ indices, 0 ≤ (p.element e).start ∧
          (p.element e).start + p.attribSize ≤ b.data.length := by
        intro e he
        obtain ⟨-, c, hc, hwithin⟩ := hmem e he
        have hstart := (hruns' c hc).1.start_nonneg
        have hend := (hruns' c hc).1.end_le
        have hsize' := GLESpointer.element_size p e
        unfold Range.Within at hwithin
        omega
      have haddress : ∀ e ∈ indices,
          elementAddress p.buffOffset.toNat p.byteStride e = (p.element e).start := by
        intro e he
        have hpos := p.attribSize_pos
        have hend := (hinside e he).2
        exact elementAddress_eq (by omega)
      have haddresses : (indices.map (elementAddress p.buffOffset.toNat p.byteStride)).map
          (fun addr => (⟨addr, p.attribSize⟩ : Range)) = indices.map fun e : Nat => p.element e := by
        rw [List.map_map]
        apply List.map_congr_left
        intro e he
        rw [Function.comp_apply, haddress e he]
        rfl
      have hinside' : ∀ e ∈ indices, 0 ≤ elementAddress p.buffOffset.toNat p.byteStride e ∧
          elementAddress p.buffOffset.toNat p.byteStride e + p.attribSize ≤ b.data.length := by
        intro e he
        rw [haddress e he]
        exact hinside e he
      obtain ⟨data, hloop, hsame, hunchanged⟩ := convertFixedIndirectLoop_spec x2f hinside'
      have hread : bytesRangesToIndices runs p count = .ok indices := by
        unfold bytesRangesToIndices
        rw [hindices]
        exact if_pos hle
      refine ⟨{ b with data, conversionManager := list' },
        indices.map (elementAddress p.buffOffset.toNat p.byteStride), ?_, hsep',
        ⟨hsame, hparts, hleft, ?_, ?_⟩, ?_⟩
      · rw [hread]
        change (convertFixedIndirectLoop x2f p _ b.data indices >>= _) = _
        rw [hloop]
        rfl
      · intro x
        rw [haddresses, hhits, htaken']
      · intro i hi
        apply hunchanged
        intro e he hcovers
        rw [haddresses, RangeList.hits_eq_zero] at hi
        rw [haddress e he] at hcovers
        exact hi _ (List.mem_map_of_mem he) hcovers
      · intro addr haddr
        obtain ⟨e, he, rfl⟩ := List.mem_map.mp haddr
        refine ⟨⟨e, (hmem e he).1, haddress e he⟩, ?_⟩
        have hranges : (indices.map fun index =>
            (⟨elementAddress p.buffOffset.toNat p.byteStride index, p.attribSize⟩ : Range)) =
            indices.map fun e : Nat => p.element e := by
          rw [← haddresses, List.map_map]
          rfl
        intro j hj
        refine wordAt_convertFixedIndirectLoop x2f hinside' hloop he ?_ hj
        rw [hranges, haddress e he]
        exact honce e he

end AndroidRenderer.Translator
