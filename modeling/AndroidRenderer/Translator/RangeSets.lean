import AndroidRenderer.Translator.RangeList

/-!
# The integers of a range list

A list of ranges stands for the set of integers that some entry covers. Taking a range out of the
list subtracts it from that set and collects what the two have in common. A range of negative
size covers nothing; where an entry spans it, the intersection is the range itself, and the pieces
that the entry is split into span it again.
-/

namespace AndroidRenderer.Translator

namespace Range

variable {r d : Range}

/-- The members of the range are `int`s; the size may be negative. -/
structure IsInt (r : Range) : Prop where
  start_ge : -2 ^ 31 ≤ r.start
  start_lt : r.start < 2 ^ 31
  size_ge : -2 ^ 31 ≤ r.size
  size_lt : r.size < 2 ^ 31
  end_ge : -2 ^ 31 ≤ r.start + r.size
  end_lt : r.start + r.size < 2 ^ 31

theorem IsInt.getEnd_eq (h : r.IsInt) : r.getEnd = r.start + r.size :=
  GLint_of_range h.end_ge h.end_lt

theorem IsInt.fits (h : r.IsInt) (hsize : 0 ≤ r.size) : r.Fits :=
  ⟨h.start_ge, hsize, h.size_lt, h.end_lt⟩

/-- The range reaches from the end of `r` to its start. -/
def Spans (d r : Range) : Prop := d.start ≤ r.start + r.size ∧ r.start ≤ d.start + d.size

instance (d r : Range) : Decidable (d.Spans r) := inferInstanceAs (Decidable (_ ∧ _))

/-- There is a gap between the two ranges. -/
def Apart (a b : Range) : Prop := a.start + a.size < b.start ∨ b.start + b.size < a.start

instance (a b : Range) : Decidable (a.Apart b) := inferInstanceAs (Decidable (_ ∨ _))

/-! ## Ranges of negative size -/

theorem not_covers_of_neg (hneg : r.size < 0) (x : Int) : ¬r.Covers x := by
  unfold Covers
  omega

theorem rangeIntersection_of_neg (hr : r.IsInt) (hneg : r.size < 0) (hd : d.Fits) :
    r.rangeIntersection d = if d.Spans r then some r else none := by
  split
  · rename_i hspans
    obtain ⟨hlo, hhi⟩ := hspans
    have hstart : (if r.start > d.start then r.start else d.start) = r.start := if_pos (by omega)
    have hend : (if r.start + r.size < d.start + d.size then r.start + r.size
        else d.start + d.size) = r.start + r.size := if_pos (by omega)
    have hsize : r.start + r.size - r.start = r.size := by omega
    simp only [rangeIntersection, hr.getEnd_eq, hd.getEnd_eq, hstart, hend, hsize,
      GLint_of_range hr.size_ge hr.size_lt]
    rw [if_neg (by omega), if_pos (by omega)]
  · rename_i hnot
    refine (rangeIntersection_eq_none_iff hr.start_ge hr.start_lt hd).mpr ?_
    rw [hr.getEnd_eq]
    unfold Spans at hnot
    omega

/-- An entry that spans a range of negative size is split into two that overlap there. -/
theorem remainders_of_neg (hr : r.IsInt) (hneg : r.size < 0) (hd : d.Fits) (hspans : d.Spans r) :
    d.remainders r = [⟨r.start + r.size, d.start + d.size - (r.start + r.size)⟩,
      ⟨d.start, r.start - d.start⟩] := by
  obtain ⟨hlo, hhi⟩ := hspans
  obtain ⟨hd₁, hd₂, hd₃, hd₄⟩ := hd
  have hne : r ≠ d := fun heq => by
    rw [heq] at hneg
    omega
  rw [remainders, if_neg hne, hr.getEnd_eq, Fits.getEnd_eq ⟨hd₁, hd₂, hd₃, hd₄⟩,
    if_pos (by omega), if_pos (by omega), GLint_of_range (by omega) (by omega),
    GLint_of_range (by have := hr.end_ge; omega) (by have := hr.end_lt; omega)]
  rfl

theorem remainders_of_neg_fits (hr : r.IsInt) (hneg : r.size < 0) (hd : d.Fits)
    (hspans : d.Spans r) : ∀ q ∈ d.remainders r, q.Fits ∧ q.Spans r := by
  rw [remainders_of_neg hr hneg hd hspans]
  obtain ⟨hlo, hhi⟩ := hspans
  obtain ⟨hd₁, hd₂, hd₃, hd₄⟩ := hd
  obtain ⟨hr₁, hr₂, hr₃, hr₄, hr₅, hr₆⟩ := hr
  intro q hq
  rcases List.mem_cons.mp hq with rfl | hq
  · exact ⟨by constructor <;> dsimp only <;> omega, by unfold Spans; dsimp only; omega⟩
  · obtain rfl := List.mem_singleton.mp hq
    exact ⟨by constructor <;> dsimp only <;> omega, by unfold Spans; dsimp only; omega⟩

end Range

namespace RangeList

open Range

variable {r d old : Range} {list deleted : List Range} {x : Int}

def Holds (list : List Range) (x : Int) : Prop := ∃ d ∈ list, d.Covers x

theorem holds_iff_hits : Holds list x ↔ 0 < hits list x := by
  rw [hits, List.countP_pos_iff]
  simp only [decide_eq_true_eq]
  rfl

@[grind =] theorem holds_append {a b : List Range} : Holds (a ++ b) x ↔ Holds a x ∨ Holds b x := by
  unfold Holds
  simp only [List.mem_append, or_and_right, exists_or]

theorem holds_cons : Holds (d :: list) x ↔ d.Covers x ∨ Holds list x := by
  unfold Holds
  rw [List.exists_mem_cons_iff]

/-- What a loop collects comes behind what was collected before. -/
theorem delRangeLoop_append (r : Range) (fuel : Nat) (list : List Range) (i : Nat)
    (deleted : List Range) :
    delRangeLoop r fuel list i deleted =
      (delRangeLoop r fuel list i []).map fun out => (out.1, deleted ++ out.2) := by
  induction fuel generalizing list i deleted with
  | zero => rfl
  | succ fuel ih =>
      rw [delRangeLoop, delRangeLoop]
      cases list[i]? with
      | none => simp only [Option.map_some, List.append_nil]
      | some old =>
          dsimp only
          cases r.rangeIntersection old with
          | none => exact ih list (i + 1) deleted
          | some inter =>
              dsimp only
              rw [ih _ _ (deleted ++ [inter]), ih _ _ ([] ++ [inter]), Option.map_map]
              simp [Function.comp_apply, List.append_assoc, List.nil_append, Option.map]

theorem delRange_append (r : Range) (list deleted : List Range) :
    delRange list r deleted =
      (delRange list r []).map fun out => (out.1, deleted ++ out.2) := by
  unfold delRange
  grind [delRangeLoop_append]

def Subtracts (list : List Range) (r : Range) : Prop :=
  ∀ deleted, ∃ list' collected, delRange list r deleted = some (list', deleted ++ collected) ∧
    (∀ x, Holds list' x ↔ Holds list x ∧ ¬r.Covers x) ∧
    ∀ x, Holds collected x ↔ Holds list x ∧ r.Covers x

theorem subtracts_of_nonneg (hlist : ∀ d ∈ list, d.Fits) (hr : r.Fits) : Subtracts list r := by
  intro deleted
  obtain ⟨list', collected, hrun⟩ := delRange_terminates [] hr hlist
  refine ⟨list', collected, by rw [delRange_append, hrun]; rfl, ?_, ?_⟩ <;> intro x <;>
    obtain ⟨hleft, hcollected⟩ := delRange_hits hr hrun hlist x
  · grind [holds_iff_hits]
  · grind [holds_iff_hits]

/-! ## Taking out a range of negative size -/

/-- One of the first two entries is split into entries of which one comes to its place. -/
theorem delRangeLoop_endless (hr : r.IsInt) (hneg : r.size < 0) {i : Nat} (hi : i ≤ 1)
    (hold : list[i]? = some old) (hfits : old.Fits) (hspans : old.Spans r) (fuel : Nat) :
    delRangeLoop r fuel list i deleted = none := by
  induction fuel generalizing list old deleted with
  | zero => rfl
  | succ fuel ih =>
      rw [delRangeLoop, hold]
      dsimp only
      rw [rangeIntersection_of_neg hr hneg hfits, if_pos hspans]
      dsimp only
      have hpieces := remainders_of_neg_fits hr hneg hfits hspans
      have hlength : i < (old.remainders r).length := by grind [remainders_of_neg]
      grind

/-- The pieces of an entry cover what the entry does. -/
theorem holds_remainders_of_neg (hr : r.IsInt) (hneg : r.size < 0) (hfits : old.Fits)
    (hspans : old.Spans r) : Holds (old.remainders r) x ↔ old.Covers x := by
  rw [remainders_of_neg hr hneg hfits hspans, holds_cons, holds_cons]
  unfold Holds
  simp only [List.not_mem_nil, false_and, exists_false, or_false]
  unfold Spans at hspans
  unfold Covers
  dsimp only
  omega

/-- `front` has been passed and is not met again, the index is in `middle`, of which no entry
spans the range, and `back` is still to come. Two entries of `middle` are visited again for each
entry of `back` that is split. -/
theorem delRangeLoop_ends (hr : r.IsInt) (hneg : r.size < 0) (front : List Range)
    {middle back : List Range} (deleted : List Range) {k fuel : Nat}
    (hmiddle : ∀ d ∈ middle, d.Fits ∧ ¬d.Spans r) (hback : ∀ d ∈ back, d.Fits)
    (htwo : 2 ≤ middle.length ∨ back = []) (hk : k ≤ middle.length)
    (hfuel : middle.length - k + 3 * back.length < fuel) :
    ∃ list' collected,
      delRangeLoop r fuel (front ++ (middle ++ back)) (front.length + k) deleted =
        some (list', deleted ++ collected) ∧
      (∀ x, Holds list' x ↔ Holds (front ++ (middle ++ back)) x) ∧ ∀ c ∈ collected, c = r := by
  induction fuel generalizing front middle back k deleted with
  | zero => omega
  | succ fuel ih =>
      have hat : (front ++ (middle ++ back))[front.length + k]? = (middle ++ back)[k]? := by
        rw [List.getElem?_append_right (Nat.le_add_right _ _), Nat.add_sub_cancel_left]
      rw [delRangeLoop, hat]
      rcases Nat.lt_or_eq_of_le hk with hlt | rfl
      · obtain ⟨hfits, hnot⟩ := hmiddle _ (List.getElem_mem hlt)
        rw [List.getElem?_append_left hlt, List.getElem?_eq_getElem hlt]
        dsimp only
        rw [rangeIntersection_of_neg hr hneg hfits, if_neg hnot]
        exact ih front deleted hmiddle hback htwo hlt (by omega)
      · rw [List.getElem?_append_right (Nat.le_refl _), Nat.sub_self]
        cases back with
        | nil => simp [List.append_nil]
        | cons d back =>
            have hfits := hback d List.mem_cons_self
            have hback' : ∀ d' ∈ back, d'.Fits := fun d' hd' =>
              hback d' (List.mem_cons_of_mem d hd')
            rw [List.length_cons] at hfuel
            rw [List.getElem?_cons_zero]
            dsimp only
            rw [rangeIntersection_of_neg hr hneg hfits]
            by_cases hspans : d.Spans r
            · have htwo' : 2 ≤ middle.length := htwo.resolve_right (List.cons_ne_nil _ _)
              have hpieces : (d.remainders r).length = 2 := by
                rw [remainders_of_neg hr hneg hfits hspans]
                rfl
              have hindex : front.length + middle.length =
                  (d.remainders r ++ front).length + (middle.length - 2) := by grind
              obtain ⟨list', collected, hrun, hholds, hcollected⟩ :=
                ih (d.remainders r ++ front) (deleted ++ [r]) hmiddle hback' (.inl htwo')
                  (Nat.sub_le _ 2) (by omega)
              grind [holds_cons, holds_remainders_of_neg]
            · rw [if_neg hspans]
              have hmiddle' : ∀ d' ∈ middle ++ [d], d'.Fits ∧ ¬d'.Spans r := by grind
              have hlength : (middle ++ [d]).length = middle.length + 1 := by simp
              have hlist : middle ++ d :: back = middle ++ [d] ++ back := by simp
              rw [hlist]
              have htwo' : 2 ≤ middle.length := htwo.resolve_right (List.cons_ne_nil _ _)
              exact ih front deleted hmiddle' hback' (.inl (by omega))
                (Nat.le_of_eq hlength.symm) (by omega)

theorem delRangeLoop_of_spans (hr : r.IsInt) (hneg : r.size < 0) (hlist : ∀ d ∈ list, d.Fits)
    (hd : d ∈ list.take 2) (hspans : d.Spans r) (fuel : Nat) :
    delRangeLoop r fuel list 0 deleted = none := by
  obtain ⟨i, hi, rfl⟩ := List.getElem_of_mem hd
  rw [List.length_take] at hi
  have hat : ∀ j (hj : j < list.length), list[j]? = some list[j] := fun j hj =>
    List.getElem?_eq_getElem hj
  rw [List.getElem_take] at hspans
  have hzero : 0 < list.length := by omega
  by_cases hfirst : list[0].Spans r
  · grind [delRangeLoop_endless]
  · cases fuel with
    | zero => rfl
    | succ fuel => grind [delRangeLoop, rangeIntersection_of_neg, delRangeLoop_endless]

theorem subtracts_of_neg (hr : r.IsInt) (hneg : r.size < 0) (hlist : ∀ d ∈ list, d.Fits)
    (hfirst : ∀ d ∈ list.take 2, ¬d.Spans r) : Subtracts list r := by
  intro deleted
  have hmiddle : ∀ d ∈ list.take 2, d.Fits ∧ ¬d.Spans r := fun d hd =>
    ⟨hlist d (List.mem_of_mem_take hd), hfirst d hd⟩
  have hback : ∀ d ∈ list.drop 2, d.Fits := fun d hd => hlist d (List.mem_of_mem_drop hd)
  have htwo : 2 ≤ (list.take 2).length ∨ list.drop 2 = [] := by
    rw [List.length_take, List.drop_eq_nil_iff]
    omega
  have hfuel : (list.take 2).length - 0 + 3 * (list.drop 2).length < 3 * list.length + 1 := by
    rw [List.length_take, List.length_drop]
    omega
  obtain ⟨list', collected, hrun, hholds, hcollected⟩ := delRangeLoop_ends hr hneg [] deleted
    hmiddle hback htwo (Nat.zero_le _) hfuel
  rw [List.nil_append, List.take_append_drop] at hrun hholds
  refine ⟨list', collected, ?_, fun x => ?_, fun x => ?_⟩
  · grind [delRange]
  · rw [hholds]
    exact ⟨fun h => ⟨h, not_covers_of_neg hneg x⟩, And.left⟩
  · constructor
    · rintro ⟨c, hc, hcovers⟩
      grind [not_covers_of_neg]
    · exact fun h => absurd h.2 (not_covers_of_neg hneg x)

/-- A range is subtracted exactly if its size is not negative or neither of the first two entries
spans it. Where one does, the loop never ends. -/
theorem delRange_iff (hlist : ∀ d ∈ list, d.Fits) (hr : r.IsInt) :
    (Subtracts list r ↔ 0 ≤ r.size ∨ ∀ d ∈ list.take 2, ¬d.Spans r) ∧
      (¬Subtracts list r → ∀ fuel, delRangeLoop r fuel list 0 [] = none) := by
  by_cases hsize : 0 ≤ r.size
  · have hsubtracts := subtracts_of_nonneg hlist (hr.fits hsize)
    exact ⟨iff_of_true hsubtracts (.inl hsize), fun h => absurd hsubtracts h⟩
  have hneg : r.size < 0 := by omega
  by_cases hfirst : ∀ d ∈ list.take 2, ¬d.Spans r
  · have hsubtracts := subtracts_of_neg hr hneg hlist hfirst
    exact ⟨iff_of_true hsubtracts (.inr hfirst), fun h => absurd hsubtracts h⟩
  · have hendless : ∀ fuel, delRangeLoop r fuel list 0 [] = none := by
      intro fuel
      simp only [not_forall, not_not] at hfirst
      obtain ⟨d, hd, hspans⟩ := hfirst
      exact delRangeLoop_of_spans hr hneg hlist hd hspans fuel
    refine ⟨iff_of_false (fun h => ?_) fun h => h.elim hsize hfirst, fun _ => hendless⟩
    obtain ⟨list', collected, hrun, -⟩ := h []
    rw [delRange, if_neg (by omega), hendless] at hrun
    cases hrun

/-- Two entries that overlap. -/
private def overlapping : List Range := [⟨0, 8⟩, ⟨6, 10⟩]

private theorem overlapping_fits : ∀ d ∈ overlapping, d.Fits := by
  intro d hd
  rcases List.mem_cons.mp hd with rfl | hd
  · exact ⟨by decide, by decide, by decide, by decide⟩
  · obtain rfl := List.mem_singleton.mp hd
    exact ⟨by decide, by decide, by decide, by decide⟩

/-- Bytes 4 to 11 are taken out of both. -/
theorem delRange_iff_overlapping : Subtracts overlapping ⟨4, 8⟩ :=
  (delRange_iff overlapping_fits
    ⟨by decide, by decide, by decide, by decide, by decide, by decide⟩).1.mpr (.inl (by decide))

/-- A range of -5 bytes is never done with the entry around it. -/
theorem negative_endless :
    ¬∀ (list : List Range) (r : Range), (∀ d ∈ list, d.Fits) → r.IsInt → Subtracts list r := by
  intro h
  have hlist : ∀ d ∈ [(⟨0, 20⟩ : Range)], d.Fits := by
    intro d hd
    obtain rfl := List.mem_singleton.mp hd
    exact ⟨by decide, by decide, by decide, by decide⟩
  obtain ⟨list', collected, hrun, -⟩ := h [⟨0, 20⟩] ⟨10, -5⟩ hlist
    ⟨by decide, by decide, by decide, by decide, by decide, by decide⟩ []
  have hnone : delRange [⟨0, 20⟩] ⟨10, -5⟩ [] = none := by decide +kernel
  rw [hnone] at hrun
  cases hrun

/-! ## `merge` -/

/-- The list stands for the same integers as before, no two of its ranges can be united, and the
last turn has changed nothing. -/
structure Merges (list : List Range) : Prop where
  ends : mergeOnce (merge list) = none
  holds : ∀ x, Holds (merge list) x ↔ Holds list x
  apart : (merge list).Pairwise Apart

/-- Exactly the lists that need no merging are merged. -/
theorem merge_iff (list : List Range) : Merges list ↔ list.Pairwise Apart := by
  constructor
  · intro h
    have hapart := h.apart
    rwa [merge_eq] at hapart
  · intro h
    refine ⟨mergeOnce_eq_none _, fun x => ?_, ?_⟩
    · rw [merge_eq]
    · rwa [merge_eq]

/-- Two halves stay two ranges. -/
theorem halves_not_merged : ¬∀ list : List Range, (∀ d ∈ list, 0 < d.size) → Merges list := by
  intro h
  have hapart := (h [⟨0, 4⟩, ⟨4, 4⟩] (by decide)).apart
  rw [merge_eq] at hapart
  exact absurd hapart (by decide)

end RangeList

end AndroidRenderer.Translator
