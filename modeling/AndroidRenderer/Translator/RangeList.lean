import AndroidRenderer.OpenglCodecCommon.GL

/-!
# Lists of byte ranges

`RangeManip` of the translator. A buffer keeps the ranges of its bytes that still need a
conversion in such a list, which may hold a byte more than once. Taking a range out of the
list splits the entries it meets and collects the parts taken out.
-/

namespace AndroidRenderer.Translator

structure Range where
  start : Int
  size : Int
  deriving DecidableEq, Repr

namespace Range

/-- `m_end` -/
def getEnd (r : Range) : Int := GLint (r.start + r.size)

def rangeIntersection (a r : Range) : Option Range :=
  if a.start > r.getEnd ∨ r.start > a.getEnd then none
  else
    let maxStart := if a.start > r.start then a.start else r.start
    let minEnd := if a.getEnd < r.getEnd then a.getEnd else r.getEnd
    let size := GLint (minEnd - maxStart)
    if size ≠ 0 then some ⟨maxStart, size⟩ else none

/-- `rangeUnion`, with `rOut` and what it is set to. -/
def rangeUnion (a r rOut : Range) : Bool × Range :=
  if a.start > r.getEnd ∨ r.start > a.getEnd then (false, rOut)
  else
    let minStart := if a.start < r.start then a.start else r.start
    let maxEnd := if a.getEnd > r.getEnd then a.getEnd else r.getEnd
    let size := GLint (maxEnd - minStart)
    if size ≠ 0 then (false, ⟨minStart, size⟩) else (false, rOut)

/-- What `delRange` puts to the front of the list for an entry `old` that it takes `inter`
out of. -/
def remainders (old inter : Range) : List Range :=
  if inter = old then []
  else
    (if old.getEnd ≠ inter.getEnd then
      [⟨inter.getEnd, GLint (old.getEnd - inter.getEnd)⟩] else []) ++
    if old.start ≠ inter.start then [⟨old.start, GLint (inter.start - old.start)⟩] else []

end Range

namespace RangeList

/-- The loop of `delRange` at index `i`. Entries that are split off go to the front, and the
index stays. -/
def delRangeLoop (r : Range) : Nat → List Range → Nat → List Range →
    Option (List Range × List Range)
  | 0, _, _, _ => none
  | fuel + 1, list, i, deleted =>
      match list[i]? with
      | none => some (list, deleted)
      | some old =>
          match r.rangeIntersection old with
          | none => delRangeLoop r fuel list (i + 1) deleted
          | some inter =>
              delRangeLoop r fuel (old.remainders inter ++ list.eraseIdx i) i
                (deleted ++ [inter])

/-- `delRange`, with the list and the collected ranges it leaves. Each entry is split at most
once, which bounds the turns of the loop. -/
def delRange (list : List Range) (r : Range) (deleted : List Range) :
    Option (List Range × List Range) :=
  if r.size = 0 then some (list, deleted)
  else delRangeLoop r (3 * list.length + 1) list 0 deleted

def delRanges : List Range → List Range → List Range → Option (List Range × List Range)
  | list, [], deleted => some (list, deleted)
  | list, r :: rl, deleted =>
      (delRange list r deleted).bind fun (list, deleted) => delRanges list rl deleted

/-- The first two entries that have a union, replaced by it. -/
def mergeOnce (list : List Range) : Option (List Range) :=
  (List.range (list.length - 1)).findSome? fun i =>
    (List.range list.length).findSome? fun j =>
      match list[i]?, list[j]? with
      | some a, some b =>
          let union := a.rangeUnion b ⟨0, 0⟩
          if i < j ∧ union.1 then some ((list.set i union.2).eraseIdx j) else none
      | _, _ => none

/-- The `do` loop of `merge`; each turn that changes the list makes it shorter. -/
def mergeLoop : Nat → List Range → List Range
  | 0, list => list
  | fuel + 1, list =>
      match mergeOnce list with
      | none => list
      | some list => mergeLoop fuel list

def merge (list : List Range) : List Range := mergeLoop list.length list

end RangeList

/-! ## Bytes of ranges -/

namespace Range

def Covers (r : Range) (x : Int) : Prop := r.start ≤ x ∧ x < r.start + r.size

instance (r : Range) (x : Int) : Decidable (r.Covers x) :=
  inferInstanceAs (Decidable (_ ∧ _))

/-- No byte is in both ranges. -/
def Disjoint (r d : Range) : Prop :=
  r.size ≤ 0 ∨ d.size ≤ 0 ∨ r.start + r.size ≤ d.start ∨ d.start + d.size ≤ r.start

instance (r d : Range) : Decidable (r.Disjoint d) :=
  inferInstanceAs (Decidable (_ ∨ _))

def Within (r d : Range) : Prop := d.start ≤ r.start ∧ r.start + r.size ≤ d.start + d.size

instance (r d : Range) : Decidable (r.Within d) :=
  inferInstanceAs (Decidable (_ ∧ _))

/-- The bounds of the range are `int`s. -/
structure Fits (r : Range) : Prop where
  start_ge : -2 ^ 31 ≤ r.start
  size_nonneg : 0 ≤ r.size
  size_lt : r.size < 2 ^ 31
  end_lt : r.start + r.size < 2 ^ 31

variable {a r d old inter : Range}

theorem Fits.getEnd_eq (h : r.Fits) : r.getEnd = r.start + r.size :=
  GLint_of_range (by have := h.start_ge; have := h.size_nonneg; omega) h.end_lt

theorem Disjoint.not_covers (h : r.Disjoint d) {x : Int} (hr : r.Covers x) : ¬d.Covers x := by
  unfold Disjoint Covers at *
  omega

theorem rangeIntersection_eq (ha : a.Fits) (hr : r.Fits) :
    a.rangeIntersection r =
      if max a.start r.start < min (a.start + a.size) (r.start + r.size) then
        some ⟨max a.start r.start,
          min (a.start + a.size) (r.start + r.size) - max a.start r.start⟩
      else none := by
  have hstart : (if a.start > r.start then a.start else r.start) = max a.start r.start := by
    split <;> omega
  have hend : (if a.start + a.size < r.start + r.size then a.start + a.size
      else r.start + r.size) = min (a.start + a.size) (r.start + r.size) := by
    split <;> omega
  simp only [rangeIntersection, ha.getEnd_eq, hr.getEnd_eq, hstart, hend]
  obtain ⟨ha₁, ha₂, ha₃, ha₄⟩ := ha
  obtain ⟨hr₁, hr₂, hr₃, hr₄⟩ := hr
  grind [GLint_of_range]

/-- What the test compares, also for a range whose end has wrapped. -/
theorem rangeIntersection_eq_none_iff (hlo : -2 ^ 31 ≤ a.start) (hhi : a.start < 2 ^ 31)
    (hr : r.Fits) :
    a.rangeIntersection r = none ↔ a.start > r.start + r.size ∨ r.start > a.getEnd ∨
      min a.getEnd (r.start + r.size) = max a.start r.start := by
  have hbounds : -2 ^ 31 ≤ a.getEnd ∧ a.getEnd < 2 ^ 31 := GLint_bounds _
  have hstart : (if a.start > r.start then a.start else r.start) = max a.start r.start := by
    split <;> omega
  have hend : (if a.getEnd < r.start + r.size then a.getEnd else r.start + r.size) =
      min a.getEnd (r.start + r.size) := by
    split <;> omega
  simp only [rangeIntersection, hr.getEnd_eq, hstart, hend]
  obtain ⟨hr₁, hr₂, hr₃, hr₄⟩ := hr
  split
  · simp only [true_iff]
    omega
  · split
    · rename_i hne
      rw [ne_eq, GLint_eq_zero (by omega) (by omega)] at hne
      simp only [reduceCtorEq, false_iff]
      omega
    · rename_i hzero
      rw [ne_eq, not_not, GLint_eq_zero (by omega) (by omega)] at hzero
      simp only [true_iff]
      omega

/-- A range that does not meet an entry meets no part of it. -/
theorem rangeIntersection_of_within (hlo : -2 ^ 31 ≤ a.start) (hhi : a.start < 2 ^ 31)
    (hr : r.Fits) (hd : d.Fits) (hwithin : d.Within r) (h : a.rangeIntersection r = none) :
    a.rangeIntersection d = none := by
  rw [rangeIntersection_eq_none_iff hlo hhi hr] at h
  rw [rangeIntersection_eq_none_iff hlo hhi hd]
  have hr₂ := hr.size_nonneg
  have hd₂ := hd.size_nonneg
  unfold Within at hwithin
  omega

theorem rangeIntersection_eq_none (ha : a.Fits) (hr : r.Fits) :
    a.rangeIntersection r = none ↔ a.Disjoint r := by
  rw [rangeIntersection_eq ha hr]
  obtain ⟨-, ha₂, -, -⟩ := ha
  grind [Disjoint]

/-- The part that two ranges have in common. -/
theorem of_rangeIntersection (ha : a.Fits) (hr : r.Fits)
    (h : a.rangeIntersection r = some inter) :
    inter.start = max a.start r.start ∧
      inter.start + inter.size = min (a.start + a.size) (r.start + r.size) ∧
      0 < inter.size := by
  rw [rangeIntersection_eq ha hr] at h
  grind

theorem Fits.of_rangeIntersection (ha : a.Fits) (hr : r.Fits)
    (h : a.rangeIntersection r = some inter) : inter.Fits := by
  obtain ⟨hstart, hend, hpos⟩ := Range.of_rangeIntersection ha hr h
  obtain ⟨ha₁, ha₂, ha₃, ha₄⟩ := ha
  obtain ⟨hr₁, hr₂, hr₃, hr₄⟩ := hr
  constructor <;> omega

/-- An entry has a remainder on each side of the range that it reaches over. -/
theorem remainders_eq (hr : r.Fits) (hold : old.Fits)
    (h : r.rangeIntersection old = some inter) :
    old.remainders inter =
      (if r.start + r.size < old.start + old.size then
        [⟨r.start + r.size, old.start + old.size - (r.start + r.size)⟩] else []) ++
      if old.start < r.start then [⟨old.start, r.start - old.start⟩] else [] := by
  have hfits := hr.of_rangeIntersection hold h
  obtain ⟨hstart, hend, hpos⟩ := of_rangeIntersection hr hold h
  rw [remainders, hold.getEnd_eq, hfits.getEnd_eq]
  obtain ⟨h₁, h₂, h₃, h₄⟩ := hold
  obtain ⟨hr₁, hr₂, hr₃, hr₄⟩ := hr
  grind [GLint_of_range]

/-- A remainder is what the entry has on one side of the range. -/
theorem of_mem_remainders (hr : r.Fits) (hold : old.Fits)
    (h : r.rangeIntersection old = some inter) {q : Range} (hq : q ∈ old.remainders inter) :
    0 < q.size ∧
      (q.start = old.start ∧ q.start + q.size = r.start ∨
        q.start = r.start + r.size ∧ q.start + q.size = old.start + old.size) := by
  rw [remainders_eq hr hold h, List.mem_append] at hq
  grind

theorem Fits.of_mem_remainders (hr : r.Fits) (hold : old.Fits)
    (h : r.rangeIntersection old = some inter) {q : Range} (hq : q ∈ old.remainders inter) :
    q.Fits ∧ r.Disjoint q ∧ q.Within old := by
  obtain ⟨hstart, hend, hpos⟩ := Range.of_rangeIntersection hr hold h
  obtain ⟨hsize, hsides⟩ := Range.of_mem_remainders hr hold h hq
  obtain ⟨h₁, h₂, h₃, h₄⟩ := hold
  obtain ⟨hr₁, hr₂, hr₃, hr₄⟩ := hr
  unfold Disjoint Within
  refine ⟨⟨?_, ?_, ?_, ?_⟩, ?_⟩ <;> omega

end Range

namespace RangeList

open Range

/-- How many entries of the list hold a byte. -/
def hits (list : List Range) (x : Int) : Nat := list.countP fun r => decide (r.Covers x)

variable {r d old inter : Range} {list deleted : List Range} {x : Int}

@[simp, grind =] theorem hits_append (a b : List Range) (x : Int) :
    hits (a ++ b) x = hits a x + hits b x :=
  List.countP_append

@[grind =] theorem hits_cons (r : Range) (list : List Range) (x : Int) :
    hits (r :: list) x = hits list x + if r.Covers x then 1 else 0 := by
  rw [hits, List.countP_cons]
  simp only [decide_eq_true_eq]
  rfl

@[simp, grind =] theorem hits_nil (x : Int) : hits [] x = 0 := rfl

theorem hits_eq_zero : hits list x = 0 ↔ ∀ d ∈ list, ¬d.Covers x := by
  rw [hits, List.countP_eq_zero]
  simp only [decide_eq_true_eq]

/-- Splitting an entry divides its bytes. -/
theorem hits_remainders (hr : r.Fits) (hold : old.Fits)
    (h : r.rangeIntersection old = some inter) (x : Int) :
    hits (old.remainders inter) x =
      if old.Covers x ∧ ¬r.Covers x then 1 else 0 := by
  obtain ⟨hstart, hend, hpos⟩ := of_rangeIntersection hr hold h
  rw [remainders_eq hr hold h, hits_append]
  split <;> split <;> simp only [hits_cons, hits_nil, Covers] <;> grind

/-! ## The loop of `delRange` -/

variable {i : Nat} {list' deleted' : List Range}

theorem split_at (h : list[i]? = some old) :
    list = list.take i ++ old :: list.drop (i + 1) ∧
      list.eraseIdx i = list.take i ++ list.drop (i + 1) := by
  obtain ⟨hi, rfl⟩ := List.getElem?_eq_some_iff.mp h
  simp [List.eraseIdx_eq_take_drop_succ, List.take_append_drop]

theorem mem_of_mem_eraseIdx (h : d ∈ list.eraseIdx i) : d ∈ list :=
  (List.eraseIdx_sublist list i).mem h

/-- What holds of all entries, and of the remainders of an entry that it holds of, holds of the
entries that are left. Each collected range is taken out of such an entry. -/
theorem delRangeLoop_forall {P : Range → Prop}
    (hP : ∀ old inter, P old → r.rangeIntersection old = some inter →
      ∀ q ∈ old.remainders inter, P q) {fuel : Nat}
    (h : delRangeLoop r fuel list i deleted = some (list', deleted')) (hlist : ∀ d ∈ list, P d) :
    (∀ d ∈ list', P d) ∧
      ∀ c ∈ deleted', c ∈ deleted ∨ ∃ old, P old ∧ r.rangeIntersection old = some c := by
  induction fuel generalizing list i deleted with
  | zero => cases h
  | succ fuel ih =>
      rw [delRangeLoop] at h
      grind [mem_of_mem_eraseIdx]

/-- Entries before the index do not meet the range; the remainders of a turn do not either. -/
theorem disjoint_take (hr : r.Fits) (hlist : ∀ d ∈ list, d.Fits)
    (hfront : ∀ d ∈ list.take i, r.Disjoint d) (hold : list[i]? = some old)
    (hinter : r.rangeIntersection old = some inter) :
    ∀ d ∈ (old.remainders inter ++ list.eraseIdx i).take i, r.Disjoint d := by
  have hi := (List.getElem?_eq_some_iff.mp hold).1
  rw [(split_at hold).2, ← List.append_assoc, List.take_append_of_le_length (by
    rw [List.length_append, List.length_take]
    omega)]
  intro d hd
  rcases List.mem_append.mp (List.mem_of_mem_take hd) with hd | hd
  · have hfits := hlist old (List.mem_of_getElem? hold)
    exact (hr.of_mem_remainders hfits hinter hd).2.1
  · exact hfront d hd

theorem fits_turn (hr : r.Fits) (hlist : ∀ d ∈ list, d.Fits)
    (hold : list[i]? = some old) (hinter : r.rangeIntersection old = some inter) :
    ∀ d ∈ old.remainders inter ++ list.eraseIdx i, d.Fits := by
  intro d hd
  rcases List.mem_append.mp hd with hd | hd
  · exact (hr.of_mem_remainders (hlist old (List.mem_of_getElem? hold)) hinter hd).1
  · exact hlist d (mem_of_mem_eraseIdx hd)

theorem disjoint_take_succ (hfront : ∀ d ∈ list.take i, r.Disjoint d)
    (hold : list[i]? = some old) (hdisjoint : r.Disjoint old) :
    ∀ d ∈ list.take (i + 1), r.Disjoint d := by
  rw [List.take_add_one, hold]
  grind

theorem delRangeLoop_hits (hr : r.Fits) {fuel : Nat}
    (h : delRangeLoop r fuel list i deleted = some (list', deleted'))
    (hlist : ∀ d ∈ list, d.Fits) (hfront : ∀ d ∈ list.take i, r.Disjoint d) (x : Int) :
    hits list' x = (if r.Covers x then 0 else hits list x) ∧
      hits deleted' x = hits deleted x + if r.Covers x then hits list x else 0 := by
  induction fuel generalizing list i deleted with
  | zero => cases h
  | succ fuel ih =>
      rw [delRangeLoop] at h
      split at h
      · rename_i hend
        obtain ⟨rfl, rfl⟩ := Prod.mk.inj (Option.some.inj h)
        rw [List.take_of_length_le (List.getElem?_eq_none_iff.mp hend)] at hfront
        split
        · rename_i hx
          have hzero : hits list x = 0 :=
            hits_eq_zero.mpr fun d hd => (hfront d hd).not_covers hx
          exact ⟨hzero, by rw [hzero, Nat.add_zero]⟩
        · exact ⟨rfl, rfl⟩
      · rename_i old hold
        have hfits := hlist old (List.mem_of_getElem? hold)
        split at h
        · grind [rangeIntersection_eq_none, disjoint_take_succ]
        · rename_i inter hinter
          obtain ⟨hlist', hdeleted'⟩ := ih h (fits_turn hr hlist hold hinter)
            (disjoint_take hr hlist hfront hold hinter)
          have hcovers : inter.Covers x ↔ r.Covers x ∧ old.Covers x := by
            obtain ⟨hstart, hend, -⟩ := of_rangeIntersection hr hfits hinter
            unfold Covers
            omega
          obtain ⟨hsplit, herase⟩ := split_at hold
          grind [hits_remainders]

/-- The turns are bounded by the entries behind the index and twice the entries to split. -/
theorem delRangeLoop_terminates (hr : r.Fits) {fuel : Nat} (hlist : ∀ d ∈ list, d.Fits)
    (hfuel : list.length - i + 2 * list.countP (fun d => decide (¬r.Disjoint d)) < fuel) :
    ∃ list' deleted', delRangeLoop r fuel list i deleted = some (list', deleted') := by
  induction fuel generalizing list i deleted with
  | zero => omega
  | succ fuel ih =>
      rw [delRangeLoop]
      split
      · exact ⟨_, _, rfl⟩
      · rename_i old hold
        have hi := (List.getElem?_eq_some_iff.mp hold).1
        have hfits := hlist old (List.mem_of_getElem? hold)
        split
        · exact ih hlist (by omega)
        · rename_i inter hinter
          refine ih (fits_turn hr hlist hold hinter) ?_
          have hmeets : ¬r.Disjoint old := by grind [rangeIntersection_eq_none]
          have hremainders : (old.remainders inter).countP (fun d => decide (¬r.Disjoint d)) = 0 :=
            List.countP_eq_zero.mpr fun q hq => by
              simpa using (hr.of_mem_remainders hfits hinter hq).2.1
          have htwo : (old.remainders inter).length ≤ 2 := by
            rw [remainders_eq hr hfits hinter, List.length_append]
            split <;> split <;> simp
          obtain ⟨hsplit, herase⟩ := split_at hold
          grind

/-! ## `delRange` and `delRanges` -/

/-- A range without bytes takes nothing out. -/
theorem delRange_empty (h : r.size = 0) : delRange list r deleted = some (list, deleted) :=
  if_pos h

theorem delRange_forall {P : Range → Prop}
    (hP : ∀ old inter, P old → r.rangeIntersection old = some inter →
      ∀ q ∈ old.remainders inter, P q)
    (h : delRange list r deleted = some (list', deleted')) (hlist : ∀ d ∈ list, P d) :
    (∀ d ∈ list', P d) ∧
      ∀ c ∈ deleted', c ∈ deleted ∨ ∃ old, P old ∧ r.rangeIntersection old = some c := by
  unfold delRange at h
  split at h
  · grind
  · exact delRangeLoop_forall hP h hlist

theorem delRange_hits (hr : r.Fits)
    (h : delRange list r deleted = some (list', deleted')) (hlist : ∀ d ∈ list, d.Fits)
    (x : Int) :
    hits list' x = (if r.Covers x then 0 else hits list x) ∧
      hits deleted' x = hits deleted x + if r.Covers x then hits list x else 0 := by
  unfold delRange at h
  split at h
  · rename_i hzero
    obtain ⟨rfl, rfl⟩ := Prod.mk.inj (Option.some.inj h)
    grind [Covers]
  · exact delRangeLoop_hits hr h hlist (by simp) x

theorem delRange_terminates (deleted : List Range) (hr : r.Fits) (hlist : ∀ d ∈ list, d.Fits) :
    ∃ list' deleted', delRange list r deleted = some (list', deleted') := by
  unfold delRange
  split
  · exact ⟨_, _, rfl⟩
  · have hle : list.countP (fun d => decide (¬r.Disjoint d)) ≤ list.length := List.countP_le_length
    exact delRangeLoop_terminates hr hlist (by omega)

theorem delRange_fits (hr : r.Fits)
    (h : delRange list r deleted = some (list', deleted')) (hlist : ∀ d ∈ list, d.Fits) :
    ∀ d ∈ list', d.Fits :=
  (delRange_forall (fun _ _ hold hinter _ hq => (hr.of_mem_remainders hold hinter hq).1) h
    hlist).1

/-- The collected ranges are taken out of entries of the list. -/
theorem delRange_deleted (hr : r.Fits)
    (h : delRange list r deleted = some (list', deleted')) (hlist : ∀ d ∈ list, d.Fits) :
    ∀ c ∈ deleted', c ∈ deleted ∨ ∃ old ∈ list, r.rangeIntersection old = some c := by
  have hkept := delRange_forall (P := fun d => d.Fits ∧ (d ∈ list ∨ r.Disjoint d))
    (fun old inter hold hinter part hpart => ?_) h fun d hd => ⟨hlist d hd, .inl hd⟩
  · grind [rangeIntersection_eq_none]
  · obtain ⟨hfits, hdisjoint, -⟩ := hr.of_mem_remainders hold.1 hinter hpart
    exact ⟨hfits, .inr hdisjoint⟩

/-- `d` is an entry, or a part of one that holds something. -/
def PartOf (list : List Range) (d : Range) : Prop :=
  ∃ entry ∈ list, d.Within entry ∧ (d = entry ∨ 0 < d.size)

theorem partOf_of_mem (h : d ∈ list) : PartOf list d :=
  ⟨d, h, ⟨Int.le_refl _, Int.le_refl _⟩, .inl rfl⟩

theorem PartOf.trans (h : PartOf list' d)
    (hparts : ∀ d ∈ list', PartOf list d) : PartOf list d := by
  obtain ⟨entry', hmem', hwithin', hpart'⟩ := h
  obtain ⟨entry, hmem, hwithin, hpart⟩ := hparts entry' hmem'
  refine ⟨entry, hmem, ?_, ?_⟩
  · unfold Within at *
    omega
  · grind

theorem delRange_partOf (hr : r.Fits)
    (h : delRange list r deleted = some (list', deleted')) (hlist : ∀ d ∈ list, d.Fits) :
    ∀ d ∈ list', PartOf list d := by
  have hkept := delRange_forall (P := fun d => d.Fits ∧ PartOf list d) (fun old inter hold hinter
      part hpart => ?_) h fun d hd => ⟨hlist d hd, partOf_of_mem hd⟩
  · exact fun d hd => (hkept.1 d hd).2
  · obtain ⟨hfits, -, hwithin⟩ := hr.of_mem_remainders hold.1 hinter hpart
    have hsize := (Range.of_mem_remainders hr hold.1 hinter hpart).1
    obtain ⟨entry, hmem, hwithin', -⟩ := hold.2
    refine ⟨hfits, entry, hmem, ?_, .inr hsize⟩
    unfold Within at *
    omega

/-- A range that meets no entry takes nothing out. -/
theorem delRangeLoop_of_none (hnone : ∀ d ∈ list, r.rangeIntersection d = none) {fuel : Nat}
    (hfuel : list.length - i < fuel) :
    delRangeLoop r fuel list i deleted = some (list, deleted) := by
  induction fuel generalizing i with
  | zero => omega
  | succ fuel ih => grind [delRangeLoop]

theorem delRanges_of_none {rl : List Range}
    (hnone : ∀ r ∈ rl, ∀ d ∈ list, r.rangeIntersection d = none) :
    delRanges list rl deleted = some (list, deleted) := by
  induction rl with
  | nil => rfl
  | cons r rl ih => grind [delRange, delRanges, delRangeLoop_of_none]

/-! ## `merge` -/

theorem rangeUnion_fst (a r rOut : Range) : (a.rangeUnion r rOut).1 = false := by
  simp only [rangeUnion, apply_ite Prod.fst, ite_self]

theorem mergeOnce_eq_none (list : List Range) : mergeOnce list = none := by
  unfold mergeOnce
  refine List.findSome?_eq_none_iff.mpr fun i _ => List.findSome?_eq_none_iff.mpr fun j _ => ?_
  split
  · simp only [rangeUnion_fst, Bool.false_eq_true, and_false, if_false]
  · rfl

/-- So nothing is ever merged. -/
theorem merge_eq (list : List Range) : merge list = list := by
  unfold merge
  cases list.length with
  | zero => rfl
  | succ n => rw [mergeLoop, mergeOnce_eq_none]

end RangeList

end AndroidRenderer.Translator
