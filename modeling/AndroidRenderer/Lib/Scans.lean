import Mathlib.Data.List.Nodup
import Mathlib.Data.List.Perm.Basic
import Mathlib.Data.List.TakeWhile

/-!
# Scans over lists

A list is scanned for the next separator, for the elements of another list, or for the best of
several candidates.
-/

/-! ## Pieces between separators -/

namespace Separators

variable {α : Type} [DecidableEq α] {sep : α} {xs rest : List α}

theorem piece_induction (sep : α) {motive : List α → Prop} (last : ∀ xs, sep ∉ xs → motive xs)
    (more : ∀ xs rest, sep ∉ xs → motive rest → motive (xs ++ sep :: rest)) (l : List α) :
    motive l := by
  by_cases hmem : sep ∈ l
  · obtain ⟨xs, rest, rfl, hxs⟩ := List.eq_append_cons_of_mem hmem
    exact more xs rest hxs (piece_induction sep last more rest)
  · exact last l hmem
termination_by l.length
decreasing_by
  subst_vars
  grind

theorem ne_sep (h : sep ∉ xs) : ∀ x ∈ xs, decide (x ≠ sep) = true :=
  fun _ hx => decide_eq_true fun heq => h (heq ▸ hx)

theorem takeWhile_of_notMem (h : sep ∉ xs) : xs.takeWhile (· ≠ sep) = xs :=
  List.takeWhile_eq_self_iff.mpr (ne_sep h)

theorem dropWhile_of_notMem (h : sep ∉ xs) : xs.dropWhile (· ≠ sep) = [] :=
  List.dropWhile_eq_nil_iff.mpr (ne_sep h)

theorem takeWhile_append_cons (h : sep ∉ xs) :
    (xs ++ sep :: rest).takeWhile (· ≠ sep) = xs := by
  rw [List.takeWhile_append_of_pos (ne_sep h), List.takeWhile_cons_of_neg (by simp),
    List.append_nil]

theorem dropWhile_append_cons (h : sep ∉ xs) :
    (xs ++ sep :: rest).dropWhile (· ≠ sep) = sep :: rest := by
  rw [List.dropWhile_append_of_pos (ne_sep h), List.dropWhile_cons_of_neg (by simp)]

end Separators

/-! ## Elements of one list in another -/

namespace Positions

variable {α : Type} [DecidableEq α] (ys xs : List α)

/-- Where the elements of `xs` stand in `ys`. -/
def positions : List Nat := xs.filterMap fun x => ys.idxOf? x

variable {ys xs}

theorem getElem?_of_idxOf? {x : α} {i : Nat} (h : ys.idxOf? x = some i) : ys[i]? = some x := by
  obtain ⟨hi, heq, -⟩ := List.findIdx?_eq_some_iff_getElem.mp h
  rw [List.getElem?_eq_getElem hi, beq_iff_eq.mp heq]

theorem mem_positions {i : Nat} (h : i ∈ positions ys xs) : ∃ x ∈ xs, ys[i]? = some x := by
  obtain ⟨x, hx, hi⟩ := List.mem_filterMap.mp h
  exact ⟨x, hx, getElem?_of_idxOf? hi⟩

/-- Different elements stand at different places. -/
theorem positions_nodup (hx : xs.Nodup) : (positions ys xs).Nodup := by
  apply List.Nodup.filterMap _ hx
  intro a b i ha hb
  have heq := (getElem?_of_idxOf? ha).symm.trans (getElem?_of_idxOf? hb)
  exact Option.some.inj heq

/-- There are as many places as elements that both lists have. -/
theorem positions_length (hx : xs.Nodup) (hy : ys.Nodup) :
    (positions ys xs).length = (ys.filter (· ∈ xs)).length := by
  have hfound : (positions ys xs).length = (xs.filter (· ∈ ys)).length := by
    rw [positions, List.length_filterMap_eq_countP, ← List.countP_eq_length_filter]
    grind
  have hperm : (xs.filter (· ∈ ys)).Perm (ys.filter (· ∈ xs)) := by
    apply (List.perm_ext_iff_of_nodup (hx.filter _) (hy.filter _)).mpr
    grind
  exact hfound.trans hperm.length_eq

end Positions

/-! ## The best of several candidates -/

namespace Candidates

variable {α : Type} (key : α → Nat)

/-- `a`, or `b` if that is better. -/
def better (a b : α) : α := if key b < key a then b else a

theorem better_cases (a b : α) : better key a b = a ∨ better key a b = b := by
  rw [better]
  grind

theorem key_better_le (a b : α) :
    key (better key a b) ≤ key a ∧ key (better key a b) ≤ key b := by
  rw [better]
  split <;> omega

/-- The loop keeps its first candidate or one that it has seen. -/
theorem foldl_better_mem (xs : List α) (a : α) : xs.foldl (better key) a ∈ a :: xs := by
  induction xs generalizing a with
  | nil => exact List.mem_cons_self
  | cons x xs ih =>
      rw [List.foldl_cons]
      grind [better_cases]

/-- No candidate is better than the one that is kept. -/
theorem foldl_better_le (xs : List α) (a : α) :
    ∀ x ∈ a :: xs, key (xs.foldl (better key) a) ≤ key x := by
  induction xs generalizing a with
  | nil => simp
  | cons y xs ih =>
      intro x hx
      rw [List.foldl_cons]
      have hboth := key_better_le key a y
      have hkept := ih (better key a y) _ List.mem_cons_self
      grind

/-- A candidate that is better than the first one is found. -/
theorem foldl_better_mem_of_lt {xs : List α} {a x : α} (hx : x ∈ xs) (hlt : key x < key a) :
    xs.foldl (better key) a ∈ xs := by
  obtain hkept | hmem := List.mem_cons.mp (foldl_better_mem key xs a)
  · have hle := foldl_better_le key xs a x (List.mem_cons_of_mem _ hx)
    rw [hkept] at hle
    omega
  · exact hmem

/-- A loop that takes its first candidate without a test. -/
theorem foldl_first (f : Nat → α) (n : Nat) (a : α) :
    (List.range (n + 1)).foldl (fun best i => if i = 0 then f i else better key best (f i)) a =
      ((List.range' 1 n).map f).foldl (better key) (f 0) := by
  rw [List.range_eq_range', List.range'_succ, List.foldl_cons, if_pos rfl, List.foldl_map]
  apply List.foldl_ext
  grind

end Candidates
