import Mathlib.Data.List.Sort

/-!
# Sorted arrays with a binary search

The elements of an array are kept in strictly increasing order of a key. An element is
inserted from the back and removed by its position. The search halves a window by what a
comparator says; it finds whatever the comparator calls equal if the comparator goes from
positive to negative along the array, and nothing else in any case.
-/

namespace SortedArray

variable {α κ : Type} [LinearOrder κ] {key : α → κ}

def Strict (key : α → κ) (xs : List α) : Prop := xs.Pairwise fun a b => key a < key b

/-- Elements move one place up from the back until the new one fits. -/
def insertBack (key : α → κ) (a : α) (xs : List α) : List α :=
  (xs.reverse.orderedInsert (fun a b => key b ≤ key a) a).reverse

theorem mem_insertBack {a b : α} {xs : List α} :
    b ∈ insertBack key a xs ↔ b = a ∨ b ∈ xs := by
  rw [insertBack, List.mem_reverse, List.mem_orderedInsert, List.mem_reverse]

theorem pairwise_orderedInsert {a : α} {xs : List α} (h : xs.Pairwise fun a b => key b < key a)
    (hnew : ∀ b ∈ xs, key b ≠ key a) :
    (xs.orderedInsert (fun a b => key b ≤ key a) a).Pairwise fun a b => key b < key a := by
  induction xs with
  | nil => exact List.pairwise_singleton _ _
  | cons b xs ih =>
      obtain ⟨hb, hxs⟩ := List.pairwise_cons.mp h
      rw [List.orderedInsert_cons]
      split
      · grind
      · rename_i hgt
        refine List.pairwise_cons.mpr
          ⟨fun c hc => ?_, ih hxs fun c hc => hnew c (List.mem_cons_of_mem _ hc)⟩
        rcases (List.mem_orderedInsert _).mp hc with rfl | hc
        · exact lt_of_not_ge hgt
        · exact hb c hc

/-- An element with a new key is inserted where it belongs. -/
theorem Strict.insertBack {a : α} {xs : List α} (h : Strict key xs)
    (hnew : ∀ b ∈ xs, key b ≠ key a) : Strict key (insertBack key a xs) := by
  rw [Strict, SortedArray.insertBack, List.pairwise_reverse]
  exact pairwise_orderedInsert (List.pairwise_reverse.mpr h)
    fun b hb => hnew b (List.mem_reverse.mp hb)

theorem Strict.eraseIdx {xs : List α} (h : Strict key xs) (i : Nat) :
    Strict key (xs.eraseIdx i) :=
  h.sublist (List.eraseIdx_sublist _ _)

/-- Keys tell the elements apart. -/
theorem Strict.eq_of_key_eq {xs : List α} (h : Strict key xs) {a b : α} (ha : a ∈ xs)
    (hb : b ∈ xs) (heq : key a = key b) : a = b := by
  induction xs with
  | nil => cases ha
  | cons c xs ih =>
      obtain ⟨hc, hxs⟩ := List.pairwise_cons.mp h
      rcases List.mem_cons.mp ha with rfl | ha'
      · grind
      · rcases List.mem_cons.mp hb with rfl | hb'
        · exact absurd heq (hc a ha').ne'
        · exact ih hxs ha' hb'

/-- The elements that stay when one is removed are those with another key. -/
theorem Strict.mem_eraseIdx {xs : List α} (h : Strict key xs) {i : Nat} {a b : α}
    (hget : xs[i]? = some a) : b ∈ xs.eraseIdx i ↔ b ∈ xs ∧ key b ≠ key a := by
  induction xs generalizing i with
  | nil => cases hget
  | cons c xs ih =>
      obtain ⟨hc, hxs⟩ := List.pairwise_cons.mp h
      cases i with
      | zero => grind
      | succ i =>
          rw [List.getElem?_cons_succ] at hget
          rw [List.eraseIdx_cons_succ, List.mem_cons, List.mem_cons, ih hxs hget]
          grind

/-! ## The search -/

/-- Search a window that begins at position `base`; `compar` tells the sign of what is
looked for minus an element. A window of length `n` needs at most `n` turns. -/
def bsearch (compar : α → Int) : Nat → Nat → List α → Option Nat
  | 0, _, _ => none
  | turns + 1, base, window =>
      match window[window.length / 2]? with
      | none => none
      | some a =>
          if compar a = 0 then some (base + window.length / 2)
          else if 0 < compar a then
            bsearch compar turns (base + window.length / 2 + 1)
              (window.drop (window.length / 2 + 1))
          else bsearch compar turns base (window.take (window.length / 2))

/-- What is found compares equal. -/
theorem bsearch_sound {compar : α → Int} {turns base i : Nat} {window : List α}
    (h : bsearch compar turns base window = some i) :
    ∃ j a, i = base + j ∧ window[j]? = some a ∧ compar a = 0 := by
  induction turns generalizing base window with
  | zero => cases h
  | succ turns ih =>
      rw [bsearch] at h
      grind

/-- An element that compares equal is found if the comparator falls along the array. -/
theorem bsearch_complete {compar : α → Int} {turns base j : Nat} {window : List α} {a : α}
    (hfall : window.Pairwise fun a b => compar a ≤ 0 → compar b < 0)
    (hturns : window.length ≤ turns) (hget : window[j]? = some a) (hzero : compar a = 0) :
    bsearch compar turns base window = some (base + j) := by
  induction turns generalizing base window j with
  | zero => grind
  | succ turns ih =>
      obtain ⟨hj, helem⟩ := List.getElem?_eq_some_iff.mp hget
      have hmid : window.length / 2 < window.length := by omega
      have hmem := List.getElem?_eq_getElem hmid
      have hordered := List.pairwise_iff_getElem.mp hfall
      rw [bsearch, hmem]
      dsimp only
      rcases Nat.lt_trichotomy j (window.length / 2) with hlt | rfl | hgt
      · grind
      · grind
      · have hpos : 0 < compar window[window.length / 2] := by
          by_contra hle
          have := hordered _ j hmid hj hgt (by omega)
          rw [helem, hzero] at this
          exact lt_irrefl 0 this
        have hshift : window.length / 2 + 1 + (j - (window.length / 2 + 1)) = j := by omega
        rw [if_neg (by omega), if_pos hpos]
        rw [ih (j := j - (window.length / 2 + 1)) (hfall.sublist (List.drop_sublist _ _))
          (by rw [List.length_drop]; omega) (by rw [List.getElem?_drop, hshift, hget]),
          Nat.add_assoc base, Nat.add_assoc base, hshift]

end SortedArray
