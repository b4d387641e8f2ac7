import Mathlib.Data.List.Lex
import Mathlib.Data.List.Sort

/-!
# Sorts by a key

`qsort` arranges an array by a key and leaves open in which order elements with equal keys come
out. A stable sort takes a comparison that agrees with the order of a key on the elements of the
list; where the key tells them apart, the order that they come in does not matter.
-/

structure Qsort where
  sort : {α κ : Type} → [LinearOrder κ] → (α → κ) → List α → List α
  perm : ∀ {α κ : Type} [LinearOrder κ] (key : α → κ) (xs : List α), (sort key xs).Perm xs
  sorted : ∀ {α κ : Type} [LinearOrder κ] (key : α → κ) (xs : List α),
    (sort key xs).Pairwise fun a b => key a ≤ key b

namespace Qsort

/-- A sort that takes one element after the other. -/
def byInsertion : Qsort where
  sort key xs := xs.insertionSort fun a b => key a ≤ key b
  perm key xs := List.perm_insertionSort (fun a b => key a ≤ key b) xs
  sorted key xs := by
    have htotal : Std.Total fun a b => key a ≤ key b := ⟨fun a b => le_total (key a) (key b)⟩
    have htrans : IsTrans _ fun a b => key a ≤ key b := ⟨fun _ _ _ => le_trans⟩
    exact List.pairwise_insertionSort (fun a b => key a ≤ key b) xs

theorem mem_sort (q : Qsort) {α κ : Type} [LinearOrder κ] (key : α → κ) {xs : List α} {a : α} :
    a ∈ q.sort key xs ↔ a ∈ xs :=
  (q.perm key xs).mem_iff

end Qsort

/-! ## Stable sorts -/

namespace KeySort

variable {α κ : Type} [LinearOrder κ] (key : α → κ)

/-- `le` compares the elements of the list by their keys. -/
def Compares (le : α → α → Bool) (xs : List α) : Prop :=
  ∀ a ∈ xs, ∀ b ∈ xs, le a b = decide (key a ≤ key b)

variable {key} {le : α → α → Bool} {xs ys : List α}

/-- Only comparisons of elements of the list matter. -/
theorem mergeSort_congr {r s : α → α → Bool} (h : ∀ a ∈ xs, ∀ b ∈ xs, r a b = s a b) :
    xs.mergeSort r = xs.mergeSort s := by
  have hmap : (xs.mergeSort r).map id = (xs.map id).mergeSort s := List.map_mergeSort h
  rwa [List.map_id, List.map_id] at hmap

theorem pairwise_mergeSort (h : Compares key le xs) :
    (xs.mergeSort le).Pairwise fun a b => key a ≤ key b := by
  rw [mergeSort_congr h]
  grind [List.pairwise_mergeSort]

theorem Compares.perm (h : Compares key le xs) (hperm : xs.Perm ys) : Compares key le ys :=
  fun a ha b hb => h a (hperm.mem_iff.mpr ha) b (hperm.mem_iff.mpr hb)

/-- Every order of the same elements gives the same list. -/
theorem mergeSort_eq_of_perm (h : Compares key le xs)
    (hinj : ∀ a ∈ xs, ∀ b ∈ xs, key a = key b → a = b) (hperm : xs.Perm ys) :
    xs.mergeSort le = ys.mergeSort le := by
  apply List.Perm.eq_of_pairwise _ (pairwise_mergeSort h) (pairwise_mergeSort (h.perm hperm))
  · exact (List.mergeSort_perm xs le).trans (hperm.trans (List.mergeSort_perm ys le).symm)
  · intro a b ha hb hab hba
    have hb' := hperm.mem_iff.mpr (List.mem_mergeSort.mp hb)
    exact hinj a (List.mem_mergeSort.mp ha) b hb' (le_antisymm hab hba)

end KeySort
