import Mathlib.Data.List.Basic

/-!
# Keyed vectors

A keyed vector holds at most one value for each key. Adding a value for a key replaces the
one it has. The number of values with a property is followed through every change.
-/

structure KeyedVector (κ α : Type) where
  entries : List (κ × α)
  nodup : (entries.map Prod.fst).Nodup

namespace KeyedVector

variable {κ α : Type} [DecidableEq κ]

def empty : KeyedVector κ α := ⟨[], List.nodup_nil⟩

/-- The value for a key. -/
def get? (v : KeyedVector κ α) (k : κ) : Option α :=
  (v.entries.find? fun e => e.1 = k).map Prod.snd

def remove (v : KeyedVector κ α) (k : κ) : KeyedVector κ α where
  entries := v.entries.filter fun e => e.1 ≠ k
  nodup := v.nodup.sublist (List.filter_sublist.map Prod.fst)

def add (v : KeyedVector κ α) (k : κ) (a : α) : KeyedVector κ α where
  entries := (k, a) :: (v.remove k).entries
  nodup := by
    rw [List.map_cons, List.nodup_cons]
    refine ⟨fun h => ?_, (v.remove k).nodup⟩
    obtain ⟨e, he, heq⟩ := List.mem_map.mp h
    have hne := (List.mem_filter.mp he).2
    rw [decide_eq_true_eq] at hne
    exact hne heq

@[simp] theorem get?_empty (k : κ) : (empty : KeyedVector κ α).get? k = none := rfl

@[grind =] theorem get?_remove (v : KeyedVector κ α) (k k' : κ) :
    (v.remove k).get? k' = if k' = k then none else v.get? k' := by
  simp only [get?, remove, List.find?_filter]
  grind

@[grind =] theorem get?_add (v : KeyedVector κ α) (k : κ) (a : α) (k' : κ) :
    (v.add k a).get? k' = if k' = k then some a else v.get? k' := by
  by_cases h : k' = k
  · simp [get?, add, List.find?_cons_of_pos, h]
  · rw [if_neg h, get?, add, List.find?_cons_of_neg (by simpa using Ne.symm h)]
    have hremove := v.get?_remove k k'
    rwa [if_neg h] at hremove

theorem get?_eq_some_iff {v : KeyedVector κ α} {k : κ} {a : α} :
    v.get? k = some a ↔ (k, a) ∈ v.entries := by
  obtain ⟨entries, hnodup⟩ := v
  simp only [get?]
  induction entries with
  | nil => simp
  | cons e entries ih => grind

/-- The number of keys whose value has a property. -/
def count (v : KeyedVector κ α) (p : α → Bool) : Nat := v.entries.countP fun e => p e.2

/-- What the value of one key counts for. -/
def countAt (v : KeyedVector κ α) (p : α → Bool) (k : κ) : Nat :=
  match v.get? k with
  | some a => if p a then 1 else 0
  | none => 0

theorem count_remove (v : KeyedVector κ α) (p : α → Bool) (k : κ) :
    (v.remove k).count p + v.countAt p k = v.count p := by
  obtain ⟨entries, hnodup⟩ := v
  simp only [countAt, get?, count, remove]
  induction entries with
  | nil => rfl
  | cons e entries ih =>
      rw [List.map_cons, List.nodup_cons] at hnodup
      by_cases he : e.1 = k
      · have hrest : entries.filter (fun e => decide (e.1 ≠ k)) = entries := by
          refine List.filter_eq_self.mpr fun e' he' => ?_
          rw [decide_eq_true_eq]
          rintro rfl
          exact hnodup.1 (List.mem_map.mpr ⟨e', he', he.symm⟩)
        grind
      · grind

theorem count_add (v : KeyedVector κ α) (p : α → Bool) (k : κ) (a : α) :
    (v.add k a).count p = (v.remove k).count p + if p a then 1 else 0 := by
  simp [count, add, List.countP_cons]

theorem count_pos_iff {v : KeyedVector κ α} {p : α → Bool} :
    0 < v.count p ↔ ∃ k a, v.get? k = some a ∧ p a := by
  rw [count, List.countP_pos_iff]
  constructor
  · rintro ⟨⟨k, a⟩, hmem, hp⟩
    exact ⟨k, a, get?_eq_some_iff.mpr hmem, hp⟩
  · rintro ⟨k, a, hget, hp⟩
    exact ⟨(k, a), get?_eq_some_iff.mp hget, hp⟩

end KeyedVector
