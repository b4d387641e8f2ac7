import Mathlib.Algebra.GroupWithZero.Nat
import Mathlib.Data.Bool.Basic
import Mathlib.Data.List.Nodup

/-!
# Objects behind handles

A registry holds the objects that are alive, newest first, each behind a handle that no
other object ever gets. A handle without an object is one that was freed: `get?` is
undefined there.
-/

/-- The live objects with their handles; `next` is the handle of the next one. -/
structure Registry (α : Type) where
  next : Nat
  entries : List (Nat × α)
  lt_next : ∀ e ∈ entries, e.1 < next
  nodup : (entries.map Prod.fst).Nodup

namespace Registry

variable {α : Type}

def empty : Registry α := ⟨0, [], by simp, by simp⟩

/-- The object behind a handle. -/
def get? (r : Registry α) (i : Nat) : Option α := r.entries.lookup i

/-- A new object, behind the handle `r.next`. -/
def insert (r : Registry α) (a : α) : Registry α where
  next := r.next + 1
  entries := (r.next, a) :: r.entries
  lt_next := by
    intro e he
    rcases List.mem_cons.mp he with rfl | he
    · exact Nat.lt_succ_self _
    · exact Nat.lt_succ_of_lt (r.lt_next e he)
  nodup := by
    rw [List.map_cons, List.nodup_cons]
    refine ⟨fun h => ?_, r.nodup⟩
    obtain ⟨e, he, heq⟩ := List.mem_map.mp h
    exact absurd heq (Nat.ne_of_lt (r.lt_next e he))

/-- Replace the object behind a handle, if there is one. -/
def set (r : Registry α) (i : Nat) (a : α) : Registry α where
  next := r.next
  entries := r.entries.map fun e => if e.1 = i then (e.1, a) else e
  lt_next := by
    intro e he
    obtain ⟨e', he', rfl⟩ := List.mem_map.mp he
    have := r.lt_next e' he'
    split <;> exact this
  nodup := by
    rw [List.map_map]
    have hfst : Prod.fst ∘ (fun e : Nat × α => if e.1 = i then (e.1, a) else e) = Prod.fst := by
      funext e
      simp only [Function.comp_apply]
      split <;> rfl
    rw [hfst]
    exact r.nodup

/-- Free the object behind a handle. -/
def remove (r : Registry α) (i : Nat) : Registry α where
  next := r.next
  entries := r.entries.filter fun e => e.1 != i
  lt_next := fun e he => r.lt_next e (List.mem_filter.mp he).1
  nodup := r.nodup.sublist (List.filter_sublist.map Prod.fst)

/-- The first object, newest first, that satisfies `p`. -/
def find? (r : Registry α) (p : α → Bool) : Option (Nat × α) := r.entries.find? fun e => p e.2

/-- The live objects, newest first. -/
def values (r : Registry α) : List α := r.entries.map Prod.snd

theorem lookup_cons_eq_ite (i : Nat) (e : Nat × α) (entries : List (Nat × α)) :
    (e :: entries).lookup i = if i = e.1 then some e.2 else entries.lookup i := by
  rw [List.lookup_cons]
  grind

variable {i : Nat} {a : α} {r : Registry α}

theorem mem_iff_lookup {entries : List (Nat × α)} (h : (entries.map Prod.fst).Nodup) : (i, a)
    ∈ entries ↔ entries.lookup i = some a := by
  induction entries with
  | nil => simp
  | cons e entries ih => grind

theorem mem_entries_iff :
    (i, a) ∈ r.entries ↔ r.get? i = some a :=
  mem_iff_lookup r.nodup

theorem lt_next_of_get? (h : r.get? i = some a) :
    i < r.next :=
  r.lt_next (i, a) (mem_entries_iff.mpr h)

@[simp] theorem get?_empty (i : Nat) : (empty : Registry α).get? i = none := rfl

@[simp] theorem get?_next (r : Registry α) : r.get? r.next = none := by
  cases h : r.get? r.next with
  | none => rfl
  | some a => exact absurd (lt_next_of_get? h) (Nat.lt_irrefl _)

@[grind =] theorem get?_insert (r : Registry α) (a : α) (i : Nat) :
    (r.insert a).get? i = if i = r.next then some a else r.get? i :=
  lookup_cons_eq_ite i (r.next, a) r.entries

@[grind =] theorem get?_set (r : Registry α) (i : Nat) (a : α) (j : Nat) :
    (r.set i a).get? j = if j = i then (r.get? i).map fun _ => a else r.get? j := by
  simp only [get?, set]
  induction r.entries with
  | nil => simp
  | cons e entries ih => grind

@[grind =] theorem get?_remove (r : Registry α) (i j : Nat) :
    (r.remove i).get? j = if j = i then none else r.get? j := by
  simp only [get?, remove]
  induction r.entries with
  | nil => simp
  | cons e entries ih => grind

/-- Replacing an object frees none. -/
theorem get?_set_eq_none {j : Nat} :
    (r.set i a).get? j = none ↔ r.get? j = none := by
  rw [get?_set]
  grind [Option.map_eq_none_iff]

/-- Replacing an object that is freed afterwards has no effect. -/
@[simp] theorem remove_set (r : Registry α) (i : Nat) (a : α) :
    (r.set i a).remove i = r.remove i := by
  simp only [remove, set]
  congr 1
  induction r.entries with
  | nil => rfl
  | cons e entries ih => grind

theorem find?_some {p : α → Bool}
    (h : r.find? p = some (i, a)) : r.get? i = some a ∧ p a := by
  rw [find?] at h
  exact ⟨mem_entries_iff.mp (List.mem_of_find?_eq_some h), by simpa using List.find?_some h⟩

theorem find?_none {p : α → Bool} (h : r.find? p = none)
    (hget : r.get? i = some a) : ¬p a := by
  have := List.find?_eq_none.mp h (i, a) (mem_entries_iff.mpr hget)
  simpa using this

theorem mem_values_iff : a ∈ r.values ↔ ∃ i, r.get? i = some a := by
  simp only [values, List.mem_map, Prod.exists, exists_eq_right, mem_entries_iff]

/-! ## Sums over the live objects -/

/-- The sum of what `f` counts in the live objects. -/
def sum (r : Registry α) (f : α → Nat) : Nat := (r.entries.map fun e => f e.2).sum

theorem entries_split (h : r.get? i = some a) :
    ∃ front back, r.entries = front ++ (i, a) :: back ∧ (∀ e ∈ front, e.1 ≠ i) ∧
      ∀ e ∈ back, e.1 ≠ i := by
  obtain ⟨front, back, hsplit⟩ := List.append_of_mem (mem_entries_iff.mpr h)
  have hnodup := r.nodup
  grind

theorem sum_insert (r : Registry α) (a : α) (f : α → Nat) : (r.insert a).sum f = f a + r.sum f :=
  rfl

theorem sum_set (h : r.get? i = some a) (b : α) (f : α → Nat) :
    (r.set i b).sum f + f a = r.sum f + f b := by
  obtain ⟨front, back, hsplit, hfront, hback⟩ := entries_split h
  have hsame : ∀ es : List (Nat × α), (∀ e ∈ es, e.1 ≠ i) →
      (es.map fun e => if e.1 = i then (e.1, b) else e) = es := fun es hes =>
    (List.map_congr_left fun e he => if_neg (hes e he)).trans (List.map_id _)
  have hset : (r.set i b).entries = front ++ (i, b) :: back := by
    change r.entries.map _ = _
    rw [hsplit, List.map_append, List.map_cons, hsame front hfront, hsame back hback]
    exact congrArg (front ++ · :: back) (if_pos rfl)
  simp only [sum, hset, hsplit, List.map_append, List.map_cons, List.sum_append, List.sum_cons]
  omega

theorem sum_remove (h : r.get? i = some a) (f : α → Nat) :
    (r.remove i).sum f + f a = r.sum f := by
  obtain ⟨front, back, hsplit, hfront, hback⟩ := entries_split h
  have hsame : ∀ es : List (Nat × α), (∀ e ∈ es, e.1 ≠ i) →
      (es.filter fun e => e.1 != i) = es := fun es hes =>
    List.filter_eq_self.mpr fun e he => bne_iff_ne.mpr (hes e he)
  have hremove : (r.remove i).entries = front ++ back := by
    change r.entries.filter _ = _
    grind
  simp only [sum, hremove, hsplit, List.map_append, List.map_cons, List.sum_append, List.sum_cons]
  omega

/-- What is counted in two objects is part of the sum. -/
theorem add_le_sum {j : Nat} {b : α} (hi : r.get? i = some a)
    (hj : r.get? j = some b) (hne : j ≠ i) (f : α → Nat) : f a + f b ≤ r.sum f := by
  have hleft : (r.remove i).get? j = some b := by rw [get?_remove, if_neg hne, hj]
  have hsum := sum_remove hi f
  have hrest := sum_remove hleft f
  omega

theorem exists_of_sum_pos {f : α → Nat} (h : 0 < r.sum f) :
    ∃ i a, r.get? i = some a ∧ 0 < f a := by
  obtain ⟨n, hn, hpos⟩ := List.sum_pos_iff_exists_pos_nat.mp h
  grind [mem_entries_iff]

end Registry
