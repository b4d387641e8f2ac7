import AndroidRenderer.Lib.Registry
import Mathlib.Data.Multiset.AddSub

/-!
# Objects with a count of their further holders

An object is held by entries elsewhere, a multiset of handles. Its count is zero while one entry
holds it and goes up with each further one; it is freed with its last entry.
-/

/-- The objects that are alive are those that are held, and `refs` plus one counts the entries. -/
structure RefCounted {α : Type} (objects : Registry α) (refs : α → Nat) (holders : Multiset Nat) :
    Prop where
  count : ∀ i a, objects.get? i = some a → refs a + 1 = holders.count i
  alive : ∀ i ∈ holders, ∃ a, objects.get? i = some a

namespace RefCounted

variable {α : Type} {objects : Registry α} {refs : α → Nat} {holders : Multiset Nat} {i : Nat}
  {a b : α}

theorem empty (refs : α → Nat) : RefCounted Registry.empty refs 0 :=
  ⟨fun i a h => by simp at h, fun i hi => absurd hi (Multiset.notMem_zero i)⟩

theorem mem (h : RefCounted objects refs holders) (hget : objects.get? i = some a) :
    i ∈ holders := by
  rw [← Multiset.one_le_count_iff_mem, ← h.count i a hget]
  exact Nat.le_add_left 1 (refs a)

/-- What is held is alive, and nothing else is. -/
theorem mem_iff (h : RefCounted objects refs holders) : i ∈ holders ↔ (objects.get? i).isSome := by
  rw [Option.isSome_iff_exists]
  exact ⟨h.alive i, fun ⟨_, hget⟩ => h.mem hget⟩

/-- Another entry for an object. -/
theorem acquire (h : RefCounted objects refs holders) (hget : objects.get? i = some a)
    (hrefs : refs b = refs a + 1) : RefCounted (objects.set i b) refs (i ::ₘ holders) := by
  refine ⟨fun j c hj => ?_, fun j hj => ?_⟩
  · rw [Registry.get?_set, hget] at hj
    by_cases hji : j = i
    · subst hji
      rw [if_pos rfl] at hj
      obtain rfl := Option.some.inj hj
      rw [Multiset.count_cons_self, hrefs, h.count j a hget]
    · grind [Multiset.count_cons_of_ne, h.count]
  · grind [h.alive]

/-- One of several entries goes. -/
theorem release (h : RefCounted objects refs (i ::ₘ holders)) (hget : objects.get? i = some a)
    (hrefs : refs b + 1 = refs a) : RefCounted (objects.set i b) refs holders := by
  have hcount := h.count i a hget
  rw [Multiset.count_cons_self] at hcount
  refine ⟨fun j c hj => ?_, fun j hj => ?_⟩
  · rw [Registry.get?_set, hget] at hj
    by_cases hji : j = i
    · grind
    · rw [if_neg hji] at hj
      rw [h.count j c hj, Multiset.count_cons_of_ne hji]
  · rw [Registry.get?_set, hget]
    by_cases hji : j = i
    · exact ⟨b, if_pos hji⟩
    · rw [if_neg hji]
      exact h.alive j (Multiset.mem_cons_of_mem hj)

/-- The last entry goes, and the object with it. -/
theorem free (h : RefCounted objects refs (i ::ₘ holders)) (hget : objects.get? i = some a)
    (hrefs : refs a = 0) : RefCounted (objects.remove i) refs holders := by
  have hcount := h.count i a hget
  rw [Multiset.count_cons_self] at hcount
  refine ⟨fun j c hj => ?_, fun j hj => ?_⟩
  · rw [Registry.get?_remove] at hj
    split at hj
    · cases hj
    · rename_i hji
      rw [h.count j c hj, Multiset.count_cons_of_ne hji]
  · have hji : j ≠ i := by
      rintro rfl
      have := Multiset.one_le_count_iff_mem.mpr hj
      omega
    rw [Registry.get?_remove, if_neg hji]
    exact h.alive j (Multiset.mem_cons_of_mem hj)

/-- A new object with its first entry. -/
theorem insert (h : RefCounted objects refs holders) (hrefs : refs a = 0) :
    RefCounted (objects.insert a) refs (objects.next ::ₘ holders) := by
  have hfresh : holders.count objects.next = 0 := by simp [h.mem_iff, Registry.get?_next]
  refine ⟨fun j c hj => ?_, fun j hj => ?_⟩
  · rw [Registry.get?_insert] at hj
    by_cases hnext : j = objects.next
    · rw [if_pos hnext] at hj
      obtain rfl := Option.some.inj hj
      rw [hnext, Multiset.count_cons_self, hfresh, hrefs]
    · grind [Multiset.count_cons_of_ne, h.count]
  · rw [Registry.get?_insert]
    by_cases hnext : j = objects.next
    · exact ⟨a, if_pos hnext⟩
    · grind [h.alive]

/-- A change that leaves the count alone. -/
theorem modify (h : RefCounted objects refs holders) (hget : objects.get? i = some a)
    (hrefs : refs b = refs a) : RefCounted (objects.set i b) refs holders := by
  refine ⟨fun j c hj => ?_, fun j hj => ?_⟩
  · rw [Registry.get?_set, hget] at hj
    by_cases hji : j = i
    · subst hji
      rw [if_pos rfl] at hj
      obtain rfl := Option.some.inj hj
      rw [hrefs, h.count j a hget]
    · grind [h.count]
  · grind [h.alive]

end RefCounted
