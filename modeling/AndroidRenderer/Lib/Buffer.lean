import Mathlib.Data.List.Basic

/-!
# Bounds-checked stores into byte arrays

`store? buf off xs` overwrites the elements at `off, off + 1, …` and is
undefined when the store would leave the array: there is no such thing as a
store past the end whose effect a proof could use. `Buffer n` packages an array
with its fixed capacity.

Programs fill an array front to back, so the main rule is `store?_append`: a
store right behind a prefix extends that prefix.
-/

namespace Buffer

variable {α : Type}

/-- Overwrite `xs.length` elements from `off`; `none` is an out-of-bounds store. -/
def store? (buf : List α) (off : Nat) (xs : List α) : Option (List α) :=
  if off + xs.length ≤ buf.length then
    some (buf.take off ++ xs ++ buf.drop (off + xs.length))
  else none

variable {buf xs buf' : List α} {off : Nat} {writes : List (Nat × List α)}

theorem store?_isSome_iff :
    (store? buf off xs).isSome ↔ off + xs.length ≤ buf.length := by
  unfold store?
  split <;> simp_all

theorem store?_length (h : store? buf off xs = some buf') : buf'.length = buf.length := by
  unfold store? at h
  split at h
  · obtain rfl := Option.some.inj h
    simp only [List.length_append, List.length_take, List.length_drop]
    omega
  · cases h

theorem store?_eq_none_iff :
    store? buf off xs = none ↔ buf.length < off + xs.length := by
  unfold store?
  split <;> simp_all

/-- Stores that fill an array replace it. -/
theorem store?_whole (h : xs.length = buf.length) :
    store? buf 0 xs = some xs := by
  rw [store?, if_pos (by omega), List.take_zero, List.nil_append, Nat.zero_add,
    List.drop_eq_nil_of_le (by omega), List.append_nil]

/-- A store directly behind the prefix `front` extends it by the stored elements. -/
theorem store?_append (front old xs : List α) :
    store? (front ++ old) front.length xs =
      if xs.length ≤ old.length then some (front ++ xs ++ old.drop xs.length) else none := by
  have hfront : front.drop (front.length + xs.length) = [] :=
    List.drop_eq_nil_of_le (Nat.le_add_right _ _)
  simp [store?, List.drop_append, hfront]

/-- Two adjacent stores are one store of the concatenation, also when they fail. -/
theorem store?_bind_store? (buf : List α) (off : Nat) (xs ys : List α) :
    (store? buf off xs).bind (fun buf' => store? buf' (off + xs.length) ys) =
      store? buf off (xs ++ ys) := by
  by_cases hx : off + xs.length ≤ buf.length
  · have hfront : (buf.take off ++ xs).length = off + xs.length := by
      simp only [List.length_append, List.length_take]
      omega
    rw [store?, if_pos hx, Option.bind_some, ← hfront, store?_append, List.length_drop, hfront]
    simp only [store?, List.length_append]
    by_cases hy : off + (xs.length + ys.length) ≤ buf.length
    · rw [if_pos (by omega), if_pos hy, List.drop_drop, Nat.add_assoc]
      simp only [List.append_assoc]
    · rw [if_neg (by omega), if_neg hy]
  · rw [store?, if_neg hx, store?_eq_none_iff.mpr (by rw [List.length_append]; omega)]
    rfl

/-- After a store the array starts with the untouched prefix and the new elements. -/
theorem store?_take (h : store? buf off xs = some buf') :
    buf'.take (off + xs.length) = buf.take off ++ xs := by
  unfold store? at h
  split at h
  · rename_i hfit
    obtain rfl := Option.some.inj h
    have hlen : (buf.take off ++ xs).length = off + xs.length := by
      simp only [List.length_append, List.length_take]
      omega
    rw [← hlen, List.take_left]
  · cases h

theorem store?_getElem? {i : Nat}
    (h : store? buf off xs = some buf') (hi : i < off ∨ off + xs.length ≤ i) :
    buf'[i]? = buf[i]? := by
  unfold store? at h
  split at h
  · obtain rfl := Option.some.inj h
    have htake : (buf.take off).length = off := by
      rw [List.length_take]
      omega
    rcases hi with hi | hi
    · rw [List.append_assoc, List.getElem?_append_left (by omega), List.getElem?_take_of_lt hi]
    · rw [List.getElem?_append_right (by rw [List.length_append]; omega), List.getElem?_drop,
        List.length_append, htake]
      congr 1
      omega
  · cases h

theorem store?_getElem?_inside {i : Nat}
    (h : store? buf off xs = some buf') (hlo : off ≤ i) (hhi : i < off + xs.length) :
    buf'[i]? = xs[i - off]? := by
  unfold store? at h
  split at h
  · obtain rfl := Option.some.inj h
    have htake : (buf.take off).length = off := by
      rw [List.length_take]
      omega
    rw [List.append_assoc, List.getElem?_append_right (by omega), htake,
      List.getElem?_append_left (by omega)]
  · cases h

/-- Stores in their order; `none` is an out-of-bounds store. -/
def storeAll? (buf : List α) (writes : List (Nat × List α)) : Option (List α) :=
  writes.foldlM (fun buf write => store? buf write.1 write.2) buf

/-- Stores that stay inside the array go through. -/
theorem storeAll?_isSome (h : ∀ write ∈ writes, write.1 + write.2.length ≤ buf.length) :
    ∃ buf', storeAll? buf writes = some buf' ∧ buf'.length = buf.length := by
  induction writes generalizing buf with
  | nil => exact ⟨buf, rfl, rfl⟩
  | cons write writes ih =>
      obtain ⟨buf₁, hstore⟩ := Option.isSome_iff_exists.mp
        (store?_isSome_iff.mpr (h write List.mem_cons_self))
      have hlength := store?_length hstore
      have hinside : ∀ w ∈ writes, w.1 + w.2.length ≤ buf₁.length := fun w hw =>
        hlength ▸ h w (List.mem_cons_of_mem _ hw)
      obtain ⟨buf', hrest, hlength'⟩ := ih hinside
      refine ⟨buf', ?_, hlength'.trans hlength⟩
      rw [storeAll?, List.foldlM_cons, hstore]
      exact hrest

theorem storeAll?_inside (h : storeAll? buf writes = some buf') :
    ∀ write ∈ writes, write.1 + write.2.length ≤ buf.length := by
  induction writes generalizing buf with
  | nil => exact fun _ hw => by cases hw
  | cons write writes ih =>
      rw [storeAll?, List.foldlM_cons] at h
      obtain ⟨buf₁, hstore, hrest⟩ := Option.bind_eq_some_iff.mp h
      intro w hw
      obtain rfl | hw := List.mem_cons.mp hw
      · exact store?_isSome_iff.mp (Option.isSome_iff_exists.mpr ⟨_, hstore⟩)
      · exact store?_length hstore ▸ ih hrest w hw

theorem storeAll?_getElem?_outside {i : Nat}
    (h : storeAll? buf writes = some buf')
    (hi : ∀ write ∈ writes, i < write.1 ∨ write.1 + write.2.length ≤ i) : buf'[i]? = buf[i]? := by
  induction writes generalizing buf with
  | nil =>
      cases h
      rfl
  | cons write writes ih =>
      rw [storeAll?, List.foldlM_cons] at h
      obtain ⟨buf₁, hstore, hrest⟩ := Option.bind_eq_some_iff.mp h
      rw [ih hrest fun w hw => hi w (List.mem_cons_of_mem _ hw)]
      exact store?_getElem? hstore (hi write List.mem_cons_self)

/-- Where every store stores the elements that are wanted there, they are read back wherever a
store has been. -/
theorem storeAll?_getElem? (wanted : Nat → α)
    (h : storeAll? buf writes = some buf')
    (hwanted : ∀ write ∈ writes, ∀ k < write.2.length, write.2[k]? = some (wanted (write.1 + k)))
    {i : Nat} (hi : buf[i]? = some (wanted i) ∨
      ∃ write ∈ writes, write.1 ≤ i ∧ i < write.1 + write.2.length) :
    buf'[i]? = some (wanted i) := by
  induction writes generalizing buf with
  | nil =>
      cases h
      obtain hi | ⟨write, hwrite, -⟩ := hi
      · exact hi
      · cases hwrite
  | cons write writes ih =>
      rw [storeAll?, List.foldlM_cons] at h
      obtain ⟨buf₁, hstore, hrest⟩ := Option.bind_eq_some_iff.mp h
      refine ih hrest (fun w hw => hwanted w (List.mem_cons_of_mem _ hw)) ?_
      by_cases hin : write.1 ≤ i ∧ i < write.1 + write.2.length
      · left
        have hk := hwanted write List.mem_cons_self (i - write.1) (by omega)
        rw [store?_getElem?_inside hstore hin.1 hin.2, hk, Nat.add_sub_cancel' hin.1]
      · obtain hi | ⟨w, hw, hlo, hhi⟩ := hi
        · left
          rw [store?_getElem? hstore (by omega)]
          exact hi
        · obtain rfl | hw := List.mem_cons.mp hw
          · exact absurd ⟨hlo, hhi⟩ hin
          · exact .inr ⟨w, hw, hlo, hhi⟩

end Buffer

/-- An array of fixed capacity `n`. -/
structure Buffer (α : Type) (n : Nat) where
  toList : List α
  size_eq : toList.length = n

namespace Buffer

variable {α : Type} {n : Nat}

/-- `memcpy` to a place inside the array. -/
def write (b : Buffer α n) (off : Nat) (xs : List α) (h : off + xs.length ≤ n) : Buffer α n :=
  ⟨b.toList.take off ++ xs ++ b.toList.drop (off + xs.length), by
    have := b.size_eq
    simp only [List.length_append, List.length_take, List.length_drop]
    omega⟩

/-- A write behind a prefix extends the prefix. -/
theorem take_write {b : Buffer α n} {off : Nat} {xs : List α} (h : off + xs.length ≤ n) :
    (b.write off xs h).toList.take (off + xs.length) = b.toList.take off ++ xs := by
  have hlen : (b.toList.take off ++ xs).length = off + xs.length := by
    have := b.size_eq
    simp only [List.length_append, List.length_take]
    omega
  change (b.toList.take off ++ xs ++ b.toList.drop (off + xs.length)).take (off + xs.length) = _
  rw [← hlen, List.take_left]

/-- A write to the front leaves what is behind it. -/
theorem drop_write {b : Buffer α n} {xs : List α} (h : 0 + xs.length ≤ n) :
    (b.write 0 xs h).toList = xs ++ b.toList.drop xs.length := by
  simp [write]

end Buffer
