import AndroidRenderer.Lib.Run

/-!
# Binary search for the closest element

The search looks for a key among elements that are read one at a time, and ends at an element
with that key or between two elements. Every element is read through `key`, which may fail.
-/

namespace BinarySearch

variable {κ ε : Type} [LinearOrder κ]

/-- Where a search ends; `between low` has `low` elements before it. -/
inductive Place
  | found (index : Nat)
  | between (low : Nat)
  deriving DecidableEq, Repr

/-- What is looked for lies in the window of the positions from `low` up to `high`. A window of
`n` elements needs at most `n` turns. -/
def search (key : Nat → Except ε κ) (a : κ) : Nat → Nat → Nat → Except ε Place
  | 0, low, _ => .ok (.between low)
  | turns + 1, low, high =>
      if low < high then
        key ((high + low - 1) / 2) >>= fun k =>
          if k = a then .ok (.found ((high + low - 1) / 2))
          else if a < k then search key a turns low ((high + low - 1) / 2)
          else search key a turns ((high + low - 1) / 2 + 1) high
      else .ok (.between low)

/-- The position of the closest element that is not above the key, if there is one. -/
def Place.closest : Place → Option Nat
  | .found index => some index
  | .between 0 => none
  | .between (low + 1) => some low

/-- The position of an element with the key, if there is one. -/
def Place.exact : Place → Option Nat
  | .found index => some index
  | .between _ => none

/-- A place in an array of `n` elements with the keys `f`. -/
inductive Place.Within (f : Nat → κ) (a : κ) (n : Nat) : Place → Prop
  | found {index : Nat} (hlt : index < n) (heq : f index = a) : Within f a n (.found index)
  | between {low : Nat} (hle : low ≤ n) : Within f a n (.between low)

/-- A place in a sorted array. -/
inductive Place.Fits (f : Nat → κ) (a : κ) (n : Nat) : Place → Prop
  | found {index : Nat} (hlt : index < n) (heq : f index = a) : Fits f a n (.found index)
  | between {low : Nat} (hle : low ≤ n) (hbelow : ∀ i < low, f i < a)
      (habove : ∀ i, low ≤ i → i < n → a < f i) : Fits f a n (.between low)

variable {key : Nat → Except ε κ} {f : Nat → κ} {a : κ} {n : Nat}

omit [LinearOrder κ] in
theorem Place.Within.closest_lt {p : Place} (h : p.Within f a n) {i : Nat}
    (hi : p.closest = some i) : i < n := by
  cases h with
  | found hlt _ => exact Option.some.inj hi ▸ hlt
  | @between low hle =>
      cases low with
      | zero => cases hi
      | succ low => exact Option.some.inj hi ▸ hle

omit [LinearOrder κ] in
theorem Place.Within.exact_lt {p : Place} (h : p.Within f a n) {i : Nat}
    (hi : p.exact = some i) : i < n := by
  cases h with
  | found hlt _ => exact Option.some.inj hi ▸ hlt
  | between _ => cases hi

/-- The search goes through where every element can be read. -/
theorem search_within (hkey : ∀ i < n, key i = .ok (f i)) {turns low high : Nat}
    (hle : low ≤ high) (hhigh : high ≤ n) :
    ∃ p, search key a turns low high = .ok p ∧ p.Within f a n := by
  induction turns generalizing low high with
  | zero => exact ⟨_, rfl, .between (Nat.le_trans hle hhigh)⟩
  | succ turns ih =>
      rw [search]
      split
      · have hmiddle : (high + low - 1) / 2 < high := by omega
        rw [hkey _ (by omega)]
        simp only [bind, Except.bind]
        split
        · rename_i heq
          exact ⟨_, rfl, .found (by omega) heq⟩
        · split
          · exact ih (by omega) (by omega)
          · exact ih (by omega) hhigh
      · exact ⟨_, rfl, .between (Nat.le_trans hle hhigh)⟩

/-- In a sorted array the elements before the window are below the key, and those behind it
are above. -/
theorem search_fits (hkey : ∀ i < n, key i = .ok (f i))
    (hsorted : ∀ i j, i < j → j < n → f i ≤ f j) {turns low high : Nat} (hle : low ≤ high)
    (hhigh : high ≤ n) (hturns : high ≤ low + turns) (hbelow : ∀ i < low, f i < a)
    (habove : ∀ i, high ≤ i → i < n → a < f i) :
    ∃ p, search key a turns low high = .ok p ∧ p.Fits f a n := by
  induction turns generalizing low high with
  | zero =>
      obtain rfl : low = high := by omega
      exact ⟨_, rfl, .between hhigh hbelow habove⟩
  | succ turns ih =>
      rw [search]
      split
      · have hmiddle : (high + low - 1) / 2 < high := by omega
        rw [hkey _ (by omega)]
        simp only [bind, Except.bind]
        split
        · rename_i heq
          exact ⟨_, rfl, .found (by omega) heq⟩
        · rename_i hne
          split
          · rename_i hlt
            refine ih (by omega) (by omega) (by omega) hbelow fun i hi hin => ?_
            rcases Nat.eq_or_lt_of_le hi with rfl | hi
            · exact hlt
            · exact hlt.trans_le (hsorted _ i hi hin)
          · rename_i hge
            have hlt := lt_of_le_of_ne (le_of_not_gt hge) hne
            refine ih (by omega) hhigh (by omega) (fun i hi => ?_) habove
            rcases Nat.eq_or_lt_of_le (Nat.le_of_lt_succ hi) with rfl | hi
            · exact hlt
            · exact (hsorted i _ hi (by omega)).trans_lt hlt
      · obtain rfl : low = high := by omega
        exact ⟨_, rfl, .between hhigh hbelow habove⟩

/-- The search of a whole array. -/
theorem search_all_within (hkey : ∀ i < n, key i = .ok (f i)) (a : κ) :
    ∃ p, search key a n 0 n = .ok p ∧ p.Within f a n :=
  search_within hkey (Nat.zero_le n) (Nat.le_refl n)

theorem search_all_fits (hkey : ∀ i < n, key i = .ok (f i))
    (hsorted : ∀ i j, i < j → j < n → f i ≤ f j) (a : κ) :
    ∃ p, search key a n 0 n = .ok p ∧ p.Fits f a n :=
  search_fits hkey hsorted (Nat.zero_le n) (Nat.le_refl n) (Nat.le_of_eq (Nat.zero_add n).symm)
    (fun i hi => absurd hi (Nat.not_lt_zero i)) (fun _ hi hlt => absurd hlt (Nat.not_lt.mpr hi))

end BinarySearch
