import Mathlib.Algebra.Order.Ring.Nat

/-!
# Sizes rounded up to an alignment

A row of an image, or an element of an array, begins at a multiple of an alignment.
-/

/-- The least multiple of `a` that is not below `n`. -/
def roundUp (n a : Nat) : Nat := (n + (a - 1)) / a * a

section RoundUp

variable {a : Nat}

theorem le_roundUp (ha : 0 < a) (n : Nat) : n ≤ roundUp n a := by
  have hmod := Nat.mod_lt (n + (a - 1)) ha
  have hdiv := Nat.div_add_mod' (n + (a - 1)) a
  rw [roundUp]
  omega

theorem roundUp_le_add (n a : Nat) : roundUp n a ≤ n + (a - 1) := Nat.div_mul_le_self _ _

theorem roundUp_mono {m n : Nat} (h : m ≤ n) : roundUp m a ≤ roundUp n a :=
  Nat.mul_le_mul_right a (Nat.div_le_div_right (Nat.add_le_add_right h _))

theorem roundUp_zero (ha : 0 < a) : roundUp 0 a = 0 := by
  rw [roundUp, Nat.div_eq_of_lt (by omega), Nat.zero_mul]

/-- A size is in one unit of the alignment if it is not empty and no larger. -/
theorem roundUp_eq_self_iff {n : Nat} (ha : 0 < a) : roundUp n a = a ↔ 0 < n ∧ n ≤ a := by
  constructor
  · grind [roundUp_zero, le_roundUp]
  · rintro ⟨hpos, hle⟩
    have hdiv : (n + (a - 1)) / a = 1 := by
      rw [Nat.div_eq_iff ha]
      omega
    rw [roundUp, hdiv, Nat.one_mul]

theorem roundUp_add_of_dvd {m : Nat} (ha : 0 < a) (hm : a ∣ m) (n : Nat) :
    roundUp (n + m) a = roundUp n a + m := by
  obtain ⟨k, rfl⟩ := hm
  have hsum : n + a * k + (a - 1) = n + (a - 1) + a * k := by omega
  rw [roundUp, roundUp, hsum, Nat.add_mul_div_left _ _ ha, Nat.add_mul, Nat.mul_comm k]

theorem roundUp_mod {n m : Nat} (ha : 0 < a) (hdvd : a ∣ m) :
    roundUp (n % m) a % m = roundUp n a % m := by
  have hsum : roundUp n a = roundUp (n % m) a + m * (n / m) := by
    conv_lhs => rw [← Nat.mod_add_div n m]
    exact roundUp_add_of_dvd ha (Dvd.dvd.mul_right hdvd _) _
  rw [hsum, Nat.add_mul_mod_self_left]

/-- Rounding down, and one unit more if that is too little. -/
theorem roundUp_eq_ite (ha : 0 < a) (n : Nat) :
    (if n / a * a < n then n / a * a + a else n / a * a) = roundUp n a := by
  have hmod := Nat.mod_lt n ha
  have hdiv := Nat.div_add_mod' n a
  have hsum : roundUp n a = roundUp (n % a) a + n / a * a := by
    conv_lhs => rw [← hdiv, Nat.add_comm]
    exact roundUp_add_of_dvd ha (Dvd.intro_left _ rfl) _
  grind [roundUp_eq_self_iff, roundUp_zero]

/-- Two sizes, one of which is twice the other, are rounded to the same if they fit in a unit. -/
theorem roundUp_eq_roundUp_iff {m n : Nat} (ha : 0 < a) (hpos : 0 < m) (htwice : 2 * m ≤ n) :
    roundUp m a = roundUp n a ↔ n ≤ a := by
  constructor
  · intro h
    have hle := le_roundUp ha n
    have hadd := roundUp_le_add m a
    grind [roundUp_eq_self_iff]
  · grind [roundUp_eq_self_iff]

end RoundUp
