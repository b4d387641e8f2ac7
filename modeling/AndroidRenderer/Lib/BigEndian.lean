import AndroidRenderer.Lib.LittleEndian

/-!
# Big-endian words

`ofBE` is the number that a byte string denotes, most significant byte first. A word into which
bytes are shifted from the right holds the number modulo its range, whatever sign its first bytes
had.
-/

namespace BigEndian

open LittleEndian

/-- The number a big-endian byte string denotes. -/
def ofBE (bs : List UInt8) : Nat := bs.foldl (fun n b => 256 * n + b.toNat) 0

@[simp] theorem ofBE_nil : ofBE [] = 0 := rfl

theorem ofBE_concat (bs : List UInt8) (b : UInt8) : ofBE (bs ++ [b]) = 256 * ofBE bs + b.toNat := by
  rw [ofBE, List.foldl_append]
  rfl

theorem ofBE_reverse (bs : List UInt8) : ofBE bs.reverse = ofLE bs := by
  induction bs with
  | nil => rfl
  | cons b bs ih => rw [List.reverse_cons, ofBE_concat, ih, ofLE, Nat.add_comm]

theorem ofBE_lt (bs : List UInt8) : ofBE bs < 256 ^ bs.length := by
  have hlt := ofLE_lt bs.reverse
  rwa [← ofBE_reverse, List.reverse_reverse, List.length_reverse] at hlt

theorem ofBE_append (xs ys : List UInt8) :
    ofBE (xs ++ ys) = ofBE xs * 256 ^ ys.length + ofBE ys := by
  induction ys using List.reverseRecOn with
  | nil => simp
  | append_singleton ys y ih =>
      rw [← List.append_assoc, ofBE_concat, ih, ofBE_concat, List.length_append,
        List.length_singleton, Nat.pow_succ, Nat.mul_add, ← Nat.mul_assoc, Nat.mul_comm _ 256,
        Nat.mul_left_comm, Nat.mul_assoc]
      omega

theorem ofBE_singleton (b : UInt8) : ofBE [b] = b.toNat := by
  rw [ofBE, List.foldl_cons, List.foldl_nil, Nat.mul_zero, Nat.zero_add]

theorem ofBE_cons (b : UInt8) (bs : List UInt8) :
    ofBE (b :: bs) = b.toNat * 256 ^ bs.length + ofBE bs := by
  rw [← List.singleton_append, ofBE_append, ofBE_singleton]

/-- The bytes behind the first of a word, by a shift and a mask. -/
theorem ofBE_shift_mod (xs ys zs : List UInt8) :
    ofBE (xs ++ ys ++ zs) / 256 ^ zs.length % 256 ^ ys.length = ofBE ys := by
  have hzs := ofBE_lt zs
  have hys := ofBE_lt ys
  rw [ofBE_append (xs ++ ys), Nat.mul_comm, Nat.mul_add_div (by omega), Nat.div_eq_of_lt hzs,
    Nat.add_zero, ofBE_append xs, Nat.add_mod, Nat.mul_mod_left, Nat.zero_add, Nat.mod_mod,
    Nat.mod_eq_of_lt hys]

/-- Bytes are shifted into a word, which may be negative. -/
theorem shiftIn {w : Nat} (x : Int) {n r : Nat} (hr : r < 2 ^ n) :
    (BitVec.ofInt w x <<< n) ||| BitVec.ofNat w r = BitVec.ofInt w (x * 2 ^ n + r) := by
  have hdisjoint : (BitVec.ofInt w x <<< n) &&& BitVec.ofNat w r = 0#w := by
    apply BitVec.eq_of_getLsbD_eq
    intro i hi
    rw [BitVec.getLsbD_and, BitVec.getLsbD_shiftLeft, BitVec.getLsbD_ofNat, BitVec.getLsbD_zero]
    by_cases hlow : i < n
    · simp [hlow]
    · have hbit : r.testBit i = false :=
        Nat.testBit_lt_two_pow (Nat.lt_of_lt_of_le hr (Nat.pow_le_pow_right (by omega) (by omega)))
      simp [hbit]
  have hpow : BitVec.twoPow w n = BitVec.ofInt w (2 ^ n) := by
    have hcast : (2 : Int) ^ n = ((2 ^ n : Nat) : Int) := (Int.natCast_pow 2 n).symm
    apply BitVec.eq_of_toNat_eq
    rw [BitVec.toNat_twoPow, hcast, BitVec.ofInt_natCast, BitVec.toNat_ofNat]
  rw [← BitVec.add_eq_or_of_and_eq_zero _ _ hdisjoint, BitVec.shiftLeft_eq_mul_twoPow,
    BitVec.ofInt_add, BitVec.ofInt_mul, BitVec.ofInt_natCast, hpow]

end BigEndian
