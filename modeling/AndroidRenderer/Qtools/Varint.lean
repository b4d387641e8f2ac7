import AndroidRenderer.Qtools.Decoder

/-!
# Objects of trace files

The comment at `Decode` defines the objects by a table of prefixes. The tables of the decoder agree
with it for every initial byte that is not reserved, and both ways to read the other bytes of an
object shift them into the word; so both give the number of the object's data bits.
-/

namespace AndroidRenderer.Qtools

open BigEndian LittleEndian

/-- A row of the table: the width and the value of the prefix, and the bytes and the data bits of
the objects. -/
structure PrefixRow where
  width : Nat
  value : Nat
  bytes : Nat
  dataBits : Nat
  deriving DecidableEq, Repr

def prefixTable : List PrefixRow :=
  [⟨1, 0b0, 1, 7⟩, ⟨2, 0b10, 2, 14⟩, ⟨3, 0b110, 3, 21⟩, ⟨4, 0b1110, 4, 28⟩, ⟨5, 0b11110, 5, 35⟩,
    ⟨6, 0b111110, 6, 42⟩, ⟨8, 0b11111100, 9, 64⟩]

def row? (byte0 : Nat) : Option PrefixRow :=
  prefixTable.find? fun row => byte0 / 2 ^ (8 - row.width) = row.value

def PrefixRow.number (row : PrefixRow) (is_signed : Bool) (object : List UInt8) : BitVec 64 :=
  let data := BitVec.ofNat row.dataBits (ofBE object)
  if is_signed then data.signExtend 64 else data.setWidth 64

/-- The object that the bytes begin with, if it lies inside them. -/
def object? (bytes : List UInt8) : Option (PrefixRow × List UInt8) := do
  let byte0 ← bytes.head?
  let row ← row? byte0.toNat
  if row.bytes ≤ bytes.length then some (row, bytes.take row.bytes) else none

/-! ## The tables of the decoder -/

/-- The first data bits of an object. -/
def PrefixRow.first (row : PrefixRow) (is_signed : Bool) (byte0 : Nat) : Int :=
  if is_signed then (byte0 : Int).bmod (2 ^ (8 - row.width)) else byte0 % 2 ^ (8 - row.width)

theorem row_shape {row : PrefixRow} (h : row ∈ prefixTable) :
    row.width ≤ 8 ∧ row.width + row.dataBits = 8 * row.bytes ∧ 0 < row.bytes ∧
      (row.dataBits = 64 ∨ row.width < 8 ∧ row.dataBits < 64) := by
  simp only [prefixTable, List.mem_cons, List.not_mem_nil, or_false] at h
  obtain rfl | rfl | rfl | rfl | rfl | rfl | rfl := h <;> decide

theorem row?_mem {byte0 : Nat} {row : PrefixRow} (h : row? byte0 = some row) : row ∈ prefixTable :=
  List.mem_of_find?_eq_some h

/-- The lengths, where three of the reserved bytes have one as well. -/
theorem prefix_to_len_eq :
    prefix_to_len = (List.range 256).map fun byte0 =>
      ((row? byte0).map PrefixRow.bytes).getD (if byte0 < 254 then 9 else 17) := by
  decide +kernel

theorem prefix_to_data_eq :
    prefix_to_data = (List.range 256).map fun byte0 =>
      ((row? byte0).map (·.first false byte0)).getD 0 := by
  decide +kernel

theorem prefix_to_signed_data_eq :
    prefix_to_signed_data = (List.range 256).map fun byte0 =>
      ((row? byte0).map (·.first true byte0)).getD (if byte0 = 254 then 0 else -1) := by
  decide +kernel

theorem getElem?_map_range {α : Type} (f : Nat → α) {n i : Nat} (hi : i < n) (a : α) :
    ((List.range n).map f)[i]?.getD a = f i := by
  rw [List.getElem?_map, List.getElem?_range hi]
  rfl

theorem tables_agree {byte0 : Nat} (hbyte : byte0 < 256) {row : PrefixRow}
    (hrow : row? byte0 = some row) :
    prefix_to_len[byte0]?.getD 0 = row.bytes ∧
      ∀ is_signed, (if is_signed then prefix_to_signed_data[byte0]?.getD 0
        else prefix_to_data[byte0]?.getD 0) = row.first is_signed byte0 := by
  constructor
  · rw [prefix_to_len_eq, getElem?_map_range _ hbyte, hrow]
    rfl
  · intro is_signed
    grind [prefix_to_signed_data_eq, getElem?_map_range, prefix_to_data_eq]

/-! ## The number of an object -/

/-- The word that the other bytes are shifted into. -/
def shifted (first : Int) (rest : List UInt8) : BitVec 64 :=
  .ofInt 64 (first * 2 ^ (8 * rest.length) + ofBE rest)

theorem ofBE_lt_two_pow (bytes : List UInt8) : ofBE bytes < 2 ^ (8 * bytes.length) := by
  rw [Nat.pow_mul]
  exact ofBE_lt bytes

theorem ofBE_cons_two_pow (byte0 : UInt8) (rest : List UInt8) :
    ofBE (byte0 :: rest) = byte0.toNat * 2 ^ (8 * rest.length) + ofBE rest := by
  rw [ofBE_cons, Nat.pow_mul]

/-- Sign extension of a word that begins with `m` bits of `byte0`. -/
theorem ofInt_bmod_shifted {m n k : Nat} (hn : m + k = n) (hm : n = 64 ∨ 0 < m) (byte0 : Int)
    {r : Nat} (hr : r < 2 ^ k) :
    BitVec.ofInt 64 ((byte0 * 2 ^ k + r).bmod (2 ^ n)) =
      BitVec.ofInt 64 (byte0.bmod (2 ^ m) * 2 ^ k + r) := by
  generalize hc : byte0.bmod (2 ^ m) * 2 ^ k + r = c
  have hsplit : byte0 * 2 ^ k + r = c + byte0.bdiv (2 ^ m) * (2 ^ n : Nat) := by
    have hb := Int.bmod_add_bdiv' byte0 (2 ^ m)
    grind
  have hbmod : (byte0 * 2 ^ k + r).bmod (2 ^ n) = c.bmod (2 ^ n) := by
    rw [hsplit, Int.add_mul_bmod_self_right]
  rw [hbmod]
  obtain rfl | hpos := hm
  · rw [← BitVec.toInt_ofInt, BitVec.ofInt_toInt]
  · obtain ⟨j, rfl⟩ := Nat.exists_eq_add_of_lt hpos
    have hlow := Int.le_bmod (x := byte0) (m := 2 ^ (0 + j + 1)) (Nat.two_pow_pos _)
    have hhigh := Int.bmod_lt (x := byte0) (m := 2 ^ (0 + j + 1)) (Nat.two_pow_pos _)
    have htwo : ((2 ^ (0 + j + 1) : Nat) : Int) = 2 * 2 ^ j := by
      rw [Nat.zero_add, Nat.pow_succ, Int.natCast_mul, Int.mul_comm]
      rfl
    rw [htwo] at hlow hhigh
    have hn₂ : ((2 ^ n : Nat) : Int) = 2 * (2 ^ j * 2 ^ k) := by grind
    have hr₂ : (r : Int) < 2 ^ k := by exact_mod_cast hr
    have hk : (0 : Int) ≤ 2 ^ k := Int.le_of_lt (Int.pow_pos (by omega))
    have hmin := Int.mul_le_mul_of_nonneg_right (by omega :
      -2 ^ j ≤ byte0.bmod (2 ^ (0 + j + 1))) hk
    have hmax := Int.mul_le_mul_of_nonneg_right (by omega :
      byte0.bmod (2 ^ (0 + j + 1)) ≤ 2 ^ j - 1) hk
    rw [Int.neg_mul] at hmin
    rw [Int.sub_mul, Int.one_mul] at hmax
    congr 1
    apply Int.bmod_eq_of_le_mul_two
    · omega
    · omega

/-- The data bits of a word whose first byte has `m` of them. -/
theorem mod_shifted {m n k : Nat} (hn : m + k = n) (byte0 : Nat) {r : Nat} (hr : r < 2 ^ k) :
    (byte0 * 2 ^ k + r) % 2 ^ n = byte0 % 2 ^ m * 2 ^ k + r := by
  have hlt : byte0 % 2 ^ m * 2 ^ k + r < 2 ^ n := by
    have hmod : byte0 % 2 ^ m + 1 ≤ 2 ^ m := Nat.mod_lt _ (Nat.two_pow_pos m)
    have hmul := Nat.mul_le_mul_right (2 ^ k) hmod
    grind
  have hsplit : byte0 * 2 ^ k + r = 2 ^ n * (byte0 / 2 ^ m) + (byte0 % 2 ^ m * 2 ^ k + r) := by
    have hdiv := Nat.div_add_mod byte0 (2 ^ m)
    grind
  rw [hsplit, Nat.mul_add_mod, Nat.mod_eq_of_lt hlt]

theorem PrefixRow.number_eq {row : PrefixRow} (hrow : row ∈ prefixTable) (is_signed : Bool)
    (byte0 : UInt8) {rest : List UInt8} (hlength : rest.length + 1 = row.bytes) :
    row.number is_signed (byte0 :: rest) = shifted (row.first is_signed byte0.toNat) rest := by
  obtain ⟨hwidth, hbits, -, hdata⟩ := row_shape hrow
  have hrest := ofBE_lt_two_pow rest
  have hsum : 8 - row.width + 8 * rest.length = row.dataBits := by omega
  rw [number, shifted, ofBE_cons_two_pow]
  cases is_signed with
  | true =>
      rw [if_pos rfl, first, if_pos rfl, BitVec.signExtend, BitVec.toInt_ofNat']
      push_cast
      exact ofInt_bmod_shifted hsum (by omega) _ hrest
  | false =>
      have hmod : (byte0.toNat * 2 ^ (8 * rest.length) + ofBE rest) % 2 ^ row.dataBits =
          byte0.toNat % 2 ^ (8 - row.width) * 2 ^ (8 * rest.length) + ofBE rest :=
        mod_shifted hsum byte0.toNat hrest
      have hcast : (byte0.toNat : Int) % 2 ^ (8 - row.width) * 2 ^ (8 * rest.length) +
          (ofBE rest : Int) =
          ((byte0.toNat % 2 ^ (8 - row.width) * 2 ^ (8 * rest.length) + ofBE rest : Nat) : Int) := by
        push_cast
        rfl
      rw [if_neg Bool.false_ne_true, first, if_neg Bool.false_ne_true, hcast, BitVec.ofInt_natCast]
      apply BitVec.eq_of_toNat_eq
      rw [BitVec.toNat_setWidth, BitVec.toNat_ofNat, hmod, BitVec.toNat_ofNat]

/-! ## The two ways to read the other bytes -/

/-- One byte after the other, as on a big-endian machine. -/
theorem foldl_shifted (first : Int) (rest : List UInt8) :
    rest.foldl (fun (val64 : BitVec 64) (byte : UInt8) =>
      val64 <<< 8 ||| BitVec.ofNat 64 byte.toNat) (.ofInt 64 first) = shifted first rest := by
  induction rest using List.reverseRecOn with
  | nil =>
      show BitVec.ofInt 64 first = BitVec.ofInt 64 (first * 2 ^ 0 + 0)
      simp
  | append_singleton rest byte ih =>
      have hbyte : byte.toNat < 2 ^ 8 := byte.toNat_lt
      rw [List.foldl_append, ih, List.foldl_cons, List.foldl_nil, shifted, shiftIn _ hbyte, shifted,
        ofBE_concat, List.length_append, List.length_singleton, Nat.mul_add, Int.pow_add]
      grind

theorem shiftRight_and_mask {N s m : Nat} (hN : N < 2 ^ 64) (hm : m ≤ 64) :
    (BitVec.ofNat 64 N >>> s) &&& BitVec.ofNat 64 (2 ^ m - 1) =
      BitVec.ofNat 64 (N / 2 ^ s % 2 ^ m) := by
  have hmask : 2 ^ m - 1 < 2 ^ 64 :=
    Nat.lt_of_lt_of_le (Nat.sub_lt (Nat.two_pow_pos m) (by omega))
      (Nat.pow_le_pow_right (by omega) hm)
  have hlt : N / 2 ^ s % 2 ^ m < 2 ^ 64 :=
    Nat.lt_of_le_of_lt (Nat.mod_le _ _) (Nat.lt_of_le_of_lt (Nat.div_le_self _ _) hN)
  apply BitVec.eq_of_toNat_eq
  rw [BitVec.toNat_and, BitVec.toNat_ushiftRight, BitVec.toNat_ofNat, Nat.mod_eq_of_lt hN,
    BitVec.toNat_ofNat, Nat.mod_eq_of_lt hmask, Nat.shiftRight_eq_div_pow,
    Nat.and_two_pow_sub_one_eq_mod, BitVec.toNat_ofNat, Nat.mod_eq_of_lt hlt]

/-- Out of a word that was loaded whole, as on a little-endian machine. -/
theorem masked_shifted (first : Int) {byte0 : UInt8} {rest tail : List UInt8}
    (hlength : rest.length + tail.length = 7) :
    (BitVec.ofInt 64 first <<< (8 * rest.length)) |||
        ((BitVec.ofNat 64 (ofBE (byte0 :: (rest ++ tail))) >>> (8 * tail.length)) &&&
          BitVec.ofNat 64 (2 ^ (8 * rest.length) - 1)) = shifted first rest := by
  have hlt := ofBE_lt_two_pow (byte0 :: (rest ++ tail))
  have h64 : 8 * (byte0 :: (rest ++ tail)).length = 64 := by grind
  rw [h64] at hlt
  have hmid := ofBE_shift_mod [byte0] rest tail
  rw [List.singleton_append, List.cons_append] at hmid
  rw [shiftRight_and_mask hlt (by omega), Nat.pow_mul, Nat.pow_mul, hmid,
    shiftIn _ (ofBE_lt_two_pow rest), shifted]

end AndroidRenderer.Qtools
