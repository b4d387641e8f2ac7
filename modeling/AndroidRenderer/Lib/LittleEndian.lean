import Mathlib.Data.BitVec

/-!
# Little-endian words and byte memories

A machine word is stored as a fixed number of bytes, least significant first.
`leBytes` is the store and `ofLE` the load; both work on mathematical naturals,
so a value that does not fit is reduced modulo the word range by the store.

`Mem` is a byte memory addressed by naturals. `Holds m off bs` says that the
bytes `bs` lie at `off`; it splits over `++`, so a long message is read back by
peeling one field after another.
-/

namespace LittleEndian

/-- The `k` bytes of `n`, least significant first. -/
def leBytes : Nat → Nat → List UInt8
  | 0, _ => []
  | k + 1, n => UInt8.ofNat n :: leBytes k (n / 256)

/-- The number a little-endian byte string denotes. -/
def ofLE : List UInt8 → Nat
  | [] => 0
  | b :: bs => b.toNat + 256 * ofLE bs

@[simp, grind =] theorem leBytes_length (k n : Nat) : (leBytes k n).length = k := by
  induction k generalizing n with
  | zero => rfl
  | succ k ih => simp [leBytes, ih]

theorem ofLE_leBytes_mod (k n : Nat) : ofLE (leBytes k n) = n % 256 ^ k := by
  induction k generalizing n with
  | zero => simp [leBytes, ofLE, Nat.mod_one]
  | succ k ih =>
      rw [leBytes, ofLE, ih, Nat.pow_succ, Nat.mul_comm (256 ^ k), Nat.mod_mul]
      simp

/-- A value inside the word range survives the store and the load. -/
theorem ofLE_leBytes {k n : Nat} (h : n < 256 ^ k) : ofLE (leBytes k n) = n := by
  rw [ofLE_leBytes_mod, Nat.mod_eq_of_lt h]

theorem leBytes_ofLE (bs : List UInt8) : leBytes bs.length (ofLE bs) = bs := by
  induction bs with
  | nil => rfl
  | cons b bs ih =>
      have hb := b.toNat_lt
      have hlow : UInt8.ofNat (b.toNat + 256 * ofLE bs) = b := by simp
      have hhigh : (b.toNat + 256 * ofLE bs) / 256 = ofLE bs := by omega
      rw [List.length_cons, ofLE, leBytes, hlow, hhigh, ih]

theorem ofLE_lt (bs : List UInt8) : ofLE bs < 256 ^ bs.length := by
  induction bs with
  | nil => simp [ofLE]
  | cons b bs ih =>
      have hb := b.toNat_lt
      rw [ofLE, List.length_cons, Nat.pow_succ]
      omega

/-- The lowest byte of a stored word determines its residue modulo 256. -/
theorem ofLE_cons_mod (b : UInt8) (bs : List UInt8) : ofLE (b :: bs) % 256 = b.toNat := by
  have hb := b.toNat_lt
  rw [ofLE]
  omega

/-- A byte memory; addresses are not bounded. -/
abbrev Mem := Nat → UInt8

/-- The `n` bytes at `off`. -/
def load (m : Mem) (off n : Nat) : List UInt8 :=
  (List.range n).map fun i => m (off + i)

/-- The little-endian word of `n` bytes at `off`. -/
def loadLE (m : Mem) (off n : Nat) : Nat := ofLE (load m off n)

/-- The bytes `bs` lie in memory at `off`. -/
def Holds (m : Mem) (off : Nat) (bs : List UInt8) : Prop := load m off bs.length = bs

/-- The memory that starts with `bs` and continues with `rest`. -/
def ofList (bs : List UInt8) (rest : Mem) : Mem :=
  fun i => if h : i < bs.length then bs[i] else rest (i - bs.length)

@[simp, grind =] theorem load_length (m : Mem) (off n : Nat) : (load m off n).length = n := by
  simp [load]

@[simp] theorem load_zero (m : Mem) (off : Nat) : load m off 0 = [] := rfl

theorem load_add (m : Mem) (off a b : Nat) :
    load m off (a + b) = load m off a ++ load m (off + a) b := by
  simp only [load, List.range_add, List.map_append, List.map_map]
  simp [Nat.add_assoc]

theorem load_succ (m : Mem) (off n : Nat) :
    load m off (n + 1) = m off :: load m (off + 1) n := by
  rw [Nat.add_comm, load_add]
  simp [load]

theorem loadLE_lt (m : Mem) (off n : Nat) : loadLE m off n < 256 ^ n := by
  simpa [loadLE] using ofLE_lt (load m off n)

variable {m : Mem} {off : Nat} {bs : List UInt8}

/-- Adjacent messages are read one after the other. -/
@[grind =] theorem holds_append {a b : List UInt8} :
    Holds m off (a ++ b) ↔ Holds m off a ∧ Holds m (off + a.length) b := by
  simp only [Holds, List.length_append, load_add]
  constructor
  · intro h
    exact List.append_inj h (by simp)
  · grind

theorem holds_cons {b : UInt8} :
    Holds m off (b :: bs) ↔ m off = b ∧ Holds m (off + 1) bs := by
  simp [Holds, load_succ]

theorem holds_ofList (bs : List UInt8) (rest : Mem) : Holds (ofList bs rest) 0 bs := by
  apply List.ext_getElem
  · simp
  · grind [load, ofList]

theorem Holds.load_eq {n : Nat}
    (h : Holds m off bs) (hn : bs.length = n) : load m off n = bs := hn ▸ h

/-- A stored word in range is loaded back. -/
theorem Holds.loadLE {k n : Nat}
    (h : Holds m off (leBytes k n)) (hn : n < 256 ^ k) : loadLE m off k = n := by
  rw [LittleEndian.loadLE, h.load_eq (leBytes_length k n), ofLE_leBytes hn]

/-- A load of at least one byte sees the byte at its own address first. -/
theorem loadLE_mod (m : Mem) (off n : Nat) :
    LittleEndian.loadLE m off (n + 1) % 256 = (m off).toNat := by
  rw [LittleEndian.loadLE, load_succ, ofLE_cons_mod]

/-- The memory after `bs` is written at `off`. -/
def store (m : Mem) (off : Nat) (bs : List UInt8) : Mem :=
  fun a => if h : off ≤ a ∧ a - off < bs.length then bs[a - off] else m a

theorem holds_store (m : Mem) (off : Nat) (bs : List UInt8) : Holds (store m off bs) off bs := by
  apply List.ext_getElem
  · simp
  · intro i _ hi
    simp [load, store, hi]

/-- A store changes nothing before or behind the bytes it writes. -/
theorem load_store_of_disjoint {off' n : Nat}
    (h : off' + n ≤ off ∨ off + bs.length ≤ off') :
    load (store m off bs) off' n = load m off' n := by
  apply List.map_congr_left
  intro i hi
  have hin := List.mem_range.mp hi
  exact dif_neg (by omega)

theorem loadLE_store_of_disjoint {off' n : Nat}
    (h : off' + n ≤ off ∨ off + bs.length ≤ off') :
    loadLE (store m off bs) off' n = loadLE m off' n := by
  rw [loadLE, load_store_of_disjoint h, loadLE]

/-- Bytes that were loaded elsewhere are read piece by piece. -/
theorem Holds.load_load {m' : Mem} {off' n k len : Nat} (h : Holds m off (load m' off' len))
    (hk : k + n ≤ len) : load m (off + k) n = load m' (off' + k) n := by
  have hrest : len = k + (n + (len - (k + n))) := by omega
  rw [hrest, load_add, load_add, holds_append, holds_append] at h
  have hmid := h.2.1
  rwa [load_length, Holds, load_length] at hmid

end LittleEndian
