import AndroidRenderer.Lib.NodeList
import AndroidRenderer.Lib.Registry
import Mathlib.Algebra.Ring.Int.Defs

/-!
# Hash table

`HashTable` maps strings to values. The entries whose keys have the same hash modulo the size of
the table are on one chain. The table remembers how far an iteration over its entries has come;
the pointer to the current entry is left behind when the entry is removed.
-/

namespace AndroidRenderer.Qtools

open NodeList

variable {T : Type}

/-- `entry_type`; the pointer to an entry is its handle, and a string is its characters. -/
structure HashEntry (T : Type) where
  next : Option Nat
  key : List UInt8
  value : T

structure HashTable (T : Type) where
  size_ : Nat
  mask_ : BitVec 32
  default_value_ : T
  table_ : Nat → Option Nat
  num_entries_ : BitVec 32
  current_index_ : Nat
  current_ptr_ : Option Nat
  /-- The entries that have been allocated and not deleted. -/
  heap : Registry (HashEntry T)

/-- The loop that rounds up the size; none if it does not end within `fuel` turns. -/
def roundUpSize (size : BitVec 32) : Nat → BitVec 32 → Option (BitVec 32)
  | 0, _ => none
  | fuel + 1, pow2 => if pow2.slt size then roundUpSize size fuel (pow2 <<< 1) else some pow2

/-- `strlen`, into an `int` -/
def strlenInt (key : List UInt8) : BitVec 32 := BitVec.ofNat 32 key.length

namespace HashTable

/-- The constructor. -/
def new (fuel : Nat) (size : BitVec 32) (default_value : T) : Option (HashTable T) :=
  (roundUpSize size fuel 2).map fun pow2 =>
    { size_ := pow2.toNat
      mask_ := pow2 - 1
      default_value_ := default_value
      table_ := fun _ => none
      num_entries_ := 0
      current_index_ := 0
      current_ptr_ := none
      heap := Registry.empty }

/-- `HashFunction`; a character is signed. -/
def HashFunction (key : List UInt8) : BitVec 32 :=
  (key.take (strlenInt key).toInt.toNat).foldl
    (fun hash c => (hash <<< 5 + hash) + c.toBitVec.signExtend 32) 5381

def pos (t : HashTable T) (key : List UInt8) : Nat := (HashFunction key &&& t.mask_).toNat

/-- The search for a key on a chain, with the entry before it. None if an entry is met that was
deleted, or the chain does not end within `fuel` entries. -/
def search (heap : Registry (HashEntry T)) (key : List UInt8) :
    Nat → (prev ptr : Option Nat) → Option (Option (Option Nat × Nat × HashEntry T))
  | _, _, none => some none
  | 0, _, some _ => none
  | fuel + 1, prev, some ptr =>
      (heap.get? ptr).bind fun e =>
        if e.key = key then some (some (prev, ptr, e)) else search heap key fuel (some ptr) e.next

/-- The search in the table; a chain is not longer than there are entries. -/
def lookup (t : HashTable T) (key : List UInt8) :
    Option (Option (Option Nat × Nat × HashEntry T)) :=
  search t.heap key t.heap.entries.length none (t.table_ (t.pos key))

/-- `ptr->value = value` -/
def setValue (t : HashTable T) (ptr : Nat) (e : HashEntry T) (value : T) : HashTable T :=
  { t with heap := t.heap.set ptr { e with value } }

def pushEntry (t : HashTable T) (key : List UInt8) (value : T) : HashTable T :=
  { t with
    heap := t.heap.insert ⟨t.table_ (t.pos key), key, value⟩
    table_ := Function.update t.table_ (t.pos key) (some t.heap.next)
    num_entries_ := t.num_entries_ + 1 }

/-- `Update`. None if `new char[len + 1]` fails or has no room for the string. -/
def Update (t : HashTable T) (key : List UInt8) (value : T) : Option (HashTable T) :=
  (t.lookup key).bind fun found =>
    match found with
    | some (_, ptr, e) => some (t.setValue ptr e value)
    | none =>
        if (strlenInt key + 1).toInt < key.length + 1 then none
        else some (t.pushEntry key value)

/-- `prev->next = ptr->next`, or the same for the table. -/
def unlink (t : HashTable T) (key : List UInt8) (e : HashEntry T) :
    Option Nat → Option (HashTable T)
  | none => some { t with table_ := Function.update t.table_ (t.pos key) e.next }
  | some prev =>
      (t.heap.get? prev).map fun pe =>
        { t with heap := t.heap.set prev { pe with next := e.next } }

/-- `delete ptr->key` and `delete ptr` -/
def delete (t : HashTable T) (ptr : Nat) : HashTable T := { t with heap := t.heap.remove ptr }

def Remove (t : HashTable T) (key : List UInt8) : Option (HashTable T × Bool) :=
  (t.lookup key).bind fun found =>
    match found with
    | some (prev, ptr, e) =>
        (t.unlink key e prev).map fun t => (t.delete ptr, true)
    | none => some (t, false)

def Find (t : HashTable T) (key : List UInt8) : Option T :=
  (t.lookup key).map fun found =>
    match found with
    | some (_, _, e) => e.value
    | none => t.default_value_

/-- The first index from `index` on with a chain, or the size. -/
def skip (t : HashTable T) : (left index : Nat) → Nat
  | 0, index => index
  | left + 1, index => if (t.table_ index).isSome then index else t.skip left (index + 1)

def GetFirst (t : HashTable T) : HashTable T × Option Nat :=
  let index := t.skip t.size_ 0
  let t := { t with current_index_ := index }
  if index = t.size_ then (t, none)
  else ({ t with current_ptr_ := t.table_ index }, t.table_ index)

/-- The second half of `GetNext`. None if the index is outside of the table. -/
def nextChain (t : HashTable T) : Option (HashTable T × Option Nat) :=
  let index := t.skip (t.size_ - t.current_index_) t.current_index_
  if t.size_ < index then none
  else if index = t.size_ then some ({ t with current_index_ := 0 }, none)
  else some ({ t with current_index_ := index, current_ptr_ := t.table_ index }, t.table_ index)

/-- `GetNext`; none if the current entry was deleted. -/
def GetNext (t : HashTable T) : Option (HashTable T × Option Nat) :=
  match t.current_ptr_ with
  | none => t.nextChain
  | some ptr =>
      (t.heap.get? ptr).bind fun e =>
        let t := { t with current_ptr_ := e.next }
        if e.next.isSome then some (t, e.next)
        else nextChain { t with current_index_ := t.current_index_ + 1 }

/-! ## The size -/

variable {size : BitVec 32}

theorem roundUpSize_endless (hsize : 2 ^ 30 < size.toInt) (fuel j : Nat) :
    roundUpSize size fuel (2#32 <<< j) = none := by
  induction fuel generalizing j with
  | zero => rfl
  | succ fuel ih =>
      have hle : (2#32 <<< j).toInt ≤ 2 ^ 30 := by
        rcases Nat.lt_or_ge j 32 with hj | hj
        · have hall : ∀ j < 32, (2#32 <<< j).toInt ≤ 2 ^ 30 := by decide
          exact hall j hj
        · rw [BitVec.shiftLeft_eq_zero hj]
          decide
      have hlt : (2#32 <<< j).slt size = true := by
        rw [BitVec.slt_eq_decide, decide_eq_true_eq]
        omega
      rw [roundUpSize, if_pos hlt, ← BitVec.shiftLeft_add]
      exact ih (j + 1)

theorem roundUpSize_ends (hsize : size.toInt ≤ 2 ^ 30) {j : Nat} (hj : j < 30) :
    ∃ k, k < 30 ∧ roundUpSize size (30 - j) (2#32 <<< j) = some (2#32 <<< k) := by
  induction h : 30 - j generalizing j with
  | zero => omega
  | succ fuel ih =>
      rw [roundUpSize]
      by_cases hlt : (2#32 <<< j).slt size = true
      · have hj' : j + 1 < 30 := by
          by_contra hge
          obtain rfl : j = 29 := by omega
          rw [BitVec.slt_eq_decide, decide_eq_true_eq] at hlt
          have h29 : (2#32 <<< 29).toInt = 2 ^ 30 := by decide
          omega
        rw [if_pos hlt, ← BitVec.shiftLeft_add]
        exact ih hj' (by omega)
      · exact ⟨j, hj, if_neg hlt⟩

theorem roundUpSize_unique {fuel fuel' : Nat} {pow2 a b : BitVec 32}
    (h : roundUpSize size fuel pow2 = some a) (h' : roundUpSize size fuel' pow2 = some b) :
    a = b := by
  induction fuel generalizing fuel' pow2 with
  | zero => cases h
  | succ fuel ih =>
      cases fuel' with
      | zero => cases h'
      | succ fuel' =>
          rw [roundUpSize] at h h'
          grind

end HashTable

end AndroidRenderer.Qtools
