import AndroidRenderer.Lib.Buckets
import AndroidRenderer.Qtools.HashTable

/-!
# The map of a hash table

A hash table stands for a map from strings to values. Whatever was done to the table before, an
iteration that begins with `GetFirst` meets each entry once.
-/

namespace AndroidRenderer.Qtools

namespace HashTable

open NodeList

variable {T : Type} {t t' : HashTable T} {heap : Registry (HashEntry T)} {chains : Nat → List Nat}
  {key : List UInt8} {m : List UInt8 → Option T} {e : HashEntry T} {i p fuel : Nat}

/-- The link of an entry that has not been deleted. -/
def nextOf (heap : Registry (HashEntry T)) (p : Nat) : Option Nat := (heap.get? p).bind (·.next)

theorem nextOf_eq (h : heap.get? p = some e) : nextOf heap p = e.next := by
  rw [nextOf, h, Option.bind_some]

/-- The key and the value of an entry that has not been deleted. -/
def entryOf (heap : Registry (HashEntry T)) (p : Nat) : Option (List UInt8 × T) :=
  (heap.get? p).map fun e => (e.key, e.value)

theorem nextOf_set (he : heap.get? p = some e) (e' : HashEntry T) :
    nextOf (heap.set p e') = Function.update (nextOf heap) p e'.next := by
  funext q
  rw [nextOf, Registry.get?_set, Function.update_apply, he]
  split <;> rfl

theorem entryOf_set (he : heap.get? p = some e) (e' : HashEntry T) :
    entryOf (heap.set p e') = Function.update (entryOf heap) p (some (e'.key, e'.value)) := by
  funext q
  rw [entryOf, Registry.get?_set, Function.update_apply, he]
  split <;> rfl

theorem nextOf_insert (heap : Registry (HashEntry T)) (e : HashEntry T) :
    nextOf (heap.insert e) = Function.update (nextOf heap) heap.next e.next := by
  funext q
  rw [nextOf, Registry.get?_insert, Function.update_apply]
  split <;> rfl

theorem entryOf_insert (heap : Registry (HashEntry T)) (e : HashEntry T) :
    entryOf (heap.insert e) = Function.update (entryOf heap) heap.next (some (e.key, e.value)) := by
  funext q
  rw [entryOf, Registry.get?_insert, Function.update_apply]
  split <;> rfl

theorem nextOf_remove (heap : Registry (HashEntry T)) (p : Nat) :
    nextOf (heap.remove p) = Function.update (nextOf heap) p none := by
  funext q
  rw [nextOf, Registry.get?_remove, Function.update_apply]
  split <;> rfl

theorem entryOf_remove (heap : Registry (HashEntry T)) (p : Nat) :
    entryOf (heap.remove p) = Function.update (entryOf heap) p none := by
  funext q
  rw [entryOf, Registry.get?_remove, Function.update_apply]
  split <;> rfl

def buckets (t : HashTable T) : Buckets Nat Nat (List UInt8) T where
  bucket := t.pos
  table := t.table_
  next := nextOf t.heap
  entry p := (t.heap.get? p).map fun e => (e.key, e.value)

theorem entry_eq (t : HashTable T) (p : Nat) :
    t.buckets.entry p = (t.heap.get? p).map fun e => (e.key, e.value) := rfl

/-- The chains of a table whose links and entries are known. -/
theorem buckets_eq (t : HashTable T) {next : Nat → Option Nat}
    {entry : Nat → Option (List UInt8 × T)} (hnext : nextOf t.heap = next)
    (hentry : entryOf t.heap = entry) : t.buckets = ⟨t.pos, t.table_, next, entry⟩ := by
  rw [← hnext, ← hentry]
  rfl

theorem buckets_entry (h : t.heap.get? p = some e) :
    t.buckets.entry p = some (e.key, e.value) := by
  rw [entry_eq, h, Option.map_some]

theorem heap_of_entry {value : T} (h : t.buckets.entry p = some (key, value)) :
    ∃ e, t.heap.get? p = some e ∧ e.key = key ∧ e.value = value := by
  obtain ⟨e, he, hpair⟩ := Option.map_eq_some_iff.mp h
  exact ⟨e, he, (Prod.ext_iff.mp hpair).1, (Prod.ext_iff.mp hpair).2⟩

/-- The table has the entries of a map on its chains. -/
structure Refines (t : HashTable T) (default_value : T) (m : List UInt8 → Option T) : Prop where
  mask : t.mask_.toNat < t.size_
  default_value : t.default_value_ = default_value
  chains : ∃ chains, t.buckets.Inv chains
  holds : t.buckets.Holds m

/-! ## Searching a chain -/

theorem search_spec (key : List UInt8) (prev : Option Nat) {ptr : Option Nat} {nodes : List Nat}
    (hchain : Chain (nextOf heap) ptr nodes) (hlive : ∀ p ∈ nodes, ∃ e, heap.get? p = some e)
    (hfuel : nodes.length ≤ fuel) :
    (search heap key fuel prev ptr = some none ∧
      ∀ p ∈ nodes, ∀ e, heap.get? p = some e → e.key ≠ key) ∨
    ∃ front p back e, nodes = front ++ p :: back ∧ heap.get? p = some e ∧ e.key = key ∧
      search heap key fuel prev ptr = some (some (front.getLast?.or prev, p, e)) := by
  induction nodes generalizing fuel prev ptr with
  | nil =>
      rw [show ptr = none from hchain]
      refine .inl ⟨?_, fun p hp => by cases hp⟩
      cases fuel <;> rfl
  | cons p nodes ih =>
      obtain ⟨rfl, hrest⟩ := hchain
      obtain ⟨e, he⟩ := hlive p List.mem_cons_self
      cases fuel with
      | zero => cases hfuel
      | succ fuel =>
          rw [search, he, Option.bind_some]
          by_cases hkey : e.key = key
          · rw [if_pos hkey]
            exact .inr ⟨[], p, nodes, e, rfl, he, hkey, rfl⟩
          · grind [nextOf_eq]

theorem live_of_mem (h : t.buckets.Inv chains) (hp : p ∈ chains i) :
    ∃ e, t.heap.get? p = some e := by
  obtain ⟨k, v, hentry⟩ := h.exists_entry hp
  obtain ⟨e, he, -⟩ := heap_of_entry hentry
  exact ⟨e, he⟩

theorem chain_length_le (h : t.buckets.Inv chains) (i : Nat) :
    (chains i).length ≤ t.heap.entries.length := by
  have hsub : chains i ⊆ t.heap.entries.map Prod.fst := by
    intro p hp
    obtain ⟨e, he⟩ := live_of_mem h hp
    exact List.mem_map.mpr ⟨(p, e), Registry.mem_entries_iff.mpr he, rfl⟩
  have hle := List.Nodup.length_le_of_subset (h.nodup i) hsub
  rwa [List.length_map] at hle

theorem lookup_spec (h : t.buckets.Inv chains) (key : List UInt8) :
    (t.lookup key = some none ∧ ∀ p v, t.buckets.entry p ≠ some (key, v)) ∨
    ∃ front p back e, chains (t.pos key) = front ++ p :: back ∧ t.heap.get? p = some e ∧
      e.key = key ∧ t.lookup key = some (some (front.getLast?, p, e)) := by
  rcases search_spec key none (h.chain (t.pos key)) (fun p hp => live_of_mem h hp)
    (chain_length_le h _) with ⟨hnone, hother⟩ | ⟨front, p, back, e, hsplit, he, hkey, hsome⟩
  · refine .inl ⟨hnone, fun p v hentry => ?_⟩
    obtain ⟨e, he, hkey, -⟩ := heap_of_entry hentry
    exact hother p (h.mem_of_entry hentry) e he hkey
  · rw [Option.or_none] at hsome
    exact .inr ⟨front, p, back, e, hsplit, he, hkey, hsome⟩

variable {default_value : T}

theorem Refines.Find (h : t.Refines default_value m) (key : List UInt8) :
    t.Find key = some ((m key).getD default_value) := by
  obtain ⟨chains, hinv⟩ := h.chains
  rcases lookup_spec hinv key with ⟨hnone, hother⟩ | ⟨front, p, back, e, -, he, rfl, hsome⟩
  · rw [HashTable.Find, hnone, ← h.default_value]
    cases hvalue : m key with
    | none => rfl
    | some value =>
        obtain ⟨p, hentry⟩ := (h.holds key value).mp hvalue
        exact absurd hentry (hother p value)
  · rw [HashTable.Find, hsome, (h.holds e.key e.value).mpr ⟨p, buckets_entry he⟩]
    rfl

/-! ## `Update` and `Remove` -/

theorem strlenInt_room (hkey : key.length < 2 ^ 31 - 1) :
    ¬(strlenInt key + 1).toInt < key.length + 1 := by
  have hone : (1 : BitVec 32) = BitVec.ofNat 32 1 := rfl
  rw [strlenInt, hone, ← BitVec.ofNat_add, BitVec.toInt_ofNat', Int.bmod_eq_of_le (by omega)
    (by omega)]
  omega

theorem setValue_buckets (he : t.heap.get? p = some e) (value : T) :
    (t.setValue p e value).buckets = t.buckets.set p e.key value := by
  have hnext : nextOf (t.heap.set p { e with value }) = nextOf t.heap := by
    rw [nextOf_set he, ← nextOf_eq he, Function.update_eq_self]
  exact buckets_eq (t.setValue p e value) hnext (entryOf_set he _)

@[simp] theorem pushEntry_buckets (t : HashTable T) (key : List UInt8) (value : T) :
    (t.pushEntry key value).buckets = t.buckets.insert t.heap.next key value :=
  buckets_eq (t.pushEntry key value) (nextOf_insert t.heap _) (entryOf_insert t.heap _)

theorem Refines.Update (h : t.Refines default_value m)
    (hkey : key.length < 2 ^ 31 - 1) (value : T) :
    ∃ t', t.Update key value = some t' ∧
      t'.Refines default_value (Function.update m key (some value)) := by
  obtain ⟨chains, hinv⟩ := h.chains
  rcases lookup_spec hinv key with ⟨hnone, hother⟩ | ⟨front, p, back, e, -, he, rfl, hsome⟩
  · have hnew : t.buckets.entry t.heap.next = none := by
      rw [entry_eq, Registry.get?_next, Option.map_none]
    have hrun : t.Update key value = some (t.pushEntry key value) := by
      rw [HashTable.Update, hnone]
      exact if_neg (strlenInt_room hkey)
    refine ⟨_, hrun, h.mask, h.default_value, ?_, ?_⟩ <;> rw [pushEntry_buckets]
    · exact ⟨_, hinv.insert hnew hother value⟩
    · exact h.holds.insert hnew hother value
  · have hrun : t.Update e.key value = some (t.setValue p e value) := by
      rw [HashTable.Update, hsome]
      rfl
    refine ⟨_, hrun, h.mask, h.default_value, ?_, ?_⟩ <;> rw [setValue_buckets he]
    · exact ⟨chains, hinv.set (buckets_entry he) value⟩
    · exact Buckets.Holds.set hinv h.holds (buckets_entry he) value

/-- The entry is unlinked by its predecessor, or by the table, and deleted. -/
theorem remove_buckets (h : t.buckets.Inv chains) {front back : List Nat}
    (hsplit : chains (t.pos e.key) = front ++ p :: back) (he : t.heap.get? p = some e) :
    ∃ t', t.unlink e.key e front.getLast? = some t' ∧
      (t'.delete p).buckets = t.buckets.erase p e.key front.getLast? ∧
      t'.mask_ = t.mask_ ∧ t'.size_ = t.size_ ∧ t'.default_value_ = t.default_value_ := by
  have hnext : t.buckets.next p = e.next := nextOf_eq he
  cases hprev : front.getLast? with
  | none =>
      refine ⟨_, rfl, ?_, rfl, rfl, rfl⟩
      rw [Buckets.erase, hnext]
      exact buckets_eq _ (nextOf_remove t.heap p) (entryOf_remove t.heap p)
  | some prev =>
      have hmem : prev ∈ chains (t.pos e.key) := by grind
      obtain ⟨pe, hpe⟩ := live_of_mem h hmem
      have hrun : t.unlink e.key e (some prev) =
          some { t with heap := t.heap.set prev { pe with next := e.next } } := by
        rw [unlink, hpe]
        rfl
      refine ⟨_, hrun, ?_, rfl, rfl, rfl⟩
      have hentry : entryOf (t.heap.set prev { pe with next := e.next }) = entryOf t.heap := by
        have hpair : entryOf t.heap prev = some (pe.key, pe.value) := buckets_entry hpe
        rw [entryOf_set hpe, ← hpair, Function.update_eq_self]
      rw [Buckets.erase, hnext]
      refine buckets_eq _ ((nextOf_remove _ p).trans ?_) ((entryOf_remove _ p).trans ?_)
      · rw [nextOf_set hpe]
        rfl
      · rw [hentry]
        rfl

theorem Refines.Remove (h : t.Refines default_value m) (key : List UInt8) :
    ∃ t' removed, t.Remove key = some (t', removed) ∧
      t'.Refines default_value (Function.update m key none) := by
  obtain ⟨chains, hinv⟩ := h.chains
  rcases lookup_spec hinv key with ⟨hnone, hother⟩ | ⟨front, p, back, e, hsplit, he, rfl, hsome⟩
  · have hrun : t.Remove key = some (t, false) := by
      rw [HashTable.Remove, hnone]
      rfl
    have hkey : m key = none := by
      cases hvalue : m key with
      | none => rfl
      | some value =>
          obtain ⟨p, hentry⟩ := (h.holds key value).mp hvalue
          exact absurd hentry (hother p value)
    refine ⟨t, false, hrun, ?_⟩
    rwa [← hkey, Function.update_eq_self]
  · obtain ⟨t', hunlink, hbuckets, hmask, hsize, hdefault⟩ := remove_buckets hinv hsplit he
    have hrun : t.Remove e.key = some (t'.delete p, true) := by
      simp [HashTable.Remove, hsome, hunlink]
    refine ⟨_, _, hrun, ?_, ?_, ?_, ?_⟩
    · change t'.mask_.toNat < t'.size_
      rw [hmask, hsize]
      exact h.mask
    · exact hdefault.trans h.default_value
    · rw [hbuckets]
      exact ⟨_, hinv.erase (buckets_entry he) hsplit⟩
    · rw [hbuckets]
      exact Buckets.Holds.erase hinv h.holds (buckets_entry he) _

/-! ## Iterations -/

/-- The entries that are returned until there are no more. -/
def collect : (fuel : Nat) → HashTable T → Option Nat → Option (HashTable T × List Nat)
  | _, t, none => some (t, [])
  | 0, _, some _ => none
  | fuel + 1, t, some p =>
      t.GetNext.bind fun r => (collect fuel r.1 r.2).map fun out => (out.1, p :: out.2)

/-- `GetFirst`, and `GetNext` until it returns no entry. -/
def iterate (t : HashTable T) (fuel : Nat) : Option (HashTable T × List Nat) :=
  collect fuel t.GetFirst.1 t.GetFirst.2

/-- The iteration is given up after some entries. -/
def walk : (steps : Nat) → HashTable T → Option Nat → Option (HashTable T)
  | 0, t, _ => some t
  | _ + 1, t, none => some t
  | steps + 1, t, some _ => t.GetNext.bind fun r => walk steps r.1 r.2

/-- Only the place of the iteration has moved. -/
def moved (t : HashTable T) (index : Nat) (ptr : Option Nat) : HashTable T :=
  { t with current_index_ := index, current_ptr_ := ptr }

theorem Refines.moved (h : t.Refines default_value m) (index : Nat)
    (ptr : Option Nat) : (t.moved index ptr).Refines default_value m :=
  ⟨h.mask, h.default_value, h.chains, h.holds⟩

def restFrom (t : HashTable T) (chains : Nat → List Nat) (index : Nat) : List Nat :=
  (List.range' index (t.size_ - index)).flatMap chains

theorem restFrom_of_lt (chains : Nat → List Nat) {index : Nat} (h : index < t.size_) :
    t.restFrom chains index = chains index ++ t.restFrom chains (index + 1) := by
  have hleft : t.size_ - index = t.size_ - (index + 1) + 1 := by omega
  rw [restFrom, hleft, List.range'_succ, List.flatMap_cons]
  rfl

theorem restFrom_size (t : HashTable T) (chains : Nat → List Nat) :
    t.restFrom chains t.size_ = [] := by
  rw [restFrom, Nat.sub_self]
  rfl

theorem skip_spec (h : t.buckets.Inv chains) (left index : Nat)
    (hleft : index + left = t.size_) :
    t.skip left index ≤ t.size_ ∧
      t.restFrom chains index = t.restFrom chains (t.skip left index) ∧
      (t.skip left index ≠ t.size_ → (t.table_ (t.skip left index)).isSome) := by
  induction left generalizing index with
  | zero => grind [skip]
  | succ left ih =>
      rw [skip]
      split
      · exact ⟨by omega, rfl, fun _ => ‹_›⟩
      · rename_i hnone
        obtain ⟨hle, hrest, hsome⟩ := ih (index + 1) (by omega)
        refine ⟨hle, ?_, hsome⟩
        have hchain := h.chain index
        have hempty : chains index = [] := by
          cases hnodes : chains index with
          | nil => rfl
          | cons p nodes =>
              rw [hnodes] at hchain
              exact absurd (by rw [show t.table_ index = some p from hchain.1]; rfl) hnone
        rw [restFrom_of_lt chains (by omega), hempty, List.nil_append, hrest]

/-- The iteration is at an entry, and the others come behind it. -/
def AtEntry (t : HashTable T) (chains : Nat → List Nat) (p : Nat) (todo : List Nat) : Prop :=
  ∃ front back, t.current_ptr_ = some p ∧ t.current_index_ < t.size_ ∧
    chains t.current_index_ = front ++ p :: back ∧
    todo = back ++ t.restFrom chains (t.current_index_ + 1)

/-- An entry is returned that is the first of those to come, or none if there are none. -/
def Visits (t : HashTable T) (chains : Nat → List Nat) (found : Option Nat)
    (todo : List Nat) : Prop :=
  (found = none ∧ todo = []) ∨
    ∃ p rest, found = some p ∧ todo = p :: rest ∧ t.AtEntry chains p rest

/-- The iteration goes on with the first entry of a chain. -/
theorem visits_chain (h : t.buckets.Inv chains) {index : Nat} (hlt : index < t.size_)
    (hsome : (t.table_ index).isSome) :
    (t.moved index (t.table_ index)).Visits chains (t.table_ index)
      (t.restFrom chains index) := by
  obtain ⟨p, hp⟩ := Option.isSome_iff_exists.mp hsome
  have hchain := h.chain index
  rw [restFrom_of_lt chains hlt, hp]
  cases hnodes : chains index with
  | nil =>
      rw [hnodes] at hchain
      exact absurd (hchain.symm.trans hp) (by simp only [reduceCtorEq, not_false_eq_true])
  | cons q back =>
      rw [hnodes] at hchain
      obtain rfl := Option.some.inj (hp.symm.trans hchain.1)
      exact .inr ⟨p, _, rfl, rfl, [], back, rfl, hlt, hnodes, rfl⟩

theorem nextChain_spec (h : t.buckets.Inv chains) (hle : t.current_index_ ≤ t.size_) :
    ∃ index ptr found, t.nextChain = some (t.moved index ptr, found) ∧
      (t.moved index ptr).Visits chains found (t.restFrom chains t.current_index_) := by
  obtain ⟨hskip, hrest, hsome⟩ := skip_spec h (t.size_ - t.current_index_) t.current_index_
    (by omega)
  rw [nextChain, if_neg (Nat.not_lt_of_le hskip), hrest]
  by_cases hend : t.skip (t.size_ - t.current_index_) t.current_index_ = t.size_
  · rw [if_pos hend, hend, restFrom_size]
    exact ⟨0, t.current_ptr_, none, rfl, .inl ⟨rfl, rfl⟩⟩
  · rw [if_neg hend]
    exact ⟨_, _, _, rfl, visits_chain h (Nat.lt_of_le_of_ne hskip hend) (hsome hend)⟩

theorem GetFirst_spec (h : t.buckets.Inv chains) :
    ∃ index ptr found, t.GetFirst = (t.moved index ptr, found) ∧
      (t.moved index ptr).Visits chains found (t.restFrom chains 0) := by
  obtain ⟨hskip, hrest, hsome⟩ := skip_spec h t.size_ 0 (Nat.zero_add _)
  rw [GetFirst, hrest]
  by_cases hend : t.skip t.size_ 0 = t.size_
  · rw [if_pos hend, hend, restFrom_size]
    exact ⟨t.size_, t.current_ptr_, none, rfl, .inl ⟨rfl, rfl⟩⟩
  · rw [if_neg hend]
    exact ⟨_, _, _, rfl, visits_chain h (Nat.lt_of_le_of_ne hskip hend) (hsome hend)⟩

theorem GetNext_spec (h : t.buckets.Inv chains) {todo : List Nat}
    (hat : t.AtEntry chains p todo) :
    ∃ index ptr found, t.GetNext = some (t.moved index ptr, found) ∧
      (t.moved index ptr).Visits chains found todo := by
  obtain ⟨front, back, hptr, hlt, hsplit, rfl⟩ := hat
  have hmem : p ∈ chains t.current_index_ := by simp [hsplit]
  obtain ⟨e, he⟩ := live_of_mem h hmem
  have hchain := h.chain t.current_index_
  rw [hsplit] at hchain
  have hnext : Chain t.buckets.next e.next back := by
    rw [← nextOf_eq he]
    exact hchain.of_append_cons
  have hrun : t.GetNext = if e.next.isSome then
      some (t.moved t.current_index_ e.next, e.next)
      else (t.moved (t.current_index_ + 1) e.next).nextChain := by
    rw [GetNext, hptr]
    change (t.heap.get? p).bind _ = _
    rw [he]
    rfl
  rw [hrun]
  cases back with
  | nil =>
      rw [show e.next = none from hnext]
      exact nextChain_spec (t := t.moved (t.current_index_ + 1) none) h hlt
  | cons q back =>
      rw [hnext.1]
      refine ⟨_, _, _, rfl, .inr ⟨q, _, rfl, rfl, front ++ [p], back, rfl, hlt, ?_, rfl⟩⟩
      rw [List.append_assoc]
      exact hsplit

theorem collect_spec (h : t.buckets.Inv chains) {found : Option Nat} {todo : List Nat}
    (hvisits : t.Visits chains found todo) (hfuel : todo.length ≤ fuel) :
    ∃ index ptr, collect fuel t found = some (t.moved index ptr, todo) := by
  induction todo generalizing t found fuel with
  | nil =>
      rcases hvisits with ⟨rfl, -⟩ | ⟨p, rest, -, hcons, -⟩
      · refine ⟨t.current_index_, t.current_ptr_, ?_⟩
        cases fuel <;> rfl
      · cases hcons
  | cons q todo ih =>
      rcases hvisits with ⟨-, hnil⟩ | ⟨p, rest, rfl, hcons, hat⟩
      · cases hnil
      obtain ⟨rfl, rfl⟩ := List.cons.inj hcons
      cases fuel with
      | zero => cases hfuel
      | succ fuel =>
          obtain ⟨index, ptr, found, hrun, hvisits⟩ := GetNext_spec h hat
          obtain ⟨index', ptr', hrest⟩ :=
            ih (t := t.moved index ptr) h hvisits (Nat.le_of_succ_le_succ hfuel)
          refine ⟨index', ptr', ?_⟩
          rw [collect, hrun, Option.bind_some, hrest]
          rfl

theorem walk_spec (h : t.buckets.Inv chains) {found : Option Nat} {todo : List Nat}
    (hvisits : t.Visits chains found todo) (steps : Nat) :
    ∃ index ptr, walk steps t found = some (t.moved index ptr) := by
  induction steps generalizing t found todo with
  | zero => exact ⟨t.current_index_, t.current_ptr_, rfl⟩
  | succ steps ih =>
      rcases hvisits with ⟨rfl, -⟩ | ⟨p, rest, rfl, -, hat⟩
      · exact ⟨t.current_index_, t.current_ptr_, rfl⟩
      · obtain ⟨index, ptr, found, hrun, hvisits⟩ := GetNext_spec h hat
        obtain ⟨index', ptr', hrest⟩ := ih (t := t.moved index ptr) h hvisits
        refine ⟨index', ptr', ?_⟩
        rw [walk, hrun, Option.bind_some, hrest]
        rfl

/-- What is asked of a table that stands for a map: the values are found, and an iteration meets
each entry once, and again if it is repeated. -/
structure Correct (t : HashTable T) (default_value : T) (m : List UInt8 → Option T) : Prop where
  find : ∀ key, t.Find key = some ((m key).getD default_value)
  entries : ∀ key value, m key = some value ↔
    ∃ p e, t.heap.get? p = some e ∧ e.key = key ∧ e.value = value
  distinct : ∀ p q e e', t.heap.get? p = some e → t.heap.get? q = some e' → e.key = e'.key → p = q
  iterate : ∃ fuel t' t'' ps, t.iterate fuel = some (t', ps) ∧ t'.iterate fuel = some (t'', ps) ∧
    ps.Nodup ∧ ∀ p, p ∈ ps ↔ ∃ e, t.heap.get? p = some e

/-- The entries in the order of the iteration. -/
theorem restFrom_entries (h : t.buckets.Inv chains) (hmask : t.mask_.toNat < t.size_) :
    (t.restFrom chains 0).Nodup ∧
      ∀ p, p ∈ t.restFrom chains 0 ↔ ∃ e, t.heap.get? p = some e := by
  rw [restFrom, Nat.sub_zero, ← List.range_eq_range']
  constructor
  · refine List.nodup_flatMap.mpr ⟨fun i _ => h.nodup i, ?_⟩
    refine List.nodup_range.imp fun {i j} hne p hi hj => ?_
    obtain ⟨k, v, hentry⟩ := h.exists_entry hi
    exact hne ((h.bucket_eq hentry hi).trans (h.bucket_eq hentry hj).symm)
  · intro p
    rw [List.mem_flatMap]
    constructor
    · rintro ⟨i, -, hp⟩
      exact live_of_mem h hp
    · rintro ⟨e, he⟩
      refine ⟨t.pos e.key, List.mem_range.mpr ?_, h.mem_of_entry (buckets_entry he)⟩
      have hle : (HashFunction e.key &&& t.mask_).toNat ≤ t.mask_.toNat := by
        rw [BitVec.toNat_and]
        exact Nat.and_le_right
      exact Nat.lt_of_le_of_lt hle hmask

theorem Refines.correct (h : t.Refines default_value m) :
    t.Correct default_value m := by
  obtain ⟨chains, hinv⟩ := h.chains
  obtain ⟨hnodup, hmem⟩ := restFrom_entries hinv h.mask
  refine ⟨h.Find, fun key value => ?_, fun p q e e' he he' hkey => ?_, ?_⟩
  · rw [h.holds key value]
    constructor
    · rintro ⟨p, hentry⟩
      obtain ⟨e, he, hpair⟩ := heap_of_entry hentry
      exact ⟨p, e, he, hpair⟩
    · rintro ⟨p, e, he, rfl, rfl⟩
      exact ⟨p, buckets_entry he⟩
  · have hq := buckets_entry he'
    rw [← hkey] at hq
    exact hinv.inj p q e.key e.value e'.value (buckets_entry he) hq
  · obtain ⟨index, ptr, found, hfirst, hvisits⟩ := GetFirst_spec hinv
    have hfuel := Nat.le_refl (t.restFrom chains 0).length
    obtain ⟨index', ptr', hrest⟩ := collect_spec (t := t.moved index ptr) hinv hvisits hfuel
    obtain ⟨index₂, ptr₂, found₂, hfirst₂, hvisits₂⟩ :=
      GetFirst_spec (t := t.moved index' ptr') hinv
    obtain ⟨index₃, ptr₃, hrest₂⟩ :=
      collect_spec (t := t.moved index₂ ptr₂) hinv hvisits₂ hfuel
    refine ⟨(t.restFrom chains 0).length, t.moved index' ptr', t.moved index₃ ptr₃,
      t.restFrom chains 0, ?_, ?_, hnodup, hmem⟩
    · rw [HashTable.iterate, hfirst]
      exact hrest
    · rw [HashTable.iterate, hfirst₂]
      exact hrest₂

end HashTable

/-! ## Runs -/

/-- A call of a member of `HashTable`; an iteration is `GetFirst` and at most `steps` calls of
`GetNext`, which ends when no entry is returned. -/
inductive HashCall (T : Type)
  | update (key : List UInt8) (value : T)
  | remove (key : List UInt8)
  | find (key : List UInt8)
  | iterate (steps : Nat)

namespace HashCall

open HashTable

variable {T : Type} {t : HashTable T} {m : List UInt8 → Option T}

def run (t : HashTable T) : HashCall T → Option (HashTable T)
  | update key value => t.Update key value
  | remove key => (t.Remove key).map Prod.fst
  | find key => (t.Find key).map fun _ => t
  | iterate steps => HashTable.walk steps t.GetFirst.1 t.GetFirst.2

def effect (m : List UInt8 → Option T) : HashCall T → List UInt8 → Option T
  | update key value => Function.update m key (some value)
  | remove key => Function.update m key none
  | find _ => m
  | iterate _ => m

/-- The string that is stored has room in an `int`. -/
def Short : HashCall T → Prop
  | update key _ => key.length < 2 ^ 31 - 1
  | remove _ => True
  | find _ => True
  | iterate _ => True

variable {default_value : T}

theorem run_refines (h : t.Refines default_value m) {c : HashCall T}
    (hc : c.Short) : ∃ t', c.run t = some t' ∧ t'.Refines default_value (c.effect m) := by
  cases c with
  | update key value => exact h.Update hc value
  | remove key =>
      obtain ⟨t', removed, hrun, hrefines⟩ := h.Remove key
      exact ⟨t', by rw [run, hrun]; rfl, hrefines⟩
  | find key => exact ⟨t, by rw [run, h.Find]; rfl, h⟩
  | iterate steps =>
      obtain ⟨chains, hinv⟩ := h.chains
      obtain ⟨index, ptr, found, hfirst, hvisits⟩ := GetFirst_spec hinv
      obtain ⟨index', ptr', hwalk⟩ := walk_spec (t := t.moved index ptr) hinv hvisits steps
      refine ⟨t.moved index' ptr', ?_, h.moved index' ptr'⟩
      rw [run, hfirst]
      exact hwalk

/-- A string that has no room is not in the map, and cannot be put there. -/
theorem run_of_not_short (h : t.Refines default_value m)
    (hm : ∀ key, 2 ^ 31 - 1 ≤ key.length → m key = none) {c : HashCall T} (hc : ¬c.Short) :
    c.run t = none := by
  cases c with
  | update key value =>
      have hlong : 2 ^ 31 - 1 ≤ key.length := Nat.le_of_not_lt hc
      obtain ⟨chains, hinv⟩ := h.chains
      rcases lookup_spec hinv key with ⟨hnone, -⟩ | ⟨front, p, back, e, -, he, rfl, -⟩
      · grind [run, Update]
      · have hsome := (h.holds e.key e.value).mpr ⟨p, buckets_entry he⟩
        grind
  | remove key => exact absurd trivial hc
  | find key => exact absurd trivial hc
  | iterate steps => exact absurd trivial hc

theorem effect_long {c : HashCall T} (hm : ∀ key, 2 ^ 31 - 1 ≤ key.length → m key = none)
    (hc : c.Short) (key : List UInt8) (hkey : 2 ^ 31 - 1 ≤ key.length) :
    c.effect m key = none := by
  cases c with
  | update key' value =>
      rw [effect, Function.update_of_ne, hm key hkey]
      rintro rfl
      exact absurd hc (Nat.not_lt_of_le hkey)
  | remove key' =>
      rw [effect, Function.update_apply]
      grind
  | find key' => exact hm key hkey
  | iterate steps => exact hm key hkey

/-- The runs that go through are those whose stored strings have room. -/
theorem foldlM_run (calls : List (HashCall T)) (h : t.Refines default_value m)
    (hm : ∀ key, 2 ^ 31 - 1 ≤ key.length → m key = none) :
    (∃ t', calls.foldlM run t = some t' ∧ t'.Refines default_value (calls.foldl effect m)) ∧
        (∀ c ∈ calls, c.Short) ∨
      calls.foldlM run t = none ∧ ¬∀ c ∈ calls, c.Short := by
  induction calls generalizing t m with
  | nil => exact .inl ⟨⟨t, rfl, h⟩, fun c hc => by cases hc⟩
  | cons c calls ih =>
      rw [List.foldlM_cons]
      by_cases hc : c.Short
      · obtain ⟨t₁, hrun, hrefines⟩ := run_refines h hc
        grind [effect_long]
      · grind [run_of_not_short]

end HashCall

namespace HashTable

variable {T : Type}

/-- A new table goes through the calls, and stands for the map that they make. -/
def Meets (size : BitVec 32) (default_value : T) (calls : List (HashCall T)) : Prop :=
  ∃ fuel t t', new fuel size default_value = some t ∧ calls.foldlM HashCall.run t = some t' ∧
    t'.Correct default_value (calls.foldl HashCall.effect fun _ => none)

theorem new_refines {size : BitVec 32} (hsize : size.toInt ≤ 2 ^ 30) (default_value : T) :
    ∃ t, new 30 size default_value = some t ∧ t.Refines default_value fun _ => none := by
  obtain ⟨k, hk, hround⟩ := roundUpSize_ends hsize (j := 0) (by decide)
  have hrun : roundUpSize size 30 2 = some (2#32 <<< k) := hround
  refine ⟨_, by rw [new, hrun]; rfl, ?_, rfl, ⟨fun _ => [], ?_⟩, ?_⟩
  · have hall : ∀ k < 30, (2#32 <<< k - 1).toNat < (2#32 <<< k).toNat := by decide
    exact hall k hk
  · refine ⟨fun i => rfl, fun i => List.nodup_nil, fun i p => ?_, fun p q k v w h => by cases h⟩
    refine iff_of_false (fun hmem => by cases hmem) ?_
    rintro ⟨k, v, hentry, -⟩
    cases hentry
  · refine fun key value => iff_of_false (fun hnone => by cases hnone) ?_
    rintro ⟨p, hentry⟩
    cases hentry

theorem new_unique {size : BitVec 32} {default_value : T} {fuel fuel' : Nat} {t t' : HashTable T}
    (h : new fuel size default_value = some t) (h' : new fuel' size default_value = some t') :
    t = t' := by
  obtain ⟨pow2, hround, rfl⟩ := Option.map_eq_some_iff.mp h
  obtain ⟨pow2', hround', rfl⟩ := Option.map_eq_some_iff.mp h'
  rw [roundUpSize_unique hround hround']

/-- The table is a map exactly if its size can be rounded up to a power of two and the keys that
are stored are no longer than an `int` counts. -/
theorem meets_iff (size : BitVec 32) (default_value : T) (calls : List (HashCall T)) :
    Meets size default_value calls ↔ size.toInt ≤ 2 ^ 30 ∧ ∀ c ∈ calls, c.Short := by
  by_cases hsize : size.toInt ≤ 2 ^ 30
  · obtain ⟨t, hnew, hrefines⟩ := new_refines hsize default_value
    rcases HashCall.foldlM_run calls hrefines fun _ _ => rfl with
      ⟨⟨t', hrun, hrefines'⟩, hshort⟩ | ⟨hnone, hlong⟩
    · exact iff_of_true ⟨30, t, t', hnew, hrun, hrefines'.correct⟩ ⟨hsize, hshort⟩
    · refine iff_of_false ?_ fun h => hlong h.2
      rintro ⟨fuel, t₁, t', hnew', hrun, -⟩
      rw [← new_unique hnew hnew', hnone] at hrun
      cases hrun
  · refine iff_of_false ?_ fun h => hsize h.1
    rintro ⟨fuel, t, t', hnew, -⟩
    have hendless := roundUpSize_endless (Int.not_le.mp hsize) fuel 0
    rw [new, show roundUpSize size fuel 2 = none from hendless] at hnew
    cases hnew

/-- The size of a table with more than 2^30 entries is never found. -/
theorem large_endless :
    ¬∀ (size : BitVec 32) (default_value : Nat) (calls : List (HashCall Nat)),
      Meets size default_value calls := by
  intro h
  obtain ⟨fuel, t, t', hnew, -⟩ := h 0x40000001 0 []
  have hsize : 2 ^ 30 < (0x40000001 : BitVec 32).toInt := by decide
  have hendless := roundUpSize_endless hsize fuel 0
  rw [new, show roundUpSize 0x40000001 fuel 2 = none from hendless] at hnew
  cases hnew

end HashTable

end AndroidRenderer.Qtools
