import AndroidRenderer.Lib.NodeList
import Mathlib.Data.List.Nodup

/-!
# Maps on chains

A map is kept as entries on chains. Each key has a bucket, and the entry of the key, if there is
one, is on the chain of that bucket. `Inv b chains` says which chains the table of buckets and the
links between the entries make; an entry is inserted at the front of a chain and may be unlinked
from the middle.
-/

/-- Entries `ν` with keys `κ` and values `α`; `table` has the first entry of each bucket. -/
structure Buckets (ι ν κ α : Type) where
  bucket : κ → ι
  table : ι → Option ν
  next : ν → Option ν
  entry : ν → Option (κ × α)

namespace Buckets

open NodeList

variable {ι ν κ α : Type} {b : Buckets ι ν κ α} {chains : ι → List ν} {m : κ → Option α}
  {p q : ν} {i : ι} {k : κ} {v w : α} {front back : List ν}

/-- Each entry is on the chain of its key once, and no two entries have one key. -/
structure Inv (b : Buckets ι ν κ α) (chains : ι → List ν) : Prop where
  chain : ∀ i, Chain b.next (b.table i) (chains i)
  nodup : ∀ i, (chains i).Nodup
  mem : ∀ i p, p ∈ chains i ↔ ∃ k v, b.entry p = some (k, v) ∧ b.bucket k = i
  inj : ∀ p q k v w, b.entry p = some (k, v) → b.entry q = some (k, w) → p = q

/-- The entries are those of the map. -/
def Holds (b : Buckets ι ν κ α) (m : κ → Option α) : Prop :=
  ∀ k v, m k = some v ↔ ∃ p, b.entry p = some (k, v)

theorem Inv.mem_of_entry (h : b.Inv chains) (hp : b.entry p = some (k, v)) :
    p ∈ chains (b.bucket k) :=
  (h.mem _ p).mpr ⟨k, v, hp, rfl⟩

theorem Inv.exists_entry (h : b.Inv chains) (hp : p ∈ chains i) :
    ∃ k v, b.entry p = some (k, v) := by
  obtain ⟨k, v, hp, -⟩ := (h.mem i p).mp hp
  exact ⟨k, v, hp⟩

theorem Inv.bucket_eq (h : b.Inv chains) (hp : b.entry p = some (k, v)) (hmem : p ∈ chains i) :
    i = b.bucket k := by
  obtain ⟨k', v', hp', hi⟩ := (h.mem i p).mp hmem
  grind

variable [DecidableEq ν]

/-- One entry has become that of a key. -/
theorem Holds.replace [DecidableEq κ] {b' : Buckets ι ν κ α} (hm : b.Holds m)
    (hentry : ∀ q, b'.entry q = if q = p then some (k, v) else b.entry q)
    (hother : ∀ q w, b.entry q = some (k, w) → q = p)
    (hkey : ∀ k' w, b.entry p = some (k', w) → k' = k) :
    b'.Holds (Function.update m k (some v)) := by
  intro k' v'
  rw [Function.update_apply]
  split
  · rename_i hk
    subst hk
    constructor
    · intro hv
      exact ⟨p, by rw [hentry, if_pos rfl, Option.some.inj hv]⟩
    · grind
  · rename_i hk
    rw [hm k' v']
    grind

/-! ## Another value for a key -/

def set (b : Buckets ι ν κ α) (p : ν) (k : κ) (v : α) : Buckets ι ν κ α :=
  { b with entry := Function.update b.entry p (some (k, v)) }

@[grind =] theorem set_entry (b : Buckets ι ν κ α) (p : ν) (k : κ) (v : α) (q : ν) :
    (b.set p k v).entry q = if q = p then some (k, v) else b.entry q :=
  Function.update_apply _ _ _ _

theorem Inv.set (h : b.Inv chains) (hp : b.entry p = some (k, w)) (v : α) :
    (b.set p k v).Inv chains := by
  have hiff : ∀ q k', (∃ v', (b.set p k v).entry q = some (k', v')) ↔
      ∃ v', b.entry q = some (k', v') := by
    intro q k'
    rw [set_entry]
    grind
  refine ⟨h.chain, h.nodup, fun i q => ?_, fun q r k' v' w' hq hr => ?_⟩
  · rw [h.mem i q]
    simp only [exists_and_right]
    constructor
    · rintro ⟨k', hq, hi⟩
      exact ⟨k', (hiff q k').mpr hq, hi⟩
    · rintro ⟨k', hq, hi⟩
      exact ⟨k', (hiff q k').mp hq, hi⟩
  · obtain ⟨v'', hq⟩ := (hiff q k').mp ⟨v', hq⟩
    obtain ⟨w'', hr⟩ := (hiff r k').mp ⟨w', hr⟩
    exact h.inj q r k' v'' w'' hq hr

theorem Holds.set [DecidableEq κ] (h : b.Inv chains) (hm : b.Holds m)
    (hp : b.entry p = some (k, w)) (v : α) :
    (b.set p k v).Holds (Function.update m k (some v)) := by
  refine hm.replace (set_entry b p k v) (fun q w' hq => h.inj q p k w' w hq hp) fun k' w' hk' => ?_
  exact (Prod.ext_iff.mp (Option.some.inj (hk'.symm.trans hp))).1

/-! ## A new key -/

variable [DecidableEq ι]

/-- The entry is linked in at the front. -/
def insert (b : Buckets ι ν κ α) (p : ν) (k : κ) (v : α) : Buckets ι ν κ α :=
  { b with
    entry := Function.update b.entry p (some (k, v))
    next := Function.update b.next p (b.table (b.bucket k))
    table := Function.update b.table (b.bucket k) (some p) }

@[grind =] theorem insert_entry (b : Buckets ι ν κ α) (p : ν) (k : κ) (v : α) (q : ν) :
    (b.insert p k v).entry q = if q = p then some (k, v) else b.entry q :=
  Function.update_apply _ _ _ _

theorem Inv.insert (h : b.Inv chains) (hp : b.entry p = none)
    (hk : ∀ q v, b.entry q ≠ some (k, v)) (v : α) :
    (b.insert p k v).Inv
      (Function.update chains (b.bucket k) (p :: chains (b.bucket k))) := by
  have hnew : ∀ i, p ∉ chains i := by
    intro i hmem
    grind [h.exists_entry]
  refine ⟨fun i => ?_, fun i => ?_, fun i q => ?_, fun q r k' v' w' hq hr => ?_⟩
  · unfold Buckets.insert
    dsimp only
    rw [Function.update_apply, Function.update_apply]
    split
    · exact (h.chain _).push (hnew _)
    · exact (h.chain i).update (hnew i) _
  · grind [h.nodup]
  · rw [Function.update_apply, insert_entry]
    change _ ↔ ∃ k' v', _ ∧ b.bucket k' = i
    by_cases heq : q = p
    · subst heq
      grind
    · rw [if_neg heq, ← h.mem i q]
      grind
  · rw [insert_entry] at hq hr
    split at hq <;> split at hr
    · grind
    · obtain ⟨rfl, -⟩ := Prod.ext_iff.mp (Option.some.inj hq)
      exact absurd hr (hk r w')
    · obtain ⟨rfl, -⟩ := Prod.ext_iff.mp (Option.some.inj hr)
      exact absurd hq (hk q v')
    · exact h.inj q r k' v' w' hq hr

theorem Holds.insert [DecidableEq κ] (hm : b.Holds m) (hp : b.entry p = none)
    (hk : ∀ q v, b.entry q ≠ some (k, v)) (v : α) :
    (b.insert p k v).Holds (Function.update m k (some v)) := by
  refine hm.replace (insert_entry b p k v) (fun q w hq => absurd hq (hk q w)) fun k' w hk' => ?_
  rw [hp] at hk'
  cases hk'

/-! ## A key less -/

/-- The entry behind `prev`, or the first one of its bucket, is unlinked and deleted. -/
def erase (b : Buckets ι ν κ α) (p : ν) (k : κ) : Option ν → Buckets ι ν κ α
  | none =>
      { b with
        entry := Function.update b.entry p none
        next := Function.update b.next p none
        table := Function.update b.table (b.bucket k) (b.next p) }
  | some prev =>
      { b with
        entry := Function.update b.entry p none
        next := Function.update (Function.update b.next prev (b.next p)) p none }

@[grind =] theorem erase_entry (b : Buckets ι ν κ α) (p : ν) (k : κ) (prev : Option ν) (q : ν) :
    (b.erase p k prev).entry q = if q = p then none else b.entry q := by
  cases prev <;> exact Function.update_apply _ _ _ _

@[simp] theorem erase_bucket (b : Buckets ι ν κ α) (p : ν) (k : κ) (prev : Option ν) :
    (b.erase p k prev).bucket = b.bucket := by
  cases prev <;> rfl

theorem Inv.erase_chain (h : b.Inv chains) (hp : b.entry p = some (k, v))
    (hsplit : chains (b.bucket k) = front ++ p :: back) (i : ι) :
    Chain (b.erase p k front.getLast?).next ((b.erase p k front.getLast?).table i)
      (Function.update chains (b.bucket k) (front ++ back) i) := by
  have hnodup := h.nodup (b.bucket k)
  rw [hsplit] at hnodup
  have hrest : p ∉ front ++ back := (List.nodup_middle.mp hnodup).notMem
  have hother : ∀ q ∈ chains (b.bucket k), ∀ j ≠ b.bucket k, q ∉ chains j := by grind [h.mem]
  have hp' : p ∈ chains (b.bucket k) := h.mem_of_entry hp
  have hchain := h.chain (b.bucket k)
  rw [hsplit] at hchain
  rw [Function.update_apply]
  rcases List.eq_nil_or_concat front with rfl | ⟨front, prev, rfl⟩
  · rw [List.getLast?_nil, erase]
    dsimp only
    rw [Function.update_apply]
    split
    · exact hchain.2.update hrest _
    · exact (h.chain i).update (hother p hp' i ‹_›) _
  · rw [List.concat_eq_append] at *
    rw [List.getLast?_concat, erase]
    dsimp only
    rw [List.append_assoc, List.singleton_append] at hsplit hchain hnodup
    split
    · rename_i hi
      have herase := hchain.eraseAfter hnodup
      grind [herase.update]
    · rename_i hi
      have hprev : prev ∈ chains (b.bucket k) := by simp [hsplit]
      exact ((h.chain i).update (hother prev hprev i hi) _).update (hother p hp' i hi) _

theorem Inv.erase (h : b.Inv chains) (hp : b.entry p = some (k, v))
    (hsplit : chains (b.bucket k) = front ++ p :: back) :
    (b.erase p k front.getLast?).Inv
      (Function.update chains (b.bucket k) (front ++ back)) := by
  have hnodup := h.nodup (b.bucket k)
  rw [hsplit] at hnodup
  refine ⟨h.erase_chain hp hsplit, fun i => ?_, fun i q => ?_, fun q r k' v' w' hq hr => ?_⟩
  · grind [h.nodup]
  · rw [Function.update_apply, erase_entry, erase_bucket]
    by_cases heq : q = p
    · grind [h.bucket_eq]
    · rw [if_neg heq, ← h.mem i q]
      grind
  · rw [erase_entry] at hq hr
    split at hq
    · cases hq
    · split at hr
      · cases hr
      · exact h.inj q r k' v' w' hq hr

theorem Holds.erase [DecidableEq κ] (h : b.Inv chains) (hm : b.Holds m)
    (hp : b.entry p = some (k, v)) (prev : Option ν) :
    (b.erase p k prev).Holds (Function.update m k none) := by
  intro k' v'
  rw [Function.update_apply]
  simp only [erase_entry]
  split
  · rename_i hk
    subst hk
    refine iff_of_false (by simp only [reduceCtorEq, not_false_eq_true]) ?_
    rintro ⟨q, hq⟩
    split at hq
    · cases hq
    · exact absurd (h.inj q p k' v' v hq hp) ‹_›
  · rename_i hk
    rw [hm k' v']
    grind

end Buckets
