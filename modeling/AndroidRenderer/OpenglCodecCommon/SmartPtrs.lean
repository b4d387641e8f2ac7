import AndroidRenderer.Lib.Run
import Mathlib.Data.Set.Card

/-!
# Smart pointers and the objects they own

`SmartPtr` shares an object and its count. The last one that lets the object go deletes it, and with
it the pointers that are its members, which may delete further objects. Assignment releases the old
object before it reads the source, which may have been a member of what has been deleted.
-/

namespace AndroidRenderer.Pointers

/-- Where a `SmartPtr` is: in a variable, or in an object as a member. -/
inductive Loc
  | var (n : Nat)
  | member (o f : Nat)
  deriving DecidableEq, Repr

def Loc.owner : Loc → Option Nat
  | .var _ => none
  | .member o _ => some o

structure SmartPtr where
  m_pRefCount : Option Nat
  m_ptr : Option Nat
  deriving DecidableEq, Repr

def null : SmartPtr := ⟨none, none⟩

/-- What is read or deleted after it has been deleted; `depth` stands for a bound of the model that
no run reaches. -/
inductive Fault
  | pointer
  | count
  | object
  | depth
  deriving DecidableEq, Repr

/-- Objects and their counts have the numbers in which they were made; `deleted` has those that have
been deleted. -/
structure Heap where
  made : Nat
  members : Nat → Nat
  refCounts : Nat → Option Int
  pointers : Loc → Option SmartPtr
  deleted : List Nat

namespace Heap

def initial : Heap := ⟨0, fun _ => 0, fun _ => none, fun _ => none, []⟩

def store (s : Heap) (k : Loc) (p : SmartPtr) : Heap :=
  { s with pointers := Function.update s.pointers k (some p) }

/-- There is no `SmartPtr` at `k` any more. -/
def clear (s : Heap) (k : Loc) : Heap :=
  { s with pointers := Function.update s.pointers k none }

def setCount (s : Heap) (c : Nat) (n : Option Int) : Heap :=
  { s with refCounts := Function.update s.refCounts c n }

def get (s : Heap) (k : Loc) : Except Fault SmartPtr :=
  match s.pointers k with
  | none => .error .pointer
  | some p => .ok p

def put (s : Heap) (k : Loc) (p : SmartPtr) : Except Fault Heap :=
  if (s.pointers k).isSome then .ok (s.store k p) else .error .pointer

/-- The old value of the count, to which `d` is added. -/
def android_atomic_add (s : Heap) (c : Nat) (d : Int) : Except Fault (Int × Heap) :=
  match s.refCounts c with
  | none => .error .count
  | some iVal => .ok (iVal, s.setCount c (some (Int.bmod (iVal + d) (2 ^ 32))))

def use (s : Heap) (k : Loc) : Except Fault Heap := do
  let p ← s.get k
  match p.m_pRefCount with
  | none => .ok s
  | some c =>
      let (_, s) ← s.android_atomic_add c 1
      .ok s

/-- The members of an object, in the order in which they are destroyed. -/
def membersOf (s : Heap) (o : Nat) : List Loc :=
  (List.range (s.members o)).reverse.map (.member o)

def deleteObject (s : Heap) (o : Nat) : Except Fault Heap :=
  if o ∈ s.deleted then .error .object else .ok { s with deleted := o :: s.deleted }

/-- A member ends with its object. -/
def destroy (release : Heap → Loc → Except Fault Heap) (s : Heap) (k : Loc) :
    Except Fault Heap := do
  let s ← release s k
  .ok (s.clear k)

def release : Nat → Heap → Loc → Except Fault Heap
  | 0, _, _ => .error .depth
  | fuel + 1, s, k => do
      let p ← s.get k
      match p.m_pRefCount with
      | none => .ok s
      | some c =>
          let (iVal, s) ← s.android_atomic_add c (-1)
          if 1 < iVal then .ok s
          else
            let s ← (s.setCount c none).put k { p with m_pRefCount := none }
            match p.m_ptr with
            | none => .ok s
            | some o =>
                let s ← (s.membersOf o).foldlM (destroy (release fuel)) s
                let s ← s.deleteObject o
                s.put k null

/-- `SmartPtr(ptr)` in a new variable, for a new object with a number of members, or `NULL`. -/
def construct (s : Heap) (n : Nat) : Option Nat → Heap
  | none => s.store (.var n) null
  | some members =>
      { made := s.made + 1
        members := Function.update s.members s.made members
        refCounts := Function.update s.refCounts s.made (some 1)
        pointers := fun
          | .var n' => if n' = n then some ⟨some s.made, some s.made⟩ else s.pointers (.var n')
          | .member o f => if o = s.made ∧ f < members then some null
              else s.pointers (.member o f)
        deleted := s.deleted }

/-- The copy constructor, in a new variable. -/
def copy (s : Heap) (n : Nat) (rhs : Loc) : Except Fault Heap := do
  let p ← s.get rhs
  (s.store (.var n) p).use (.var n)

/-- `operator=`. -/
def assign (s : Heap) (k rhs : Loc) : Except Fault Heap := do
  let p ← s.get k
  let r ← s.get rhs
  if p.m_ptr = r.m_ptr then .ok s
  else
    let s ← release (s.made + 1) s k
    let r ← s.get rhs
    let s ← s.put k r
    s.use k

/-- The destructor, of the pointer in a variable. -/
def destruct (s : Heap) (n : Nat) : Except Fault Heap :=
  destroy (release (s.made + 1)) s (.var n)

end Heap

/-- What a program does with its pointers. -/
inductive Op
  | construct (n : Nat) (members : Option Nat)
  | copy (n : Nat) (rhs : Loc)
  | assign (k rhs : Loc)
  | destruct (n : Nat)

def Heap.step (s : Heap) : Op → Except Fault Heap
  | .construct n members => .ok (s.construct n members)
  | .copy n rhs => s.copy n rhs
  | .assign k rhs => s.assign k rhs
  | .destruct n => s.destruct n

/-- The program uses pointers that exist, and variables that do not for new ones. -/
def Op.Valid (s : Heap) : Op → Prop
  | .construct n _ => s.pointers (.var n) = none
  | .copy n rhs => s.pointers (.var n) = none ∧ (s.pointers rhs).isSome = true
  | .assign k rhs => (s.pointers k).isSome = true ∧ (s.pointers rhs).isSome = true
  | .destruct n => (s.pointers (.var n)).isSome = true

/-! ## References -/

def Heap.Refers (s : Heap) (k : Loc) (o : Nat) : Prop :=
  ∃ p, s.pointers k = some p ∧ p.m_pRefCount = some o

def Heap.holders (s : Heap) (o : Nat) : Set Loc := {k | s.Refers k o}

/-- The counts are those of the pointers, and the objects without any are those that have been
deleted, once each. -/
structure Heap.Accounted (s : Heap) : Prop where
  same : ∀ k p, s.pointers k = some p → p.m_ptr = p.m_pRefCount
  counted : ∀ o < s.made, o ∉ s.deleted →
    s.refCounts o = some ((s.holders o).ncard : Int) ∧ 0 < (s.holders o).ncard
  gone : ∀ o ∈ s.deleted, o < s.made ∧ s.refCounts o = none ∧ s.holders o = ∅
  once : s.deleted.Nodup
  inside : ∀ o f p, s.pointers (.member o f) = some p → o < s.made ∧ o ∉ s.deleted

/-- The object is held only through the pointer `k`: by itself, or by members of objects that are
held so. -/
inductive Heap.HeldThrough (s : Heap) (k : Loc) : Nat → Prop
  | intro {o : Nat} (hcount : (s.refCounts o).isSome = true)
      (howner : ∀ l, s.Refers l o → l ≠ k → l.owner.isSome = true)
      (hheld : ∀ l q, s.Refers l o → l ≠ k → l.owner = some q → s.HeldThrough k q) :
      s.HeldThrough k o

/-- Neither the pointer nor what is assigned to it is in an object that is held only through the
pointer, and a count that goes up is no largest one. -/
def Op.Clear (s : Heap) : Op → Prop
  | .construct _ _ | .destruct _ => True
  | .copy _ rhs => ∀ o, s.Refers rhs o → (s.holders o).ncard + 1 < 2 ^ 31
  | .assign k rhs =>
      (s.pointers k).map SmartPtr.m_ptr = (s.pointers rhs).map SmartPtr.m_ptr ∨
        (∀ o, k.owner = some o ∨ rhs.owner = some o → ¬s.HeldThrough k o) ∧
          ∀ o, s.Refers rhs o → (s.holders o).ncard + 1 < 2 ^ 31

/-! ## Deletion -/

namespace Heap

variable {s s' t : Heap} {k l : Loc} {o c fuel : Nat} {p : SmartPtr} {D : Nat → Prop}

/-- What holds of a heap also while objects are deleted. -/
structure Inv (s : Heap) : Prop where
  counted : ∀ o n, s.refCounts o = some n →
    o < s.made ∧ n = ((s.holders o).ncard : Int) ∧ 0 < (s.holders o).ncard ∧
      (s.holders o).ncard < 2 ^ 31
  held : ∀ k p c, s.pointers k = some p → p.m_pRefCount = some c →
    (s.refCounts c).isSome = true ∧ p.m_ptr = some c
  inside : ∀ o f p, s.pointers (.member o f) = some p →
    o < s.made ∧ f < s.members o ∧ o ∉ s.deleted
  whole : ∀ o f, (s.refCounts o).isSome = true → f < s.members o →
    (s.pointers (.member o f)).isSome = true
  gone : ∀ o ∈ s.deleted, o < s.made ∧ s.refCounts o = none
  once : s.deleted.Nodup

/-- Objects of `D` may have been deleted on the way from one heap to another. -/
structure Within (D : Nat → Prop) (s s' : Heap) : Prop where
  made : s'.made = s.made
  members : s'.members = s.members
  counts : ∀ o, (s'.refCounts o).isSome = true → (s.refCounts o).isSome = true
  deleted : ∀ o, o ∈ s'.deleted ↔
    o ∈ s.deleted ∨ (s.refCounts o).isSome = true ∧ s'.refCounts o = none
  doomed : ∀ o, (s.refCounts o).isSome = true → s'.refCounts o = none → D o
  pointers : ∀ l, s'.pointers l = s.pointers l ∨ s'.pointers l = none ∧ ∃ o f, l = .member o f ∧ D o

theorem Within.refl (D : Nat → Prop) (s : Heap) : Within D s s :=
  ⟨rfl, rfl, fun _ h => h, fun o => ⟨.inl, fun h => h.elim id fun ⟨hs, hn⟩ => by simp [hn] at hs⟩,
    fun o hs hn => by simp [hn] at hs, fun _ => .inl rfl⟩

theorem Within.of_counts (hmade : s'.made = s.made) (hmembers : s'.members = s.members)
    (hdeleted : s'.deleted = s.deleted)
    (hcounts : ∀ o, (s'.refCounts o).isSome = (s.refCounts o).isSome)
    (hpointers : s'.pointers = s.pointers) : Within D s s' := by
  have hnever : ∀ o, (s.refCounts o).isSome = true → s'.refCounts o ≠ none := fun o hs hn => by
    rw [← hcounts, hn] at hs
    cases hs
  exact ⟨hmade, hmembers, fun o ho => hcounts o ▸ ho, fun o => by
    rw [hdeleted]
    exact ⟨.inl, fun h => h.elim id fun ⟨hs, hn⟩ => absurd hn (hnever o hs)⟩,
    fun o hs hn => absurd hn (hnever o hs), fun l => .inl (by rw [hpointers])⟩

theorem Within.trans (h : Within D s s') (h' : Within D s' t) : Within D s t := by
  have hnone : ∀ o, s'.refCounts o = none → t.refCounts o = none := fun o hn => by
    by_contra hsome
    exact absurd (h'.counts o (Option.isSome_iff_ne_none.mpr hsome)) (by simp [hn])
  refine ⟨h'.made.trans h.made, h'.members.trans h.members, fun o ho => h.counts o (h'.counts o ho),
    fun o => ?_, fun o hs ht => ?_, fun l => ?_⟩
  · rw [h'.deleted, h.deleted]
    constructor
    · rintro ((hmem | ⟨hs, hn⟩) | ⟨hs', hn⟩)
      · exact .inl hmem
      · exact .inr ⟨hs, hnone o hn⟩
      · exact .inr ⟨h.counts o hs', hn⟩
    · rintro (hmem | ⟨hs, hn⟩)
      · exact .inl (.inl hmem)
      · cases hs' : s'.refCounts o with
        | none => exact .inl (.inr ⟨hs, rfl⟩)
        | some n => exact .inr ⟨rfl, hn⟩
  · cases hs' : s'.refCounts o with
    | none => exact h.doomed o hs hs'
    | some n => exact h'.doomed o (by simp [hs']) ht
  · rcases h'.pointers l with heq | hnone
    · rcases h.pointers l with heq' | ⟨hnone, howner⟩
      · exact .inl (heq.trans heq')
      · exact .inr ⟨heq.trans hnone, howner⟩
    · exact .inr hnone

theorem Within.mono {D' : Nat → Prop} (h : Within D s s') (hD : ∀ o, D o → D' o) :
    Within D' s s' :=
  ⟨h.made, h.members, h.counts, h.deleted, fun o hs hn => hD o (h.doomed o hs hn), fun l =>
    (h.pointers l).imp_right fun ⟨hn, o, f, hl, ho⟩ => ⟨hn, o, f, hl, hD o ho⟩⟩

theorem Within.refers (h : Within D s s') (hl : s'.Refers l o) : s.Refers l o := by
  obtain ⟨p, hp, hc⟩ := hl
  rcases h.pointers l with heq | ⟨hnone, -⟩
  · exact ⟨p, heq ▸ hp, hc⟩
  · rw [hnone] at hp
    cases hp

/-- The end of a pointer that is a member of an object of `D`. -/
theorem Within.clear {f : Nat}
    (h : Within D (s.store (.member o f) null) (s'.store (.member o f) null)) (hD : D o) :
    Within D s (s'.clear (.member o f)) := by
  refine ⟨h.made, h.members, h.counts, h.deleted, h.doomed, fun l => ?_⟩
  by_cases hl : l = .member o f
  · exact .inr ⟨by rw [hl]; exact Function.update_self .., o, f, hl, hD⟩
  · simpa [Heap.store, Heap.clear, hl] using h.pointers l

/-- What is held through a member of an object that is held through `k`, after some deletions. -/
theorem HeldThrough.of_within {f : Nat} (hwithin : Within (s.HeldThrough k) s' t)
    (hcounts : ∀ o, (s'.refCounts o).isSome = true → (s.refCounts o).isSome = true)
    (hpointers : ∀ l, l ≠ k → s'.pointers l = s.pointers l) (hc : s.HeldThrough k c)
    (h : t.HeldThrough (.member c f) o) : s.HeldThrough k o := by
  induction h with
  | @intro o hcount howner hheld ih =>
      have hrefers : ∀ l, s.Refers l o → l ≠ k →
          t.Refers l o ∨ ∃ q f, l = .member q f ∧ s.HeldThrough k q := fun l ⟨p, hp, hpc⟩ hlk => by
        rcases hwithin.pointers l with heq | ⟨-, hmember⟩
        · exact .inl ⟨p, by rw [heq, hpointers l hlk, hp], hpc⟩
        · exact .inr hmember
      refine ⟨hcounts o (hwithin.counts o hcount), fun l hl hlk => ?_, fun l q hl hlk hq => ?_⟩
      · rcases hrefers l hl hlk with hl | ⟨q, f, rfl, -⟩
        · by_cases hmember : l = .member c f
          · rw [hmember]
            rfl
          · exact howner l hl hmember
        · rfl
      · rcases hrefers l hl hlk with hl | ⟨q', f', rfl, hq'⟩
        · by_cases hmember : l = .member c f
          · rw [hmember] at hq
            obtain rfl := Option.some.inj hq
            exact hc
          · exact ih l q hl hmember hq
        · obtain rfl := Option.some.inj hq
          exact hq'

/-! ### Counts -/

theorem refers_store : (s.store k p).Refers l o ↔
    (l = k ∧ p.m_pRefCount = some o) ∨ (l ≠ k ∧ s.Refers l o) := by
  by_cases hl : l = k
  · subst hl
    simp [Refers, Heap.store]
  · simp [Refers, Heap.store, hl]

theorem holders_null : (s.store k null).holders o = s.holders o \ {k} := by
  ext l
  simp [holders, refers_store, null, and_comm]

theorem holders_clear (hk : ∀ c, ¬s.Refers k c) : (s.clear k).holders o = s.holders o := by
  ext l
  by_cases hl : l = k
  · subst hl
    simpa [holders, Refers, Heap.clear] using fun p hp => hk o ⟨p, hp⟩
  · simp [holders, Refers, Heap.clear, hl]

/-- A pointer that refers to nothing ends, in a variable or in an object without a count. -/
theorem Inv.clear (h : Inv s) (hk : s.pointers k = some null)
    (howner : ∀ o, k.owner = some o → s.refCounts o = none) : Inv (s.clear k) := by
  have hpointers : ∀ l p, (s.clear k).pointers l = some p → s.pointers l = some p := by
    intro l p hl
    by_cases hlk : l = k
    · simp [Heap.clear, hlk] at hl
    · simpa [Heap.clear, hlk] using hl
  refine ⟨fun o n hn => ?_, fun l p c hl => h.held l p c (hpointers l p hl),
    fun o f p hl => h.inside o f p (hpointers _ p hl), fun o f ho hf => ?_, h.gone, h.once⟩
  · rw [holders_clear fun c ⟨p, hp, hc⟩ => by simp_all [null]]
    exact h.counted o n hn
  · have hne : Loc.member o f ≠ k := fun heq => by
      have := howner o (by rw [← heq]; rfl)
      simp [Heap.clear, this] at ho
    simpa [Heap.clear, hne] using h.whole o f ho hf

/-- A pointer that refers to one object only, if any, is changed with the count of that object. -/
theorem Inv.update {x : Option Int} (h : Inv s) (hk : ∀ o, s.Refers k o → o = c)
    (hx : ∀ n, x = some n → (s.refCounts c).isSome = true ∧
      n = ((((s.setCount c x).store k p).holders c).ncard : Int) ∧
      0 < (((s.setCount c x).store k p).holders c).ncard ∧
      (((s.setCount c x).store k p).holders c).ncard < 2 ^ 31)
    (hnone : x = none → ∀ l, l ≠ k → ¬s.Refers l c)
    (hp : ∀ c', p.m_pRefCount = some c' → c' = c ∧ p.m_ptr = some c ∧ x.isSome = true)
    (hinside : ∀ o f, k = .member o f → o < s.made ∧ f < s.members o ∧ o ∉ s.deleted) :
    Inv ((s.setCount c x).store k p) := by
  have hcounts : ∀ o, ((s.setCount c x).refCounts o).isSome = true →
      (s.refCounts o).isSome = true := fun o ho => by
    by_cases hoc : o = c
    · subst hoc
      obtain ⟨n, hn⟩ := Option.isSome_iff_exists.mp ho
      exact (hx n (by simpa [setCount] using hn)).1
    · simpa [setCount, hoc] using ho
  refine ⟨fun o n hn => ?_, fun l q c' hl hc' => ?_, fun o f q hl => ?_, fun o f ho hf => ?_,
    fun o ho => ⟨(h.gone o ho).1, ?_⟩, h.once⟩
  · by_cases hoc : o = c
    · subst hoc
      obtain ⟨hsome, hcard⟩ := hx n (by simpa [store, setCount] using hn)
      obtain ⟨m, hm⟩ := Option.isSome_iff_exists.mp hsome
      exact ⟨(h.counted o m hm).1, hcard⟩
    · have hsame : ((s.setCount c x).store k p).holders o = s.holders o := by
        ext l
        change ((s.setCount c x).store k p).Refers l o ↔ s.Refers l o
        rw [refers_store]
        constructor
        · rintro (⟨-, hpo⟩ | ⟨-, hl⟩)
          · exact absurd (hp o hpo).1 hoc
          · exact hl
        · exact fun hl => .inr ⟨fun hlk => hoc (hk o (hlk ▸ hl)), hl⟩
      rw [hsame]
      exact h.counted o n (by simpa [store, setCount, hoc] using hn)
  · by_cases hlk : l = k
    · subst hlk
      obtain rfl : p = q := by simpa [store] using hl
      obtain ⟨rfl, hptr, hsome⟩ := hp c' hc'
      exact ⟨by simpa [store, setCount] using hsome, hptr⟩
    · have hl' : s.pointers l = some q := by simpa [store, setCount, hlk] using hl
      obtain ⟨hsome, hptr⟩ := h.held l q c' hl' hc'
      refine ⟨?_, hptr⟩
      by_cases hoc : c' = c
      · subst hoc
        cases x with
        | none => exact absurd ⟨q, hl', hc'⟩ (hnone rfl l hlk)
        | some n => simp [store, setCount]
      · simpa [store, setCount, hoc] using hsome
  · by_cases hlk : .member o f = k
    · exact hinside o f hlk.symm
    · exact h.inside o f q (by simpa [store, setCount, hlk] using hl)
  · by_cases hlk : .member o f = k
    · simp [store, hlk]
    · simpa [store, setCount, hlk] using h.whole o f (hcounts o ho) hf
  · have hgone := (h.gone o ho).2
    by_contra hsome
    exact absurd (hcounts o (Option.isSome_iff_ne_none.mpr hsome)) (by simp [hgone])

theorem refers_unique (hk : s.Refers k c) (ho : s.Refers k o) : o = c := by
  obtain ⟨p, hp, hc⟩ := hk
  obtain ⟨p', hp', ho⟩ := ho
  rw [hp] at hp'
  obtain rfl := Option.some.inj hp'
  exact Option.some.inj (ho.symm.trans hc)

/-- One of several pointers lets go. -/
theorem Inv.drop {n : Int} (h : Inv s) (hk : s.Refers k c) (hn : s.refCounts c = some n)
    (hlt : 1 < n) :
    Inv ((s.setCount c (some (Int.bmod (n + -1) (2 ^ 32)))).store k null) := by
  obtain ⟨hmade, hcard, hpos, hmax⟩ := h.counted c n hn
  have hbmod : Int.bmod (n + -1) (2 ^ 32) = n - 1 := by
    rw [Int.bmod_eq_of_le] <;> omega
  have hdiff := Set.ncard_sdiff_singleton_add_one (s := s.holders c) hk
    (Set.finite_of_ncard_pos hpos)
  have hholders : ∀ m, ((s.setCount c (some m)).store k null).holders c = s.holders c \ {k} :=
    fun m => holders_null
  refine h.update (fun o ho => refers_unique hk ho) ?_ (by simp) (by simp [null]) ?_
  · rintro m hm
    rw [hbmod] at hm ⊢
    obtain rfl := Option.some.inj hm
    rw [hholders]
    exact ⟨by simp [hn], by omega, by omega, by omega⟩
  · rintro o f rfl
    obtain ⟨p, hp, -⟩ := hk
    exact h.inside o f p hp

theorem Inv.refCounts_made (h : Inv s) : s.refCounts s.made = none := by
  cases hn : s.refCounts s.made with
  | none => rfl
  | some n => exact absurd (h.counted _ n hn).1 (Nat.lt_irrefl _)

theorem Inv.store_null (h : Inv s) (hk : ∀ o, ¬s.Refers k o)
    (hinside : ∀ o f, k = .member o f → o < s.made ∧ f < s.members o ∧ o ∉ s.deleted) :
    Inv (s.store k null) := by
  have hsame : s.setCount s.made none = s := by
    rw [setCount, ← h.refCounts_made, Function.update_eq_self]
  rw [← hsame]
  refine h.update (fun o ho => absurd ho (hk o)) (by simp) ?_ (by simp [null]) hinside
  rintro - l - ⟨p, hp, hc⟩
  simpa [h.refCounts_made] using (h.held l p _ hp hc).1

/-- The pointer has let the object go, which is deleted next. -/
def unheld (s : Heap) (k : Loc) (c : Nat) : Heap := (s.setCount c none).store k ⟨none, some c⟩

/-- The last pointer lets go. -/
theorem Inv.last {n : Int} (h : Inv s) (hk : s.Refers k c) (hn : s.refCounts c = some n)
    (hle : ¬1 < n) :
    s.holders c = {k} ∧ Inv (s.unheld k c) := by
  obtain ⟨hmade, hcard, hpos, hmax⟩ := h.counted c n hn
  obtain ⟨l, hl⟩ := Set.ncard_eq_one.mp (show (s.holders c).ncard = 1 by omega)
  have hholders : s.holders c = {k} := by
    have hmem : k ∈ s.holders c := hk
    rw [hl, Set.mem_singleton_iff] at hmem
    rw [hl, hmem]
  refine ⟨hholders, h.update (fun o ho => refers_unique hk ho) (by simp) ?_ (by simp) ?_⟩
  · rintro - l hlk hl
    have hmem : l ∈ s.holders c := hl
    rw [hholders] at hmem
    exact hlk hmem
  · rintro o f rfl
    obtain ⟨p, hp, -⟩ := hk
    exact h.inside o f p hp

/-- A pointer that refers to nothing becomes one to an object. -/
theorem Inv.share {n : Int} (h : Inv s) (hk : ∀ o, ¬s.Refers k o) (hn : s.refCounts c = some n)
    (hlt : (s.holders c).ncard + 1 < 2 ^ 31)
    (hinside : ∀ o f, k = .member o f → o < s.made ∧ f < s.members o ∧ o ∉ s.deleted) :
    Inv ((s.setCount c (some (Int.bmod (n + 1) (2 ^ 32)))).store k ⟨some c, some c⟩) := by
  obtain ⟨hmade, hcard, hpos, hmax⟩ := h.counted c n hn
  have hbmod : Int.bmod (n + 1) (2 ^ 32) = n + 1 := by
    rw [Int.bmod_eq_of_le] <;> omega
  have hholders : ∀ m, ((s.setCount c (some m)).store k ⟨some c, some c⟩).holders c =
      insert k (s.holders c) := fun m => by
    ext l
    change ((s.setCount c (some m)).store k _).Refers l c ↔ l = k ∨ s.Refers l c
    rw [refers_store]
    by_cases hlk : l = k
    · simp [hlk]
    · have hsame : (s.setCount c (some m)).Refers l c ↔ s.Refers l c := Iff.rfl
      simp [hlk, hsame]
  have hinsert := Set.ncard_insert_of_notMem (a := k) (s := s.holders c) (hk c)
    (Set.finite_of_ncard_pos hpos)
  refine h.update (fun o ho => absurd ho (hk o)) ?_ (by simp) (by simp) hinside
  rintro m hm
  rw [hbmod] at hm ⊢
  obtain rfl := Option.some.inj hm
  rw [hholders]
  exact ⟨by simp [hn], by omega, by omega, by omega⟩

/-! ### Releasing -/

/-- The objects that have a count. -/
def alive (s : Heap) : Finset Nat :=
  (Finset.range s.made).filter fun o => (s.refCounts o).isSome = true

theorem Within.alive (h : Within D s s') : s'.alive.card ≤ s.alive.card := by
  refine Finset.card_le_card fun o ho => ?_
  simp only [Heap.alive, Finset.mem_filter, h.made] at ho ⊢
  exact ⟨ho.1, h.counts o ho.2⟩

/-- With so much fuel, `release` of a pointer that is in no object it deletes goes through. -/
def Releases (fuel : Nat) : Prop :=
  ∀ s k p, Inv s → s.pointers k = some p → (∀ o, k.owner = some o → ¬s.HeldThrough k o) →
    s.alive.card < fuel → ∃ s', release fuel s k = .ok s' ∧ Inv (s'.store k null) ∧
      Within (s.HeldThrough k) (s.store k null) (s'.store k null) ∧ (s'.pointers k).isSome = true

theorem destroy_ok {r : Heap → Loc → Except Fault Heap} (h : r s k = .ok s') :
    destroy r s k = .ok (s'.clear k) := by
  rw [destroy, h]
  rfl

@[simp] theorem clear_store : (s.store k p).clear k = s.clear k := by
  simp [Heap.clear, store]

@[simp] theorem store_store {q : SmartPtr} : (s.store k p).store k q = s.store k q := by
  simp [store]

theorem destroy_members (ih : Releases fuel) (hc : s.HeldThrough k c)
    (hcounts : ∀ o, (s'.refCounts o).isSome = true → (s.refCounts o).isSome = true)
    (hpointers : ∀ l, l ≠ k → s'.pointers l = s.pointers l) (fs : List Nat) (hfs : fs.Nodup)
    (hinv : Inv t) (hwithin : Within (s.HeldThrough k) s' t) (hnone : t.refCounts c = none)
    (hsome : ∀ f ∈ fs, (t.pointers (.member c f)).isSome = true) (hfuel : t.alive.card < fuel) :
    ∃ t', (fs.map (Loc.member c)).foldlM (destroy (release fuel)) t = .ok t' ∧ Inv t' ∧
      Within (s.HeldThrough k) t t' ∧ ∀ f ∈ fs, t'.pointers (.member c f) = none := by
  induction fs generalizing t with
  | nil => exact ⟨t, rfl, hinv, Within.refl _ t, by simp⟩
  | cons f fs ihfs =>
      obtain ⟨hf, hfs⟩ := List.nodup_cons.mp hfs
      obtain ⟨p, hp⟩ := Option.isSome_iff_exists.mp (hsome f List.mem_cons_self)
      -- The object has no count any more, so that nothing deletes it again.
      have hdone : ¬t.HeldThrough (.member c f) c := fun h => by
        cases h with
        | intro hcount => simp [hnone] at hcount
      obtain ⟨t₁, hrelease, hinv₁, hwithin₁, -⟩ := ih t _ p hinv hp
        (fun o ho => Option.some.inj ho ▸ hdone) hfuel
      have hclear := (hwithin₁.mono fun o => hc.of_within hwithin hcounts hpointers).clear hc
      have hnone₁ : t₁.refCounts c = none := by
        by_contra hsome
        exact absurd (hclear.counts c (Option.isSome_iff_ne_none.mpr hsome)) (by simp [hnone])
      have hinv₂ : Inv (t₁.clear (.member c f)) := by
        rw [← clear_store (p := null)]
        exact hinv₁.clear (Function.update_self ..) fun o ho => Option.some.inj ho ▸ hnone₁
      have hothers : ∀ f' ∈ fs,
          ((t₁.clear (.member c f)).pointers (.member c f')).isSome = true := by
        intro f' hf'
        have hne : Loc.member c f' ≠ .member c f := fun heq =>
          hf ((Loc.member.inj heq).2 ▸ hf')
        rcases hwithin₁.pointers (.member c f') with heq | ⟨-, o, f'', heq, ho⟩
        · simp only [store, Function.update_of_ne hne] at heq
          simp only [Heap.clear, Function.update_of_ne hne, heq]
          exact hsome f' (List.mem_cons_of_mem f hf')
        · exact absurd ((Loc.member.inj heq).1 ▸ ho) hdone
      obtain ⟨t', hloop, hinv', hwithin', hgone⟩ := ihfs hfs hinv₂ (hwithin.trans hclear)
        hnone₁ hothers (Nat.lt_of_le_of_lt hclear.alive hfuel)
      refine ⟨t', ?_, hinv', hclear.trans hwithin', fun f' hf' => ?_⟩
      · rw [List.map_cons, List.foldlM_cons, destroy_ok hrelease]
        exact hloop
      · rcases List.mem_cons.mp hf' with rfl | hf'
        · rcases hwithin'.pointers (.member c f') with heq | ⟨hnone, -⟩
          · rw [heq]
            exact Function.update_self ..
          · exact hnone
        · exact hgone f' hf'

theorem release_last {n : Int} (hp : s.pointers k = some p) (hc : p.m_pRefCount = some c)
    (hptr : p.m_ptr = some c) (hn : s.refCounts c = some n) (hle : ¬1 < n)
    (hloop : ((s.unheld k c).membersOf c).foldlM (destroy (release fuel)) (s.unheld k c) = .ok t)
    (hdeleted : c ∉ t.deleted) (hsome : (t.pointers k).isSome = true) :
    release (fuel + 1) s k = .ok (store { t with deleted := c :: t.deleted } k null) := by
  have hcount : (s.setCount c (some (Int.bmod (n + -1) (2 ^ 32)))).setCount c none =
      s.setCount c none := by
    simp [setCount]
  have hput : (s.setCount c none).put k ⟨none, some c⟩ = .ok (s.unheld k c) :=
    if_pos (by simp [setCount, hp])
  have hdelete : t.deleteObject c = .ok { t with deleted := c :: t.deleted } := if_neg hdeleted
  have hput' : put { t with deleted := c :: t.deleted } k null =
      .ok (store { t with deleted := c :: t.deleted } k null) := if_pos hsome
  simp only [release, get, hp, hc, hptr, android_atomic_add, hn, bind, Except.bind,
    if_neg hle, hcount, hput, hloop, hdelete, hput']

theorem unheld_counts (h : ((s.unheld k c).refCounts o).isSome = true) :
    o ≠ c ∧ (s.refCounts o).isSome = true := by
  by_cases hoc : o = c
  · simp [unheld, store, setCount, hoc] at h
  · exact ⟨hoc, by simpa [unheld, store, setCount, hoc] using h⟩

theorem unheld_alive (hmade : c < s.made) (hc : (s.refCounts c).isSome = true) :
    (s.unheld k c).alive.card < s.alive.card := by
  refine Finset.card_lt_card
    ((Finset.ssubset_iff_of_subset fun o ho => ?_).mpr ⟨c, ?_, fun h => ?_⟩)
  · obtain ⟨hlt, ho⟩ := Finset.mem_filter.mp ho
    exact Finset.mem_filter.mpr ⟨hlt, (unheld_counts ho).2⟩
  · exact Finset.mem_filter.mpr ⟨Finset.mem_range.mpr hmade, hc⟩
  · exact (unheld_counts (Finset.mem_filter.mp h).2).1 rfl

theorem Within.of_unheld (h : Within D (s.unheld k c) t) (hD : D c)
    (hsome : (s.refCounts c).isSome = true) (hcount : t.refCounts c = none) :
    Within D (s.store k null) (store { t with deleted := c :: t.deleted } k null) := by
  have hothers : ∀ o, o ≠ c → (s.unheld k c).refCounts o = s.refCounts o := fun o ho =>
    Function.update_of_ne ho ..
  refine ⟨h.made, h.members, fun o ho => (unheld_counts (h.counts o ho)).2, fun o => ?_,
    fun o hs ht => ?_, fun l => ?_⟩
  · change o ∈ c :: t.deleted ↔ o ∈ s.deleted ∨ (s.refCounts o).isSome = true ∧ t.refCounts o = none
    by_cases hoc : o = c
    · subst hoc
      simp [hsome, hcount]
    · rw [List.mem_cons, h.deleted, hothers o hoc]
      simp [hoc, unheld, store, setCount]
  · by_cases hoc : o = c
    · exact hoc ▸ hD
    · exact h.doomed o (by rw [hothers o hoc]; exact hs) ht
  · by_cases hlk : l = k
    · exact .inl (by simp [store, hlk])
    · simpa [store, unheld, setCount, hlk] using h.pointers l

/-- The object is deleted behind its members. -/
theorem Inv.delete (h : Inv t) (hc : t.refCounts c = none) (hmade : c < t.made)
    (hdeleted : c ∉ t.deleted) (hgone : ∀ f, t.pointers (.member c f) = none) :
    Inv { t with deleted := c :: t.deleted } := by
  refine ⟨h.counted, h.held, fun o f p hp => ?_, h.whole, fun o ho => ?_,
    List.nodup_cons.mpr ⟨hdeleted, h.once⟩⟩
  · obtain ⟨hlt, hf, ho⟩ := h.inside o f p hp
    refine ⟨hlt, hf, fun hmem => ?_⟩
    rcases List.mem_cons.mp hmem with rfl | hmem
    · rw [hgone f] at hp
      cases hp
    · exact ho hmem
  · rcases List.mem_cons.mp ho with rfl | ho
    · exact ⟨hmade, hc⟩
    · exact h.gone o ho

/-- The last pointer lets go of its object, which is deleted with its members. -/
theorem Releases.last {n : Int} (ih : Releases fuel) (hinv : Inv s) (hp : s.pointers k = some p)
    (hc : p.m_pRefCount = some c) (hn : s.refCounts c = some n) (hle : ¬1 < n)
    (howner : ∀ o, k.owner = some o → ¬s.HeldThrough k o) (hfuel : s.alive.card < fuel + 1) :
    ∃ s', release (fuel + 1) s k = .ok s' ∧ Inv (s'.store k null) ∧
      Within (s.HeldThrough k) (s.store k null) (s'.store k null) ∧
      (s'.pointers k).isSome = true := by
  have hptr := (hinv.held k p c hp hc).2
  have hsome : (s.refCounts c).isSome = true := by simp [hn]
  obtain ⟨hholders, hinv₁⟩ := hinv.last ⟨p, hp, hc⟩ hn hle
  have hheld : s.HeldThrough k c := by
    have honly : ∀ l, s.Refers l c → l = k := fun l hl => by
      have hmem : l ∈ s.holders c := hl
      rwa [hholders] at hmem
    exact ⟨hsome, fun l hl hlk => absurd (honly l hl) hlk,
      fun l q hl hlk => absurd (honly l hl) hlk⟩
  have hpointers : ∀ l, l ≠ k → (s.unheld k c).pointers l = s.pointers l := fun l hl =>
    Function.update_of_ne hl ..
  have hnone : (s.unheld k c).refCounts c = none := by simp [unheld, store, setCount]
  have hmade := (hinv.counted c n hn).1
  have hmembers : ∀ f ∈ (List.range (s.members c)).reverse,
      ((s.unheld k c).pointers (.member c f)).isSome = true := fun f hf => by
    by_cases hmk : .member c f = k
    · simp [unheld, store, hmk]
    · rw [hpointers _ hmk]
      exact hinv.whole c f hsome (by simpa using hf)
  obtain ⟨t, hloop, hinvt, hwithin, hgone⟩ := destroy_members ih hheld
    (fun o ho => (unheld_counts ho).2) hpointers _ (List.nodup_reverse.mpr List.nodup_range) hinv₁
    (Within.refl _ _) hnone hmembers
    (Nat.lt_of_lt_of_le (unheld_alive hmade hsome) (Nat.le_of_lt_succ hfuel))
  have hk : t.pointers k = some ⟨none, some c⟩ := by
    rcases hwithin.pointers k with heq | ⟨-, o, f, heq, ho⟩
    · rw [heq]
      exact Function.update_self ..
    · exact absurd ho (howner o (by rw [heq]; rfl))
  have hdeleted : c ∉ t.deleted := fun hmem => by
    rcases (hwithin.deleted c).mp hmem with hmem | ⟨hsome', -⟩
    · simp [(hinv.gone c hmem).2] at hsome
    · exact absurd hsome' (by rw [hnone]; simp)
  have hcount : t.refCounts c = none := by
    by_contra hcount
    exact absurd (hwithin.counts c (Option.isSome_iff_ne_none.mpr hcount)) (by rw [hnone]; simp)
  have hmembers' : ∀ f, t.pointers (.member c f) = none := fun f => by
    cases hf : t.pointers (.member c f) with
    | none => rfl
    | some q =>
        have hlt := (hinvt.inside c f q hf).2.1
        rw [hwithin.members] at hlt
        change f < s.members c at hlt
        rw [hgone f (by simpa using hlt)] at hf
        cases hf
  have hrefers : ∀ o, ¬t.Refers k o := fun o ⟨q, hq, ho⟩ => by
    rw [hk] at hq
    cases hq
    cases ho
  refine ⟨_, release_last hp hc hptr hn hle hloop hdeleted (by simp [hk]), ?_, ?_, by simp [store]⟩
  · rw [store_store]
    refine (hinvt.delete hcount (by rw [hwithin.made]; exact hmade) hdeleted hmembers').store_null
      hrefers fun o f heq => ?_
    obtain ⟨hlt, hf, ho⟩ := hinvt.inside o f _ (heq ▸ hk)
    refine ⟨hlt, hf, fun hmem => ?_⟩
    rcases List.mem_cons.mp hmem with rfl | hmem
    · exact howner o (by rw [heq]; rfl) hheld
    · exact ho hmem
  · rw [store_store]
    exact hwithin.of_unheld hheld hsome hcount

theorem releases (fuel : Nat) : Releases fuel := by
  induction fuel with
  | zero => exact fun s k p _ _ _ hfuel => absurd hfuel (Nat.not_lt_zero _)
  | succ fuel ih =>
      intro s k p hinv hp howner hfuel
      cases hc : p.m_pRefCount with
      | none =>
          refine ⟨s, by simp [release, get, hp, hc, bind, Except.bind], ?_, Within.refl _ _,
            by simp [hp]⟩
          exact hinv.store_null (fun o ho => by simp_all [Refers]) fun o f heq =>
            hinv.inside o f p (heq ▸ hp)
      | some c =>
          obtain ⟨n, hn⟩ := Option.isSome_iff_exists.mp (hinv.held k p c hp hc).1
          by_cases hlt : 1 < n
          · refine ⟨s.setCount c (some (Int.bmod (n + -1) (2 ^ 32))), ?_,
              hinv.drop ⟨p, hp, hc⟩ hn hlt, ?_, by simp [setCount, hp]⟩
            · simp [release, get, hp, hc, android_atomic_add, hn, hlt, bind, Except.bind]
            · exact Within.of_counts rfl rfl rfl (fun o => by
                by_cases hoc : o = c <;> simp [setCount, store, hoc, hn]) rfl
          · exact ih.last hinv hp hc hn hlt howner hfuel

/-! ### Steps -/

/-- What holds between the operations of a program. -/
structure AtRest (s : Heap) : Prop where
  inv : Inv s
  same : ∀ k p, s.pointers k = some p → p.m_ptr = p.m_pRefCount
  freed : ∀ o < s.made, s.refCounts o = none → o ∈ s.deleted

theorem AtRest.accounted (h : AtRest s) : Accounted s := by
  refine ⟨h.same, fun o ho hmem => ?_, fun o ho => ?_, h.inv.once, fun o f p hp => ?_⟩
  · cases hn : s.refCounts o with
    | none => exact absurd (h.freed o ho hn) hmem
    | some n =>
        obtain ⟨-, rfl, hpos, -⟩ := h.inv.counted o n hn
        exact ⟨rfl, hpos⟩
  · obtain ⟨hlt, hnone⟩ := h.inv.gone o ho
    refine ⟨hlt, hnone, Set.eq_empty_of_forall_notMem fun l ⟨p, hp, hc⟩ => ?_⟩
    simpa [hnone] using (h.inv.held l p o hp hc).1
  · obtain ⟨hlt, -, hmem⟩ := h.inv.inside o f p hp
    exact ⟨hlt, hmem⟩

theorem AtRest.release (h : AtRest s) (hp : s.pointers k = some p)
    (howner : ∀ o, k.owner = some o → ¬s.HeldThrough k o) :
    ∃ s', release (s.made + 1) s k = .ok s' ∧ AtRest (s'.store k null) ∧
      Within (s.HeldThrough k) (s.store k null) (s'.store k null) ∧
      (s'.pointers k).isSome = true := by
  have hfuel : s.alive.card < s.made + 1 := by
    have hle := Finset.card_filter_le (Finset.range s.made) fun o => (s.refCounts o).isSome = true
    rw [Finset.card_range] at hle
    exact Nat.lt_succ_of_le hle
  obtain ⟨s', hrelease, hinv, hwithin, hsome⟩ := releases _ s k p h.inv hp howner hfuel
  refine ⟨s', hrelease, ⟨hinv, fun l q hl => ?_, fun o ho hnone => ?_⟩, hwithin, hsome⟩
  · rcases hwithin.pointers l with heq | ⟨hnone, -⟩
    · rw [heq] at hl
      by_cases hlk : l = k
      · obtain rfl : null = q := by simpa [store, hlk] using hl
        rfl
      · exact h.same l q (by simpa [store, hlk] using hl)
    · rw [hnone] at hl
      cases hl
  · rw [hwithin.deleted]
    cases hn : s.refCounts o with
    | none => exact .inl (h.freed o (hwithin.made ▸ ho) hn)
    | some n => exact .inr ⟨by simp [store, hn], hnone⟩

theorem AtRest.store (h : AtRest s) {x : Option Int} (hp : p.m_ptr = p.m_pRefCount)
    (hinv : Inv ((s.setCount c x).store k p)) (hx : x = none → s.refCounts c = none) :
    AtRest ((s.setCount c x).store k p) := by
  refine ⟨hinv, fun l q hl => ?_, fun o ho hn => h.freed o ho ?_⟩
  · by_cases hlk : l = k
    · obtain rfl : p = q := by simpa [Heap.store, hlk] using hl
      exact hp
    · exact h.same l q (by simpa [Heap.store, setCount, hlk] using hl)
  · by_cases hoc : o = c
    · subst hoc
      exact hx (by simpa [Heap.store, setCount] using hn)
    · simpa [Heap.store, setCount, hoc] using hn

theorem AtRest.store_null (h : AtRest s) (hk : ∀ o, ¬s.Refers k o)
    (hinside : ∀ o f, k = .member o f → o < s.made ∧ f < s.members o ∧ o ∉ s.deleted) :
    AtRest (s.store k null) := by
  have hcount : s.setCount s.made none = s := by
    rw [setCount, ← h.inv.refCounts_made, Function.update_eq_self]
  have hrest := h.store (c := s.made) (x := none) (k := k) (p := null) rfl
    (by rw [hcount]; exact h.inv.store_null hk hinside) fun _ => h.inv.refCounts_made
  rwa [hcount] at hrest

/-- A pointer to nothing becomes another one to what a pointer refers to. -/
theorem AtRest.use {rhs : Loc} (h : AtRest s) (hk : ∀ o, ¬s.Refers k o)
    (hinside : ∀ o f, k = .member o f → o < s.made ∧ f < s.members o ∧ o ∉ s.deleted)
    (hrhs : s.pointers rhs = some p)
    (hbound : ∀ o, s.Refers rhs o → (s.holders o).ncard + 1 < 2 ^ 31) :
    ∃ s', (s.store k p).use k = .ok s' ∧ AtRest s' := by
  have hget : (s.store k p).get k = .ok p := by simp [get, Heap.store]
  have hsame := h.same rhs p hrhs
  cases hc : p.m_pRefCount with
  | none =>
      rw [hc] at hsame
      obtain rfl : p = null := by
        cases p
        exact SmartPtr.mk.injEq .. ▸ ⟨hc, hsame⟩
      exact ⟨s.store k null, by simp [Heap.use, hget, hc, bind, Except.bind],
        h.store_null hk hinside⟩
  | some c =>
      rw [hc] at hsame
      obtain ⟨n, hn⟩ := Option.isSome_iff_exists.mp (h.inv.held rhs p c hrhs hc).1
      obtain rfl : p = ⟨some c, some c⟩ := by
        cases p
        exact SmartPtr.mk.injEq .. ▸ ⟨hc, hsame⟩
      refine ⟨(s.setCount c (some (Int.bmod (n + 1) (2 ^ 32)))).store k ⟨some c, some c⟩, ?_,
        h.store rfl (h.inv.share hk hn (hbound c ⟨_, hrhs, rfl⟩) hinside) (by simp)⟩
      have hcount : (s.store k ⟨some c, some c⟩).refCounts c = some n := hn
      simp [Heap.use, hget, android_atomic_add, hcount, bind, Except.bind]
      rfl

theorem Inv.pointers_made (h : Inv s) (f : Nat) : s.pointers (.member s.made f) = none := by
  cases hp : s.pointers (.member s.made f) with
  | none => rfl
  | some p => exact absurd (h.inside _ f p hp).1 (Nat.lt_irrefl _)

theorem pointers_construct {n members : Nat}
    (hl : (s.construct n (some members)).pointers l = some p) :
    (l = .var n ∧ p = ⟨some s.made, some s.made⟩) ∨
      (∃ f < members, l = .member s.made f ∧ p = null) ∨ s.pointers l = some p := by
  cases l with
  | var n' =>
      by_cases hn' : n' = n
      · exact .inl ⟨by rw [hn'], by simpa [Heap.construct, hn', eq_comm] using hl⟩
      · exact .inr (.inr (by simpa [Heap.construct, hn'] using hl))
  | member o f =>
      by_cases ho : o = s.made ∧ f < members
      · exact .inr (.inl ⟨f, ho.2, by rw [ho.1], by simpa [Heap.construct, ho, eq_comm] using hl⟩)
      · exact .inr (.inr (by simpa [Heap.construct, ho] using hl))

theorem refers_construct {n members : Nat} (h : Inv s) (hn : s.pointers (.var n) = none) :
    (s.construct n (some members)).Refers l o ↔ (l = .var n ∧ o = s.made) ∨ s.Refers l o := by
  constructor
  · rintro ⟨p, hp, hc⟩
    rcases pointers_construct hp with ⟨rfl, rfl⟩ | ⟨f, -, rfl, rfl⟩ | hp
    · exact .inl ⟨rfl, (Option.some.inj hc).symm⟩
    · cases hc
    · exact .inr ⟨p, hp, hc⟩
  · rintro (⟨rfl, rfl⟩ | ⟨p, hp, hc⟩)
    · exact ⟨⟨some s.made, some s.made⟩, by simp [Heap.construct], rfl⟩
    · refine ⟨p, ?_, hc⟩
      cases l with
      | var n' =>
          have hne : n' ≠ n := fun heq => by simp [heq, hn] at hp
          simpa [Heap.construct, hne] using hp
      | member o' f =>
          have hne : ¬(o' = s.made ∧ f < members) := fun heq => by
            simp [heq.1, h.pointers_made] at hp
          simpa [Heap.construct, hne] using hp

theorem AtRest.construct {n : Nat} (h : AtRest s) (hn : s.pointers (.var n) = none)
    (members : Option Nat) : AtRest (s.construct n members) := by
  cases members with
  | none =>
      exact h.store_null (fun o ⟨p, hp, _⟩ => by simp [hn] at hp) (fun o f heq => by cases heq)
  | some members =>
      have hlt : ∀ o, (s.refCounts o).isSome = true → o < s.made := fun o ho => by
        obtain ⟨m, hm⟩ := Option.isSome_iff_exists.mp ho
        exact (h.inv.counted o m hm).1
      have hsome : ∀ o, o ≠ s.made → (s.construct n (some members)).refCounts o = s.refCounts o :=
        fun o ho => Function.update_of_ne ho ..
      have hmade : (s.construct n (some members)).refCounts s.made = some 1 :=
        Function.update_self ..
      have hmembers : ∀ o, o ≠ s.made → (s.construct n (some members)).members o = s.members o :=
        fun o ho => Function.update_of_ne ho ..
      have hmembers' : (s.construct n (some members)).members s.made = members :=
        Function.update_self ..
      refine ⟨⟨fun o m hm => ?_, fun l p c hp hc => ?_, fun o f p hp => ?_, fun o f ho hf => ?_,
        fun o ho => ?_, h.inv.once⟩, fun l p hp => ?_, fun o ho hnone => ?_⟩
      · by_cases hom : o = s.made
        · subst hom
          rw [hmade] at hm
          obtain rfl := Option.some.inj hm
          have hholders : (s.construct n (some members)).holders s.made = {.var n} := by
            ext l
            change (s.construct n (some members)).Refers l s.made ↔ l = .var n
            rw [refers_construct h.inv hn]
            refine ⟨fun hl => hl.elim And.left fun ⟨p, hp, hc⟩ => ?_, fun hl => .inl ⟨hl, rfl⟩⟩
            exact absurd (hlt _ (h.inv.held l p _ hp hc).1) (Nat.lt_irrefl _)
          rw [hholders, Set.ncard_singleton]
          exact ⟨Nat.lt_succ_self s.made, rfl, Nat.one_pos, by decide⟩
        · rw [hsome o hom] at hm
          have hholders : (s.construct n (some members)).holders o = s.holders o := by
            ext l
            change (s.construct n (some members)).Refers l o ↔ s.Refers l o
            rw [refers_construct h.inv hn]
            simp [hom]
          rw [hholders]
          exact ⟨Nat.lt_succ_of_lt (h.inv.counted o m hm).1, (h.inv.counted o m hm).2⟩
      · rcases pointers_construct hp with ⟨-, rfl⟩ | ⟨f, -, -, rfl⟩ | hp
        · cases hc
          exact ⟨by simp [hmade], rfl⟩
        · cases hc
        · obtain ⟨hcount, hptr⟩ := h.inv.held l p c hp hc
          rw [hsome c (Nat.ne_of_lt (hlt c hcount))]
          exact ⟨hcount, hptr⟩
      · rcases pointers_construct hp with ⟨heq, -⟩ | ⟨f', hf, heq, -⟩ | hp
        · cases heq
        · cases heq
          refine ⟨Nat.lt_succ_self s.made, ?_, fun hmem => ?_⟩
          · exact Nat.lt_of_lt_of_eq hf hmembers'.symm
          · exact Nat.lt_irrefl _ (h.inv.gone _ hmem).1
        · obtain ⟨ho, hf, hmem⟩ := h.inv.inside o f p hp
          exact ⟨Nat.lt_succ_of_lt ho, by rw [hmembers o (Nat.ne_of_lt ho)]; exact hf, hmem⟩
      · by_cases hom : o = s.made
        · subst hom
          have hf : f < members := Nat.lt_of_lt_of_eq hf hmembers'
          simp [Heap.construct, hf]
        · rw [hsome o hom] at ho
          rw [hmembers o hom] at hf
          simpa [Heap.construct, hom] using h.inv.whole o f ho hf
      · obtain ⟨ho, hnone⟩ := h.inv.gone o ho
        exact ⟨Nat.lt_succ_of_lt ho, by rw [hsome o (Nat.ne_of_lt ho)]; exact hnone⟩
      · rcases pointers_construct hp with ⟨-, rfl⟩ | ⟨f, -, -, rfl⟩ | hp
        · rfl
        · rfl
        · exact h.same l p hp
      · have hom : o ≠ s.made := fun heq => by simp [heq, hmade] at hnone
        rw [hsome o hom] at hnone
        exact h.freed o (Nat.lt_of_le_of_ne (Nat.le_of_lt_succ ho) hom) hnone

theorem AtRest.copy {n : Nat} {rhs : Loc} (h : AtRest s) (hn : s.pointers (.var n) = none)
    (hrhs : (s.pointers rhs).isSome = true)
    (hbound : ∀ o, s.Refers rhs o → (s.holders o).ncard + 1 < 2 ^ 31) :
    ∃ s', s.copy n rhs = .ok s' ∧ AtRest s' := by
  obtain ⟨p, hp⟩ := Option.isSome_iff_exists.mp hrhs
  obtain ⟨s', huse, hrest⟩ := h.use (k := .var n) (fun o ⟨q, hq, _⟩ => by simp [hn] at hq)
    (fun o f heq => by cases heq) hp hbound
  exact ⟨s', by simpa [Heap.copy, get, hp, bind, Except.bind] using huse, hrest⟩

theorem AtRest.assign {rhs : Loc} (h : AtRest s) (hk : (s.pointers k).isSome = true)
    (hrhs : (s.pointers rhs).isSome = true) (hclear : (Op.assign k rhs).Clear s) :
    ∃ s', s.assign k rhs = .ok s' ∧ AtRest s' := by
  obtain ⟨p, hp⟩ := Option.isSome_iff_exists.mp hk
  obtain ⟨r, hr⟩ := Option.isSome_iff_exists.mp hrhs
  by_cases heq : p.m_ptr = r.m_ptr
  · exact ⟨s, by simp [Heap.assign, get, hp, hr, heq, bind, Except.bind], h⟩
  · obtain ⟨howner, hbound⟩ := hclear.resolve_left (by simpa [hp, hr] using heq)
    obtain ⟨t, hrelease, hrest, hwithin, hsome⟩ := h.release hp fun o ho => howner o (.inl ho)
    have hne : rhs ≠ k := fun h => by
      rw [h, hp] at hr
      exact heq (congrArg SmartPtr.m_ptr (Option.some.inj hr))
    -- The source is in no object that has been deleted.
    have hr' : (t.store k null).pointers rhs = some r := by
      rcases hwithin.pointers rhs with hsame | ⟨-, o, f, hrhs, ho⟩
      · rw [hsame]
        simpa [Heap.store, hne] using hr
      · exact absurd ho (howner o (.inr (by rw [hrhs]; rfl)))
    have hrefers : ∀ l o, (t.store k null).Refers l o → s.Refers l o := fun l o hl => by
      rcases refers_store.mp (hwithin.refers hl) with ⟨-, hnull⟩ | ⟨-, hl⟩
      · cases hnull
      · exact hl
    have hnot : ∀ o, ¬(t.store k null).Refers k o := fun o ho => by
      rcases refers_store.mp ho with ⟨-, hnull⟩ | ⟨hkk, -⟩
      · cases hnull
      · exact hkk rfl
    have hbound' : ∀ o, (t.store k null).Refers rhs o →
        ((t.store k null).holders o).ncard + 1 < 2 ^ 31 := fun o ho => by
      obtain ⟨q, hq, hc⟩ := hrefers rhs o ho
      obtain ⟨m, hm⟩ := Option.isSome_iff_exists.mp (h.inv.held rhs q o hq hc).1
      have hfinite := Set.finite_of_ncard_pos (h.inv.counted o m hm).2.2.1
      have hle := Set.ncard_le_ncard (fun l hl => hrefers l o hl) hfinite
      exact Nat.lt_of_le_of_lt (Nat.succ_le_succ hle) (hbound o (hrefers rhs o ho))
    obtain ⟨s', huse, hrest'⟩ := hrest.use hnot
      (fun o f hmember => hrest.inv.inside o f null (hmember ▸ Function.update_self ..))
      hr' hbound'
    refine ⟨s', ?_, hrest'⟩
    rw [store_store] at huse
    have hr'' : t.pointers rhs = some r := by simpa [Heap.store, hne] using hr'
    simpa [Heap.assign, get, hp, hr, heq, hrelease, hr'', put, hsome, bind, Except.bind] using huse

theorem AtRest.destruct {n : Nat} (h : AtRest s) (hn : (s.pointers (.var n)).isSome = true) :
    ∃ s', s.destruct n = .ok s' ∧ AtRest s' := by
  obtain ⟨p, hp⟩ := Option.isSome_iff_exists.mp hn
  obtain ⟨s', hrelease, hrest, -⟩ := h.release hp (fun o ho => by cases ho)
  refine ⟨_, destroy_ok hrelease, ?_⟩
  rw [← clear_store (p := null)]
  refine ⟨hrest.inv.clear (Function.update_self ..) (fun o ho => by cases ho), fun l q hl => ?_,
    hrest.freed⟩
  by_cases hlk : l = .var n
  · simp [Heap.clear, hlk] at hl
  · exact hrest.same l q (by simpa [Heap.clear, hlk] using hl)

theorem AtRest.step {op : Op} (h : AtRest s) (hvalid : op.Valid s) (hclear : op.Clear s) :
    ∃ s', s.step op = .ok s' ∧ AtRest s' := by
  cases op with
  | construct n members => exact ⟨_, rfl, h.construct hvalid members⟩
  | copy n rhs => exact h.copy hvalid.1 hvalid.2 hclear
  | assign k rhs => exact h.assign hvalid.1 hvalid.2 hclear
  | destruct n => exact h.destruct hvalid

/-- The pointer at `k` can be assigned once more where the count of its object is small. -/
theorem Accounted.room {n : Int} (h : s.Accounted) (hk : s.pointers k = some ⟨some c, some c⟩)
    (hmade : c < s.made) (hdeleted : c ∉ s.deleted) (hc : s.refCounts c = some n)
    (hn : n + 1 < 2 ^ 31) : ∀ o, s.Refers k o → (s.holders o).ncard + 1 < 2 ^ 31 := by
  rintro o ⟨p, hp, ho⟩
  obtain rfl := Option.some.inj (hk.symm.trans hp)
  obtain rfl := Option.some.inj ho
  have hcount := (h.counted c hmade hdeleted).1
  have : n = (s.holders c).ncard := Option.some.inj (hc.symm.trans hcount)
  omega

theorem AtRest.initial : AtRest initial where
  inv := by constructor <;> simp [Heap.initial]
  same := by simp [Heap.initial]
  freed := by simp [Heap.initial]

end Heap

open Run (Reach)

/-- Where each assignment of a run is clear of what it deletes, the counts are right in each state
that is reached, and nothing is read or deleted after it has been deleted. -/
theorem accounted_of_clear {s : Heap}
    (h : Reach Heap.step (fun s op => op.Valid s ∧ op.Clear s) Heap.initial s) :
    s.Accounted ∧ ∀ op : Op, op.Valid s → op.Clear s → ∃ s', s.step op = .ok s' ∧ s'.Accounted := by
  have hrest : s.AtRest := by
    induction h with
    | refl => exact Heap.AtRest.initial
    | step _ hok hstep ih =>
        obtain ⟨s', hstep', hrest⟩ := ih.step hok.1 hok.2
        rw [hstep] at hstep'
        exact Except.ok.inj hstep' ▸ hrest
  refine ⟨hrest.accounted, fun op hvalid hclear => ?_⟩
  obtain ⟨s', hstep, hrest'⟩ := hrest.step hvalid hclear
  exact ⟨s', hstep, hrest'.accounted⟩

/-- An assignment deletes the object that held the other pointer to its source. -/
theorem accounted_of_clear_destruct :
    ∃ s : Heap, s.made = 2 ∧ s.deleted = [1, 0] ∧ s.Accounted := by
  have h₀ : Reach Heap.step (fun s op => op.Valid s ∧ op.Clear s) Heap.initial Heap.initial := .refl
  have h₁ := h₀.step (a := Op.construct 0 (some 1)) ⟨rfl, trivial⟩ rfl
  have h₂ := h₁.step (a := Op.construct 1 (some 0)) ⟨rfl, trivial⟩ rfl
  have hroom₂ := (accounted_of_clear h₂).1.room (k := .var 1) rfl (by decide) nofun rfl (by decide)
  have h₃ := h₂.step (a := Op.assign (.member 0 0) (.var 1)) ⟨⟨rfl, rfl⟩, .inr ⟨by
    rintro o (ho | ho) ⟨_, howner, _⟩
    · exact absurd (howner (.var 0) ⟨_, rfl, ho⟩ nofun) nofun
    · exact absurd ho nofun, hroom₂⟩⟩ rfl
  have hroom₃ := (accounted_of_clear h₃).1.room (k := .var 1) rfl (by decide) nofun rfl (by decide)
  have h₄ := h₃.step (a := Op.assign (.var 0) (.var 1)) ⟨⟨rfl, rfl⟩, .inr ⟨nofun, hroom₃⟩⟩ rfl
  have h₅ := h₄.step (a := Op.destruct 1) ⟨rfl, trivial⟩ rfl
  have h₆ := h₅.step (a := Op.destruct 0) ⟨rfl, trivial⟩ rfl
  exact ⟨_, rfl, rfl, (accounted_of_clear h₆).1⟩

/-- A source in an object that is deleted with the last reference is read all the same. -/
theorem assign_reads_deleted : ∃ s, Reach Heap.step (fun s op => op.Valid s) Heap.initial s ∧
    (Op.assign (.var 0) (.member 0 0)).Valid s ∧
    s.step (.assign (.var 0) (.member 0 0)) = .error .pointer := by
  have h₀ : Reach Heap.step (fun s op => op.Valid s) Heap.initial Heap.initial := .refl
  have h₁ := h₀.step (a := Op.construct 0 (some 1)) rfl rfl
  have h₂ := h₁.step (a := Op.construct 1 (some 0)) rfl rfl
  have h₃ := h₂.step (a := Op.assign (.member 0 0) (.var 1)) ⟨rfl, rfl⟩ rfl
  exact ⟨_, h₃, ⟨rfl, rfl⟩, rfl⟩

end AndroidRenderer.Pointers
