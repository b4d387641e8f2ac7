import AndroidRenderer.Lib.Run
import AndroidRenderer.Translator.NameSpace

/-!
# Names and data of a share group

Names are generated, or chosen by the application, and mapped to names of the driver; objects get
data under their names. The system keeps beside the share group which data was set last for each
name since the name was deleted.
-/

namespace AndroidRenderer.Translator

namespace ShareGroup

variable {δ : Type}

/-- `getLocalName`. The map is ordered by the local names. -/
def getLocalName (g : ShareGroup δ) (type : NamedObjectType) (globalName : GLuint) :
    ObjectLocalName :=
  (((g.localToGlobalMap type).entries.filter fun e => e.2 = globalName).map Prod.fst).min?.getD 0

theorem isObject_deleteName_iff (g : ShareGroup δ) (type type' : NamedObjectType)
    (name name' : ObjectLocalName) :
    (g.deleteName type name).isObject type' name' =
      if type' = type ∧ name' = name then false else g.isObject type' name' := by
  by_cases htype : type' = type
  · subst htype
    rw [isObject_deleteName]
    by_cases hname : name' = name
    · simp [hname]
    · simp [hname]
  · rw [if_neg fun h => htype h.1]
    simp only [isObject, deleteName, setNames, if_neg htype]

theorem getGlobalName_deleteName_iff (g : ShareGroup δ) (type type' : NamedObjectType)
    (name name' : ObjectLocalName) :
    (g.deleteName type name).getGlobalName type' name' =
      if type' = type ∧ name' = name then 0 else g.getGlobalName type' name' := by
  by_cases htype : type' = type
  · subst htype
    rw [getGlobalName_deleteName]
    simp only [true_and]
  · rw [if_neg fun h => htype h.1]
    simp only [getGlobalName, deleteName, setNames, if_neg htype]

theorem getObjectData_deleteName_iff (g : ShareGroup δ) (type type' : NamedObjectType)
    (name name' : ObjectLocalName) :
    (g.deleteName type name).getObjectData type' name' =
      if type' = type ∧ name' = name then none else g.getObjectData type' name' := by
  simp only [getObjectData, deleteName, KeyedVector.get?_remove, Prod.mk.injEq]

theorem getObjectData_insertObjectData_iff (g : ShareGroup δ) (type type' : NamedObjectType)
    (name name' : ObjectLocalName) (data : δ) :
    (g.insertObjectData type name data).getObjectData type' name' =
      if type' = type ∧ name' = name then some ((g.getObjectData type name).getD data)
      else g.getObjectData type' name' := by
  by_cases htype : type' = type
  · subst htype
    rw [getObjectData_insertObjectData]
    simp only [true_and]
  · rw [getObjectData_insertObjectData_of_ne g htype, if_neg fun h => htype h.1]

end ShareGroup

structure Distinct (names : KeyedVector ObjectLocalName GLuint) : Prop where
  ne_zero : ∀ name globalName, names.get? name = some globalName → globalName ≠ 0
  inj : ∀ name name' globalName, names.get? name = some globalName →
    names.get? name' = some globalName → name = name'

namespace Distinct

variable {names : KeyedVector ObjectLocalName GLuint}

theorem empty : Distinct .empty where
  ne_zero := by
    intro name globalName hget
    cases hget
  inj := by
    intro name name' globalName hget
    cases hget

theorem remove (h : Distinct names) (name : ObjectLocalName) : Distinct (names.remove name) := by
  have hget : ∀ name' globalName, (names.remove name).get? name' = some globalName →
      names.get? name' = some globalName := by
    intro name' globalName hget
    rw [KeyedVector.get?_remove] at hget
    split at hget
    · cases hget
    · exact hget
  constructor
  · intro name' globalName hname
    exact h.ne_zero name' globalName (hget _ _ hname)
  · intro name₁ name₂ globalName h₁ h₂
    exact h.inj name₁ name₂ globalName (hget _ _ h₁) (hget _ _ h₂)

/-- A name of the driver's that nothing has may be added. -/
theorem add (h : Distinct names) (name : ObjectLocalName) {globalName : GLuint}
    (hzero : globalName ≠ 0) (hfresh : ∀ e ∈ names.entries, e.2 ≠ globalName) :
    Distinct (names.add name globalName) := by
  have hunused : ∀ name', names.get? name' ≠ some globalName := by
    intro name' hget
    apply hfresh (name', globalName)
    · exact KeyedVector.get?_eq_some_iff.mp hget
    · rfl
  constructor
  · intro name' globalName' hget
    rw [KeyedVector.get?_add] at hget
    split at hget
    · obtain rfl := Option.some.inj hget
      exact hzero
    · exact h.ne_zero name' globalName' hget
  · intro name₁ name₂ globalName' h₁ h₂
    rw [KeyedVector.get?_add] at h₁ h₂
    split at h₁ <;> split at h₂
    · rename_i heq₁ heq₂
      rw [heq₁, heq₂]
    · obtain rfl := Option.some.inj h₁
      exact absurd h₂ (hunused name₂)
    · obtain rfl := Option.some.inj h₂
      exact absurd h₁ (hunused name₁)
    · exact h.inj name₁ name₂ globalName' h₁ h₂

/-- There are no more objects than names of the driver. -/
theorem length_le (h : Distinct names) : names.entries.length ≤ 2 ^ 32 := by
  have hentries : names.entries.Nodup := List.Nodup.of_map Prod.fst names.nodup
  have hglobals : (names.entries.map fun e => e.2.toNat).Nodup := by
    apply List.Nodup.map_on _ hentries
    rintro ⟨name, globalName⟩ hmem ⟨name', globalName'⟩ hmem' heq
    obtain rfl := UInt32.toNat_inj.mp heq
    have hname := h.inj name name' globalName (KeyedVector.get?_eq_some_iff.mpr hmem)
      (KeyedVector.get?_eq_some_iff.mpr hmem')
    rw [hname]
  have hrange : (names.entries.map fun e => e.2.toNat) ⊆ List.range (2 ^ 32) := by
    intro n hn
    obtain ⟨e, -, rfl⟩ := List.mem_map.mp hn
    exact List.mem_range.mpr e.2.toNat_lt
  have hlength := (hglobals.subperm hrange).length_le
  rwa [List.length_map, List.length_range] at hlength

/-- The loop of `NameSpace::genName` finds a name. -/
theorem free (h : Distinct names) (next : ObjectLocalName) : Free names (freeName names next) := by
  apply free_freeName
  have hlength := h.length_le
  omega

end Distinct

/-- A name of the driver's leads back to the one object that has it. -/
theorem ShareGroup.getLocalName_getGlobalName {δ : Type} {g : ShareGroup δ}
    {type : NamedObjectType} (h : Distinct (g.localToGlobalMap type)) {name : ObjectLocalName}
    (hobject : g.isObject type name = true) :
    g.getLocalName type (g.getGlobalName type name) = name := by
  obtain ⟨globalName, hget⟩ := Option.isSome_iff_exists.mp hobject
  have hglobal : g.getGlobalName type name = globalName := by
    simp only [getGlobalName, hget, Option.getD_some]
  rw [hglobal, getLocalName]
  have hall : ∀ name' ∈ ((g.localToGlobalMap type).entries.filter
      fun e => e.2 = globalName).map Prod.fst, name' = name := by
    intro name' hname'
    obtain ⟨⟨name'', globalName'⟩, hmem, rfl⟩ := List.mem_map.mp hname'
    obtain ⟨hentry, heq⟩ := List.mem_filter.mp hmem
    obtain rfl := of_decide_eq_true heq
    exact h.inj _ _ _ (KeyedVector.get?_eq_some_iff.mpr hentry) hget
  have hmem : name ∈ ((g.localToGlobalMap type).entries.filter
      fun e => e.2 = globalName).map Prod.fst := by
    apply List.mem_map.mpr ⟨(name, globalName), List.mem_filter.mpr ⟨?_, ?_⟩, rfl⟩
    · exact KeyedVector.get?_eq_some_iff.mp hget
    · exact decide_eq_true rfl
  obtain ⟨least, hleast⟩ := Option.isSome_iff_exists.mp (List.isSome_min?_of_mem hmem)
  rw [hleast, Option.getD_some]
  exact hall least (List.min?_mem hleast)

/-- The loop of `NameSpace::genName` has no end if no name is left. -/
inductive NameFault
  | endless
  deriving DecidableEq, Repr

/-- The calls; `answer` is the name that the driver generates. -/
inductive NameCall (δ : Type)
  | genName (type : NamedObjectType) (localName : ObjectLocalName) (genLocal : Bool)
      (answer : GLuint)
  | deleteName (type : NamedObjectType) (localName : ObjectLocalName)
  | setObjectData (type : NamedObjectType) (localName : ObjectLocalName) (data : δ)
  | getObjectData (type : NamedObjectType) (localName : ObjectLocalName)

structure NameSystem (δ : Type) where
  names : ObjectNames δ
  lastData : NamedObjectType → ObjectLocalName → Option δ

namespace NameSystem

variable {δ : Type}

def init : NameSystem δ := ⟨.new, fun _ _ => none⟩

/-- `GlobalNameSpace::genName`. Shaders get no name of the driver's. -/
def globalName (type : NamedObjectType) (answer : GLuint) : GLuint :=
  if type = .SHADER then 0 else answer

def genName (names : ObjectNames δ) (type : NamedObjectType) (localName : ObjectLocalName)
    (genLocal : Bool) (answer : GLuint) : Except NameFault (ObjectNames δ × ObjectLocalName) :=
  if genLocal then
    if Free (names.localToGlobalMap type)
        (freeName (names.localToGlobalMap type) (names.nextName type)) then
      .ok (names.genLocalName type (globalName type answer))
    else .error .endless
  else .ok (names.modify (·.genName type localName (globalName type answer)), localName)

/-- The data of one name is replaced. -/
def setLast (last : NamedObjectType → ObjectLocalName → Option δ) (type : NamedObjectType)
    (name : ObjectLocalName) (data : Option δ) : NamedObjectType → ObjectLocalName → Option δ :=
  fun type' name' => if type' = type ∧ name' = name then data else last type' name'

def step (x : NameSystem δ) : NameCall δ → Except NameFault (NameSystem δ)
  | .genName type localName genLocal answer =>
      (genName x.names type localName genLocal answer).map fun r => { x with names := r.1 }
  | .deleteName type localName =>
      .ok ⟨x.names.modify (·.deleteName type localName), setLast x.lastData type localName none⟩
  | .setObjectData type localName data =>
      .ok ⟨x.names.modify (·.insertObjectData type localName data),
        setLast x.lastData type localName (some data)⟩
  | .getObjectData _ _ => .ok x

def DriverFresh (x : NameSystem δ) (type : NamedObjectType) (answer : GLuint) : Prop :=
  type ≠ .SHADER → answer ≠ 0 ∧ ∀ e ∈ (x.names.localToGlobalMap type).entries, e.2 ≠ answer

instance (x : NameSystem δ) (type : NamedObjectType) (answer : GLuint) :
    Decidable (x.DriverFresh type answer) :=
  @instDecidableForall _ _ inferInstance
    (@instDecidableAnd _ _ inferInstance (List.decidableBAll _ _))

def FreshCall (x : NameSystem δ) : NameCall δ → Prop
  | .genName type _ _ answer => x.DriverFresh type answer
  | _ => True

/-- Data is set only where there is none, or the same. -/
def SetsOnce (x : NameSystem δ) : NameCall δ → Prop
  | .setObjectData type localName data =>
      x.names.getObjectData type localName = none ∨
        x.names.getObjectData type localName = some data
  | _ => True

/-- What is left of the names and of the data after a deletion. -/
structure Deletes (g g' : ShareGroup δ) (type : NamedObjectType) (name : ObjectLocalName) :
    Prop where
  isObject : ∀ type' name', g'.isObject type' name' =
    if type' = type ∧ name' = name then false else g.isObject type' name'
  getGlobalName : ∀ type' name', g'.getGlobalName type' name' =
    if type' = type ∧ name' = name then 0 else g.getGlobalName type' name'
  getObjectData : ∀ type' name', g'.getObjectData type' name' =
    if type' = type ∧ name' = name then none else g.getObjectData type' name'

/-- Generated names are new, names of the driver lead back to those of the application, and a
deletion removes one name. -/
structure Named (x : NameSystem δ) : Prop where
  generated : ∀ type localName answer r, genName x.names type localName true answer = .ok r →
    r.2 ≠ 0 ∧ x.names.isObject type r.2 = false ∧ r.1.isObject type r.2 = true
  generates : ∀ type localName answer, type ≠ .SHADER →
    ∃ r, genName x.names type localName true answer = .ok r
  getLocalName : ∀ type, type ≠ .SHADER → ∀ name, x.names.isObject type name = true →
    x.names.getLocalName type (x.names.getGlobalName type name) = name
  deletes : ∀ type name,
    Deletes x.names.toShareGroup (x.names.toShareGroup.deleteName type name) type name

/-- Besides, each name has the data that was set last. -/
structure Consistent (x : NameSystem δ) : Prop extends Named x where
  data : ∀ type name, x.names.getObjectData type name = x.lastData type name

/-- Names of the driver stay distinct while the driver generates fresh names. -/
structure Inv (x : NameSystem δ) : Prop where
  distinct : ∀ type, type ≠ .SHADER → Distinct (x.names.localToGlobalMap type)

theorem inv_init : (init : NameSystem δ).Inv := by
  constructor
  intro type _
  exact Distinct.empty

/-- One type gets a map. -/
theorem distinct_setNames {g : ShareGroup δ} {type : NamedObjectType}
    {names : KeyedVector ObjectLocalName GLuint}
    (hold : ∀ type', type' ≠ .SHADER → Distinct (g.localToGlobalMap type'))
    (hnew : type ≠ .SHADER → Distinct names) (type' : NamedObjectType) (htype : type' ≠ .SHADER) :
    Distinct ((g.setNames type names).localToGlobalMap type') := by
  rw [ShareGroup.setNames]
  dsimp only
  split
  · rename_i heq
    exact hnew (heq ▸ htype)
  · exact hold type' htype

theorem distinct_genName {x : NameSystem δ} (h : x.Inv) {type : NamedObjectType}
    {answer : GLuint} (hfresh : x.DriverFresh type answer) (name : ObjectLocalName)
    (type' : NamedObjectType) (htype : type' ≠ .SHADER) :
    Distinct ((x.names.toShareGroup.genName type name
      (globalName type answer)).localToGlobalMap type') := by
  apply distinct_setNames h.distinct _ type' htype
  intro hshader
  rw [globalName, if_neg hshader]
  obtain ⟨hzero, hunused⟩ := hfresh hshader
  exact (h.distinct type hshader).add name hzero hunused

theorem genName_cases {names : ObjectNames δ} {type : NamedObjectType}
    {localName : ObjectLocalName} {genLocal : Bool} {answer : GLuint}
    {r : ObjectNames δ × ObjectLocalName}
    (h : genName names type localName genLocal answer = .ok r) :
    r.1.toShareGroup = names.toShareGroup.genName type r.2 (globalName type answer) ∧
      (genLocal = true → Free (names.localToGlobalMap type) r.2) := by
  rw [genName] at h
  split at h
  · split at h
    · rename_i hfree
      obtain rfl := Except.ok.inj h
      exact ⟨rfl, fun _ => hfree⟩
    · cases h
  · rename_i hgen
    obtain rfl := Except.ok.inj h
    exact ⟨rfl, fun hlocal => absurd hlocal hgen⟩

theorem inv_step {x x' : NameSystem δ} {c : NameCall δ} (h : x.Inv) (hfresh : x.FreshCall c)
    (hstep : step x c = .ok x') : x'.Inv := by
  constructor
  cases c with
  | genName type localName genLocal answer =>
      obtain ⟨r, hr, rfl⟩ := Run.map_eq_ok.mp hstep
      dsimp only
      rw [(genName_cases hr).1]
      exact distinct_genName h hfresh r.2
  | deleteName type localName =>
      obtain rfl := Except.ok.inj hstep
      apply distinct_setNames h.distinct
      intro hshader
      exact (h.distinct type hshader).remove localName
  | setObjectData type localName data =>
      obtain rfl := Except.ok.inj hstep
      intro type' htype
      have hmap : (x.names.toShareGroup.insertObjectData type localName data).localToGlobalMap =
          x.names.localToGlobalMap := by
        rw [ShareGroup.insertObjectData]
        split <;> rfl
      exact hmap ▸ h.distinct type' htype
  | getObjectData type localName =>
      obtain rfl := Except.ok.inj hstep
      exact h.distinct

theorem named_of_inv {x : NameSystem δ} (h : x.Inv) : x.Named where
  generated := by
    intro type localName answer r hr
    obtain ⟨hgroup, hfree⟩ := genName_cases hr
    obtain ⟨hzero, hunused⟩ := hfree rfl
    refine ⟨hzero, ?_, ?_⟩
    · rw [ShareGroup.isObject, hunused, Option.isSome_none]
    · rw [hgroup, ShareGroup.isObject_genName, decide_eq_true rfl, Bool.true_or]
  generates := by
    intro type localName answer hshader
    exact ⟨_, if_pos rfl |>.trans (if_pos ((h.distinct type hshader).free _))⟩
  getLocalName := by
    intro type hshader name hobject
    exact ShareGroup.getLocalName_getGlobalName (h.distinct type hshader) hobject
  deletes := by
    intro type name
    constructor
    · intro type' name'
      exact ShareGroup.isObject_deleteName_iff _ type type' name name'
    · intro type' name'
      exact ShareGroup.getGlobalName_deleteName_iff _ type type' name name'
    · intro type' name'
      exact ShareGroup.getObjectData_deleteName_iff _ type type' name name'

/-- The data is the last that was set. -/
def Last (x : NameSystem δ) : Prop :=
  ∀ type name, x.names.getObjectData type name = x.lastData type name

theorem last_step {x x' : NameSystem δ} {c : NameCall δ} (h : x.Last) (honce : x.SetsOnce c)
    (hstep : step x c = .ok x') : x'.Last := by
  intro type' name'
  cases c with
  | genName type localName genLocal answer =>
      obtain ⟨r, hr, rfl⟩ := Run.map_eq_ok.mp hstep
      dsimp only
      rw [(genName_cases hr).1, ShareGroup.getObjectData_genName]
      exact h type' name'
  | deleteName type localName =>
      obtain rfl := Except.ok.inj hstep
      apply (ShareGroup.getObjectData_deleteName_iff _ type type' localName name').trans
      rw [h type' name']
      rfl
  | setObjectData type localName data =>
      obtain rfl := Except.ok.inj hstep
      apply (ShareGroup.getObjectData_insertObjectData_iff _ type type' localName name' data).trans
      have hdata : (x.names.getObjectData type localName).getD data = data := by
        obtain hnone | hsame := honce
        · rw [hnone, Option.getD_none]
        · rw [hsame, Option.getD_some]
      rw [hdata, h type' name']
      rfl
  | getObjectData type localName =>
      obtain rfl := Except.ok.inj hstep
      exact h type' name'

/-- Names are consistent in every run in which the driver generates fresh names. -/
theorem named_of_reach {x : NameSystem δ} (h : Run.Reach step FreshCall init x) : x.Named := by
  apply named_of_inv
  apply h.invariant inv_init
  intro t a u hinv hfresh hstep
  exact inv_step hinv hfresh hstep

/-- And so is the data, if the data of a name is only replaced after a deletion. -/
theorem consistent_of_reach {x : NameSystem δ}
    (h : Run.Reach step (fun x c => x.FreshCall c ∧ x.SetsOnce c) init x) : x.Consistent := by
  have hboth : x.Inv ∧ x.Last := by
    apply h.invariant ⟨inv_init, fun _ _ => rfl⟩
    rintro t a u ⟨hinv, hlast⟩ ⟨hfresh, honce⟩ hstep
    exact ⟨inv_step hinv hfresh hstep, last_step hlast honce hstep⟩
  exact { named_of_inv hboth.1 with data := hboth.2 }

instance (x : NameSystem δ) : DecidablePred x.FreshCall
  | .genName type _ _ answer => inferInstanceAs (Decidable (x.DriverFresh type answer))
  | .deleteName _ _ => .isTrue trivial
  | .setObjectData _ _ _ => .isTrue trivial
  | .getObjectData _ _ => .isTrue trivial

instance [DecidableEq δ] (x : NameSystem δ) : DecidablePred x.SetsOnce
  | .setObjectData _ _ _ => inferInstanceAs (Decidable (_ ∨ _))
  | .genName _ _ _ _ => .isTrue trivial
  | .deleteName _ _ => .isTrue trivial
  | .getObjectData _ _ => .isTrue trivial

/-- A texture that is deleted and gets other data. -/
def renewed : List (NameCall Nat) :=
  [.genName .TEXTURE 0 true 5, .setObjectData .TEXTURE 1 1, .deleteName .TEXTURE 1,
    .genName .TEXTURE 1 false 6, .setObjectData .TEXTURE 1 2]

theorem consistent_renewed :
    ∃ x : NameSystem Nat, x.Consistent ∧ x.names.getObjectData .TEXTURE 1 = some 2 := by
  have hrun : Run.check step (fun x c => decide (x.FreshCall c ∧ x.SetsOnce c))
      (fun x : NameSystem Nat => decide (x.names.getObjectData .TEXTURE 1 = some 2)) init
      renewed = true := by
    decide +kernel
  obtain ⟨x, hreach, hdata⟩ := Run.exists_reach_of_check (fun _ _ => of_decide_eq_true) hrun
  exact ⟨x, consistent_of_reach hreach, of_decide_eq_true hdata⟩

/-- A texture gets data twice, and keeps the first. -/
def twice : List (NameCall Nat) :=
  [.genName .TEXTURE 0 true 5, .setObjectData .TEXTURE 1 1, .setObjectData .TEXTURE 1 2]

theorem not_consistent_twice :
    ∃ x : NameSystem Nat, Run.Reach step FreshCall init x ∧ ¬x.Consistent := by
  have hrun : Run.check step (fun x c => decide (x.FreshCall c))
      (fun x : NameSystem Nat => decide (x.names.getObjectData .TEXTURE 1 ≠
        x.lastData .TEXTURE 1)) init twice = true := by
    decide +kernel
  obtain ⟨x, hreach, hdata⟩ := Run.exists_reach_of_check (fun _ _ => of_decide_eq_true) hrun
  refine ⟨x, hreach, fun hconsistent => ?_⟩
  exact of_decide_eq_true hdata (hconsistent.data .TEXTURE 1)

theorem named_twice : ∃ x : NameSystem Nat, x.Named ∧ x.names.isObject .TEXTURE 1 = true := by
  have hrun : Run.check step (fun x c => decide (x.FreshCall c))
      (fun x : NameSystem Nat => x.names.isObject .TEXTURE 1) init twice = true := by
    decide +kernel
  obtain ⟨x, hreach, hlive⟩ := Run.exists_reach_of_check (fun _ _ => of_decide_eq_true) hrun
  exact ⟨x, named_of_reach hreach, hlive⟩

end NameSystem

end AndroidRenderer.Translator
