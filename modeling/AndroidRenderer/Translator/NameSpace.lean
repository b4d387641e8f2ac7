import AndroidRenderer.Translator.ShareGroup

/-!
# Local names

A namespace hands out local names in order, but leaves out 0 and the names that are in use. Local
names have 64 bits, of which the application gets the lower 32.
-/

namespace AndroidRenderer.Translator

/-- A name as the translator looks it up. -/
abbrev localName (name : GLuint) : ObjectLocalName := name.toUInt64

abbrev clientName (name : ObjectLocalName) : GLuint := name.toUInt32

theorem clientName_localName (name : GLuint) : clientName (localName name) = name :=
  UInt32.toUInt32_toUInt64 name

@[grind =] theorem localName_inj {name name' : GLuint} :
    localName name = localName name' ↔ name = name' :=
  ⟨fun h => by rw [← clientName_localName name, h, clientName_localName], congrArg _⟩

/-- The names that the loop of `NameSpace::genName` goes through. -/
def candidates (next : ObjectLocalName) (n : Nat) : List ObjectLocalName :=
  (List.range n).map fun i => next + 1 + UInt64.ofNat i

/-- A name that the loop does not leave out. -/
def Free (names : KeyedVector ObjectLocalName GLuint) (name : ObjectLocalName) : Prop :=
  name ≠ 0 ∧ names.get? name = none

instance (names : KeyedVector ObjectLocalName GLuint) (name : ObjectLocalName) :
    Decidable (Free names name) :=
  inferInstanceAs (Decidable (_ ∧ _))

/-- The loop of `NameSpace::genName`. It leaves out 0 and the names in use, so it has this many
turns at most. -/
def freeName (names : KeyedVector ObjectLocalName GLuint) (next : ObjectLocalName) :
    ObjectLocalName :=
  ((candidates next (names.entries.length + 2)).find? fun name => Free names name).getD next

theorem nodup_candidates (next : ObjectLocalName) {n : Nat} (h : n ≤ 2 ^ 64) :
    (candidates next n).Nodup := by
  refine List.Nodup.map_on ?_ List.nodup_range
  intro i hi j hj heq
  rw [List.mem_range] at hi hj
  grind [UInt64.toNat_ofNat_of_lt']

/-- The loop ends with a free name, as long as not all names are in use. -/
theorem free_freeName {names : KeyedVector ObjectLocalName GLuint}
    (h : names.entries.length + 2 ≤ 2 ^ 64) (next : ObjectLocalName) :
    Free names (freeName names next) := by
  unfold freeName
  cases hfind : (candidates next (names.entries.length + 2)).find? fun name => Free names name with
  | some name => grind
  | none =>
      have hused : candidates next (names.entries.length + 2) ⊆
          0 :: names.entries.map Prod.fst := by
        intro name hname
        have hnot : ¬Free names name := of_decide_eq_false
          (Bool.eq_false_iff.mpr (List.find?_eq_none.mp hfind name hname))
        rw [List.mem_cons]
        by_cases hzero : name = 0
        · exact .inl hzero
        · right
          by_contra hmem
          refine hnot ⟨hzero, ?_⟩
          rw [KeyedVector.get?, List.find?_eq_none.mpr, Option.map_none]
          grind
      have hlength := ((nodup_candidates next h).subperm hused).length_le
      grind [candidates]

/-- A share group with `m_nextName` of each type. -/
structure ObjectNames (δ : Type) extends ShareGroup δ where
  nextName : NamedObjectType → ObjectLocalName

namespace ObjectNames

variable {δ : Type}

def new : ObjectNames δ := ⟨.new, fun _ => 0⟩

def modify (g : ObjectNames δ) (f : ShareGroup δ → ShareGroup δ) : ObjectNames δ :=
  { g with toShareGroup := f g.toShareGroup }

/-- `genName` where the namespace chooses the name; `globalName` is the driver's. -/
def genLocalName (g : ObjectNames δ) (type : NamedObjectType) (globalName : GLuint) :
    ObjectNames δ × ObjectLocalName :=
  let name := freeName (g.localToGlobalMap type) (g.nextName type)
  (⟨g.toShareGroup.genName type name globalName, Function.update g.nextName type name⟩, name)

end ObjectNames

namespace ShareGroup

variable {δ : Type}

/-- `setObjectData` with a new object. `std::map::insert` keeps the data that a name has. -/
def insertObjectData (g : ShareGroup δ) (type : NamedObjectType) (name : ObjectLocalName)
    (data : δ) : ShareGroup δ :=
  if (g.getObjectData type name).isSome then g else g.setObjectData type name data

@[grind =] theorem getObjectData_insertObjectData (g : ShareGroup δ) (type : NamedObjectType)
    (name name' : ObjectLocalName) (data : δ) :
    (g.insertObjectData type name data).getObjectData type name' =
      if name' = name then some ((g.getObjectData type name).getD data)
      else g.getObjectData type name' := by
  unfold insertObjectData
  cases hdata : g.getObjectData type name with
  | none => simp [getObjectData_setObjectData]
  | some data' => grind

theorem getObjectData_insertObjectData_of_ne (g : ShareGroup δ) {type type' : NamedObjectType}
    (hne : type' ≠ type) (name name' : ObjectLocalName) (data : δ) :
    (g.insertObjectData type name data).getObjectData type' name' =
      g.getObjectData type' name' := by
  unfold insertObjectData
  split
  · rfl
  · rw [setObjectData, getObjectData, KeyedVector.get?_add,
      if_neg fun heq => hne (Prod.mk.inj heq).1]
    rfl

end ShareGroup

end AndroidRenderer.Translator
