import AndroidRenderer.Lib.KeyedVector
import AndroidRenderer.OpenglCodecCommon.GL

/-!
# Share groups of the translator

A share group maps the names that an application uses for its objects to the names of the
driver, which all contexts share, and keeps the translator's data of the objects.
-/

namespace AndroidRenderer.Translator

inductive NamedObjectType
  | VERTEXBUFFER
  | TEXTURE
  | RENDERBUFFER
  | FRAMEBUFFER
  | SHADER
  deriving DecidableEq, Repr

abbrev ObjectLocalName := UInt64

/-- A name of the driver's that is in use. -/
abbrev GlobalName := { name : GLuint // name ≠ 0 }

/-- `m_localToGlobalMap` for each type, and `m_objectsData`. -/
structure ShareGroup (δ : Type) where
  localToGlobalMap : NamedObjectType → KeyedVector ObjectLocalName GLuint
  objectsData : KeyedVector (NamedObjectType × ObjectLocalName) δ

namespace ShareGroup

variable {δ : Type}

def new : ShareGroup δ := ⟨fun _ => .empty, .empty⟩

def setNames (g : ShareGroup δ) (type : NamedObjectType)
    (names : KeyedVector ObjectLocalName GLuint) : ShareGroup δ :=
  { g with
    localToGlobalMap := fun type' => if type' = type then names else g.localToGlobalMap type' }

/-- `genName` for a name that the application has chosen; `globalName` is the driver's. -/
def genName (g : ShareGroup δ) (type : NamedObjectType) (localName : ObjectLocalName)
    (globalName : GLuint) : ShareGroup δ :=
  g.setNames type ((g.localToGlobalMap type).add localName globalName)

def getGlobalName (g : ShareGroup δ) (type : NamedObjectType) (localName : ObjectLocalName) :
    GLuint :=
  ((g.localToGlobalMap type).get? localName).getD 0

def isObject (g : ShareGroup δ) (type : NamedObjectType) (localName : ObjectLocalName) : Bool :=
  ((g.localToGlobalMap type).get? localName).isSome

def replaceGlobalName (g : ShareGroup δ) (type : NamedObjectType) (localName : ObjectLocalName)
    (globalName : GLuint) : ShareGroup δ :=
  if g.isObject type localName then
    g.setNames type ((g.localToGlobalMap type).add localName globalName)
  else g

def getObjectData (g : ShareGroup δ) (type : NamedObjectType) (localName : ObjectLocalName) :
    Option δ :=
  g.objectsData.get? (type, localName)

/-- `setObjectData`, and a change of the data behind its pointer. -/
def setObjectData (g : ShareGroup δ) (type : NamedObjectType) (localName : ObjectLocalName)
    (data : δ) : ShareGroup δ :=
  { g with objectsData := g.objectsData.add (type, localName) data }

def deleteName (g : ShareGroup δ) (type : NamedObjectType) (localName : ObjectLocalName) :
    ShareGroup δ :=
  { g.setNames type ((g.localToGlobalMap type).remove localName) with
    objectsData := g.objectsData.remove (type, localName) }

/-! ## Lookups after changes -/

@[simp] theorem getGlobalName_setObjectData (g : ShareGroup δ) (type type' : NamedObjectType)
    (name name' : ObjectLocalName) (data : δ) :
    (g.setObjectData type name data).getGlobalName type' name' = g.getGlobalName type' name' :=
  rfl

@[grind =] theorem getObjectData_setObjectData (g : ShareGroup δ) (type : NamedObjectType)
    (name name' : ObjectLocalName) (data : δ) :
    (g.setObjectData type name data).getObjectData type name' =
      if name' = name then some data else g.getObjectData type name' := by
  simp only [getObjectData, setObjectData, KeyedVector.get?_add, Prod.mk.injEq, true_and]

@[grind =] theorem getGlobalName_genName (g : ShareGroup δ) (type : NamedObjectType)
    (name name' : ObjectLocalName) (global : GLuint) :
    (g.genName type name global).getGlobalName type name' =
      if name' = name then global else g.getGlobalName type name' := by
  simp only [getGlobalName, genName, setNames, if_true, KeyedVector.get?_add]
  split <;> rfl

@[simp] theorem getObjectData_genName (g : ShareGroup δ) (type type' : NamedObjectType)
    (name name' : ObjectLocalName) (global : GLuint) :
    (g.genName type name global).getObjectData type' name' = g.getObjectData type' name' :=
  rfl

theorem isObject_of_getGlobalName {g : ShareGroup δ} {type : NamedObjectType}
    {name : ObjectLocalName} (h : g.getGlobalName type name ≠ 0) : g.isObject type name = true := by
  unfold getGlobalName at h
  unfold isObject
  cases hget : (g.localToGlobalMap type).get? name with
  | none => grind
  | some global => rfl

@[grind =] theorem getGlobalName_replaceGlobalName (g : ShareGroup δ) (type : NamedObjectType)
    (name name' : ObjectLocalName) (global : GLuint) :
    (g.replaceGlobalName type name global).getGlobalName type name' =
      if g.isObject type name ∧ name' = name then global else g.getGlobalName type name' := by
  unfold replaceGlobalName
  split
  · rename_i hobject
    have hgen := g.getGlobalName_genName type name name' global
    simp only [hobject, true_and]
    exact hgen
  · grind

@[simp] theorem getObjectData_replaceGlobalName (g : ShareGroup δ) (type type' : NamedObjectType)
    (name name' : ObjectLocalName) (global : GLuint) :
    (g.replaceGlobalName type name global).getObjectData type' name' =
      g.getObjectData type' name' := by
  unfold replaceGlobalName
  split <;> rfl

@[grind =] theorem getGlobalName_deleteName (g : ShareGroup δ) (type : NamedObjectType)
    (name name' : ObjectLocalName) :
    (g.deleteName type name).getGlobalName type name' =
      if name' = name then 0 else g.getGlobalName type name' := by
  simp only [getGlobalName, deleteName, setNames, if_true, KeyedVector.get?_remove]
  split <;> rfl

@[grind =] theorem isObject_genName (g : ShareGroup δ) (type : NamedObjectType)
    (name name' : ObjectLocalName) (global : GLuint) :
    (g.genName type name global).isObject type name' =
      (decide (name' = name) || g.isObject type name') := by
  simp only [isObject, genName, setNames, if_true, KeyedVector.get?_add]
  grind

@[simp] theorem isObject_replaceGlobalName (g : ShareGroup δ) (type : NamedObjectType)
    (name name' : ObjectLocalName) (global : GLuint) :
    (g.replaceGlobalName type name global).isObject type name' = g.isObject type name' := by
  unfold replaceGlobalName
  split
  · rename_i hobject
    apply (g.isObject_genName type name name' global).trans
    grind
  · rfl

@[grind =] theorem isObject_deleteName (g : ShareGroup δ) (type : NamedObjectType)
    (name name' : ObjectLocalName) :
    (g.deleteName type name).isObject type name' =
      (!decide (name' = name) && g.isObject type name') := by
  simp only [isObject, deleteName, setNames, if_true, KeyedVector.get?_remove]
  grind

@[grind =] theorem getObjectData_deleteName (g : ShareGroup δ) (type : NamedObjectType)
    (name name' : ObjectLocalName) :
    (g.deleteName type name).getObjectData type name' =
      if name' = name then none else g.getObjectData type name' := by
  simp only [getObjectData, deleteName, KeyedVector.get?_remove, Prod.mk.injEq, true_and]

end ShareGroup

end AndroidRenderer.Translator
