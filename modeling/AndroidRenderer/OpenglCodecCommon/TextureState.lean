import AndroidRenderer.Lib.SortedArray
import AndroidRenderer.OpenglCodecCommon.GL

/-!
# Textures of a guest context

`GLClientState` keeps for each texture unit the enabled targets and the bound textures,
and an array of the textures that were ever bound, sorted by name, with the target of
each. The array is searched with `bsearch`.
-/

namespace AndroidRenderer

abbrev MAX_TEXTURE_UNITS : Nat := 32

instance : NeZero MAX_TEXTURE_UNITS := ⟨by decide⟩

inductive TextureTarget
  | TEXTURE_2D
  | TEXTURE_EXTERNAL
  deriving DecidableEq, Repr

namespace TextureTarget

def toGLenum : TextureTarget → GLenum
  | TEXTURE_2D => GL_TEXTURE_2D
  | TEXTURE_EXTERNAL => GL_TEXTURE_EXTERNAL_OES

/-- The cases of the switches over a target. -/
def ofGLenum (target : GLenum) : Option TextureTarget :=
  if target = GL_TEXTURE_2D then some TEXTURE_2D
  else if target = GL_TEXTURE_EXTERNAL_OES then some TEXTURE_EXTERNAL
  else none

theorem ofGLenum_toGLenum (t : TextureTarget) : ofGLenum t.toGLenum = some t := by
  cases t <;> decide

theorem ofGLenum_eq_some {target : GLenum} {t : TextureTarget} (h : ofGLenum target = some t) :
    target = t.toGLenum := by
  unfold ofGLenum at h
  split at h
  · obtain rfl := Option.some.inj h
    assumption
  · split at h
    · obtain rfl := Option.some.inj h
      assumption
    · cases h

end TextureTarget

/-- `enables` is a bit for each target. -/
structure TextureUnit where
  enables : TextureTarget → Bool
  texture : TextureTarget → GLuint

structure TextureRec where
  id : GLuint
  target : GLenum
  deriving DecidableEq, Repr

/-- `numTextures` is the length of `textures`. -/
structure TextureState where
  unit : Fin MAX_TEXTURE_UNITS → TextureUnit
  activeUnit : Fin MAX_TEXTURE_UNITS
  textures : List TextureRec
  allocTextures : Nat

namespace TextureUnit

def bind (u : TextureUnit) (t : TextureTarget) (texture : GLuint) : TextureUnit :=
  { u with texture := Function.update u.texture t texture }

def setEnabled (u : TextureUnit) (t : TextureTarget) (enabled : Bool) : TextureUnit :=
  { u with enables := Function.update u.enables t enabled }

/-- What `deleteTextures` does to a unit. -/
def unbind (u : TextureUnit) (texture : GLuint) : TextureUnit :=
  if u.texture .TEXTURE_2D = texture then u.bind .TEXTURE_2D 0
  else if u.texture .TEXTURE_EXTERNAL = texture then u.bind .TEXTURE_EXTERNAL 0
  else u

end TextureUnit

namespace TextureState

/-- The state of a new context. -/
def init : TextureState := ⟨fun _ => ⟨fun _ => false, fun _ => 0⟩, 0, [], 0⟩

def active (s : TextureState) : TextureUnit := s.unit s.activeUnit

def setActive (s : TextureState) (u : TextureUnit) : TextureState :=
  { s with unit := Function.update s.unit s.activeUnit u }

/-! ## Units -/

def setActiveTextureUnit (s : TextureState) (texture : GLenum) : TextureState × GLenum :=
  if h : (texture - GL_TEXTURE0).toNat < MAX_TEXTURE_UNITS then
    ({ s with activeUnit := ⟨(texture - GL_TEXTURE0).toNat, h⟩ }, GL_NO_ERROR)
  else (s, GL_INVALID_OPERATION)

def getActiveTextureUnit (s : TextureState) : GLenum :=
  GL_TEXTURE0 + UInt32.ofNat s.activeUnit

def enableTextureTarget (s : TextureState) (target : GLenum) : TextureState :=
  match TextureTarget.ofGLenum target with
  | some t => s.setActive (s.active.setEnabled t true)
  | none => s

def disableTextureTarget (s : TextureState) (target : GLenum) : TextureState :=
  match TextureTarget.ofGLenum target with
  | some t => s.setActive (s.active.setEnabled t false)
  | none => s

end TextureState

def TextureUnit.priorityEnabledTarget (u : TextureUnit) (allDisabled : GLenum) : GLenum :=
  if u.enables .TEXTURE_EXTERNAL then GL_TEXTURE_EXTERNAL_OES
  else if u.enables .TEXTURE_2D then GL_TEXTURE_2D
  else allDisabled

def TextureUnit.boundTexture (u : TextureUnit) (target : GLenum) : GLuint :=
  match TextureTarget.ofGLenum target with
  | some t => u.texture t
  | none => 0

namespace TextureState

def getPriorityEnabledTarget (s : TextureState) (allDisabled : GLenum) : GLenum :=
  s.active.priorityEnabledTarget allDisabled

def getBoundTexture (s : TextureState) (target : GLenum) : GLuint := s.active.boundTexture target

/-! ## The array -/

/-- `compareTexId`: the difference of the names as signed numbers. -/
def compareTexId (id : GLuint) (rec : TextureRec) : Int :=
  GLint (GLint id.toNat - GLint rec.id.toNat)

/-- The position that `bsearch` finds. -/
def findTexture (s : TextureState) (id : GLuint) : Option Nat :=
  SortedArray.bsearch (compareTexId id) s.textures.length 0 s.textures

/-- The new size of a full array, if it may grow. -/
def newAlloc (allocTextures : Nat) : Option Nat :=
  if allocTextures ≤ 0xFFFFFFFF - allocTextures then some (max 4 (2 * allocTextures))
  else if allocTextures = 0xFFFFFFFF then none
  else some 0xFFFFFFFF

/-- `addTextureRec`; `memory` tells whether `realloc` succeeds. -/
def addTextureRec (s : TextureState) (id : GLuint) (target : GLenum) (memory : Bool) :
    Option (TextureState × TextureRec) :=
  let alloc :=
    if s.textures.length = s.allocTextures then
      (newAlloc s.allocTextures).filter fun _ => memory
    else some s.allocTextures
  alloc.map fun alloc =>
    ({ s with
      textures := SortedArray.insertBack (fun rec => rec.id.toNat) ⟨id, target⟩ s.textures
      allocTextures := alloc }, ⟨id, target⟩)

/-- The switch of `bindTexture`. -/
def bindActive (s : TextureState) (target : GLenum) (texture : GLuint) : TextureState :=
  match TextureTarget.ofGLenum target with
  | some t => s.setActive (s.active.bind t texture)
  | none => s

/-- `bindTexture`: the error, and `firstUse` if it is set. -/
def bindTexture (s : TextureState) (target : GLenum) (texture : GLuint) (memory : Bool) :
    TextureState × GLenum × Option Bool :=
  if texture = 0 then (s.bindActive target texture, GL_NO_ERROR, some false)
  else
    match s.findTexture texture >>= fun i => s.textures[i]? with
    | some texrec =>
        if target ≠ texrec.target then (s, GL_INVALID_OPERATION, none)
        else (s.bindActive target texture, GL_NO_ERROR, some false)
    | none =>
        match s.addTextureRec texture target memory with
        | none => (s, GL_OUT_OF_MEMORY, none)
        | some (s', texrec) =>
            if target ≠ texrec.target then (s', GL_INVALID_OPERATION, none)
            else (s'.bindActive target texture, GL_NO_ERROR, some true)

/-- The body of the loop of `deleteTextures`. -/
def deleteTexture (s : TextureState) (texture : GLuint) : TextureState :=
  match s.findTexture texture with
  | some i =>
      { s with
        textures := s.textures.eraseIdx i
        unit := fun u => (s.unit u).unbind texture }
  | none => s

def deleteTextures (s : TextureState) (textures : List GLuint) : TextureState :=
  textures.foldl deleteTexture s

end TextureState

end AndroidRenderer
