import AndroidRenderer.OpenglCodecCommon.GL

/-!
# Vertex arrays and buffer bindings of the guest

`GLClientState` keeps what the guest has to know of the vertex arrays, because their
contents are sent when something is drawn. The guest is a 32-bit machine: pointers, offsets
and lengths are `unsigned int`s that wrap.
-/

namespace AndroidRenderer

def GL_INT : GLenum := 0x1404
def GL_UNSIGNED_INT : GLenum := 0x1405
def GL_FLOAT : GLenum := 0x1406
def GL_FIXED : GLenum := 0x140C
def GL_HALF_FLOAT_OES : GLenum := 0x8D61
def GL_FLOAT_VEC2 : GLenum := 0x8B50
def GL_FLOAT_VEC3 : GLenum := 0x8B51
def GL_FLOAT_VEC4 : GLenum := 0x8B52
def GL_INT_VEC2 : GLenum := 0x8B53
def GL_INT_VEC3 : GLenum := 0x8B54
def GL_INT_VEC4 : GLenum := 0x8B55
def GL_BOOL : GLenum := 0x8B56
def GL_BOOL_VEC2 : GLenum := 0x8B57
def GL_BOOL_VEC3 : GLenum := 0x8B58
def GL_BOOL_VEC4 : GLenum := 0x8B59
def GL_FLOAT_MAT2 : GLenum := 0x8B5A
def GL_FLOAT_MAT3 : GLenum := 0x8B5B
def GL_FLOAT_MAT4 : GLenum := 0x8B5C
def GL_SAMPLER_CUBE : GLenum := 0x8B60

def GL_ARRAY_BUFFER : GLenum := 0x8892
def GL_ELEMENT_ARRAY_BUFFER : GLenum := 0x8893

def GL_VERTEX_ARRAY : GLenum := 0x8074
def GL_NORMAL_ARRAY : GLenum := 0x8075
def GL_COLOR_ARRAY : GLenum := 0x8076
def GL_TEXTURE_COORD_ARRAY : GLenum := 0x8078
def GL_POINT_SIZE_ARRAY_OES : GLenum := 0x8B9C
def GL_MATRIX_INDEX_ARRAY_OES : GLenum := 0x8844
def GL_WEIGHT_ARRAY_OES : GLenum := 0x86AD

/-- `glSizeof`: the bytes of a value of a type, 0 for an unknown one. -/
def glSizeof (type : GLenum) : UInt32 :=
  if type ∈ [GL_BYTE, GL_UNSIGNED_BYTE] then 1
  else if type ∈ [GL_SHORT, GL_UNSIGNED_SHORT, GL_HALF_FLOAT_OES] then 2
  else if type ∈ [GL_INT, GL_FLOAT, GL_FIXED, GL_BOOL] then 4
  else if type ∈ [GL_FLOAT_VEC2, GL_INT_VEC2, GL_BOOL_VEC2] then 8
  else if type ∈ [GL_INT_VEC3, GL_BOOL_VEC3, GL_FLOAT_VEC3] then 12
  else if type ∈ [GL_FLOAT_VEC4, GL_BOOL_VEC4, GL_INT_VEC4, GL_FLOAT_MAT2] then 16
  else if type = GL_FLOAT_MAT3 then 36
  else if type = GL_FLOAT_MAT4 then 64
  else if type ∈ [GL_SAMPLER_2D, GL_SAMPLER_CUBE] then 4
  else 0

/-- What a `gl*Pointer` call leaves in a `VertexAttribState`. -/
structure VertexPointer where
  size : Int
  type : GLenum
  normalized : Bool
  stride : Int
  /-- an address of the application, or an offset into the buffer object -/
  data : UInt32
  bufferObject : GLuint
  deriving DecidableEq, Repr

/-- `elementSize`, which `setState` computes from the type and the size. -/
def VertexPointer.elementSize (p : VertexPointer) : UInt32 :=
  glSizeof p.type * UInt32.ofInt p.size

/-- The distance of two elements: a stride of 0 stands for tightly packed elements. -/
def VertexPointer.step (p : VertexPointer) : UInt32 :=
  if p.stride = 0 then p.elementSize else UInt32.ofInt p.stride

/-- The fields that describe the array are undefined until they are set. -/
structure VertexAttribState where
  enabled : Bool
  enableDirty : Bool
  pointer : Option VertexPointer
  deriving DecidableEq, Repr

/-- `VERTEX_LOCATION` … `LAST_LOCATION` -/
def VERTEX_LOCATION : Nat := 0
def NORMAL_LOCATION : Nat := 1
def COLOR_LOCATION : Nat := 2
def POINTSIZE_LOCATION : Nat := 3
def TEXCOORD0_LOCATION : Nat := 4
def TEXCOORD7_LOCATION : Nat := 11
def MATRIXINDEX_LOCATION : Nat := 12
def WEIGHT_LOCATION : Nat := 13
def LAST_LOCATION : Nat := 14

/-- The part of `GLClientState` that concerns vertex arrays and buffers. -/
structure GLClientState where
  nLocations : Nat
  lastLocation_le : LAST_LOCATION ≤ nLocations
  states : Nat → VertexAttribState
  currentArrayVbo : GLuint
  currentIndexVbo : GLuint
  activeTexture : Int

namespace GLClientState

def new (nLocations : Nat) : GLClientState where
  nLocations := max nLocations LAST_LOCATION
  lastLocation_le := Nat.le_max_right _ _
  states := fun _ => ⟨false, false, none⟩
  currentArrayVbo := 0
  currentIndexVbo := 0
  activeTexture := 0

def validLocation (s : GLClientState) (location : Int) : Bool :=
  0 ≤ location && location < s.nLocations

def modify (s : GLClientState) (location : Int) (f : VertexAttribState → VertexAttribState) :
    GLClientState :=
  { s with states := Function.update s.states location.toNat (f (s.states location.toNat)) }

def enable (s : GLClientState) (location : Int) (state : Bool) : GLClientState :=
  if s.validLocation location then
    s.modify location fun a =>
      { a with enabled := state, enableDirty := a.enableDirty || state != a.enabled }
  else s

def setState (s : GLClientState) (location size : Int) (type : GLenum) (normalized : Bool)
    (stride : Int) (data : UInt32) : GLClientState :=
  if s.validLocation location then
    s.modify location fun a =>
      { a with pointer := some ⟨size, type, normalized, stride, data, s.currentArrayVbo⟩ }
  else s

def getLocation (s : GLClientState) (loc : GLenum) : Int :=
  if loc = GL_VERTEX_ARRAY then VERTEX_LOCATION
  else if loc = GL_NORMAL_ARRAY then NORMAL_LOCATION
  else if loc = GL_COLOR_ARRAY then COLOR_LOCATION
  else if loc = GL_POINT_SIZE_ARRAY_OES then POINTSIZE_LOCATION
  else if loc = GL_TEXTURE_COORD_ARRAY then TEXCOORD0_LOCATION + s.activeTexture
  else if loc = GL_MATRIX_INDEX_ARRAY_OES then MATRIXINDEX_LOCATION
  else if loc = GL_WEIGHT_ARRAY_OES then WEIGHT_LOCATION
  else GLint loc.toNat

def bindBuffer (s : GLClientState) (target : GLenum) (id : GLuint) : GLClientState :=
  if target = GL_ARRAY_BUFFER then { s with currentArrayVbo := id }
  else if target = GL_ELEMENT_ARRAY_BUFFER then { s with currentIndexVbo := id }
  else s

/-- `getBuffer`: `-1` for a target that does not exist, which its callers turn into a name. -/
def getBuffer (s : GLClientState) (target : GLenum) : GLuint :=
  if target = GL_ARRAY_BUFFER then s.currentArrayVbo
  else if target = GL_ELEMENT_ARRAY_BUFFER then s.currentIndexVbo
  else UInt32.ofInt (-1)

/-- `getStateAndEnableDirty` at every location below `n`, one after the other. -/
def clearEnableDirty (s : GLClientState) (n : Nat) : GLClientState :=
  { s with states := fun i => if i < n then { s.states i with enableDirty := false } else s.states i }

/-- `glConst`, as the constructor sets it. -/
def glConst (location : Nat) : GLenum :=
  if location = VERTEX_LOCATION then GL_VERTEX_ARRAY
  else if location = NORMAL_LOCATION then GL_NORMAL_ARRAY
  else if location = COLOR_LOCATION then GL_COLOR_ARRAY
  else if location = POINTSIZE_LOCATION then GL_POINT_SIZE_ARRAY_OES
  else if location = MATRIXINDEX_LOCATION then GL_MATRIX_INDEX_ARRAY_OES
  else if location = WEIGHT_LOCATION then GL_WEIGHT_ARRAY_OES
  else GL_TEXTURE_COORD_ARRAY

@[simp] theorem currentArrayVbo_enable (s : GLClientState) (location : Int) (state : Bool) :
    (s.enable location state).currentArrayVbo = s.currentArrayVbo := by
  unfold enable
  split <;> rfl

@[simp] theorem currentIndexVbo_enable (s : GLClientState) (location : Int) (state : Bool) :
    (s.enable location state).currentIndexVbo = s.currentIndexVbo := by
  unfold enable
  split <;> rfl

@[simp] theorem currentArrayVbo_setState (s : GLClientState) (location size : Int) (type : GLenum)
    (normalized : Bool) (stride : Int) (data : UInt32) :
    (s.setState location size type normalized stride data).currentArrayVbo =
      s.currentArrayVbo := by
  unfold setState
  split <;> rfl

@[simp] theorem currentIndexVbo_setState (s : GLClientState) (location size : Int) (type : GLenum)
    (normalized : Bool) (stride : Int) (data : UInt32) :
    (s.setState location size type normalized stride data).currentIndexVbo =
      s.currentIndexVbo := by
  unfold setState
  split <;> rfl

end GLClientState

end AndroidRenderer
