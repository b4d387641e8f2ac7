import AndroidRenderer.Lib.KeyedVector
import AndroidRenderer.Lib.Registry
import AndroidRenderer.OpenglCodecCommon.ProgramData

/-!
# The share group of the guest

`GLSharedGroup` keeps what the guest knows of programs and shaders. The data of a shader is
an object behind a handle: it is freed when its last reference goes, and the functions
fault where the source would use it after that.
-/

namespace AndroidRenderer

abbrev ShaderHandle := Nat

structure ShaderData where
  samplerExternalNames : List (List UInt8)
  refcount : Int
  deriving DecidableEq, Repr

structure GLSharedGroup where
  programs : KeyedVector GLuint ProgramData
  shaders : KeyedVector GLuint ShaderHandle
  heap : Registry ShaderData

namespace GLSharedGroup

def new : GLSharedGroup := ⟨.empty, .empty, .empty⟩

def shaderData (g : GLSharedGroup) (data : ShaderHandle) : Except MemoryFault ShaderData :=
  match g.heap.get? data with
  | some d => .ok d
  | none => .error .useAfterFree

def addProgramData (g : GLSharedGroup) (program : GLuint) : GLSharedGroup :=
  { g with programs := g.programs.add program .new }

def deleteProgramData (g : GLSharedGroup) (program : GLuint) : GLSharedGroup :=
  { g with programs := g.programs.remove program }

def addShaderData (g : GLSharedGroup) (shader : GLuint) : GLSharedGroup :=
  { g with
    shaders := g.shaders.add shader g.heap.next
    heap := g.heap.insert ⟨[], 1⟩ }

def refShaderDataLocked (g : GLSharedGroup) (data : ShaderHandle) :
    Except MemoryFault GLSharedGroup := do
  let d ← g.shaderData data
  return { g with heap := g.heap.set data { d with refcount := d.refcount + 1 } }

def unrefShaderDataLocked (g : GLSharedGroup) (shader : GLuint) (data : ShaderHandle) :
    Except MemoryFault GLSharedGroup := do
  let d ← g.shaderData data
  if d.refcount - 1 = 0 then
    return { g with heap := g.heap.remove data, shaders := g.shaders.remove shader }
  else
    return { g with heap := g.heap.set data { d with refcount := d.refcount - 1 } }

def unrefShaderData (g : GLSharedGroup) (shader : GLuint) : Except MemoryFault GLSharedGroup :=
  match g.shaders.get? shader with
  | some data => g.unrefShaderDataLocked shader data
  | none => .ok g

def attachShader (g : GLSharedGroup) (program shader : GLuint) :
    Except MemoryFault GLSharedGroup :=
  match g.programs.get? program, g.shaders.get? shader with
  | some programData, some data =>
      let r := programData.attachShader shader
      if r.2 then { g with programs := g.programs.add program r.1 }.refShaderDataLocked data
      else .ok g
  | _, _ => .ok g

def detachShader (g : GLSharedGroup) (program shader : GLuint) :
    Except MemoryFault GLSharedGroup :=
  match g.programs.get? program, g.shaders.get? shader with
  | some programData, some data =>
      let r := programData.detachShader shader
      if r.2 then
        { g with programs := g.programs.add program r.1 }.unrefShaderDataLocked shader data
      else .ok g
  | _, _ => .ok g

/-! ## Uniforms -/

def initProgramData (g : GLSharedGroup) (program : GLuint) (numIndexes : Nat) : GLSharedGroup :=
  match g.programs.get? program with
  | some pData => { g with programs := g.programs.add program (pData.initProgramData numIndexes) }
  | none => g

def declaresExternal (g : GLSharedGroup) (pData : ProgramData) (name : List UInt8) : Bool :=
  pData.shaders.any fun shader =>
    match g.shaders.get? shader >>= g.heap.get? with
    | some data => data.samplerExternalNames.contains name
    | none => false

def setProgramIndexInfo (g : GLSharedGroup) (program : GLuint) (index : Nat) (base size : Int)
    (type : GLenum) (name : List UInt8) : GLSharedGroup :=
  match g.programs.get? program with
  | some pData =>
      let p := pData.setIndexInfo index base size type
      let p :=
        if type = GL_SAMPLER_2D ∧ g.declaresExternal pData name then
          p.setIndexFlags index INDEX_FLAG_SAMPLER_EXTERNAL
        else p
      { g with programs := g.programs.add program p }
  | none => g

def setupLocationShiftWAR (g : GLSharedGroup) (program : GLuint) : GLSharedGroup :=
  match g.programs.get? program with
  | some pData => { g with programs := g.programs.add program pData.setupLocationShiftWAR }
  | none => g

def needUniformLocationWAR (g : GLSharedGroup) (program : GLuint) : Bool :=
  match g.programs.get? program with
  | some pData => pData.locShiftWAR
  | none => false

def locationWARHostToApp (g : GLSharedGroup) (program : GLuint) (hostLoc arrIndex : Int) :
    GLSharedGroup × Int :=
  match g.programs.get? program with
  | some pData =>
      let r := pData.locationWARHostToApp hostLoc arrIndex
      ({ g with programs := g.programs.add program r.1 }, r.2)
  | none => (g, hostLoc)

def locationWARAppToHost (g : GLSharedGroup) (program : GLuint) (appLoc : Int) : Int :=
  match g.programs.get? program with
  | some pData => pData.locationWARAppToHost appLoc
  | none => appLoc

def getNextSamplerUniform (g : GLSharedGroup) (program : GLuint) (index : Int) :
    Option (Nat × Int × GLenum) :=
  match g.programs.get? program with
  | some pData => pData.getNextSamplerUniform index
  | none => none

def setSamplerUniform (g : GLSharedGroup) (program : GLuint) (appLoc val : Int) :
    GLSharedGroup × Option GLenum :=
  match g.programs.get? program with
  | some pData =>
      let r := pData.setSamplerUniform appLoc val
      ({ g with programs := g.programs.add program r.1 }, r.2)
  | none => (g, none)

end GLSharedGroup

end AndroidRenderer
