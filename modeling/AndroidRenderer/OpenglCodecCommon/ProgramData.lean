import AndroidRenderer.OpenglCodecCommon.GL

/-!
# Guest data of a program

`ProgramData` describes the active uniforms of a linked program: their locations on the
host, the locations the application is given instead when the host's need it, and for
samplers the unit they are set to. It also lists the attached shaders.
-/

namespace AndroidRenderer

/-- `IndexInfo`, for one active uniform. -/
structure IndexInfo where
  base : Int
  size : Int
  type : GLenum
  appBase : Int
  hostLocsPerElement : Int
  flags : GLuint
  samplerValue : Int
  deriving DecidableEq, Repr

def INDEX_FLAG_SAMPLER_EXTERNAL : GLuint := 1

/-- `m_numIndexes` is the length of `indexes`. -/
structure ProgramData where
  indexes : List IndexInfo
  initialized : Bool
  locShiftWAR : Bool
  shaders : List GLuint
  deriving DecidableEq, Repr

namespace ProgramData

/-- `ProgramData::ProgramData` -/
def new : ProgramData := ⟨[], false, false, []⟩

/-- `initProgramData`; linking sets every new entry before it is read. -/
def initProgramData (p : ProgramData) (numIndexes : Nat) : ProgramData :=
  { p with
    indexes := List.replicate numIndexes ⟨0, 0, 0, 0, 0, 0, 0⟩
    initialized := true
    locShiftWAR := false }

def setIndexInfo (p : ProgramData) (index : Nat) (base size : Int) (type : GLenum) : ProgramData :=
  let appBase :=
    if 0 < index then
      match p.indexes[index - 1]? with
      | some prev => prev.appBase + prev.size
      | none => 0
    else 0
  { p with indexes := p.indexes.set index ⟨base, size, type, appBase, 1, 0, 0⟩ }

def setIndexFlags (p : ProgramData) (index : Nat) (flags : GLuint) : ProgramData :=
  { p with indexes := p.indexes.modify index fun info => { info with flags := info.flags ||| flags } }

def setupLocationShiftWAR (p : ProgramData) : ProgramData :=
  { p with
    locShiftWAR :=
      p.indexes.all (fun info => info.base % 0x10000 = 0) && decide (1 < p.indexes.length) }

/-- The body of the loop of `getIndexForLocation`, which keeps `index` and `minDist`. -/
def nearer (location : Int) (r : Nat × Int) (entry : IndexInfo × Nat) : Nat × Int :=
  let dist := location - entry.1.base
  if 0 ≤ dist ∧ (r.2 < 0 ∨ dist < r.2) then (entry.2, dist) else r

def getIndexForLocation (p : ProgramData) (location : Int) : Nat :=
  (p.indexes.zipIdx.foldl (nearer location) (p.indexes.length, -1)).1

def locationWARHostToApp (p : ProgramData) (hostLoc arrIndex : Int) : ProgramData × Int :=
  if p.locShiftWAR then
    let index := p.getIndexForLocation hostLoc
    match p.indexes[index]? with
    | some info =>
        let indexes :=
          if 0 < arrIndex then
            p.indexes.set index
              { info with hostLocsPerElement := Int.tdiv (hostLoc - info.base) arrIndex }
          else p.indexes
        ({ p with indexes }, info.appBase + arrIndex)
    | none => (p, -1)
  else (p, hostLoc)

def locationWARAppToHost (p : ProgramData) (appLoc : Int) : Int :=
  if p.locShiftWAR then
    match p.indexes.find? fun info =>
        decide (0 ≤ appLoc - info.appBase ∧ appLoc - info.appBase < info.size) with
    | some info => info.base + (appLoc - info.appBase) * info.hostLocsPerElement
    | none => -1
  else appLoc

def samplerTarget (info : IndexInfo) : GLenum :=
  if info.flags &&& INDEX_FLAG_SAMPLER_EXTERNAL ≠ 0 then GL_TEXTURE_EXTERNAL_OES
  else GL_TEXTURE_2D

/-- `getNextSamplerUniform`: the index of the next sampler behind `index`, its value and its
target. -/
def getNextSamplerUniform (p : ProgramData) (index : Int) : Option (Nat × Int × GLenum) :=
  (p.indexes.zipIdx.find? fun (info, i) => decide (index < i) && info.type = GL_SAMPLER_2D).map
    fun (info, i) => (i, info.samplerValue, samplerTarget info)

/-- The entry that `setSamplerUniform` acts on. -/
def samplerAt (p : ProgramData) (appLoc : Int) : Option (IndexInfo × Nat) :=
  p.indexes.zipIdx.find? fun (info, _) =>
    let elemIndex := appLoc - info.appBase
    decide (0 ≤ elemIndex ∧ elemIndex < info.size) && info.type = GL_TEXTURE_2D

/-- `setSamplerUniform`: the target, if a sampler was set. -/
def setSamplerUniform (p : ProgramData) (appLoc val : Int) : ProgramData × Option GLenum :=
  match p.samplerAt appLoc with
  | some (info, i) =>
      ({ p with indexes := p.indexes.modify i fun info => { info with samplerValue := val } },
        some (samplerTarget info))
  | none => (p, none)

/-- `attachShader`; it fails if the shader is attached. -/
def attachShader (p : ProgramData) (shader : GLuint) : ProgramData × Bool :=
  if shader ∈ p.shaders then (p, false)
  else ({ p with shaders := p.shaders ++ [shader] }, true)

/-- `detachShader`; it fails if the shader is not attached. -/
def detachShader (p : ProgramData) (shader : GLuint) : ProgramData × Bool :=
  if shader ∈ p.shaders then ({ p with shaders := p.shaders.erase shader }, true)
  else (p, false)

end ProgramData

end AndroidRenderer
