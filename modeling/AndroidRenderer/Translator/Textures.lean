import AndroidRenderer.Translator.ShareGroup

/-!
# Texture bindings of the translator

A context of the translator records for each texture unit which of the application's
textures is bound, and binds the driver's texture behind it. The name 0 stands for a default
texture that has a name of its own in the share group. Both versions of GLES have the same
functions, which differ in how the data of a texture is looked up.
-/

namespace AndroidRenderer.Translator

inductive GLESVersion
  | GLES_CM
  | GLES_V2
  deriving DecidableEq, Repr

inductive TextureTarget
  | TEXTURE_2D
  | TEXTURE_CUBE_MAP
  deriving DecidableEq, Repr

def GLTextureTargetToLocal (target : GLenum) : TextureTarget :=
  if target ∈ [GL_TEXTURE_CUBE_MAP, GL_TEXTURE_CUBE_MAP_POSITIVE_X,
      GL_TEXTURE_CUBE_MAP_POSITIVE_Y, GL_TEXTURE_CUBE_MAP_POSITIVE_Z,
      GL_TEXTURE_CUBE_MAP_NEGATIVE_X, GL_TEXTURE_CUBE_MAP_NEGATIVE_Y,
      GL_TEXTURE_CUBE_MAP_NEGATIVE_Z] then .TEXTURE_CUBE_MAP
  else .TEXTURE_2D

/-! ## Checks of arguments -/

def textureEnum (e : GLenum) (maxTex : Nat) : Bool :=
  GL_TEXTURE0 ≤ e && e ≤ GL_TEXTURE0 + UInt32.ofNat maxTex

def textureTarget (target : GLenum) : Bool :=
  target = GL_TEXTURE_2D || target = GL_TEXTURE_CUBE_MAP

def textureTargetLimited (target : GLenum) : Bool := target = GL_TEXTURE_2D

def textureTargetEx (target : GLenum) : Bool :=
  target ∈ [GL_TEXTURE_CUBE_MAP_POSITIVE_X, GL_TEXTURE_CUBE_MAP_NEGATIVE_X,
    GL_TEXTURE_CUBE_MAP_POSITIVE_Y, GL_TEXTURE_CUBE_MAP_NEGATIVE_Y,
    GL_TEXTURE_CUBE_MAP_POSITIVE_Z, GL_TEXTURE_CUBE_MAP_NEGATIVE_Z, GL_TEXTURE_2D]

/-! ## Data -/

/-- What `TextureData` says of the binding of a texture. -/
structure TextureData where
  sourceEGLImage : UInt32
  wasBound : Bool
  target : GLenum
  oldGlobal : GLuint
  deriving DecidableEq, Repr

/-- `TextureData::TextureData` -/
def TextureData.new : TextureData := ⟨0, false, 0, 0⟩

/-- An image that `eglAttachEGLImage` finds. It was made from a texture of a share group, whose
name is not 0. -/
structure EglImage where
  imageId : UInt32
  globalTexName : GlobalName
  imageId_ne : imageId ≠ 0

structure TextureDriver where
  activeUnit : Nat
  bound : Nat → TextureTarget → GLuint

namespace TextureDriver

def init : TextureDriver := ⟨0, fun _ _ => 0⟩

def glBindTexture (d : TextureDriver) (target : GLenum) (texture : GLuint) : TextureDriver :=
  { d with
    bound := fun u t =>
      if u = d.activeUnit ∧ t = GLTextureTargetToLocal target then texture else d.bound u t }

/-- `glDeleteTextures` for one texture, which is unbound everywhere. -/
def glDeleteTextures (d : TextureDriver) (texture : GLuint) : TextureDriver :=
  { d with bound := fun u t => if d.bound u t = texture then 0 else d.bound u t }

end TextureDriver

/-- A context with `n` texture units, its share group and the driver. -/
structure Context (n : Nat) where
  version : GLESVersion
  activeTexture : Nat
  texState : Fin n → TextureTarget → GLuint
  shareGroup : ShareGroup TextureData
  driver : TextureDriver
  glError : GLenum

namespace Context

variable {n : Nat}

def setGLerror (ctx : Context n) (error : GLenum) : Context n := { ctx with glError := error }

/-- The unit whose part of `m_texState` is accessed. -/
def unit (ctx : Context n) : Except MemoryFault (Fin n) :=
  if h : ctx.activeTexture < n then .ok ⟨ctx.activeTexture, h⟩ else .error .outOfBounds

def getBindedTexture (ctx : Context n) (target : GLenum) : Except MemoryFault GLuint := do
  let unit ← ctx.unit
  return ctx.texState unit (GLTextureTargetToLocal target)

def setBindedTexture (ctx : Context n) (target : GLenum) (tex : GLuint) :
    Except MemoryFault (Context n) := do
  let unit ← ctx.unit
  return { ctx with
    texState := fun u t =>
      if u = unit ∧ t = GLTextureTargetToLocal target then tex else ctx.texState u t }

def getDefaultTextureName : TextureTarget → ObjectLocalName
  | .TEXTURE_2D => 0x100000000
  | .TEXTURE_CUBE_MAP => 0x100000001

/-- `TextureLocalName` -/
def textureLocalName (target : TextureTarget) (tex : GLuint) : ObjectLocalName :=
  if tex ≠ 0 then tex.toUInt64 else getDefaultTextureName target

/-- `getTextureData`: new data if the texture has none; GLES_CM has none for a name that is no
object. -/
def getTextureData (ctx : Context n) (tex : ObjectLocalName) :
    ShareGroup TextureData × Option TextureData :=
  if ctx.version = .GLES_CM ∧ !ctx.shareGroup.isObject .TEXTURE tex then (ctx.shareGroup, none)
  else
    match ctx.shareGroup.getObjectData .TEXTURE tex with
    | some texData => (ctx.shareGroup, some texData)
    | none => (ctx.shareGroup.setObjectData .TEXTURE tex .new, some .new)

/-! ## Calls -/

def glActiveTexture (ctx : Context n) (texture : GLenum) : Context n :=
  if !textureEnum texture n then ctx.setGLerror GL_INVALID_ENUM
  else
    let unit := (texture - GL_TEXTURE0).toNat
    { ctx with activeTexture := unit, driver := { ctx.driver with activeUnit := unit } }

/-- The part of `glBindTexture` that finds the texture: the driver's name, unless the texture
was bound to another target. `gen` is the name that the driver has for a new texture. -/
def textureToBind (ctx : Context n) (target : GLenum) (texture : GLuint) (gen : GlobalName) :
    Except MemoryFault (Context n × Option GLuint) :=
  let localTexName := textureLocalName (GLTextureTargetToLocal target) texture
  let ctx :=
    if ctx.shareGroup.getGlobalName .TEXTURE localTexName = 0 then
      { ctx with shareGroup := ctx.shareGroup.genName .TEXTURE localTexName gen }
    else ctx
  let globalTextureName := ctx.shareGroup.getGlobalName .TEXTURE localTexName
  match ctx.getTextureData localTexName with
  | (_, none) => .error .nullPointer
  | (shareGroup, some texData) =>
      let texData := if texData.target = 0 then { texData with target } else texData
      if GLTextureTargetToLocal texData.target ≠ GLTextureTargetToLocal target then
        .ok ({ ctx with shareGroup }.setGLerror GL_INVALID_OPERATION, none)
      else
        .ok ({ ctx with
          shareGroup := shareGroup.setObjectData .TEXTURE localTexName
            { texData with wasBound := true } }, some globalTextureName)

def glBindTexture (ctx : Context n) (target : GLenum) (texture : GLuint) (gen : GlobalName) :
    Except MemoryFault (Context n) :=
  if !textureTarget target then .ok (ctx.setGLerror GL_INVALID_ENUM)
  else do
    let (ctx, global) ← ctx.textureToBind target texture gen
    match global with
    | none => return ctx
    | some globalTextureName =>
        let ctx ← ctx.setBindedTexture target texture
        return { ctx with driver := ctx.driver.glBindTexture target globalTextureName }

/-- `if (getBindedTexture(target) == texture) setBindedTexture(target, 0)` -/
def unbind (ctx : Context n) (target : GLenum) (texture : GLuint) :
    Except MemoryFault (Context n) := do
  let binded ← ctx.getBindedTexture target
  if binded = texture then ctx.setBindedTexture target 0 else return ctx

/-- The body of the loop of `glDeleteTextures`. -/
def deleteTexture (ctx : Context n) (texture : GLuint) : Except MemoryFault (Context n) :=
  if texture ≠ 0 then do
    let (shareGroup, tData) := ctx.getTextureData texture.toUInt64
    let driver :=
      if tData.all fun tData => tData.sourceEGLImage = 0 then
        ctx.driver.glDeleteTextures (shareGroup.getGlobalName .TEXTURE texture.toUInt64)
      else ctx.driver
    let ctx := { ctx with shareGroup := shareGroup.deleteName .TEXTURE texture.toUInt64, driver }
    let ctx ← ctx.unbind GL_TEXTURE_2D texture
    ctx.unbind GL_TEXTURE_CUBE_MAP texture
  else .ok ctx

def glDeleteTextures (ctx : Context n) (count : Int) (textures : List GLuint) :
    Except MemoryFault (Context n) :=
  if count < 0 then .ok (ctx.setGLerror GL_INVALID_VALUE)
  else (textures.take count.toNat).foldlM deleteTexture ctx

/-- `glTexImage2D`; `argumentError` is what the checks of the formats and of the type give, which
the two versions do differently. -/
def glTexImage2D (ctx : Context n) (target argumentError : GLenum) :
    Except MemoryFault (Context n) :=
  if !textureTargetEx target then .ok (ctx.setGLerror GL_INVALID_ENUM)
  else if argumentError ≠ GL_NO_ERROR then .ok (ctx.setGLerror argumentError)
  else do
    let tex ← ctx.getBindedTexture target
    let localTexName := textureLocalName (GLTextureTargetToLocal target) tex
    match ctx.getTextureData localTexName with
    | (shareGroup, none) => return { ctx with shareGroup }.setGLerror GL_INVALID_OPERATION
    | (shareGroup, some texData) =>
        if texData.sourceEGLImage ≠ 0 then
          return { ctx with
            shareGroup := (shareGroup.setObjectData .TEXTURE localTexName
              { texData with target, sourceEGLImage := 0, oldGlobal := 0 }).replaceGlobalName
                .TEXTURE tex.toUInt64 texData.oldGlobal
            driver := ctx.driver.glBindTexture GL_TEXTURE_2D texData.oldGlobal }
        else
          return { ctx with
            shareGroup := shareGroup.setObjectData .TEXTURE localTexName { texData with target } }

/-- `glEGLImageTargetTexture2DOES`; `image` is what `eglAttachEGLImage` finds. -/
def glEGLImageTargetTexture2DOES (ctx : Context n) (target : GLenum) (image : Option EglImage) :
    Except MemoryFault (Context n) :=
  if !textureTargetLimited target then .ok (ctx.setGLerror GL_INVALID_ENUM)
  else
    match image with
    | none => .ok ctx
    | some img => do
        let binded ← ctx.getBindedTexture target
        let tex := textureLocalName (GLTextureTargetToLocal target) binded
        let oldGlobal := ctx.shareGroup.getGlobalName .TEXTURE tex
        let ctx :=
          if oldGlobal ≠ 0 then
            let (shareGroup, oldTexData) := ctx.getTextureData tex
            if oldTexData.all fun oldTexData => oldTexData.sourceEGLImage = 0 then
              { ctx with shareGroup, driver := ctx.driver.glDeleteTextures oldGlobal }
            else { ctx with shareGroup }
          else ctx
        let ctx := { ctx with
          shareGroup := ctx.shareGroup.replaceGlobalName .TEXTURE tex img.globalTexName
          driver := ctx.driver.glBindTexture GL_TEXTURE_2D img.globalTexName }
        match ctx.getTextureData tex with
        | (shareGroup, none) => return { ctx with shareGroup }.setGLerror GL_INVALID_OPERATION
        | (shareGroup, some texData) =>
            return { ctx with
              shareGroup := shareGroup.setObjectData .TEXTURE tex
                { texData with sourceEGLImage := img.imageId, oldGlobal } }

/-- A new context of a new share group, as `initContext` leaves it. -/
def initContext (n : Nat) (version : GLESVersion) (gen genCube : GlobalName) :
    Except MemoryFault (Context n) := do
  let ctx : Context n := ⟨version, 0, fun _ _ => 0, .new, .init, GL_NO_ERROR⟩
  let ctx ← ctx.glBindTexture GL_TEXTURE_2D 0 gen
  ctx.glBindTexture GL_TEXTURE_CUBE_MAP 0 genCube

end Context

end AndroidRenderer.Translator
