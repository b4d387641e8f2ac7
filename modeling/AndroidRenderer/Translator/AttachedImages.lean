import AndroidRenderer.Lib.Holders
import AndroidRenderer.Translator.Attachments
import AndroidRenderer.Translator.TextureBindings

/-!
# Attached images

A context keeps the images that textures and renderbuffers were made targets of through it. It
keeps each image once, and whichever context is current drops it where a texture is specified anew
or deleted.
-/

namespace AndroidRenderer.Translator

open Holders (Uses)

/-- The data of a texture or of a renderbuffer in a share group. -/
inductive ImageTarget
  | texture (group : Nat) (name : ObjectLocalName)
  | renderbuffer (group : Nat) (name : ObjectLocalName)
  deriving DecidableEq

structure ImageGroup where
  textures : ShareGroup TextureData
  renderbuffers : ShareGroup RenderbufferData

/-- The state of a context with the number of its share group, which it is given before each call;
`m_attachedImages` are the ids of the images. -/
structure ImageContext (n : Nat) where
  gl : Context n
  group : Nat
  framebufferObject : Bool
  renderbufferBinding : GLuint
  m_attachedImages : List UInt32

/-- The images of the display, and the contexts with their share groups. `via` is the context
through which a texture or renderbuffer was made a target last. -/
structure ImageSystem (n k : Nat) where
  m_eglImages : UInt32 → Option GlobalName
  m_nextEglImageId : UInt32
  groups : Nat → ImageGroup
  contexts : Fin k → ImageContext n
  via : ImageTarget → Fin k

/-- `sourceEGLImage`, where 0 stands for none. -/
def imageOf (sourceEGLImage : UInt32) : Option UInt32 :=
  if sourceEGLImage = 0 then none else some sourceEGLImage

def textureImage (g : ShareGroup TextureData) (name : ObjectLocalName) : Option UInt32 :=
  (g.getObjectData .TEXTURE name).bind fun texData => imageOf texData.sourceEGLImage

def renderbufferImage (g : ShareGroup RenderbufferData) (name : ObjectLocalName) :
    Option UInt32 :=
  (g.getObjectData .RENDERBUFFER name).bind fun rbData => imageOf rbData.sourceEGLImage

namespace Context

variable {n : Nat}

def boundName (ctx : Context n) (target : GLenum) : Option ObjectLocalName :=
  (ctx.getBindedTexture target).toOption.map (textureLocalName (GLTextureTargetToLocal target))

/-- The texture that `glTexImage2D` or `glEGLImageTargetTexture2DOES` changes, if it is found. -/
def changedName (ctx : Context n) (target : GLenum) : Option ObjectLocalName :=
  (ctx.boundName target).filter fun name => (ctx.getTextureData name).2.isSome

end Context

namespace ImageSystem

variable {n k : Nat}

/-! ## The display -/

def addImageKHR (s : ImageSystem n k) (globalTexName : GlobalName) : ImageSystem n k :=
  let next := s.m_nextEglImageId + 1
  let next := if next = 0 then 1 else next
  { s with
    m_nextEglImageId := next
    m_eglImages := fun id => if id = next then some globalTexName else s.m_eglImages id }

def destroyImageKHR (s : ImageSystem n k) (image : UInt32) : ImageSystem n k :=
  { s with m_eglImages := fun id => if id = image then none else s.m_eglImages id }

/-- `getImage`; no image has the id 0. -/
def getImage (s : ImageSystem n k) (image : UInt32) : Option EglImage :=
  if h : image ≠ 0 then (s.m_eglImages image).map fun globalTexName => ⟨image, globalTexName, h⟩
  else none

/-! ## Contexts -/

def modifyContext (s : ImageSystem n k) (c : Fin k) (f : ImageContext n → ImageContext n) :
    ImageSystem n k :=
  { s with contexts := fun c' => if c' = c then f (s.contexts c) else s.contexts c' }

def group (s : ImageSystem n k) (c : Fin k) : ImageGroup := s.groups (s.contexts c).group

def setGroup (s : ImageSystem n k) (c : Fin k) (g : ImageGroup) : ImageSystem n k :=
  { s with groups := fun i => if i = (s.contexts c).group then g else s.groups i }

/-- The context with its share group. -/
def view (s : ImageSystem n k) (c : Fin k) : Context n :=
  { (s.contexts c).gl with shareGroup := (s.group c).textures }

/-- What a call leaves. -/
def setView (s : ImageSystem n k) (c : Fin k) (ctx : Context n) : ImageSystem n k :=
  (s.modifyContext c ({ · with gl := ctx })).setGroup c
    { s.group c with textures := ctx.shareGroup }

def setGLerror (s : ImageSystem n k) (c : Fin k) (error : GLenum) : ImageSystem n k :=
  s.setView c ((s.view c).setGLerror error)

def attachImage (s : ImageSystem n k) (c : Fin k) (imageId : UInt32) : ImageSystem n k :=
  s.modifyContext c fun ctx =>
    if imageId ∈ ctx.m_attachedImages then ctx
    else { ctx with m_attachedImages := imageId :: ctx.m_attachedImages }

def detachImage (s : ImageSystem n k) (c : Fin k) (imageId : UInt32) : ImageSystem n k :=
  s.modifyContext c fun ctx =>
    { ctx with m_attachedImages := ctx.m_attachedImages.filter (· ≠ imageId) }

/-- `attachEGLImage`, with `c` as the context of the thread. -/
def attachEGLImage (s : ImageSystem n k) (c : Fin k) (imageId : UInt32) :
    ImageSystem n k × Option EglImage :=
  match s.getImage imageId with
  | some img => (s.attachImage c imageId, some img)
  | none => (s, none)

/-- `eglImageDetach` of the image, if there is one: `detachEGLImage`. -/
def detachEGLImage (s : ImageSystem n k) (c : Fin k) : Option UInt32 → ImageSystem n k
  | some imageId => s.detachImage c imageId
  | none => s

/-- The object is made a target through the context. -/
def setVia (s : ImageSystem n k) (c : Fin k) (o : ImageTarget) : ImageSystem n k :=
  { s with via := fun o' => if o' = o then c else s.via o' }

/-! ## Calls -/

def callGl (s : ImageSystem n k) (c : Fin k)
    (call : Context n → Except MemoryFault (Context n)) : Except MemoryFault (ImageSystem n k) := do
  let ctx ← call (s.view c)
  return s.setView c ctx

/-- The texture that `glTexImage2D` specifies anew. -/
def respecified (s : ImageSystem n k) (c : Fin k) (target argumentError : GLenum) :
    Option ObjectLocalName :=
  if !textureTargetEx target ∨ argumentError ≠ GL_NO_ERROR then none
  else (s.view c).changedName target

def glTexImage2D (s : ImageSystem n k) (c : Fin k) (target argumentError : GLenum) :
    Except MemoryFault (ImageSystem n k) := do
  let ctx ← (s.view c).glTexImage2D target argumentError
  let image := (s.respecified c target argumentError).bind (textureImage (s.group c).textures)
  return (s.setView c ctx).detachEGLImage c image

/-- The body of the loop of `glDeleteTextures`; with the name its data is destroyed. -/
def deleteTexture (c : Fin k) (s : ImageSystem n k) (texture : GLuint) :
    Except MemoryFault (ImageSystem n k) := do
  let ctx ← (s.view c).deleteTexture texture
  let image := if texture ≠ 0 then textureImage (s.group c).textures texture.toUInt64 else none
  return (s.setView c ctx).detachEGLImage c image

def glDeleteTextures (s : ImageSystem n k) (c : Fin k) (count : Int) (textures : List GLuint) :
    Except MemoryFault (ImageSystem n k) :=
  if count < 0 then .ok (s.setGLerror c GL_INVALID_VALUE)
  else (textures.take count.toNat).foldlM (deleteTexture c) s

def glEGLImageTargetTexture2DOES (s : ImageSystem n k) (c : Fin k) (target : GLenum)
    (image : UInt32) : Except MemoryFault (ImageSystem n k) :=
  if !textureTargetLimited target then .ok (s.setGLerror c GL_INVALID_ENUM)
  else do
    let (s, img) := s.attachEGLImage c image
    let ctx ← (s.view c).glEGLImageTargetTexture2DOES target img
    return match img.bind fun _ => (s.view c).changedName target with
      | some name => (s.setView c ctx).setVia c (.texture (s.contexts c).group name)
      | none => s.setView c ctx

def setRenderbufferData (s : ImageSystem n k) (c : Fin k) (renderbuffer : GLuint)
    (rbData : RenderbufferData) : ImageSystem n k :=
  s.setGroup c { s.group c with
    renderbuffers := (s.group c).renderbuffers.setObjectData .RENDERBUFFER renderbuffer.toUInt64
      rbData }

/-- Whether the name is generated when it is bound. -/
def generatesRenderbuffer (s : ImageSystem n k) (c : Fin k) (renderbuffer : GLuint) : Bool :=
  renderbuffer ≠ 0 &&
    if (s.contexts c).gl.version = .GLES_CM then
      !(s.group c).renderbuffers.isObject .RENDERBUFFER renderbuffer.toUInt64
    else (s.group c).renderbuffers.getGlobalName .RENDERBUFFER renderbuffer.toUInt64 = 0

/-- `glBindRenderbuffer` and `glBindRenderbufferOES`; `gen` is the name that the driver has for a
new renderbuffer. -/
def glBindRenderbuffer (s : ImageSystem n k) (c : Fin k) (target : GLenum) (renderbuffer : GLuint)
    (gen : GlobalName) : ImageSystem n k :=
  if (s.contexts c).gl.version = .GLES_CM ∧ !(s.contexts c).framebufferObject then
    s.setGLerror c GL_INVALID_OPERATION
  else if target ≠ GL_RENDERBUFFER then s.setGLerror c GL_INVALID_ENUM
  else
    let s :=
      if s.generatesRenderbuffer c renderbuffer then
        (s.setGroup c { s.group c with
          renderbuffers := (s.group c).renderbuffers.genName .RENDERBUFFER renderbuffer.toUInt64
            gen }).setRenderbufferData c renderbuffer .new
      else s
    s.modifyContext c ({ · with renderbufferBinding := renderbuffer })

def boundRenderbuffer (s : ImageSystem n k) (c : Fin k) : Option RenderbufferData :=
  let rb := (s.contexts c).renderbufferBinding
  if rb = 0 then none else (s.group c).renderbuffers.getObjectData .RENDERBUFFER rb.toUInt64

def glEGLImageTargetRenderbufferStorageOES (s : ImageSystem n k) (c : Fin k) (target : GLenum)
    (image : UInt32) : ImageSystem n k :=
  if target ≠ GL_RENDERBUFFER then s.setGLerror c GL_INVALID_ENUM
  else
    match s.attachEGLImage c image with
    | (s, none) => s.setGLerror c GL_INVALID_VALUE
    | (s, some img) =>
        match s.boundRenderbuffer c with
        | none => s.setGLerror c GL_INVALID_OPERATION
        | some rbData =>
            let rb := (s.contexts c).renderbufferBinding
            (s.setRenderbufferData c rb { rbData with
              sourceEGLImage := img.imageId, eglImageGlobalTexName := img.globalTexName }).setVia c
                (.renderbuffer (s.contexts c).group rb.toUInt64)

end ImageSystem

inductive ImageCall
  | eglCreateImageKHR (globalTexName : GlobalName)
  | eglDestroyImageKHR (image : UInt32)
  | glActiveTexture (texture : GLenum)
  | glBindTexture (target : GLenum) (texture : GLuint) (gen : GlobalName)
  | glDeleteTextures (count : Int) (textures : List GLuint)
  | glTexImage2D (target argumentError : GLenum)
  | glEGLImageTargetTexture2DOES (target : GLenum) (image : UInt32)
  | glBindRenderbuffer (target : GLenum) (renderbuffer : GLuint) (gen : GlobalName)
  | glEGLImageTargetRenderbufferStorageOES (target : GLenum) (image : UInt32)

/-- A call while a context is current. -/
def ImageSystem.step {n k : Nat} (s : ImageSystem n k) :
    Fin k × ImageCall → Except MemoryFault (ImageSystem n k)
  | (_, .eglCreateImageKHR globalTexName) => .ok (s.addImageKHR globalTexName)
  | (_, .eglDestroyImageKHR image) => .ok (s.destroyImageKHR image)
  | (c, .glActiveTexture texture) => s.callGl c fun ctx => .ok (ctx.glActiveTexture texture)
  | (c, .glBindTexture target texture gen) =>
      s.callGl c fun ctx => ctx.glBindTexture target texture gen
  | (c, .glDeleteTextures count textures) => s.glDeleteTextures c count textures
  | (c, .glTexImage2D target argumentError) => s.glTexImage2D c target argumentError
  | (c, .glEGLImageTargetTexture2DOES target image) =>
      s.glEGLImageTargetTexture2DOES c target image
  | (c, .glBindRenderbuffer target renderbuffer gen) =>
      .ok (s.glBindRenderbuffer c target renderbuffer gen)
  | (c, .glEGLImageTargetRenderbufferStorageOES target image) =>
      .ok (s.glEGLImageTargetRenderbufferStorageOES c target image)

/-! ## Images of textures -/

theorem imageOf_of_ne {image : UInt32} (h : image ≠ 0) : imageOf image = some image := if_neg h

namespace Context

variable {n : Nat} {ctx ctx' : Context n}

theorem textureImage_setObjectData (g : ShareGroup TextureData) (name name' : ObjectLocalName)
    (d : TextureData) :
    textureImage (g.setObjectData .TEXTURE name d) name' =
      if name' = name then imageOf d.sourceEGLImage else textureImage g name' := by
  rw [textureImage, ShareGroup.getObjectData_setObjectData]
  split <;> rfl

variable {name : ObjectLocalName} {target : GLenum}

theorem textureImage_congr {g g' : ShareGroup TextureData}
    (h : g'.getObjectData .TEXTURE name = g.getObjectData .TEXTURE name) :
    textureImage g' name = textureImage g name := by
  rw [textureImage, h, textureImage]

theorem textureImage_getTextureData (ctx : Context n) (name name' : ObjectLocalName) :
    textureImage (ctx.getTextureData name).1 name' = textureImage ctx.shareGroup name' := by
  by_cases hname : name' = name
  · subst hname
    unfold getTextureData
    split
    · rfl
    · split
      · rfl
      · rename_i hnone
        rw [textureImage_setObjectData, if_pos rfl, textureImage, hnone]
        rfl
  · exact textureImage_congr (ctx.getTextureData_getObjectData hname)

theorem textureImage_of_found {g : ShareGroup TextureData}
    {d : TextureData} (h : ctx.getTextureData name = (g, some d)) :
    textureImage ctx.shareGroup name = imageOf d.sourceEGLImage := by
  obtain ⟨-, hdata, -⟩ := getTextureData_spec h
  rw [← ctx.textureImage_getTextureData name name, h, textureImage, hdata, if_pos rfl]
  rfl

/-- A texture is found unless GLES_CM knows no object of the name. -/
theorem getTextureData_isSome (ctx : Context n) (name : ObjectLocalName) :
    (ctx.getTextureData name).2.isSome =
      (!decide (ctx.version = .GLES_CM) || ctx.shareGroup.isObject .TEXTURE name) := by
  unfold getTextureData
  grind

/-- Contexts whose share groups have the same textures, with the same images. -/
structure SameImages (ctx ctx' : Context n) : Prop where
  version : ctx'.version = ctx.version
  isObject : ∀ name, ctx'.shareGroup.isObject .TEXTURE name = ctx.shareGroup.isObject .TEXTURE name
  image : ∀ name, textureImage ctx'.shareGroup name = textureImage ctx.shareGroup name

namespace SameImages

theorem isSome (h : SameImages ctx ctx') (name : ObjectLocalName) :
    (ctx'.getTextureData name).2.isSome = (ctx.getTextureData name).2.isSome := by
  rw [getTextureData_isSome, getTextureData_isSome, h.version, h.isObject]

theorem refl (ctx : Context n) : SameImages ctx ctx := ⟨rfl, fun _ => rfl, fun _ => rfl⟩

theorem isObject_getTextureData (ctx : Context n) (name name' : ObjectLocalName) :
    (ctx.getTextureData name).1.isObject .TEXTURE name' =
      ctx.shareGroup.isObject .TEXTURE name' := by
  unfold getTextureData
  split
  · rfl
  · split <;> rfl

theorem found (h : SameImages ctx ctx') (name : ObjectLocalName) (driver : TextureDriver) :
    SameImages ctx { ctx' with shareGroup := (ctx'.getTextureData name).1, driver } where
  version := h.version
  isObject name' := (isObject_getTextureData ctx' name name').trans (h.isObject name')
  image name' := (ctx'.textureImage_getTextureData name name').trans (h.image name')

/-- A texture gets another name of the driver's. -/
theorem replaced (h : SameImages ctx ctx') (name : ObjectLocalName) (global : GLuint)
    (driver : TextureDriver) :
    SameImages ctx { ctx' with
      shareGroup := ctx'.shareGroup.replaceGlobalName .TEXTURE name global, driver } where
  version := h.version
  isObject name' := (ShareGroup.isObject_replaceGlobalName _ _ _ _ _).trans (h.isObject name')
  image name' := (textureImage_congr (ShareGroup.getObjectData_replaceGlobalName _ _ _ _ _ _)).trans
    (h.image name')

end SameImages

/-- The texture that is changed is that of the active unit, if it is found. -/
theorem changedName_iff {tex : GLuint}
    (h : ctx.getBindedTexture target = .ok tex) :
    ctx.changedName target = some name ↔
      (ctx.getTextureData (textureLocalName (GLTextureTargetToLocal target) tex)).2.isSome ∧
        name = textureLocalName (GLTextureTargetToLocal target) tex := by
  rw [changedName, boundName, h]
  apply (Option.filter_eq_some_iff ..).trans
  constructor
  · rintro ⟨hbound, hfound⟩
    obtain rfl := Option.some.inj hbound
    exact ⟨hfound, rfl⟩
  · rintro ⟨hfound, rfl⟩
    exact ⟨rfl, hfound⟩

theorem textureToBind_images {texture : GLuint} {gen : GlobalName}
    {global : Option GLuint} (h : ctx.textureToBind target texture gen = .ok (ctx', global))
    (name : ObjectLocalName) :
    textureImage ctx'.shareGroup name = textureImage ctx.shareGroup name := by
  generalize hname : textureLocalName (GLTextureTargetToLocal target) texture = bound at *
  unfold textureToBind at h
  rw [hname] at h
  obtain ⟨ctx₁, hctx₁⟩ : ∃ ctx₁ : Context n,
      (if ctx.shareGroup.getGlobalName .TEXTURE bound = 0 then
        { ctx with shareGroup := ctx.shareGroup.genName .TEXTURE bound gen }
      else ctx) = ctx₁ := ⟨_, rfl⟩
  have himage : textureImage ctx₁.shareGroup name = textureImage ctx.shareGroup name := by
    grind [textureImage_congr, ShareGroup.getObjectData_genName]
  dsimp only at h
  rw [hctx₁] at h
  rw [← himage, ← ctx₁.textureImage_getTextureData bound name]
  split at h
  · cases h
  · rename_i g d hdata
    have hbound : textureImage g bound = imageOf d.sourceEGLImage := by
      have hfound := ctx₁.textureImage_getTextureData bound bound
      grind [textureImage_of_found]
    obtain ⟨d₁, hd₁⟩ : ∃ d₁, (if d.target = 0 then { d with target } else d) = d₁ := ⟨_, rfl⟩
    have hsource : d₁.sourceEGLImage = d.sourceEGLImage := by grind
    rw [hd₁] at h
    rw [hdata]
    split at h
    · obtain ⟨rfl, -⟩ := Prod.mk.inj (Except.ok.inj h)
      rfl
    · obtain ⟨rfl, -⟩ := Prod.mk.inj (Except.ok.inj h)
      grind [textureImage_setObjectData]

theorem glBindTexture_images {texture : GLuint} {gen : GlobalName}
    (h : ctx.glBindTexture target texture gen = .ok ctx') (name : ObjectLocalName) :
    textureImage ctx'.shareGroup name = textureImage ctx.shareGroup name := by
  unfold glBindTexture at h
  split at h
  · obtain rfl := Except.ok.inj h
    rfl
  · obtain ⟨⟨ctx₁, global⟩, hfind, hrest⟩ := Run.bind_eq_ok.mp h
    rw [← textureToBind_images hfind name]
    cases global with
    | none =>
        obtain rfl := Except.ok.inj hrest
        rfl
    | some g =>
        obtain ⟨ctx₂, hset, hlast⟩ := Run.bind_eq_ok.mp hrest
        obtain ⟨unit, -, htex⟩ := Run.bind_eq_ok.mp hset
        obtain rfl := Except.ok.inj htex
        obtain rfl := Except.ok.inj hlast
        rfl

theorem glTexImage2D_images {argumentError : GLenum}
    (h : ctx.glTexImage2D target argumentError = .ok ctx') (name : ObjectLocalName) :
    textureImage ctx'.shareGroup name =
      if (textureTargetEx target = true ∧ argumentError = GL_NO_ERROR) ∧
          ctx.changedName target = some name then none
      else textureImage ctx.shareGroup name := by
  unfold glTexImage2D at h
  split at h
  · rename_i htarget
    obtain rfl := Except.ok.inj h
    rw [if_neg]
    · rfl
    · grind
  rename_i htarget
  rw [Bool.not_eq_true, Bool.not_eq_false'] at htarget
  split at h
  · rename_i hargument
    obtain rfl := Except.ok.inj h
    rw [if_neg fun hand => hargument hand.1.2]
    rfl
  rename_i hargument
  rw [not_not] at hargument
  obtain ⟨tex, hget, hrest⟩ := Run.bind_eq_ok.mp h
  rw [if_congr ((and_iff_right ⟨htarget, hargument⟩).trans (changedName_iff hget)) rfl rfl]
  generalize textureLocalName (GLTextureTargetToLocal target) tex = bound at *
  have hfound := ctx.textureImage_getTextureData bound name
  dsimp only at hrest
  split at hrest
  · rename_i g hdata
    obtain rfl := Except.ok.inj hrest
    rw [hdata] at hfound ⊢
    exact hfound
  · rename_i g d hdata
    have hchanged : textureImage ctx'.shareGroup name =
        if name = bound then none else textureImage g name := by
      split at hrest
      · obtain rfl := Except.ok.inj hrest
        exact (textureImage_congr (ShareGroup.getObjectData_replaceGlobalName _ _ _ _ _ _)).trans
          (textureImage_setObjectData _ _ _ _)
      · rename_i hnone
        rw [not_not] at hnone
        obtain rfl := Except.ok.inj hrest
        apply (textureImage_setObjectData _ _ _ _).trans
        dsimp only
        rw [hnone]
        rfl
    grind

/-- The share group without the texture. -/
theorem deleteTexture_images {texture : GLuint} (h : ctx.deleteTexture texture = .ok ctx')
    (name : ObjectLocalName) :
    textureImage ctx'.shareGroup name =
      if texture ≠ 0 ∧ name = texture.toUInt64 then none
      else textureImage ctx.shareGroup name := by
  by_cases hne : texture = 0
  · grind [deleteTexture]
  · obtain ⟨unit, -, rfl⟩ := deleteTexture_spec hne h
    have hdeleted := ShareGroup.getObjectData_deleteName (ctx.getTextureData texture.toUInt64).1
      .TEXTURE texture.toUInt64 name
    show textureImage ((ctx.getTextureData texture.toUInt64).1.deleteName .TEXTURE
      texture.toUInt64) name = _
    by_cases hname : name = texture.toUInt64
    · grind [textureImage]
    · rw [if_neg fun hand => hname hand.2, ← ctx.textureImage_getTextureData texture.toUInt64 name]
      grind [textureImage_congr]

/-- The bound texture is marked with the image if it is found. -/
theorem labelled_images {bound : ObjectLocalName} {img : EglImage} {oldGlobal : GLuint}
    (h : ctx.labelled bound img oldGlobal = .ok ctx') (name : ObjectLocalName) :
    textureImage ctx'.shareGroup name =
      if (ctx.getTextureData bound).2.isSome ∧ name = bound then some img.imageId
      else textureImage ctx.shareGroup name := by
  have hfound := ctx.textureImage_getTextureData bound name
  unfold labelled at h
  split at h
  · rename_i g hdata
    obtain rfl := Except.ok.inj h
    rw [hdata] at hfound ⊢
    rw [if_neg fun hand => Bool.false_ne_true hand.1]
    exact hfound
  · rename_i g d hdata
    obtain rfl := Except.ok.inj h
    rw [hdata] at hfound ⊢
    apply (textureImage_setObjectData _ _ _ _).trans
    rw [hfound, imageOf_of_ne img.imageId_ne]
    exact if_congr (and_iff_right rfl).symm rfl rfl

theorem glEGLImageTargetTexture2DOES_images {img : EglImage}
    (htarget : textureTargetLimited target = true)
    (h : ctx.glEGLImageTargetTexture2DOES target (some img) = .ok ctx') (name : ObjectLocalName) :
    textureImage ctx'.shareGroup name =
      if ctx.changedName target = some name then some img.imageId
      else textureImage ctx.shareGroup name := by
  rw [glEGLImageTargetTexture2DOES, htarget, Bool.not_true, if_neg Bool.false_ne_true] at h
  obtain ⟨tex, hget, hrest⟩ := Run.bind_eq_ok.mp h
  rw [if_congr (changedName_iff hget) rfl rfl]
  generalize textureLocalName (GLTextureTargetToLocal target) tex = bound at *
  obtain ⟨ctx₁, hctx₁, hlabelled⟩ : ∃ ctx₁ : Context n, SameImages ctx ctx₁ ∧
      ctx₁.labelled bound img (ctx.shareGroup.getGlobalName .TEXTURE bound) = .ok ctx' := by
    refine ⟨_, .replaced ?_ bound img.globalTexName _, hrest⟩
    split
    · dsimp only
      split
      · exact .found (.refl ctx) bound _
      · exact .found (.refl ctx) bound ctx.driver
    · exact .refl ctx
  rw [labelled_images hlabelled, hctx₁.isSome, hctx₁.image]

end Context

/-! ## Images in use -/

/-- What a call does with the images in use. -/
inductive ImageEffect
  | nothing
  | keep (image : UInt32)
  | start (o : ImageTarget) (image : UInt32)
  | stop (os : List ImageTarget)

namespace ImageEffect

variable {k : Nat} (u : Uses (Fin k) ImageTarget UInt32) (c : Fin k)

def apply : ImageEffect → Uses (Fin k) ImageTarget UInt32
  | nothing => u
  | keep image => u.keep c image
  | start o image => u.start c o image
  | stop os => u.stop c (· ∈ os)

/-- An image is kept besides where an object uses it. An object starts to use one where it used
none, or the same through the context, or where another object uses that. Objects stop where no
other uses their images through the context, and where others do through all other contexts. -/
def Minds : ImageEffect → Prop
  | nothing => True
  | keep image => ∃ o, u.Holds c o image
  | start o image => ∀ image', u.source o = some image' →
      u.via o = c ∧ image' = image ∨ ∃ o' ≠ o, u.Holds (u.via o) o' image'
  | stop os =>
      (∀ o o' image, o ∈ os → u.source o = some image → o' ∉ os → ¬u.Holds c o' image) ∧
        ∀ o image, o ∈ os → u.source o = some image → u.via o ≠ c →
          ∃ o', o' ∉ os ∧ u.Holds (u.via o) o' image

variable {u c}

theorem exact_apply_iff (h : u.Exact) {e : ImageEffect} : (e.apply u c).Exact ↔ e.Minds u c := by
  cases e with
  | nothing => exact iff_of_true h trivial
  | keep image => exact Uses.exact_keep_iff h
  | start o image => exact Uses.exact_start_iff h
  | stop os => exact Uses.exact_stop_iff h

end ImageEffect

namespace ImageSystem

variable {n k : Nat} {s s' : ImageSystem n k} {c : Fin k}

def source (s : ImageSystem n k) : ImageTarget → Option UInt32
  | .texture group name => textureImage (s.groups group).textures name
  | .renderbuffer group name => renderbufferImage (s.groups group).renderbuffers name

def uses (s : ImageSystem n k) : Uses (Fin k) ImageTarget UInt32 where
  kept c := {image | image ∈ (s.contexts c).m_attachedImages}
  source := s.source
  via := s.via

def deletedTextures (s : ImageSystem n k) (c : Fin k) (textures : List GLuint) :
    List ImageTarget :=
  (textures.filter (· ≠ 0)).map fun texture =>
    .texture (s.contexts c).group texture.toUInt64

def effect (s : ImageSystem n k) (c : Fin k) : ImageCall → ImageEffect
  | .glDeleteTextures count textures =>
      if count < 0 then .nothing else .stop (s.deletedTextures c (textures.take count.toNat))
  | .glTexImage2D target argumentError =>
      match s.respecified c target argumentError with
      | some name => .stop [.texture (s.contexts c).group name]
      | none => .nothing
  | .glEGLImageTargetTexture2DOES target image =>
      if !textureTargetLimited target ∨ s.getImage image = none then .nothing
      else
        match (s.view c).changedName target with
        | some name => .start (.texture (s.contexts c).group name) image
        | none => .keep image
  | .glEGLImageTargetRenderbufferStorageOES target image =>
      if target ≠ GL_RENDERBUFFER ∨ s.getImage image = none then .nothing
      else
        match s.boundRenderbuffer c with
        | some _ => .start (.renderbuffer (s.contexts c).group
            (s.contexts c).renderbufferBinding.toUInt64) image
        | none => .keep image
  | _ => .nothing

/-- Renderbuffers that have data have a name of the driver's. -/
def Named (s : ImageSystem n k) : Prop :=
  ∀ group name, (s.groups group).renderbuffers.getGlobalName .RENDERBUFFER name = 0 →
    (s.groups group).renderbuffers.getObjectData .RENDERBUFFER name = none

/-! ### Parts of calls -/

@[simp] theorem contexts_setView (s : ImageSystem n k) (c : Fin k) (ctx : Context n) (c' : Fin k) :
    ((s.setView c ctx).contexts c').m_attachedImages = (s.contexts c').m_attachedImages := by
  show (if c' = c then { s.contexts c with gl := ctx } else s.contexts c').m_attachedImages = _
  grind

@[simp] theorem group_setView (s : ImageSystem n k) (c : Fin k) (ctx : Context n) (c' : Fin k) :
    ((s.setView c ctx).contexts c').group = (s.contexts c').group := by
  show (if c' = c then { s.contexts c with gl := ctx } else s.contexts c').group = _
  grind

@[simp] theorem groups_setView (s : ImageSystem n k) (c : Fin k) (ctx : Context n) (g : Nat) :
    (s.setView c ctx).groups g =
      if g = (s.contexts c).group then { s.group c with textures := ctx.shareGroup }
      else s.groups g := by
  show (if g = (if c = c then { s.contexts c with gl := ctx } else s.contexts c).group then _
    else _) = _
  rw [if_pos rfl]
  rfl

/-- A call that changes the images of textures. -/
theorem source_setView {ctx : Context n} {P : ImageTarget → Prop} [DecidablePred P]
    {image : Option UInt32} (hP : ∀ o, P o → ∃ name, o = .texture (s.contexts c).group name)
    (h : ∀ name, textureImage ctx.shareGroup name =
      if P (.texture (s.contexts c).group name) then image
      else textureImage (s.group c).textures name) :
    (s.setView c ctx).source = fun o => if P o then image else s.source o := by
  funext o
  cases o with
  | texture g name =>
      rw [source, groups_setView]
      by_cases hg : g = (s.contexts c).group
      · subst hg
        rw [if_pos rfl, h name]
        rfl
      · rw [if_neg hg, if_neg]
        · rfl
        · grind
  | renderbuffer g name =>
      have hnot : ¬P (.renderbuffer g name) := by grind
      rw [source, groups_setView, if_neg hnot]
      split
      · rename_i hg
        rw [hg]
        rfl
      · rfl

/-- A call that leaves all images. -/
theorem uses_setView {ctx : Context n}
    (h : ∀ name, textureImage ctx.shareGroup name = textureImage (s.group c).textures name) :
    (s.setView c ctx).uses = s.uses := by
  apply Uses.ext
  · funext c'
    simp only [uses, contexts_setView]
  · show (s.setView c ctx).source = s.source
    have hsource : (s.setView c ctx).source = fun o => if False then none else s.source o :=
      source_setView (P := fun _ => False) (fun _ hp => hp.elim) fun name =>
        (h name).trans (if_neg id).symm
    simp [hsource]
  · rfl

@[simp] theorem uses_setGLerror (s : ImageSystem n k) (c : Fin k) (error : GLenum) :
    (s.setGLerror c error).uses = s.uses :=
  uses_setView fun _ => rfl

theorem uses_callGl {call : Context n → Except MemoryFault (Context n)}
    (hcall : ∀ ctx', call (s.view c) = .ok ctx' → ∀ name,
      textureImage ctx'.shareGroup name = textureImage (s.group c).textures name)
    (h : s.callGl c call = .ok s') : s'.uses = s.uses := by
  obtain ⟨ctx, hctx, hrest⟩ := Run.bind_eq_ok.mp h
  obtain rfl := Except.ok.inj hrest
  exact uses_setView (hcall ctx hctx)

@[grind =] theorem modifyContext_contexts (s : ImageSystem n k) (c c' : Fin k)
    (f : ImageContext n → ImageContext n) :
    (s.modifyContext c f).contexts c' = if c' = c then f (s.contexts c) else s.contexts c' :=
  rfl

theorem mem_detachEGLImage {image : Option UInt32} {c' : Fin k} {image' : UInt32} :
    image' ∈ ((s.detachEGLImage c image).contexts c').m_attachedImages ↔
      image' ∈ (s.contexts c').m_attachedImages ∧ (c' = c → image ≠ some image') := by
  cases image with
  | none => simp [detachEGLImage]
  | some image =>
      rw [detachEGLImage, detachImage, modifyContext_contexts]
      grind

variable {image : UInt32} {name : ObjectLocalName} {renderbuffer : GLuint}

theorem mem_attachImage {c' : Fin k} {image' : UInt32} :
    image' ∈ ((s.attachImage c image).contexts c').m_attachedImages ↔
      c' = c ∧ image' = image ∨ image' ∈ (s.contexts c').m_attachedImages := by
  rw [attachImage, modifyContext_contexts]
  grind

theorem uses_attachImage (s : ImageSystem n k) (c : Fin k) (image : UInt32) :
    (s.attachImage c image).uses = s.uses.keep c image := by
  apply Uses.ext
  · funext c'
    ext image'
    rw [Uses.mem_keep]
    exact mem_attachImage
  · rfl
  · rfl

/-- A texture of the context has no image any more, and the context drops the one it had. -/
theorem uses_detached {ctx : Context n}
    (h : ∀ name', textureImage ctx.shareGroup name' =
      if name' = name then none else textureImage (s.group c).textures name') :
    ((s.setView c ctx).detachEGLImage c (textureImage (s.group c).textures name)).uses =
      s.uses.stop c (· ∈ [.texture (s.contexts c).group name]) := by
  have hsource : (s.setView c ctx).source = fun o =>
      if o ∈ [ImageTarget.texture (s.contexts c).group name] then none else s.source o := by
    apply source_setView
    · simp
    · grind
  apply Uses.ext
  · funext c'
    ext image
    rw [Uses.mem_stop]
    apply mem_detachEGLImage.trans
    rw [contexts_setView]
    refine and_congr_right fun _ => imp_congr_right fun _ => ?_
    constructor
    · intro hne o ho
      rw [List.mem_singleton] at ho
      subst ho
      exact hne
    · intro hne
      exact hne _ (List.mem_singleton.mpr rfl)
  · cases himage : textureImage (s.group c).textures name <;> exact hsource
  · cases himage : textureImage (s.group c).textures name <;> rfl

/-! ### Calls -/

@[simp] theorem group_detachEGLImage (s : ImageSystem n k) (c : Fin k) (image : Option UInt32)
    (c' : Fin k) : ((s.detachEGLImage c image).contexts c').group = (s.contexts c').group := by
  cases image with
  | none => rfl
  | some image => grind [detachEGLImage, detachImage]

theorem uses_glTexImage2D {target argumentError : GLenum}
    (h : s.glTexImage2D c target argumentError = .ok s') :
    s'.uses = (s.effect c (.glTexImage2D target argumentError)).apply s.uses c := by
  obtain ⟨ctx, hctx, hrest⟩ := Run.bind_eq_ok.mp h
  obtain rfl := Except.ok.inj hrest
  have himages := Context.glTexImage2D_images hctx
  have hname : ∀ name, ((textureTargetEx target = true ∧ argumentError = GL_NO_ERROR) ∧
      (s.view c).changedName target = some name) ↔
      s.respecified c target argumentError = some name := by simp [respecified]
  dsimp only [effect]
  cases hrespecified : s.respecified c target argumentError with
  | none =>
      apply uses_setView
      intro name
      rw [himages, if_neg]
      · rfl
      · simp [hname, hrespecified]
  | some name =>
      apply uses_detached
      intro name'
      rw [himages]
      refine if_congr ?_ rfl rfl
      grind

theorem uses_deleteTexture {texture : GLuint} (h : deleteTexture c s texture = .ok s') :
    s'.uses = s.uses.stop c (· ∈ s.deletedTextures c [texture]) ∧
      (s'.contexts c).group = (s.contexts c).group := by
  obtain ⟨ctx, hctx, hrest⟩ := Run.bind_eq_ok.mp h
  obtain rfl := Except.ok.inj hrest
  refine ⟨?_, (group_detachEGLImage _ _ _ _).trans (group_setView _ _ _ _)⟩
  have himages := Context.deleteTexture_images hctx
  by_cases hzero : texture = 0
  · have hnone : s.deletedTextures c [texture] = [] := by
      rw [deletedTextures, List.filter_cons_of_neg (by simpa using hzero)]
      rfl
    rw [if_neg (not_not.mpr hzero), hnone, Uses.stop_of_forall_not fun _ => List.not_mem_nil]
    apply uses_setView
    intro name
    rw [himages, if_neg fun hand => hand.1 hzero]
    rfl
  · have hone : s.deletedTextures c [texture] =
        [.texture (s.contexts c).group texture.toUInt64] := by grind [deletedTextures]
    rw [if_pos hzero, hone]
    apply uses_detached
    intro name
    rw [himages]
    exact if_congr (and_iff_right hzero) rfl rfl

theorem uses_deleteTextures {textures : List GLuint}
    (h : textures.foldlM (deleteTexture c) s = .ok s') :
    s'.uses = s.uses.stop c (· ∈ s.deletedTextures c textures) := by
  induction textures generalizing s with
  | nil =>
      obtain rfl := Except.ok.inj h
      exact (Uses.stop_of_forall_not fun _ => List.not_mem_nil).symm
  | cons texture textures ih =>
      rw [List.foldlM_cons] at h
      obtain ⟨s₁, hturn, hrest⟩ := Run.bind_eq_ok.mp h
      obtain ⟨huses, hgroup⟩ := uses_deleteTexture hturn
      have hdeleted : s₁.deletedTextures c textures = s.deletedTextures c textures := by
        rw [deletedTextures, hgroup, deletedTextures]
      rw [ih hrest, huses, hdeleted, Uses.stop_stop]
      apply Uses.stop_congr
      grind [deletedTextures]

theorem view_attachImage (s : ImageSystem n k) (c : Fin k) (image : UInt32) :
    (s.attachImage c image).view c = s.view c ∧
      (s.attachImage c image).group c = s.group c ∧
      ((s.attachImage c image).contexts c).group = (s.contexts c).group ∧
      ((s.attachImage c image).contexts c).renderbufferBinding =
        (s.contexts c).renderbufferBinding := by
  simp only [view, group, attachImage, modifyContext_contexts, if_true]
  split <;> exact ⟨rfl, rfl, rfl, rfl⟩

theorem getImage_imageId {img : EglImage} (h : s.getImage image = some img) :
    img.imageId = image := by
  unfold getImage at h
  split at h
  · obtain ⟨global, -, rfl⟩ := Option.map_eq_some_iff.mp h
    rfl
  · cases h

/-- An object is made a target of an image that is attached. -/
theorem uses_setVia {s₂ : ImageSystem n k} {o : ImageTarget}
    (hkept : ∀ c', (s₂.contexts c').m_attachedImages =
      ((s.attachImage c image).contexts c').m_attachedImages)
    (hsource : s₂.source = fun o' => if o' = o then some image else s.source o')
    (hvia : s₂.via = s.via) : (s₂.setVia c o).uses = s.uses.start c o image := by
  apply Uses.ext
  · funext c'
    ext image'
    rw [Uses.mem_start]
    apply Iff.trans _ mem_attachImage
    rw [← hkept c']
    rfl
  · exact hsource
  · funext o'
    show (if o' = o then c else s₂.via o') = if o' = o then c else s.via o'
    rw [hvia]

theorem uses_targeted {ctx : Context n}
    (h : ∀ name', textureImage ctx.shareGroup name' =
      if name' = name then some image else textureImage (s.group c).textures name') :
    (((s.attachImage c image).setView c ctx).setVia c (.texture (s.contexts c).group name)).uses =
      s.uses.start c (.texture (s.contexts c).group name) image := by
  obtain ⟨-, hobjects, hgroup, -⟩ := s.view_attachImage c image
  apply uses_setVia
  · simp
  · apply source_setView
    · simp [hgroup]
    · grind
  · rfl

theorem uses_glEGLImageTargetTexture2DOES {target : GLenum}
    (h : s.glEGLImageTargetTexture2DOES c target image = .ok s') :
    s'.uses = (s.effect c (.glEGLImageTargetTexture2DOES target image)).apply s.uses c := by
  unfold glEGLImageTargetTexture2DOES at h
  split at h
  · rename_i htarget
    obtain rfl := Except.ok.inj h
    rw [effect, if_pos (.inl htarget)]
    exact uses_setGLerror s c _
  rename_i htarget
  rw [Bool.not_eq_true', Bool.not_eq_false] at htarget
  cases himg : s.getImage image with
  | none =>
      have hnone : s.attachEGLImage c image = (s, none) := by rw [attachEGLImage, himg]
      rw [hnone] at h
      obtain ⟨ctx, hctx, hrest⟩ := Run.bind_eq_ok.mp h
      obtain rfl := Except.ok.inj hrest
      rw [effect, if_pos (.inr himg)]
      apply uses_setView
      intro name
      rw [Context.glEGLImageTargetTexture2DOES, htarget] at hctx
      obtain rfl := Except.ok.inj hctx
      rfl
  | some img =>
      obtain rfl := getImage_imageId himg
      have hsome : s.attachEGLImage c img.imageId = (s.attachImage c img.imageId, some img) := by
        rw [attachEGLImage, himg]
      obtain ⟨hview, hobjects, hgroup, -⟩ := s.view_attachImage c img.imageId
      rw [hsome] at h
      obtain ⟨ctx, hctx, hrest⟩ := Run.bind_eq_ok.mp h
      have himages := Context.glEGLImageTargetTexture2DOES_images htarget hctx
      obtain rfl := Except.ok.inj hrest
      dsimp only [Option.bind_some]
      rw [hview, hgroup]
      rw [hview] at himages
      rw [effect, if_neg (by simp [htarget, himg])]
      cases hchanged : (s.view c).changedName target with
      | none =>
          dsimp only
          rw [ImageEffect.apply, ← uses_attachImage]
          apply uses_setView
          intro name
          rw [himages, hchanged, if_neg (Option.some_ne_none name).symm, hobjects]
          rfl
      | some name =>
          apply uses_targeted
          intro name'
          rw [himages, hchanged]
          exact if_congr (Option.some_inj.trans eq_comm) rfl rfl

theorem source_setGroup {g : ShareGroup RenderbufferData}
    {image : Option UInt32} (h : ∀ name', renderbufferImage g name' =
      if name' = name then image else renderbufferImage (s.group c).renderbuffers name') :
    (s.setGroup c { s.group c with renderbuffers := g }).source = fun o =>
      if o = .renderbuffer (s.contexts c).group name then image else s.source o := by
  funext o
  cases o with
  | texture i name' =>
      rw [if_neg (by simp)]
      simp only [source, setGroup]
      split
      · rename_i hi
        rw [hi]
        rfl
      · rfl
  | renderbuffer i name' =>
      simp only [source, setGroup]
      by_cases hi : i = (s.contexts c).group
      · rw [if_pos hi, h name']
        subst hi
        exact if_congr (by simp) rfl rfl
      · simp [hi]

theorem renderbufferImage_setObjectData (g : ShareGroup RenderbufferData)
    (name name' : ObjectLocalName) (d : RenderbufferData) :
    renderbufferImage (g.setObjectData .RENDERBUFFER name d) name' =
      if name' = name then imageOf d.sourceEGLImage else renderbufferImage g name' := by
  rw [renderbufferImage, ShareGroup.getObjectData_setObjectData]
  split <;> rfl

theorem renderbufferImage_of_generates (hnamed : s.Named)
    (h : s.generatesRenderbuffer c renderbuffer = true) :
    renderbufferImage (s.group c).renderbuffers renderbuffer.toUInt64 = none := by
  have hzero : (s.group c).renderbuffers.getGlobalName .RENDERBUFFER renderbuffer.toUInt64 = 0 := by
    grind [generatesRenderbuffer, ShareGroup.isObject_of_getGlobalName]
  have hnone := hnamed _ _ hzero
  rw [renderbufferImage, group, hnone]
  rfl

theorem source_generated (hnamed : s.Named) {gen : GlobalName}
    (h : s.generatesRenderbuffer c renderbuffer = true) :
    ((s.setGroup c { s.group c with
      renderbuffers := (s.group c).renderbuffers.genName .RENDERBUFFER renderbuffer.toUInt64
        gen }).setRenderbufferData c renderbuffer .new).source = s.source := by
  have hnone := renderbufferImage_of_generates hnamed h
  have hgenerated : (s.setGroup c { s.group c with
      renderbuffers := (s.group c).renderbuffers.genName .RENDERBUFFER renderbuffer.toUInt64
        gen }).source = fun o =>
      if o = .renderbuffer (s.contexts c).group renderbuffer.toUInt64 then none
      else s.source o := by
    apply source_setGroup
    intro name'
    split
    · rename_i heq
      rw [heq]
      exact hnone
    · rfl
  rw [setRenderbufferData, source_setGroup fun name' => renderbufferImage_setObjectData _ _ _ _,
    hgenerated]
  funext o
  split
  · rename_i heq
    rw [heq]
    exact hnone.symm
  · rename_i hne
    exact if_neg hne

theorem uses_glBindRenderbuffer (hnamed : s.Named) (target : GLenum) (renderbuffer : GLuint)
    (gen : GlobalName) : (s.glBindRenderbuffer c target renderbuffer gen).uses = s.uses := by
  unfold glBindRenderbuffer
  split
  · exact uses_setGLerror s c _
  split
  · exact uses_setGLerror s c _
  apply Uses.ext
  · funext c'
    ext image
    show image ∈ ((modifyContext _ c _).contexts c').m_attachedImages ↔ _
    rw [modifyContext_contexts]
    split
    · rename_i heq
      rw [heq]
      split <;> rfl
    · split <;> rfl
  · split
    · rename_i hgenerates
      exact source_generated hnamed hgenerates
    · rfl
  · show ImageSystem.via _ = s.via
    split <;> rfl

theorem uses_glEGLImageTargetRenderbufferStorageOES (target : GLenum) (image : UInt32) :
    (s.glEGLImageTargetRenderbufferStorageOES c target image).uses =
      (s.effect c (.glEGLImageTargetRenderbufferStorageOES target image)).apply s.uses c := by
  unfold glEGLImageTargetRenderbufferStorageOES
  split
  · rename_i htarget
    rw [effect, if_pos (.inl htarget)]
    exact uses_setGLerror s c _
  rename_i htarget
  cases himg : s.getImage image with
  | none =>
      rw [attachEGLImage, himg, effect, if_pos (.inr himg)]
      exact uses_setGLerror s c _
  | some img =>
      obtain rfl := getImage_imageId himg
      obtain ⟨-, hobjects, hgroup, hbinding⟩ := s.view_attachImage c img.imageId
      have hbound : (s.attachImage c img.imageId).boundRenderbuffer c = s.boundRenderbuffer c := by
        rw [boundRenderbuffer, hbinding, hobjects]
        rfl
      rw [attachEGLImage, himg, effect, if_neg (by simp [himg, not_not.mp htarget])]
      dsimp only
      rw [hbound, hbinding, hgroup]
      cases s.boundRenderbuffer c with
      | none =>
          dsimp only
          rw [uses_setGLerror]
          exact uses_attachImage s c _
      | some rbData =>
          dsimp only
          apply uses_setVia
          · exact fun _ => rfl
          · rw [setRenderbufferData,
              source_setGroup fun name' => renderbufferImage_setObjectData _ _ _ _, hgroup]
            dsimp only
            rw [imageOf_of_ne img.imageId_ne]
            rfl
          · rfl

theorem uses_step (hnamed : s.Named) {call : ImageCall} (h : s.step (c, call) = .ok s') :
    s'.uses = (s.effect c call).apply s.uses c := by
  cases call with
  | eglCreateImageKHR globalTexName =>
      obtain rfl := Except.ok.inj h
      rfl
  | eglDestroyImageKHR image =>
      obtain rfl := Except.ok.inj h
      rfl
  | glActiveTexture texture =>
      have hcall : s.callGl c (fun ctx => .ok (ctx.glActiveTexture texture)) = .ok s' := h
      refine uses_callGl (fun ctx' hctx name => ?_) hcall
      obtain rfl := Except.ok.inj hctx
      unfold Context.glActiveTexture
      split <;> rfl
  | glBindTexture target texture gen =>
      have hcall : s.callGl c (fun ctx => ctx.glBindTexture target texture gen) = .ok s' := h
      exact uses_callGl (fun _ hctx name => Context.glBindTexture_images hctx name) hcall
  | glDeleteTextures count textures =>
      have hcall : s.glDeleteTextures c count textures = .ok s' := h
      unfold glDeleteTextures at hcall
      rw [effect]
      split at hcall
      · rename_i hcount
        obtain rfl := Except.ok.inj hcall
        rw [if_pos hcount]
        exact uses_setGLerror s c _
      · rename_i hcount
        rw [if_neg hcount]
        exact uses_deleteTextures hcall
  | glTexImage2D target argumentError => exact uses_glTexImage2D h
  | glEGLImageTargetTexture2DOES target image => exact uses_glEGLImageTargetTexture2DOES h
  | glBindRenderbuffer target renderbuffer gen =>
      obtain rfl := Except.ok.inj h
      exact uses_glBindRenderbuffer hnamed target renderbuffer gen
  | glEGLImageTargetRenderbufferStorageOES target image =>
      obtain rfl := Except.ok.inj h
      exact uses_glEGLImageTargetRenderbufferStorageOES target image

/-! ### Names of renderbuffers -/

theorem Named.of_eq (h : s.Named) (heq : ∀ g, (s'.groups g).renderbuffers =
    (s.groups g).renderbuffers) : s'.Named := by
  intro g name
  rw [heq]
  exact h g name

theorem Named.setView (h : s.Named) (c : Fin k) (ctx : Context n) : (s.setView c ctx).Named := by
  apply h.of_eq
  intro g
  rw [groups_setView]
  split
  · rename_i heq
    rw [heq]
    rfl
  · rfl

theorem Named.detachEGLImage (h : s.Named) (c : Fin k) (image : Option UInt32) :
    (s.detachEGLImage c image).Named := by
  cases image <;> exact h

theorem Named.setGroup (h : s.Named) {g : ShareGroup RenderbufferData}
    (hg : ∀ name, g.getGlobalName .RENDERBUFFER name = 0 →
      g.getObjectData .RENDERBUFFER name = none) :
    (s.setGroup c { s.group c with renderbuffers := g }).Named := by
  intro i name
  simp only [ImageSystem.setGroup]
  split
  · exact hg name
  · exact h i name

theorem Named.setRenderbufferData (h : s.Named)
    {rbData : RenderbufferData}
    (hname : (s.group c).renderbuffers.getGlobalName .RENDERBUFFER renderbuffer.toUInt64 ≠ 0) :
    (s.setRenderbufferData c renderbuffer rbData).Named := by
  apply h.setGroup
  intro name hzero
  rw [ShareGroup.getGlobalName_setObjectData] at hzero
  rw [ShareGroup.getObjectData_setObjectData, if_neg]
  · exact h _ _ hzero
  · grind

theorem Named.deleteTexture (h : s.Named) {texture : GLuint}
    (hcall : ImageSystem.deleteTexture c s texture = .ok s') : s'.Named := by
  obtain ⟨ctx, -, hrest⟩ := Run.bind_eq_ok.mp hcall
  obtain rfl := Except.ok.inj hrest
  exact (h.setView c ctx).detachEGLImage c _

theorem Named.attachEGLImage (h : s.Named) (c : Fin k) (image : UInt32) :
    (s.attachEGLImage c image).1.Named := by
  unfold ImageSystem.attachEGLImage
  split <;> exact h

theorem Named.glBindRenderbuffer (h : s.Named) (c : Fin k) (target : GLenum)
    (renderbuffer : GLuint) (gen : GlobalName) :
    (s.glBindRenderbuffer c target renderbuffer gen).Named := by
  unfold ImageSystem.glBindRenderbuffer
  split
  · exact h.setView c _
  split
  · exact h.setView c _
  dsimp only
  split
  · have hgenerated : (s.setGroup c { s.group c with
        renderbuffers := (s.group c).renderbuffers.genName .RENDERBUFFER renderbuffer.toUInt64
          gen }).Named := by
      apply h.setGroup
      intro name hzero
      rw [ShareGroup.getGlobalName_genName] at hzero
      split at hzero
      · exact absurd hzero gen.property
      · exact h _ _ hzero
    refine hgenerated.setRenderbufferData ?_
    grind [group, ImageSystem.setGroup]
  · exact h

theorem Named.glEGLImageTargetRenderbufferStorageOES (h : s.Named) (c : Fin k) (target : GLenum)
    (image : UInt32) : (s.glEGLImageTargetRenderbufferStorageOES c target image).Named := by
  unfold ImageSystem.glEGLImageTargetRenderbufferStorageOES
  split
  · exact h.setView c _
  have hattached := h.attachEGLImage c image
  split
  · rename_i heq
    rw [heq] at hattached
    exact hattached.setView c _
  · rename_i s₁ img heq
    rw [heq] at hattached
    split
    · exact hattached.setView c _
    · rename_i rbData hbound
      refine hattached.setRenderbufferData fun hzero => ?_
      have hnone := hattached _ _ hzero
      grind [boundRenderbuffer, group]

theorem Named.step (h : s.Named) {event : Fin k × ImageCall} (hstep : s.step event = .ok s') :
    s'.Named := by
  obtain ⟨c, call⟩ := event
  cases call with
  | eglCreateImageKHR globalTexName =>
      obtain rfl := Except.ok.inj hstep
      exact h
  | eglDestroyImageKHR image =>
      obtain rfl := Except.ok.inj hstep
      exact h
  | glActiveTexture texture =>
      obtain ⟨ctx, -, hrest⟩ := Run.bind_eq_ok.mp hstep
      obtain rfl := Except.ok.inj hrest
      exact h.setView c ctx
  | glBindTexture target texture gen =>
      obtain ⟨ctx, -, hrest⟩ := Run.bind_eq_ok.mp hstep
      obtain rfl := Except.ok.inj hrest
      exact h.setView c ctx
  | glDeleteTextures count textures =>
      have hcall : s.glDeleteTextures c count textures = .ok s' := hstep
      unfold ImageSystem.glDeleteTextures at hcall
      split at hcall
      · obtain rfl := Except.ok.inj hcall
        exact h.setView c _
      · exact Run.foldlM_invariant (fun _ _ _ hturn => hturn.deleteTexture) h hcall
  | glTexImage2D target argumentError =>
      obtain ⟨ctx, -, hrest⟩ := Run.bind_eq_ok.mp hstep
      obtain rfl := Except.ok.inj hrest
      exact (h.setView c ctx).detachEGLImage c _
  | glEGLImageTargetTexture2DOES target image =>
      have hcall : s.glEGLImageTargetTexture2DOES c target image = .ok s' := hstep
      unfold ImageSystem.glEGLImageTargetTexture2DOES at hcall
      split at hcall
      · obtain rfl := Except.ok.inj hcall
        exact h.setView c _
      · obtain ⟨ctx, -, hrest⟩ := Run.bind_eq_ok.mp hcall
        obtain rfl := Except.ok.inj hrest
        have hattached := (h.attachEGLImage c image).setView c ctx
        split <;> exact hattached
  | glBindRenderbuffer target renderbuffer gen =>
      obtain rfl := Except.ok.inj hstep
      exact h.glBindRenderbuffer c target renderbuffer gen
  | glEGLImageTargetRenderbufferStorageOES target image =>
      obtain rfl := Except.ok.inj hstep
      exact h.glEGLImageTargetRenderbufferStorageOES c target image

/-! ### Runs -/

structure Unused (s : ImageSystem n k) : Prop where
  attached : ∀ c, (s.contexts c).m_attachedImages = []
  source : ∀ o, s.source o = none
  named : s.Named

theorem Unused.exact (h : s.Unused) : s.uses.Exact := by
  intro c image
  apply iff_of_false
  · show image ∉ (s.contexts c).m_attachedImages
    simp [h.attached]
  · rintro ⟨o, hsource, -⟩
    cases (h.source o).symm.trans hsource

def KeepsImages (s : ImageSystem n k) (event : Fin k × ImageCall) : Prop :=
  (s.effect event.1 event.2).Minds s.uses event.1

/-- Of the calls, those and no others leave what is attached and what is in use the same. -/
theorem exact_step_iff (hnamed : s.Named) (h : s.uses.Exact) {event : Fin k × ImageCall}
    (hstep : s.step event = .ok s') : s'.uses.Exact ↔ s.KeepsImages event := by
  rw [uses_step hnamed hstep]
  exact ImageEffect.exact_apply_iff h

/-- Contexts have exactly the images attached that are in use through them. -/
theorem uses_exact {s₀ : ImageSystem n k} (h₀ : s₀.Unused)
    (h : Run.Reach step KeepsImages s₀ s) : s.uses.Exact := by
  have hinv : s.Named ∧ s.uses.Exact := by
    refine h.invariant (I := fun s => s.Named ∧ s.uses.Exact) ⟨h₀.named, h₀.exact⟩ ?_
    rintro s₁ event s₂ ⟨hnamed, hexact⟩ hkeeps hstep
    exact ⟨hnamed.step hstep, (exact_step_iff hnamed hexact hstep).mpr hkeeps⟩
  exact hinv.2

/-- A context with one texture unit. -/
def oneUnit : ImageSystem 1 1 where
  m_eglImages _ := none
  m_nextEglImageId := 0
  groups _ := ⟨.new, .new⟩
  contexts _ := ⟨⟨.GLES_V2, 0, fun _ _ => 0, .new, .init, GL_NO_ERROR⟩, 0, true, 0, []⟩
  via _ := ⟨0, Nat.one_pos⟩

theorem unused_oneUnit : oneUnit.Unused where
  attached _ := rfl
  source o := by cases o <;> rfl
  named _ _ _ := rfl

def keepsImagesTest (s : ImageSystem n k) (event : Fin k × ImageCall) : Bool :=
  match s.effect event.1 event.2 with
  | .nothing => true
  | .keep _ => false
  | .start o _ => s.source o = none
  | .stop os => os.all fun o => s.source o = none

theorem keepsImagesTest_sound (s : ImageSystem n k) (event : Fin k × ImageCall)
    (h : s.keepsImagesTest event = true) : s.KeepsImages event := by
  rw [keepsImagesTest] at h
  rw [KeepsImages]
  cases heffect : s.effect event.1 event.2 with
  | nothing => trivial
  | keep image => grind
  | start o image =>
      rw [heffect] at h
      intro image' hsource
      cases (of_decide_eq_true h).symm.trans hsource
  | stop os =>
      rw [heffect] at h
      have hnone : ∀ o ∈ os, ∀ image, s.source o ≠ some image := by grind
      constructor
      · intro o _ image ho hsource
        exact absurd hsource (hnone o ho image)
      · intro o image ho hsource
        exact absurd hsource (hnone o ho image)

/-- An image that is destroyed stays attached, as a texture is its target. -/
theorem uses_exact_destroyed :
    ∃ s : ImageSystem 1 1, 1 ∈ (s.contexts 0).m_attachedImages ∧ s.uses.Exact := by
  have hrun : Run.check step keepsImagesTest
      (fun s : ImageSystem 1 1 => decide (1 ∈ (s.contexts 0).m_attachedImages)) oneUnit
      [(0, .eglCreateImageKHR ⟨201, by decide⟩),
        (0, .glBindTexture GL_TEXTURE_2D 5 ⟨101, by decide⟩),
        (0, .glEGLImageTargetTexture2DOES GL_TEXTURE_2D 1), (0, .eglDestroyImageKHR 1),
        (0, .glBindTexture GL_TEXTURE_2D 6 ⟨102, by decide⟩),
        (0, .glTexImage2D GL_TEXTURE_2D GL_NO_ERROR), (0, .glDeleteTextures 1 [6])] = true := by
    decide +kernel
  obtain ⟨s, hreach, htest⟩ := Run.exists_reach_of_check keepsImagesTest_sound hrun
  exact ⟨s, of_decide_eq_true htest, uses_exact unused_oneUnit hreach⟩

/-- Two textures are targets of one image, which is not attached any more once one of them is
specified anew. -/
theorem not_exact_shared : ∃ s₀ s : ImageSystem 1 1, s₀.Unused ∧
    Run.Reach step (fun _ _ => True) s₀ s ∧ ¬s.uses.Exact := by
  have hrun : Run.check step (fun _ _ => true)
      (fun s : ImageSystem 1 1 => decide (1 ∉ (s.contexts 0).m_attachedImages ∧
        s.source (.texture 0 5) = some 1)) oneUnit
      [(0, .eglCreateImageKHR ⟨201, by decide⟩),
        (0, .glBindTexture GL_TEXTURE_2D 5 ⟨101, by decide⟩),
        (0, .glEGLImageTargetTexture2DOES GL_TEXTURE_2D 1),
        (0, .glBindTexture GL_TEXTURE_2D 6 ⟨102, by decide⟩),
        (0, .glEGLImageTargetTexture2DOES GL_TEXTURE_2D 1),
        (0, .glTexImage2D GL_TEXTURE_2D GL_NO_ERROR)] = true := by
    decide +kernel
  obtain ⟨s, hreach, htest⟩ := Run.exists_reach_of_check (fun _ _ _ => trivial) hrun
  obtain ⟨hdropped, hsource⟩ := of_decide_eq_true htest
  refine ⟨oneUnit, s, unused_oneUnit, hreach, fun hexact => hdropped ?_⟩
  exact (hexact 0 1).mpr ⟨.texture 0 5, hsource, Subsingleton.elim _ _⟩

end ImageSystem

end AndroidRenderer.Translator
