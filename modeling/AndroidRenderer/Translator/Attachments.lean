import AndroidRenderer.Translator.BufferObjects

/-!
# Attachments of framebuffers

The data of a framebuffer records what is attached to its points. That of a renderbuffer is
referred to by smart pointers, from the share group and from the points that it is attached to,
and has the name of one framebuffer and one of its points. What the driver is told of attachments
is left out.
-/

namespace AndroidRenderer.Translator

def GL_FRAMEBUFFER : GLenum := 0x8D40
def GL_RENDERBUFFER : GLenum := 0x8D41
def GL_COLOR_ATTACHMENT0 : GLenum := 0x8CE0
def GL_DEPTH_ATTACHMENT : GLenum := 0x8D00
def GL_STENCIL_ATTACHMENT : GLenum := 0x8D20

structure RenderbufferData where
  sourceEGLImage : UInt32
  attachedFB : GLuint
  attachedPoint : GLenum
  eglImageGlobalTexName : GLuint

/-- `RenderbufferData::RenderbufferData` -/
def RenderbufferData.new : RenderbufferData := ⟨0, 0, 0, 0⟩

/-- An entry of `m_attachPoints`; `obj` is the number of a renderbuffer's data. -/
structure AttachPoint where
  target : GLenum
  name : GLuint
  obj : Option Nat
  owned : Bool
  deriving DecidableEq

def AttachPoint.new : AttachPoint := ⟨0, 0, none, false⟩

structure FramebufferData where
  fbName : GLuint
  attachPoints : Fin 4 → AttachPoint
  dirty : Bool

def framebufferAttachment (attachment : GLenum) : Bool :=
  attachment = GL_COLOR_ATTACHMENT0 || attachment = GL_DEPTH_ATTACHMENT ||
    attachment = GL_STENCIL_ATTACHMENT

def attachmentPointIndex (attachment : GLenum) : Fin 4 :=
  if attachment = GL_COLOR_ATTACHMENT0 then 0
  else if attachment = GL_DEPTH_ATTACHMENT then 1
  else if attachment = GL_STENCIL_ATTACHMENT then 2
  else 3

def modifyRenderbuffer (heap : Registry RenderbufferData) (o : Nat)
    (f : RenderbufferData → RenderbufferData) : Registry RenderbufferData :=
  match heap.get? o with
  | some rb => heap.set o (f rb)
  | none => heap

namespace FramebufferData

/-- `FramebufferData::FramebufferData` -/
def new (name : GLuint) : FramebufferData := ⟨name, fun _ => .new, false⟩

/-- The link back of the renderbuffer of a point, which `detachObject` clears. -/
def unlink (heap : Registry RenderbufferData) (point : AttachPoint) : Registry RenderbufferData :=
  if point.target = GL_RENDERBUFFER then
    point.obj.elim heap fun o =>
      modifyRenderbuffer heap o ({ · with attachedFB := 0, attachedPoint := 0 })
  else heap

def detachObject (fb : FramebufferData) (heap : Registry RenderbufferData) (idx : Fin 4) :
    FramebufferData × Registry RenderbufferData :=
  ({ fb with attachPoints := Function.update fb.attachPoints idx .new },
    unlink heap (fb.attachPoints idx))

def setAttachment (fb : FramebufferData) (heap : Registry RenderbufferData)
    (attachment target : GLenum) (name : GLuint) (obj : Option Nat) (takeOwnership : Bool) :
    FramebufferData × Registry RenderbufferData :=
  let idx := attachmentPointIndex attachment
  let point : AttachPoint := ⟨target, name, obj, takeOwnership⟩
  if fb.attachPoints idx ≠ point then
    let (fb, heap) := fb.detachObject heap idx
    let heap :=
      if target = GL_RENDERBUFFER then
        obj.elim heap fun o => modifyRenderbuffer heap o
          ({ · with attachedFB := fb.fbName, attachedPoint := attachment })
      else heap
    ({ fb with attachPoints := Function.update fb.attachPoints idx point, dirty := true }, heap)
  else (fb, heap)

/-- `getAttachment`, less the target and the object. -/
def getAttachment (fb : FramebufferData) (attachment : GLenum) : GLuint :=
  (fb.attachPoints (attachmentPointIndex attachment)).name

/-- `validate`: a texture of its own is attached if there is no color attachment but another one,
which the driver is asked for. `tex` is the driver's name of the texture. -/
def validate (fb : FramebufferData) (heap : Registry RenderbufferData) (attached : Bool)
    (tex : GLuint) : FramebufferData × Registry RenderbufferData :=
  if fb.getAttachment GL_COLOR_ATTACHMENT0 = 0 then
    if attached then
      let (fb, heap) := fb.setAttachment heap GL_COLOR_ATTACHMENT0 GL_TEXTURE_2D tex none true
      ({ fb with dirty := false }, heap)
    else (fb, heap)
  else ({ fb with dirty := false }, heap)

end FramebufferData

/-! ## Contexts -/

/-- The data of a share group. A `RenderbufferData` is given by its number. -/
inductive AttachmentData
  | RenderbufferData (o : Nat)
  | FramebufferData (fb : Translator.FramebufferData)

namespace AttachmentData

def renderbuffer? : AttachmentData → Option Nat
  | RenderbufferData o => some o
  | FramebufferData _ => none

def framebuffer? : AttachmentData → Option Translator.FramebufferData
  | FramebufferData fb => some fb
  | RenderbufferData _ => none

end AttachmentData

structure AttachmentContext where
  version : GLESVersion
  framebufferObject : Bool
  framebufferBinding : GLuint
  renderbufferBinding : GLuint
  glError : GLenum

namespace AttachmentContext

def new (version : GLESVersion) (framebufferObject : Bool) : AttachmentContext :=
  ⟨version, framebufferObject, 0, 0, GL_NO_ERROR⟩

def hasFramebuffers (ctx : AttachmentContext) : Bool :=
  ctx.version = .GLES_V2 || ctx.framebufferObject

end AttachmentContext

/-- The framebuffers and renderbuffers of a share group, and its `k` contexts. Data of
renderbuffers that nothing refers to any more stays. -/
structure SharedFramebuffers (k : Nat) where
  names : ObjectNames AttachmentData
  renderbuffers : Registry RenderbufferData
  contexts : Fin k → AttachmentContext

namespace SharedFramebuffers

variable {k : Nat}

def initial (contexts : Fin k → AttachmentContext) : SharedFramebuffers k :=
  ⟨.new, .empty, contexts⟩

def modifyNames (s : SharedFramebuffers k)
    (f : ShareGroup AttachmentData → ShareGroup AttachmentData) : SharedFramebuffers k :=
  { s with names := s.names.modify f }

def modifyContext (s : SharedFramebuffers k) (c : Fin k)
    (f : AttachmentContext → AttachmentContext) : SharedFramebuffers k :=
  { s with contexts := Function.update s.contexts c (f (s.contexts c)) }

def setGLerror (s : SharedFramebuffers k) (c : Fin k) (error : GLenum) : SharedFramebuffers k :=
  s.modifyContext c ({ · with glError := error })

def isObject (s : SharedFramebuffers k) (type : NamedObjectType) (name : GLuint) : Bool :=
  s.names.isObject type (localName name)

/-- `getObjectData` of a renderbuffer. -/
def renderbuffer? (s : SharedFramebuffers k) (name : GLuint) : Option Nat :=
  (s.names.getObjectData .RENDERBUFFER (localName name)).bind (·.renderbuffer?)

/-- `getObjectData` of a framebuffer. -/
def framebuffer? (s : SharedFramebuffers k) (name : GLuint) : Option FramebufferData :=
  (s.names.getObjectData .FRAMEBUFFER (localName name)).bind (·.framebuffer?)

/-- `new RenderbufferData()` -/
def newRenderbuffer (s : SharedFramebuffers k) : SharedFramebuffers k × Nat :=
  ({ s with renderbuffers := s.renderbuffers.insert .new }, s.renderbuffers.next)

/-- `setObjectData` of a renderbuffer. -/
def insertRenderbuffer (s : SharedFramebuffers k) (name : GLuint) (o : Nat) :
    SharedFramebuffers k :=
  s.modifyNames (·.insertObjectData .RENDERBUFFER (localName name) (.RenderbufferData o))

/-- `setObjectData` with a `new FramebufferData(name)`. -/
def insertFramebuffer (s : SharedFramebuffers k) (name : GLuint) : SharedFramebuffers k :=
  s.modifyNames
    (·.insertObjectData .FRAMEBUFFER (localName name) (.FramebufferData (.new name)))

/-- `genName` for a name that the application has chosen. -/
def genName (s : SharedFramebuffers k) (type : NamedObjectType) (name gen : GLuint) :
    SharedFramebuffers k :=
  s.modifyNames (·.genName type (localName name) gen)

/-! ## Names and bindings -/

/-- A turn of the loop of `glGenRenderbuffers`. -/
def genRenderbuffer (s : SharedFramebuffers k) (gen : GLuint) : SharedFramebuffers k × GLuint :=
  let (names, name) := s.names.genLocalName .RENDERBUFFER gen
  let (s, o) := ({ s with names } : SharedFramebuffers k).newRenderbuffer
  (s.insertRenderbuffer (clientName name) o, clientName name)

/-- A turn of the loop of `glGenFramebuffers`. -/
def genFramebuffer (s : SharedFramebuffers k) (gen : GLuint) : SharedFramebuffers k × GLuint :=
  let (names, name) := s.names.genLocalName .FRAMEBUFFER gen
  (({ s with names } : SharedFramebuffers k).insertFramebuffer (clientName name), clientName name)

/-- `glGenRenderbuffers` and `glGenFramebuffers`, with the names that they give; `gens` are the
driver's. -/
def genNames (turn : SharedFramebuffers k → GLuint → SharedFramebuffers k × GLuint)
    (s : SharedFramebuffers k) (c : Fin k) (n : Int) (gens : Nat → GLuint) :
    SharedFramebuffers k × List GLuint :=
  if !(s.contexts c).hasFramebuffers then (s.setGLerror c GL_INVALID_OPERATION, [])
  else if n < 0 then (s.setGLerror c GL_INVALID_VALUE, [])
  else
    (List.range n.toNat).foldl (fun (s, names) i =>
      let (s, name) := turn s (gens i)
      (s, names ++ [name])) (s, [])

/-- `glGenRenderbuffers` and `glGenRenderbuffersOES` -/
def glGenRenderbuffers (s : SharedFramebuffers k) (c : Fin k) (n : Int) (gens : Nat → GLuint) :
    SharedFramebuffers k × List GLuint :=
  s.genNames genRenderbuffer c n gens

/-- `glGenFramebuffers` and `glGenFramebuffersOES` -/
def glGenFramebuffers (s : SharedFramebuffers k) (c : Fin k) (n : Int) (gens : Nat → GLuint) :
    SharedFramebuffers k × List GLuint :=
  s.genNames genFramebuffer c n gens

/-- Whether a name is generated when it is bound: GLES_CM asks for the object, GLES_V2 for its
global name. -/
def generated (s : SharedFramebuffers k) (c : Fin k) (type : NamedObjectType) (name : GLuint) :
    Bool :=
  if (s.contexts c).version = .GLES_CM then s.isObject type name
  else s.names.getGlobalName type (localName name) ≠ 0

/-- `glBindRenderbuffer` and `glBindRenderbufferOES` -/
def glBindRenderbuffer (s : SharedFramebuffers k) (c : Fin k) (target : GLenum)
    (renderbuffer gen : GLuint) : SharedFramebuffers k :=
  if !(s.contexts c).hasFramebuffers then s.setGLerror c GL_INVALID_OPERATION
  else if target ≠ GL_RENDERBUFFER then s.setGLerror c GL_INVALID_ENUM
  else
    let s :=
      if renderbuffer ≠ 0 ∧ !s.generated c .RENDERBUFFER renderbuffer then
        let (s, o) := (s.genName .RENDERBUFFER renderbuffer gen).newRenderbuffer
        s.insertRenderbuffer renderbuffer o
      else s
    s.modifyContext c ({ · with renderbufferBinding := renderbuffer })

/-- `glBindFramebuffer` and `glBindFramebufferOES` -/
def glBindFramebuffer (s : SharedFramebuffers k) (c : Fin k) (target : GLenum)
    (framebuffer gen : GLuint) : SharedFramebuffers k :=
  if !(s.contexts c).hasFramebuffers then s.setGLerror c GL_INVALID_OPERATION
  else if target ≠ GL_FRAMEBUFFER then s.setGLerror c GL_INVALID_ENUM
  else
    let s :=
      if framebuffer ≠ 0 ∧ !s.generated c .FRAMEBUFFER framebuffer then
        (s.genName .FRAMEBUFFER framebuffer gen).insertFramebuffer framebuffer
      else s
    s.modifyContext c ({ · with framebufferBinding := framebuffer })

/-! ## Attachments -/

/-- The data of a framebuffer and that of renderbuffers is changed. -/
def setFramebuffer (s : SharedFramebuffers k) (name : GLuint)
    (changed : FramebufferData × Registry RenderbufferData) : SharedFramebuffers k :=
  { s.modifyNames (·.setObjectData .FRAMEBUFFER (localName name) (.FramebufferData changed.1)) with
    renderbuffers := changed.2 }

/-- A change of the framebuffer that is bound, if it has data. -/
def modifyFramebuffer (s : SharedFramebuffers k) (c : Fin k)
    (f : FramebufferData → Registry RenderbufferData →
      FramebufferData × Registry RenderbufferData) : SharedFramebuffers k :=
  match s.framebuffer? (s.contexts c).framebufferBinding with
  | none => s
  | some fb => s.setFramebuffer (s.contexts c).framebufferBinding (f fb s.renderbuffers)

/-- The data that `glFramebufferRenderbuffer` attaches. For a name that is no object, GLES_CM
stores other data than it attaches. -/
def renderbufferObject (s : SharedFramebuffers k) (c : Fin k) (renderbuffer gen : GLuint) :
    SharedFramebuffers k × Option Nat :=
  if renderbuffer ≠ 0 then
    if !s.isObject .RENDERBUFFER renderbuffer then
      let (s, obj) := (s.genName .RENDERBUFFER renderbuffer gen).newRenderbuffer
      if (s.contexts c).version = .GLES_CM then
        let (s, stored) := s.newRenderbuffer
        (s.insertRenderbuffer renderbuffer stored, some obj)
      else (s.insertRenderbuffer renderbuffer obj, some obj)
    else (s, s.renderbuffer? renderbuffer)
  else (s, none)

/-- `glFramebufferRenderbuffer` and `glFramebufferRenderbufferOES` -/
def glFramebufferRenderbuffer (s : SharedFramebuffers k) (c : Fin k)
    (target attachment renderbuffertarget : GLenum) (renderbuffer gen : GLuint) :
    SharedFramebuffers k :=
  if !(s.contexts c).hasFramebuffers then s.setGLerror c GL_INVALID_OPERATION
  else if !(target = GL_FRAMEBUFFER && framebufferAttachment attachment &&
      renderbuffertarget = GL_RENDERBUFFER) then s.setGLerror c GL_INVALID_ENUM
  else
    let (s, obj) := s.renderbufferObject c renderbuffer gen
    s.modifyFramebuffer c fun fb heap =>
      fb.setAttachment heap attachment renderbuffertarget renderbuffer obj false

/-- `glFramebufferTexture2D` and `glFramebufferTexture2DOES`; only GLES_V2 checks the level. -/
def glFramebufferTexture2D (s : SharedFramebuffers k) (c : Fin k)
    (target attachment textarget : GLenum) (texture : GLuint) (level : Int) (gen : GLuint) :
    SharedFramebuffers k :=
  if !(s.contexts c).hasFramebuffers then s.setGLerror c GL_INVALID_OPERATION
  else if !(target = GL_FRAMEBUFFER && framebufferAttachment attachment &&
      textureTargetEx textarget) then s.setGLerror c GL_INVALID_ENUM
  else if (s.contexts c).version = .GLES_V2 ∧ level ≠ 0 then s.setGLerror c GL_INVALID_VALUE
  else
    let s :=
      if texture ≠ 0 ∧ !s.isObject .TEXTURE texture then s.genName .TEXTURE texture gen else s
    s.modifyFramebuffer c fun fb heap =>
      fb.setAttachment heap attachment textarget texture none false

/-- `glEGLImageTargetRenderbufferStorageOES`; `image` is what `eglAttachEGLImage` finds. -/
def glEGLImageTargetRenderbufferStorageOES (s : SharedFramebuffers k) (c : Fin k)
    (target : GLenum) (image : Option EglImage) : SharedFramebuffers k :=
  if target ≠ GL_RENDERBUFFER then s.setGLerror c GL_INVALID_ENUM
  else
    match image with
    | none => s.setGLerror c GL_INVALID_VALUE
    | some img =>
        let rb := (s.contexts c).renderbufferBinding
        if rb = 0 then s.setGLerror c GL_INVALID_OPERATION
        else
          match s.renderbuffer? rb with
          | none => s.setGLerror c GL_INVALID_OPERATION
          | some o =>
              { s with
                renderbuffers := modifyRenderbuffer s.renderbuffers o ({ · with
                  sourceEGLImage := img.imageId, eglImageGlobalTexName := img.globalTexName }) }

def drawValidate (s : SharedFramebuffers k) (c : Fin k) (attached : Bool) (tex : GLuint) :
    SharedFramebuffers k :=
  if (s.contexts c).framebufferBinding = 0 then s
  else s.modifyFramebuffer c fun fb heap => fb.validate heap attached tex

end SharedFramebuffers

/-! ## Runs -/

inductive AttachmentCall
  | glGenRenderbuffers (n : Int) (gens : Nat → GLuint)
  | glGenFramebuffers (n : Int) (gens : Nat → GLuint)
  | glBindRenderbuffer (target : GLenum) (renderbuffer gen : GLuint)
  | glBindFramebuffer (target : GLenum) (framebuffer gen : GLuint)
  | glFramebufferRenderbuffer (target attachment renderbuffertarget : GLenum)
      (renderbuffer gen : GLuint)
  | glFramebufferTexture2D (target attachment textarget : GLenum) (texture : GLuint) (level : Int)
      (gen : GLuint)
  | glEGLImageTargetRenderbufferStorageOES (target : GLenum) (image : Option EglImage)
  | drawValidate (attached : Bool) (tex : GLuint)

namespace SharedFramebuffers

variable {k : Nat}

def step (s : SharedFramebuffers k) (event : Fin k × AttachmentCall) : SharedFramebuffers k :=
  match event.2 with
  | .glGenRenderbuffers n gens => (s.glGenRenderbuffers event.1 n gens).1
  | .glGenFramebuffers n gens => (s.glGenFramebuffers event.1 n gens).1
  | .glBindRenderbuffer target renderbuffer gen =>
      s.glBindRenderbuffer event.1 target renderbuffer gen
  | .glBindFramebuffer target framebuffer gen =>
      s.glBindFramebuffer event.1 target framebuffer gen
  | .glFramebufferRenderbuffer target attachment renderbuffertarget renderbuffer gen =>
      s.glFramebufferRenderbuffer event.1 target attachment renderbuffertarget renderbuffer gen
  | .glFramebufferTexture2D target attachment textarget texture level gen =>
      s.glFramebufferTexture2D event.1 target attachment textarget texture level gen
  | .glEGLImageTargetRenderbufferStorageOES target image =>
      s.glEGLImageTargetRenderbufferStorageOES event.1 target image
  | .drawValidate attached tex => s.drawValidate event.1 attached tex

end SharedFramebuffers

end AndroidRenderer.Translator
