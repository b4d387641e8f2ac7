import AndroidRenderer.Lib.KeyedVector
import AndroidRenderer.Lib.Run
import AndroidRenderer.OpenglCodecCommon.GL

/-!
# The frame buffer of the renderer

`FrameBuffer` owns the contexts, window surfaces and color buffers that the guest names by
handles. Its own context is made current for work on color buffers, and the one that the
calling thread had is put back from one slot that all calls share.

EGL is modelled as what each thread has current; its calls succeed unless a parameter says
what they return. The calls of GL that the functions make change none of this and are left
out. An object is destroyed by the smart pointer that was the last one to refer to it.
-/

namespace AndroidRenderer.OpenglRender

abbrev HandleType := UInt32
abbrev EGLContext := Nat
abbrev EGLSurface := Nat
abbrev EGLNativeWindowType := Nat

def EGL_NO_CONTEXT : EGLContext := 0
def EGL_NO_SURFACE : EGLSurface := 0

structure Current where
  context : EGLContext
  draw : EGLSurface
  read : EGLSurface
  deriving DecidableEq, Repr

def Current.none : Current := ⟨EGL_NO_CONTEXT, EGL_NO_SURFACE, EGL_NO_SURFACE⟩

/-! ## Objects -/

/-- The number of an object of its class; smart pointers refer to it. -/
abbrev ObjectId := Nat

structure RenderContext where
  m_ctx : EGLContext
  m_isGL2 : Bool
  deriving DecidableEq, Repr

structure ColorBuffer where
  m_width : UInt32
  m_height : UInt32
  m_internalFormat : GLenum
  deriving DecidableEq, Repr

structure WindowSurface where
  m_eglSurface : EGLSurface
  m_attachedColorBuffer : Option ObjectId
  m_readContext : Option ObjectId
  m_drawContext : Option ObjectId
  m_width : UInt32
  m_height : UInt32
  m_pbufWidth : UInt32
  m_pbufHeight : UInt32
  deriving DecidableEq, Repr

/-- `WindowSurface::WindowSurface` -/
def WindowSurface.new : WindowSurface := ⟨EGL_NO_SURFACE, none, none, none, 0, 0, 0, 0⟩

structure ColorBufferRef where
  cb : ObjectId
  refcount : UInt32
  deriving DecidableEq, Repr

/-- What is current for a render thread, and the contexts whose data its decoders hold. -/
structure RenderThreadInfo where
  currContext : Option ObjectId
  currDrawSurf : Option ObjectId
  currReadSurf : Option ObjectId
  glDecContextData : Option ObjectId
  gl2DecContextData : Option ObjectId
  deriving DecidableEq, Repr

def RenderThreadInfo.new : RenderThreadInfo := ⟨none, none, none, none, none⟩

/-- The context whose data the decoder of a version holds. -/
def RenderThreadInfo.contextData (info : RenderThreadInfo) : Bool → Option ObjectId
  | false => info.glDecContextData
  | true => info.gl2DecContextData

/-- The frame buffer, its objects and `n` render threads. -/
structure FrameBuffer (n : Nat) where
  m_contexts : KeyedVector HandleType ObjectId
  m_windows : KeyedVector HandleType ObjectId
  m_colorbuffers : KeyedVector HandleType ColorBufferRef
  s_nextHandle : HandleType
  m_eglSurface : EGLSurface
  m_eglContext : EGLContext
  m_pbufSurface : EGLSurface
  m_prevContext : EGLContext
  m_prevReadSurf : EGLSurface
  m_prevDrawSurf : EGLSurface
  m_subWin : EGLNativeWindowType
  m_lastPostedColorBuffer : HandleType
  m_eglContextInitialized : Bool
  contexts : List RenderContext
  windows : List WindowSurface
  colorBuffers : List ColorBuffer
  freedContexts : List ObjectId
  tinfo : Fin n → RenderThreadInfo
  current : Fin n → Current

/-- How a call can fail to return. -/
inductive CallFault
  | nullPointer
  | noHandle
  deriving DecidableEq, Repr

namespace FrameBuffer

variable {n : Nat}

/-- The frame buffer after `initialize`, with the context and the pbuffer that EGL made. -/
def initial (eglContext : EGLContext) (pbufSurface : EGLSurface) : FrameBuffer n where
  m_contexts := .empty
  m_windows := .empty
  m_colorbuffers := .empty
  s_nextHandle := 0
  m_eglSurface := EGL_NO_SURFACE
  m_eglContext := eglContext
  m_pbufSurface := pbufSurface
  m_prevContext := EGL_NO_CONTEXT
  m_prevReadSurf := EGL_NO_SURFACE
  m_prevDrawSurf := EGL_NO_SURFACE
  m_subWin := 0
  m_lastPostedColorBuffer := 0
  m_eglContextInitialized := false
  contexts := []
  windows := []
  colorBuffers := []
  freedContexts := []
  tinfo := fun _ => .new
  current := fun _ => .none

def window (s : FrameBuffer n) (w : ObjectId) : WindowSurface := s.windows.getD w .new

def setWindow (s : FrameBuffer n) (w : ObjectId) (win : WindowSurface) : FrameBuffer n :=
  { s with windows := s.windows.set w win }

/-- The context behind a pointer. -/
def context (s : FrameBuffer n) (c : ObjectId) : RenderContext :=
  s.contexts.getD c ⟨EGL_NO_CONTEXT, false⟩

def colorBuffer (s : FrameBuffer n) (cb : ObjectId) : ColorBuffer :=
  s.colorBuffers.getD cb ⟨0, 0, 0⟩

def setTinfo (s : FrameBuffer n) (t : Fin n) (info : RenderThreadInfo) : FrameBuffer n :=
  { s with tinfo := fun t' => if t' = t then info else s.tinfo t' }

/-! ## Current contexts -/

def eglMakeCurrent (s : FrameBuffer n) (t : Fin n) (draw read : EGLSurface)
    (context : EGLContext) : FrameBuffer n :=
  { s with current := fun t' => if t' = t then ⟨context, draw, read⟩ else s.current t' }

/-- The assignments to `m_prevContext`, `m_prevReadSurf` and `m_prevDrawSurf`. -/
def setPrev (s : FrameBuffer n) (prev : Current) : FrameBuffer n :=
  { s with
    m_prevContext := prev.context, m_prevReadSurf := prev.read, m_prevDrawSurf := prev.draw }

def bind_locked (s : FrameBuffer n) (t : Fin n) : FrameBuffer n :=
  (s.eglMakeCurrent t s.m_pbufSurface s.m_pbufSurface s.m_eglContext).setPrev (s.current t)

def bindSubwin_locked (s : FrameBuffer n) (t : Fin n) : FrameBuffer n :=
  { (s.eglMakeCurrent t s.m_eglSurface s.m_eglSurface s.m_eglContext).setPrev (s.current t) with
    m_eglContextInitialized := true }

def unbind_locked (s : FrameBuffer n) (t : Fin n) : FrameBuffer n :=
  (s.eglMakeCurrent t s.m_prevDrawSurf s.m_prevReadSurf s.m_prevContext).setPrev .none

/-! ## Smart pointers -/

/-- Whether a smart pointer refers to a context. -/
def contextReferenced (s : FrameBuffer n) (c : ObjectId) : Bool :=
  s.m_contexts.entries.any (fun e => e.2 = c) ||
    s.windows.any (fun win => win.m_readContext = some c || win.m_drawContext = some c) ||
    (List.finRange n).any fun t => (s.tinfo t).currContext = some c

/-- Whether a smart pointer refers to a window surface. -/
def windowReferenced (s : FrameBuffer n) (w : ObjectId) : Bool :=
  s.m_windows.entries.any (fun e => e.2 = w) ||
    (List.finRange n).any fun t =>
      (s.tinfo t).currDrawSurf = some w || (s.tinfo t).currReadSurf = some w

def colorBufferReferenced (s : FrameBuffer n) (cb : ObjectId) : Bool :=
  s.m_colorbuffers.entries.any (fun e => e.2.cb = cb) ||
    s.windows.any fun win => win.m_attachedColorBuffer = some cb

/-- `release` of a pointer to a context, with `~RenderContext`. -/
def releaseContext (s : FrameBuffer n) : Option ObjectId → FrameBuffer n
  | none => s
  | some c =>
      if s.contextReferenced c then s else { s with freedContexts := c :: s.freedContexts }

/-- `ColorBuffer::~ColorBuffer` -/
def destroyColorBuffer (s : FrameBuffer n) (t : Fin n) : FrameBuffer n :=
  (s.bind_locked t).unbind_locked t

/-- `release` of a pointer to a color buffer. -/
def releaseColorBuffer (s : FrameBuffer n) (t : Fin n) : Option ObjectId → FrameBuffer n
  | none => s
  | some cb => if s.colorBufferReferenced cb then s else s.destroyColorBuffer t

/-- The assignment to `m_drawContext`. -/
def setDrawContext (s : FrameBuffer n) (w : ObjectId) (ctx : Option ObjectId) : FrameBuffer n :=
  (s.setWindow w { s.window w with m_drawContext := ctx }).releaseContext
    (s.window w).m_drawContext

/-- The assignment to `m_readContext`. -/
def setReadContext (s : FrameBuffer n) (w : ObjectId) (ctx : Option ObjectId) : FrameBuffer n :=
  (s.setWindow w { s.window w with m_readContext := ctx }).releaseContext
    (s.window w).m_readContext

/-- The assignment to `m_attachedColorBuffer`. -/
def setAttachedColorBuffer (s : FrameBuffer n) (t : Fin n) (w : ObjectId)
    (cb : Option ObjectId) : FrameBuffer n :=
  (s.setWindow w { s.window w with m_attachedColorBuffer := cb }).releaseColorBuffer t
    (s.window w).m_attachedColorBuffer

/-- `WindowSurface::~WindowSurface`, which ends the pointers of the surface. -/
def destroyWindowSurface (s : FrameBuffer n) (t : Fin n) (w : ObjectId) : FrameBuffer n :=
  ((s.setDrawContext w none).setReadContext w none).setAttachedColorBuffer t w none

/-- `release` of a pointer to a window surface. -/
def releaseWindow (s : FrameBuffer n) (t : Fin n) : Option ObjectId → FrameBuffer n
  | none => s
  | some w => if s.windowReferenced w then s else s.destroyWindowSurface t w

/-! ## Handles -/

/-- The condition under which `genHandle` goes on. -/
def handleTaken (s : FrameBuffer n) (id : HandleType) : Bool :=
  id = 0 || (s.m_contexts.get? id).isSome || (s.m_windows.get? id).isSome

/-- The loop of `genHandle`, which has seen all numbers after 2^32 turns. -/
def genHandleLoop (taken : HandleType → Bool) : Nat → HandleType → Except CallFault HandleType
  | 0, _ => .error .noHandle
  | fuel + 1, id => if taken (id + 1) then genHandleLoop taken fuel (id + 1) else .ok (id + 1)

def genHandle (s : FrameBuffer n) : Except CallFault (FrameBuffer n × HandleType) := do
  let id ← genHandleLoop s.handleTaken (2 ^ 32) s.s_nextHandle
  return ({ s with s_nextHandle := id }, id)

/-! ## Color buffers -/

/-- The choice of `texInternalFormat` in `ColorBuffer::create`. -/
def texInternalFormat (p_internalFormat : GLenum) : Option GLenum :=
  if p_internalFormat = GL_RGB ∨ p_internalFormat = GL_RGB565_OES then some GL_RGB
  else if p_internalFormat = GL_RGBA ∨ p_internalFormat = GL_RGB5_A1_OES ∨
      p_internalFormat = GL_RGBA4_OES then some GL_RGBA
  else none

/-- `ColorBuffer::create` -/
def newColorBuffer (s : FrameBuffer n) (t : Fin n) (p_width p_height : UInt32)
    (p_internalFormat : GLenum) : FrameBuffer n × Option ObjectId :=
  match texInternalFormat p_internalFormat with
  | none => (s, none)
  | some format =>
      let s := s.bind_locked t
      let cb : ColorBuffer := ⟨p_width, p_height, format⟩
      let s := { s with colorBuffers := s.colorBuffers ++ [cb] }
      (s.unbind_locked t, some (s.colorBuffers.length - 1))

/-- `createColorBuffer`. A handle is not compared with those of the color buffers, one of which
may be replaced. -/
def createColorBuffer (s : FrameBuffer n) (t : Fin n) (p_width p_height : UInt32)
    (p_internalFormat : GLenum) : Except CallFault (FrameBuffer n × HandleType) := do
  match s.newColorBuffer t p_width p_height p_internalFormat with
  | (s, none) => return (s, 0)
  | (s, some cb) =>
      let (s, ret) ← s.genHandle
      let old := (s.m_colorbuffers.get? ret).map ColorBufferRef.cb
      let s := { s with m_colorbuffers := s.m_colorbuffers.add ret ⟨cb, 1⟩ }
      return (s.releaseColorBuffer t old, ret)

def openColorBuffer (s : FrameBuffer n) (p_colorbuffer : HandleType) : FrameBuffer n :=
  match s.m_colorbuffers.get? p_colorbuffer with
  | none => s
  | some c =>
      { s with
        m_colorbuffers := s.m_colorbuffers.add p_colorbuffer { c with refcount := c.refcount + 1 } }

def closeColorBuffer (s : FrameBuffer n) (t : Fin n) (p_colorbuffer : HandleType) :
    FrameBuffer n :=
  match s.m_colorbuffers.get? p_colorbuffer with
  | none => s
  | some c =>
      let c := { c with refcount := c.refcount - 1 }
      if c.refcount = 0 then
        { s with m_colorbuffers := s.m_colorbuffers.remove p_colorbuffer }.releaseColorBuffer t
          (some c.cb)
      else { s with m_colorbuffers := s.m_colorbuffers.add p_colorbuffer c }

def subUpdate (s : FrameBuffer n) (t : Fin n) : FrameBuffer n :=
  (s.bind_locked t).unbind_locked t

def updateColorBuffer (s : FrameBuffer n) (t : Fin n) (p_colorbuffer : HandleType) :
    FrameBuffer n × Bool :=
  match s.m_colorbuffers.get? p_colorbuffer with
  | none => (s, false)
  | some _ => (s.subUpdate t, true)

/-- `rcReadColorBuffer`, which is not implemented. -/
def rcReadColorBuffer (s : FrameBuffer n) (_colorBuffer : HandleType) : FrameBuffer n := s

/-! ## Window surfaces -/

/-- `WindowSurface::resizePbuffer`; `pbuf` is the surface that EGL makes. -/
def resizePbuffer (s : FrameBuffer n) (t : Fin n) (w : ObjectId) (p_width p_height : UInt32)
    (pbuf : EGLSurface) : FrameBuffer n × Bool :=
  let win := s.window w
  if win.m_eglSurface ≠ EGL_NO_SURFACE ∧ win.m_pbufWidth = p_width ∧
      win.m_pbufHeight = p_height then (s, true)
  else
    let prev := s.current t
    let prevPbuf := win.m_eglSurface
    let needRebindContext :=
      win.m_eglSurface ≠ EGL_NO_SURFACE ∧
        (prev.read = win.m_eglSurface ∨ prev.draw = win.m_eglSurface)
    let s :=
      if needRebindContext then s.eglMakeCurrent t EGL_NO_SURFACE EGL_NO_SURFACE EGL_NO_CONTEXT
      else s
    if pbuf = EGL_NO_SURFACE then (s.setWindow w { win with m_eglSurface := pbuf }, false)
    else
      let s := s.setWindow w
        { win with m_eglSurface := pbuf, m_pbufWidth := p_width, m_pbufHeight := p_height }
      if needRebindContext then
        (s.eglMakeCurrent t (if prev.draw = prevPbuf then pbuf else prev.draw)
          (if prev.read = prevPbuf then pbuf else prev.read) prev.context, true)
      else (s, true)

/-- `WindowSurface::create`; `fbconf` says whether the config is known, and `pbuf` is the surface
that EGL makes. -/
def newWindow (s : FrameBuffer n) (t : Fin n) (fbconf : Bool) (p_width p_height : UInt32)
    (pbuf : EGLSurface) : FrameBuffer n × Option ObjectId :=
  if !fbconf then (s, none)
  else
    let win := s.windows.length
    let r := { s with windows := s.windows ++ [WindowSurface.new] }.resizePbuffer t win
      p_width p_height pbuf
    if !r.2 then (r.1, none)
    else
      (r.1.setWindow win { r.1.window win with m_width := p_width, m_height := p_height },
        some win)

def createWindowSurface (s : FrameBuffer n) (t : Fin n) (fbconf : Bool)
    (p_width p_height : UInt32) (pbuf : EGLSurface) :
    Except CallFault (FrameBuffer n × HandleType) := do
  match s.newWindow t fbconf p_width p_height pbuf with
  | (s, none) => return (s, 0)
  | (s, some win) =>
      let (s, ret) ← s.genHandle
      return ({ s with m_windows := s.m_windows.add ret win }, ret)

def DestroyWindowSurface (s : FrameBuffer n) (t : Fin n) (p_surface : HandleType) :
    FrameBuffer n :=
  { s with m_windows := s.m_windows.remove p_surface }.releaseWindow t
    (s.m_windows.get? p_surface)

def setColorBuffer (s : FrameBuffer n) (t : Fin n) (w cb : ObjectId) (pbuf : EGLSurface) :
    FrameBuffer n :=
  let s := s.setAttachedColorBuffer t w (some cb)
  let cbWidth := (s.colorBuffer cb).m_width
  let cbHeight := (s.colorBuffer cb).m_height
  if cbWidth ≠ (s.window w).m_width ∨ cbHeight ≠ (s.window w).m_height then
    let s :=
      if (s.window w).m_pbufWidth ≠ 0 ∧ (s.window w).m_pbufHeight ≠ 0 then
        (s.resizePbuffer t w cbWidth cbHeight pbuf).1
      else s
    s.setWindow w { s.window w with m_width := cbWidth, m_height := cbHeight }
  else s

def setWindowSurfaceColorBuffer (s : FrameBuffer n) (t : Fin n)
    (p_surface p_colorbuffer : HandleType) (pbuf : EGLSurface) : FrameBuffer n × Bool :=
  match s.m_windows.get? p_surface with
  | none => (s, false)
  | some w =>
      match s.m_colorbuffers.get? p_colorbuffer with
      | none => (s, false)
      | some c => (s.setColorBuffer t w c.cb pbuf, true)

def blitFromCurrentReadBuffer (s : FrameBuffer n) (t : Fin n) : FrameBuffer n × Bool :=
  match (s.tinfo t).currContext with
  | none => (s, false)
  | some _ => ((s.bind_locked t).unbind_locked t, true)

/-- `WindowSurface::blitToColorBuffer`, for the color buffer that is attached. -/
def blitToColorBuffer (s : FrameBuffer n) (t : Fin n) (win : WindowSurface) (cb : ColorBuffer) :
    Except CallFault (FrameBuffer n) :=
  if win.m_width = 0 ∧ win.m_height = 0 then .ok s
  else if cb.m_width ≠ win.m_width ∨ cb.m_height ≠ win.m_height then .ok s
  else
    let prev := s.current t
    match win.m_drawContext with
    | none => .error .nullPointer
    | some c =>
        let s := s.eglMakeCurrent t win.m_eglSurface win.m_eglSurface (s.context c).m_ctx
        let s := (s.blitFromCurrentReadBuffer t).1
        .ok (s.eglMakeCurrent t prev.draw prev.read prev.context)

def flushColorBuffer (s : FrameBuffer n) (t : Fin n) (win : WindowSurface) :
    Except CallFault (FrameBuffer n) :=
  match win.m_attachedColorBuffer with
  | none => .ok s
  | some cb => s.blitToColorBuffer t win (s.colorBuffer cb)

def flushWindowSurfaceColorBuffer (s : FrameBuffer n) (t : Fin n) (p_surface : HandleType) :
    Except CallFault (FrameBuffer n × Bool) :=
  match s.m_windows.get? p_surface with
  | none => .ok (s, false)
  | some w => do
      let s ← s.flushColorBuffer t (s.window w)
      return (s, true)

/-! ## The subwindow -/

def post (s : FrameBuffer n) (t : Fin n) (p_colorbuffer : HandleType) : FrameBuffer n × Bool :=
  match s.m_colorbuffers.get? p_colorbuffer with
  | none => (s, false)
  | some _ =>
      let s := { s with m_lastPostedColorBuffer := p_colorbuffer }
      if s.m_subWin = 0 then (s, false)
      else ((s.bindSubwin_locked t).unbind_locked t, true)

def repost (s : FrameBuffer n) (t : Fin n) : FrameBuffer n × Bool :=
  if s.m_lastPostedColorBuffer ≠ 0 then s.post t s.m_lastPostedColorBuffer else (s, false)

def setDisplayRotation (s : FrameBuffer n) (t : Fin n) : FrameBuffer n := (s.repost t).1

/-- `setupSubWindow`; `subWin` is the window that the native system makes and `surface` the
surface that EGL makes for it. -/
def setupSubWindow (s : FrameBuffer n) (t : Fin n) (subWin : EGLNativeWindowType)
    (surface : EGLSurface) : FrameBuffer n × Bool :=
  if s.m_subWin = 0 then
    let s := { s with m_subWin := subWin }
    if s.m_subWin ≠ 0 then
      let s := { s with m_eglSurface := surface }
      if s.m_eglSurface = EGL_NO_SURFACE then ({ s with m_subWin := 0 }, false)
      else
        let s := s.bindSubwin_locked t
        let s := (s.post t s.m_lastPostedColorBuffer).1
        (s.unbind_locked t, true)
    else (s, false)
  else (s, false)

def removeSubWindow (s : FrameBuffer n) (t : Fin n) : FrameBuffer n × Bool :=
  if s.m_subWin ≠ 0 then
    ({ s.eglMakeCurrent t EGL_NO_SURFACE EGL_NO_SURFACE EGL_NO_CONTEXT with
      m_eglSurface := EGL_NO_SURFACE, m_subWin := 0 }, true)
  else (s, false)

/-! ## Render contexts -/

/-- `RenderContext::create`; `fbconf` says whether the config is known, and `ctx` is the context
that EGL makes. -/
def newContext (s : FrameBuffer n) (fbconf p_isGL2 : Bool) (ctx : EGLContext) :
    FrameBuffer n × Option ObjectId :=
  if !fbconf then (s, none)
  else if ctx = EGL_NO_CONTEXT then (s, none)
  else
    ({ s with contexts := s.contexts ++ [RenderContext.mk ctx p_isGL2] }, some s.contexts.length)

def createRenderContext (s : FrameBuffer n) (fbconf : Bool) (p_share : HandleType)
    (p_isGL2 : Bool) (ctx : EGLContext) : Except CallFault (FrameBuffer n × HandleType) := do
  if p_share ≠ 0 ∧ (s.m_contexts.get? p_share).isNone then return (s, 0)
  match s.newContext fbconf p_isGL2 ctx with
  | (s, none) => return (s, 0)
  | (s, some rctx) =>
      let (s, ret) ← s.genHandle
      return ({ s with m_contexts := s.m_contexts.add ret rctx }, ret)

def DestroyRenderContext (s : FrameBuffer n) (p_context : HandleType) : FrameBuffer n :=
  { s with m_contexts := s.m_contexts.remove p_context }.releaseContext
    (s.m_contexts.get? p_context)

/-- The objects that `bindContext` finds for its handles, or none of them for an unbind
operation. -/
def bindArguments (s : FrameBuffer n) (p_context p_drawSurface p_readSurface : HandleType) :
    Option (Option ObjectId × Option ObjectId × Option ObjectId) :=
  if p_context ≠ 0 ∨ p_drawSurface ≠ 0 ∨ p_readSurface ≠ 0 then
    match s.m_contexts.get? p_context, s.m_windows.get? p_drawSurface with
    | some ctx, some draw =>
        if p_readSurface ≠ p_drawSurface then
          (s.m_windows.get? p_readSurface).map fun read => (some ctx, some draw, some read)
        else some (some ctx, some draw, some draw)
    | _, _ => none
  else some (none, none, none)

def bindSurfaces (s : FrameBuffer n) (same : Bool) (ctx draw read : Option ObjectId) :
    FrameBuffer n :=
  match draw, read with
  | some draw, some read =>
      if !same then (s.setDrawContext draw ctx).setReadContext read ctx
      else (s.setReadContext draw ctx).setDrawContext draw ctx
  | _, _ => s

/-- The assignment to `tinfo->currContext`. -/
def setCurrContext (s : FrameBuffer n) (t : Fin n) (ctx : Option ObjectId) : FrameBuffer n :=
  (s.setTinfo t { s.tinfo t with currContext := ctx }).releaseContext (s.tinfo t).currContext

/-- The assignment to `tinfo->currDrawSurf`. -/
def setCurrDrawSurf (s : FrameBuffer n) (t : Fin n) (draw : Option ObjectId) : FrameBuffer n :=
  (s.setTinfo t { s.tinfo t with currDrawSurf := draw }).releaseWindow t (s.tinfo t).currDrawSurf

/-- The assignment to `tinfo->currReadSurf`. -/
def setCurrReadSurf (s : FrameBuffer n) (t : Fin n) (read : Option ObjectId) : FrameBuffer n :=
  (s.setTinfo t { s.tinfo t with currReadSurf := read }).releaseWindow t (s.tinfo t).currReadSurf

/-- `setContextData` for the decoder of the context's version, or for both when there is no
context. -/
def withContextData (s : FrameBuffer n) (info : RenderThreadInfo) :
    Option ObjectId → RenderThreadInfo
  | some c =>
      if (s.context c).m_isGL2 then { info with gl2DecContextData := some c }
      else { info with glDecContextData := some c }
  | none => { info with glDecContextData := none, gl2DecContextData := none }

def setContextData (s : FrameBuffer n) (t : Fin n) (ctx : Option ObjectId) : FrameBuffer n :=
  s.setTinfo t (s.withContextData (s.tinfo t) ctx)

def updateThreadInfo (s : FrameBuffer n) (t : Fin n) (ctx draw read : Option ObjectId) :
    FrameBuffer n :=
  (((s.setCurrContext t ctx).setCurrDrawSurf t draw).setCurrReadSurf t read).setContextData t ctx

/-- The part of `bindContext` that makes the objects current. Where there are none, the surfaces
that were current are unbound from their context. -/
def bindObjects (s : FrameBuffer n) (t : Fin n) (same : Bool) (ctx draw read : Option ObjectId) :
    FrameBuffer n :=
  let surface := fun w : Option ObjectId =>
    w.elim EGL_NO_SURFACE fun w => (s.window w).m_eglSurface
  let s := s.eglMakeCurrent t (surface draw) (surface read)
    (ctx.elim EGL_NO_CONTEXT fun c => (s.context c).m_ctx)
  let unbind := draw.isNone ∧ read.isNone
  let draw := if unbind then (s.tinfo t).currDrawSurf else draw
  let read := if unbind then (s.tinfo t).currReadSurf else read
  (s.bindSurfaces same ctx draw read).updateThreadInfo t ctx draw read

/-- `bindContext`; `egl` is what `eglMakeCurrent` returns. -/
def bindContext (s : FrameBuffer n) (t : Fin n)
    (p_context p_drawSurface p_readSurface : HandleType) (egl : Bool) : FrameBuffer n × Bool :=
  match s.bindArguments p_context p_drawSurface p_readSurface with
  | none => (s, false)
  | some (ctx, draw, read) =>
      if !egl then (s, false)
      else (s.bindObjects t (p_readSurface = p_drawSurface) ctx draw read, true)

/-! ## Calls -/

/-- The calls that make the frame buffer's own context current, and the destruction of a color
buffer. -/
inductive OwnContextCall
  | createColorBuffer (p_width p_height : UInt32) (p_internalFormat : GLenum)
  | closeColorBuffer (p_colorbuffer : HandleType)
  | destroyColorBuffer
  | DestroyWindowSurface (p_surface : HandleType)
  | updateColorBuffer (p_colorbuffer : HandleType)
  | rcReadColorBuffer (p_colorbuffer : HandleType)
  | flushWindowSurfaceColorBuffer (p_surface : HandleType)
  | post (p_colorbuffer : HandleType)
  | repost
  | setDisplayRotation
  | setupSubWindow (subWin : EGLNativeWindowType) (surface : EGLSurface)
  | removeSubWindow
  deriving DecidableEq, Repr

def perform (s : FrameBuffer n) (t : Fin n) : OwnContextCall → Except CallFault (FrameBuffer n)
  | .createColorBuffer p_width p_height p_internalFormat =>
      (s.createColorBuffer t p_width p_height p_internalFormat).map Prod.fst
  | .closeColorBuffer p_colorbuffer => .ok (s.closeColorBuffer t p_colorbuffer)
  | .destroyColorBuffer => .ok (s.destroyColorBuffer t)
  | .DestroyWindowSurface p_surface => .ok (s.DestroyWindowSurface t p_surface)
  | .updateColorBuffer p_colorbuffer => .ok (s.updateColorBuffer t p_colorbuffer).1
  | .rcReadColorBuffer p_colorbuffer => .ok (s.rcReadColorBuffer p_colorbuffer)
  | .flushWindowSurfaceColorBuffer p_surface =>
      (s.flushWindowSurfaceColorBuffer t p_surface).map Prod.fst
  | .post p_colorbuffer => .ok (s.post t p_colorbuffer).1
  | .repost => .ok (s.repost t).1
  | .setDisplayRotation => .ok (s.setDisplayRotation t)
  | .setupSubWindow subWin surface => .ok (s.setupSubWindow t subWin surface).1
  | .removeSubWindow => .ok (s.removeSubWindow t).1

/-- All calls of a render thread, and its end. -/
inductive Call
  | own (call : OwnContextCall)
  | createRenderContext (fbconf : Bool) (p_share : HandleType) (p_isGL2 : Bool) (ctx : EGLContext)
  | DestroyRenderContext (p_context : HandleType)
  | createWindowSurface (fbconf : Bool) (p_width p_height : UInt32) (pbuf : EGLSurface)
  | openColorBuffer (p_colorbuffer : HandleType)
  | setWindowSurfaceColorBuffer (p_surface p_colorbuffer : HandleType) (pbuf : EGLSurface)
  | bindContext (p_context p_drawSurface p_readSurface : HandleType) (egl : Bool)
  | finish
  deriving DecidableEq, Repr

/-- One call of a thread; the frame buffer's lock lets no other come between. -/
def step (s : FrameBuffer n) : Fin n × Call → Except CallFault (FrameBuffer n)
  | (t, .own call) => s.perform t call
  | (_, .createRenderContext fbconf p_share p_isGL2 ctx) =>
      (s.createRenderContext fbconf p_share p_isGL2 ctx).map Prod.fst
  | (_, .DestroyRenderContext p_context) => .ok (s.DestroyRenderContext p_context)
  | (t, .createWindowSurface fbconf p_width p_height pbuf) =>
      (s.createWindowSurface t fbconf p_width p_height pbuf).map Prod.fst
  | (_, .openColorBuffer p_colorbuffer) => .ok (s.openColorBuffer p_colorbuffer)
  | (t, .setWindowSurfaceColorBuffer p_surface p_colorbuffer pbuf) =>
      .ok (s.setWindowSurfaceColorBuffer t p_surface p_colorbuffer pbuf).1
  | (t, .bindContext p_context p_drawSurface p_readSurface egl) =>
      .ok (s.bindContext t p_context p_drawSurface p_readSurface egl).1
  | (t, .finish) => .ok (s.eglMakeCurrent t EGL_NO_SURFACE EGL_NO_SURFACE EGL_NO_CONTEXT)

end FrameBuffer

end AndroidRenderer.OpenglRender
