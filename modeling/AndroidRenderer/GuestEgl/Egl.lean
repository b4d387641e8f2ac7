import AndroidRenderer.Lib.Run
import AndroidRenderer.OpenglCodecCommon.GL

/-!
# EGL of the guest

The EGL library hands out pointers to its contexts and surfaces, keeps for each thread its
current context, and installs the client state and the shared group of a context in the
thread's encoder of the context's version. Objects are deleted explicitly; the number of a
deleted object is not given again, so that a pointer to it can be told from others. The use
of such a pointer is a fault. What the host answers is a parameter of the calls.
-/

namespace AndroidRenderer.GuestEgl

abbrev EGLDisplay := Nat
abbrev EGLint := Int

/-- The numbers of a context, which is also that of its `GLClientState`, of a surface, and of a
`GLSharedGroup`. -/
abbrev ContextId := Nat
abbrev SurfaceId := Nat
abbrev GroupId := Nat

/-- `&s_display` -/
def s_display : EGLDisplay := 1

def EGL_SUCCESS : EGLint := 0x3000
def EGL_NOT_INITIALIZED : EGLint := 0x3001
def EGL_BAD_ACCESS : EGLint := 0x3002
def EGL_BAD_ALLOC : EGLint := 0x3003
def EGL_BAD_CONFIG : EGLint := 0x3005
def EGL_BAD_CONTEXT : EGLint := 0x3006
def EGL_BAD_DISPLAY : EGLint := 0x3008
def EGL_BAD_MATCH : EGLint := 0x3009
def EGL_BAD_SURFACE : EGLint := 0x300D
def EGL_CONTEXT_CLIENT_VERSION : EGLint := 0x3098

def IS_CURRENT : UInt32 := 0x00010000

structure EGLContext_t where
  flags : UInt32
  dpy : EGLDisplay
  read : Option SurfaceId
  draw : Option SurfaceId
  version : EGLint
  rcContext : UInt32
  sharedGroup : GroupId
  deriving DecidableEq, Repr

/-- `flags & IS_CURRENT` -/
def EGLContext_t.isCurrent (context : EGLContext_t) : Bool := context.flags &&& IS_CURRENT ≠ 0

def EGLContext_t.setCurrent (context : EGLContext_t) (draw read : Option SurfaceId) :
    EGLContext_t :=
  { context with draw := draw, read := read, flags := context.flags ||| IS_CURRENT }

/-- `flags &= ~IS_CURRENT` -/
def EGLContext_t.clearCurrent (context : EGLContext_t) : EGLContext_t :=
  { context with flags := context.flags &&& ~~~IS_CURRENT }

structure egl_surface_t where
  dpy : EGLDisplay
  rcSurface : UInt32
  swapInterval : EGLint
  deriving DecidableEq, Repr

/-- The context whose client state an encoder has, and its shared group. -/
structure Encoder where
  m_state : Option ContextId
  m_shared : Option GroupId
  deriving DecidableEq, Repr

structure EGLThreadInfo where
  currentContext : Option ContextId
  hostConn : Bool
  eglError : EGLint
  glEncoder : Encoder
  gl2Encoder : Encoder
  deriving DecidableEq, Repr

/-- `EGLThreadInfo::EGLThreadInfo`, with the encoders that its connection will have. -/
def EGLThreadInfo.new : EGLThreadInfo := ⟨none, false, EGL_SUCCESS, ⟨none, none⟩, ⟨none, none⟩⟩

def EGLThreadInfo.encoder (info : EGLThreadInfo) (version : EGLint) : Encoder :=
  if version = 2 then info.gl2Encoder else info.glEncoder

def EGLThreadInfo.setEncoder (info : EGLThreadInfo) (version : EGLint) (enc : Encoder) :
    EGLThreadInfo :=
  if version = 2 then { info with gl2Encoder := enc } else { info with glEncoder := enc }

/-- The library and its `n` threads. Deleted contexts and surfaces are `none`. -/
structure Egl (n : Nat) where
  initialized : Bool
  numConfigs : EGLint
  contexts : List (Option EGLContext_t)
  surfaces : List (Option egl_surface_t)
  groups : Nat
  freedGroups : List GroupId
  tInfo : Fin n → EGLThreadInfo

namespace Egl

variable {n : Nat}

def initial (numConfigs : EGLint) : Egl n where
  initialized := true
  numConfigs := numConfigs
  contexts := []
  surfaces := []
  groups := 0
  freedGroups := []
  tInfo := fun _ => .new

/-! ## Objects -/

/-- A context that has not been deleted. -/
def liveContext (s : Egl n) (c : ContextId) : Option EGLContext_t := s.contexts[c]?.join

/-- A surface that has not been deleted. -/
def liveSurface (s : Egl n) (d : SurfaceId) : Option egl_surface_t := s.surfaces[d]?.join

/-- An access through a pointer to a context. -/
def context (s : Egl n) (c : ContextId) : Except MemoryFault EGLContext_t :=
  match s.liveContext c with
  | some context => .ok context
  | none => .error .useAfterFree

/-- An access through a pointer to a surface. -/
def surface (s : Egl n) (d : SurfaceId) : Except MemoryFault egl_surface_t :=
  match s.liveSurface d with
  | some surface => .ok surface
  | none => .error .useAfterFree

def setContext (s : Egl n) (c : ContextId) (context : Option EGLContext_t) : Egl n :=
  { s with contexts := s.contexts.set c context }

def setSurface (s : Egl n) (d : SurfaceId) (surface : Option egl_surface_t) : Egl n :=
  { s with surfaces := s.surfaces.set d surface }

def setTInfo (s : Egl n) (t : Fin n) (info : EGLThreadInfo) : Egl n :=
  { s with tInfo := fun t' => if t' = t then info else s.tInfo t' }

/-- `getEGLThreadInfo()->eglError = error` -/
def setError (s : Egl n) (t : Fin n) (error : EGLint) : Egl n :=
  s.setTInfo t { s.tInfo t with eglError := error }

/-- `setErrorReturn(error, EGL_FALSE)` -/
def errorReturn (s : Egl n) (t : Fin n) (error : EGLint) : Egl n × Bool :=
  (s.setError t error, false)

/-! ## Shared groups -/

/-- Whether a smart pointer refers to a shared group. -/
def groupReferenced (s : Egl n) (g : GroupId) : Bool :=
  s.contexts.any (fun context => context.any fun context => context.sharedGroup = g) ||
    (List.finRange n).any fun t =>
      (s.tInfo t).glEncoder.m_shared = some g || (s.tInfo t).gl2Encoder.m_shared = some g

/-- `release` of a pointer to a shared group. -/
def releaseGroup (s : Egl n) : Option GroupId → Egl n
  | none => s
  | some g => if s.groupReferenced g then s else { s with freedGroups := g :: s.freedGroups }

/-- `setClientState` and `setSharedGroup` on the thread's encoder for a version. -/
def setEncoder (s : Egl n) (t : Fin n) (version : EGLint) (enc : Encoder) : Egl n :=
  (s.setTInfo t ((s.tInfo t).setEncoder version enc)).releaseGroup
    ((s.tInfo t).encoder version).m_shared

/-! ## Checks -/

/-- `VALIDATE_DISPLAY_INIT`: the error, if there is one. -/
def displayError (s : Egl n) (dpy : EGLDisplay) : Option EGLint :=
  if dpy ≠ s_display then some EGL_BAD_DISPLAY
  else if !s.initialized then some EGL_NOT_INITIALIZED
  else none

/-- `VALIDATE_CONFIG` -/
def configError (s : Egl n) (config : EGLint) : Option EGLint :=
  if config < 0 ∨ config > s.numConfigs then some EGL_BAD_CONFIG else none

/-- `VALIDATE_SURFACE_RETURN` -/
def surfaceError (s : Egl n) : Option SurfaceId → Except MemoryFault (Option EGLint)
  | none => .ok none
  | some d => (s.surface d).map fun surface =>
      if surface.dpy ≠ s_display then some EGL_BAD_DISPLAY else none

/-- `DEFINE_AND_VALIDATE_HOST_CONNECTION`: the connection of the thread, or a new one; `connect`
says whether a new one can be made. -/
def hostConnection (s : Egl n) (t : Fin n) (connect : Bool) : Option (Egl n) :=
  if (s.tInfo t).hostConn then some s
  else if connect then some (s.setTInfo t { s.tInfo t with hostConn := true })
  else none

/-! ## Surfaces -/

/-- `eglCreateWindowSurface` and `eglCreatePbufferSurface`, where the attributes of the surface
are good. `rcSurface` is what the host answers; for 0 the new object is deleted again. -/
def eglCreateSurface (s : Egl n) (t : Fin n) (dpy : EGLDisplay) (config : EGLint) (connect : Bool)
    (rcSurface : UInt32) : Egl n × Bool :=
  match s.displayError dpy with
  | some error => s.errorReturn t error
  | none =>
      match s.configError config with
      | some error => s.errorReturn t error
      | none =>
          match s.hostConnection t connect with
          | none => s.errorReturn t EGL_BAD_ALLOC
          | some s =>
              if rcSurface = 0 then s.errorReturn t EGL_BAD_ALLOC
              else
                ({ s with surfaces := s.surfaces ++ [some ⟨s_display, rcSurface, 1⟩] }, true)

/-- `eglDestroySurface`; the destructor tells the host if there is a connection. -/
def eglDestroySurface (s : Egl n) (t : Fin n) (dpy : EGLDisplay) (eglSurface : Option SurfaceId)
    (connect : Bool) : Except MemoryFault (Egl n × Bool) :=
  match s.displayError dpy with
  | some error => .ok (s.errorReturn t error)
  | none => do
      let error ← s.surfaceError eglSurface
      match error with
      | some error => return s.errorReturn t error
      | none =>
          match eglSurface with
          | none => return (s, true)
          | some d => return (((s.hostConnection t connect).getD s).setSurface d none, true)

def eglSwapInterval (s : Egl n) (t : Fin n) (dpy : EGLDisplay) (interval : EGLint)
    (connect : Bool) : Except MemoryFault (Egl n × Bool) :=
  match s.displayError dpy with
  | some error => .ok (s.errorReturn t error)
  | none =>
      match s.hostConnection t connect with
      | none => .ok (s, false)
      | some s =>
          match (s.tInfo t).currentContext with
          | none => .ok (s.errorReturn t EGL_BAD_CONTEXT)
          | some c => do
              let ctx ← s.context c
              match ctx.draw with
              | none => return s.errorReturn t EGL_BAD_SURFACE
              | some d =>
                  let draw ← s.surface d
                  return (s.setSurface d (some { draw with swapInterval := interval }), true)

/-! ## Contexts -/

def clientVersion (attrib_list : List (EGLint × EGLint)) : EGLint :=
  attrib_list.foldl
    (fun version attrib => if attrib.1 = EGL_CONTEXT_CLIENT_VERSION then attrib.2 else version) 1

/-- The context to share with: its number on the host and its group, or the error. -/
def shareContext (s : Egl n) (dpy : EGLDisplay) :
    Option ContextId → Except MemoryFault (Except EGLint (Option GroupId))
  | none => .ok (.ok none)
  | some c => (s.context c).map fun shareCtx =>
      if shareCtx.dpy ≠ dpy then .error EGL_BAD_MATCH else .ok (some shareCtx.sharedGroup)

/-- `EGLContext_t::EGLContext_t`, with the version and the number on the host. -/
def newContext (s : Egl n) (dpy : EGLDisplay) (share : Option GroupId) (version : EGLint)
    (rcContext : UInt32) : Egl n :=
  { s with
    contexts := s.contexts ++ [some ⟨0, dpy, none, none, version, rcContext, share.getD s.groups⟩]
    groups := if share.isNone then s.groups + 1 else s.groups }

/-- `eglCreateContext`; `rcContext` is what the host answers. -/
def eglCreateContext (s : Egl n) (t : Fin n) (dpy : EGLDisplay) (config : EGLint)
    (share_context : Option ContextId) (attrib_list : List (EGLint × EGLint)) (connect : Bool)
    (rcContext : UInt32) : Except MemoryFault (Egl n × Bool) :=
  match s.displayError dpy with
  | some error => .ok (s.errorReturn t error)
  | none =>
      match s.configError config with
      | some error => .ok (s.errorReturn t error)
      | none => do
          let share ← s.shareContext dpy share_context
          match share with
          | .error error => return s.errorReturn t error
          | .ok share =>
              match s.hostConnection t connect with
              | none => return (s, false)
              | some s =>
                  if rcContext = 0 then return s.errorReturn t EGL_BAD_ALLOC
                  else
                    return (s.newContext dpy share (clientVersion attrib_list) rcContext, true)

/-- What `eglMakeCurrent` finds before it asks the host. -/
inductive BindCheck
  | error (error : EGLint)
  | noChange
  | bind
  deriving DecidableEq, Repr

/-- The checks of `eglMakeCurrent` once display and surfaces are valid. -/
def checkContext (s : Egl n) (t : Fin n) (draw read : Option SurfaceId) (ctx : Option ContextId) :
    Except MemoryFault BindCheck :=
  if (read = none ∧ draw = none) ∧ ctx ≠ none then .ok (.error EGL_BAD_MATCH)
  else if (read ≠ none ∨ draw ≠ none) ∧ ctx = none then .ok (.error EGL_BAD_MATCH)
  else
    match ctx with
    | none => .ok (if (s.tInfo t).currentContext = none then .noChange else .bind)
    | some c => (s.context c).map fun context =>
        if (s.tInfo t).currentContext = some c ∧ context.draw = draw ∧ context.read = read then
          .noChange
        else if context.isCurrent ∧ (s.tInfo t).currentContext ≠ some c then
          .error EGL_BAD_ACCESS
        else .bind

/-- The checks of `eglMakeCurrent`. -/
def checkMakeCurrent (s : Egl n) (t : Fin n) (dpy : EGLDisplay) (draw read : Option SurfaceId)
    (ctx : Option ContextId) : Except MemoryFault BindCheck :=
  match s.displayError dpy with
  | some error => .ok (.error error)
  | none => do
      match ← s.surfaceError draw with
      | some error => return .error error
      | none =>
          match ← s.surfaceError read with
          | some error => return .error error
          | none => s.checkContext t draw read ctx

def bindContext (s : Egl n) (t : Fin n) (draw read : Option SurfaceId) (c : ContextId) :
    Except MemoryFault (Egl n) := do
  let context ← s.context c
  let s := s.setContext c (some (context.setCurrent draw read))
  return s.setEncoder t context.version ⟨some c, some context.sharedGroup⟩

/-- The release of the client state and the shared group of the current context. -/
def releaseContext (s : Egl n) (t : Fin n) (c : ContextId) : Except MemoryFault (Egl n) := do
  let context ← s.context c
  return s.setEncoder t context.version ⟨none, none⟩

/-- `tInfo->currentContext->flags &= ~IS_CURRENT` -/
def clearFlag (s : Egl n) (c : ContextId) : Except MemoryFault (Egl n) := do
  let context ← s.context c
  return s.setContext c (some context.clearCurrent)

def bindNew (s : Egl n) (t : Fin n) (draw read : Option SurfaceId) (ctx : Option ContextId) :
    Except MemoryFault (Egl n) :=
  match ctx, (s.tInfo t).currentContext with
  | some c, _ => s.bindContext t draw read c
  | none, some old => s.releaseContext t old
  | none, none => .error .nullPointer

/-- The end of the old context's time as the current one. -/
def clearOld (s : Egl n) (t : Fin n) : Except MemoryFault (Egl n) :=
  match (s.tInfo t).currentContext with
  | some old => s.clearFlag old
  | none => .ok s

/-- The part of `eglMakeCurrent` after the host has made its context current. -/
def makeCurrent (s : Egl n) (t : Fin n) (draw read : Option SurfaceId) (ctx : Option ContextId) :
    Except MemoryFault (Egl n) := do
  let s ← s.bindNew t draw read ctx
  let s ← s.clearOld t
  return s.setTInfo t { s.tInfo t with currentContext := ctx }

/-- `eglMakeCurrent`; `host` is what `rcMakeCurrent` returns. -/
def eglMakeCurrent (s : Egl n) (t : Fin n) (dpy : EGLDisplay) (draw read : Option SurfaceId)
    (ctx : Option ContextId) (connect host : Bool) : Except MemoryFault (Egl n × Bool) := do
  match ← s.checkMakeCurrent t dpy draw read ctx with
  | .error error => return s.errorReturn t error
  | .noChange => return (s, true)
  | .bind =>
      match s.hostConnection t connect with
      | none => return (s, false)
      | some s =>
          if !host then return s.errorReturn t EGL_BAD_CONTEXT
          else
            let s ← s.makeCurrent t draw read ctx
            return (s, true)

def eglReleaseThread (s : Egl n) (t : Fin n) (connect host : Bool) :
    Except MemoryFault (Egl n × Bool) :=
  if (s.tInfo t).currentContext ≠ none then
    s.eglMakeCurrent t s_display none none none connect host
  else .ok (s, true)

/-- `delete context` -/
def deleteContext (s : Egl n) (c : ContextId) (context : EGLContext_t) : Egl n :=
  (s.setContext c none).releaseGroup (some context.sharedGroup)

/-- The first part of `eglDestroyContext`: a context that is current to the thread is unbound; it
is not looked at whether that succeeds. -/
def unbindDestroyed (s : Egl n) (t : Fin n) (dpy : EGLDisplay) (c : ContextId)
    (connect host : Bool) : Except MemoryFault (Egl n) :=
  if (s.tInfo t).currentContext = some c then
    (s.eglMakeCurrent t dpy none none none connect host).map Prod.fst
  else .ok s

/-- `eglDestroyContext`. `unbindConnect` and `host` are for its call of `eglMakeCurrent`,
`connect` for the connection over which the host is told. -/
def eglDestroyContext (s : Egl n) (t : Fin n) (dpy : EGLDisplay) (ctx : Option ContextId)
    (unbindConnect host connect : Bool) : Except MemoryFault (Egl n × Bool) :=
  match s.displayError dpy with
  | some error => .ok (s.errorReturn t error)
  | none =>
      match ctx with
      | none => .ok (s.errorReturn t EGL_BAD_CONTEXT)
      | some c => do
          let s ← s.unbindDestroyed t dpy c unbindConnect host
          let context ← s.context c
          if context.rcContext ≠ 0 then
            match s.hostConnection t connect with
            | none => return (s, false)
            | some s => return (s.deleteContext c context, true)
          else return (s.deleteContext c context, true)

/-! ## Calls -/

inductive Call
  | eglCreateSurface (dpy : EGLDisplay) (config : EGLint) (connect : Bool) (rcSurface : UInt32)
  | eglDestroySurface (dpy : EGLDisplay) (eglSurface : Option SurfaceId) (connect : Bool)
  | eglSwapInterval (dpy : EGLDisplay) (interval : EGLint) (connect : Bool)
  | eglCreateContext (dpy : EGLDisplay) (config : EGLint) (share_context : Option ContextId)
      (attrib_list : List (EGLint × EGLint)) (connect : Bool) (rcContext : UInt32)
  | eglMakeCurrent (dpy : EGLDisplay) (draw read : Option SurfaceId) (ctx : Option ContextId)
      (connect host : Bool)
  | eglReleaseThread (connect host : Bool)
  | eglDestroyContext (dpy : EGLDisplay) (ctx : Option ContextId)
      (unbindConnect host connect : Bool)
  deriving DecidableEq, Repr

/-- A call of a thread and whether it succeeds. -/
def call (s : Egl n) (t : Fin n) : Call → Except MemoryFault (Egl n × Bool)
  | .eglCreateSurface dpy config connect rcSurface =>
      .ok (s.eglCreateSurface t dpy config connect rcSurface)
  | .eglDestroySurface dpy eglSurface connect => s.eglDestroySurface t dpy eglSurface connect
  | .eglSwapInterval dpy interval connect => s.eglSwapInterval t dpy interval connect
  | .eglCreateContext dpy config share_context attrib_list connect rcContext =>
      s.eglCreateContext t dpy config share_context attrib_list connect rcContext
  | .eglMakeCurrent dpy draw read ctx connect host =>
      s.eglMakeCurrent t dpy draw read ctx connect host
  | .eglReleaseThread connect host => s.eglReleaseThread t connect host
  | .eglDestroyContext dpy ctx unbindConnect host connect =>
      s.eglDestroyContext t dpy ctx unbindConnect host connect

def step (s : Egl n) (c : Fin n × Call) : Except MemoryFault (Egl n) :=
  (s.call c.1 c.2).map Prod.fst

end Egl

end AndroidRenderer.GuestEgl
