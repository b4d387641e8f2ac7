import AndroidRenderer.OpenglRender.FrameBuffer

/-!
# The tables of handles

Contexts, window surfaces and color buffers are named by the keys of three tables, which get their
keys from one counter. Most calls leave the tables alone; `step_tables` says what each call does to
them.
-/

namespace AndroidRenderer.OpenglRender

/-- What the guest names by handles, the counter, and how many window surfaces there have been. -/
structure Tables where
  contexts : KeyedVector HandleType ObjectId
  windows : KeyedVector HandleType ObjectId
  colorbuffers : KeyedVector HandleType ColorBufferRef
  nextHandle : HandleType
  windowCount : Nat

namespace Tables

/-- The condition under which `genHandle` goes on. -/
def taken (T : Tables) (id : HandleType) : Bool :=
  id = 0 || (T.contexts.get? id).isSome || (T.windows.get? id).isSome

/-- The handle that `genHandle` finds. -/
def Generates (T : Tables) (id : HandleType) : Prop :=
  FrameBuffer.genHandleLoop T.taken (2 ^ 32) T.nextHandle = .ok id

def openColorBuffer (T : Tables) (p_colorbuffer : HandleType) : Tables :=
  match T.colorbuffers.get? p_colorbuffer with
  | none => T
  | some c =>
      { T with
        colorbuffers := T.colorbuffers.add p_colorbuffer { c with refcount := c.refcount + 1 } }

def closeColorBuffer (T : Tables) (p_colorbuffer : HandleType) : Tables :=
  match T.colorbuffers.get? p_colorbuffer with
  | none => T
  | some c =>
      if c.refcount - 1 = 0 then { T with colorbuffers := T.colorbuffers.remove p_colorbuffer }
      else
        { T with
          colorbuffers := T.colorbuffers.add p_colorbuffer { c with refcount := c.refcount - 1 } }

/-- The calls that come to `genHandle`: their arguments are good. -/
def CallsGenHandle (T : Tables) : FrameBuffer.Call → Prop
  | .own (.createColorBuffer _ _ p_internalFormat) =>
      (FrameBuffer.texInternalFormat p_internalFormat).isSome
  | .createRenderContext fbconf p_share _ ctx =>
      (p_share = 0 ∨ (T.contexts.get? p_share).isSome) ∧ fbconf ∧ ctx ≠ EGL_NO_CONTEXT
  | .createWindowSurface fbconf _ _ pbuf => fbconf ∧ pbuf ≠ EGL_NO_SURFACE
  | _ => False

def countsReferences : FrameBuffer.Call → Bool
  | .openColorBuffer _ => true
  | .own (.closeColorBuffer _) => true
  | _ => false

/-- What a call does to the tables, and the handle that it returns, which is 0 where there is
none. -/
inductive Step (T : Tables) : FrameBuffer.Call → HandleType → Tables → Prop
  | createColorBuffer {p_width p_height : UInt32} {p_internalFormat : GLenum} {id : HandleType}
      {cb : ObjectId} :
      T.CallsGenHandle (.own (.createColorBuffer p_width p_height p_internalFormat)) →
      T.Generates id →
      Step T (.own (.createColorBuffer p_width p_height p_internalFormat)) id
        { T with colorbuffers := T.colorbuffers.add id ⟨cb, 1⟩, nextHandle := id }
  | createRenderContext {fbconf : Bool} {p_share : HandleType} {p_isGL2 : Bool}
      {ctx : EGLContext} {id : HandleType} {rctx : ObjectId} :
      T.CallsGenHandle (.createRenderContext fbconf p_share p_isGL2 ctx) → T.Generates id →
      Step T (.createRenderContext fbconf p_share p_isGL2 ctx) id
        { T with contexts := T.contexts.add id rctx, nextHandle := id }
  | createWindowSurface {fbconf : Bool} {p_width p_height : UInt32} {pbuf : EGLSurface}
      {id : HandleType} :
      T.CallsGenHandle (.createWindowSurface fbconf p_width p_height pbuf) → T.Generates id →
      Step T (.createWindowSurface fbconf p_width p_height pbuf) id
        { T with
          windows := T.windows.add id T.windowCount, nextHandle := id
          windowCount := T.windowCount + 1 }
  | noPbuffer {fbconf : Bool} {p_width p_height : UInt32} {pbuf : EGLSurface} :
      Step T (.createWindowSurface fbconf p_width p_height pbuf) 0
        { T with windowCount := T.windowCount + 1 }
  | openColorBuffer {p_colorbuffer : HandleType} :
      Step T (.openColorBuffer p_colorbuffer) 0 (T.openColorBuffer p_colorbuffer)
  | closeColorBuffer {p_colorbuffer : HandleType} :
      Step T (.own (.closeColorBuffer p_colorbuffer)) 0 (T.closeColorBuffer p_colorbuffer)
  | DestroyRenderContext {p_context : HandleType} :
      Step T (.DestroyRenderContext p_context) 0
        { T with contexts := T.contexts.remove p_context }
  | DestroyWindowSurface {p_surface : HandleType} :
      Step T (.own (.DestroyWindowSurface p_surface)) 0
        { T with windows := T.windows.remove p_surface }
  | same {call : FrameBuffer.Call} : countsReferences call = false → Step T call 0 T

end Tables

namespace FrameBuffer

variable {n : Nat}

def tables (s : FrameBuffer n) : Tables :=
  ⟨s.m_contexts, s.m_windows, s.m_colorbuffers, s.s_nextHandle, s.windows.length⟩

/-! ## What leaves the tables alone -/

@[simp] theorem setWindow_tables (s : FrameBuffer n) (w : ObjectId) (win : WindowSurface) :
    (s.setWindow w win).tables = s.tables := by
  rw [tables, setWindow, List.length_set]
  rfl

@[simp] theorem setTinfo_tables (s : FrameBuffer n) (t : Fin n) (info : RenderThreadInfo) :
    (s.setTinfo t info).tables = s.tables := rfl

@[simp] theorem eglMakeCurrent_tables (s : FrameBuffer n) (t : Fin n) (draw read : EGLSurface)
    (context : EGLContext) : (s.eglMakeCurrent t draw read context).tables = s.tables := rfl

@[simp] theorem bind_locked_tables (s : FrameBuffer n) (t : Fin n) :
    (s.bind_locked t).tables = s.tables := rfl

@[simp] theorem bindSubwin_locked_tables (s : FrameBuffer n) (t : Fin n) :
    (s.bindSubwin_locked t).tables = s.tables := rfl

@[simp] theorem unbind_locked_tables (s : FrameBuffer n) (t : Fin n) :
    (s.unbind_locked t).tables = s.tables := rfl

@[simp] theorem destroyColorBuffer_tables (s : FrameBuffer n) (t : Fin n) :
    (s.destroyColorBuffer t).tables = s.tables := by
  rw [destroyColorBuffer, unbind_locked_tables, bind_locked_tables]

@[simp] theorem releaseContext_tables (s : FrameBuffer n) (c : Option ObjectId) :
    (s.releaseContext c).tables = s.tables := by
  unfold releaseContext
  split
  · rfl
  · split <;> rfl

@[simp] theorem releaseColorBuffer_tables (s : FrameBuffer n) (t : Fin n) (cb : Option ObjectId) :
    (s.releaseColorBuffer t cb).tables = s.tables := by
  unfold releaseColorBuffer
  grind [destroyColorBuffer_tables]

@[simp] theorem setDrawContext_tables (s : FrameBuffer n) (w : ObjectId) (ctx : Option ObjectId) :
    (s.setDrawContext w ctx).tables = s.tables := by
  rw [setDrawContext, releaseContext_tables, setWindow_tables]

@[simp] theorem setReadContext_tables (s : FrameBuffer n) (w : ObjectId) (ctx : Option ObjectId) :
    (s.setReadContext w ctx).tables = s.tables := by
  rw [setReadContext, releaseContext_tables, setWindow_tables]

@[simp] theorem setAttachedColorBuffer_tables (s : FrameBuffer n) (t : Fin n) (w : ObjectId)
    (cb : Option ObjectId) : (s.setAttachedColorBuffer t w cb).tables = s.tables := by
  rw [setAttachedColorBuffer, releaseColorBuffer_tables, setWindow_tables]

@[simp] theorem releaseWindow_tables (s : FrameBuffer n) (t : Fin n) (w : Option ObjectId) :
    (s.releaseWindow t w).tables = s.tables := by
  unfold releaseWindow
  split
  · rfl
  · split
    · rfl
    · simp [destroyWindowSurface]

@[simp] theorem updateColorBuffer_tables (s : FrameBuffer n) (t : Fin n)
    (p_colorbuffer : HandleType) : (s.updateColorBuffer t p_colorbuffer).1.tables = s.tables := by
  unfold updateColorBuffer
  split
  · rfl
  · rw [subUpdate, unbind_locked_tables, bind_locked_tables]

@[simp] theorem resizePbuffer_tables (s : FrameBuffer n) (t : Fin n) (w : ObjectId)
    (p_width p_height : UInt32) (pbuf : EGLSurface) :
    (s.resizePbuffer t w p_width p_height pbuf).1.tables = s.tables := by
  unfold resizePbuffer
  dsimp only
  split
  · rfl
  · split <;> split <;> simp

@[simp] theorem setWindowSurfaceColorBuffer_tables (s : FrameBuffer n) (t : Fin n)
    (p_surface p_colorbuffer : HandleType) (pbuf : EGLSurface) :
    (s.setWindowSurfaceColorBuffer t p_surface p_colorbuffer pbuf).1.tables = s.tables := by
  unfold setWindowSurfaceColorBuffer
  split
  · rfl
  · split
    · rfl
    · unfold setColorBuffer
      dsimp only
      split
      · split <;> simp
      · simp

@[simp] theorem blitFromCurrentReadBuffer_tables (s : FrameBuffer n) (t : Fin n) :
    (s.blitFromCurrentReadBuffer t).1.tables = s.tables := by
  unfold blitFromCurrentReadBuffer
  split
  · rfl
  · simp

variable {s s' : FrameBuffer n} {t : Fin n} {p_width p_height : UInt32}
  {r : FrameBuffer n × HandleType} {fbconf : Bool} {pbuf : EGLSurface}

theorem flushWindowSurfaceColorBuffer_tables {p_surface : HandleType} {r : FrameBuffer n × Bool}
    (h : s.flushWindowSurfaceColorBuffer t p_surface = .ok r) : r.1.tables = s.tables := by
  unfold flushWindowSurfaceColorBuffer at h
  split at h
  · cases h
    rfl
  · obtain ⟨s', hs', hr⟩ := Run.bind_eq_ok.mp h
    cases hr
    unfold flushColorBuffer blitToColorBuffer at hs'
    split at hs'
    · cases hs'
      rfl
    · split at hs'
      · cases hs'
        rfl
      · split at hs'
        · cases hs'
          rfl
        · dsimp only at hs'
          split at hs'
          · cases hs'
          · cases hs'
            simp

@[simp] theorem post_tables (s : FrameBuffer n) (t : Fin n) (p_colorbuffer : HandleType) :
    (s.post t p_colorbuffer).1.tables = s.tables := by
  unfold post
  split
  · rfl
  · dsimp only
    split
    · rfl
    · rw [unbind_locked_tables, bindSubwin_locked_tables]
      rfl

@[simp] theorem repost_tables (s : FrameBuffer n) (t : Fin n) :
    (s.repost t).1.tables = s.tables := by
  unfold repost
  split
  · rw [post_tables]
  · rfl

@[simp] theorem setupSubWindow_tables (s : FrameBuffer n) (t : Fin n)
    (subWin : EGLNativeWindowType) (surface : EGLSurface) :
    (s.setupSubWindow t subWin surface).1.tables = s.tables := by
  unfold setupSubWindow
  split
  · dsimp only
    split
    · split
      · rfl
      · rw [unbind_locked_tables, post_tables]
        rfl
    · rfl
  · rfl

@[simp] theorem removeSubWindow_tables (s : FrameBuffer n) (t : Fin n) :
    (s.removeSubWindow t).1.tables = s.tables := by
  unfold removeSubWindow
  split <;> rfl

@[simp] theorem bindContext_tables (s : FrameBuffer n) (t : Fin n)
    (p_context p_drawSurface p_readSurface : HandleType) (egl : Bool) :
    (s.bindContext t p_context p_drawSurface p_readSurface egl).1.tables = s.tables := by
  unfold bindContext
  split
  · rfl
  · split
    · rfl
    · unfold bindObjects bindSurfaces
      dsimp only
      split
      · split <;>
          simp [updateThreadInfo, setContextData, setCurrReadSurf, setCurrDrawSurf, setCurrContext]
      · simp [updateThreadInfo, setContextData, setCurrReadSurf, setCurrDrawSurf, setCurrContext]

/-! ## What each call does -/

def reply (s : FrameBuffer n) : Fin n × Call → HandleType
  | (t, .own (.createColorBuffer p_width p_height p_internalFormat)) =>
      (s.createColorBuffer t p_width p_height p_internalFormat).toOption.elim 0 Prod.snd
  | (_, .createRenderContext fbconf p_share p_isGL2 ctx) =>
      (s.createRenderContext fbconf p_share p_isGL2 ctx).toOption.elim 0 Prod.snd
  | (t, .createWindowSurface fbconf p_width p_height pbuf) =>
      (s.createWindowSurface t fbconf p_width p_height pbuf).toOption.elim 0 Prod.snd
  | _ => 0

theorem genHandle_generates {id : HandleType}
    (h : s.genHandle = .ok (s', id)) : s.tables.Generates id ∧ s' = { s with s_nextHandle := id } := by
  obtain ⟨id', hid, hr⟩ := Run.bind_eq_ok.mp h
  cases hr
  exact ⟨hid, rfl⟩

theorem newColorBuffer_tables (s : FrameBuffer n) (t : Fin n) (p_width p_height : UInt32)
    (p_internalFormat : GLenum) :
    (s.newColorBuffer t p_width p_height p_internalFormat).1.tables = s.tables := by
  unfold newColorBuffer
  split
  · rfl
  · dsimp only
    rw [unbind_locked_tables]
    exact bind_locked_tables s t

theorem newColorBuffer_format {p_internalFormat : GLenum} {cb : ObjectId}
    (h : s.newColorBuffer t p_width p_height p_internalFormat = (s', some cb)) :
    (texInternalFormat p_internalFormat).isSome := by
  unfold newColorBuffer at h
  grind

theorem createColorBuffer_tables {p_internalFormat : GLenum}
    (h : s.createColorBuffer t p_width p_height p_internalFormat = .ok r) :
    s.tables.Step (.own (.createColorBuffer p_width p_height p_internalFormat)) r.2 r.1.tables := by
  have hnew := newColorBuffer_tables s t p_width p_height p_internalFormat
  unfold createColorBuffer at h
  split at h
  · rename_i s₁ heq
    rw [heq] at hnew
    cases h
    rw [hnew]
    exact .same rfl
  · rename_i s₁ cb heq
    rw [heq] at hnew
    obtain ⟨⟨s', id⟩, hgen, hr⟩ := Run.bind_eq_ok.mp h
    cases hr
    obtain ⟨hid, rfl⟩ := genHandle_generates hgen
    rw [releaseColorBuffer_tables]
    show s.tables.Step _ id
      { s₁.tables with colorbuffers := s₁.tables.colorbuffers.add id ⟨cb, 1⟩, nextHandle := id }
    rw [hnew] at hid ⊢
    exact .createColorBuffer (newColorBuffer_format heq) hid

theorem createRenderContext_tables {p_share : HandleType}
    {p_isGL2 : Bool} {ctx : EGLContext}
    (h : s.createRenderContext fbconf p_share p_isGL2 ctx = .ok r) :
    s.tables.Step (.createRenderContext fbconf p_share p_isGL2 ctx) r.2 r.1.tables := by
  have hrefused : s.tables.Step (.createRenderContext fbconf p_share p_isGL2 ctx) 0 s.tables :=
    .same rfl
  unfold createRenderContext at h
  split at h
  · cases h
    exact hrefused
  · rename_i hshare
    unfold newContext at h
    split at h
    · rename_i heq
      split at heq
      · cases heq
        cases h
        exact hrefused
      · split at heq
        · cases heq
          cases h
          exact hrefused
        · cases heq
    · rename_i heq
      split at heq
      · cases heq
      · rename_i hconfig
        split at heq
        · cases heq
        · rename_i hctx
          cases heq
          obtain ⟨⟨s', id⟩, hgen, hr⟩ := Run.bind_eq_ok.mp h
          cases hr
          obtain ⟨hid, rfl⟩ := genHandle_generates hgen
          refine .createRenderContext ⟨?_, by simpa using hconfig, hctx⟩ hid
          by_cases hzero : p_share = 0
          · exact .inl hzero
          · right
            show (s.m_contexts.get? p_share).isSome
            grind [Option.isSome_iff_ne_none]

/-- A surface without a pbuffer is resized only if EGL makes one. -/
theorem resizePbuffer_some {w : ObjectId}
    (hnone : (s.window w).m_eglSurface = EGL_NO_SURFACE)
    (h : (s.resizePbuffer t w p_width p_height pbuf).2 = true) : pbuf ≠ EGL_NO_SURFACE := by
  rintro rfl
  grind [resizePbuffer]

theorem newWindow_some {win : ObjectId}
    (h : s.newWindow t fbconf p_width p_height pbuf = (s', some win)) :
    fbconf ∧ pbuf ≠ EGL_NO_SURFACE := by
  have hwindow : ({ s with windows := s.windows ++ [WindowSurface.new] } : FrameBuffer n).window
      s.windows.length = .new := by
    simp [window, List.getD_eq_getElem?_getD]
  unfold newWindow at h
  split at h
  · cases h
  · rename_i hconfig
    dsimp only at h
    split at h
    · cases h
    · rename_i hresized
      refine ⟨by simpa using hconfig, resizePbuffer_some ?_ (by simpa using hresized)⟩
      rw [hwindow]
      rfl

theorem newWindow_tables {win : Option ObjectId}
    (h : s.newWindow t fbconf p_width p_height pbuf = (s', win)) :
    (win = none ∧ s'.tables = s.tables) ∨
      (s'.tables = { s.tables with windowCount := s.tables.windowCount + 1 } ∧
        ∀ w, win = some w → w = s.tables.windowCount) := by
  have hadded : ({ s with windows := s.windows ++ [WindowSurface.new] } : FrameBuffer n).tables =
      { s.tables with windowCount := s.tables.windowCount + 1 } := by
    rw [tables, List.length_append]
    rfl
  unfold newWindow at h
  split at h
  · grind
  · right
    dsimp only at h
    split at h
    · grind [resizePbuffer_tables]
    · cases h
      rw [setWindow_tables, resizePbuffer_tables]
      exact ⟨hadded, fun _ heq => (Option.some.inj heq).symm⟩

theorem createWindowSurface_tables
    (h : s.createWindowSurface t fbconf p_width p_height pbuf = .ok r) :
    s.tables.Step (.createWindowSurface fbconf p_width p_height pbuf) r.2 r.1.tables := by
  unfold createWindowSurface at h
  split at h
  · rename_i heq
    cases h
    obtain ⟨-, hsame⟩ | ⟨hadded, -⟩ := newWindow_tables heq
    · rw [hsame]
      exact .same rfl
    · rw [hadded]
      exact .noPbuffer
  · rename_i s₁ win heq
    obtain ⟨hnone, -⟩ | ⟨hadded, hwin⟩ := newWindow_tables heq
    · cases hnone
    · obtain rfl := hwin win rfl
      obtain ⟨⟨s', id⟩, hgen, hr⟩ := Run.bind_eq_ok.mp h
      cases hr
      obtain ⟨hid, rfl⟩ := genHandle_generates hgen
      have hcalls : s.tables.CallsGenHandle (.createWindowSurface fbconf p_width p_height pbuf) :=
        newWindow_some heq
      show s.tables.Step _ id
        { s₁.tables with
          windows := s₁.tables.windows.add id s.tables.windowCount, nextHandle := id }
      rw [hadded] at hid ⊢
      exact .createWindowSurface hcalls hid

@[simp] theorem openColorBuffer_tables (s : FrameBuffer n) (p_colorbuffer : HandleType) :
    (s.openColorBuffer p_colorbuffer).tables = s.tables.openColorBuffer p_colorbuffer := by
  have htable : s.tables.colorbuffers = s.m_colorbuffers := rfl
  rw [openColorBuffer, Tables.openColorBuffer, htable]
  cases s.m_colorbuffers.get? p_colorbuffer <;> rfl

@[simp] theorem closeColorBuffer_tables (s : FrameBuffer n) (t : Fin n)
    (p_colorbuffer : HandleType) :
    (s.closeColorBuffer t p_colorbuffer).tables = s.tables.closeColorBuffer p_colorbuffer := by
  have htable : s.tables.colorbuffers = s.m_colorbuffers := rfl
  rw [closeColorBuffer, Tables.closeColorBuffer, htable]
  cases s.m_colorbuffers.get? p_colorbuffer with
  | none => rfl
  | some c =>
      dsimp only
      split
      · rw [releaseColorBuffer_tables]
        rfl
      · rfl

theorem step_tables {call : Call}
    (h : s.step (t, call) = .ok s') : s.tables.Step call (s.reply (t, call)) s'.tables := by
  cases call with
  | own call =>
      cases call with
      | createColorBuffer p_width p_height p_internalFormat =>
          obtain ⟨r, hr, rfl⟩ := Run.map_eq_ok.mp h
          have hstep := createColorBuffer_tables hr
          rw [reply, hr]
          exact hstep
      | closeColorBuffer p_colorbuffer =>
          cases h
          rw [closeColorBuffer_tables]
          exact .closeColorBuffer
      | DestroyWindowSurface p_surface =>
          cases h
          rw [DestroyWindowSurface, releaseWindow_tables]
          exact .DestroyWindowSurface
      | destroyColorBuffer =>
          cases h
          rw [destroyColorBuffer_tables]
          exact .same rfl
      | updateColorBuffer p_colorbuffer =>
          cases h
          rw [updateColorBuffer_tables]
          exact .same rfl
      | rcReadColorBuffer p_colorbuffer =>
          cases h
          exact .same rfl
      | flushWindowSurfaceColorBuffer p_surface =>
          obtain ⟨r, hr, rfl⟩ := Run.map_eq_ok.mp h
          rw [flushWindowSurfaceColorBuffer_tables hr]
          exact .same rfl
      | post p_colorbuffer =>
          cases h
          rw [post_tables]
          exact .same rfl
      | repost =>
          cases h
          rw [repost_tables]
          exact .same rfl
      | setDisplayRotation =>
          cases h
          rw [setDisplayRotation, repost_tables]
          exact .same rfl
      | setupSubWindow subWin surface =>
          cases h
          rw [setupSubWindow_tables]
          exact .same rfl
      | removeSubWindow =>
          cases h
          rw [removeSubWindow_tables]
          exact .same rfl
  | createRenderContext fbconf p_share p_isGL2 ctx =>
      obtain ⟨r, hr, rfl⟩ := Run.map_eq_ok.mp h
      have hstep := createRenderContext_tables hr
      rw [reply, hr]
      exact hstep
  | DestroyRenderContext p_context =>
      cases h
      rw [DestroyRenderContext, releaseContext_tables]
      exact .DestroyRenderContext
  | createWindowSurface fbconf p_width p_height pbuf =>
      obtain ⟨r, hr, rfl⟩ := Run.map_eq_ok.mp h
      have hstep := createWindowSurface_tables hr
      rw [reply, hr]
      exact hstep
  | openColorBuffer p_colorbuffer =>
      cases h
      rw [openColorBuffer_tables]
      exact .openColorBuffer
  | setWindowSurfaceColorBuffer p_surface p_colorbuffer pbuf =>
      cases h
      rw [setWindowSurfaceColorBuffer_tables]
      exact .same rfl
  | bindContext p_context p_drawSurface p_readSurface egl =>
      cases h
      rw [bindContext_tables]
      exact .same rfl
  | finish =>
      cases h
      exact .same rfl

end FrameBuffer

end AndroidRenderer.OpenglRender
