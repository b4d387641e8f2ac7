import AndroidRenderer.OpenglRender.FrameBuffer

/-!
# The current context across calls

The calls that make the frame buffer's own context current save what the calling thread had
in the one slot `m_prev…` and put it back. A binding between another one and its end
overwrites the slot: `setupSubWindow` posts the last posted color buffer while it has the
subwindow bound, and its thread has nothing current afterwards. `removeSubWindow` saves
nothing. All other calls that return put the context back.
-/

namespace AndroidRenderer.OpenglRender

namespace FrameBuffer

variable {n : Nat}

/-! ## Bindings -/

@[simp] theorem eglMakeCurrent_current (s : FrameBuffer n) (t : Fin n) (draw read : EGLSurface)
    (context : EGLContext) : (s.eglMakeCurrent t draw read context).current t =
      ⟨context, draw, read⟩ := by
  simp [eglMakeCurrent]

variable {s : FrameBuffer n} {t : Fin n}

/-- The last of two changes of what a thread has current stands. -/
theorem eglMakeCurrent_back {s' : FrameBuffer n} {draw read : EGLSurface}
    {context : EGLContext}
    (h : s'.current = (s.eglMakeCurrent t draw read context).current) :
    (s'.eglMakeCurrent t (s.current t).draw (s.current t).read (s.current t).context).current =
      s.current := by
  funext t'
  by_cases ht : t' = t
  · rw [ht, eglMakeCurrent_current]
  · simp [eglMakeCurrent, ht, h]

@[simp] theorem setPrev_current (s : FrameBuffer n) (prev : Current) :
    (s.setPrev prev).current = s.current := rfl

/-- A binding and its end leave every thread what it had. -/
@[simp] theorem unbind_bind_current (s : FrameBuffer n) (t : Fin n) :
    ((s.bind_locked t).unbind_locked t).current = s.current :=
  eglMakeCurrent_back (s := s) rfl

@[simp] theorem unbind_bindSubwin_current (s : FrameBuffer n) (t : Fin n) :
    ((s.bindSubwin_locked t).unbind_locked t).current = s.current :=
  eglMakeCurrent_back (s := s) rfl

/-! ## Smart pointers -/

@[simp] theorem setWindow_current (s : FrameBuffer n) (w : ObjectId) (win : WindowSurface) :
    (s.setWindow w win).current = s.current := rfl

@[simp] theorem releaseContext_current (s : FrameBuffer n) (c : Option ObjectId) :
    (s.releaseContext c).current = s.current := by
  unfold releaseContext
  grind

@[simp] theorem destroyColorBuffer_current (s : FrameBuffer n) (t : Fin n) :
    (s.destroyColorBuffer t).current = s.current :=
  s.unbind_bind_current t

@[simp] theorem releaseColorBuffer_current (s : FrameBuffer n) (t : Fin n)
    (cb : Option ObjectId) : (s.releaseColorBuffer t cb).current = s.current := by
  unfold releaseColorBuffer
  grind [destroyColorBuffer_current]

@[simp] theorem destroyWindowSurface_current (s : FrameBuffer n) (t : Fin n) (w : ObjectId) :
    (s.destroyWindowSurface t w).current = s.current := by
  simp [destroyWindowSurface, setDrawContext, setReadContext, setAttachedColorBuffer]

@[simp] theorem releaseWindow_current (s : FrameBuffer n) (t : Fin n) (w : Option ObjectId) :
    (s.releaseWindow t w).current = s.current := by
  unfold releaseWindow
  grind [destroyWindowSurface_current]

/-! ## Handles -/

/-- The loop finds a number that is not taken if there is one among those it tries. -/
theorem genHandleLoop_ok_iff {taken : HandleType → Bool} {fuel : Nat} {id : HandleType} :
    (∃ id', genHandleLoop taken fuel id = .ok id') ↔
      ∃ k < fuel, taken (id + UInt32.ofNat (k + 1)) = false := by
  induction fuel generalizing id with
  | zero => simp [genHandleLoop]
  | succ fuel ih =>
      rw [genHandleLoop]
      split
      · rename_i htaken
        rw [ih]
        constructor
        · rintro ⟨k, hk, hfree⟩
          refine ⟨k + 1, Nat.succ_lt_succ hk, ?_⟩
          grind [UInt32.ofNat_add]
        · rintro ⟨k, hk, hfree⟩
          cases k with
          | zero => exact absurd hfree (by simpa using htaken)
          | succ k =>
              refine ⟨k, Nat.lt_of_succ_lt_succ hk, ?_⟩
              grind [UInt32.ofNat_add]
      · rename_i hfree
        rw [Bool.not_eq_true] at hfree
        exact iff_of_true ⟨_, rfl⟩ ⟨0, Nat.succ_pos _, hfree⟩

/-- `genHandle` returns if and only if some handle is free. -/
theorem genHandle_ok_iff (s : FrameBuffer n) :
    (∃ r, s.genHandle = .ok r) ↔ ∃ id, s.handleTaken id = false := by
  have hloop : (∃ r, s.genHandle = .ok r) ↔
      ∃ id, genHandleLoop s.handleTaken (2 ^ 32) s.s_nextHandle = .ok id := by
    constructor
    · rintro ⟨r, hr⟩
      obtain ⟨id, hid, -⟩ := Run.bind_eq_ok.mp hr
      exact ⟨id, hid⟩
    · rintro ⟨id, hid⟩
      exact ⟨({ s with s_nextHandle := id }, id), Run.bind_eq_ok.mpr ⟨id, hid, rfl⟩⟩
  rw [hloop, genHandleLoop_ok_iff]
  constructor
  · grind
  · rintro ⟨id, hfree⟩
    -- the number of turns that reach `id` from the last handle
    refine ⟨(id - s.s_nextHandle - 1).toNat, UInt32.toNat_lt _, ?_⟩
    have hreach : s.s_nextHandle + UInt32.ofNat ((id - s.s_nextHandle - 1).toNat + 1) = id := by
      grind [UInt32.ofNat_add, UInt32.ofNat_toNat]
    rw [hreach]
    exact hfree

theorem genHandle_current {r : FrameBuffer n × HandleType}
    (h : s.genHandle = .ok r) : r.1.current = s.current := by
  obtain ⟨id, -, hr⟩ := Run.bind_eq_ok.mp h
  cases hr
  rfl

/-! ## Operations -/

/-- The computation returns, and what the thread has current is `before`. -/
def EndsWith (x : Except CallFault (FrameBuffer n)) (t : Fin n) (before : Current) : Prop :=
  ∃ s, x = .ok s ∧ s.current t = before

/-- The call returns, and the thread has current what it had. -/
def Restores (s : FrameBuffer n) (t : Fin n) (call : OwnContextCall) : Prop :=
  EndsWith (s.perform t call) t (s.current t)

theorem endsWith_ok {before : Current} :
    EndsWith (.ok s) t before ↔ s.current t = before := by
  constructor
  · rintro ⟨s', hs, hcurrent⟩
    cases hs
    exact hcurrent
  · intro h
    exact ⟨s, rfl, h⟩

theorem endsWith_of_current {s' : FrameBuffer n} (h : s'.current = s.current) :
    EndsWith (.ok s') t (s.current t) :=
  endsWith_ok.mpr (congrFun h t)

theorem newColorBuffer_none {p_width p_height : UInt32}
    {p_internalFormat : GLenum} (h : texInternalFormat p_internalFormat = none) :
    s.newColorBuffer t p_width p_height p_internalFormat = (s, none) := by
  rw [newColorBuffer, h]

/-- A new color buffer has been made with what was current put back. -/
theorem newColorBuffer_some (s : FrameBuffer n) (t : Fin n) (p_width p_height : UInt32)
    {p_internalFormat format : GLenum} (h : texInternalFormat p_internalFormat = some format) :
    ∃ s' cb, s.newColorBuffer t p_width p_height p_internalFormat = (s', some cb) ∧
      s'.current = s.current ∧ s'.handleTaken = s.handleTaken := by
  rw [newColorBuffer, h]
  exact ⟨_, _, rfl, eglMakeCurrent_back (s := s) rfl, rfl⟩

theorem createColorBuffer_endsWith_iff (s : FrameBuffer n) (t : Fin n) (p_width p_height : UInt32)
    (p_internalFormat : GLenum) :
    EndsWith ((s.createColorBuffer t p_width p_height p_internalFormat).map Prod.fst) t
        (s.current t) ↔
      texInternalFormat p_internalFormat = none ∨ ∃ id, s.handleTaken id = false := by
  unfold createColorBuffer
  cases hformat : texInternalFormat p_internalFormat with
  | none =>
      rw [newColorBuffer_none hformat]
      exact iff_of_true (endsWith_ok.mpr rfl) (.inl rfl)
  | some format =>
      obtain ⟨s', cb, hnew, hcurrent, htaken⟩ :=
        s.newColorBuffer_some t p_width p_height hformat
      rw [hnew, ← htaken, ← genHandle_ok_iff]
      constructor
      · rintro ⟨u, hu, -⟩
        grind [Run.map_eq_ok, Run.bind_eq_ok]
      · rintro (hnone | ⟨r, hr⟩)
        · cases hnone
        · refine ⟨_, Run.map_eq_ok.mpr ⟨_, Run.bind_eq_ok.mpr ⟨r, hr, rfl⟩, rfl⟩, ?_⟩
          grind [releaseColorBuffer_current, genHandle_current]

@[simp] theorem closeColorBuffer_current (s : FrameBuffer n) (t : Fin n)
    (p_colorbuffer : HandleType) :
    (s.closeColorBuffer t p_colorbuffer).current = s.current := by
  unfold closeColorBuffer
  grind [releaseColorBuffer_current]

@[simp] theorem DestroyWindowSurface_current (s : FrameBuffer n) (t : Fin n)
    (p_surface : HandleType) :
    (s.DestroyWindowSurface t p_surface).current = s.current := by
  rw [DestroyWindowSurface, releaseWindow_current]

theorem updateColorBuffer_current (s : FrameBuffer n) (t : Fin n) (p_colorbuffer : HandleType) :
    (s.updateColorBuffer t p_colorbuffer).1.current = s.current := by
  unfold updateColorBuffer
  split
  · rfl
  · exact s.unbind_bind_current t

def FlushesWithoutContext (s : FrameBuffer n) (p_surface : HandleType) : Prop :=
  ∃ w cb, s.m_windows.get? p_surface = some w ∧ (s.window w).m_attachedColorBuffer = some cb ∧
    ¬((s.window w).m_width = 0 ∧ (s.window w).m_height = 0) ∧
    (s.colorBuffer cb).m_width = (s.window w).m_width ∧
    (s.colorBuffer cb).m_height = (s.window w).m_height ∧ (s.window w).m_drawContext = none

theorem post_current (s : FrameBuffer n) (t : Fin n) (p_colorbuffer : HandleType) :
    (s.post t p_colorbuffer).1.current = s.current := by
  unfold post
  grind [unbind_bindSubwin_current]

theorem repost_current (s : FrameBuffer n) (t : Fin n) :
    (s.repost t).1.current = s.current := by
  unfold repost
  split
  · rw [post_current]
  · rfl

/-- A post that binds the subwindow forgets what was saved before it. -/
theorem post_prev {p_colorbuffer : HandleType}
    {c : ColorBufferRef} (hc : s.m_colorbuffers.get? p_colorbuffer = some c)
    (hsub : s.m_subWin ≠ 0) :
    (s.post t p_colorbuffer).1.m_prevContext = EGL_NO_CONTEXT ∧
      (s.post t p_colorbuffer).1.m_prevDrawSurf = EGL_NO_SURFACE ∧
      (s.post t p_colorbuffer).1.m_prevReadSurf = EGL_NO_SURFACE := by
  rw [post, hc]
  simp only [hsub, if_false]
  exact ⟨rfl, rfl, rfl⟩

/-- The end of a binding whose saved context has been forgotten. -/
theorem unbind_of_prev_none
    (h : s.m_prevContext = EGL_NO_CONTEXT ∧ s.m_prevDrawSurf = EGL_NO_SURFACE ∧
      s.m_prevReadSurf = EGL_NO_SURFACE) : (s.unbind_locked t).current t = .none := by
  rw [unbind_locked, setPrev_current, eglMakeCurrent_current, h.1, h.2.1, h.2.2]
  rfl

def PostsOnSetup (s : FrameBuffer n) (subWin : EGLNativeWindowType) (surface : EGLSurface) :
    Prop :=
  s.m_subWin = 0 ∧ subWin ≠ 0 ∧ surface ≠ EGL_NO_SURFACE ∧
    (s.m_colorbuffers.get? s.m_lastPostedColorBuffer).isSome

/-- A blit makes the surface current for the context that draws on it, if there is one, and puts
back what was current. -/
theorem blitToColorBuffer_endsWith_iff (s : FrameBuffer n) (t : Fin n) (win : WindowSurface)
    (cb : ColorBuffer) :
    EndsWith (s.blitToColorBuffer t win cb) t (s.current t) ↔
      ¬(¬(win.m_width = 0 ∧ win.m_height = 0) ∧ cb.m_width = win.m_width ∧
        cb.m_height = win.m_height ∧ win.m_drawContext = none) := by
  unfold blitToColorBuffer
  split
  · grind [endsWith_ok]
  · rename_i hempty
    split
    · grind [endsWith_ok]
    · rename_i hsize
      rw [not_or, not_not, not_not] at hsize
      dsimp only
      cases win.m_drawContext with
      | none =>
          refine iff_of_false ?_ fun h => h ⟨hempty, hsize.1, hsize.2, rfl⟩
          rintro ⟨s', hs', -⟩
          cases hs'
      | some c => simp [endsWith_ok]

theorem flushWindowSurfaceColorBuffer_endsWith_iff (s : FrameBuffer n) (t : Fin n)
    (p_surface : HandleType) :
    EndsWith ((s.flushWindowSurfaceColorBuffer t p_surface).map Prod.fst) t (s.current t) ↔
      ¬s.FlushesWithoutContext p_surface := by
  unfold flushWindowSurfaceColorBuffer FlushesWithoutContext
  cases hw : s.m_windows.get? p_surface with
  | none =>
      refine iff_of_true (endsWith_ok.mpr rfl) ?_
      simp
  | some w =>
      have hflush : (((do
            let s ← s.flushColorBuffer t (s.window w)
            return (s, true)) : Except CallFault (FrameBuffer n × Bool)).map Prod.fst) =
          s.flushColorBuffer t (s.window w) := by
        cases s.flushColorBuffer t (s.window w) <;> rfl
      rw [hflush, flushColorBuffer]
      cases hcb : (s.window w).m_attachedColorBuffer with
      | none => simp [endsWith_ok, hcb]
      | some cb =>
          refine (s.blitToColorBuffer_endsWith_iff t (s.window w) (s.colorBuffer cb)).trans ?_
          simp [hcb]

/-- Where the subwindow is posted to while it is bound, nothing is current afterwards. -/
theorem setupSubWindow_current_iff (s : FrameBuffer n) (t : Fin n)
    (subWin : EGLNativeWindowType) (surface : EGLSurface) :
    (s.setupSubWindow t subWin surface).1.current t = s.current t ↔
      ¬s.PostsOnSetup subWin surface ∨ s.current t = .none := by
  unfold setupSubWindow PostsOnSetup
  split
  · rename_i hsub
    dsimp only
    split
    · rename_i hwin
      split
      · grind
      · rename_i hsurface
        cases hc : s.m_colorbuffers.get? s.m_lastPostedColorBuffer with
        | none =>
            refine iff_of_true ?_ (.inl fun h => nomatch h.2.2.2)
            rw [post]
            dsimp only [bindSubwin_locked, setPrev, eglMakeCurrent]
            rw [hc]
            exact if_pos rfl
        | some c =>
            have hnone := unbind_of_prev_none (t := t) (post_prev (t := t) (s :=
              ({ s with m_subWin := subWin, m_eglSurface := surface } :
                FrameBuffer n).bindSubwin_locked t) hc hwin)
            constructor
            · intro h
              exact .inr (h.symm.trans hnone)
            · rintro (h | h)
              · exact absurd ⟨hsub, hwin, hsurface, rfl⟩ h
              · exact hnone.trans h.symm
    · grind
  · grind

theorem removeSubWindow_current_iff (s : FrameBuffer n) (t : Fin n) :
    (s.removeSubWindow t).1.current t = s.current t ↔ s.m_subWin = 0 ∨ s.current t = .none := by
  unfold removeSubWindow
  split
  · rename_i hsub
    dsimp only
    rw [eglMakeCurrent_current]
    constructor
    · intro h
      exact .inr h.symm
    · rintro (h | h)
      · exact absurd h hsub
      · exact h.symm
  · grind

def PutsBack (s : FrameBuffer n) (t : Fin n) : OwnContextCall → Prop
  | .createColorBuffer _ _ p_internalFormat =>
      texInternalFormat p_internalFormat = none ∨ ∃ id, s.handleTaken id = false
  | .flushWindowSurfaceColorBuffer p_surface => ¬s.FlushesWithoutContext p_surface
  | .setupSubWindow subWin surface => ¬s.PostsOnSetup subWin surface ∨ s.current t = .none
  | .removeSubWindow => s.m_subWin = 0 ∨ s.current t = .none
  | _ => True

/-- The calling thread has current after a call what it had before, unless a subwindow is made
and posted to, or removed, while the thread has a context; two calls may not return. -/
theorem restores_iff (s : FrameBuffer n) (t : Fin n) (call : OwnContextCall) :
    s.Restores t call ↔ s.PutsBack t call := by
  cases call with
  | createColorBuffer p_width p_height p_internalFormat =>
      exact s.createColorBuffer_endsWith_iff t p_width p_height p_internalFormat
  | closeColorBuffer p_colorbuffer =>
      exact iff_of_true (endsWith_of_current (s.closeColorBuffer_current t p_colorbuffer)) trivial
  | destroyColorBuffer =>
      exact iff_of_true (endsWith_of_current (s.destroyColorBuffer_current t)) trivial
  | DestroyWindowSurface p_surface =>
      exact iff_of_true (endsWith_of_current (s.DestroyWindowSurface_current t p_surface)) trivial
  | updateColorBuffer p_colorbuffer =>
      exact iff_of_true (endsWith_of_current (s.updateColorBuffer_current t p_colorbuffer)) trivial
  | rcReadColorBuffer p_colorbuffer => exact iff_of_true (endsWith_of_current rfl) trivial
  | flushWindowSurfaceColorBuffer p_surface =>
      exact s.flushWindowSurfaceColorBuffer_endsWith_iff t p_surface
  | post p_colorbuffer =>
      exact iff_of_true (endsWith_of_current (s.post_current t p_colorbuffer)) trivial
  | repost => exact iff_of_true (endsWith_of_current (s.repost_current t)) trivial
  | setDisplayRotation => exact iff_of_true (endsWith_of_current (s.repost_current t)) trivial
  | setupSubWindow subWin surface =>
      exact endsWith_ok.trans (s.setupSubWindow_current_iff t subWin surface)
  | removeSubWindow => exact endsWith_ok.trans (s.removeSubWindow_current_iff t)

/-- A guest's color buffer has been posted before there is a subwindow, and the guest has made
its context current. -/
def beforeSubWindow : List (Fin 1 × Call) :=
  [.own (.createColorBuffer 1 1 GL_RGBA), .own (.post 1), .createRenderContext true 0 false 7,
    .createWindowSurface true 1 1 8, .bindContext 2 3 3 true].map (Prod.mk (Fin.last 0))

/-- The thread has a context, and a subwindow would be posted to. -/
def losesContext (s : FrameBuffer 1) : Bool :=
  s.current (Fin.last 0) ≠ .none && s.m_subWin = 0 &&
    (s.m_colorbuffers.get? s.m_lastPostedColorBuffer).isSome

theorem beforeSubWindow_losesContext :
    Run.check step (fun _ _ => true) losesContext (initial 1 2) beforeSubWindow = true := by
  decide +kernel

/-- The subwindow that is made then takes the context away. -/
theorem subWindow_takes_context :
    ∃ s : FrameBuffer 1, Run.Reach step (fun _ _ => True) (initial 1 2) s ∧
      ¬s.Restores 0 (.setupSubWindow 5 9) := by
  obtain ⟨s, hreach, hs⟩ :=
    Run.exists_reach_of_check (fun _ _ _ => trivial) beforeSubWindow_losesContext
  refine ⟨s, hreach, fun hrestores => ?_⟩
  rw [losesContext, Bool.and_eq_true, Bool.and_eq_true, decide_eq_true_eq,
    decide_eq_true_eq] at hs
  obtain ⟨⟨hcurrent, hsub⟩, hposted⟩ := hs
  rcases (s.setupSubWindow_current_iff 0 5 9).mp (endsWith_ok.mp hrestores) with h | h
  · exact h ⟨hsub, by decide, by decide, hposted⟩
  · exact hcurrent h

end FrameBuffer

end AndroidRenderer.OpenglRender
