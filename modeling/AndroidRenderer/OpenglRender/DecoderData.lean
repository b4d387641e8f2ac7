import AndroidRenderer.Lib.SmartPtr
import AndroidRenderer.OpenglRender.FrameBuffer
import Mathlib.Data.List.GetD

/-!
# The context data of the decoders

A decoder of a render thread holds the data of a context without a smart pointer.
`bindContext` gives the data of the new context to the decoder of the context's version and
leaves the other decoder what it has, unless nothing is bound. While no thread goes from a
context of one version to one of the other without an unbind operation between them, the data
that a decoder holds belongs to the thread's current context, which the thread keeps alive.
-/

namespace AndroidRenderer.OpenglRender

namespace FrameBuffer

variable {n : Nat}

/-! ## Pointers to contexts -/

/-- The variables that hold smart pointers to contexts. -/
inductive ContextHolder (n : Nat)
  | handle (id : HandleType)
  | thread (t : Fin n)
  | readOf (w : ObjectId)
  | drawOf (w : ObjectId)

def contextAt (s : FrameBuffer n) : ContextHolder n → Option ObjectId
  | .handle id => s.m_contexts.get? id
  | .thread t => (s.tinfo t).currContext
  | .readOf w => (s.window w).m_readContext
  | .drawOf w => (s.window w).m_drawContext

theorem window_of_mem {s : FrameBuffer n} {win : WindowSurface} (h : win ∈ s.windows) :
    ∃ w, s.window w = win := by
  obtain ⟨w, hw, rfl⟩ := List.getElem_of_mem h
  exact ⟨w, List.getD_eq_getElem _ _ hw⟩

/-- A surface behind no pointer has no contexts. -/
theorem window_mem_or_new (s : FrameBuffer n) (w : ObjectId) :
    s.window w ∈ s.windows ∨ s.window w = .new := by
  by_cases hw : w < s.windows.length
  · grind [window]
  · exact .inr (List.getD_eq_default _ _ (Nat.le_of_not_lt hw))

@[grind =] theorem window_setWindow (s : FrameBuffer n) (w w' : ObjectId) (win : WindowSurface) :
    (s.setWindow w win).window w' = if w' = w ∧ w < s.windows.length then win else s.window w' := by
  unfold window setWindow
  grind

theorem contextReferenced_iff {s : FrameBuffer n} {c : ObjectId} :
    s.contextReferenced c = true ↔ ∃ k, s.contextAt k = some c := by
  simp only [contextReferenced, Bool.or_eq_true, List.any_eq_true, decide_eq_true_eq]
  constructor
  · rintro ((⟨e, hmem, rfl⟩ | ⟨win, hmem, hwin⟩) | ⟨t, -, ht⟩)
    · exact ⟨.handle e.1, KeyedVector.get?_eq_some_iff.mpr hmem⟩
    · obtain ⟨w, rfl⟩ := window_of_mem hmem
      exact hwin.elim (fun h => ⟨.readOf w, h⟩) fun h => ⟨.drawOf w, h⟩
    · exact ⟨.thread t, ht⟩
  · rintro ⟨k, hk⟩
    cases k with
    | handle id => exact .inl (.inl ⟨(id, c), KeyedVector.get?_eq_some_iff.mp hk, rfl⟩)
    | thread t => exact .inr ⟨t, List.mem_finRange t, hk⟩
    | readOf w =>
        rcases s.window_mem_or_new w with hmem | hnew
        · exact .inl (.inr ⟨_, hmem, .inl hk⟩)
        · rw [contextAt, hnew] at hk
          cases hk
    | drawOf w =>
        rcases s.window_mem_or_new w with hmem | hnew
        · exact .inl (.inr ⟨_, hmem, .inr hk⟩)
        · rw [contextAt, hnew] at hk
          cases hk

/-- The context exists and has not been destroyed. -/
def ContextAlive (s : FrameBuffer n) (c : ObjectId) : Prop :=
  SmartPtr.Alive s.contexts.length s.freedContexts c

/-- Smart pointers refer to contexts that are alive. -/
def Sound (s : FrameBuffer n) : Prop :=
  SmartPtr.Sound s.contextAt s.contexts.length s.freedContexts

/-- Contexts, pointers to them and threads are what they were. -/
structure SameContexts (s s' : FrameBuffer n) : Prop where
  handles : s'.m_contexts = s.m_contexts
  surfaces : ∀ w, (s'.window w).m_readContext = (s.window w).m_readContext ∧
    (s'.window w).m_drawContext = (s.window w).m_drawContext
  tinfo : s'.tinfo = s.tinfo
  contexts : s'.contexts = s.contexts
  freedContexts : s'.freedContexts = s.freedContexts

/-- Threads are what they were, and the pointers that the handles have keep what they refer to
alive. -/
structure KeepsContexts (s s' : FrameBuffer n) : Prop where
  handles : s'.m_contexts = s.m_contexts
  tinfo : s'.tinfo = s.tinfo
  contexts : s'.contexts = s.contexts
  sound : s.Sound → s'.Sound

namespace SameContexts

theorem refl (s : FrameBuffer n) : SameContexts s s := ⟨rfl, fun _ => ⟨rfl, rfl⟩, rfl, rfl, rfl⟩

theorem of_windows {s s' : FrameBuffer n} (hhandles : s'.m_contexts = s.m_contexts)
    (hwindows : s'.windows = s.windows) (htinfo : s'.tinfo = s.tinfo)
    (hcontexts : s'.contexts = s.contexts) (hfreed : s'.freedContexts = s.freedContexts) :
    SameContexts s s' := by
  refine ⟨hhandles, fun w => ?_, htinfo, hcontexts, hfreed⟩
  grind [window]

theorem trans {s t u : FrameBuffer n} (h : SameContexts s t) (h' : SameContexts t u) :
    SameContexts s u :=
  ⟨h'.handles.trans h.handles,
    fun w => ⟨(h'.surfaces w).1.trans (h.surfaces w).1, (h'.surfaces w).2.trans (h.surfaces w).2⟩,
    h'.tinfo.trans h.tinfo, h'.contexts.trans h.contexts, h'.freedContexts.trans h.freedContexts⟩

theorem contextAt {s s' : FrameBuffer n} (h : SameContexts s s') (k : ContextHolder n) :
    s'.contextAt k = s.contextAt k := by
  cases k with
  | handle id => rw [FrameBuffer.contextAt, FrameBuffer.contextAt, h.handles]
  | thread t => rw [FrameBuffer.contextAt, FrameBuffer.contextAt, h.tinfo]
  | readOf w => exact (h.surfaces w).1
  | drawOf w => exact (h.surfaces w).2

theorem keeps {s s' : FrameBuffer n} (h : SameContexts s s') : KeepsContexts s s' where
  handles := h.handles
  tinfo := h.tinfo
  contexts := h.contexts
  sound hs := by
    rw [Sound, h.contexts, h.freedContexts]
    refine SmartPtr.Sound.assign hs fun k c hk => .inl ⟨k, ?_⟩
    rwa [h.contextAt] at hk

/-- A change of what is current, or of anything that is not about contexts. -/
theorem eglMakeCurrent (s : FrameBuffer n) (t : Fin n) (draw read : EGLSurface)
    (context : EGLContext) : SameContexts s (s.eglMakeCurrent t draw read context) :=
  .of_windows rfl rfl rfl rfl rfl

/-- A change of a surface that leaves its contexts. -/
theorem setWindow {s : FrameBuffer n} {w : ObjectId} {win : WindowSurface}
    (hread : win.m_readContext = (s.window w).m_readContext)
    (hdraw : win.m_drawContext = (s.window w).m_drawContext) :
    SameContexts s (s.setWindow w win) := by
  refine ⟨rfl, fun w' => ?_, rfl, rfl, rfl⟩
  rw [window_setWindow]
  grind

theorem unbind_locked (s : FrameBuffer n) (t : Fin n) : SameContexts s (s.unbind_locked t) :=
  .of_windows rfl rfl rfl rfl rfl

theorem bindSubwin_locked (s : FrameBuffer n) (t : Fin n) :
    SameContexts s (s.bindSubwin_locked t) :=
  .of_windows rfl rfl rfl rfl rfl

theorem unbind_bind (s : FrameBuffer n) (t : Fin n) :
    SameContexts s ((s.bind_locked t).unbind_locked t) :=
  .of_windows rfl rfl rfl rfl rfl

theorem releaseColorBuffer (s : FrameBuffer n) (t : Fin n) (cb : Option ObjectId) :
    SameContexts s (s.releaseColorBuffer t cb) := by
  unfold FrameBuffer.releaseColorBuffer
  split
  · exact .refl s
  · split
    · exact .refl s
    · exact unbind_bind s t

theorem setAttachedColorBuffer (s : FrameBuffer n) (t : Fin n) (w : ObjectId)
    (cb : Option ObjectId) : SameContexts s (s.setAttachedColorBuffer t w cb) := by
  have hset : SameContexts s (s.setWindow w { s.window w with m_attachedColorBuffer := cb }) :=
    setWindow rfl rfl
  exact hset.trans (releaseColorBuffer _ t _)

variable {r : FrameBuffer n × HandleType}

theorem genHandle {s : FrameBuffer n}
    (h : s.genHandle = .ok r) : SameContexts s r.1 := by
  obtain ⟨id, -, hr⟩ := Run.bind_eq_ok.mp h
  cases hr
  exact .of_windows rfl rfl rfl rfl rfl

theorem newColorBuffer (s : FrameBuffer n) (t : Fin n) (p_width p_height : UInt32)
    (p_internalFormat : GLenum) :
    SameContexts s (s.newColorBuffer t p_width p_height p_internalFormat).1 := by
  unfold FrameBuffer.newColorBuffer
  split
  · exact .refl s
  · exact .of_windows rfl rfl rfl rfl rfl

theorem createColorBuffer {s : FrameBuffer n} {t : Fin n} {p_width p_height : UInt32}
    {p_internalFormat : GLenum}
    (h : s.createColorBuffer t p_width p_height p_internalFormat = .ok r) : SameContexts s r.1 := by
  have hnew := newColorBuffer s t p_width p_height p_internalFormat
  unfold FrameBuffer.createColorBuffer at h
  split at h
  · rename_i heq
    rw [heq] at hnew
    cases h
    exact hnew
  · rename_i s' cb heq
    rw [heq] at hnew
    obtain ⟨r', hr', hr⟩ := Run.bind_eq_ok.mp h
    cases hr
    have hadded : SameContexts r'.1
        { r'.1 with m_colorbuffers := r'.1.m_colorbuffers.add r'.2 ⟨cb, 1⟩ } :=
      .of_windows rfl rfl rfl rfl rfl
    exact ((hnew.trans (genHandle hr')).trans hadded).trans (releaseColorBuffer _ t _)

theorem openColorBuffer (s : FrameBuffer n) (p_colorbuffer : HandleType) :
    SameContexts s (s.openColorBuffer p_colorbuffer) := by
  unfold FrameBuffer.openColorBuffer
  split
  · exact .refl s
  · exact .of_windows rfl rfl rfl rfl rfl

theorem closeColorBuffer (s : FrameBuffer n) (t : Fin n) (p_colorbuffer : HandleType) :
    SameContexts s (s.closeColorBuffer t p_colorbuffer) := by
  unfold FrameBuffer.closeColorBuffer
  split
  · exact .refl s
  · dsimp only
    split
    · have herased : SameContexts s
          { s with m_colorbuffers := s.m_colorbuffers.remove p_colorbuffer } :=
        .of_windows rfl rfl rfl rfl rfl
      exact herased.trans (releaseColorBuffer _ t _)
    · exact .of_windows rfl rfl rfl rfl rfl

theorem updateColorBuffer (s : FrameBuffer n) (t : Fin n) (p_colorbuffer : HandleType) :
    SameContexts s (s.updateColorBuffer t p_colorbuffer).1 := by
  unfold FrameBuffer.updateColorBuffer
  split
  · exact .refl s
  · exact unbind_bind s t

theorem blitFromCurrentReadBuffer (s : FrameBuffer n) (t : Fin n) :
    SameContexts s (s.blitFromCurrentReadBuffer t).1 := by
  unfold FrameBuffer.blitFromCurrentReadBuffer
  split
  · exact .refl s
  · exact unbind_bind s t

theorem blitToColorBuffer {s s' : FrameBuffer n} {t : Fin n} {win : WindowSurface}
    {cb : ColorBuffer} (h : s.blitToColorBuffer t win cb = .ok s') : SameContexts s s' := by
  unfold FrameBuffer.blitToColorBuffer at h
  split at h
  · cases h
    exact .refl s
  · split at h
    · cases h
      exact .refl s
    · dsimp only at h
      split at h
      · cases h
      · cases h
        exact ((eglMakeCurrent s t _ _ _).trans (blitFromCurrentReadBuffer _ t)).trans
          (eglMakeCurrent _ t _ _ _)

theorem flushWindowSurfaceColorBuffer {s : FrameBuffer n} {t : Fin n} {p_surface : HandleType}
    {r : FrameBuffer n × Bool} (h : s.flushWindowSurfaceColorBuffer t p_surface = .ok r) :
    SameContexts s r.1 := by
  unfold FrameBuffer.flushWindowSurfaceColorBuffer at h
  split at h
  · cases h
    exact .refl s
  · obtain ⟨s', hs', hr⟩ := Run.bind_eq_ok.mp h
    cases hr
    unfold flushColorBuffer at hs'
    split at hs'
    · cases hs'
      exact .refl s
    · exact blitToColorBuffer hs'

theorem post (s : FrameBuffer n) (t : Fin n) (p_colorbuffer : HandleType) :
    SameContexts s (s.post t p_colorbuffer).1 := by
  unfold FrameBuffer.post
  split
  · exact .refl s
  · have hposted : SameContexts s { s with m_lastPostedColorBuffer := p_colorbuffer } :=
      .of_windows rfl rfl rfl rfl rfl
    dsimp only
    split
    · exact hposted
    · exact (hposted.trans (bindSubwin_locked _ t)).trans (unbind_locked _ t)

theorem repost (s : FrameBuffer n) (t : Fin n) : SameContexts s (s.repost t).1 := by
  unfold FrameBuffer.repost
  split
  · exact post s t _
  · exact .refl s

theorem setupSubWindow (s : FrameBuffer n) (t : Fin n) (subWin : EGLNativeWindowType)
    (surface : EGLSurface) : SameContexts s (s.setupSubWindow t subWin surface).1 := by
  unfold FrameBuffer.setupSubWindow
  split
  · dsimp only
    split
    · split
      · exact .of_windows rfl rfl rfl rfl rfl
      · have hsurface : SameContexts s { s with m_subWin := subWin, m_eglSurface := surface } :=
          .of_windows rfl rfl rfl rfl rfl
        exact ((hsurface.trans (bindSubwin_locked _ t)).trans (post _ t _)).trans
          (unbind_locked _ t)
    · exact .of_windows rfl rfl rfl rfl rfl
  · exact .refl s

theorem removeSubWindow (s : FrameBuffer n) (t : Fin n) :
    SameContexts s (s.removeSubWindow t).1 := by
  unfold FrameBuffer.removeSubWindow
  split
  · exact .of_windows rfl rfl rfl rfl rfl
  · exact .refl s

theorem resizePbuffer (s : FrameBuffer n) (t : Fin n) (w : ObjectId) (p_width p_height : UInt32)
    (pbuf : EGLSurface) : SameContexts s (s.resizePbuffer t w p_width p_height pbuf).1 := by
  unfold FrameBuffer.resizePbuffer
  dsimp only
  split
  · exact .refl s
  · have hunbound := eglMakeCurrent s t EGL_NO_SURFACE EGL_NO_SURFACE EGL_NO_CONTEXT
    split
    · split
      · refine hunbound.trans (setWindow ?_ ?_) <;> rfl
      · refine setWindow ?_ ?_ <;> rfl
    · split
      · refine (hunbound.trans ?_).trans (eglMakeCurrent _ t _ _ _)
        refine setWindow ?_ ?_ <;> rfl
      · refine setWindow ?_ ?_ <;> rfl

/-- A surface without contexts is added. -/
theorem addWindow (s : FrameBuffer n) :
    SameContexts s { s with windows := s.windows ++ [WindowSurface.new] } := by
  refine ⟨rfl, fun w => ?_, rfl, rfl, rfl⟩
  have hwindow : ({ s with windows := s.windows ++ [WindowSurface.new] } : FrameBuffer n).window w =
      s.window w := by grind [window]
  grind

theorem newWindow (s : FrameBuffer n) (t : Fin n) (fbconf : Bool) (p_width p_height : UInt32)
    (pbuf : EGLSurface) : SameContexts s (s.newWindow t fbconf p_width p_height pbuf).1 := by
  unfold FrameBuffer.newWindow
  split
  · exact .refl s
  · have hadded := (addWindow s).trans (resizePbuffer _ t s.windows.length p_width p_height pbuf)
    dsimp only
    split
    · exact hadded
    · refine hadded.trans (setWindow ?_ ?_) <;> rfl

theorem createWindowSurface {s : FrameBuffer n} {t : Fin n} {fbconf : Bool}
    {p_width p_height : UInt32} {pbuf : EGLSurface}
    (h : s.createWindowSurface t fbconf p_width p_height pbuf = .ok r) : SameContexts s r.1 := by
  have hnew := newWindow s t fbconf p_width p_height pbuf
  unfold FrameBuffer.createWindowSurface at h
  split at h
  · rename_i heq
    rw [heq] at hnew
    cases h
    exact hnew
  · rename_i heq
    rw [heq] at hnew
    obtain ⟨r', hr', hr⟩ := Run.bind_eq_ok.mp h
    cases hr
    exact (hnew.trans (genHandle hr')).trans (.of_windows rfl rfl rfl rfl rfl)

theorem setWindowSurfaceColorBuffer (s : FrameBuffer n) (t : Fin n)
    (p_surface p_colorbuffer : HandleType) (pbuf : EGLSurface) :
    SameContexts s (s.setWindowSurfaceColorBuffer t p_surface p_colorbuffer pbuf).1 := by
  unfold FrameBuffer.setWindowSurfaceColorBuffer
  split
  · exact .refl s
  · split
    · exact .refl s
    · rename_i w _ _ c _
      unfold setColorBuffer
      have hattached := setAttachedColorBuffer s t w (some c.cb)
      dsimp only
      split
      · refine SameContexts.trans ?_ (setWindow rfl rfl)
        split
        · exact hattached.trans (resizePbuffer _ t w _ _ pbuf)
        · exact hattached
      · exact hattached

end SameContexts

namespace KeepsContexts

theorem refl (s : FrameBuffer n) : KeepsContexts s s := (SameContexts.refl s).keeps

theorem trans {s t u : FrameBuffer n} (h : KeepsContexts s t) (h' : KeepsContexts t u) :
    KeepsContexts s u :=
  ⟨h'.handles.trans h.handles, h'.tinfo.trans h.tinfo, h'.contexts.trans h.contexts,
    fun hs => h'.sound (h.sound hs)⟩

theorem context {s t : FrameBuffer n} (h : KeepsContexts s t) (c : ObjectId) :
    t.context c = s.context c := by
  rw [FrameBuffer.context, FrameBuffer.context, h.contexts]

end KeepsContexts

/-! ## Assignments to smart pointers -/

/-- Pointers that refer to what some pointer referred to before are sound. -/
theorem Sound.of_holders {s s' : FrameBuffer n} (hs : s.Sound)
    (hcontexts : s'.contexts = s.contexts)
    (hfreed : s'.freedContexts = s.freedContexts)
    (hholders : ∀ k c, s'.contextAt k = some c → ∃ k', s.contextAt k' = some c) : s'.Sound := by
  rw [Sound, hcontexts, hfreed]
  exact SmartPtr.Sound.assign hs fun k c hk => .inl (hholders k c hk)

/-- A context that no pointer refers to may be destroyed. -/
theorem Sound.releaseContext {s : FrameBuffer n} (hs : s.Sound) {c : Option ObjectId}
    (hc : ∀ c', c = some c' → c' < s.contexts.length) : (s.releaseContext c).Sound := by
  unfold FrameBuffer.releaseContext
  split
  · exact hs
  · rename_i c'
    split
    · exact hs
    · rename_i hreferenced
      exact SmartPtr.Sound.destroy hs (hc _ rfl) fun k hk =>
        hreferenced (contextReferenced_iff.mpr ⟨k, hk⟩)

@[simp] theorem releaseContext_tinfo (s : FrameBuffer n) (c : Option ObjectId) :
    (s.releaseContext c).tinfo = s.tinfo := by
  unfold releaseContext
  grind

@[simp] theorem releaseContext_contexts (s : FrameBuffer n) (c : Option ObjectId) :
    (s.releaseContext c).contexts = s.contexts := by
  unfold releaseContext
  grind

@[simp] theorem releaseContext_handles (s : FrameBuffer n) (c : Option ObjectId) :
    (s.releaseContext c).m_contexts = s.m_contexts := by
  unfold releaseContext
  grind

/-- A surface may be given contexts that some pointer refers to. -/
theorem Sound.setWindow {s : FrameBuffer n} (hs : s.Sound) {w : ObjectId} {win : WindowSurface}
    (hread : ∀ c, win.m_readContext = some c → ∃ k, s.contextAt k = some c)
    (hdraw : ∀ c, win.m_drawContext = some c → ∃ k, s.contextAt k = some c) :
    (s.setWindow w win).Sound := by
  refine hs.of_holders rfl rfl fun k c hk => ?_
  cases k with
  | handle id => exact ⟨.handle id, hk⟩
  | thread t => exact ⟨.thread t, hk⟩
  | readOf w' =>
      rw [contextAt, window_setWindow] at hk
      split at hk
      · exact hread c hk
      · exact ⟨.readOf w', hk⟩
  | drawOf w' =>
      rw [contextAt, window_setWindow] at hk
      split at hk
      · exact hdraw c hk
      · exact ⟨.drawOf w', hk⟩

/-- The new target of an assignment is nothing, or a context that a handle has. -/
def FromHandle (s : FrameBuffer n) (ctx : Option ObjectId) : Prop :=
  ∀ c, ctx = some c → ∃ id, s.m_contexts.get? id = some c

variable {ctx draw read : Option ObjectId}

theorem FromHandle.holder {s : FrameBuffer n} (h : s.FromHandle ctx)
    (c : ObjectId) (hc : ctx = some c) : ∃ k, s.contextAt k = some c := by
  obtain ⟨id, hid⟩ := h c hc
  exact ⟨.handle id, hid⟩

theorem fromHandle_none (s : FrameBuffer n) : s.FromHandle none := fun _ h => nomatch h

theorem FromHandle.of_keeps {s s' : FrameBuffer n} (h : s.FromHandle ctx)
    (hkeeps : KeepsContexts s s') : s'.FromHandle ctx := by
  intro c hc
  rw [hkeeps.handles]
  exact h c hc

theorem KeepsContexts.setDrawContext {s : FrameBuffer n}
    (hctx : s.FromHandle ctx) (w : ObjectId) : KeepsContexts s (s.setDrawContext w ctx) where
  handles := releaseContext_handles _ _
  tinfo := releaseContext_tinfo _ _
  contexts := releaseContext_contexts _ _
  sound hs := by
    have hset : (s.setWindow w { s.window w with m_drawContext := ctx }).Sound :=
      hs.setWindow (fun c hc => ⟨.readOf w, hc⟩) hctx.holder
    exact hset.releaseContext fun c hc => (hs.held (.drawOf w) c hc).1

theorem KeepsContexts.setReadContext {s : FrameBuffer n}
    (hctx : s.FromHandle ctx) (w : ObjectId) : KeepsContexts s (s.setReadContext w ctx) where
  handles := releaseContext_handles _ _
  tinfo := releaseContext_tinfo _ _
  contexts := releaseContext_contexts _ _
  sound hs := by
    have hset : (s.setWindow w { s.window w with m_readContext := ctx }).Sound :=
      hs.setWindow hctx.holder fun c hc => ⟨.drawOf w, hc⟩
    exact hset.releaseContext fun c hc => (hs.held (.readOf w) c hc).1

theorem KeepsContexts.releaseWindow (s : FrameBuffer n) (t : Fin n) (w : Option ObjectId) :
    KeepsContexts s (s.releaseWindow t w) := by
  unfold FrameBuffer.releaseWindow
  split
  · exact .refl s
  · split
    · exact .refl s
    · exact ((KeepsContexts.setDrawContext (fromHandle_none _) _).trans
        (KeepsContexts.setReadContext (fromHandle_none _) _)).trans
          (SameContexts.setAttachedColorBuffer _ t _ none).keeps

/-- Both surfaces are bound to a context that a handle has, or to none. -/
theorem KeepsContexts.bindSurfaces {s : FrameBuffer n}
    (hctx : s.FromHandle ctx) (same : Bool) (draw read : Option ObjectId) :
    KeepsContexts s (s.bindSurfaces same ctx draw read) := by
  unfold FrameBuffer.bindSurfaces
  split
  · rename_i draw read
    split
    · have hdraw := KeepsContexts.setDrawContext hctx draw
      exact hdraw.trans (KeepsContexts.setReadContext (hctx.of_keeps hdraw) _)
    · have hread := KeepsContexts.setReadContext hctx draw
      exact hread.trans (KeepsContexts.setDrawContext (hctx.of_keeps hread) _)
  · exact .refl s

/-! ## Threads -/

@[simp, grind =] theorem setTinfo_tinfo (s : FrameBuffer n) (t : Fin n) (info : RenderThreadInfo) :
    (s.setTinfo t info).tinfo t = info := if_pos rfl

@[grind =] theorem setTinfo_tinfo_ne (s : FrameBuffer n) {t t' : Fin n} (info : RenderThreadInfo)
    (h : t' ≠ t) : (s.setTinfo t info).tinfo t' = s.tinfo t' := if_neg h

/-- A thread may be given a current context that some pointer refers to. -/
theorem Sound.setTinfo {s : FrameBuffer n} (hs : s.Sound) {t : Fin n} {info : RenderThreadInfo}
    (hinfo : ∀ c, info.currContext = some c → ∃ k, s.contextAt k = some c) :
    (s.setTinfo t info).Sound := by
  refine hs.of_holders rfl rfl fun k c hk => ?_
  cases k with
  | handle id => exact ⟨.handle id, hk⟩
  | thread t' =>
      by_cases ht : t' = t
      · grind [contextAt]
      · rw [contextAt, setTinfo_tinfo_ne s info ht] at hk
        exact ⟨.thread t', hk⟩
  | readOf w => exact ⟨.readOf w, hk⟩
  | drawOf w => exact ⟨.drawOf w, hk⟩

@[simp] theorem withContextData_currContext (s : FrameBuffer n) (info : RenderThreadInfo)
    (ctx : Option ObjectId) : (s.withContextData info ctx).currContext = info.currContext := by
  unfold withContextData
  grind

theorem withContextData_of_contexts {s s' : FrameBuffer n} (h : s'.contexts = s.contexts)
    (info : RenderThreadInfo) (ctx : Option ObjectId) :
    s'.withContextData info ctx = s.withContextData info ctx := by
  unfold withContextData context
  rw [h]

/-- One thread's info has been replaced. -/
structure SetsInfo (s s' : FrameBuffer n) (t : Fin n) (info : RenderThreadInfo) : Prop where
  contexts : s'.contexts = s.contexts
  tinfo : s'.tinfo = (s.setTinfo t info).tinfo
  sound : s.Sound → s'.Sound

namespace SetsInfo

variable {s s' s'' : FrameBuffer n} {t : Fin n} {info info' : RenderThreadInfo}

theorem self (h : SetsInfo s s' t info) : s'.tinfo t = info := by
  rw [h.tinfo, setTinfo_tinfo]

theorem keeps (h : SetsInfo s s' t info) (h' : KeepsContexts s' s'') : SetsInfo s s'' t info :=
  ⟨h'.contexts.trans h.contexts, h'.tinfo.trans h.tinfo, fun hs => h'.sound (h.sound hs)⟩

theorem trans (h : SetsInfo s s' t info) (h' : SetsInfo s' s'' t info') :
    SetsInfo s s'' t info' := by
  refine ⟨h'.contexts.trans h.contexts, ?_, fun hs => h'.sound (h.sound hs)⟩
  rw [h'.tinfo]
  funext t'
  by_cases ht : t' = t
  · rw [ht, setTinfo_tinfo, setTinfo_tinfo]
  · rw [setTinfo_tinfo_ne _ _ ht, h.tinfo, setTinfo_tinfo_ne _ _ ht, setTinfo_tinfo_ne _ _ ht]

/-- An assignment that leaves the current context. -/
theorem setTinfo (s : FrameBuffer n) (t : Fin n) (info : RenderThreadInfo)
    (hinfo : info.currContext = (s.tinfo t).currContext) : SetsInfo s (s.setTinfo t info) t info where
  contexts := rfl
  tinfo := rfl
  sound hs := hs.setTinfo fun _ hc => ⟨.thread t, hinfo.symm.trans hc⟩

variable {ctx : Option ObjectId}

theorem setCurrContext (hctx : s.FromHandle ctx) (t : Fin n) :
    SetsInfo s (s.setCurrContext t ctx) t { s.tinfo t with currContext := ctx } where
  contexts := releaseContext_contexts _ _
  tinfo := releaseContext_tinfo _ _
  sound hs := by
    have hset : (s.setTinfo t { s.tinfo t with currContext := ctx }).Sound :=
      hs.setTinfo hctx.holder
    exact hset.releaseContext fun c hc => (hs.held (.thread t) c hc).1

theorem setCurrDrawSurf (s : FrameBuffer n) (t : Fin n) (draw : Option ObjectId) :
    SetsInfo s (s.setCurrDrawSurf t draw) t { s.tinfo t with currDrawSurf := draw } :=
  (setTinfo s t { s.tinfo t with currDrawSurf := draw } rfl).keeps (.releaseWindow _ t _)

theorem setCurrReadSurf (s : FrameBuffer n) (t : Fin n) (read : Option ObjectId) :
    SetsInfo s (s.setCurrReadSurf t read) t { s.tinfo t with currReadSurf := read } :=
  (setTinfo s t { s.tinfo t with currReadSurf := read } rfl).keeps (.releaseWindow _ t _)

theorem setContextData (s : FrameBuffer n) (t : Fin n) (ctx : Option ObjectId) :
    SetsInfo s (s.setContextData t ctx) t (s.withContextData (s.tinfo t) ctx) :=
  setTinfo s t _ (s.withContextData_currContext _ ctx)

theorem updateThreadInfo (hctx : s.FromHandle ctx) (t : Fin n)
    (draw read : Option ObjectId) :
    SetsInfo s (s.updateThreadInfo t ctx draw read) t
      (s.withContextData { s.tinfo t with
        currContext := ctx, currDrawSurf := draw, currReadSurf := read } ctx) := by
  have hcontext := setCurrContext hctx t
  have hdraw := hcontext.trans (setCurrDrawSurf _ t draw)
  have hread := hdraw.trans (setCurrReadSurf _ t read)
  have hdata := hread.trans (setContextData _ t ctx)
  rw [hread.self, hdraw.self, hcontext.self] at hdata
  rw [withContextData_of_contexts hread.contexts] at hdata
  exact hdata

theorem of_keeps (h : KeepsContexts s s') (h' : SetsInfo s' s'' t info) :
    SetsInfo s s'' t info := by
  refine ⟨h'.contexts.trans h.contexts, ?_, fun hs => h'.sound (h.sound hs)⟩
  rw [h'.tinfo]
  grind [h.tinfo]

theorem bindObjects (hctx : s.FromHandle ctx) (t : Fin n) (same : Bool)
    (draw read : Option ObjectId) :
    ∃ draw' read', SetsInfo s (s.bindObjects t same ctx draw read) t
      (s.withContextData { s.tinfo t with
        currContext := ctx, currDrawSurf := draw', currReadSurf := read' } ctx) := by
  unfold FrameBuffer.bindObjects
  dsimp only
  generalize (if draw.isNone ∧ read.isNone then _ else draw) = draw'
  generalize (if draw.isNone ∧ read.isNone then _ else read) = read'
  refine ⟨draw', read', ?_⟩
  have hmade : KeepsContexts s (s.eglMakeCurrent t
      (draw.elim EGL_NO_SURFACE fun w => (s.window w).m_eglSurface)
      (read.elim EGL_NO_SURFACE fun w => (s.window w).m_eglSurface)
      (ctx.elim EGL_NO_CONTEXT fun c => (s.context c).m_ctx)) :=
    (SameContexts.eglMakeCurrent s t _ _ _).keeps
  have hbound := hmade.trans
    (KeepsContexts.bindSurfaces (hctx.of_keeps hmade) same draw' read')
  have hset := of_keeps hbound (updateThreadInfo (hctx.of_keeps hbound) t draw' read')
  rw [withContextData_of_contexts hbound.contexts, hbound.tinfo] at hset
  exact hset

end SetsInfo

/-! ## Context data -/

@[grind =] theorem contextData_withContextData (s : FrameBuffer n) (info : RenderThreadInfo)
    (c : ObjectId) (isGL2 : Bool) :
    (s.withContextData info (some c)).contextData isGL2 =
      if (s.context c).m_isGL2 = isGL2 then some c else info.contextData isGL2 := by
  simp only [withContextData]
  cases hversion : (s.context c).m_isGL2 <;> cases isGL2 <;> rfl

@[simp] theorem contextData_withContextData_none (s : FrameBuffer n) (info : RenderThreadInfo)
    (isGL2 : Bool) : (s.withContextData info none).contextData isGL2 = none := by
  cases isGL2 <;> rfl

/-- A decoder holds no data, or that of the thread's current context, which has its version and
is alive and referenced. -/
def DecoderDataCurrent (s : FrameBuffer n) : Prop :=
  ∀ t isGL2 c, (s.tinfo t).contextData isGL2 = some c →
    s.contextReferenced c = true ∧ s.ContextAlive c ∧ (s.tinfo t).currContext = some c ∧
      (s.context c).m_isGL2 = isGL2

/-- What decoders hold is related to the current context of their thread. -/
def Paired (s : FrameBuffer n) : Prop :=
  ∀ t isGL2 c, (s.tinfo t).contextData isGL2 = some c →
    (s.tinfo t).currContext = some c ∧ (s.context c).m_isGL2 = isGL2

/-- The decoder of its version holds the data of a thread's current context. -/
def Loaded (s : FrameBuffer n) : Prop :=
  ∀ t c, (s.tinfo t).currContext = some c →
    (s.tinfo t).contextData (s.context c).m_isGL2 = some c

theorem decoderDataCurrent_of_paired {s : FrameBuffer n} (hs : s.Sound) (h : s.Paired) :
    s.DecoderDataCurrent := by
  intro t isGL2 c hc
  obtain ⟨hcurrent, hversion⟩ := h t isGL2 c hc
  exact ⟨contextReferenced_iff.mpr ⟨.thread t, hcurrent⟩, hs.held (.thread t) c hcurrent,
    hcurrent, hversion⟩

/-- Contexts that existed before have kept their version. -/
theorem Paired.of_tinfo {s s' : FrameBuffer n} (h : s.Paired) (hs : s.Sound)
    (htinfo : s'.tinfo = s.tinfo)
    (hcontexts : ∀ c < s.contexts.length, s'.context c = s.context c) : s'.Paired := by
  intro t isGL2 c hc
  rw [htinfo] at hc ⊢
  obtain ⟨hcurrent, hversion⟩ := h t isGL2 c hc
  rw [hcontexts c (hs.held (.thread t) c hcurrent).1]
  exact ⟨hcurrent, hversion⟩

theorem Loaded.of_tinfo {s s' : FrameBuffer n} (h : s.Loaded) (hs : s.Sound)
    (htinfo : s'.tinfo = s.tinfo)
    (hcontexts : ∀ c < s.contexts.length, s'.context c = s.context c) : s'.Loaded := by
  intro t c hc
  rw [htinfo] at hc ⊢
  rw [hcontexts c (hs.held (.thread t) c hc).1]
  exact h t c hc

/-- The call does not take a thread from a context of one version to one of the other. -/
def KeepsVersion (s : FrameBuffer n) : Fin n × Call → Prop
  | (t, .bindContext p_context p_drawSurface p_readSurface egl) =>
      ∀ c draw read, s.bindArguments p_context p_drawSurface p_readSurface =
          some (some c, draw, read) → egl = true →
        ∀ old, (s.tinfo t).currContext = some old →
          (s.context old).m_isGL2 = (s.context c).m_isGL2
  | _ => True

/-- The decoders hold the data of the new context only, where the thread has kept its version. -/
theorem Paired.setsInfo {s s' : FrameBuffer n} {t : Fin n}
    (h : s.Paired) (hversion : ∀ c, ctx = some c → ∀ old, (s.tinfo t).currContext = some old →
      (s.context old).m_isGL2 = (s.context c).m_isGL2)
    (hset : SetsInfo s s' t (s.withContextData { s.tinfo t with
      currContext := ctx, currDrawSurf := draw, currReadSurf := read } ctx)) : s'.Paired := by
  intro t' isGL2 c hc
  have hcontext : s'.context c = s.context c := by rw [context, context, hset.contexts]
  rw [hcontext]
  by_cases ht : t' = t
  · subst ht
    rw [hset.self] at hc ⊢
    rw [withContextData_currContext]
    cases ctx with
    | none =>
        rw [contextData_withContextData_none] at hc
        cases hc
    | some new =>
        rw [contextData_withContextData] at hc
        split at hc
        · grind
        · rename_i hnew
          -- the other decoder's data would be that of the context of the same version
          have hold : (s.tinfo t').contextData isGL2 = some c := by cases isGL2 <;> exact hc
          obtain ⟨hcurrent, hdata⟩ := h t' isGL2 c hold
          exact absurd ((hversion new rfl c hcurrent).symm.trans hdata) hnew
  · have hinfo : s'.tinfo t' = s.tinfo t' := by rw [hset.tinfo, setTinfo_tinfo_ne _ _ ht]
    rw [hinfo] at hc ⊢
    exact h t' isGL2 c hc

theorem Loaded.setsInfo {s s' : FrameBuffer n} {t : Fin n}
    (h : s.Loaded) (hset : SetsInfo s s' t (s.withContextData { s.tinfo t with
      currContext := ctx, currDrawSurf := draw, currReadSurf := read } ctx)) : s'.Loaded := by
  intro t' c hc
  have hcontext : s'.context c = s.context c := by rw [context, context, hset.contexts]
  rw [hcontext]
  by_cases ht : t' = t
  · grind [hset.self, withContextData_currContext]
  · have hinfo : s'.tinfo t' = s.tinfo t' := by rw [hset.tinfo, setTinfo_tinfo_ne _ _ ht]
    rw [hinfo] at hc ⊢
    exact h t' c hc

/-- The data of the context that a thread leaves for one of the other version stays behind. -/
theorem Loaded.stale {s s' : FrameBuffer n} {t : Fin n} {c old : ObjectId} (h : s.Loaded)
    (hold : (s.tinfo t).currContext = some old)
    (hversion : (s.context old).m_isGL2 ≠ (s.context c).m_isGL2)
    (hset : SetsInfo s s' t (s.withContextData { s.tinfo t with
      currContext := some c, currDrawSurf := draw, currReadSurf := read } (some c))) :
    ¬s'.DecoderDataCurrent := by
  intro hcurrent
  have hdata : (s'.tinfo t).contextData (s.context old).m_isGL2 = some old := by
    rw [hset.self, contextData_withContextData, if_neg (Ne.symm hversion)]
    have hloaded := h t old hold
    revert hloaded
    cases (s.context old).m_isGL2 <;> exact id
  obtain ⟨-, -, hnew, -⟩ := hcurrent t _ old hdata
  grind [hset.self, withContextData_currContext]

/-! ## Calls -/

theorem bindArguments_fromHandle {s : FrameBuffer n}
    {p_context p_drawSurface p_readSurface : HandleType}
    (h : s.bindArguments p_context p_drawSurface p_readSurface = some (ctx, draw, read)) :
    s.FromHandle ctx := by
  intro c hc
  subst hc
  unfold bindArguments at h
  split at h
  · split at h
    · rename_i c' draw' hget _
      split at h
      · obtain ⟨read', -, heq⟩ := Option.map_eq_some_iff.mp h
        grind
      · grind
    · cases h
  · cases h

/-- Pointers are sound, and decoders hold what their thread has current. -/
structure Invariant (s : FrameBuffer n) : Prop where
  sound : s.Sound
  paired : s.Paired
  loaded : s.Loaded

theorem Invariant.of_keeps {s s' : FrameBuffer n} (h : s.Invariant) (hkeeps : KeepsContexts s s') :
    s'.Invariant where
  sound := hkeeps.sound h.sound
  paired := h.paired.of_tinfo h.sound hkeeps.tinfo fun c _ => hkeeps.context c
  loaded := h.loaded.of_tinfo h.sound hkeeps.tinfo fun c _ => hkeeps.context c

theorem Invariant.of_same {s s' : FrameBuffer n} (h : s.Invariant) (hsame : SameContexts s s') :
    s'.Invariant :=
  h.of_keeps hsame.keeps

theorem Invariant.setsInfo {s s' : FrameBuffer n} {t : Fin n}
    (h : s.Invariant) (hversion : ∀ c, ctx = some c → ∀ old, (s.tinfo t).currContext = some old →
      (s.context old).m_isGL2 = (s.context c).m_isGL2)
    (hset : SetsInfo s s' t (s.withContextData { s.tinfo t with
      currContext := ctx, currDrawSurf := draw, currReadSurf := read } ctx)) : s'.Invariant :=
  ⟨hset.sound h.sound, h.paired.setsInfo hversion hset, h.loaded.setsInfo hset⟩

theorem Invariant.bindContext {s : FrameBuffer n} (h : s.Invariant) (t : Fin n)
    (p_context p_drawSurface p_readSurface : HandleType) (egl : Bool)
    (hok : s.KeepsVersion (t, .bindContext p_context p_drawSurface p_readSurface egl)) :
    (s.bindContext t p_context p_drawSurface p_readSurface egl).1.Invariant := by
  unfold FrameBuffer.bindContext
  split
  · exact h
  · rename_i ctx draw read hargs
    split
    · exact h
    · rename_i hegl
      obtain ⟨draw', read', hset⟩ :=
        SetsInfo.bindObjects (bindArguments_fromHandle hargs) t
          (p_readSurface = p_drawSurface) draw read
      refine h.setsInfo (fun c hc => ?_) hset
      subst hc
      exact hok c draw read hargs (by simpa using hegl)

theorem context_append {s : FrameBuffer n} {rctx : RenderContext} {c : ObjectId}
    (hc : c < s.contexts.length) :
    ({ s with contexts := s.contexts ++ [rctx] } : FrameBuffer n).context c = s.context c :=
  List.getD_append _ _ _ _ hc

/-- A context that is new is alive, and no pointer refers to it yet. -/
theorem Invariant.newContext {s : FrameBuffer n} (h : s.Invariant) (fbconf p_isGL2 : Bool)
    (ctx : EGLContext) :
    (s.newContext fbconf p_isGL2 ctx).1.Invariant ∧
      ∀ c, (s.newContext fbconf p_isGL2 ctx).2 = some c →
        (s.newContext fbconf p_isGL2 ctx).1.ContextAlive c := by
  unfold FrameBuffer.newContext
  split
  · exact ⟨h, fun _ hc => nomatch hc⟩
  · split
    · exact ⟨h, fun _ hc => nomatch hc⟩
    · have hlength : (s.contexts ++ [RenderContext.mk ctx p_isGL2]).length =
          s.contexts.length + 1 := List.length_append
      have hgrown := SmartPtr.Sound.grow h.sound (Nat.le_add_right s.contexts.length 1)
      constructor
      · refine ⟨?_, h.paired.of_tinfo h.sound rfl fun c hc => context_append hc,
          h.loaded.of_tinfo h.sound rfl fun c hc => context_append hc⟩
        rw [Sound, hlength]
        exact hgrown.assign fun k c hk => .inl ⟨k, by cases k <;> exact hk⟩
      · simp [ContextAlive, h.sound.alive_next, hlength]

/-- A handle may be given to a context that is alive. -/
theorem Invariant.addHandle {s : FrameBuffer n} (h : s.Invariant) {c : ObjectId}
    (hc : s.ContextAlive c) (id : HandleType) :
    ({ s with m_contexts := s.m_contexts.add id c } : FrameBuffer n).Invariant := by
  refine ⟨SmartPtr.Sound.assign h.sound fun k c' hk => ?_, h.paired, h.loaded⟩
  cases k with
  | handle id' =>
      rw [contextAt, KeyedVector.get?_add] at hk
      split at hk
      · cases hk
        exact .inr hc
      · exact .inl ⟨.handle id', hk⟩
  | thread t => exact .inl ⟨.thread t, hk⟩
  | readOf w => exact .inl ⟨.readOf w, hk⟩
  | drawOf w => exact .inl ⟨.drawOf w, hk⟩

theorem Invariant.createRenderContext {s : FrameBuffer n} (h : s.Invariant) {fbconf : Bool}
    {p_share : HandleType} {p_isGL2 : Bool} {ctx : EGLContext} {r : FrameBuffer n × HandleType}
    (hr : s.createRenderContext fbconf p_share p_isGL2 ctx = .ok r) : r.1.Invariant := by
  have hnew := h.newContext fbconf p_isGL2 ctx
  unfold FrameBuffer.createRenderContext at hr
  split at hr
  · cases hr
    exact h
  · split at hr
    · rename_i heq
      rw [heq] at hnew
      cases hr
      exact hnew.1
    · rename_i s' rctx heq
      rw [heq] at hnew
      obtain ⟨r', hr', hr⟩ := Run.bind_eq_ok.mp hr
      cases hr
      have hsame := SameContexts.genHandle hr'
      have halive : r'.1.ContextAlive rctx := by
        grind [ContextAlive, hsame.contexts, hsame.freedContexts]
      exact (hnew.1.of_same hsame).addHandle halive r'.2

theorem Invariant.DestroyRenderContext {s : FrameBuffer n} (h : s.Invariant)
    (p_context : HandleType) : (s.DestroyRenderContext p_context).Invariant := by
  have herased : ({ s with m_contexts := s.m_contexts.remove p_context } : FrameBuffer n).Sound := by
    refine h.sound.of_holders rfl rfl fun k c hk => ?_
    cases k with
    | handle id =>
        rw [contextAt, KeyedVector.get?_remove] at hk
        split at hk
        · cases hk
        · exact ⟨.handle id, hk⟩
    | thread t => exact ⟨.thread t, hk⟩
    | readOf w => exact ⟨.readOf w, hk⟩
    | drawOf w => exact ⟨.drawOf w, hk⟩
  have hcontext : ∀ c, (s.DestroyRenderContext p_context).context c = s.context c := by
    intro c
    rw [FrameBuffer.DestroyRenderContext, context, releaseContext_contexts]
    rfl
  exact ⟨herased.releaseContext fun c hc => (h.sound.held (.handle p_context) c hc).1,
    h.paired.of_tinfo h.sound (releaseContext_tinfo _ _) fun c _ => hcontext c,
    h.loaded.of_tinfo h.sound (releaseContext_tinfo _ _) fun c _ => hcontext c⟩

theorem KeepsContexts.perform {s s' : FrameBuffer n} {t : Fin n} {call : OwnContextCall}
    (h : s.perform t call = .ok s') : KeepsContexts s s' := by
  cases call with
  | createColorBuffer p_width p_height p_internalFormat =>
      obtain ⟨r, hr, rfl⟩ := Run.map_eq_ok.mp h
      exact (SameContexts.createColorBuffer hr).keeps
  | closeColorBuffer p_colorbuffer =>
      cases h
      exact (SameContexts.closeColorBuffer s t p_colorbuffer).keeps
  | destroyColorBuffer =>
      cases h
      exact (SameContexts.unbind_bind s t).keeps
  | DestroyWindowSurface p_surface =>
      cases h
      have herased : SameContexts s { s with m_windows := s.m_windows.remove p_surface } :=
        .of_windows rfl rfl rfl rfl rfl
      exact herased.keeps.trans (.releaseWindow _ t _)
  | updateColorBuffer p_colorbuffer =>
      cases h
      exact (SameContexts.updateColorBuffer s t p_colorbuffer).keeps
  | rcReadColorBuffer p_colorbuffer =>
      cases h
      exact .refl s
  | flushWindowSurfaceColorBuffer p_surface =>
      obtain ⟨r, hr, rfl⟩ := Run.map_eq_ok.mp h
      exact (SameContexts.flushWindowSurfaceColorBuffer hr).keeps
  | post p_colorbuffer =>
      cases h
      exact (SameContexts.post s t p_colorbuffer).keeps
  | repost =>
      cases h
      exact (SameContexts.repost s t).keeps
  | setDisplayRotation =>
      cases h
      exact (SameContexts.repost s t).keeps
  | setupSubWindow subWin surface =>
      cases h
      exact (SameContexts.setupSubWindow s t subWin surface).keeps
  | removeSubWindow =>
      cases h
      exact (SameContexts.removeSubWindow s t).keeps

theorem Invariant.step {s s' : FrameBuffer n} (h : s.Invariant) {call : Fin n × Call}
    (hok : s.KeepsVersion call) (hs : s.step call = .ok s') : s'.Invariant := by
  obtain ⟨t, call⟩ := call
  cases call with
  | own call => exact h.of_keeps (.perform hs)
  | createRenderContext fbconf p_share p_isGL2 ctx =>
      obtain ⟨r, hr, rfl⟩ := Run.map_eq_ok.mp hs
      exact h.createRenderContext hr
  | DestroyRenderContext p_context =>
      cases hs
      exact h.DestroyRenderContext p_context
  | createWindowSurface fbconf p_width p_height pbuf =>
      obtain ⟨r, hr, rfl⟩ := Run.map_eq_ok.mp hs
      exact h.of_same (.createWindowSurface hr)
  | openColorBuffer p_colorbuffer =>
      cases hs
      exact h.of_same (.openColorBuffer s p_colorbuffer)
  | setWindowSurfaceColorBuffer p_surface p_colorbuffer pbuf =>
      cases hs
      exact h.of_same (.setWindowSurfaceColorBuffer s t p_surface p_colorbuffer pbuf)
  | bindContext p_context p_drawSurface p_readSurface egl =>
      cases hs
      exact h.bindContext t p_context p_drawSurface p_readSurface egl hok
  | finish =>
      cases hs
      exact h.of_same (.eglMakeCurrent s t _ _ _)

theorem invariant_initial (eglContext : EGLContext) (pbufSurface : EGLSurface) :
    (initial eglContext pbufSurface : FrameBuffer n).Invariant := by
  constructor
  · constructor
    · intro k c hk
      cases k <;> cases hk
    · intro c hc
      cases hc
  · intro t isGL2 c hc
    cases isGL2 <;> cases hc
  · intro t c hc
    cases hc

/-- A thread that is taken from a context of one version to one of the other has stale data. -/
theorem bindContext_stale {s : FrameBuffer n} (h : s.Invariant) {t : Fin n}
    {p_context p_drawSurface p_readSurface : HandleType} {egl : Bool}
    (hbad : ¬s.KeepsVersion (t, .bindContext p_context p_drawSurface p_readSurface egl)) :
    ¬(s.bindContext t p_context p_drawSurface p_readSurface egl).1.DecoderDataCurrent := by
  simp only [KeepsVersion, not_forall] at hbad
  obtain ⟨c, draw, read, hargs, hegl, old, hold, hversion⟩ := hbad
  subst hegl
  obtain ⟨draw', read', hset⟩ :=
    SetsInfo.bindObjects (bindArguments_fromHandle hargs) t (p_readSurface = p_drawSurface) draw read
  grind [bindContext, h.loaded.stale]

theorem Invariant.decoderDataCurrent {s : FrameBuffer n} (h : s.Invariant) :
    s.DecoderDataCurrent :=
  decoderDataCurrent_of_paired h.sound h.paired

theorem Invariant.of_reach {s : FrameBuffer n} {eglContext : EGLContext}
    {pbufSurface : EGLSurface}
    (h : Run.Reach FrameBuffer.step KeepsVersion (initial eglContext pbufSurface) s) :
    s.Invariant :=
  h.invariant (I := Invariant) (invariant_initial eglContext pbufSurface)
    fun _ _ _ hinv hok hs => hinv.step hok hs

/-- While no thread goes from a context of one version to one of the other without an unbind
operation, decoders hold no data but that of their thread's current context, which is alive. The
first call that takes a thread there leaves data that is not. -/
theorem decoderData_current {s : FrameBuffer n} {eglContext : EGLContext}
    {pbufSurface : EGLSurface}
    (h : Run.Reach FrameBuffer.step KeepsVersion (initial eglContext pbufSurface) s) :
    s.DecoderDataCurrent ∧
      ∀ call s', s.step call = .ok s' → (s'.DecoderDataCurrent ↔ s.KeepsVersion call) := by
  have hinv := Invariant.of_reach h
  refine ⟨hinv.decoderDataCurrent, fun call s' hs => ⟨fun hcurrent => ?_, fun hok => ?_⟩⟩
  · by_contra hbad
    obtain ⟨t, call⟩ := call
    cases call with
    | bindContext p_context p_drawSurface p_readSurface egl =>
        cases hs
        exact bindContext_stale hinv hbad hcurrent
    | _ => exact hbad trivial
  · exact (hinv.step hok hs).decoderDataCurrent

/-- A context of each version and a surface. -/
def twoContexts : List (Fin 1 × Call) :=
  [.createRenderContext true 0 false 7, .createRenderContext true 0 true 8,
    .createWindowSurface true 1 1 9, .bindContext 1 3 3 true].map (Prod.mk (Fin.last 0))

/-- A thread without a context may be given any. -/
def bindsFirst (s : FrameBuffer n) : Fin n × Call → Bool
  | (t, .bindContext _ _ _ _) => (s.tinfo t).currContext.isNone
  | _ => true

theorem keepsVersion_of_bindsFirst (s : FrameBuffer n) (call : Fin n × Call)
    (h : s.bindsFirst call = true) : s.KeepsVersion call := by
  obtain ⟨t, call⟩ := call
  cases call with
  | bindContext p_context p_drawSurface p_readSurface egl =>
      intro c draw read _ _ old hold
      rw [bindsFirst, hold] at h
      cases h
  | _ => trivial

theorem twoContexts_check :
    Run.check step bindsFirst (fun s => (s.tinfo 0).contextData false = some 0)
      (initial 1 2) twoContexts = true := by
  decide +kernel

theorem decoderData_current_bound :
    ∃ s : FrameBuffer 1, (s.tinfo 0).contextData false = some 0 ∧ s.DecoderDataCurrent := by
  obtain ⟨s, hreach, hs⟩ :=
    Run.exists_reach_of_check keepsVersion_of_bindsFirst twoContexts_check
  exact ⟨s, of_decide_eq_true hs, (decoderData_current hreach).1⟩

theorem stale_check :
    Run.check step (fun _ _ => true)
      (fun s => (s.tinfo 0).contextData false = some 0 && s.freedContexts.contains 0)
      (initial 1 2)
      (twoContexts ++ [(0, .bindContext 2 3 3 true), (0, .DestroyRenderContext 1)]) = true := by
  decide +kernel

/-- The decoder of one version still holds the data of a context that has been destroyed after
the thread went on to one of the other version. -/
theorem stale_after_switch :
    ∃ s : FrameBuffer 1, Run.Reach step (fun _ _ => True) (initial 1 2) s ∧
      (∃ c, (s.tinfo 0).contextData false = some c ∧ ¬s.ContextAlive c) ∧
      ¬s.DecoderDataCurrent := by
  obtain ⟨s, hreach, hs⟩ := Run.exists_reach_of_check (fun _ _ _ => trivial) stale_check
  rw [Bool.and_eq_true, decide_eq_true_eq, List.contains_iff_mem] at hs
  have hdead : ¬s.ContextAlive 0 := fun halive => halive.2 hs.2
  exact ⟨s, hreach, ⟨0, hs.1, hdead⟩, fun h => hdead (h 0 false 0 hs.1).2.1⟩

end FrameBuffer

end AndroidRenderer.OpenglRender
