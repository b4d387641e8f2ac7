import AndroidRenderer.OpenglRender.CurrentContext
import AndroidRenderer.OpenglRender.DecoderData

/-!
# Resizing the pbuffer of a window surface

A window surface draws to a pbuffer, which is destroyed and created anew when a color buffer of
another size is attached. A surface that is current is unbound for this, and bound again at the end.
Here EGL knows which handles are valid, as the frame buffer's does not; where what is bound again is
valid, the frame buffer does the same.
-/

namespace AndroidRenderer.OpenglRender

/-- A role of the pbuffer goes to the new one. -/
def replaced (prevPbuf : Option EGLSurface) (m_eglSurface prev : EGLSurface) : EGLSurface :=
  if some prev = prevPbuf then m_eglSurface else prev

def Current.replace (prevPbuf : Option EGLSurface) (m_eglSurface : EGLSurface) (c : Current) :
    Current :=
  ⟨c.context, replaced prevPbuf m_eglSurface c.draw, replaced prevPbuf m_eglSurface c.read⟩

namespace PbufferResize

/-- The EGL of the driver, as far as the calling thread sees it: the contexts and the pbuffers
whose handles are valid, with the sizes of the latter. A surface that was destroyed can still be
current. -/
structure Egl where
  contexts : EGLContext → Bool
  surfaces : EGLSurface → Option (GLuint × GLuint)
  current : Option Current

namespace Egl

/-- Either nothing is made current, or a context with two surfaces, whose handles are valid. A call
that fails changes nothing. -/
def eglMakeCurrent (e : Egl) : Option Current → Egl
  | none => { e with current := none }
  | some c =>
      if e.contexts c.context ∧ (e.surfaces c.draw).isSome ∧ (e.surfaces c.read).isSome then
        { e with current := some c }
      else e

theorem eglMakeCurrent_current {e : Egl} (hnone : e.current = none) (c : Current) :
    (e.eglMakeCurrent (some c)).current = some c ↔
      e.contexts c.context ∧ (e.surfaces c.draw).isSome ∧ (e.surfaces c.read).isSome := by
  rw [eglMakeCurrent]
  grind

def eglDestroySurface (e : Egl) (surface : EGLSurface) : Egl :=
  { e with surfaces := Function.update e.surfaces surface none }

/-- `answer` is the driver's, `none` for a failure. -/
def eglCreatePbufferSurface (e : Egl) (answer : Option EGLSurface) (width height : GLuint) : Egl :=
  answer.elim e fun surface =>
    { e with surfaces := Function.update e.surfaces surface (some (width, height)) }

end Egl

structure WindowSurface where
  m_eglSurface : Option EGLSurface
  m_width : GLuint
  m_height : GLuint
  m_pbufWidth : GLuint
  m_pbufHeight : GLuint
  deriving DecidableEq, Repr

/-- The calling thread's EGL with one window surface. -/
structure Surface where
  egl : Egl
  win : WindowSurface

namespace Surface

def needRebindContext (s : Surface) : Bool :=
  s.win.m_eglSurface.isSome && s.egl.current.any fun c =>
    some c.read = s.win.m_eglSurface || some c.draw = s.win.m_eglSurface

/-- `resizePbuffer`, past its first test. -/
def recreate (s : Surface) (width height : GLuint) (answer : Option EGLSurface) : Surface × Bool :=
  let egl := if s.needRebindContext then s.egl.eglMakeCurrent none else s.egl
  let egl := s.win.m_eglSurface.elim egl egl.eglDestroySurface
  let egl := egl.eglCreatePbufferSurface answer width height
  match answer with
  | none => (⟨egl, { s.win with m_eglSurface := none }⟩, false)
  | some surface =>
      let egl := if s.needRebindContext then
          egl.eglMakeCurrent (s.egl.current.map (·.replace s.win.m_eglSurface surface))
        else egl
      (⟨egl, { s.win with
        m_eglSurface := some surface, m_pbufWidth := width, m_pbufHeight := height }⟩, true)

/-- The first test of `resizePbuffer`. -/
def Sized (s : Surface) (width height : GLuint) : Prop :=
  s.win.m_eglSurface.isSome = true ∧ s.win.m_pbufWidth = width ∧ s.win.m_pbufHeight = height

instance (s : Surface) (width height : GLuint) : Decidable (s.Sized width height) :=
  inferInstanceAs (Decidable (_ ∧ _))

def resizePbuffer (s : Surface) (width height : GLuint) (answer : Option EGLSurface) :
    Surface × Bool :=
  if s.Sized width height then (s, true) else s.recreate width height answer

/-- The sizes are stored, whatever `resizePbuffer` has returned. -/
def setColorBuffer (s : Surface) (cbWidth cbHeight : GLuint) (answer : Option EGLSurface) :
    Surface :=
  if cbWidth ≠ s.win.m_width ∨ cbHeight ≠ s.win.m_height then
    let s := if s.win.m_pbufWidth ≠ 0 ∧ s.win.m_pbufHeight ≠ 0 then
        (s.resizePbuffer cbWidth cbHeight answer).1
      else s
    { s with win := { s.win with m_width := cbWidth, m_height := cbHeight } }
  else s

/-- `setColorBuffer` creates a new pbuffer. -/
def Resizes (s : Surface) (cbWidth cbHeight : GLuint) : Prop :=
  (cbWidth ≠ s.win.m_width ∨ cbHeight ≠ s.win.m_height) ∧
    (s.win.m_pbufWidth ≠ 0 ∧ s.win.m_pbufHeight ≠ 0) ∧ ¬s.Sized cbWidth cbHeight

instance (s : Surface) (cbWidth cbHeight : GLuint) : Decidable (s.Resizes cbWidth cbHeight) :=
  inferInstanceAs (Decidable (_ ∧ _))

/-- After a failure the surface is as usable as before. -/
structure Kept (s s' : Surface) : Prop where
  usable : ∃ surface, s'.win.m_eglSurface = some surface ∧
    s'.egl.surfaces surface = some (s'.win.m_pbufWidth, s'.win.m_pbufHeight) ∧
    s'.win.m_width = s'.win.m_pbufWidth ∧ s'.win.m_height = s'.win.m_pbufHeight
  current : s'.egl.current = s.egl.current

/-- A new pbuffer that is refused changes nothing, and one that is created takes the roles of the
old one. -/
structure Atomic (s : Surface) (cbWidth cbHeight : GLuint) (answer : Option EGLSurface) :
    Prop where
  refused : s.Resizes cbWidth cbHeight → answer = none →
    Kept s (s.setColorBuffer cbWidth cbHeight answer)
  created : s.Resizes cbWidth cbHeight → ∀ surface, answer = some surface →
    (s.setColorBuffer cbWidth cbHeight answer).egl.current =
      s.egl.current.map (·.replace s.win.m_eglSurface surface)

/-- What is bound besides the pbuffer has valid handles, of which the driver may have given the new
pbuffer one. -/
def Rebinds (s : Surface) (surface : EGLSurface) : Prop :=
  s.needRebindContext = true → ∀ c, s.egl.current = some c →
    s.egl.contexts c.context = true ∧ ∀ prev ∈ [c.draw, c.read],
      some prev = s.win.m_eglSurface ∨ prev = surface ∨ (s.egl.surfaces prev).isSome = true

variable {s : Surface} {cbWidth cbHeight : GLuint} {answer : Option EGLSurface}
  {surface : EGLSurface}

theorem replace_of_unbound (h : s.needRebindContext = false) {c : Current}
    (hc : s.egl.current = some c) : c.replace s.win.m_eglSurface surface = c := by
  cases hold : s.win.m_eglSurface with
  | none => rfl
  | some old =>
      rw [needRebindContext, hold, hc, Option.isSome_some, Bool.true_and, Option.any_some,
        Bool.or_eq_false_iff, decide_eq_false_iff_not, decide_eq_false_iff_not] at h
      rw [Current.replace, replaced, replaced, if_neg h.1, if_neg h.2]

theorem replaced_valid {old prev : EGLSurface} (size : GLuint × GLuint) :
    (Function.update (Function.update s.egl.surfaces old none) surface (some size)
        (replaced (some old) surface prev)).isSome = true ↔
      some prev = some old ∨ prev = surface ∨ (s.egl.surfaces prev).isSome = true := by
  rw [replaced]
  grind

/-- What is current after a new pbuffer was created. -/
theorem recreate_current :
    (s.recreate cbWidth cbHeight (some surface)).1.egl.current =
        s.egl.current.map (·.replace s.win.m_eglSurface surface) ↔ s.Rebinds surface := by
  cases hneed : s.needRebindContext with
  | false =>
      have hcurrent : (s.recreate cbWidth cbHeight (some surface)).1.egl.current =
          s.egl.current := by
        rw [recreate, hneed]
        cases s.win.m_eglSurface <;> rfl
      have hsame : s.egl.current.map (·.replace s.win.m_eglSurface surface) = s.egl.current := by
        cases hc : s.egl.current with
        | none => rfl
        | some c => rw [Option.map_some, replace_of_unbound hneed hc]
      rw [hcurrent, hsame]
      constructor
      · intro _ h
        grind
      · intro _
        rfl
  | true =>
      obtain ⟨hsurface, hany⟩ := (Bool.and_eq_true _ _).mp hneed
      obtain ⟨old, hold⟩ := Option.isSome_iff_exists.mp hsurface
      obtain ⟨c, hc, -⟩ := (Option.any_eq_true _ _).mp hany
      let egl : Egl := ⟨s.egl.contexts, Function.update (Function.update s.egl.surfaces old none)
        surface (some (cbWidth, cbHeight)), none⟩
      have hegl : (s.recreate cbWidth cbHeight (some surface)).1.egl =
          egl.eglMakeCurrent (some (c.replace (some old) surface)) := by
        rw [recreate, hneed, hold, hc]
        rfl
      have hvalid : s.Rebinds surface ↔ s.egl.contexts c.context = true ∧
          (egl.surfaces (replaced (some old) surface c.draw)).isSome = true ∧
          (egl.surfaces (replaced (some old) surface c.read)).isSome = true := by
        rw [replaced_valid, replaced_valid, Rebinds, hold]
        grind
      rw [hegl, hc, hold, Option.map_some, hvalid]
      exact Egl.eglMakeCurrent_current rfl _

variable {n : Nat} {fb : FrameBuffer n} {t : Fin n} {w : ObjectId}

def ofWindow (win : OpenglRender.WindowSurface) : WindowSurface :=
  ⟨if win.m_eglSurface = EGL_NO_SURFACE then none else some win.m_eglSurface, win.m_width,
    win.m_height, win.m_pbufWidth, win.m_pbufHeight⟩

def ofCurrent (c : Current) : Option Current := if c = .none then none else some c

/-- What the frame buffer has of the surface and of the calling thread. -/
structure Shows (s : Surface) (fb : FrameBuffer n) (t : Fin n) (w : ObjectId) : Prop where
  win : s.win = ofWindow (fb.window w)
  current : s.egl.current = ofCurrent (fb.current t)

/-- The pbuffer is current. -/
def Bound (fb : FrameBuffer n) (t : Fin n) (w : ObjectId) : Prop :=
  (fb.window w).m_eglSurface ≠ EGL_NO_SURFACE ∧
    ((fb.current t).read = (fb.window w).m_eglSurface ∨
      (fb.current t).draw = (fb.window w).m_eglSurface)

instance : Decidable (Bound fb t w) := inferInstanceAs (Decidable (_ ∧ _))

theorem Shows.needRebindContext (h : s.Shows fb t w) :
    s.needRebindContext = decide (Bound fb t w) := by
  rw [Surface.needRebindContext, h.win, h.current, ofWindow, ofCurrent]
  by_cases hnone : fb.current t = .none
  · grind [Current.none, Bound]
  · grind [Bound]

theorem Shows.sized (h : s.Shows fb t w) :
    s.Sized cbWidth cbHeight ↔ (fb.window w).m_eglSurface ≠ EGL_NO_SURFACE ∧
      (fb.window w).m_pbufWidth = cbWidth ∧ (fb.window w).m_pbufHeight = cbHeight := by
  rw [Sized, h.win, ofWindow]
  grind

theorem resizePbuffer_window {pbuf : EGLSurface} (h : s.Shows fb t w)
    (hs : ¬s.Sized cbWidth cbHeight) (hw : w < fb.windows.length) :
    (fb.resizePbuffer t w cbWidth cbHeight pbuf).1.window w =
      if pbuf = EGL_NO_SURFACE then { fb.window w with m_eglSurface := pbuf }
      else { fb.window w with
        m_eglSurface := pbuf, m_pbufWidth := cbWidth, m_pbufHeight := cbHeight } := by
  have hset : ∀ (fb' : FrameBuffer n) win, fb'.windows = fb.windows →
      (fb'.setWindow w win).window w = win := fun fb' win hwindows => by
    rw [FrameBuffer.window_setWindow, hwindows, if_pos ⟨rfl, hw⟩]
  by_cases hb : Bound fb t w
  · simp only [FrameBuffer.resizePbuffer, if_neg (mt h.sized.mpr hs), if_pos (Bound.eq_def .. ▸ hb)]
    split <;> exact hset _ _ rfl
  · simp only [FrameBuffer.resizePbuffer, if_neg (mt h.sized.mpr hs), if_neg (Bound.eq_def .. ▸ hb)]
    split <;> exact hset _ _ rfl

theorem resizePbuffer_current {pbuf : EGLSurface} (h : s.Shows fb t w)
    (hs : ¬s.Sized cbWidth cbHeight) :
    (fb.resizePbuffer t w cbWidth cbHeight pbuf).1.current t =
      if Bound fb t w then
        if pbuf = EGL_NO_SURFACE then .none
        else (fb.current t).replace (some (fb.window w).m_eglSurface) pbuf
      else fb.current t := by
  by_cases hb : Bound fb t w
  · rw [if_pos hb]
    simp only [FrameBuffer.resizePbuffer, if_neg (mt h.sized.mpr hs), if_pos (Bound.eq_def .. ▸ hb)]
    split
    · simp [FrameBuffer.setWindow, FrameBuffer.eglMakeCurrent, Current.none]
    · simp [FrameBuffer.eglMakeCurrent, Current.replace, replaced]
  · rw [if_neg hb]
    simp only [FrameBuffer.resizePbuffer, if_neg (mt h.sized.mpr hs), if_neg (Bound.eq_def .. ▸ hb)]
    split <;> rfl

theorem recreate_refused : (s.recreate cbWidth cbHeight none).1.egl.current =
    if s.needRebindContext then none else s.egl.current := by
  rw [recreate]
  cases s.win.m_eglSurface <;> cases s.needRebindContext <;> rfl

theorem Shows.recreate_current (h : s.Shows fb t w) (hsurface : surface ≠ EGL_NO_SURFACE)
    (hrebinds : s.Rebinds surface) :
    (s.recreate cbWidth cbHeight (some surface)).1.egl.current = ofCurrent (if Bound fb t w then
      (fb.current t).replace (some (fb.window w).m_eglSurface) surface else fb.current t) := by
  rw [Surface.recreate_current.mpr hrebinds]
  by_cases hb : Bound fb t w
  · rw [if_pos hb, h.win, h.current, ofWindow, if_neg hb.1]
    grind [Bound, ofCurrent, Current.none, Current.replace, replaced]
  · have hneed : s.needRebindContext = false := h.needRebindContext.trans (decide_eq_false hb)
    rw [if_neg hb, ← h.current]
    cases hc : s.egl.current with
    | none => rfl
    | some c => rw [Option.map_some, replace_of_unbound hneed hc]

/-- Where what is bound again is valid, the frame buffer resizes the pbuffer in the same way. -/
theorem Shows.resizePbuffer (h : s.Shows fb t w) (hw : w < fb.windows.length)
    (hanswer : answer ≠ some EGL_NO_SURFACE)
    (hrebinds : ∀ surface, answer = some surface → s.Rebinds surface) :
    (s.resizePbuffer cbWidth cbHeight answer).1.Shows
      (fb.resizePbuffer t w cbWidth cbHeight (answer.getD EGL_NO_SURFACE)).1 t w := by
  rw [Surface.resizePbuffer]
  by_cases hs : s.Sized cbWidth cbHeight
  · rw [if_pos hs, FrameBuffer.resizePbuffer, if_pos (h.sized.mp hs)]
    exact h
  · rw [if_neg hs]
    constructor
    · rw [resizePbuffer_window h hs hw]
      cases answer with
      | none => simp [recreate, h.win, ofWindow]
      | some surface =>
          have hsurface : surface ≠ EGL_NO_SURFACE := fun heq => hanswer (heq ▸ rfl)
          simp [recreate, h.win, ofWindow, hsurface]
    · rw [resizePbuffer_current h hs]
      cases answer with
      | none =>
          rw [recreate_refused, h.needRebindContext, h.current]
          by_cases hb : Bound fb t w <;> simp [hb, ofCurrent]
      | some surface =>
          have hsurface : surface ≠ EGL_NO_SURFACE := fun heq => hanswer (heq ▸ rfl)
          rw [Option.getD_some, if_neg hsurface]
          exact h.recreate_current hsurface (hrebinds surface rfl)

theorem releaseColorBuffer_objects (fb : FrameBuffer n) (old : Option ObjectId) :
    (fb.releaseColorBuffer t old).windows = fb.windows ∧
      (fb.releaseColorBuffer t old).colorBuffers = fb.colorBuffers := by
  unfold FrameBuffer.releaseColorBuffer
  split
  · exact ⟨rfl, rfl⟩
  · split <;> exact ⟨rfl, rfl⟩

theorem Shows.setAttachedColorBuffer (h : s.Shows fb t w) (hw : w < fb.windows.length)
    (cb : Option ObjectId) : s.Shows (fb.setAttachedColorBuffer t w cb) t w := by
  constructor
  · rw [h.win, FrameBuffer.setAttachedColorBuffer]
    conv_rhs => rw [FrameBuffer.window, (releaseColorBuffer_objects ..).1, ← FrameBuffer.window,
      FrameBuffer.window_setWindow, if_pos ⟨rfl, hw⟩]
    rfl
  · rw [h.current, FrameBuffer.setAttachedColorBuffer, FrameBuffer.releaseColorBuffer_current]
    rfl

theorem Shows.setSize (h : s.Shows fb t w) (hw : w < fb.windows.length) (width height : GLuint) :
    Shows { s with win := { s.win with m_width := width, m_height := height } }
      (fb.setWindow w { fb.window w with m_width := width, m_height := height }) t w := by
  constructor
  · rw [FrameBuffer.window_setWindow, if_pos ⟨rfl, hw⟩, h.win]
    rfl
  · exact h.current

/-- Where what is bound again is valid, `setColorBuffer` of the frame buffer does the same. -/
theorem Shows.setColorBuffer {cb : ObjectId} (h : s.Shows fb t w) (hw : w < fb.windows.length)
    (hanswer : answer ≠ some EGL_NO_SURFACE)
    (hrebinds : ∀ surface, answer = some surface → s.Rebinds surface) :
    (s.setColorBuffer (fb.colorBuffer cb).m_width (fb.colorBuffer cb).m_height answer).Shows
      (fb.setColorBuffer t w cb (answer.getD EGL_NO_SURFACE)) t w := by
  have h₁ := h.setAttachedColorBuffer hw (some cb)
  have hobjects := releaseColorBuffer_objects (t := t)
    (fb.setWindow w { fb.window w with m_attachedColorBuffer := some cb })
    (fb.window w).m_attachedColorBuffer
  have hcb : (fb.setAttachedColorBuffer t w (some cb)).colorBuffer cb = fb.colorBuffer cb := by
    rw [FrameBuffer.colorBuffer, FrameBuffer.setAttachedColorBuffer, hobjects.2]
    rfl
  have hw₁ : w < (fb.setAttachedColorBuffer t w (some cb)).windows.length := by
    rw [FrameBuffer.setAttachedColorBuffer, hobjects.1]
    simpa [FrameBuffer.setWindow] using hw
  have hlength : ∀ width height pbuf, w <
      ((fb.setAttachedColorBuffer t w (some cb)).resizePbuffer t w width height pbuf).1.windows.length :=
    fun width height pbuf => by
      unfold FrameBuffer.resizePbuffer
      grind [FrameBuffer.setWindow, FrameBuffer.eglMakeCurrent]
  unfold FrameBuffer.setColorBuffer Surface.setColorBuffer
  generalize fb.setAttachedColorBuffer t w (some cb) = fb₁ at *
  dsimp only
  rw [hcb, h₁.win]
  by_cases hsize : (fb.colorBuffer cb).m_width ≠ (fb₁.window w).m_width ∨
      (fb.colorBuffer cb).m_height ≠ (fb₁.window w).m_height
  · rw [if_pos hsize, ofWindow, if_pos hsize]
    by_cases hpbuf : (fb₁.window w).m_pbufWidth ≠ 0 ∧ (fb₁.window w).m_pbufHeight ≠ 0
    · rw [if_pos hpbuf, if_pos hpbuf]
      exact (h₁.resizePbuffer hw₁ hanswer hrebinds).setSize (hlength ..) ..
    · rw [if_neg hpbuf, if_neg hpbuf]
      exact h₁.setSize hw₁ ..
  · rw [if_neg hsize, ofWindow, if_neg hsize]
    exact h₁

end Surface

end PbufferResize

end AndroidRenderer.OpenglRender
