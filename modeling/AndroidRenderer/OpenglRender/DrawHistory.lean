import AndroidRenderer.OpenglRender.CurrentContext
import AndroidRenderer.OpenglRender.CurrentSurfaces

/-!
# Flushing window surfaces

A flush makes the surface current for the context that the surface was bound to for drawing. A
guest may give a surface a color buffer and flush it in any order with its bind operations, so
whether there is such a context depends on what was bound before: `DrawHistory` remembers that.
-/

namespace AndroidRenderer.OpenglRender

namespace FrameBuffer

variable {n : Nat} {s s' : FrameBuffer n} {t : Fin n} {w : ObjectId}

/-- What the bind operations so far have done: `bound` are the surfaces that were bound for drawing
and not unbound since, and `last` is the surface that a thread has last bound for drawing. -/
structure DrawHistory (n : Nat) where
  bound : ObjectId → Bool
  last : Fin n → Option ObjectId

namespace DrawHistory

def empty : DrawHistory n := ⟨fun _ => false, fun _ => none⟩

def bind (h : DrawHistory n) (t : Fin n) (d : ObjectId) : DrawHistory n :=
  ⟨Function.update h.bound d true, Function.update h.last t (some d)⟩

/-- The unbind operation of a thread, which may come after another thread has bound the surface. -/
def unbind (h : DrawHistory n) (t : Fin n) : DrawHistory n :=
  match h.last t with
  | some d => { h with bound := Function.update h.bound d false }
  | none => h

/-- The history after a call in the state `s`. -/
def record (h : DrawHistory n) (s : FrameBuffer n) : Fin n × Call → DrawHistory n
  | (t, .bindContext p_context p_drawSurface p_readSurface egl) =>
      if egl then
        match s.bindArguments p_context p_drawSurface p_readSurface with
        | some (some _, some d, _) => h.bind t d
        | some (none, _, _) => h.unbind t
        | _ => h
      else h
  | _ => h

theorem record_other (h : DrawHistory n) (s : FrameBuffer n) (t : Fin n) {call : Call}
    (hother : isBind call = false) : h.record s (t, call) = h := by
  cases call with
  | bindContext => cases hother
  | _ => rfl

end DrawHistory

/-- A surface that is there is bound, by the history, if and only if it has a context. -/
structure Remembers (s : FrameBuffer n) (h : DrawHistory n) : Prop where
  last : ∀ t, h.last t = (s.tinfo t).currDrawSurf
  named : ∀ id w, s.m_windows.get? id = some w → ((s.bindings.draw w).isSome ↔ h.bound w = true)
  beyond : ∀ w, s.windows.length ≤ w → h.bound w = false

/-- A handle of a surface is kept, or its surface is new. -/
theorem step_windows {T T' : Tables} {call : Call} {id : HandleType} (hstep : T.Step call id T') :
    T.windowCount ≤ T'.windowCount ∧ ∀ id w, T'.windows.get? id = some w →
      (∃ id, T.windows.get? id = some w) ∨ T.windowCount ≤ w := by
  have hkept : ∀ id w, T.windows.get? id = some w →
      (∃ id, T.windows.get? id = some w) ∨ T.windowCount ≤ w := fun id _ hget => .inl ⟨id, hget⟩
  cases hstep with
  | createWindowSurface => grind
  | noPbuffer => exact ⟨Nat.le_succ _, hkept⟩
  | DestroyWindowSurface => grind
  | @openColorBuffer p_colorbuffer => grind [Tables.openColorBuffer]
  | @closeColorBuffer p_colorbuffer => grind [Tables.closeColorBuffer]
  | createColorBuffer | createRenderContext | DestroyRenderContext | same =>
      exact ⟨Nat.le_refl _, hkept⟩

/-- A surface that no handle has named yet has no context. -/
theorem draw_beyond (hw : s.windows.length ≤ w) : s.bindings.draw w = none := by
  show (s.window w).m_drawContext = none
  rw [window_of_ge (Nat.not_lt.mpr hw)]
  rfl

/-- What is remembered of the surfaces that handles name after a call, by the state before it. -/
theorem Remembers.later {h : DrawHistory n} {call : Call} (hr : s.Remembers h)
    (hs : s.step (t, call) = .ok s') {id : HandleType} (hget : s'.m_windows.get? id = some w) :
    (s.bindings.draw w).isSome ↔ h.bound w = true := by
  obtain ⟨id', hid'⟩ | hnew := (step_windows (step_tables hs)).2 id w hget
  · exact hr.named id' w hid'
  · rw [draw_beyond hnew, hr.beyond w hnew]
    exact iff_of_false Bool.false_ne_true Bool.false_ne_true

/-- An unbind operation clears the surface that the thread has last bound for drawing. -/
theorem Remembers.unbound {h : DrawHistory n} (hr : s.Remembers h) (hwell : s.WellBound)
    (hunbound : s.Unbound s' t) (htables : s'.tables = s.tables) : s'.Remembers (h.unbind t) := by
  have hlast : ∀ t', h.last t' = (s'.tinfo t').currDrawSurf := by
    grind [hr.last, hunbound.draw, hunbound.others]
  have hwindows := windows_of_tables htables
  have hcount : s'.windows.length = s.windows.length := congrArg Tables.windowCount htables
  have hboth := hwell.both t
  have hsurfaces := hunbound.surfaces
  rw [DrawHistory.unbind, hr.last t]
  cases hdraw : (s.tinfo t).currDrawSurf with
  | none =>
      rw [hdraw] at hsurfaces
      refine ⟨hlast, fun id w hget => ?_, fun w hw => hr.beyond w (hcount ▸ hw)⟩
      rw [hsurfaces]
      exact hr.named id w (hwindows ▸ hget)
  | some d =>
      rw [hdraw, Option.isSome_some, eq_comm, Option.isSome_iff_exists] at hboth
      obtain ⟨r, hread⟩ := hboth
      rw [hdraw, hread] at hsurfaces
      have hclear := Bindings.without_clear s.bindings d
      refine ⟨hlast, fun id w hget => ?_, fun w hw => ?_⟩
      · rw [hsurfaces]
        show _ ↔ Function.update h.bound d false w = true
        by_cases hw : w = d
        · rw [hw, show (s.bindings.unbind (some d) (some r)).draw d = none from
            (hclear.gone d rfl).1, Function.update_self]
          exact iff_of_false Bool.false_ne_true Bool.false_ne_true
        · rw [show (s.bindings.unbind (some d) (some r)).draw w = s.bindings.draw w from
            (hclear.kept w hw).1, Function.update_of_ne hw]
          exact hr.named id w (hwindows ▸ hget)
      · show Function.update h.bound d false w = false
        grind [hr.beyond]

/-- A bind operation sets the context of the surface that it binds for drawing. -/
theorem Remembers.rebound {h : DrawHistory n} {c d r : ObjectId} (hr : s.Remembers h)
    (hd : d < s.windows.length) (hrebound : s.Rebound s' t c d r) (htables : s'.tables = s.tables) :
    s'.Remembers (h.bind t d) := by
  have hwindows := windows_of_tables htables
  have hcount : s'.windows.length = s.windows.length := congrArg Tables.windowCount htables
  refine ⟨fun t' => ?_, fun id w hget => ?_, fun w hw => ?_⟩
  · by_cases ht' : t' = t
    · rw [ht', hrebound.draw]
      exact Function.update_self _ _ _
    · rw [hrebound.others t' ht', ← hr.last t']
      exact Function.update_of_ne ht' _ _
  · rw [hwindows] at hget
    have hkept := (hrebound.surfaces.kept w fun hlost => hlost.only.unnamed id hget).1
    rw [hkept]
    show (Function.update s.bindings.draw d (some c) w).isSome ↔
      Function.update h.bound d true w = true
    grind [hr.named]
  · rw [hcount] at hw
    have hne : w ≠ d := fun heq => absurd hd (by rw [← heq]; exact Nat.not_lt.mpr hw)
    show Function.update h.bound d true w = false
    rw [Function.update_of_ne hne]
    exact hr.beyond w hw

theorem Remembers.step {h : DrawHistory n} {call : Fin n × Call} (hwell : s.WellBound)
    (hr : s.Remembers h) (hs : s.step call = .ok s') : s'.Remembers (h.record s call) := by
  obtain ⟨t, call⟩ := call
  have hcount : s.windows.length ≤ s'.windows.length := (step_windows (step_tables hs)).1
  by_cases hbind : isBind call = false
  · rw [h.record_other s t hbind]
    have hkeeps := step_keepsSurfaces hs hbind
    refine ⟨fun t' => ?_, fun id w hget => ?_, fun w hw => hr.beyond w (Nat.le_trans hcount hw)⟩
    · rw [hkeeps.tinfo]
      exact hr.last t'
    · have hlater := hr.later hs hget
      obtain hsame | ⟨w', hunnamed, hclear⟩ := hkeeps.bindings
      · grind
      · have hne : w ≠ w' := fun heq => hunnamed id (heq ▸ hget)
        rw [hclear, ((Bindings.without_clear s.bindings w').kept w hne).1]
        exact hlater
  · cases call with
    | bindContext p_context p_drawSurface p_readSurface egl =>
        cases hs
        have htables := bindContext_tables s t p_context p_drawSurface p_readSurface egl
        rw [DrawHistory.record]
        obtain ⟨hsame, hrefused⟩ | ⟨rfl, hargs, hunbound⟩ |
            ⟨rfl, c, d, r, hargs, hnames, hrebound⟩ :=
          bindContext_outcome hwell.there t p_context p_drawSurface p_readSurface egl
        · grind
        · grind [hr.unbound]
        · rw [if_pos rfl, hargs]
          exact hr.rebound (hwell.there _ _ hnames.draw) hrebound htables
    | _ => exact absurd rfl hbind

/-- A flush uses a null pointer exactly if the surface has a color buffer of its size, and no
context. -/
theorem flush_nullPointer_iff (s : FrameBuffer n) (t : Fin n) (p_surface : HandleType) :
    s.flushWindowSurfaceColorBuffer t p_surface = .error .nullPointer ↔
      s.FlushesWithoutContext p_surface := by
  constructor
  · intro h
    by_contra hnot
    obtain ⟨s', hs', -⟩ := (flushWindowSurfaceColorBuffer_endsWith_iff s t p_surface).mpr hnot
    rw [h] at hs'
    cases hs'
  · rintro ⟨w, cb, hw, hcb, hempty, hwidth, hheight, hnone⟩
    have hsize : ¬((s.colorBuffer cb).m_width ≠ (s.window w).m_width ∨
        (s.colorBuffer cb).m_height ≠ (s.window w).m_height) := by grind
    rw [flushWindowSurfaceColorBuffer, hw]
    simp [flushColorBuffer, blitToColorBuffer, hcb, hempty, hsize, hnone]

/-! ## Runs -/

/-- The frame buffer, and what the bind operations so far have done. -/
structure Remembered (n : Nat) where
  fb : FrameBuffer n
  history : DrawHistory n

def Remembered.step (x : Remembered n) (call : Fin n × Call) : Except CallFault (Remembered n) :=
  (x.fb.step call).map fun fb => ⟨fb, x.history.record x.fb call⟩

def Remembered.initial (eglContext : EGLContext) (pbufSurface : EGLSurface) : Remembered n :=
  ⟨FrameBuffer.initial eglContext pbufSurface, .empty⟩

/-- The surface has a color buffer of its size, which is not empty. -/
def HasColorBuffer (s : FrameBuffer n) (w : ObjectId) : Prop :=
  ∃ cb, (s.window w).m_attachedColorBuffer = some cb ∧
    ¬((s.window w).m_width = 0 ∧ (s.window w).m_height = 0) ∧
    (s.colorBuffer cb).m_width = (s.window w).m_width ∧
    (s.colorBuffer cb).m_height = (s.window w).m_height

/-- In every state that is reached, a flush uses no null pointer if and only if its surface has no
color buffer to be flushed to, or was bound for drawing and not unbound since. -/
theorem flush_nullPointer {x : Remembered n} {eglContext : EGLContext} {pbufSurface : EGLSurface}
    (h : Run.Reach Remembered.step (fun _ _ => True) (.initial eglContext pbufSurface) x) (t : Fin n)
    (p_surface : HandleType) :
    x.fb.flushWindowSurfaceColorBuffer t p_surface ≠ .error .nullPointer ↔
      ∀ w, x.fb.m_windows.get? p_surface = some w → x.fb.HasColorBuffer w →
        x.history.bound w = true := by
  have hinv : x.fb.WellBound ∧ x.fb.Remembers x.history := by
    refine h.invariant (I := fun x => x.fb.WellBound ∧ x.fb.Remembers x.history)
      ⟨wellBound_initial eglContext pbufSurface, ⟨fun _ => rfl, fun _ _ h => (nomatch h),
        fun _ _ => rfl⟩⟩ ?_
    intro y call y' hy _ hstep
    obtain ⟨fb, hfb, rfl⟩ := Run.map_eq_ok.mp hstep
    exact ⟨hy.1.step hfb, hy.2.step hy.1 hfb⟩
  rw [ne_eq, flush_nullPointer_iff]
  constructor
  · rintro hflush w hw ⟨cb, hcb, hempty, hwidth, hheight⟩
    rw [← hinv.2.named p_surface w hw, Option.isSome_iff_ne_none]
    exact fun hnone => hflush ⟨w, cb, hw, hcb, hempty, hwidth, hheight, hnone⟩
  · rintro hbound ⟨w, cb, hw, hcb, hempty, hwidth, hheight, hnone⟩
    have hdraw := (hinv.2.named p_surface w hw).mpr (hbound w hw ⟨cb, hcb, hempty, hwidth, hheight⟩)
    rw [show x.fb.bindings.draw w = none from hnone] at hdraw
    cases hdraw

/-- A surface with a color buffer that a thread draws to. -/
def drawnSurface : List (Fin 1 × Call) :=
  [.own (.createColorBuffer 1 1 GL_RGBA), .createWindowSurface true 1 1 8,
    .createRenderContext true 0 false 7, .setWindowSurfaceColorBuffer 2 1 0,
    .bindContext 3 2 2 true].map (Prod.mk (Fin.last 0))

theorem drawnSurface_check :
    Run.check Remembered.step (fun _ _ => true)
      (fun x => x.history.bound 0 = true && x.fb.m_windows.get? 2 = some 0) (.initial 1 2)
      drawnSurface = true := by
  decide +kernel

theorem flush_nullPointer_drawn :
    ∃ x : Remembered 1, x.history.bound 0 = true ∧
      x.fb.flushWindowSurfaceColorBuffer 0 2 ≠ .error .nullPointer := by
  obtain ⟨x, hreach, hx⟩ :=
    Run.exists_reach_of_check (fun _ _ _ => trivial) drawnSurface_check
  rw [Bool.and_eq_true, decide_eq_true_eq, decide_eq_true_eq] at hx
  refine ⟨x, hx.1, (flush_nullPointer hreach 0 2).mpr fun w hw _ => ?_⟩
  rw [hx.2] at hw
  rw [← Option.some.inj hw]
  exact hx.1

/-- Whether a flush uses a null pointer. -/
def flushFails (s : FrameBuffer n) (t : Fin n) (p_surface : HandleType) : Bool :=
  match s.flushWindowSurfaceColorBuffer t p_surface with
  | .error .nullPointer => true
  | _ => false

theorem undrawn_check :
    Run.check FrameBuffer.step (fun _ _ => true) (fun s => s.flushFails (Fin.last 0) 2)
      (FrameBuffer.initial 1 2) (drawnSurface.take 4) = true := by
  decide +kernel

/-- The surface is given a color buffer and flushed before it is bound. -/
theorem flush_before_bind :
    ∃ s : FrameBuffer 1, Run.Reach FrameBuffer.step (fun _ _ => True) (FrameBuffer.initial 1 2) s ∧
      s.flushWindowSurfaceColorBuffer (Fin.last 0) 2 = .error .nullPointer := by
  obtain ⟨s, hreach, hs⟩ :=
    Run.exists_reach_of_check (fun _ _ _ => trivial) undrawn_check
  refine ⟨s, hreach, ?_⟩
  unfold flushFails at hs
  split at hs
  · assumption
  · cases hs

end FrameBuffer

end AndroidRenderer.OpenglRender
