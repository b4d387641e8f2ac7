import AndroidRenderer.GuestEgl.Objects

/-!
# Threads and their current contexts

A context that is current to a thread has the flag `IS_CURRENT`, which keeps other threads from
making it current. `eglMakeCurrent` sets the flag of the new context and then clears that of
the old one. Where both are the same context, with other surfaces, the context is left current
without its flag. `eglDestroyContext` takes a context away from a thread only where that is
the calling thread and the host lets it. The flag and the threads agree as long as neither
happens.
-/

namespace AndroidRenderer.GuestEgl

namespace Egl

variable {n : Nat} {s s' s'' : Egl n}

def Flagged (s : Egl n) (c : ContextId) : Prop :=
  ∃ context, s.liveContext c = some context ∧ context.isCurrent = true

/-- A context has the flag exactly where it is some thread's current one, and no two threads have
the same. -/
structure Exclusive (s : Egl n) : Prop where
  flag_iff : ∀ c, s.Flagged c ↔ ∃ t, (s.tInfo t).currentContext = some c
  unique : ∀ t t' c, (s.tInfo t).currentContext = some c →
    (s.tInfo t').currentContext = some c → t = t'

/-- Flags and current contexts are what they were. -/
structure SameCurrents (s s' : Egl n) : Prop where
  flagged : ∀ c, s'.Flagged c ↔ s.Flagged c
  current : ∀ t, (s'.tInfo t).currentContext = (s.tInfo t).currentContext

namespace SameCurrents

theorem of_same (h : SameObjects s s') : SameCurrents s s' := by
  refine ⟨fun c => ?_, h.currentContext⟩
  unfold Flagged
  rw [h.liveContext]

theorem exclusive (h : SameCurrents s s') : s'.Exclusive ↔ s.Exclusive := by
  constructor
  · rintro ⟨hflag, hunique⟩
    constructor
    · intro c
      rw [← h.flagged, hflag]
      simp only [h.current]
    · simpa only [h.current] using hunique
  · rintro ⟨hflag, hunique⟩
    constructor
    · simp [h.flagged, h.current, hflag]
    · simpa only [h.current] using hunique

theorem trans (h : SameCurrents s s') (h' : SameCurrents s' s'') : SameCurrents s s'' :=
  ⟨fun c => (h'.flagged c).trans (h.flagged c), fun t => (h'.current t).trans (h.current t)⟩

theorem newContext (s : Egl n) (dpy : EGLDisplay) (share : Option GroupId) (version : EGLint)
    (rcContext : UInt32) : SameCurrents s (s.newContext dpy share version rcContext) := by
  refine ⟨fun c => ?_, fun _ => rfl⟩
  unfold Flagged
  rw [newContext_liveContext]
  split
  · rename_i heq
    constructor
    · simp [EGLContext_t.isCurrent]
    · rintro ⟨context, hcontext, -⟩
      exact absurd (lt_of_liveContext hcontext) (heq ▸ Nat.lt_irrefl _)
  · exact Iff.rfl

end SameCurrents

/-! ## Changes of a current context -/

@[grind =] theorem isCurrent_afterBind (old ctx : Option ContextId) (draw read : Option SurfaceId)
    (c : ContextId) (context : EGLContext_t) :
    (afterBind old ctx draw read c context).isCurrent =
      if old = some c then false else if ctx = some c then true else context.isCurrent := by
  unfold afterBind
  grind [isCurrent_clearCurrent, isCurrent_setCurrent]

variable {t : Fin n} {draw read : Option SurfaceId} {ctx : Option ContextId} {dpy : EGLDisplay}
  {connect host : Bool} {r : Egl n × Bool}

/-- The flags after a thread's current context has been replaced. -/
theorem MadeCurrent.flagged_iff (h : MadeCurrent s s' t draw read ctx) (c : ContextId) :
    s'.Flagged c ↔
      (s.tInfo t).currentContext ≠ some c ∧ (ctx = some c ∨ s.Flagged c) := by
  unfold Flagged
  rw [h.contexts]
  constructor
  · rintro ⟨after, hafter, hcurrent⟩
    obtain ⟨before, hbefore, rfl⟩ := Option.map_eq_some_iff.mp hafter
    grind
  · rintro ⟨hold, hflagged⟩
    have hlive : ∃ before, s.liveContext c = some before ∧
        (ctx = some c ∨ before.isCurrent = true) := by
      rcases hflagged with hctx | ⟨before, hbefore, hcurrent⟩
      · obtain ⟨before, hbefore⟩ := Option.isSome_iff_exists.mp (h.target c hctx)
        exact ⟨before, hbefore, .inl hctx⟩
      · exact ⟨before, hbefore, .inr hcurrent⟩
    grind

/-- A thread takes a context that no other thread has, and gives up another one. -/
theorem Exclusive.madeCurrent (h : s.Exclusive) (hmade : MadeCurrent s s' t draw read ctx)
    (hne : (s.tInfo t).currentContext ≠ ctx)
    (hfree : ∀ c, ctx = some c → ¬s.Flagged c ∨ (s.tInfo t).currentContext = some c) :
    s'.Exclusive := by
  have hunflagged : ∀ c, ctx = some c → ∀ t', (s.tInfo t').currentContext ≠ some c := by
    grind [h.flag_iff]
  constructor
  · intro c
    rw [hmade.flagged_iff, h.flag_iff]
    constructor
    · rintro ⟨hold, hctx | ⟨t', ht'⟩⟩
      · exact ⟨t, hmade.current.trans hctx⟩
      · have hother : t' ≠ t := by
          rintro rfl
          exact hold ht'
        refine ⟨t', ?_⟩
        rw [hmade.others t' hother]
        exact ht'
    · grind [hmade.current, hmade.others, h.unique]
  · grind [hmade.current, hmade.others, h.unique]

theorem checkMakeCurrent_bind_iff :
    s.checkMakeCurrent t dpy draw read ctx = .ok .bind ↔
      s.displayError dpy = none ∧ s.surfaceError draw = .ok none ∧
        s.surfaceError read = .ok none ∧ s.checkContext t draw read ctx = .ok .bind := by
  unfold checkMakeCurrent
  constructor
  · intro h
    split at h
    · cases h
    · rename_i hdisplay
      obtain ⟨drawError, hdraw, h⟩ := Run.bind_eq_ok.mp h
      cases drawError with
      | some error => cases h
      | none =>
          obtain ⟨readError, hread, h⟩ := Run.bind_eq_ok.mp h
          cases readError with
          | some error => cases h
          | none => exact ⟨hdisplay, hdraw, hread, h⟩
  · rintro ⟨hdisplay, hdraw, hread, hcontext⟩
    rw [hdisplay, hdraw, hread]
    exact hcontext

/-- The context that the thread has is bound again for other surfaces. -/
theorem checkContext_current_iff {c : ContextId}
    {context : EGLContext_t} (hcurrent : (s.tInfo t).currentContext = some c)
    (hcontext : s.liveContext c = some context) :
    s.checkContext t draw read (some c) = .ok .bind ↔
      (read ≠ none ∨ draw ≠ none) ∧ ¬(context.draw = draw ∧ context.read = read) := by
  unfold checkContext
  by_cases hsurfaces : read = none ∧ draw = none
  · simp [hsurfaces]
  · have hor : read ≠ none ∨ draw ≠ none := not_and_or.mp hsurfaces
    by_cases hsame : context.draw = draw ∧ context.read = read
    · simp [hsurfaces, hcurrent, context_ok.mpr hcontext, Except.map, hsame]
    · simp [hsurfaces, hcurrent, context_ok.mpr hcontext, Except.map, hsame, hor]

/-- A context that has been made current by `eglMakeCurrent` was not another thread's. -/
theorem Binds.free (h : s.Binds t dpy draw read ctx connect host) (c : ContextId)
    (hc : ctx = some c) :
    ¬s.Flagged c ∨ (s.tInfo t).currentContext = some c := by
  by_cases hcurrent : (s.tInfo t).currentContext = some c
  · exact .inr hcurrent
  · refine .inl ?_
    rintro ⟨context, hcontext, hflag⟩
    obtain ⟨-, -, -, hcheck⟩ := checkMakeCurrent_bind_iff.mp h.checks
    subst hc
    unfold checkContext at hcheck
    split at hcheck
    · cases hcheck
    · split at hcheck
      · cases hcheck
      · simp [context_ok.mpr hcontext, Except.map, hcurrent, hflag] at hcheck

/-- A context that a thread makes current again loses its flag. -/
theorem MadeCurrent.not_exclusive {c : ContextId}
    (h : MadeCurrent s s' t draw read (some c)) (hcurrent : (s.tInfo t).currentContext = some c) :
    ¬s'.Exclusive := by
  intro hex
  have hflag : s'.Flagged c := (hex.flag_iff c).mpr ⟨t, h.current⟩
  exact ((h.flagged_iff c).mp hflag).1 hcurrent

/-- The deletion of a context keeps flags and threads together if no thread has the context. -/
theorem Exclusive.deleteContext_iff {c : ContextId} {context : EGLContext_t} (h : s.Exclusive)
    (hcontext : s.liveContext c = some context) :
    (s.deleteContext c context).Exclusive ↔ ∀ t, (s.tInfo t).currentContext ≠ some c := by
  have hlive : ∀ c', (s.deleteContext c context).liveContext c' =
      if c' = c then none else s.liveContext c' := by
    grind [deleteContext, liveContext_setContext_of_live]
  have htInfo : (s.deleteContext c context).tInfo = s.tInfo := by
    rw [deleteContext, releaseGroup_tInfo]
    rfl
  have hflagged : ∀ c', (s.deleteContext c context).Flagged c' ↔ c' ≠ c ∧ s.Flagged c' := by
    grind [Flagged]
  constructor
  · intro hex t ht
    rw [← htInfo] at ht
    exact ((hflagged c).mp ((hex.flag_iff c).mpr ⟨t, ht⟩)).1 rfl
  · intro hnone
    constructor
    · intro c'
      rw [hflagged, h.flag_iff, htInfo]
      grind
    · rw [htInfo]
      exact h.unique

/-! ## Calls -/

/-- A call of `eglMakeCurrent` for the context that the thread has, with other surfaces, that the
host lets. -/
structure Rebinds (s : Egl n) (t : Fin n) (dpy : EGLDisplay) (draw read : Option SurfaceId)
    (ctx : Option ContextId) (connect host : Bool) : Prop where
  display : s.displayError dpy = none
  drawSurface : s.surfaceError draw = .ok none
  readSurface : s.surfaceError read = .ok none
  surfaces : read ≠ none ∨ draw ≠ none
  current : ctx ≠ none ∧ (s.tInfo t).currentContext = ctx
  others : ∀ context, ctx.bind s.liveContext = some context →
    ¬(context.draw = draw ∧ context.read = read)
  connected : ((s.tInfo t).hostConn || connect) = true
  host : host = true

/-- The calls that bind the context that the thread has already. -/
theorem binds_current_iff (h : s.Exclusive) :
    s.Rebinds t dpy draw read ctx connect host ↔
      s.Binds t dpy draw read ctx connect host ∧ (s.tInfo t).currentContext = ctx := by
  cases ctx with
  | none =>
      refine iff_of_false (fun hrebinds => hrebinds.current.1 rfl) ?_
      rintro ⟨hbinds, hcurrent⟩
      obtain ⟨-, -, -, hcheck⟩ := checkMakeCurrent_bind_iff.mp hbinds.checks
      unfold checkContext at hcheck
      grind
  | some c =>
      constructor
      · intro hrebinds
        obtain ⟨context, hcontext, -⟩ := (h.flag_iff c).mpr ⟨t, hrebinds.current.2⟩
        have hcheck := (checkContext_current_iff hrebinds.current.2 hcontext).mpr
          ⟨hrebinds.surfaces, hrebinds.others context hcontext⟩
        exact ⟨⟨checkMakeCurrent_bind_iff.mpr ⟨hrebinds.display, hrebinds.drawSurface,
          hrebinds.readSurface, hcheck⟩, hrebinds.connected, hrebinds.host⟩, hrebinds.current.2⟩
      · rintro ⟨hbinds, hcurrent⟩
        obtain ⟨hdisplay, hdraw, hread, hcheck⟩ := checkMakeCurrent_bind_iff.mp hbinds.checks
        obtain ⟨context, hcontext, -⟩ := (h.flag_iff c).mpr ⟨t, hcurrent⟩
        obtain ⟨hsurfaces, hothers⟩ := (checkContext_current_iff hcurrent hcontext).mp hcheck
        refine ⟨hdisplay, hdraw, hread, hsurfaces, ⟨by simp, hcurrent⟩, ?_, hbinds.connected,
          hbinds.host⟩
        grind

def KeepsFlags (s : Egl n) : Fin n × Call → Prop
  | (t, .eglMakeCurrent dpy draw read ctx connect host) =>
      ¬s.Rebinds t dpy draw read ctx connect host
  | (t, .eglDestroyContext dpy ctx unbindConnect host connect) =>
      ∀ c, ctx = some c → s.Deletes t dpy c unbindConnect connect →
        (∀ t', t' ≠ t → (s.tInfo t').currentContext ≠ some c) ∧
          ((s.tInfo t).currentContext = some c → s.Unbinds t c unbindConnect host)
  | _ => True

/-- After the first part of `eglDestroyContext` no thread has the context, where the calling
thread's unbind has not failed and no other thread has it. -/
theorem Unbound.exclusive {c : ContextId} {unbindConnect : Bool}
    (h : Unbound s s' t c unbindConnect host) (hex : s.Exclusive) :
    s'.Exclusive ∧ ((∀ t', (s'.tInfo t').currentContext ≠ some c) ↔
      (∀ t', t' ≠ t → (s.tInfo t').currentContext ≠ some c) ∧
        ((s.tInfo t).currentContext = some c → s.Unbinds t c unbindConnect host)) := by
  rcases h with ⟨hunbinds, s₁, hsame, hs'⟩ | ⟨hnot, hsame⟩
  · have hmade := makeCurrent_made hs'
    have hcurrents := SameCurrents.of_same hsame
    have hcurrent : (s₁.tInfo t).currentContext = some c :=
      (hsame.currentContext t).trans hunbinds.current
    refine ⟨(hcurrents.exclusive.mpr hex).madeCurrent hmade (by simp [hcurrent])
      (fun _ heq => nomatch heq), ?_⟩
    constructor
    · intro hnone
      refine ⟨fun t' ht heq => hnone t' ?_, fun _ => hunbinds⟩
      rw [hmade.others t' ht, hsame.currentContext]
      exact heq
    · grind [hmade.current, hmade.others, hsame.currentContext]
  · refine ⟨(SameCurrents.of_same hsame).exclusive.mpr hex, ?_⟩
    simp only [hsame.currentContext]
    grind

/-- The effect of a call on flags and current contexts. -/
def CallKeeps (s : Egl n) (c : Fin n × Call) (r : Egl n × Bool) : Prop :=
  (r.1.Exclusive ↔ s.KeepsFlags c) ∧ (r.2 = false → SameCurrents s r.1)

theorem callKeeps_of_same {c : Fin n × Call} (h : s.Exclusive)
    (hsame : SameCurrents s r.1) (hkeeps : s.KeepsFlags c) : s.CallKeeps c r :=
  ⟨iff_of_true (hsame.exclusive.mpr h) hkeeps, fun _ => hsame⟩

theorem eglMakeCurrent_keeps (h : s.Exclusive)
    (hr : s.eglMakeCurrent t dpy draw read ctx connect host = .ok r) :
    s.CallKeeps (t, .eglMakeCurrent dpy draw read ctx connect host) r := by
  rcases eglMakeCurrent_cases hr with hdeclines | ⟨hbinds, hresult, -, s₁, hsame, hs'⟩
  · refine callKeeps_of_same h (.of_same hdeclines.same) fun hrebinds => ?_
    exact hdeclines.not_binds ((binds_current_iff h).mp hrebinds).1
  · have hmade := makeCurrent_made hs'
    have hcurrents := SameCurrents.of_same hsame
    have hex : s₁.Exclusive := hcurrents.exclusive.mpr h
    refine ⟨?_, fun hfalse => absurd (hresult.symm.trans hfalse) (by simp)⟩
    constructor
    · intro hafter hrebinds
      obtain ⟨hne, hcurrent⟩ := hrebinds.current
      obtain ⟨c, rfl⟩ := Option.ne_none_iff_exists'.mp hne
      exact hmade.not_exclusive ((hsame.currentContext t).trans hcurrent) hafter
    · intro hkeeps
      refine hex.madeCurrent hmade (fun hcurrent => hkeeps ?_) fun c hc => ?_
      · exact (binds_current_iff h).mpr ⟨hbinds, (hsame.currentContext t).symm.trans hcurrent⟩
      · rw [hcurrents.flagged, hcurrents.current]
        exact hbinds.free c hc

theorem eglReleaseThread_keeps (h : s.Exclusive) (hr : s.eglReleaseThread t connect host = .ok r) :
    s.CallKeeps (t, .eglReleaseThread connect host) r := by
  rcases eglReleaseThread_cases hr with hsame | ⟨hresult, hcurrent, s₁, hsame, hs'⟩
  · exact callKeeps_of_same h (.of_same hsame) trivial
  · refine ⟨iff_of_true ?_ trivial, fun hfalse => absurd (hresult.symm.trans hfalse) (by simp)⟩
    refine ((SameCurrents.of_same hsame).exclusive.mpr h).madeCurrent (makeCurrent_made hs') ?_
      (fun _ heq => nomatch heq)
    rw [hsame.currentContext]
    exact hcurrent

theorem eglDestroyContext_keeps {unbindConnect : Bool} (h : s.Exclusive)
    (hr : s.eglDestroyContext t dpy ctx unbindConnect host connect = .ok r) :
    s.CallKeeps (t, .eglDestroyContext dpy ctx unbindConnect host connect) r := by
  rcases eglDestroyContext_cases hr with
    ⟨hsame, hnot⟩ | ⟨c, context, s₂, rfl, hdeletes, rfl, hcontext, hunbound⟩
  · exact callKeeps_of_same h (.of_same hsame) fun c hc hdeletes => absurd hdeletes (hnot c hc)
  · obtain ⟨hex, hnone⟩ := hunbound.exclusive h
    refine ⟨?_, fun hfalse => nomatch hfalse⟩
    rw [hex.deleteContext_iff hcontext, hnone]
    constructor
    · rintro hkeeps c' heq -
      cases heq
      exact hkeeps
    · exact fun hkeeps => hkeeps c rfl hdeletes

/-- The effect of a call where flags and threads agree. -/
theorem call_keeps {c : Call} (h : s.Exclusive)
    (hr : s.call t c = .ok r) : s.CallKeeps (t, c) r := by
  cases c with
  | eglCreateSurface dpy config connect rcSurface =>
      cases hr
      refine callKeeps_of_same h ?_ trivial
      rcases s.eglCreateSurface_cases t dpy config connect rcSurface with
        hsame | ⟨-, s₁, surface, hsame, heq⟩
      · exact .of_same hsame
      · rw [heq]
        exact ⟨(SameCurrents.of_same hsame).flagged, hsame.currentContext⟩
  | eglDestroySurface dpy eglSurface connect =>
      refine callKeeps_of_same h ?_ trivial
      rcases eglDestroySurface_cases hr with ⟨hsame, -⟩ | ⟨d, s₁, -, -, hsame, rfl⟩
      · exact .of_same hsame
      · exact ⟨(SameCurrents.of_same hsame).flagged, hsame.currentContext⟩
  | eglSwapInterval dpy interval connect =>
      refine callKeeps_of_same h ?_ trivial
      rcases eglSwapInterval_cases hr with hsame | ⟨-, d, s₁, before, after, hsame, -, heq⟩
      · exact .of_same hsame
      · rw [heq]
        exact ⟨(SameCurrents.of_same hsame).flagged, hsame.currentContext⟩
  | eglCreateContext dpy config share_context attrib_list connect rcContext =>
      refine callKeeps_of_same h ?_ trivial
      rcases eglCreateContext_cases hr with hsame | ⟨-, s₁, share, hsame, heq, -⟩
      · exact .of_same hsame
      · rw [heq]
        exact (SameCurrents.of_same hsame).trans (.newContext s₁ dpy share _ rcContext)
  | eglMakeCurrent dpy draw read ctx connect host => exact eglMakeCurrent_keeps h hr
  | eglReleaseThread connect host => exact eglReleaseThread_keeps h hr
  | eglDestroyContext dpy ctx unbindConnect host connect => exact eglDestroyContext_keeps h hr

theorem exclusive_initial (k : EGLint) : (initial k : Egl n).Exclusive := by
  constructor
  · intro c
    constructor
    · rintro ⟨context, hcontext, -⟩
      cases hcontext
    · rintro ⟨t, ht⟩
      cases ht
  · intro t t' c ht
    cases ht

/-- As long as no thread binds the context that it has for other surfaces, and no context is
deleted that a thread keeps, flags and threads agree, each context is current to at most one
thread, and a call that fails changes nothing of this. The first call that does is where they
part. -/
theorem exclusive_of_keepsFlags {k : EGLint} (h : Run.Reach step KeepsFlags (initial k) s) :
    s.Exclusive ∧ ∀ t c r, s.call t c = .ok r →
      (r.1.Exclusive ↔ s.KeepsFlags (t, c)) ∧ (r.2 = false → SameCurrents s r.1) := by
  have hex : s.Exclusive := by
    refine h.invariant (I := Exclusive) (exclusive_initial k) ?_
    rintro s₁ ⟨t, c⟩ s₂ hs₁ hkeeps hstep
    obtain ⟨r, hr, rfl⟩ := Run.map_eq_ok.mp hstep
    exact (call_keeps hs₁ hr).1.mpr hkeeps
  exact ⟨hex, fun _ _ _ hr => call_keeps hex hr⟩

/-- Calls that keep flags and threads together whatever the host does. -/
def keepsFlagsTest (s : Egl n) : Fin n × Call → Bool
  | (t, .eglMakeCurrent _ _ _ ctx _ _) => (s.tInfo t).currentContext ≠ ctx || ctx = none
  | (_, .eglDestroyContext _ ctx _ _ _) =>
      decide (∀ t, (s.tInfo t).currentContext = none ∨ (s.tInfo t).currentContext ≠ ctx)
  | _ => true

theorem keepsFlagsTest_sound (s : Egl n) (c : Fin n × Call) (h : s.keepsFlagsTest c = true) :
    s.KeepsFlags c := by
  obtain ⟨t, c⟩ := c
  cases c with
  | eglMakeCurrent dpy draw read ctx connect host =>
      rintro ⟨-, -, -, -, ⟨hne, hcurrent⟩, -⟩
      rcases Bool.or_eq_true_iff.mp h with hother | hnone
      · exact of_decide_eq_true hother hcurrent
      · exact hne (of_decide_eq_true hnone)
  | eglDestroyContext dpy ctx unbindConnect host connect =>
      rintro c rfl -
      have hnot : ∀ t', (s.tInfo t').currentContext ≠ some c := fun t' heq => by
        rcases of_decide_eq_true h t' with hnone | hother
        · exact nomatch heq.symm.trans hnone
        · exact hother heq
      exact ⟨fun t' _ => hnot t', fun heq => absurd heq (hnot t)⟩
  | _ => trivial

/-- A thread makes two surfaces and a context, and makes the context current. -/
def makesCurrent : List (Fin 2 × Call) :=
  [(0, .eglCreateSurface s_display 0 true 5), (0, .eglCreateSurface s_display 0 true 6),
    (0, .eglCreateContext s_display 0 none [] true 7),
    (0, .eglMakeCurrent s_display (some 0) (some 0) (some 0) true true)]

/-- The other thread gets the context once the first thread has given it up. -/
theorem exclusive_of_keepsFlags_run :
    ∃ s : Egl 2, (s.tInfo 1).currentContext = some 0 ∧ s.Exclusive ∧
      ∀ t c r, s.call t c = .ok r →
        (r.1.Exclusive ↔ s.KeepsFlags (t, c)) ∧ (r.2 = false → SameCurrents s r.1) := by
  have hrun : Run.check step keepsFlagsTest (fun s => (s.tInfo 1).currentContext = some 0)
      (initial 1) (makesCurrent ++
        [(1, .eglMakeCurrent s_display (some 1) (some 1) (some 0) true true),
          (0, .eglReleaseThread true true),
          (1, .eglMakeCurrent s_display (some 1) (some 1) (some 0) true true)]) = true := by
    decide +kernel
  obtain ⟨s, hreach, hs⟩ := Run.exists_reach_of_check keepsFlagsTest_sound hrun
  exact ⟨s, of_decide_eq_true hs, exclusive_of_keepsFlags hreach⟩

/-- The first thread makes its context current again with the other surface. The other thread can
then make it current too. -/
theorem rebound_taken :
    ∃ s : Egl 2, Run.Reach step (fun _ _ => True) (initial 1) s ∧
      (s.tInfo 0).currentContext = some 0 ∧ (s.tInfo 1).currentContext = some 0 ∧
      ¬s.Exclusive := by
  have hrun : Run.check step (fun _ _ => true)
      (fun s => (s.tInfo 0).currentContext = some 0 ∧ (s.tInfo 1).currentContext = some 0)
      (initial 1) (makesCurrent ++
        [(0, .eglMakeCurrent s_display (some 1) (some 1) (some 0) true true),
          (1, .eglMakeCurrent s_display (some 0) (some 0) (some 0) true true)]) = true := by
    decide +kernel
  obtain ⟨s, hreach, hs⟩ := Run.exists_reach_of_check (fun _ _ _ => trivial) hrun
  obtain ⟨h₀, h₁⟩ := of_decide_eq_true hs
  exact ⟨s, hreach, h₀, h₁, fun hex => absurd (hex.unique 0 1 0 h₀ h₁) (by decide)⟩

end Egl

end AndroidRenderer.GuestEgl
