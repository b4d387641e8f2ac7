import AndroidRenderer.GuestEgl.Egl
import Mathlib.Data.List.GetD

/-!
# What calls do to contexts and threads

Each call leaves the objects, the current contexts and the encoders as they are, or does one
of a few things to them.
-/

namespace AndroidRenderer.GuestEgl

namespace Egl

variable {n : Nat} {s s' s'' : Egl n}

/-! ## The flag of a context -/

/-- A bit that has been set is found. -/
theorem or_and_cancel (x m : UInt32) : (x ||| m) &&& m = m := by
  apply UInt32.toBitVec_inj.mp
  rw [UInt32.toBitVec_and, UInt32.toBitVec_or]
  grind

@[simp] theorem isCurrent_setCurrent (context : EGLContext_t) (draw read : Option SurfaceId) :
    (context.setCurrent draw read).isCurrent = true := by
  rw [EGLContext_t.isCurrent, EGLContext_t.setCurrent, or_and_cancel]
  rfl

@[simp] theorem isCurrent_clearCurrent (context : EGLContext_t) :
    context.clearCurrent.isCurrent = false := by
  rw [EGLContext_t.isCurrent, EGLContext_t.clearCurrent, UInt32.and_assoc, UInt32.not_and_self,
    UInt32.and_zero]
  rfl

/-! ## Objects and threads after changes -/

/-- What is found in a table of objects after one of them has been replaced or deleted. -/
theorem join_getElem?_set {α : Type} (objects : List (Option α)) (i j : Nat) (object : Option α) :
    (objects.set i object)[j]?.join =
      if j = i ∧ i < objects.length then object else objects[j]?.join := by
  rw [List.getElem?_set]
  grind

theorem liveContext_setContext (s : Egl n) (c c' : ContextId) (context : Option EGLContext_t) :
    (s.setContext c context).liveContext c' =
      if c' = c ∧ c < s.contexts.length then context else s.liveContext c' :=
  join_getElem?_set s.contexts c c' context

theorem liveSurface_setSurface (s : Egl n) (d d' : SurfaceId) (surface : Option egl_surface_t) :
    (s.setSurface d surface).liveSurface d' =
      if d' = d ∧ d < s.surfaces.length then surface else s.liveSurface d' :=
  join_getElem?_set s.surfaces d d' surface

variable {c : ContextId} {context : EGLContext_t} {t : Fin n} {draw read : Option SurfaceId}
  {ctx : Option ContextId} {dpy : EGLDisplay} {host unbindConnect : Bool} {r : Egl n × Bool}

theorem lt_of_liveContext (h : s.liveContext c = some context) : c < s.contexts.length := by
  by_contra hlt
  grind [liveContext]

/-- A context that is alive is replaced, or deleted. -/
theorem liveContext_setContext_of_live {before : EGLContext_t}
    (h : s.liveContext c = some before) (context : Option EGLContext_t) (c' : ContextId) :
    (s.setContext c context).liveContext c' = if c' = c then context else s.liveContext c' := by
  rw [liveContext_setContext]
  simp [lt_of_liveContext h]

@[grind =] theorem newContext_liveContext (s : Egl n) (dpy : EGLDisplay) (share : Option GroupId)
    (version : EGLint) (rcContext : UInt32) (c : ContextId) :
    (s.newContext dpy share version rcContext).liveContext c =
      if c = s.contexts.length then
        some ⟨0, dpy, none, none, version, rcContext, share.getD s.groups⟩
      else s.liveContext c := by
  unfold liveContext newContext
  grind

theorem context_ok :
    s.context c = .ok context ↔ s.liveContext c = some context := by
  unfold Egl.context
  cases s.liveContext c <;> simp

theorem surface_ok {d : SurfaceId} {surface : egl_surface_t} :
    s.surface d = .ok surface ↔ s.liveSurface d = some surface := by
  unfold Egl.surface
  cases s.liveSurface d <;> simp

@[simp, grind =] theorem setTInfo_tInfo (s : Egl n) (t : Fin n) (info : EGLThreadInfo) :
    (s.setTInfo t info).tInfo t = info := if_pos rfl

@[grind =] theorem setTInfo_tInfo_ne (s : Egl n) {t' : Fin n} (info : EGLThreadInfo) (h : t' ≠ t) :
    (s.setTInfo t info).tInfo t' = s.tInfo t' := if_neg h

@[simp] theorem releaseGroup_contexts (s : Egl n) (g : Option GroupId) :
    (s.releaseGroup g).contexts = s.contexts := by
  unfold releaseGroup
  grind

@[simp] theorem releaseGroup_surfaces (s : Egl n) (g : Option GroupId) :
    (s.releaseGroup g).surfaces = s.surfaces := by
  unfold releaseGroup
  grind

@[simp] theorem releaseGroup_tInfo (s : Egl n) (g : Option GroupId) :
    (s.releaseGroup g).tInfo = s.tInfo := by
  unfold releaseGroup
  grind

@[simp, grind =] theorem releaseGroup_liveContext (s : Egl n) (g : Option GroupId) (c : ContextId) :
    (s.releaseGroup g).liveContext c = s.liveContext c := by
  rw [liveContext, releaseGroup_contexts, liveContext]

/-- The encoders of a version are those of the versions that are 2 as well, or not either. -/
theorem encoder_setEncoder (info : EGLThreadInfo) (v v' : EGLint) (enc : Encoder) :
    (info.setEncoder v enc).encoder v' =
      if (v' = 2 ↔ v = 2) then enc else info.encoder v' := by
  unfold EGLThreadInfo.setEncoder EGLThreadInfo.encoder
  by_cases hv : v = 2 <;> by_cases hv' : v' = 2 <;> simp [hv, hv']

@[simp] theorem setEncoder_currentContext (info : EGLThreadInfo) (v : EGLint) (enc : Encoder) :
    (info.setEncoder v enc).currentContext = info.currentContext := by
  unfold EGLThreadInfo.setEncoder
  split <;> rfl

@[simp] theorem setEncoder_hostConn (info : EGLThreadInfo) (v : EGLint) (enc : Encoder) :
    (info.setEncoder v enc).hostConn = info.hostConn := by
  unfold EGLThreadInfo.setEncoder
  split <;> rfl

@[simp] theorem setEncoder_liveContext (s : Egl n) (t : Fin n) (v : EGLint) (enc : Encoder)
    (c : ContextId) : (s.setEncoder t v enc).liveContext c = s.liveContext c := by
  rw [setEncoder, releaseGroup_liveContext]
  rfl

theorem setEncoder_tInfo (s : Egl n) (t : Fin n) (v : EGLint) (enc : Encoder) :
    (s.setEncoder t v enc).tInfo = (s.setTInfo t ((s.tInfo t).setEncoder v enc)).tInfo := by
  rw [setEncoder, releaseGroup_tInfo]

/-! ## Calls that change no object -/

/-- Objects, current contexts and encoders are what they were. -/
structure SameObjects (s s' : Egl n) : Prop where
  contexts : s'.contexts = s.contexts
  surfaces : s'.surfaces = s.surfaces
  groups : s'.groups = s.groups
  freedGroups : s'.freedGroups = s.freedGroups
  currentContext : ∀ t, (s'.tInfo t).currentContext = (s.tInfo t).currentContext
  encoder : ∀ t v, (s'.tInfo t).encoder v = (s.tInfo t).encoder v
  initialized : s'.initialized = s.initialized

namespace SameObjects

theorem refl (s : Egl n) : SameObjects s s :=
  ⟨rfl, rfl, rfl, rfl, fun _ => rfl, fun _ _ => rfl, rfl⟩

theorem trans (h : SameObjects s s') (h' : SameObjects s' s'') : SameObjects s s'' :=
  ⟨h'.contexts.trans h.contexts, h'.surfaces.trans h.surfaces, h'.groups.trans h.groups,
    h'.freedGroups.trans h.freedGroups,
    fun t => (h'.currentContext t).trans (h.currentContext t),
    fun t v => (h'.encoder t v).trans (h.encoder t v), h'.initialized.trans h.initialized⟩

theorem liveContext (h : SameObjects s s') (c : ContextId) :
    s'.liveContext c = s.liveContext c := by
  rw [Egl.liveContext, h.contexts, Egl.liveContext]

theorem liveSurface (h : SameObjects s s') (d : SurfaceId) :
    s'.liveSurface d = s.liveSurface d := by
  rw [Egl.liveSurface, h.surfaces, Egl.liveSurface]

theorem setTInfo {info : EGLThreadInfo}
    (hcurrent : info.currentContext = (s.tInfo t).currentContext)
    (hencoder : ∀ v, info.encoder v = (s.tInfo t).encoder v) :
    SameObjects s (s.setTInfo t info) := by
  refine ⟨rfl, rfl, rfl, rfl, fun t' => ?_, fun t' v => ?_, rfl⟩
  · grind
  · grind

theorem errorReturn (s : Egl n) (t : Fin n) (error : EGLint) :
    SameObjects s (s.errorReturn t error).1 :=
  setTInfo rfl fun _ => rfl

theorem hostConnection {connect : Bool} (h : s.hostConnection t connect = some s') :
    SameObjects s s' := by
  unfold Egl.hostConnection at h
  split at h
  · cases h
    exact .refl s
  · split at h
    · cases h
      exact setTInfo rfl fun _ => rfl
    · cases h

end SameObjects

theorem hostConn_of_hostConnection {connect : Bool}
    (h : s.hostConnection t connect = some s') : (s'.tInfo t).hostConn = true := by
  unfold hostConnection at h
  grind

theorem hostConnection_isSome (s : Egl n) (t : Fin n) (connect : Bool) :
    (s.hostConnection t connect).isSome = ((s.tInfo t).hostConn || connect) := by
  unfold hostConnection
  cases (s.tInfo t).hostConn <;> cases connect <;> rfl

/-! ## `eglMakeCurrent` -/

/-- What becomes of a context when a thread's current context is replaced: the new one is bound
first, and the flag of the old one is cleared after that. -/
def afterBind (old ctx : Option ContextId) (draw read : Option SurfaceId) (c : ContextId)
    (context : EGLContext_t) : EGLContext_t :=
  let context := if ctx = some c then context.setCurrent draw read else context
  if old = some c then context.clearCurrent else context

/-- What an encoder holds when a thread's current context is replaced: the new one's data, or
none, in the encoder of the version of the new context or of the old one. -/
def encoderAfter (s : Egl n) (info : EGLThreadInfo) (ctx : Option ContextId) (v : EGLint) :
    Encoder :=
  ((ctx.or info.currentContext).bind s.liveContext).elim (info.encoder v) fun context =>
    if v = 2 ↔ context.version = 2 then ⟨ctx, ctx.map fun _ => context.sharedGroup⟩
    else info.encoder v

/-- The effect of a thread's change of its current context. -/
structure MadeCurrent (s s' : Egl n) (t : Fin n) (draw read : Option SurfaceId)
    (ctx : Option ContextId) : Prop where
  contexts : ∀ c, s'.liveContext c =
    (s.liveContext c).map (afterBind (s.tInfo t).currentContext ctx draw read c)
  target : ∀ c, ctx = some c → (s.liveContext c).isSome
  old : ∀ c, (s.tInfo t).currentContext = some c → (s.liveContext c).isSome
  surfaces : s'.surfaces = s.surfaces
  current : (s'.tInfo t).currentContext = ctx
  encoder : ∀ v, (s'.tInfo t).encoder v = s.encoderAfter (s.tInfo t) ctx v
  hostConn : (s'.tInfo t).hostConn = (s.tInfo t).hostConn
  others : ∀ t', t' ≠ t → s'.tInfo t' = s.tInfo t'

/-- The first half of the change, with the encoder it sets. -/
structure Bound (s s' : Egl n) (t : Fin n) (draw read : Option SurfaceId)
    (ctx : Option ContextId) : Prop where
  contexts : ∀ c, s'.liveContext c =
    (s.liveContext c).map fun context =>
      if ctx = some c then context.setCurrent draw read else context
  target : ∀ c, ctx = some c → (s.liveContext c).isSome
  surfaces : s'.surfaces = s.surfaces
  current : (s'.tInfo t).currentContext = (s.tInfo t).currentContext
  encoder : ∀ v, (s'.tInfo t).encoder v = s.encoderAfter (s.tInfo t) ctx v
  hostConn : (s'.tInfo t).hostConn = (s.tInfo t).hostConn
  others : ∀ t', t' ≠ t → s'.tInfo t' = s.tInfo t'

theorem bindContext_bound
    (h : s.bindContext t draw read c = .ok s') : Bound s s' t draw read (some c) := by
  obtain ⟨context, hcontext, hs⟩ := Run.bind_eq_ok.mp h
  rw [context_ok] at hcontext
  cases hs
  constructor
  · intro c'
    rw [setEncoder_liveContext, liveContext_setContext_of_live hcontext]
    split
    · grind
    · rename_i hne
      cases s.liveContext c' with
      | none => rfl
      | some context' => rw [Option.map_some, if_neg fun heq => hne (Option.some.inj heq).symm]
  · simp [hcontext]
  · rw [setEncoder, releaseGroup_surfaces]
    rfl
  · rw [setEncoder_tInfo, setTInfo_tInfo, setEncoder_currentContext]
    rfl
  · intro v
    rw [setEncoder_tInfo, setTInfo_tInfo, encoder_setEncoder, encoderAfter, Option.some_or,
      Option.bind_some, hcontext]
    rfl
  · rw [setEncoder_tInfo, setTInfo_tInfo, setEncoder_hostConn]
    rfl
  · intro t' ht
    rw [setEncoder_tInfo, setTInfo_tInfo_ne _ _ ht]
    rfl

theorem releaseContext_bound {old : ContextId}
    (hold : (s.tInfo t).currentContext = some old) (h : s.releaseContext t old = .ok s')
    (draw read : Option SurfaceId) : Bound s s' t draw read none := by
  obtain ⟨context, hcontext, hs⟩ := Run.bind_eq_ok.mp h
  rw [context_ok] at hcontext
  cases hs
  constructor
  · simp
  · intro c heq
    cases heq
  · rw [setEncoder, releaseGroup_surfaces]
    rfl
  · rw [setEncoder_tInfo, setTInfo_tInfo, setEncoder_currentContext]
  · intro v
    rw [setEncoder_tInfo, setTInfo_tInfo, encoder_setEncoder, encoderAfter, Option.none_or, hold,
      Option.bind_some, hcontext]
    rfl
  · rw [setEncoder_tInfo, setTInfo_tInfo, setEncoder_hostConn]
  · intro t' ht
    rw [setEncoder_tInfo, setTInfo_tInfo_ne _ _ ht]

theorem bindNew_bound (h : s.bindNew t draw read ctx = .ok s') : Bound s s' t draw read ctx := by
  unfold bindNew at h
  grind [bindContext_bound, releaseContext_bound]

theorem clearOld_contexts (h : s.clearOld t = .ok s') :
    (∀ c, s'.liveContext c = (s.liveContext c).map fun context =>
      if (s.tInfo t).currentContext = some c then context.clearCurrent else context) ∧
    (∀ c, (s.tInfo t).currentContext = some c → (s.liveContext c).isSome) ∧
    s'.surfaces = s.surfaces ∧ s'.tInfo = s.tInfo := by
  unfold clearOld at h
  split at h
  · rename_i old hold
    obtain ⟨context, hcontext, hs⟩ := Run.bind_eq_ok.mp h
    rw [context_ok] at hcontext
    cases hs
    refine ⟨fun c => ?_, fun c heq => ?_, rfl, rfl⟩
    · rw [liveContext_setContext_of_live hcontext, hold]
      split
      · grind
      · rename_i hne
        cases s.liveContext c with
        | none => rfl
        | some context' => rw [Option.map_some, if_neg fun heq => hne (Option.some.inj heq).symm]
    · grind
  · rename_i hold
    cases h
    simp [hold]

theorem makeCurrent_made
    (h : s.makeCurrent t draw read ctx = .ok s') : MadeCurrent s s' t draw read ctx := by
  obtain ⟨s₁, hbind, h⟩ := Run.bind_eq_ok.mp h
  obtain ⟨s₂, hclear, h⟩ := Run.bind_eq_ok.mp h
  have hbound := bindNew_bound hbind
  obtain ⟨hcontexts, hlive, hsurfaces, htInfo⟩ := clearOld_contexts hclear
  cases h
  constructor
  · intro c
    have hunset : (s₂.setTInfo t { s₂.tInfo t with currentContext := ctx }).liveContext c =
        s₂.liveContext c := rfl
    rw [hunset, hcontexts, hbound.contexts, hbound.current, Option.map_map]
    rfl
  · exact hbound.target
  · grind [hbound.contexts, hbound.current]
  · exact hsurfaces.trans hbound.surfaces
  · rw [setTInfo_tInfo]
  · intro v
    rw [setTInfo_tInfo, ← hbound.encoder, ← htInfo]
    rfl
  · rw [setTInfo_tInfo, ← hbound.hostConn, ← htInfo]
  · intro t' ht
    rw [setTInfo_tInfo_ne _ _ ht, htInfo, hbound.others t' ht]

/-- A call of `eglMakeCurrent` that reaches the local bind. -/
structure Binds (s : Egl n) (t : Fin n) (dpy : EGLDisplay) (draw read : Option SurfaceId)
    (ctx : Option ContextId) (connect host : Bool) : Prop where
  checks : s.checkMakeCurrent t dpy draw read ctx = .ok .bind
  connected : ((s.tInfo t).hostConn || connect) = true
  host : host = true

/-- A call of `eglMakeCurrent` that changes no object. -/
structure Declines (s s' : Egl n) (t : Fin n) (dpy : EGLDisplay) (draw read : Option SurfaceId)
    (ctx : Option ContextId) (connect host : Bool) : Prop where
  same : SameObjects s s'
  not_binds : ¬s.Binds t dpy draw read ctx connect host
  hostConn : s.checkMakeCurrent t dpy draw read ctx = .ok .bind →
    (s'.tInfo t).hostConn = ((s.tInfo t).hostConn || connect)

theorem Declines.of_check {connect : Bool} {check : BindCheck} (hsame : SameObjects s s')
    (hcheck : s.checkMakeCurrent t dpy draw read ctx = .ok check) (hne : check ≠ .bind) :
    Declines s s' t dpy draw read ctx connect host := by
  have hnot : s.checkMakeCurrent t dpy draw read ctx ≠ .ok .bind := by grind
  exact ⟨hsame, fun hbinds => hnot hbinds.checks, fun hbind => absurd hbind hnot⟩

theorem eglMakeCurrent_cases {connect : Bool}
    (h : s.eglMakeCurrent t dpy draw read ctx connect host = .ok r) :
    Declines s r.1 t dpy draw read ctx connect host ∨
      (s.Binds t dpy draw read ctx connect host ∧ r.2 = true ∧
        (r.1.tInfo t).hostConn = true ∧
        ∃ s₁, SameObjects s s₁ ∧ s₁.makeCurrent t draw read ctx = .ok r.1) := by
  obtain ⟨check, hcheck, h⟩ := Run.bind_eq_ok.mp h
  cases check with
  | error error =>
      cases h
      exact .inl (.of_check (.errorReturn s t error) hcheck (by simp))
  | noChange =>
      cases h
      exact .inl (.of_check (.refl s) hcheck (by simp))
  | bind =>
      have hconnected := s.hostConnection_isSome t connect
      dsimp only at h
      cases hcon : s.hostConnection t connect with
      | none =>
          rw [hcon] at h hconnected
          cases h
          refine .inl ⟨.refl s, fun hbinds => ?_, fun _ => ?_⟩
          · exact absurd (hconnected.trans hbinds.connected) (by simp)
          · grind
      | some s₁ =>
          rw [hcon] at h hconnected
          have hsame := SameObjects.hostConnection hcon
          cases host with
          | false =>
              cases h
              refine .inl ⟨hsame.trans (.errorReturn s₁ t _), fun hbinds => ?_, fun _ => ?_⟩
              · exact absurd hbinds.host (by simp)
              · grind [errorReturn, setError, hostConn_of_hostConnection]
          | true =>
              obtain ⟨s', hs', h⟩ := Run.bind_eq_ok.mp h
              cases h
              have hconn := (makeCurrent_made hs').hostConn
              exact .inr ⟨⟨hcheck, hconnected.symm, rfl⟩, rfl,
                hconn.trans (hostConn_of_hostConnection hcon), s₁, hsame, hs'⟩

theorem checkMakeCurrent_none (hdisplay : s.displayError dpy = none)
    (hcurrent : (s.tInfo t).currentContext = some c) :
    s.checkMakeCurrent t dpy none none none = .ok .bind := by
  rw [checkMakeCurrent, hdisplay]
  simp [surfaceError, checkContext, hcurrent, bind, Except.bind]

/-- Whether a thread's current context can be unbound depends on the host only. -/
theorem binds_none_iff {connect : Bool}
    (hdisplay : s.displayError dpy = none) (hcurrent : (s.tInfo t).currentContext = some c) :
    s.Binds t dpy none none none connect host ↔
      ((s.tInfo t).hostConn || connect) = true ∧ host = true := by
  constructor
  · rintro ⟨-, hconnected, hhost⟩
    exact ⟨hconnected, hhost⟩
  · rintro ⟨hconnected, hhost⟩
    exact ⟨checkMakeCurrent_none hdisplay hcurrent, hconnected, hhost⟩

/-! ## `eglDestroyContext` -/

/-- The destruction begins with an unbind that succeeds. -/
structure Unbinds (s : Egl n) (t : Fin n) (c : ContextId) (unbindConnect host : Bool) : Prop where
  current : (s.tInfo t).currentContext = some c
  connected : ((s.tInfo t).hostConn || unbindConnect) = true
  host : host = true

/-- A call of `eglDestroyContext` that deletes a context. -/
structure Deletes (s : Egl n) (t : Fin n) (dpy : EGLDisplay) (c : ContextId)
    (unbindConnect connect : Bool) : Prop where
  display : s.displayError dpy = none
  connected : ∀ context, s.liveContext c = some context → context.rcContext ≠ 0 →
    ((s.tInfo t).hostConn || connect) = true ∨
      (s.tInfo t).currentContext = some c ∧ unbindConnect = true

/-- The thread has a connection after the first part of `eglDestroyContext`. -/
def ConnectedBy (s : Egl n) (t : Fin n) (c : ContextId) (unbindConnect : Bool) : Prop :=
  (s.tInfo t).hostConn = true ∨ (s.tInfo t).currentContext = some c ∧ unbindConnect = true

theorem Unbinds.connectedBy
    (h : s.Unbinds t c unbindConnect host) : s.ConnectedBy t c unbindConnect :=
  (Bool.or_eq_true_iff.mp h.connected).imp id fun hconnect => ⟨h.current, hconnect⟩

/-- What has become of a state when a context is deleted: its thread has unbound it, if it could. -/
def Unbound (s s' : Egl n) (t : Fin n) (c : ContextId) (unbindConnect host : Bool) : Prop :=
  (s.Unbinds t c unbindConnect host ∧
      ∃ s₁, SameObjects s s₁ ∧ s₁.makeCurrent t none none none = .ok s') ∨
    ¬s.Unbinds t c unbindConnect host ∧ SameObjects s s'

theorem unbindDestroyed_cases (hdisplay : s.displayError dpy = none)
    (h : s.unbindDestroyed t dpy c unbindConnect host = .ok s') :
    ((s'.tInfo t).hostConn = true ↔ s.ConnectedBy t c unbindConnect) ∧
      Unbound s s' t c unbindConnect host := by
  unfold ConnectedBy
  unfold unbindDestroyed at h
  split at h
  · rename_i hcurrent
    obtain ⟨r, hr, rfl⟩ := Run.map_eq_ok.mp h
    have hiff : s.Binds t dpy none none none unbindConnect host ↔
        ((s.tInfo t).hostConn || unbindConnect) = true ∧ host = true :=
      binds_none_iff hdisplay hcurrent
    rcases eglMakeCurrent_cases hr with hdeclines | ⟨hbinds, -, hconn, s₁, hsame, hmade⟩
    · refine ⟨?_, .inr ⟨fun hunbinds => ?_, hdeclines.same⟩⟩
      · rw [hdeclines.hostConn (checkMakeCurrent_none hdisplay hcurrent), Bool.or_eq_true]
        exact or_congr_right ⟨fun h => ⟨hcurrent, h⟩, fun h => h.2⟩
      · exact hdeclines.not_binds (hiff.mpr ⟨hunbinds.connected, hunbinds.host⟩)
    · obtain ⟨hconnected, hhost⟩ := hiff.mp hbinds
      have hunbinds : s.Unbinds t c unbindConnect host := ⟨hcurrent, hconnected, hhost⟩
      exact ⟨iff_of_true hconn hunbinds.connectedBy, .inl ⟨hunbinds, s₁, hsame, hmade⟩⟩
  · rename_i hcurrent
    cases h
    refine ⟨⟨.inl, ?_⟩, .inr ⟨fun hunbinds => hcurrent hunbinds.current, .refl s⟩⟩
    grind

theorem Unbound.rcContext (h : Unbound s s' t c unbindConnect host)
    (hcontext : s'.liveContext c = some context) :
    ∃ before, s.liveContext c = some before ∧ before.rcContext = context.rcContext := by
  rcases h with ⟨-, s₁, hsame, hmade⟩ | ⟨-, hsame⟩
  · rw [(makeCurrent_made hmade).contexts, Option.map_eq_some_iff] at hcontext
    obtain ⟨before, hbefore, rfl⟩ := hcontext
    refine ⟨before, (hsame.liveContext c).symm.trans hbefore, ?_⟩
    unfold afterBind
    dsimp only
    split <;> split <;> rfl
  · exact ⟨context, (hsame.liveContext c).symm.trans hcontext, rfl⟩

/-- A connection that the thread has is used. -/
theorem hostConnection_of_hostConn {connect : Bool}
    (hconn : (s.tInfo t).hostConn = true) : s.hostConnection t connect = some s :=
  if_pos hconn

theorem Unbound.connect {connect : Bool}
    (h : Unbound s s' t c unbindConnect host)
    (hconn : (s'.tInfo t).hostConn = true ↔ s.ConnectedBy t c unbindConnect)
    (hs : s'.hostConnection t connect = some s'') : Unbound s s'' t c unbindConnect host := by
  rcases h with ⟨hunbinds, hmade⟩ | ⟨hnot, hsame⟩
  · rw [hostConnection_of_hostConn (hconn.mpr hunbinds.connectedBy)] at hs
    cases hs
    exact .inl ⟨hunbinds, hmade⟩
  · exact .inr ⟨hnot, hsame.trans (.hostConnection hs)⟩

theorem eglDestroyContext_cases {connect : Bool}
    (h : s.eglDestroyContext t dpy ctx unbindConnect host connect = .ok r) :
    (SameObjects s r.1 ∧ ∀ c, ctx = some c → ¬s.Deletes t dpy c unbindConnect connect) ∨
      ∃ c context s₂, ctx = some c ∧ s.Deletes t dpy c unbindConnect connect ∧
        r = (s₂.deleteContext c context, true) ∧ s₂.liveContext c = some context ∧
        Unbound s s₂ t c unbindConnect host := by
  unfold eglDestroyContext at h
  cases hdisplay : s.displayError dpy with
  | some error =>
      rw [hdisplay] at h
      cases h
      refine .inl ⟨.errorReturn s t error, fun c _ hdeletes => ?_⟩
      exact nomatch hdisplay.symm.trans hdeletes.display
  | none =>
      rw [hdisplay] at h
      cases ctx with
      | none =>
          cases h
          exact .inl ⟨.errorReturn s t _, fun c hc => nomatch hc⟩
      | some c =>
          obtain ⟨s₁, hs₁, h⟩ := Run.bind_eq_ok.mp h
          obtain ⟨context, hcontext, h⟩ := Run.bind_eq_ok.mp h
          rw [context_ok] at hcontext
          obtain ⟨hconn, hunbound⟩ := unbindDestroyed_cases hdisplay hs₁
          obtain ⟨before, hbefore, hnumber⟩ := hunbound.rcContext hcontext
          have hisSome := s₁.hostConnection_isSome t connect
          split at h
          · rename_i hrc
            cases hcon : s₁.hostConnection t connect with
            | none =>
                rw [hcon] at h hisSome
                cases h
                have hnone := Bool.or_eq_false_iff.mp hisSome.symm
                have hnotBy : ¬s.ConnectedBy t c unbindConnect := fun hby =>
                  absurd (hconn.mpr hby) (by simp [hnone.1])
                left
                constructor
                · rcases hunbound with ⟨hunbinds, -⟩ | ⟨-, hsame⟩
                  · exact absurd hunbinds.connectedBy hnotBy
                  · exact hsame
                · intro c' hc' hdeletes
                  cases hc'
                  rcases hdeletes.connected before hbefore (hnumber ▸ hrc) with hor | hby
                  · rcases Bool.or_eq_true_iff.mp hor with hhost | hconnect
                    · exact hnotBy (.inl hhost)
                    · exact absurd hconnect (by simp [hnone.2])
                  · exact hnotBy (.inr hby)
            | some s₂ =>
                rw [hcon] at h hisSome
                cases h
                have hsame := SameObjects.hostConnection hcon
                refine .inr ⟨c, context, s₂, rfl, ⟨hdisplay, fun _ _ _ => ?_⟩, rfl,
                  (hsame.liveContext c).trans hcontext, hunbound.connect hconn hcon⟩
                rcases Bool.or_eq_true_iff.mp hisSome.symm with hhost | hconnect
                · exact (hconn.mp hhost).imp (fun h => by simp [h]) id
                · exact .inl (by simp [hconnect])
          · rename_i hrc
            cases h
            refine .inr ⟨c, context, s₁, rfl, ⟨hdisplay, fun context' hlive hne => ?_⟩, rfl,
              hcontext, hunbound⟩
            grind

/-! ## Other calls -/

theorem eglReleaseThread_cases {connect : Bool}
    (h : s.eglReleaseThread t connect host = .ok r) :
    SameObjects s r.1 ∨ r.2 = true ∧ (s.tInfo t).currentContext ≠ none ∧
      ∃ s₁, SameObjects s s₁ ∧ s₁.makeCurrent t none none none = .ok r.1 := by
  unfold eglReleaseThread at h
  split at h
  · rename_i hcurrent
    rcases eglMakeCurrent_cases h with hdeclines | ⟨-, hr, -, hmade⟩
    · exact .inl hdeclines.same
    · exact .inr ⟨hr, hcurrent, hmade⟩
  · cases h
    exact .inl (.refl s)

theorem eglCreateSurface_cases (s : Egl n) (t : Fin n) (dpy : EGLDisplay) (config : EGLint)
    (connect : Bool) (rcSurface : UInt32) :
    SameObjects s (s.eglCreateSurface t dpy config connect rcSurface).1 ∨
      (s.eglCreateSurface t dpy config connect rcSurface).2 = true ∧
      ∃ s₁ surface, SameObjects s s₁ ∧ (s.eglCreateSurface t dpy config connect rcSurface).1 =
        { s₁ with surfaces := s₁.surfaces ++ [some surface] } := by
  unfold eglCreateSurface
  split
  · exact .inl (.errorReturn s t _)
  · split
    · exact .inl (.errorReturn s t _)
    · split
      · exact .inl (.errorReturn s t _)
      · rename_i s₁ hcon
        have hsame := SameObjects.hostConnection hcon
        split
        · exact .inl (hsame.trans (.errorReturn s₁ t _))
        · exact .inr ⟨rfl, s₁, _, hsame, rfl⟩

structure DestroysSurface (s : Egl n) (dpy : EGLDisplay) (d : SurfaceId) : Prop where
  display : s.displayError dpy = none
  live : ∃ surface, s.liveSurface d = some surface ∧ surface.dpy = s_display

theorem eglDestroySurface_cases {eglSurface : Option SurfaceId}
    {connect : Bool}
    (h : s.eglDestroySurface t dpy eglSurface connect = .ok r) :
    (SameObjects s r.1 ∧ ∀ d, eglSurface = some d → ¬s.DestroysSurface dpy d) ∨
      ∃ d s₁, eglSurface = some d ∧ s.DestroysSurface dpy d ∧ SameObjects s s₁ ∧
        r = (s₁.setSurface d none, true) := by
  unfold eglDestroySurface at h
  cases hdisplay : s.displayError dpy with
  | some error =>
      rw [hdisplay] at h
      cases h
      refine .inl ⟨.errorReturn s t error, fun d _ hdestroys => ?_⟩
      exact nomatch hdisplay.symm.trans hdestroys.display
  | none =>
      rw [hdisplay] at h
      obtain ⟨error, herror, h⟩ := Run.bind_eq_ok.mp h
      cases eglSurface with
      | none =>
          cases herror
          cases h
          exact .inl ⟨.refl s, fun d hd => nomatch hd⟩
      | some d =>
          obtain ⟨surface, hsurface, herr⟩ := Run.map_eq_ok.mp herror
          have hlive := surface_ok.mp hsurface
          split at herr
          · rename_i hdpy
            cases herr
            cases h
            refine .inl ⟨.errorReturn s t _, fun d' hd' hdestroys => ?_⟩
            grind [hdestroys.live]
          · rename_i hdpy
            cases herr
            cases h
            refine .inr ⟨d, _, rfl, ⟨hdisplay, surface, hlive, not_not.mp hdpy⟩, ?_, rfl⟩
            cases hcon : s.hostConnection t connect with
            | none => exact .refl s
            | some s₁ => exact .hostConnection hcon

theorem eglSwapInterval_cases {interval : EGLint} {connect : Bool}
    (h : s.eglSwapInterval t dpy interval connect = .ok r) :
    SameObjects s r.1 ∨ r.2 = true ∧ ∃ d s₁ before after, SameObjects s s₁ ∧
      s₁.liveSurface d = some before ∧ r.1 = s₁.setSurface d (some after) := by
  unfold eglSwapInterval at h
  split at h
  · cases h
    exact .inl (.errorReturn s t _)
  · split at h
    · cases h
      exact .inl (.refl s)
    · rename_i s₁ hcon
      have hsame := SameObjects.hostConnection hcon
      split at h
      · cases h
        exact .inl (hsame.trans (.errorReturn s₁ t _))
      · obtain ⟨ctx, -, h⟩ := Run.bind_eq_ok.mp h
        split at h
        · cases h
          exact .inl (hsame.trans (.errorReturn s₁ t _))
        · rename_i d _
          obtain ⟨draw, hdraw, h⟩ := Run.bind_eq_ok.mp h
          cases h
          exact .inr ⟨rfl, d, s₁, draw, _, hsame, surface_ok.mp hdraw, rfl⟩

theorem shareContext_live {share_context : Option ContextId}
    {share : Option GroupId} (h : s.shareContext dpy share_context = .ok (.ok share)) :
    ∀ g, share = some g → ∃ c context, s.liveContext c = some context ∧
      context.sharedGroup = g := by
  intro g hg
  subst hg
  cases share_context with
  | none => cases h
  | some c =>
      obtain ⟨shareCtx, hshare, heq⟩ := Run.map_eq_ok.mp h
      grind [context_ok]

theorem eglCreateContext_cases {config : EGLint}
    {share_context : Option ContextId} {attrib_list : List (EGLint × EGLint)} {connect : Bool}
    {rcContext : UInt32}
    (h : s.eglCreateContext t dpy config share_context attrib_list connect rcContext = .ok r) :
    SameObjects s r.1 ∨ r.2 = true ∧ ∃ s₁ share, SameObjects s s₁ ∧
      r.1 = s₁.newContext dpy share (clientVersion attrib_list) rcContext ∧
      ∀ g, share = some g → ∃ c context, s.liveContext c = some context ∧
        context.sharedGroup = g := by
  unfold eglCreateContext at h
  split at h
  · cases h
    exact .inl (.errorReturn s t _)
  · split at h
    · cases h
      exact .inl (.errorReturn s t _)
    · obtain ⟨share, hshare, h⟩ := Run.bind_eq_ok.mp h
      split at h
      · cases h
        exact .inl (.errorReturn s t _)
      · rename_i group
        split at h
        · cases h
          exact .inl (.refl s)
        · rename_i s₁ hcon
          have hsame := SameObjects.hostConnection hcon
          split at h
          · cases h
            exact .inl (hsame.trans (.errorReturn s₁ t _))
          · cases h
            exact .inr ⟨rfl, s₁, group, hsame, rfl, shareContext_live hshare⟩

end Egl

end AndroidRenderer.GuestEgl
