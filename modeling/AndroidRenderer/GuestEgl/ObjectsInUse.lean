import AndroidRenderer.GuestEgl.CurrentContexts
import AndroidRenderer.Lib.SmartPtr

/-!
# Objects that threads use

A thread refers to its current context and through it to two surfaces, and its two encoders
refer to client states and shared groups. Shared groups are counted and stay as long as they are
referred to. Surfaces and contexts are deleted whatever refers to them: a context leaves the
encoder it was installed in only when it is unbound, or when another one of the same version
is bound.
-/

namespace AndroidRenderer.GuestEgl

namespace Egl

variable {n : Nat} {s s' : Egl n}

/-- What threads refer to has not been deleted. -/
structure InUseAlive (s : Egl n) : Prop where
  currentContext : ∀ t c, (s.tInfo t).currentContext = some c → (s.liveContext c).isSome
  surfaces : ∀ t c context d, (s.tInfo t).currentContext = some c →
    s.liveContext c = some context → context.draw = some d ∨ context.read = some d →
    (s.liveSurface d).isSome
  clientState : ∀ t v c, ((s.tInfo t).encoder v).m_state = some c → (s.liveContext c).isSome
  sharedGroup : ∀ t v g, ((s.tInfo t).encoder v).m_shared = some g →
    SmartPtr.Alive s.groups s.freedGroups g

/-! ## Shared groups -/

/-- The smart pointers to shared groups: of contexts, and of the encoders, of version 2 or not. -/
inductive GroupHolder (n : Nat)
  | context (c : ContextId)
  | encoder (t : Fin n) (v : EGLint)

/-- The group that a smart pointer refers to. -/
def groupAt (s : Egl n) : GroupHolder n → Option GroupId
  | .context c => (s.liveContext c).map EGLContext_t.sharedGroup
  | .encoder t v => ((s.tInfo t).encoder v).m_shared

def Grouped (s : Egl n) : Prop := SmartPtr.Sound s.groupAt s.groups s.freedGroups

theorem groupAt_of_groupReferenced {g : GroupId} (h : ¬s.groupReferenced g = true)
    (k : GroupHolder n) : s.groupAt k ≠ some g := by
  unfold groupReferenced at h
  rw [Bool.or_eq_true, not_or] at h
  obtain ⟨hcontexts, hthreads⟩ := h
  intro hk
  cases k with
  | context c =>
      obtain ⟨context, hcontext, hgroup⟩ := Option.map_eq_some_iff.mp hk
      apply hcontexts
      rw [List.any_eq_true]
      refine ⟨some context, ?_, by simp [hgroup]⟩
      exact List.mem_of_getElem? (Option.join_eq_some_iff.mp hcontext)
  | encoder t v => grind [groupAt, EGLThreadInfo.encoder]

namespace Grouped

/-- Smart pointers that refer to what some smart pointer referred to. -/
theorem of_holders (h : s.Grouped) (hgroups : s'.groups = s.groups)
    (hfreed : s'.freedGroups = s.freedGroups)
    (hholders : ∀ k g, s'.groupAt k = some g → ∃ k', s.groupAt k' = some g) : s'.Grouped := by
  unfold Grouped
  rw [hgroups, hfreed]
  exact SmartPtr.Sound.assign h fun k g hk => .inl (hholders k g hk)

theorem of_same (h : s.Grouped) (hsame : SameObjects s s') : s'.Grouped := by
  refine h.of_holders hsame.groups hsame.freedGroups fun k g hk => ⟨k, ?_⟩
  cases k with
  | context c => rwa [groupAt, hsame.liveContext] at hk
  | encoder t v => rwa [groupAt, hsame.encoder] at hk

theorem releaseGroup (h : s.Grouped) {g : Option GroupId}
    (hg : ∀ g', g = some g' → g' < s.groups) : (s.releaseGroup g).Grouped := by
  cases g with
  | none => exact h
  | some g =>
      unfold Egl.releaseGroup
      split
      · grind
      · rename_i g' heq
        cases heq
        split
        · exact h
        · rename_i hreferenced
          have hnone := groupAt_of_groupReferenced hreferenced
          exact SmartPtr.Sound.destroy h (hg g rfl) fun k hk => hnone k hk

/-- A context that is alive is changed and keeps its group. -/
theorem setContext (h : s.Grouped) {c : ContextId} {before after : EGLContext_t}
    (hbefore : s.liveContext c = some before) (hgroup : after.sharedGroup = before.sharedGroup) :
    (s.setContext c (some after)).Grouped := by
  refine h.of_holders rfl rfl fun k g hk => ⟨k, ?_⟩
  cases k with
  | context c' => grind [groupAt, liveContext_setContext_of_live]
  | encoder t v => exact hk

/-- A context's group, or none, is installed in an encoder. -/
theorem setEncoder (h : s.Grouped) (t : Fin n) (v : EGLint) {enc : Encoder}
    (henc : ∀ g, enc.m_shared = some g → ∃ k, s.groupAt k = some g) :
    (s.setEncoder t v enc).Grouped := by
  have hset : (s.setTInfo t ((s.tInfo t).setEncoder v enc)).Grouped := by
    refine h.of_holders rfl rfl fun k g hk => ?_
    cases k with
    | context c => exact ⟨.context c, hk⟩
    | encoder t' v' =>
        rw [groupAt] at hk
        by_cases ht : t' = t
        · rw [ht, setTInfo_tInfo, encoder_setEncoder] at hk
          split at hk
          · exact henc g hk
          · exact ⟨.encoder t v', hk⟩
        · rw [setTInfo_tInfo_ne _ _ ht] at hk
          exact ⟨.encoder t' v', hk⟩
  exact hset.releaseGroup fun g hg => (h.held (.encoder t v) g hg).1

theorem bindNew (h : s.Grouped) {t : Fin n} {draw read : Option SurfaceId}
    {ctx : Option ContextId} (hs : s.bindNew t draw read ctx = .ok s') : s'.Grouped := by
  unfold Egl.bindNew at hs
  split at hs
  · rename_i c
    obtain ⟨context, hcontext, hs⟩ := Run.bind_eq_ok.mp hs
    rw [context_ok] at hcontext
    cases hs
    have hbound : (s.setContext c (some (context.setCurrent draw read))).Grouped :=
      h.setContext hcontext rfl
    refine hbound.setEncoder t context.version fun g hg => ⟨.context c, ?_⟩
    rw [groupAt, liveContext_setContext_of_live hcontext, if_pos rfl]
    exact hg
  · obtain ⟨context, -, hs⟩ := Run.bind_eq_ok.mp hs
    cases hs
    exact h.setEncoder t context.version fun g hg => nomatch hg
  · cases hs

theorem makeCurrent (h : s.Grouped) {t : Fin n} {draw read : Option SurfaceId}
    {ctx : Option ContextId} (hs : s.makeCurrent t draw read ctx = .ok s') : s'.Grouped := by
  obtain ⟨s₁, hbind, hs⟩ := Run.bind_eq_ok.mp hs
  obtain ⟨s₂, hclear, hs⟩ := Run.bind_eq_ok.mp hs
  cases hs
  have hs₂ : s₂.Grouped := by
    unfold clearOld at hclear
    split at hclear
    · obtain ⟨context, hcontext, hclear⟩ := Run.bind_eq_ok.mp hclear
      cases hclear
      exact (h.bindNew hbind).setContext (context_ok.mp hcontext) rfl
    · cases hclear
      exact h.bindNew hbind
  refine hs₂.of_holders rfl rfl fun k g hk => ⟨k, ?_⟩
  cases k with
  | context c => exact hk
  | encoder t' v =>
      by_cases ht : t' = t
      · rw [groupAt, ht, setTInfo_tInfo] at hk
        rw [ht]
        exact hk
      · grind [groupAt]

theorem deleteContext (h : s.Grouped) {c : ContextId} {context : EGLContext_t}
    (hcontext : s.liveContext c = some context) : (s.deleteContext c context).Grouped := by
  have hgroup : s.groupAt (.context c) = some context.sharedGroup := by
    rw [groupAt, hcontext, Option.map_some]
  have hset : (s.setContext c none).Grouped := by
    refine h.of_holders rfl rfl fun k g hk => ⟨k, ?_⟩
    cases k with
    | context c' => grind [groupAt, liveContext_setContext_of_live]
    | encoder t v => exact hk
  refine hset.releaseGroup fun g hg => ?_
  cases hg
  exact (h.held _ _ hgroup).1

theorem newContext (h : s.Grouped) (dpy : EGLDisplay) {share : Option GroupId} (version : EGLint)
    (rcContext : UInt32) (hshare : ∀ g, share = some g → ∃ k, s.groupAt k = some g) :
    (s.newContext dpy share version rcContext).Grouped := by
  have hle : s.groups ≤ (s.newContext dpy share version rcContext).groups := by
    grind [Egl.newContext]
  refine SmartPtr.Sound.assign (SmartPtr.Sound.grow h hle) fun k g hk => ?_
  cases k with
  | context c =>
      rw [groupAt, newContext_liveContext] at hk
      split at hk
      · cases share with
        | none =>
            cases hk
            exact .inr (SmartPtr.Sound.alive_next h)
        | some g' => grind
      · exact .inl ⟨.context c, hk⟩
  | encoder t v => exact .inl ⟨.encoder t v, hk⟩

end Grouped

/-! ## Contexts and surfaces -/

/-- The surfaces of a context have not been deleted. -/
def SurfacesAlive (s : Egl n) (draw read : Option SurfaceId) : Prop :=
  ∀ d, draw = some d ∨ read = some d → (s.liveSurface d).isSome

/-- The current context of a thread is alive, has surfaces that are alive, and is installed in the
encoder of its version; what is installed in an encoder is alive and of its version. -/
structure Pointers (s : Egl n) : Prop where
  currentContext : ∀ t c, (s.tInfo t).currentContext = some c → ∃ context,
    s.liveContext c = some context ∧ s.SurfacesAlive context.draw context.read ∧
      ((s.tInfo t).encoder context.version).m_state = some c
  clientState : ∀ t v c, ((s.tInfo t).encoder v).m_state = some c → ∃ context,
    s.liveContext c = some context ∧ (v = 2 ↔ context.version = 2)

theorem Pointers.inUseAlive (h : s.Pointers) (hgrouped : s.Grouped) : s.InUseAlive := by
  constructor
  · grind [h.currentContext]
  · intro t c context d hc hcontext hd
    obtain ⟨context', hcontext', hsurfaces, -⟩ := h.currentContext t c hc
    rw [hcontext] at hcontext'
    cases hcontext'
    exact hsurfaces d hd
  · grind [h.clientState]
  · exact fun t v g hg => hgrouped.held (.encoder t v) g hg

/-- Nothing is deleted, and threads and their encoders are as they were. -/
structure Extends (s s' : Egl n) : Prop where
  contexts : ∀ c context, s.liveContext c = some context → s'.liveContext c = some context
  surfaces : ∀ d, (s.liveSurface d).isSome → (s'.liveSurface d).isSome
  currentContext : ∀ t, (s'.tInfo t).currentContext = (s.tInfo t).currentContext
  encoder : ∀ t v, (s'.tInfo t).encoder v = (s.tInfo t).encoder v

theorem Extends.of_same (h : SameObjects s s') : Extends s s' := by
  refine ⟨fun c context hc => ?_, fun d hd => ?_, h.currentContext, h.encoder⟩
  · rw [h.liveContext]
    exact hc
  · rw [h.liveSurface]
    exact hd

theorem Pointers.extend (h : s.Pointers) (hext : Extends s s') : s'.Pointers := by
  constructor
  · intro t c hc
    rw [hext.currentContext] at hc
    obtain ⟨context, hcontext, hsurfaces, hinstalled⟩ := h.currentContext t c hc
    refine ⟨context, hext.contexts c context hcontext,
      fun d hd => hext.surfaces d (hsurfaces d hd), ?_⟩
    rw [hext.encoder]
    exact hinstalled
  · grind [hext.encoder, h.clientState, hext.contexts]

@[simp, grind =] theorem afterBind_version (old ctx : Option ContextId)
    (draw read : Option SurfaceId)
    (c : ContextId) (context : EGLContext_t) :
    (afterBind old ctx draw read c context).version = context.version := by
  unfold afterBind
  dsimp only
  split <;> split <;> rfl

theorem afterBind_surfaces (old ctx : Option ContextId) (draw read : Option SurfaceId)
    (c : ContextId) (context : EGLContext_t) :
    ((afterBind old ctx draw read c context).draw, (afterBind old ctx draw read c context).read) =
      if ctx = some c then (draw, read) else (context.draw, context.read) := by
  unfold afterBind
  dsimp only
  split <;> split <;> rfl

variable {t : Fin n} {draw read : Option SurfaceId} {ctx : Option ContextId} {r : Egl n × Bool}
  {dpy : EGLDisplay} {connect host unbindConnect : Bool}

/-- The surfaces of a context after a bind are those of the bind or those it had. -/
theorem MadeCurrent.surfacesAlive (hmade : MadeCurrent s s' t draw read ctx)
    (hbound : s.SurfacesAlive draw read) {c : ContextId} {context : EGLContext_t}
    (hcontext : ctx = some c ∨ s.SurfacesAlive context.draw context.read) :
    s'.SurfacesAlive (afterBind (s.tInfo t).currentContext ctx draw read c context).draw
      (afterBind (s.tInfo t).currentContext ctx draw read c context).read := by
  have hsurfaces := afterBind_surfaces (s.tInfo t).currentContext ctx draw read c context
  rw [Prod.mk.injEq] at hsurfaces
  have hlive : ∀ d, s'.liveSurface d = s.liveSurface d := fun d => by
    rw [liveSurface, hmade.surfaces, liveSurface]
  intro d hd
  rw [hlive]
  split at hsurfaces
  · rw [hsurfaces.1, hsurfaces.2] at hd
    exact hbound d hd
  · rename_i hctx
    rw [hsurfaces.1, hsurfaces.2] at hd
    exact hcontext.resolve_left hctx d hd

/-- A bind installs the new context, and unbinding takes the old one out of its encoder. -/
theorem Pointers.madeCurrent (h : s.Pointers) (hmade : MadeCurrent s s' t draw read ctx)
    (hbound : s.SurfacesAlive draw read) : s'.Pointers := by
  have hlive : ∀ c context, s.liveContext c = some context → s'.liveContext c =
      some (afterBind (s.tInfo t).currentContext ctx draw read c context) := by
    grind [hmade.contexts]
  have hkept : ∀ v c, (∃ context, s.liveContext c = some context ∧
      (v = (2 : EGLint) ↔ context.version = 2)) → ∃ context, s'.liveContext c = some context ∧
      (v = 2 ↔ context.version = 2) := by grind
  constructor
  · intro t' c hc
    by_cases ht : t' = t
    · rw [ht, hmade.current] at hc
      obtain ⟨context, hcontext⟩ := Option.isSome_iff_exists.mp (hmade.target c hc)
      refine ⟨_, hlive c context hcontext, hmade.surfacesAlive hbound (.inl hc), ?_⟩
      simp [afterBind_version, hmade.encoder, encoderAfter, Option.some_or, ht, hc, hcontext]
    · grind [hmade.others, h.currentContext, hmade.surfacesAlive]
  · intro t' v c hc
    apply hkept
    by_cases ht : t' = t
    · rw [ht, hmade.encoder, encoderAfter] at hc
      cases hbind : (ctx.or (s.tInfo t).currentContext).bind s.liveContext with
      | none =>
          rw [hbind] at hc
          exact h.clientState t v c hc
      | some context => grind [h.clientState]
    · rw [hmade.others t' ht] at hc
      exact h.clientState t' v c hc

/-! ## Calls -/

/-- Whether a call deletes nothing that a thread refers to afterwards. -/
def KeepsInUse (s : Egl n) : Fin n × Call → Prop
  | (_, .eglDestroySurface dpy eglSurface _) =>
      ∀ d, eglSurface = some d → s.DestroysSurface dpy d → ∀ t c context,
        (s.tInfo t).currentContext = some c → s.liveContext c = some context →
        context.draw ≠ some d ∧ context.read ≠ some d
  | (t, .eglDestroyContext dpy ctx unbindConnect host connect) =>
      ∀ c, ctx = some c → s.Deletes t dpy c unbindConnect connect → ∀ t' v,
        ((s.tInfo t').encoder v).m_state = some c → t' = t ∧ s.Unbinds t c unbindConnect host
  | _ => True

/-- The effect of a call on what threads refer to. -/
structure CallInUse (s : Egl n) (c : Fin n × Call) (r : Egl n × Bool) : Prop where
  grouped : r.1.Grouped
  kept : s.KeepsInUse c → r.1.Pointers
  needed : r.1.InUseAlive → s.KeepsInUse c

theorem CallInUse.of_extends {c : Fin n × Call} (h : s.Pointers)
    (hgrouped : r.1.Grouped) (hext : Extends s r.1) (hkeeps : s.KeepsInUse c) :
    s.CallInUse c r :=
  ⟨hgrouped, fun _ => h.extend hext, fun _ => hkeeps⟩

theorem surfaceError_alive {surface : Option SurfaceId} (h : s.surfaceError surface = .ok none)
    (d : SurfaceId) (hd : surface = some d) : (s.liveSurface d).isSome := by
  subst hd
  obtain ⟨surface, hsurface, -⟩ := Run.map_eq_ok.mp h
  rw [surface_ok.mp hsurface]
  rfl

theorem Binds.surfacesAlive
    (h : s.Binds t dpy draw read ctx connect host) : s.SurfacesAlive draw read := by
  obtain ⟨-, hdraw, hread, -⟩ := checkMakeCurrent_bind_iff.mp h.checks
  rintro d (hd | hd)
  · exact surfaceError_alive hdraw d hd
  · exact surfaceError_alive hread d hd

theorem SurfacesAlive.of_same (hsame : SameObjects s s')
    (h : s.SurfacesAlive draw read) : s'.SurfacesAlive draw read := by
  intro d hd
  rw [hsame.liveSurface]
  exact h d hd

theorem surfacesAlive_none (s : Egl n) : s.SurfacesAlive none none := by
  rintro d (hd | hd) <;> cases hd

/-- The first part of `eglDestroyContext` deletes nothing. -/
theorem Unbound.pointers {c : ContextId}
    (h : Unbound s s' t c unbindConnect host) (hp : s.Pointers) (hg : s.Grouped) :
    s'.Pointers ∧ s'.Grouped := by
  rcases h with ⟨-, s₁, hsame, hs'⟩ | ⟨-, hsame⟩
  · exact ⟨(hp.extend (.of_same hsame)).madeCurrent (makeCurrent_made hs') s₁.surfacesAlive_none,
      (hg.of_same hsame).makeCurrent hs'⟩
  · exact ⟨hp.extend (.of_same hsame), hg.of_same hsame⟩

/-- An unbind takes the context out of the encoders of its thread. -/
theorem Unbound.clientState_iff {c : ContextId}
    (h : Unbound s s' t c unbindConnect host) (hp : s.Pointers) :
    (∀ t' v, ((s'.tInfo t').encoder v).m_state ≠ some c) ↔
      ∀ t' v, ((s.tInfo t').encoder v).m_state = some c →
        t' = t ∧ s.Unbinds t c unbindConnect host := by
  rcases h with ⟨hunbinds, s₁, hsame, hs'⟩ | ⟨hnot, hsame⟩
  · have hmade := makeCurrent_made hs'
    constructor
    · intro hnone t' v hv
      refine ⟨?_, hunbinds⟩
      by_contra ht
      apply hnone t' v
      rw [hmade.others t' ht, hsame.encoder]
      exact hv
    · intro hkeeps t' v hv
      by_cases ht : t' = t
      · have hp₁ := hp.extend (.of_same hsame)
        have hcurrent : (s₁.tInfo t).currentContext = some c :=
          (hsame.currentContext t).trans hunbinds.current
        obtain ⟨context, hcontext, -⟩ := hp₁.currentContext t c hcurrent
        rw [ht, hmade.encoder, encoderAfter, Option.none_or, hcurrent, Option.bind_some,
          hcontext, Option.elim_some] at hv
        grind [hp₁.clientState]
      · grind [hmade.others, hsame.encoder]
  · simp only [hsame.encoder]
    grind

/-- A context is deleted that no encoder has, and so no thread either. -/
theorem Pointers.deleteContext (h : s.Pointers) {c : ContextId} {context : EGLContext_t}
    (hcontext : s.liveContext c = some context)
    (hnone : ∀ t v, ((s.tInfo t).encoder v).m_state ≠ some c) :
    (s.deleteContext c context).Pointers := by
  have hlive : ∀ c', c' ≠ c → (s.deleteContext c context).liveContext c' = s.liveContext c' := by
    grind [Egl.deleteContext, liveContext_setContext_of_live]
  have htInfo : (s.deleteContext c context).tInfo = s.tInfo := by
    rw [Egl.deleteContext, releaseGroup_tInfo]
    rfl
  have hsurfaces : ∀ d, (s.deleteContext c context).liveSurface d = s.liveSurface d := by
    intro d
    rw [liveSurface, Egl.deleteContext, releaseGroup_surfaces]
    rfl
  constructor
  · intro t c' hc
    rw [htInfo] at hc
    obtain ⟨context', hcontext', halive, hinstalled⟩ := h.currentContext t c' hc
    refine ⟨context', ?_, fun d hd => ?_, ?_⟩
    · grind
    · rw [hsurfaces]
      exact halive d hd
    · grind
  · intro t v c' hc
    rw [htInfo] at hc
    grind [h.clientState]

theorem eglDestroyContext_inUse (h : s.Pointers) (hg : s.Grouped)
    (hr : s.eglDestroyContext t dpy ctx unbindConnect host connect = .ok r) :
    s.CallInUse (t, .eglDestroyContext dpy ctx unbindConnect host connect) r := by
  rcases eglDestroyContext_cases hr with
    ⟨hsame, hnot⟩ | ⟨c, context, s₂, rfl, hdeletes, rfl, hcontext, hunbound⟩
  · exact .of_extends h (hg.of_same hsame) (.of_same hsame) fun c hc hdeletes =>
      absurd hdeletes (hnot c hc)
  · obtain ⟨hp₂, hg₂⟩ := hunbound.pointers h hg
    have hiff := hunbound.clientState_iff h
    refine ⟨hg₂.deleteContext hcontext, fun hkeeps => ?_, fun hafter => ?_⟩
    · exact hp₂.deleteContext hcontext (hiff.mpr (hkeeps c rfl hdeletes))
    · intro c' hc' _
      cases hc'
      refine hiff.mp fun t' v hv => ?_
      have hlive := hafter.clientState t' v c (by
        rw [deleteContext, releaseGroup_tInfo]
        exact hv)
      grind [deleteContext, liveContext_setContext_of_live]

theorem eglDestroySurface_inUse {eglSurface : Option SurfaceId} (h : s.Pointers) (hg : s.Grouped)
    (hr : s.eglDestroySurface t dpy eglSurface connect = .ok r) :
    s.CallInUse (t, .eglDestroySurface dpy eglSurface connect) r := by
  rcases eglDestroySurface_cases hr with
    ⟨hsame, hnot⟩ | ⟨d, s₁, rfl, hdestroys, hsame, rfl⟩
  · exact .of_extends h (hg.of_same hsame) (.of_same hsame) fun d hd hdestroys =>
      absurd hdestroys (hnot d hd)
  · have hp₁ := h.extend (.of_same hsame)
    obtain ⟨surface, hsurface, -⟩ := hdestroys.live
    have hlive : ∀ d', (s₁.setSurface d none).liveSurface d' =
        if d' = d then none else s₁.liveSurface d' := by grind [liveSurface, liveSurface_setSurface]
    refine ⟨(hg.of_same hsame).of_holders rfl rfl fun k g hk => ⟨k, ?_⟩, fun hkeeps => ?_,
      fun hafter => ?_⟩
    · cases k with
      | context c => exact hk
      | encoder t' v => exact hk
    · refine ⟨fun t' c hc => ?_, hp₁.clientState⟩
      obtain ⟨context, hcontext, halive, hinstalled⟩ := hp₁.currentContext t' c hc
      refine ⟨context, hcontext, fun d' hd' => ?_, hinstalled⟩
      have hne : d' ≠ d := by
        rintro rfl
        obtain ⟨hdraw, hread⟩ := hkeeps d' rfl hdestroys t' c context
          ((hsame.currentContext t').symm.trans hc) ((hsame.liveContext c).symm.trans hcontext)
        grind
      rw [hlive, if_neg hne]
      exact halive d' hd'
    · intro d' hd' _ t' c context hc hcontext
      cases hd'
      have hdead : ¬((s₁.setSurface d none).liveSurface d).isSome = true := by grind
      have hsurfaces := hafter.surfaces t' c context d ((hsame.currentContext t').trans hc)
        ((hsame.liveContext c).trans hcontext)
      grind

theorem eglMakeCurrent_inUse (h : s.Pointers)
    (hg : s.Grouped) (hr : s.eglMakeCurrent t dpy draw read ctx connect host = .ok r) :
    s.CallInUse (t, .eglMakeCurrent dpy draw read ctx connect host) r := by
  rcases eglMakeCurrent_cases hr with hdeclines | ⟨hbinds, -, -, s₁, hsame, hs'⟩
  · exact .of_extends h (hg.of_same hdeclines.same) (.of_same hdeclines.same) trivial
  · have hsurfaces : s₁.SurfacesAlive draw read := hbinds.surfacesAlive.of_same hsame
    exact ⟨(hg.of_same hsame).makeCurrent hs', fun _ =>
      (h.extend (.of_same hsame)).madeCurrent (makeCurrent_made hs') hsurfaces, fun _ => trivial⟩

theorem eglReleaseThread_inUse (h : s.Pointers) (hg : s.Grouped)
    (hr : s.eglReleaseThread t connect host = .ok r) :
    s.CallInUse (t, .eglReleaseThread connect host) r := by
  rcases eglReleaseThread_cases hr with hsame | ⟨-, -, s₁, hsame, hs'⟩
  · exact .of_extends h (hg.of_same hsame) (.of_same hsame) trivial
  · exact ⟨(hg.of_same hsame).makeCurrent hs', fun _ => (h.extend (.of_same hsame)).madeCurrent
      (makeCurrent_made hs') s₁.surfacesAlive_none, fun _ => trivial⟩

/-- Calls that change nothing but surfaces, of which all stay alive. -/
theorem CallInUse.of_surfaces {c : Fin n × Call} {s₁ : Egl n}
    {surfaces : List (Option egl_surface_t)} (h : s.Pointers) (hg : s.Grouped)
    (hsame : SameObjects s s₁) (heq : r.1 = { s₁ with surfaces := surfaces })
    (halive : ∀ d, (s₁.liveSurface d).isSome → surfaces[d]?.join.isSome)
    (hkeeps : s.KeepsInUse c) : s.CallInUse c r := by
  have hgrouped : ({ s₁ with surfaces := surfaces } : Egl n).Grouped := by
    refine (hg.of_same hsame).of_holders rfl rfl fun k g hk => ⟨k, ?_⟩
    cases k with
    | context c => exact hk
    | encoder t v => exact hk
  have hext : Extends s₁ { s₁ with surfaces := surfaces } :=
    ⟨fun _ _ hc => hc, halive, fun _ => rfl, fun _ _ => rfl⟩
  refine ⟨heq ▸ hgrouped, fun _ => heq ▸ (h.extend (.of_same hsame)).extend hext, fun _ => hkeeps⟩

/-- The effect of a call where nothing that threads refer to has been deleted. -/
theorem call_inUse {c : Call} (h : s.Pointers) (hg : s.Grouped)
    (hr : s.call t c = .ok r) : s.CallInUse (t, c) r := by
  cases c with
  | eglCreateSurface dpy config connect rcSurface =>
      cases hr
      rcases s.eglCreateSurface_cases t dpy config connect rcSurface with
        hsame | ⟨-, s₁, surface, hsame, heq⟩
      · exact .of_extends h (hg.of_same hsame) (.of_same hsame) trivial
      · refine .of_surfaces h hg hsame heq (fun d hd => ?_) trivial
        grind [liveSurface]
  | eglDestroySurface dpy eglSurface connect => exact eglDestroySurface_inUse h hg hr
  | eglSwapInterval dpy interval connect =>
      rcases eglSwapInterval_cases hr with hsame | ⟨-, d, s₁, before, after, hsame, -, heq⟩
      · exact .of_extends h (hg.of_same hsame) (.of_same hsame) trivial
      · refine .of_surfaces h hg hsame heq (fun d' hd' => ?_) trivial
        rw [join_getElem?_set]
        split
        · rfl
        · exact hd'
  | eglCreateContext dpy config share_context attrib_list connect rcContext =>
      rcases eglCreateContext_cases hr with hsame | ⟨-, s₁, share, hsame, heq, hshare⟩
      · exact .of_extends h (hg.of_same hsame) (.of_same hsame) trivial
      · have hext : Extends s₁ r.1 := by
          rw [heq]
          refine ⟨fun c context hc => ?_, fun _ hd => hd, fun _ => rfl, fun _ _ => rfl⟩
          rw [newContext_liveContext, if_neg]
          · exact hc
          · rintro rfl
            exact Nat.lt_irrefl _ (lt_of_liveContext hc)
        refine ⟨?_, fun _ => (h.extend (.of_same hsame)).extend hext, fun _ => trivial⟩
        rw [heq]
        refine (hg.of_same hsame).newContext dpy _ rcContext fun g hgroup => ?_
        obtain ⟨c, context, hcontext, hshared⟩ := hshare g hgroup
        refine ⟨.context c, ?_⟩
        grind [groupAt, hsame.liveContext]
  | eglMakeCurrent dpy draw read ctx connect host => exact eglMakeCurrent_inUse h hg hr
  | eglReleaseThread connect host => exact eglReleaseThread_inUse h hg hr
  | eglDestroyContext dpy ctx unbindConnect host connect => exact eglDestroyContext_inUse h hg hr

theorem pointers_initial (k : EGLint) :
    (initial k : Egl n).Pointers ∧ (initial k : Egl n).Grouped := by
  refine ⟨⟨fun t c hc => (nomatch hc), fun t v c hc => ?_⟩, fun k g hk => ?_, fun g hg => ?_⟩
  · change (EGLThreadInfo.new.encoder v).m_state = some c at hc
    unfold EGLThreadInfo.encoder at hc
    split at hc <;> cases hc
  · cases k with
    | context c => cases hk
    | encoder t v =>
        change (EGLThreadInfo.new.encoder v).m_shared = some g at hk
        unfold EGLThreadInfo.encoder at hk
        split at hk <;> cases hk
  · cases hg

/-- As long as no surface is deleted that a current context draws to or reads from, and no context
that is in an encoder other than one from which it is unbound first, nothing that a thread
refers to has been deleted. The first call that does is where a thread is left with it. -/
theorem inUseAlive_of_keepsInUse {k : EGLint} (h : Run.Reach step KeepsInUse (initial k) s) :
    s.InUseAlive ∧ ∀ t c r, s.call t c = .ok r → (r.1.InUseAlive ↔ s.KeepsInUse (t, c)) := by
  have hinv : s.Pointers ∧ s.Grouped := by
    refine h.invariant (I := fun s => s.Pointers ∧ s.Grouped) (pointers_initial k) ?_
    rintro s₁ ⟨t, c⟩ s₂ ⟨hp, hg⟩ hkeeps hstep
    obtain ⟨r, hr, rfl⟩ := Run.map_eq_ok.mp hstep
    have hcall := call_inUse hp hg hr
    exact ⟨hcall.kept hkeeps, hcall.grouped⟩
  obtain ⟨hp, hg⟩ := hinv
  refine ⟨hp.inUseAlive hg, fun t c r hr => ?_⟩
  have hcall := call_inUse hp hg hr
  exact ⟨hcall.needed, fun hkeeps => (hcall.kept hkeeps).inUseAlive hcall.grouped⟩

/-- Calls that delete nothing that a thread refers to before them. -/
def keepsInUseTest (s : Egl n) : Fin n × Call → Bool
  | (_, .eglDestroySurface _ eglSurface _) =>
      decide (∀ t, ∀ context ∈ (s.tInfo t).currentContext.bind s.liveContext,
        context.draw ≠ eglSurface ∧ context.read ≠ eglSurface)
  | (_, .eglDestroyContext _ ctx _ _ _) =>
      decide (∀ t, ctx ≠ none → (s.tInfo t).glEncoder.m_state ≠ ctx ∧
        (s.tInfo t).gl2Encoder.m_state ≠ ctx)
  | _ => true

theorem keepsInUseTest_sound (s : Egl n) (c : Fin n × Call) (h : s.keepsInUseTest c = true) :
    s.KeepsInUse c := by
  obtain ⟨t, c⟩ := c
  cases c with
  | eglDestroySurface dpy eglSurface connect =>
      rintro d rfl - t' c context hc hcontext
      apply of_decide_eq_true h t' context
      simp [hc, hcontext]
  | eglDestroyContext dpy ctx unbindConnect host connect =>
      rintro c rfl - t' v hv
      obtain ⟨hgl, hgl2⟩ := of_decide_eq_true h t' (by simp)
      unfold EGLThreadInfo.encoder at hv
      grind
  | _ => trivial

/-- A thread has a context of version 1 current and then one of version 2. -/
def switchesVersion : List (Fin 1 × Call) :=
  [(0, .eglCreateSurface s_display 0 true 5), (0, .eglCreateContext s_display 0 none [] true 6),
    (0, .eglCreateContext s_display 0 none [(EGL_CONTEXT_CLIENT_VERSION, 2)] true 7),
    (0, .eglMakeCurrent s_display (some 0) (some 0) (some 0) true true),
    (0, .eglMakeCurrent s_display (some 0) (some 0) (some 1) true true)]

/-- The second context is unbound, and is deleted with the surface. -/
theorem inUseAlive_of_keepsInUse_run :
    ∃ s : Egl 1, (s.liveContext 1 = none ∧ s.liveSurface 0 = none) ∧ s.InUseAlive ∧
      ∀ t c r, s.call t c = .ok r → (r.1.InUseAlive ↔ s.KeepsInUse (t, c)) := by
  have hrun : Run.check step keepsInUseTest
      (fun s => s.liveContext 1 = none ∧ s.liveSurface 0 = none) (initial 1)
      (switchesVersion ++ [(0, .eglReleaseThread true true),
        (0, .eglDestroyContext s_display (some 1) true true true),
        (0, .eglDestroySurface s_display (some 0) true)]) = true := by
    decide +kernel
  obtain ⟨s, hreach, hs⟩ := Run.exists_reach_of_check keepsInUseTest_sound hrun
  exact ⟨s, of_decide_eq_true hs, inUseAlive_of_keepsInUse hreach⟩

/-- The first context is deleted. Its client state remains in the encoder of version 1. -/
theorem clientState_deleted :
    ∃ s : Egl 1, Run.Reach step (fun _ _ => True) (initial 1) s ∧
      (s.tInfo 0).glEncoder.m_state = some 0 ∧ s.liveContext 0 = none ∧ ¬s.InUseAlive := by
  have hrun : Run.check step (fun _ _ => true)
      (fun s => (s.tInfo 0).glEncoder.m_state = some 0 ∧ s.liveContext 0 = none) (initial 1)
      (switchesVersion ++ [(0, .eglDestroyContext s_display (some 0) true true true)]) = true := by
    decide +kernel
  obtain ⟨s, hreach, hs⟩ := Run.exists_reach_of_check (fun _ _ _ => trivial) hrun
  obtain ⟨hstate, hdeleted⟩ := of_decide_eq_true hs
  refine ⟨s, hreach, hstate, hdeleted, fun halive => ?_⟩
  have hlive := halive.clientState 0 1 0 hstate
  rw [hdeleted] at hlive
  cases hlive

end Egl

end AndroidRenderer.GuestEgl
