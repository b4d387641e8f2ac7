import AndroidRenderer.OpenglRender.SurfaceContexts

/-!
# Surfaces of current contexts

A surface has a context for drawing while some thread has that context current with the surface for
drawing, and so for reading. `bindContext` sets the contexts of the new surfaces, and leaves those of
the thread's former surfaces, unless it unbinds; then it clears those of the draw surface. So a bind
operation to other surfaces leaves contexts behind, and so does an unbind operation where the read
surface is not the draw surface.
-/

namespace AndroidRenderer.OpenglRender

section Holders

variable {τ γ ω : Type} {pointer pointer' : ω → Option γ} {has has' : τ → γ → ω → Prop} {t : τ}

def Held (pointer : ω → Option γ) (has : τ → γ → ω → Prop) : Prop :=
  ∀ w c, pointer w = some c → ∃ t, has t c w

/-- One holder changes what it has, and sets or clears some pointers: then pointers are held if and
only if those that it leaves, and held before, have another holder. -/
theorem held_iff (touched : ω → Prop) (hheld : Held pointer has)
    (htouched : ∀ w c, touched w → pointer' w = some c → has' t c w)
    (hkept : ∀ w, ¬touched w → pointer' w = pointer w ∧ ∀ c, ¬has' t c w)
    (hothers : ∀ t' c w, t' ≠ t → (has' t' c w ↔ has t' c w)) :
    Held pointer' has' ↔ ∀ w c, has t c w → pointer w = some c →
      touched w ∨ ∃ t', t' ≠ t ∧ has t' c w := by
  constructor
  · intro h w c _ hpointer
    by_cases hw : touched w
    · exact .inl hw
    · obtain ⟨hsame, hnot⟩ := hkept w hw
      obtain ⟨t', ht'⟩ := h w c (hsame.trans hpointer)
      have hne : t' ≠ t := fun heq => hnot c (heq ▸ ht')
      exact .inr ⟨t', hne, (hothers t' c w hne).mp ht'⟩
  · intro h w c hpointer
    by_cases hw : touched w
    · exact ⟨t, htouched w c hw hpointer⟩
    · rw [(hkept w hw).1] at hpointer
      obtain ⟨t₀, ht₀⟩ := hheld w c hpointer
      grind

/-- The holder goes to `w₀` and points it to `c₀`, while other pointers are cleared. -/
theorem held_assign_iff [DecidableEq ω] {c₀ : γ} {w₀ : ω} {lost : ω → Prop}
    (hheld : Held pointer has) (hgone : ∀ w, lost w → pointer' w = none)
    (hset : ∀ w, ¬lost w → pointer' w = Function.update pointer w₀ (some c₀) w)
    (hnew : ∀ c w, has' t c w ↔ c = c₀ ∧ w = w₀)
    (hothers : ∀ t' c w, t' ≠ t → (has' t' c w ↔ has t' c w)) :
    Held pointer' has' ↔ ∀ w c, has t c w → pointer w = some c →
      (w = w₀ ∨ lost w) ∨ ∃ t', t' ≠ t ∧ has t' c w := by
  refine held_iff _ hheld ?_ ?_ hothers
  · grind
  · grind

end Holders

namespace FrameBuffer

variable {n : Nat} {s s' : FrameBuffer n} {t : Fin n} {w c d r : ObjectId}

/-- A thread has the context current, with the surface for drawing. -/
def DrawsTo (s : FrameBuffer n) (t : Fin n) (c w : ObjectId) : Prop :=
  (s.tinfo t).currContext = some c ∧ (s.tinfo t).currDrawSurf = some w

def ReadsFrom (s : FrameBuffer n) (t : Fin n) (c w : ObjectId) : Prop :=
  (s.tinfo t).currContext = some c ∧ (s.tinfo t).currReadSurf = some w

structure SurfacesCurrent (s : FrameBuffer n) : Prop where
  draw : Held s.bindings.draw s.DrawsTo
  read : Held s.bindings.read s.ReadsFrom

/-- The former surfaces of a thread are the new ones, or they go, or another thread has them for
the same context, or another context was given to them since. -/
structure RebindReleases (s : FrameBuffer n) (t : Fin n) (d r : ObjectId) : Prop where
  draw : ∀ w c, s.DrawsTo t c w → s.bindings.draw w = some c →
    (w = d ∨ s.Lost t (some d) (some r) w) ∨ ∃ t', t' ≠ t ∧ s.DrawsTo t' c w
  read : ∀ w c, s.ReadsFrom t c w → s.bindings.read w = some c →
    (w = r ∨ s.Lost t (some d) (some r) w) ∨ ∃ t', t' ≠ t ∧ s.ReadsFrom t' c w

/-- The thread's read surface is its draw surface, or another thread has it for the same context,
or another context was given to it since. -/
def UnbindReleases (s : FrameBuffer n) (t : Fin n) : Prop :=
  ∀ w c, s.ReadsFrom t c w → s.bindings.read w = some c →
    (s.tinfo t).currDrawSurf = some w ∨ ∃ t', t' ≠ t ∧ s.ReadsFrom t' c w

/-- The condition under which a call leaves no context behind. -/
def Releases (s : FrameBuffer n) : Fin n × Call → Prop
  | (t, .bindContext p_context p_drawSurface p_readSurface egl) =>
      egl = true →
        match s.bindArguments p_context p_drawSurface p_readSurface with
        | some (some _, some d, some r) => s.RebindReleases t d r
        | some (none, _, _) => s.UnbindReleases t
        | _ => True
  | _ => True

theorem Rebound.surfacesCurrent_iff (h : s.Rebound s' t c d r) (hs : s.SurfacesCurrent) :
    s'.SurfacesCurrent ↔ s.RebindReleases t d r := by
  have hdraw : Held s'.bindings.draw s'.DrawsTo ↔ _ :=
    held_assign_iff (t := t) hs.draw (fun w hw => (h.surfaces.gone w hw).1)
      (fun w hw => (h.surfaces.kept w hw).1)
      (fun c' w => by
        rw [DrawsTo, h.context, h.draw, Option.some.injEq, Option.some.injEq, eq_comm (a := c),
          eq_comm (a := d)])
      (fun t' c' w ht' => by rw [DrawsTo, DrawsTo, h.others t' ht'])
  have hread : Held s'.bindings.read s'.ReadsFrom ↔ _ :=
    held_assign_iff (t := t) hs.read (fun w hw => (h.surfaces.gone w hw).2)
      (fun w hw => (h.surfaces.kept w hw).2)
      (fun c' w => by
        rw [ReadsFrom, h.context, h.read, Option.some.injEq, Option.some.injEq, eq_comm (a := c),
          eq_comm (a := r)])
      (fun t' c' w ht' => by rw [ReadsFrom, ReadsFrom, h.others t' ht'])
  exact ⟨fun hs' => ⟨hdraw.mp hs'.draw, hread.mp hs'.read⟩,
    fun hcond => ⟨hdraw.mpr hcond.draw, hread.mpr hcond.read⟩⟩

theorem Unbound.surfacesCurrent_iff (h : s.Unbound s' t) (hs : s.SurfacesCurrent)
    (hboth : (s.tinfo t).currDrawSurf.isSome = (s.tinfo t).currReadSurf.isSome) :
    s'.SurfacesCurrent ↔ s.UnbindReleases t := by
  have hcleared : ∀ w, (s.tinfo t).currDrawSurf = some w →
      s'.bindings.draw w = none ∧ s'.bindings.read w = none := by
    intro w hw
    rw [hw, Option.isSome_some, eq_comm, Option.isSome_iff_exists] at hboth
    obtain ⟨r, hr⟩ := hboth
    rw [h.surfaces, hw, hr]
    exact (Bindings.without_clear s.bindings w).gone w rfl
  have hkept : ∀ w, (s.tinfo t).currDrawSurf ≠ some w →
      s'.bindings.draw w = s.bindings.draw w ∧ s'.bindings.read w = s.bindings.read w := by
    intro w hw
    rw [h.surfaces]
    unfold Bindings.unbind
    split
    · rename_i d _ hd _
      rw [hd] at hw
      exact (Bindings.without_clear s.bindings d).kept w fun heq => hw (congrArg some heq.symm)
    · exact ⟨rfl, rfl⟩
  have hdraw : Held s'.bindings.draw s'.DrawsTo := by
    refine (held_iff (t := t) (fun w => (s.tinfo t).currDrawSurf = some w)
      hs.draw ?_ ?_ ?_).mpr fun w c hc _ => .inl hc.2
    · grind
    · grind [DrawsTo, h.context]
    · grind [DrawsTo, h.others]
  have hread : Held s'.bindings.read s'.ReadsFrom ↔ s.UnbindReleases t := by
    refine held_iff (fun w => (s.tinfo t).currDrawSurf = some w) hs.read ?_ ?_ ?_
    · grind
    · grind [ReadsFrom, h.context]
    · intro t' c' w ht'
      rw [ReadsFrom, ReadsFrom, h.others t' ht']
  exact ⟨fun hs' => hread.mp hs'.read, fun hcond => ⟨hdraw, hread.mpr hcond⟩⟩

/-! ## Runs -/

/-- Handles name surfaces that are there, and a thread has two surfaces or none. -/
structure WellBound (s : FrameBuffer n) : Prop where
  there : s.WindowsThere
  both : ∀ t, (s.tinfo t).currDrawSurf.isSome = (s.tinfo t).currReadSurf.isSome

theorem WellBound.step {call : Fin n × Call} (h : s.WellBound) (hs : s.step call = .ok s') :
    s'.WellBound := by
  obtain ⟨t, call⟩ := call
  refine ⟨h.there.step hs, fun t' => ?_⟩
  by_cases hbind : isBind call = false
  · rw [(step_keepsSurfaces hs hbind).tinfo]
    exact h.both t'
  · cases call with
    | bindContext p_context p_drawSurface p_readSurface egl =>
        cases hs
        obtain ⟨hsame, -⟩ | ⟨-, -, hunbound⟩ | ⟨-, c, d, r, -, -, hrebound⟩ :=
          bindContext_outcome h.there t p_context p_drawSurface p_readSurface egl
        · rw [hsame]
          exact h.both t'
        · grind [hunbound.draw, hunbound.read, hunbound.others, h.both]
        · grind [hrebound.draw, hrebound.read, hrebound.others, h.both]
    | _ => exact absurd rfl hbind

theorem clear_held {b : Bindings} (w : ObjectId) {w' : ObjectId} :
    ((b.clear w).draw w' = some c → b.draw w' = some c) ∧
      ((b.clear w).read w' = some c → b.read w' = some c) := by
  have hclear := Bindings.without_clear b w
  grind [hclear.gone, hclear.kept]

theorem KeepsSurfaces.surfacesCurrent (h : s.KeepsSurfaces s') (hs : s.SurfacesCurrent) :
    s'.SurfacesCurrent := by
  have hdraws : s'.DrawsTo = s.DrawsTo := by
    unfold DrawsTo
    rw [h.tinfo]
  have hreads : s'.ReadsFrom = s.ReadsFrom := by
    unfold ReadsFrom
    rw [h.tinfo]
  constructor
  · rw [hdraws]
    obtain hsame | ⟨w, -, hclear⟩ := h.bindings
    · rw [hsame]
      exact hs.draw
    · rw [hclear]
      exact fun w' c hc => hs.draw w' c ((clear_held w).1 hc)
  · rw [hreads]
    obtain hsame | ⟨w, -, hclear⟩ := h.bindings
    · rw [hsame]
      exact hs.read
    · rw [hclear]
      exact fun w' c hc => hs.read w' c ((clear_held w).2 hc)

/-- Exactly the calls that meet the condition leave no context behind. -/
theorem surfacesCurrent_step {call : Fin n × Call} (hwell : s.WellBound) (h : s.SurfacesCurrent)
    (hs : s.step call = .ok s') : s'.SurfacesCurrent ↔ s.Releases call := by
  obtain ⟨t, call⟩ := call
  cases call with
  | bindContext p_context p_drawSurface p_readSurface egl =>
      cases hs
      rw [Releases]
      obtain ⟨hsame, hrefused⟩ | ⟨rfl, hargs, hunbound⟩ | ⟨rfl, c, d, r, hargs, -, hrebound⟩ :=
        bindContext_outcome hwell.there t p_context p_drawSurface p_readSurface egl
      · grind
      · grind [hunbound.surfacesCurrent_iff, hwell.both]
      · grind [hrebound.surfacesCurrent_iff]
  | _ => exact iff_of_true ((step_keepsSurfaces hs rfl).surfacesCurrent h) trivial

theorem wellBound_initial (eglContext : EGLContext) (pbufSurface : EGLSurface) :
    (initial eglContext pbufSurface : FrameBuffer n).WellBound :=
  ⟨fun _ _ h => (nomatch h), fun _ => rfl⟩

theorem surfacesCurrent_initial (eglContext : EGLContext) (pbufSurface : EGLSurface) :
    (initial eglContext pbufSurface : FrameBuffer n).SurfacesCurrent :=
  ⟨fun _ _ h => (nomatch h), fun _ _ h => (nomatch h)⟩

/-- While every bind operation leaves only surfaces that are bound again, cleared, destroyed or
another thread's, surfaces have no contexts but current ones; the first that does not leaves one
behind. -/
theorem surfaces_current {eglContext : EGLContext} {pbufSurface : EGLSurface}
    (h : Run.Reach FrameBuffer.step Releases (initial eglContext pbufSurface) s) :
    s.SurfacesCurrent ∧
      ∀ call s', s.step call = .ok s' → (s'.SurfacesCurrent ↔ s.Releases call) := by
  have hinv : s.WellBound ∧ s.SurfacesCurrent :=
    h.invariant (I := fun s => s.WellBound ∧ s.SurfacesCurrent)
      ⟨wellBound_initial eglContext pbufSurface, surfacesCurrent_initial eglContext pbufSurface⟩
      fun _ _ _ hs hok hstep =>
        ⟨hs.1.step hstep, (surfacesCurrent_step hs.1 hs.2 hstep).mpr hok⟩
  exact ⟨hinv.2, fun _ _ hs => surfacesCurrent_step hinv.1 hinv.2 hs⟩

/-- A context and two surfaces, one of them for drawing and one for reading. -/
def twoSurfaces : List (Fin 1 × Call) :=
  [.createRenderContext true 0 false 7, .createWindowSurface true 1 1 8,
    .createWindowSurface true 1 1 9, .bindContext 1 2 3 true].map (Prod.mk (Fin.last 0))

/-- A thread without a context leaves nothing behind. -/
def bindsAfresh (s : FrameBuffer n) : Fin n × Call → Bool
  | (t, .bindContext _ _ _ _) => (s.tinfo t).currContext.isNone
  | _ => true

theorem releases_of_bindsAfresh (s : FrameBuffer n) (call : Fin n × Call)
    (h : s.bindsAfresh call = true) : s.Releases call := by
  obtain ⟨t, call⟩ := call
  cases call with
  | bindContext p_context p_drawSurface p_readSurface egl =>
      have hnone : (s.tinfo t).currContext = none := Option.isNone_iff_eq_none.mp h
      have hno : ∀ c, (s.tinfo t).currContext ≠ some c := fun c hc => by
        rw [hnone] at hc
        cases hc
      intro _
      split
      · exact ⟨fun w c hc => absurd hc.1 (hno c), fun w c hc => absurd hc.1 (hno c)⟩
      · exact fun w c hc => absurd hc.1 (hno c)
      · trivial
  | _ => trivial

theorem twoSurfaces_check :
    Run.check step bindsAfresh (fun s => s.bindings.read 1 = some 0)
      (initial 1 2) twoSurfaces = true := by
  decide +kernel

theorem surfaces_current_two :
    ∃ s : FrameBuffer 1, s.bindings.read 1 = some 0 ∧ s.SurfacesCurrent := by
  obtain ⟨s, hreach, hs⟩ := Run.exists_reach_of_check releases_of_bindsAfresh twoSurfaces_check
  exact ⟨s, of_decide_eq_true hs, (surfaces_current hreach).1⟩

theorem unbound_check :
    Run.check step (fun _ _ => true)
      (fun s => s.bindings.read 1 = some 0 && (s.tinfo (Fin.last 0)).currContext = none)
      (initial 1 2) (twoSurfaces ++ [(Fin.last 0, .bindContext 0 0 0 true)]) = true := by
  decide +kernel

/-- After the unbind operation of the only thread, the read surface still has the context. -/
theorem read_after_unbind :
    ∃ s : FrameBuffer 1, Run.Reach step (fun _ _ => True) (initial 1 2) s ∧
      s.bindings.read 1 = some 0 ∧ (∀ t, (s.tinfo t).currContext = none) ∧
      ¬s.SurfacesCurrent := by
  obtain ⟨s, hreach, hs⟩ := Run.exists_reach_of_check (fun _ _ _ => trivial) unbound_check
  rw [Bool.and_eq_true, decide_eq_true_eq, decide_eq_true_eq] at hs
  have hnone : ∀ t, (s.tinfo t).currContext = none := by
    intro t
    have ht : t = Fin.last 0 := Fin.ext (Nat.lt_one_iff.mp t.isLt)
    rw [ht]
    exact hs.2
  refine ⟨s, hreach, hs.1, hnone, fun h => ?_⟩
  obtain ⟨t, ht, -⟩ := h.read 1 0 hs.1
  rw [hnone] at ht
  cases ht

end FrameBuffer

end AndroidRenderer.OpenglRender
