import AndroidRenderer.OpenglRender.DecoderData
import AndroidRenderer.OpenglRender.HandleTables

/-!
# The contexts of window surfaces

A window surface has a pointer to the context that it was bound to for drawing, and one for
reading. Only `bindContext` sets them, and the destruction of a surface, which may happen in
`bindContext` as well, when the thread's former surface has no other references.
-/

namespace AndroidRenderer.OpenglRender

/-- `m_drawContext` and `m_readContext` of all surfaces. -/
@[ext]
structure Bindings where
  draw : ObjectId → Option ObjectId
  read : ObjectId → Option ObjectId

namespace Bindings

/-- The surface is destroyed. -/
def clear (b : Bindings) (w : ObjectId) : Bindings :=
  ⟨Function.update b.draw w none, Function.update b.read w none⟩

def bindDraw (b : Bindings) (w : ObjectId) (ctx : Option ObjectId) : Bindings :=
  { b with draw := Function.update b.draw w ctx }

def bindRead (b : Bindings) (w : ObjectId) (ctx : Option ObjectId) : Bindings :=
  { b with read := Function.update b.read w ctx }

/-- The unbind operation of a thread with the surfaces `draw` and `read`: both contexts of the draw
surface are cleared, and the read surface is left alone. -/
def unbind (b : Bindings) : Option ObjectId → Option ObjectId → Bindings
  | some d, some _ => b.clear d
  | _, _ => b

/-- The surfaces of `P` have no contexts in `b'`, and the others those that they have in `b`. -/
structure Without (b b' : Bindings) (P : ObjectId → Prop) : Prop where
  gone : ∀ w, P w → b'.draw w = none ∧ b'.read w = none
  kept : ∀ w, ¬P w → b'.draw w = b.draw w ∧ b'.read w = b.read w

variable {b b' b'' : Bindings} {P Q : ObjectId → Prop}

theorem Without.nothing (h : b' = b) (hP : ∀ w, ¬P w) : Without b b' P :=
  ⟨fun w hw => absurd hw (hP w), fun _ _ => by rw [h]; exact ⟨rfl, rfl⟩⟩

theorem without_clear (b : Bindings) (w : ObjectId) : Without b (b.clear w) (· = w) := by
  constructor
  · rintro _ rfl
    exact ⟨Function.update_self _ _ _, Function.update_self _ _ _⟩
  · intro w' hne
    exact ⟨Function.update_of_ne hne _ _, Function.update_of_ne hne _ _⟩

theorem Without.trans (h : Without b b' P) (h' : Without b' b'' Q) :
    Without b b'' fun w => P w ∨ Q w := by
  constructor
  · grind [h'.kept, h'.gone, h.gone]
  · intro w hw
    rw [not_or] at hw
    grind [h'.kept, h.kept]

theorem Without.congr (h : Without b b' P) (hiff : ∀ w, P w ↔ Q w) : Without b b' Q :=
  ⟨fun w hw => h.gone w ((hiff w).mpr hw), fun w hw => h.kept w fun hP => hw ((hiff w).mp hP)⟩

end Bindings

namespace FrameBuffer

variable {n : Nat} {s s' : FrameBuffer n} {t : Fin n} {w : ObjectId}

def bindings (s : FrameBuffer n) : Bindings :=
  ⟨fun w => (s.window w).m_drawContext, fun w => (s.window w).m_readContext⟩

theorem SameContexts.bindings (h : SameContexts s s') : s'.bindings = s.bindings := by
  ext w : 2
  · exact (h.surfaces w).2
  · exact (h.surfaces w).1

theorem bindings_of_windows (h : s'.windows = s.windows) : s'.bindings = s.bindings := by
  rw [FrameBuffer.bindings, FrameBuffer.bindings]
  simp only [window, h]

@[simp] theorem releaseContext_windows (s : FrameBuffer n) (c : Option ObjectId) :
    (s.releaseContext c).windows = s.windows := by
  unfold releaseContext
  grind

/-! ## Assignments -/

/-- A surface that is not there has no contexts. -/
theorem window_of_ge (h : ¬w < s.windows.length) : s.window w = .new :=
  List.getD_eq_default _ _ (Nat.le_of_not_lt h)

theorem setWindow_bindings {win : WindowSurface} (h : w < s.windows.length ∨
    win.m_drawContext = none ∧ win.m_readContext = none) :
    (s.setWindow w win).bindings = ⟨Function.update s.bindings.draw w win.m_drawContext,
      Function.update s.bindings.read w win.m_readContext⟩ := by
  have hwindow : ∀ w', (s.setWindow w win).window w' = if w' = w ∧ w < s.windows.length then win
      else s.window w' := fun w' => window_setWindow s w w' win
  ext w' : 2
  all_goals
    dsimp only [bindings]
    rw [hwindow]
    by_cases hw' : w' = w
    · subst hw'
      rw [Function.update_self]
      obtain hlt | ⟨hdraw, hread⟩ := h
      · rw [if_pos ⟨rfl, hlt⟩]
      · split
        · rfl
        · rename_i hge
          rw [window_of_ge fun hlt => hge ⟨rfl, hlt⟩]
          first | rw [hdraw] | rw [hread]
          rfl
    · grind

theorem setDrawContext_bindings {ctx : Option ObjectId}
    (h : w < s.windows.length ∨ ctx = none) :
    (s.setDrawContext w ctx).bindings = s.bindings.bindDraw w ctx := by
  have hwin : w < s.windows.length ∨ ctx = none ∧ (s.window w).m_readContext = none := by
    by_cases hlt : w < s.windows.length
    · exact .inl hlt
    · refine .inr ⟨h.resolve_left hlt, ?_⟩
      rw [window_of_ge hlt]
      rfl
  have hread : Function.update s.bindings.read w (s.window w).m_readContext = s.bindings.read :=
    Function.update_eq_self w s.bindings.read
  rw [setDrawContext, bindings_of_windows (releaseContext_windows _ _), setWindow_bindings hwin,
    Bindings.bindDraw]
  exact congrArg _ hread

theorem setReadContext_bindings {ctx : Option ObjectId}
    (h : w < s.windows.length ∨ ctx = none) :
    (s.setReadContext w ctx).bindings = s.bindings.bindRead w ctx := by
  have hwin : w < s.windows.length ∨ (s.window w).m_drawContext = none ∧ ctx = none := by
    by_cases hlt : w < s.windows.length
    · exact .inl hlt
    · refine .inr ⟨?_, h.resolve_left hlt⟩
      rw [window_of_ge hlt]
      rfl
  have hdraw : Function.update s.bindings.draw w (s.window w).m_drawContext = s.bindings.draw :=
    Function.update_eq_self w s.bindings.draw
  rw [setReadContext, bindings_of_windows (releaseContext_windows _ _), setWindow_bindings hwin,
    Bindings.bindRead]
  exact congrArg (Bindings.mk · _) hdraw

@[simp] theorem destroyWindowSurface_bindings (s : FrameBuffer n) (t : Fin n) (w : ObjectId) :
    (s.destroyWindowSurface t w).bindings = s.bindings.clear w := by
  rw [destroyWindowSurface, (SameContexts.setAttachedColorBuffer _ t w none).bindings,
    setReadContext_bindings (.inr rfl), setDrawContext_bindings (.inr rfl)]
  rfl

theorem windowReferenced_iff : s.windowReferenced w = true ↔
    (∃ id, s.m_windows.get? id = some w) ∨
      ∃ t, (s.tinfo t).currDrawSurf = some w ∨ (s.tinfo t).currReadSurf = some w := by
  simp only [windowReferenced, Bool.or_eq_true, List.any_eq_true, decide_eq_true_eq]
  simp [KeyedVector.get?_eq_some_iff]

/-- The last reference to a surface takes it away. -/
theorem releaseWindow_bindings (s : FrameBuffer n) (t : Fin n) (w : ObjectId) :
    (s.releaseWindow t (some w)).bindings =
      if s.windowReferenced w then s.bindings else s.bindings.clear w := by
  rw [releaseWindow]
  split
  · rfl
  · exact destroyWindowSurface_bindings s t w

/-! ## The surfaces of a thread -/

/-- A surface that the thread has, and nothing else refers to. -/
structure OnlyOf (s : FrameBuffer n) (t : Fin n) (w : ObjectId) : Prop where
  unnamed : ∀ id, s.m_windows.get? id ≠ some w
  others : ∀ t', t' ≠ t → (s.tinfo t').currDrawSurf ≠ some w ∧ (s.tinfo t').currReadSurf ≠ some w

/-- A surface that goes with the thread's assignments: it was the thread's, only the thread refers
to it, and it is none of the new ones. -/
structure Lost (s : FrameBuffer n) (t : Fin n) (draw read : Option ObjectId) (w : ObjectId) :
    Prop where
  former : (s.tinfo t).currDrawSurf = some w ∨ (s.tinfo t).currReadSurf = some w
  only : s.OnlyOf t w
  not_draw : draw ≠ some w
  not_read : read ≠ some w

theorem windowReferenced_setTinfo (info : RenderThreadInfo) :
    (s.setTinfo t info).windowReferenced w = false ↔
      s.OnlyOf t w ∧ info.currDrawSurf ≠ some w ∧ info.currReadSurf ≠ some w := by
  rw [← Bool.not_eq_true, windowReferenced_iff, not_or, not_exists, not_exists]
  constructor
  · rintro ⟨hnames, hthreads⟩
    have hself := hthreads t
    rw [setTinfo_tinfo, not_or] at hself
    refine ⟨⟨hnames, fun t' ht' => ?_⟩, hself⟩
    have hother := hthreads t'
    rwa [setTinfo_tinfo_ne s info ht', not_or] at hother
  · rintro ⟨honly, hself⟩
    refine ⟨honly.unnamed, fun t' => ?_⟩
    rw [not_or]
    grind [honly.others]

theorem assignSurface_bindings (s : FrameBuffer n) (t : Fin n) (info : RenderThreadInfo)
    (old : Option ObjectId) :
    s.bindings.Without ((s.setTinfo t info).releaseWindow t old).bindings fun w =>
      old = some w ∧ s.OnlyOf t w ∧ info.currDrawSurf ≠ some w ∧ info.currReadSurf ≠ some w := by
  have hsame : (s.setTinfo t info).bindings = s.bindings := bindings_of_windows rfl
  cases old with
  | none => exact Bindings.Without.nothing hsame fun w h => by cases h.1
  | some old =>
      rw [releaseWindow_bindings, hsame]
      split
      · rename_i href
        refine .nothing rfl fun w h => ?_
        obtain ⟨heq, hfree⟩ := h
        rw [← Option.some.inj heq, ← windowReferenced_setTinfo, href] at hfree
        cases hfree
      · rename_i href
        rw [Bool.not_eq_true, windowReferenced_setTinfo] at href
        grind [Bindings.without_clear]

theorem OnlyOf.congr (hwindows : s'.m_windows = s.m_windows)
    (htinfo : ∀ t', t' ≠ t → s'.tinfo t' = s.tinfo t') : s'.OnlyOf t w ↔ s.OnlyOf t w := by
  constructor
  · rintro ⟨hunnamed, hothers⟩
    rw [hwindows] at hunnamed
    exact ⟨hunnamed, fun t' ht' => htinfo t' ht' ▸ hothers t' ht'⟩
  · rintro ⟨hunnamed, hothers⟩
    refine ⟨?_, fun t' ht' => ?_⟩
    · grind
    · grind

theorem windows_of_tables (h : s'.tables = s.tables) : s'.m_windows = s.m_windows :=
  congrArg Tables.windows h

/-- Both surfaces of a thread are replaced. A new one has a handle, or it was there before. -/
theorem updateThreadInfo_bindings (s : FrameBuffer n) (t : Fin n) (ctx draw read : Option ObjectId)
    (hread : ∀ w, read = some w → (∃ id, s.m_windows.get? id = some w) ∨
      (s.tinfo t).currReadSurf = some w) :
    s.bindings.Without (s.updateThreadInfo t ctx draw read).bindings (s.Lost t draw read) := by
  let s₁ := s.setCurrContext t ctx
  let s₂ := s₁.setCurrDrawSurf t draw
  have htinfo₁ : s₁.tinfo = (s.setTinfo t { s.tinfo t with currContext := ctx }).tinfo :=
    releaseContext_tinfo _ _
  have htinfo₂ : s₂.tinfo = (s₁.setTinfo t { s₁.tinfo t with currDrawSurf := draw }).tinfo :=
    (KeepsContexts.releaseWindow _ t _).tinfo
  have hself₁ : s₁.tinfo t = { s.tinfo t with currContext := ctx } := by
    rw [htinfo₁, setTinfo_tinfo]
  have hself₂ : s₂.tinfo t = { s.tinfo t with currContext := ctx, currDrawSurf := draw } := by
    rw [htinfo₂, setTinfo_tinfo, hself₁]
  have honly₁ : ∀ w, s₁.OnlyOf t w ↔ s.OnlyOf t w := fun w =>
    OnlyOf.congr (windows_of_tables (by simp [s₁, setCurrContext])) fun t' ht' => by
      rw [htinfo₁, setTinfo_tinfo_ne s _ ht']
  have honly₂ : ∀ w, s₂.OnlyOf t w ↔ s.OnlyOf t w := fun w =>
    (OnlyOf.congr (windows_of_tables (by simp [s₂, setCurrDrawSurf])) fun t' ht' => by
      rw [htinfo₂, setTinfo_tinfo_ne s₁ _ ht']).trans (honly₁ w)
  have hsame : s₁.bindings = s.bindings := bindings_of_windows (releaseContext_windows _ _)
  have hdraw := assignSurface_bindings s₁ t { s₁.tinfo t with currDrawSurf := draw }
    (s₁.tinfo t).currDrawSurf
  have hboth := hdraw.trans (assignSurface_bindings s₂ t { s₂.tinfo t with currReadSurf := read }
    (s₂.tinfo t).currReadSurf)
  rw [hsame] at hboth
  refine hboth.congr fun w => ?_
  simp only [honly₁, honly₂, hself₁, hself₂]
  constructor
  · rintro (⟨hformer, honly, hnew, hold⟩ | ⟨hformer, honly, hdraw, hread⟩)
    · refine ⟨.inl hformer, honly, hnew, fun heq => ?_⟩
      obtain ⟨id, hid⟩ | hcurr := hread w heq
      · exact honly.unnamed id hid
      · exact hold hcurr
    · exact ⟨.inr hformer, honly, hdraw, hread⟩
  · rintro ⟨hformer, honly, hdraw, hread⟩
    grind

/-! ## What `bindContext` does -/

/-- The arguments of a bind operation. -/
structure Names (s : FrameBuffer n) (p_context p_drawSurface p_readSurface : HandleType)
    (c d r : ObjectId) : Prop where
  context : s.m_contexts.get? p_context = some c
  draw : s.m_windows.get? p_drawSurface = some d
  read : s.m_windows.get? p_readSurface = some r

theorem bindArguments_some {p_context p_drawSurface p_readSurface : HandleType}
    {args : Option ObjectId × Option ObjectId × Option ObjectId}
    (h : s.bindArguments p_context p_drawSurface p_readSurface = some args) :
    (args = (none, none, none) ∧ p_readSurface = p_drawSurface) ∨
      ∃ c d r, args = (some c, some d, some r) ∧
        s.Names p_context p_drawSurface p_readSurface c d r := by
  unfold bindArguments at h
  split at h
  · split at h
    · rename_i c d hc hd
      split at h
      · obtain ⟨r, hr, rfl⟩ := Option.map_eq_some_iff.mp h
        exact .inr ⟨c, d, r, rfl, hc, hd, hr⟩
      · rename_i hsame
        cases h
        refine .inr ⟨c, d, d, rfl, hc, hd, ?_⟩
        grind
    · cases h
  · grind

/-- The thread has `c` current for the surfaces `d` and `r`. -/
structure Rebound (s s' : FrameBuffer n) (t : Fin n) (c d r : ObjectId) : Prop where
  surfaces : ((s.bindings.bindDraw d (some c)).bindRead r (some c)).Without s'.bindings
    (s.Lost t (some d) (some r))
  context : (s'.tinfo t).currContext = some c
  draw : (s'.tinfo t).currDrawSurf = some d
  read : (s'.tinfo t).currReadSurf = some r
  others : ∀ t', t' ≠ t → s'.tinfo t' = s.tinfo t'

structure Unbound (s s' : FrameBuffer n) (t : Fin n) : Prop where
  surfaces : s'.bindings = s.bindings.unbind (s.tinfo t).currDrawSurf (s.tinfo t).currReadSurf
  context : (s'.tinfo t).currContext = none
  draw : (s'.tinfo t).currDrawSurf = (s.tinfo t).currDrawSurf
  read : (s'.tinfo t).currReadSurf = (s.tinfo t).currReadSurf
  others : ∀ t', t' ≠ t → s'.tinfo t' = s.tinfo t'

/-- The handles of window surfaces name surfaces that are there. -/
def WindowsThere (s : FrameBuffer n) : Prop :=
  ∀ id w, s.m_windows.get? id = some w → w < s.windows.length

theorem fromHandle_some {id : HandleType} {c : ObjectId} (h : s.m_contexts.get? id = some c) :
    s.FromHandle (some c) := fun _ hc => ⟨id, hc ▸ h⟩

@[simp] theorem bindSurfaces_tables (s : FrameBuffer n) (same : Bool)
    (ctx draw read : Option ObjectId) :
    (s.bindSurfaces same ctx draw read).tables = s.tables := by
  unfold bindSurfaces
  split
  · split <;> simp
  · rfl

theorem bindSurfaces_some {same : Bool} {c d r : ObjectId} (hd : d < s.windows.length)
    (hr : r < s.windows.length) (hsame : same = true → r = d) :
    (s.bindSurfaces same (some c) (some d) (some r)).bindings =
      (s.bindings.bindDraw d (some c)).bindRead r (some c) := by
  cases same with
  | false =>
      have hlength : (s.setDrawContext d (some c)).windows.length = s.windows.length :=
        congrArg Tables.windowCount (setDrawContext_tables s d (some c))
      show ((s.setDrawContext d (some c)).setReadContext r (some c)).bindings = _
      grind [setReadContext_bindings, setDrawContext_bindings]
  | true =>
      obtain rfl := hsame rfl
      have hlength : (s.setReadContext r (some c)).windows.length = s.windows.length :=
        congrArg Tables.windowCount (setReadContext_tables s r (some c))
      show ((s.setReadContext r (some c)).setDrawContext r (some c)).bindings = _
      rw [setDrawContext_bindings (.inl (by rwa [hlength])), setReadContext_bindings (.inl hr)]
      rfl

theorem bindSurfaces_none (s : FrameBuffer n) (draw read : Option ObjectId) :
    (s.bindSurfaces true none draw read).bindings = s.bindings.unbind draw read := by
  cases draw with
  | none => rfl
  | some d =>
      cases read with
      | none => rfl
      | some r =>
          show ((s.setReadContext d none).setDrawContext d none).bindings = _
          rw [setDrawContext_bindings (.inr rfl), setReadContext_bindings (.inr rfl)]
          rfl

theorem withContextData_surfaces (s : FrameBuffer n) (info : RenderThreadInfo)
    (ctx : Option ObjectId) :
    (s.withContextData info ctx).currDrawSurf = info.currDrawSurf ∧
      (s.withContextData info ctx).currReadSurf = info.currReadSurf := by
  unfold withContextData
  grind

theorem Lost.congr {draw read : Option ObjectId} (hwindows : s'.m_windows = s.m_windows)
    (htinfo : s'.tinfo = s.tinfo) : s'.Lost t draw read w ↔ s.Lost t draw read w := by
  have honly : s'.OnlyOf t w ↔ s.OnlyOf t w :=
    OnlyOf.congr hwindows fun t' _ => congrFun htinfo t'
  constructor
  · rintro ⟨hformer, honly', hdraw, hread⟩
    rw [htinfo] at hformer
    exact ⟨hformer, honly.mp honly', hdraw, hread⟩
  · rintro ⟨hformer, honly', hdraw, hread⟩
    rw [← htinfo] at hformer
    exact ⟨hformer, honly.mpr honly', hdraw, hread⟩

theorem rebound_of_bindObjects (hthere : s.WindowsThere)
    {p_context p_drawSurface p_readSurface : HandleType} {c d r : ObjectId}
    (h : s.Names p_context p_drawSurface p_readSurface c d r) (t : Fin n) :
    s.Rebound (s.bindObjects t (p_readSurface = p_drawSurface) (some c) (some d) (some r)) t c d r := by
  let s₁ := s.eglMakeCurrent t (s.window d).m_eglSurface (s.window r).m_eglSurface (s.context c).m_ctx
  let s₂ := s₁.bindSurfaces (p_readSurface = p_drawSurface) (some c) (some d) (some r)
  have hctx : s₁.FromHandle (some c) := fromHandle_some (s := s₁) h.context
  have htinfo : s₂.tinfo = s.tinfo := (KeepsContexts.bindSurfaces hctx _ _ _).tinfo
  have htables : s₂.tables = s.tables := bindSurfaces_tables s₁ _ _ _ _
  have hwindows : s₂.m_windows = s.m_windows := windows_of_tables htables
  have hsame : decide (p_readSurface = p_drawSurface) = true → r = d := by
    intro heq
    have hr := h.read
    rw [of_decide_eq_true heq, h.draw] at hr
    exact (Option.some.inj hr).symm
  have hbindings : s₂.bindings = (s.bindings.bindDraw d (some c)).bindRead r (some c) :=
    bindSurfaces_some (s := s₁) (hthere _ _ h.draw) (hthere _ _ h.read) hsame
  have hsurfaces := updateThreadInfo_bindings s₂ t (some c) (some d) (some r) fun w hw =>
    .inl ⟨p_readSurface, by rw [hwindows, ← hw]; exact h.read⟩
  have hctx₂ : s₂.FromHandle (some c) := hctx.of_keeps (KeepsContexts.bindSurfaces hctx _ _ _)
  have hinfo := (SetsInfo.updateThreadInfo hctx₂ t (some d) (some r)).tinfo
  rw [hbindings] at hsurfaces
  refine ⟨hsurfaces.congr fun w => Lost.congr hwindows htinfo, ?_, ?_, ?_, ?_⟩
  · show ((s₂.updateThreadInfo t (some c) (some d) (some r)).tinfo t).currContext = some c
    rw [hinfo, setTinfo_tinfo, withContextData_currContext]
  · show ((s₂.updateThreadInfo t (some c) (some d) (some r)).tinfo t).currDrawSurf = some d
    rw [hinfo, setTinfo_tinfo, (withContextData_surfaces _ _ _).1]
  · show ((s₂.updateThreadInfo t (some c) (some d) (some r)).tinfo t).currReadSurf = some r
    rw [hinfo, setTinfo_tinfo, (withContextData_surfaces _ _ _).2]
  · intro t' ht'
    show (s₂.updateThreadInfo t (some c) (some d) (some r)).tinfo t' = s.tinfo t'
    rw [hinfo, setTinfo_tinfo_ne _ _ ht', htinfo]

theorem unbound_of_bindObjects (s : FrameBuffer n) (t : Fin n) :
    s.Unbound (s.bindObjects t true none none none) t := by
  let draw := (s.tinfo t).currDrawSurf
  let read := (s.tinfo t).currReadSurf
  let s₁ := s.eglMakeCurrent t EGL_NO_SURFACE EGL_NO_SURFACE EGL_NO_CONTEXT
  let s₂ := s₁.bindSurfaces true none draw read
  have hctx : s₁.FromHandle none := fromHandle_none s₁
  have htinfo : s₂.tinfo = s.tinfo := (KeepsContexts.bindSurfaces hctx true draw read).tinfo
  have hsurfaces := updateThreadInfo_bindings s₂ t none draw read fun w hw =>
    .inr (by rw [htinfo]; exact hw)
  have hlost : ∀ w, ¬s₂.Lost t draw read w := by
    rintro w ⟨hformer, -, hdraw, hread⟩
    grind
  have hinfo := (SetsInfo.updateThreadInfo (fromHandle_none s₂) t draw read).tinfo
  refine ⟨?_, ?_, ?_, ?_, ?_⟩
  · refine Eq.trans ?_ (bindSurfaces_none s₁ draw read)
    ext w : 2
    · exact (hsurfaces.kept w (hlost w)).1
    · exact (hsurfaces.kept w (hlost w)).2
  · show ((s₂.updateThreadInfo t none draw read).tinfo t).currContext = none
    rw [hinfo, setTinfo_tinfo, withContextData_currContext]
  · show ((s₂.updateThreadInfo t none draw read).tinfo t).currDrawSurf = draw
    rw [hinfo, setTinfo_tinfo, (withContextData_surfaces _ _ _).1]
  · show ((s₂.updateThreadInfo t none draw read).tinfo t).currReadSurf = read
    rw [hinfo, setTinfo_tinfo, (withContextData_surfaces _ _ _).2]
  · intro t' ht'
    show (s₂.updateThreadInfo t none draw read).tinfo t' = s.tinfo t'
    rw [hinfo, setTinfo_tinfo_ne _ _ ht', htinfo]

theorem bindContext_outcome (hthere : s.WindowsThere) (t : Fin n)
    (p_context p_drawSurface p_readSurface : HandleType) (egl : Bool) :
    ((s.bindContext t p_context p_drawSurface p_readSurface egl).1 = s ∧
        (egl = false ∨ s.bindArguments p_context p_drawSurface p_readSurface = none)) ∨
      (egl = true ∧ s.bindArguments p_context p_drawSurface p_readSurface = some (none, none, none) ∧
        s.Unbound (s.bindContext t p_context p_drawSurface p_readSurface egl).1 t) ∨
      (egl = true ∧ ∃ c d r, s.bindArguments p_context p_drawSurface p_readSurface =
          some (some c, some d, some r) ∧ s.Names p_context p_drawSurface p_readSurface c d r ∧
        s.Rebound (s.bindContext t p_context p_drawSurface p_readSurface egl).1 t c d r) := by
  unfold bindContext
  grind [bindArguments_some, unbound_of_bindObjects, rebound_of_bindObjects]

/-! ## What the other calls do -/

theorem createRenderContext_surfaces {fbconf : Bool} {p_share : HandleType} {p_isGL2 : Bool}
    {ctx : EGLContext} {r : FrameBuffer n × HandleType}
    (h : s.createRenderContext fbconf p_share p_isGL2 ctx = .ok r) :
    r.1.tinfo = s.tinfo ∧ r.1.bindings = s.bindings := by
  unfold createRenderContext newContext at h
  split at h
  · cases h
    exact ⟨rfl, rfl⟩
  · split at h
    · rename_i heq
      split at heq
      · cases heq
        cases h
        exact ⟨rfl, rfl⟩
      · split at heq
        · cases heq
          cases h
          exact ⟨rfl, rfl⟩
        · cases heq
    · rename_i heq
      split at heq
      · cases heq
      · split at heq
        · cases heq
        · cases heq
          obtain ⟨⟨s', id⟩, hgen, hr⟩ := Run.bind_eq_ok.mp h
          cases hr
          obtain ⟨-, rfl⟩ := genHandle_generates hgen
          exact ⟨rfl, rfl⟩

/-- The surfaces of a state are those of the state before, except for one that has no handle any
more. -/
structure KeepsSurfaces (s s' : FrameBuffer n) : Prop where
  tinfo : s'.tinfo = s.tinfo
  bindings : s'.bindings = s.bindings ∨
    ∃ w, (∀ id, s'.m_windows.get? id ≠ some w) ∧ s'.bindings = s.bindings.clear w

theorem SameContexts.keepsSurfaces (h : SameContexts s s') : s.KeepsSurfaces s' :=
  ⟨h.tinfo, .inl h.bindings⟩

theorem DestroyWindowSurface_keepsSurfaces (s : FrameBuffer n) (t : Fin n)
    (p_surface : HandleType) : s.KeepsSurfaces (s.DestroyWindowSurface t p_surface) := by
  let s₁ : FrameBuffer n := { s with m_windows := s.m_windows.remove p_surface }
  have htinfo := (KeepsContexts.releaseWindow s₁ t (s.m_windows.get? p_surface)).tinfo
  refine ⟨htinfo, ?_⟩
  rw [DestroyWindowSurface]
  cases s.m_windows.get? p_surface with
  | none => exact .inl rfl
  | some w =>
      rw [releaseWindow_bindings]
      split
      · exact .inl rfl
      · rename_i href
        refine .inr ⟨w, fun id hid => href (windowReferenced_iff.mpr (.inl ⟨id, ?_⟩)), rfl⟩
        rw [← hid, windows_of_tables (releaseWindow_tables _ _ _)]

theorem perform_keepsSurfaces {call : OwnContextCall} (h : s.perform t call = .ok s') :
    s.KeepsSurfaces s' := by
  cases call with
  | createColorBuffer p_width p_height p_internalFormat =>
      obtain ⟨r, hr, rfl⟩ := Run.map_eq_ok.mp h
      exact (SameContexts.createColorBuffer hr).keepsSurfaces
  | closeColorBuffer p_colorbuffer =>
      cases h
      exact (SameContexts.closeColorBuffer s t p_colorbuffer).keepsSurfaces
  | destroyColorBuffer =>
      cases h
      exact (SameContexts.unbind_bind s t).keepsSurfaces
  | DestroyWindowSurface p_surface =>
      cases h
      exact DestroyWindowSurface_keepsSurfaces s t p_surface
  | updateColorBuffer p_colorbuffer =>
      cases h
      exact (SameContexts.updateColorBuffer s t p_colorbuffer).keepsSurfaces
  | rcReadColorBuffer p_colorbuffer =>
      cases h
      exact (SameContexts.refl s).keepsSurfaces
  | flushWindowSurfaceColorBuffer p_surface =>
      obtain ⟨r, hr, rfl⟩ := Run.map_eq_ok.mp h
      exact (SameContexts.flushWindowSurfaceColorBuffer hr).keepsSurfaces
  | post p_colorbuffer =>
      cases h
      exact (SameContexts.post s t p_colorbuffer).keepsSurfaces
  | repost =>
      cases h
      exact (SameContexts.repost s t).keepsSurfaces
  | setDisplayRotation =>
      cases h
      exact (SameContexts.repost s t).keepsSurfaces
  | setupSubWindow subWin surface =>
      cases h
      exact (SameContexts.setupSubWindow s t subWin surface).keepsSurfaces
  | removeSubWindow =>
      cases h
      exact (SameContexts.removeSubWindow s t).keepsSurfaces

def isBind : Call → Bool
  | .bindContext _ _ _ _ => true
  | _ => false

/-- Every call but a bind operation. -/
theorem step_keepsSurfaces {call : Call} (h : s.step (t, call) = .ok s')
    (hother : isBind call = false) : s.KeepsSurfaces s' := by
  cases call with
  | own call => exact perform_keepsSurfaces h
  | createRenderContext fbconf p_share p_isGL2 ctx =>
      obtain ⟨r, hr, rfl⟩ := Run.map_eq_ok.mp h
      obtain ⟨htinfo, hbindings⟩ := createRenderContext_surfaces hr
      exact ⟨htinfo, .inl hbindings⟩
  | DestroyRenderContext p_context =>
      cases h
      exact ⟨releaseContext_tinfo _ _, .inl (bindings_of_windows (releaseContext_windows _ _))⟩
  | createWindowSurface fbconf p_width p_height pbuf =>
      obtain ⟨r, hr, rfl⟩ := Run.map_eq_ok.mp h
      exact (SameContexts.createWindowSurface hr).keepsSurfaces
  | openColorBuffer p_colorbuffer =>
      cases h
      exact (SameContexts.openColorBuffer s p_colorbuffer).keepsSurfaces
  | setWindowSurfaceColorBuffer p_surface p_colorbuffer pbuf =>
      cases h
      exact (SameContexts.setWindowSurfaceColorBuffer s t p_surface p_colorbuffer pbuf).keepsSurfaces
  | bindContext p_context p_drawSurface p_readSurface egl => cases hother
  | finish =>
      cases h
      exact (SameContexts.eglMakeCurrent s t _ _ _).keepsSurfaces

theorem windowsThere_step {T T' : Tables} {call : Call} {id : HandleType}
    (h : ∀ id w, T.windows.get? id = some w → w < T.windowCount) (hstep : T.Step call id T') :
    ∀ id w, T'.windows.get? id = some w → w < T'.windowCount := by
  have hgrown : ∀ id w, T.windows.get? id = some w → w < T.windowCount + 1 := fun id w hget =>
    Nat.lt_succ_of_lt (h id w hget)
  cases hstep with
  | createWindowSurface => grind
  | noPbuffer => exact hgrown
  | DestroyWindowSurface => grind
  | @openColorBuffer p_colorbuffer =>
      unfold Tables.openColorBuffer
      split <;> exact h
  | @closeColorBuffer p_colorbuffer => grind [Tables.closeColorBuffer]
  | createColorBuffer | createRenderContext | DestroyRenderContext | same => exact h

theorem WindowsThere.step {call : Call} (h : s.WindowsThere) (hs : s.step (t, call) = .ok s') :
    s'.WindowsThere :=
  windowsThere_step (T := s.tables) h (step_tables hs)

end FrameBuffer

end AndroidRenderer.OpenglRender
