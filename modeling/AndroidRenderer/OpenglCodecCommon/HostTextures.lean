import AndroidRenderer.OpenglCodecCommon.TextureEncoder
import AndroidRenderer.OpenglCodecCommon.TextureTable

/-!
# The textures of the host

The host has for each unit the texture bound to its 2D target and the flag of this target.
`Shows` says that these are what the guest means: the texture of the unit's target with
priority, and whether any of its targets is enabled.
-/

namespace AndroidRenderer

structure HostUnit where
  binding : GLuint
  enabled : Bool
  deriving DecidableEq, Repr

structure HostTextures where
  unit : Fin MAX_TEXTURE_UNITS → HostUnit
  activeUnit : Fin MAX_TEXTURE_UNITS

namespace HostTextures

def init : HostTextures := ⟨fun _ => ⟨0, false⟩, 0⟩

def setActive (h : HostTextures) (u : HostUnit) : HostTextures :=
  { h with unit := Function.update h.unit h.activeUnit u }

def exec (h : HostTextures) : TextureCommand → HostTextures
  | .glActiveTexture texture =>
      if lt : (texture - GL_TEXTURE0).toNat < MAX_TEXTURE_UNITS then
        { h with activeUnit := ⟨(texture - GL_TEXTURE0).toNat, lt⟩ }
      else h
  | .glBindTexture target texture =>
      if target = GL_TEXTURE_2D then
        h.setActive { h.unit h.activeUnit with binding := texture }
      else h
  | .glDeleteTextures textures =>
      { h with
        unit := fun u =>
          if (h.unit u).binding ∈ textures then { h.unit u with binding := 0 } else h.unit u }
  | .glEnable cap =>
      if cap = GL_TEXTURE_2D then h.setActive { h.unit h.activeUnit with enabled := true } else h
  | .glDisable cap =>
      if cap = GL_TEXTURE_2D then h.setActive { h.unit h.activeUnit with enabled := false } else h
  | .glTexParameter _ _ _ _ => h
  | .glGetTexParameter _ _ _ => h

def run (h : HostTextures) (commands : List TextureCommand) : HostTextures :=
  commands.foldl exec h

@[simp] theorem run_nil (h : HostTextures) : h.run [] = h := rfl

@[simp] theorem run_cons (h : HostTextures) (c : TextureCommand) (cs : List TextureCommand) :
    h.run (c :: cs) = (h.exec c).run cs := rfl

@[simp] theorem run_append (h : HostTextures) (cs cs' : List TextureCommand) :
    h.run (cs ++ cs') = (h.run cs).run cs' :=
  List.foldl_append

/-- The active unit is updated, the others stay. -/
@[grind =] theorem setActive_unit (h : HostTextures) (u : HostUnit) (i : Fin MAX_TEXTURE_UNITS) :
    (h.setActive u).unit i = if i = h.activeUnit then u else h.unit i :=
  Function.update_apply h.unit h.activeUnit u i

@[simp] theorem setActive_activeUnit (h : HostTextures) (u : HostUnit) :
    (h.setActive u).activeUnit = h.activeUnit := rfl

@[simp] theorem setActive_active (h : HostTextures) (u : HostUnit) :
    (h.setActive u).unit h.activeUnit = u := by
  rw [setActive_unit, if_pos rfl]

@[simp] theorem setActive_setActive (h : HostTextures) (u u' : HostUnit) :
    (h.setActive u).setActive u' = h.setActive u' := by
  simp [setActive]

@[simp] theorem setActive_self (h : HostTextures) : h.setActive (h.unit h.activeUnit) = h := by
  simp [setActive]

/-- A texture is bound to the 2D target of the active unit. -/
def bind (h : HostTextures) (texture : GLuint) : HostTextures :=
  h.setActive { h.unit h.activeUnit with binding := texture }

@[simp] theorem exec_glBindTexture_2D (h : HostTextures) (texture : GLuint) :
    h.exec (.glBindTexture GL_TEXTURE_2D texture) = h.bind texture := by
  rw [exec, if_pos rfl, bind]

@[simp] theorem exec_glTexParameter (h : HostTextures) (type : ParameterType)
    (target pname param : GLenum) : h.exec (.glTexParameter type target pname param) = h := rfl

@[simp] theorem exec_glGetTexParameter (h : HostTextures) (type : ParameterType)
    (target pname : GLenum) : h.exec (.glGetTexParameter type target pname) = h := rfl

@[simp] theorem bind_bind (h : HostTextures) (a b : GLuint) : (h.bind a).bind b = h.bind b := by
  simp [bind]

theorem bind_self {h : HostTextures} {texture : GLuint}
    (heq : (h.unit h.activeUnit).binding = texture) : h.bind texture = h := by
  rw [bind, ← heq]
  exact h.setActive_self

end HostTextures

/-! ## What the host shows -/

namespace TextureUnit

def shown (u : TextureUnit) : GLuint := u.boundTexture (u.priorityEnabledTarget GL_TEXTURE_2D)

/-- Any target is enabled. -/
def lit (u : TextureUnit) : Bool := u.enables .TEXTURE_2D || u.enables .TEXTURE_EXTERNAL

theorem boundTexture_toGLenum (u : TextureUnit) (t : TextureTarget) :
    u.boundTexture t.toGLenum = u.texture t := by
  rw [boundTexture, TextureTarget.ofGLenum_toGLenum]

def priority (u : TextureUnit) : TextureTarget :=
  if u.enables .TEXTURE_EXTERNAL then .TEXTURE_EXTERNAL else .TEXTURE_2D

theorem priorityEnabledTarget_eq (u : TextureUnit) :
    u.priorityEnabledTarget GL_TEXTURE_2D = u.priority.toGLenum := by
  unfold priorityEnabledTarget priority
  split
  · rfl
  · split <;> rfl

theorem shown_eq (u : TextureUnit) : u.shown = u.texture u.priority := by
  rw [shown, priorityEnabledTarget_eq, boundTexture_toGLenum]

@[simp] theorem priority_bind (u : TextureUnit) (t : TextureTarget) (texture : GLuint) :
    (u.bind t texture).priority = u.priority := rfl

@[grind =] theorem shown_bind (u : TextureUnit) (t : TextureTarget) (texture : GLuint) :
    (u.bind t texture).shown = if t = u.priority then texture else u.shown := by
  rw [shown_eq, shown_eq, priority_bind, bind]
  simp only [Function.update_apply, eq_comm]

@[simp] theorem lit_bind (u : TextureUnit) (t : TextureTarget) (texture : GLuint) :
    (u.bind t texture).lit = u.lit := rfl

end TextureUnit

/-- The host has on every unit what the guest means, and the same unit is active. -/
structure Shows (h : HostTextures) (s : TextureState) : Prop where
  activeUnit : h.activeUnit = s.activeUnit
  unit : ∀ u, h.unit u = ⟨(s.unit u).shown, (s.unit u).lit⟩

namespace Shows

variable {h : HostTextures} {s : TextureState}

theorem init : Shows .init .init := ⟨rfl, fun _ => rfl⟩

theorem active (hs : Shows h s) : h.unit h.activeUnit = ⟨s.active.shown, s.active.lit⟩ := by
  rw [hs.unit, hs.activeUnit]
  rfl

/-- Both sides change on the active unit. -/
theorem setActive (hs : Shows h s) {u : HostUnit} {v : TextureUnit} (heq : u = ⟨v.shown, v.lit⟩) :
    Shows (h.setActive u) (s.setActive v) := by
  refine ⟨hs.activeUnit, fun i => ?_⟩
  grind [hs.activeUnit, hs.unit]

theorem keep (hs : Shows h s) {v : TextureUnit} (hshown : v.shown = s.active.shown)
    (hlit : v.lit = s.active.lit) : Shows h (s.setActive v) := by
  have hset := hs.setActive (u := h.unit h.activeUnit) (v := v) (by rw [hs.active, hshown, hlit])
  rwa [HostTextures.setActive_self] at hset

theorem bind (hs : Shows h s) {v : TextureUnit} (hlit : v.lit = s.active.lit) {texture : GLuint}
    (hshown : texture = v.shown) : Shows (h.bind texture) (s.setActive v) :=
  hs.setActive (by rw [hs.active, hshown, hlit])

/-- The host binds again what the guest shows. -/
theorem rebind (hs : Shows h s) : h.bind s.active.shown = h :=
  HostTextures.bind_self (by rw [hs.active])

end Shows

namespace TextureEncoder

/-! ## The commands of the encoder -/

variable {h : HostTextures} {ctx : TextureEncoder}

theorem glActiveTexture_shows (hs : Shows h ctx.state) (texture : GLenum) :
    Shows (h.run (ctx.glActiveTexture texture).2) (ctx.glActiveTexture texture).1.state := by
  by_cases hlt : (texture - GL_TEXTURE0).toNat < MAX_TEXTURE_UNITS
  · have hcall : ctx.glActiveTexture texture =
        (⟨{ ctx.state with activeUnit := ⟨_, hlt⟩ }, ctx.error⟩, [.glActiveTexture texture]) := by
      simp [glActiveTexture, TextureState.setActiveTextureUnit, hlt]
    rw [hcall, HostTextures.run_cons, HostTextures.run_nil, HostTextures.exec, dif_pos hlt]
    exact ⟨rfl, hs.unit⟩
  · have hcall : ctx.glActiveTexture texture = (⟨ctx.state, GL_INVALID_OPERATION⟩, []) := by
      simp [glActiveTexture, TextureState.setActiveTextureUnit, hlt, GL_INVALID_OPERATION,
        GL_NO_ERROR]
    rw [hcall]
    exact hs

/-- A temporary binding of the 2D target leaves nothing behind. -/
theorem withTarget_run (hs : Shows h ctx.state) (target : GLenum)
    (command : GLenum → TextureCommand)
    (hcommand : ∀ h' target, HostTextures.exec h' (command target) = h') :
    h.run (ctx.withTarget target command) = h := by
  unfold withTarget
  split
  · have hrestore : ∀ h' : HostTextures, h'.run ctx.restore2DTextureTarget =
        h'.bind ctx.state.active.shown := fun h' => by
      rw [restore2DTextureTarget, HostTextures.run_cons, HostTextures.exec_glBindTexture_2D]
      rfl
    rw [HostTextures.run_append, HostTextures.run_append, HostTextures.run_cons, hcommand,
      HostTextures.run_nil, hrestore, override2DTextureTarget]
    split
    · rw [HostTextures.run_cons, HostTextures.exec_glBindTexture_2D, HostTextures.run_nil,
        HostTextures.bind_bind, hs.rebind]
    · exact hs.rebind
  · rw [HostTextures.run_cons, hcommand, HostTextures.run_nil]

theorem glTexParameter_shows (hs : Shows h ctx.state) (valid : GLenum → GLenum → Bool)
    (type : ParameterType) (target pname param : GLenum) :
    Shows (h.run (ctx.glTexParameter valid type target pname param).2)
      (ctx.glTexParameter valid type target pname param).1.state := by
  unfold glTexParameter
  split
  · exact hs
  · rw [withTarget_run hs _ _ fun _ _ => rfl]
    exact hs

theorem glGetTexParameter_shows (hs : Shows h ctx.state) (type : ParameterType)
    (target pname : GLenum) :
    Shows (h.run (ctx.glGetTexParameter type target pname).2)
      (ctx.glGetTexParameter type target pname).1.state := by
  unfold glGetTexParameter
  split
  · exact hs
  · rw [withTarget_run hs _ _ fun _ _ => rfl]
    exact hs

/-- The commands for a bound texture leave the 2D target of the host bound to it if its target
has priority, and to what it was bound to before if not. -/
theorem bindCommands_shows {s : TextureState} (hs : Shows h s) {t : TextureTarget}
    {texture : GLuint} {s' : TextureState} (hunit : s'.unit = s.unit)
    (hactive : s'.activeUnit = s.activeUnit) (firstUse : Bool) :
    Shows (h.run (bindCommands (s'.setActive (s'.active.bind t texture)) t.toGLenum texture firstUse))
      (s'.setActive (s'.active.bind t texture)) := by
  have hs' : Shows h s' := ⟨hs.activeUnit.trans hactive.symm, fun u => by rw [hunit, hs.unit]⟩
  have hstate : (s'.setActive (s'.active.bind t texture)).active = s'.active.bind t texture := by
    rw [TextureState.active, TextureState.setActive_unit]
    exact if_pos rfl
  have hshown := s'.active.shown_bind t texture
  have hsame : ∀ t' : TextureTarget, t.toGLenum = t'.toGLenum ↔ t = t' := by
    intro t'
    cases t <;> cases t' <;> decide
  unfold bindCommands
  simp only [TextureState.getPriorityEnabledTarget, TextureState.getBoundTexture, hstate,
    TextureUnit.priorityEnabledTarget_eq, TextureUnit.priority_bind, ne_eq, hsame]
  by_cases hp : t = s'.active.priority
  · rw [if_pos hp] at hshown
    rw [if_neg (not_not.mpr hp), if_pos hp]
    split
    · simpa using hs'.bind (s'.active.lit_bind t texture) hshown.symm
    · simpa using hs'.bind (s'.active.lit_bind t texture) hshown.symm
  · rw [if_neg hp] at hshown
    rw [if_pos hp, if_neg hp]
    have hkeep := hs'.keep hshown (s'.active.lit_bind t texture)
    split
    · rename_i hext
      obtain rfl : t = .TEXTURE_EXTERNAL := (hsame .TEXTURE_EXTERNAL).mp hext.1
      have h2d : s'.active.priority = .TEXTURE_2D := by
        cases hpri : s'.active.priority
        · rfl
        · exact absurd hpri.symm hp
      have hold : (s'.active.bind .TEXTURE_EXTERNAL texture).boundTexture GL_TEXTURE_2D =
          s'.active.shown := by
        rw [TextureUnit.shown_eq, h2d]
        exact (TextureUnit.boundTexture_toGLenum _ .TEXTURE_2D).trans (by simp [TextureUnit.bind])
      simp only [HostTextures.run_append, HostTextures.run_cons, HostTextures.run_nil,
        HostTextures.exec_glBindTexture_2D, HostTextures.exec_glTexParameter,
        HostTextures.bind_bind, hold, hs'.rebind]
      exact hkeep
    · exact hkeep

theorem glBindTexture_shows (hs : Shows h ctx.state) (target : GLenum) (texture : GLuint)
    (memory : Bool) :
    Shows (h.run (ctx.glBindTexture target texture memory).2)
      (ctx.glBindTexture target texture memory).1.state := by
  rcases ctx.state.bindTexture_cases target texture memory with
    ⟨herr, hsame⟩ | ⟨hok, s', hunit, hactive, hbind⟩
  · have hcall : ctx.glBindTexture target texture memory =
        (⟨ctx.state, (ctx.state.bindTexture target texture memory).2.1⟩, []) := by
      rw [glBindTexture, if_pos herr, hsame]
    rw [hcall]
    exact hs
  · rw [glBindTexture, if_neg (not_not.mpr hok)]
    split
    · rename_i hother
      have hnone : TextureTarget.ofGLenum target = none := by grind [TextureTarget.ofGLenum]
      rw [hbind, TextureState.bindActive, hnone, HostTextures.run_cons, HostTextures.run_nil,
        HostTextures.exec, if_neg hother.1]
      exact ⟨hs.activeUnit.trans hactive.symm, fun u => by rw [hunit, hs.unit]⟩
    · rename_i htarget
      obtain ⟨t, ht⟩ : ∃ t, TextureTarget.ofGLenum target = some t := by
        unfold TextureTarget.ofGLenum
        split_ifs with h2d hext
        · exact ⟨_, rfl⟩
        · exact ⟨_, rfl⟩
        · exact absurd ⟨h2d, hext⟩ htarget
      rw [hbind, TextureState.bindActive, ht, TextureTarget.ofGLenum_eq_some ht]
      exact bindCommands_shows hs hunit hactive _

/-- The host unbinds a deleted texture wherever the guest does. -/
theorem glDeleteTextures_shows (hs : Shows h ctx.state) (hinv : ctx.state.Invariant)
    (textures : List GLuint) :
    Shows (h.run (ctx.glDeleteTextures textures).2) (ctx.glDeleteTextures textures).1.state := by
  obtain ⟨hunit, -⟩ := hinv.deleteTextures_spec textures
  have henables := ctx.state.deleteTextures_enables textures
  refine ⟨hs.activeUnit.trans (ctx.state.deleteTextures_activeUnit textures).symm, fun u => ?_⟩
  have hpriority : ((ctx.state.deleteTextures textures).unit u).priority =
      (ctx.state.unit u).priority := by grind [TextureUnit.priority]
  have hlit : ((ctx.state.deleteTextures textures).unit u).lit = (ctx.state.unit u).lit := by
    rw [TextureUnit.lit, TextureUnit.lit, henables]
  change (if (h.unit u).binding ∈ textures then _ else h.unit u) =
    ⟨((ctx.state.deleteTextures textures).unit u).shown,
      ((ctx.state.deleteTextures textures).unit u).lit⟩
  grind [TextureUnit.shown_eq, hs.unit]

end TextureEncoder

end AndroidRenderer
