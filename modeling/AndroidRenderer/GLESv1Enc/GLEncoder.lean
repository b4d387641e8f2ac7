import AndroidRenderer.OpenglCodecCommon.HostTextures

/-!
# Textures of the GLES 1 encoder

`GLEncoder` enables the 2D target of the host while any target of the unit is enabled in
the guest. Every call keeps the host showing what the guest means, on every run on which
the guest's texture array stays searchable.
-/

namespace AndroidRenderer.GLEncoder

open TextureEncoder

def isValidTextureExternalParam (pname param : GLenum) : Bool :=
  if pname = GL_TEXTURE_MIN_FILTER ∨ pname = GL_TEXTURE_MAG_FILTER then
    param = GL_NEAREST ∨ param = GL_LINEAR
  else if pname = GL_TEXTURE_WRAP_S ∨ pname = GL_TEXTURE_WRAP_T then param = GL_CLAMP_TO_EDGE
  else if pname = GL_GENERATE_MIPMAP then param = GL_FALSE
  else true

/-- What is sent when disabling a target changes the one with priority. The 2D binding is
active while no target is enabled. -/
def disableCommands (prevTarget currTarget : GLenum) (boundTexture : GLenum → GLuint) :
    List TextureCommand :=
  if prevTarget ≠ currTarget then
    if currTarget = GL_INVALID_ENUM then
      [.glDisable GL_TEXTURE_2D, .glBindTexture GL_TEXTURE_2D (boundTexture GL_TEXTURE_2D)]
    else [.glBindTexture GL_TEXTURE_2D (boundTexture currTarget)]
  else []

/-- `s_glDisable` -/
def glDisable (ctx : TextureEncoder) (cap : GLenum) : TextureEncoder × List TextureCommand :=
  if cap = GL_TEXTURE_2D ∨ cap = GL_TEXTURE_EXTERNAL_OES then
    let prevTarget := ctx.state.getPriorityEnabledTarget GL_INVALID_ENUM
    let state := ctx.state.disableTextureTarget cap
    let currTarget := state.getPriorityEnabledTarget GL_INVALID_ENUM
    ({ ctx with state }, disableCommands prevTarget currTarget state.getBoundTexture)
  else (ctx, [.glDisable cap])

/-- What is sent when enabling a target changes the one with priority. -/
def enableCommands (prevTarget currTarget : GLenum) (boundTexture : GLenum → GLuint) :
    List TextureCommand :=
  if prevTarget ≠ currTarget then
    (if prevTarget = GL_INVALID_ENUM then [.glEnable GL_TEXTURE_2D] else []) ++
    (if currTarget = GL_TEXTURE_EXTERNAL_OES then
      [.glBindTexture GL_TEXTURE_2D (boundTexture currTarget)]
    else [])
  else []

/-- `s_glEnable` -/
def glEnable (ctx : TextureEncoder) (cap : GLenum) : TextureEncoder × List TextureCommand :=
  if cap = GL_TEXTURE_2D ∨ cap = GL_TEXTURE_EXTERNAL_OES then
    let prevTarget := ctx.state.getPriorityEnabledTarget GL_INVALID_ENUM
    let state := ctx.state.enableTextureTarget cap
    let currTarget := state.getPriorityEnabledTarget GL_INVALID_ENUM
    ({ ctx with state }, enableCommands prevTarget currTarget state.getBoundTexture)
  else (ctx, [.glEnable cap])

inductive Call
  | glActiveTexture (texture : GLenum)
  | glBindTexture (target : GLenum) (texture : GLuint) (memory : Bool)
  | glEnable (cap : GLenum)
  | glDisable (cap : GLenum)
  | glDeleteTextures (textures : List GLuint)
  | glTexParameter (type : ParameterType) (target pname param : GLenum)
  | glGetTexParameter (type : ParameterType) (target pname : GLenum)
  deriving DecidableEq

def call (ctx : TextureEncoder) : Call → TextureEncoder × List TextureCommand
  | .glActiveTexture texture => ctx.glActiveTexture texture
  | .glBindTexture target texture memory => ctx.glBindTexture target texture memory
  | .glEnable cap => glEnable ctx cap
  | .glDisable cap => glDisable ctx cap
  | .glDeleteTextures textures => ctx.glDeleteTextures textures
  | .glTexParameter type target pname param =>
      ctx.glTexParameter isValidTextureExternalParam type target pname param
  | .glGetTexParameter type target pname => ctx.glGetTexParameter type target pname

/-! ## Targets are enabled and disabled -/

theorem exists_toGLenum {cap : GLenum} (h : cap = GL_TEXTURE_2D ∨ cap = GL_TEXTURE_EXTERNAL_OES) :
    ∃ t : TextureTarget, cap = t.toGLenum := by
  rcases h with rfl | rfl
  · exact ⟨.TEXTURE_2D, rfl⟩
  · exact ⟨.TEXTURE_EXTERNAL, rfl⟩

theorem run_commands {h : HostTextures} {u : TextureUnit}
    (hactive : h.unit h.activeUnit = ⟨u.shown, u.lit⟩) (t : TextureTarget) (on : Bool) :
    h.run ((if on then enableCommands else disableCommands) (u.priorityEnabledTarget GL_INVALID_ENUM)
        ((u.setEnabled t on).priorityEnabledTarget GL_INVALID_ENUM)
        (u.setEnabled t on).boundTexture) =
      h.setActive ⟨(u.setEnabled t on).shown, (u.setEnabled t on).lit⟩ := by
  rw [← h.setActive_self, hactive]
  obtain ⟨enables, texture⟩ := u
  cases on <;> cases t <;> cases h2d : enables .TEXTURE_2D <;>
    cases hext : enables .TEXTURE_EXTERNAL <;>
      simp [enableCommands, disableCommands, TextureUnit.priorityEnabledTarget,
        TextureUnit.setEnabled, h2d, hext, HostTextures.exec, TextureUnit.shown, TextureUnit.lit,
        TextureUnit.boundTexture, TextureTarget.ofGLenum, GL_TEXTURE_2D, GL_TEXTURE_EXTERNAL_OES,
        GL_INVALID_ENUM]

variable {h : HostTextures} {ctx : TextureEncoder}

theorem glEnable_shows (hs : Shows h ctx.state) (cap : GLenum) :
    Shows (h.run (glEnable ctx cap).2) (glEnable ctx cap).1.state := by
  by_cases hcap : cap = GL_TEXTURE_2D ∨ cap = GL_TEXTURE_EXTERNAL_OES
  · obtain ⟨t, rfl⟩ := exists_toGLenum hcap
    rw [glEnable, if_pos hcap, TextureState.enableTextureTarget_toGLenum]
    simp only [TextureState.getPriorityEnabledTarget_setActive, TextureState.getBoundTexture_setActive]
    have hrun : h.run (enableCommands _ _ _) = _ := run_commands hs.active t true
    rw [TextureState.getPriorityEnabledTarget, hrun]
    exact hs.setActive rfl
  · grind [glEnable, HostTextures.run_cons, HostTextures.run_nil, HostTextures.exec]

theorem glDisable_shows (hs : Shows h ctx.state) (cap : GLenum) :
    Shows (h.run (glDisable ctx cap).2) (glDisable ctx cap).1.state := by
  by_cases hcap : cap = GL_TEXTURE_2D ∨ cap = GL_TEXTURE_EXTERNAL_OES
  · obtain ⟨t, rfl⟩ := exists_toGLenum hcap
    rw [glDisable, if_pos hcap, TextureState.disableTextureTarget_toGLenum]
    simp only [TextureState.getPriorityEnabledTarget_setActive, TextureState.getBoundTexture_setActive]
    have hrun : h.run (disableCommands _ _ _) = _ := run_commands hs.active t false
    rw [TextureState.getPriorityEnabledTarget, hrun]
    exact hs.setActive rfl
  · grind [glDisable, HostTextures.run_cons, HostTextures.run_nil, HostTextures.exec]

/-! ## Runs -/

/-- The encoder of a context with its host. -/
structure System where
  ctx : TextureEncoder
  host : HostTextures

namespace System

def init : System := ⟨.init, .init⟩

/-- A call, with all that is sent for it executed. -/
def step (x : System) (c : Call) : System := ⟨(call x.ctx c).1, x.host.run (call x.ctx c).2⟩

/-- The call binds no texture whose name is 2^31 or more away from a name in the array of the
guest. -/
def KeepsNear (x : System) : Call → Prop
  | .glBindTexture _ texture _ => texture ≠ 0 → ∀ rec ∈ x.ctx.state.textures, Near texture rec.id
  | _ => True

/-- The host shows what the guest means. -/
structure Invariant (x : System) : Prop where
  shows : Shows x.host x.ctx.state
  textures : x.ctx.state.Invariant

theorem Invariant.step {x : System} (h : x.Invariant) {c : Call} (hnear : x.KeepsNear c) :
    (x.step c).Invariant := by
  refine ⟨?_, ?_⟩
  · cases c with
    | glActiveTexture texture => exact glActiveTexture_shows h.shows texture
    | glBindTexture target texture memory =>
        exact glBindTexture_shows h.shows target texture memory
    | glEnable cap => exact glEnable_shows h.shows cap
    | glDisable cap => exact glDisable_shows h.shows cap
    | glDeleteTextures textures => exact glDeleteTextures_shows h.shows h.textures textures
    | glTexParameter type target pname param =>
        exact glTexParameter_shows h.shows _ type target pname param
    | glGetTexParameter type target pname =>
        exact glGetTexParameter_shows h.shows type target pname
  · cases c with
    | glActiveTexture texture =>
        have hcall := h.textures.call (c := .setActiveTextureUnit texture) trivial
        unfold System.step GLEncoder.call TextureEncoder.glActiveTexture
        dsimp only
        split <;> exact hcall
    | glBindTexture target texture memory =>
        have hcall := h.textures.call (c := .bindTexture target texture memory) hnear
        unfold System.step GLEncoder.call TextureEncoder.glBindTexture
        dsimp only
        split_ifs <;> exact hcall
    | glEnable cap =>
        have hcall := h.textures.call (c := .enableTextureTarget cap) trivial
        unfold System.step GLEncoder.call GLEncoder.glEnable
        dsimp only
        split
        · exact hcall
        · exact h.textures
    | glDisable cap =>
        have hcall := h.textures.call (c := .disableTextureTarget cap) trivial
        unfold System.step GLEncoder.call GLEncoder.glDisable
        dsimp only
        split
        · exact hcall
        · exact h.textures
    | glDeleteTextures textures => exact h.textures.deleteTextures textures
    | glTexParameter type target pname param =>
        grind [System.step, GLEncoder.call, TextureEncoder.glTexParameter, h.textures]
    | glGetTexParameter type target pname =>
        grind [System.step, GLEncoder.call, TextureEncoder.glGetTexParameter, h.textures]

/-- On every run that keeps the names of the array near each other, the host has on every
unit the texture of the guest's target with priority in its 2D target, which is enabled if
and only if any of the two targets is enabled in the guest. -/
theorem externalTextures_shown (x : System) (h : Run.Reach (Run.total step) KeepsNear init x) :
    ∀ u : Fin MAX_TEXTURE_UNITS,
      (x.host.unit u).binding =
        (x.ctx.state.unit u).boundTexture
          ((x.ctx.state.unit u).priorityEnabledTarget GL_TEXTURE_2D) ∧
      ((x.host.unit u).enabled ↔
        (x.ctx.state.unit u).enables .TEXTURE_2D ∨ (x.ctx.state.unit u).enables .TEXTURE_EXTERNAL) := by
  have hinv : x.Invariant :=
    h.invariant_total ⟨.init, TextureState.invariant_init⟩ fun _ _ hinv hnear => hinv.step hnear
  intro u
  rw [hinv.shows.unit u]
  refine ⟨rfl, ?_⟩
  rw [← Bool.or_eq_true]
  rfl

/-- A test for `KeepsNear`. -/
def keepsNearTest (x : System) : Call → Bool
  | .glBindTexture _ texture _ =>
      x.ctx.state.textures.all fun rec => decide (Near texture rec.id)
  | _ => true

theorem keepsNearTest_sound (x : System) (c : Call) (h : keepsNearTest x c = true) :
    x.KeepsNear c := by
  cases c with
  | glBindTexture target texture memory =>
      intro _ rec hmem
      exact of_decide_eq_true (List.all_eq_true.mp h rec hmem)
  | _ => trivial

/-- An external texture is bound on a unit where its target is enabled later. -/
theorem externalTextures_shown_enabled :
    ∃ x : System, (x.host.unit 1).binding = 7 ∧ (x.host.unit 1).binding =
      (x.ctx.state.unit 1).boundTexture
        ((x.ctx.state.unit 1).priorityEnabledTarget GL_TEXTURE_2D) := by
  have hrun : Run.check (Run.total step) keepsNearTest
      (fun x => (x.host.unit 1).binding = 7) init
      [.glActiveTexture (GL_TEXTURE0 + 1), .glBindTexture GL_TEXTURE_2D 3 true,
        .glEnable GL_TEXTURE_2D, .glBindTexture GL_TEXTURE_EXTERNAL_OES 7 true,
        .glEnable GL_TEXTURE_EXTERNAL_OES, .glDisable GL_TEXTURE_2D] = true := by
    decide +kernel
  obtain ⟨x, hreach, htest⟩ := Run.exists_reach_of_check keepsNearTest_sound hrun
  exact ⟨x, of_decide_eq_true htest, (externalTextures_shown x hreach 1).1⟩

/-- The host deletes a texture that the guest does not find in its array. -/
theorem farName_not_shown :
    ∃ x, Run.Reach (Run.total step) (fun _ _ => True) init x ∧
      ¬∀ u : Fin MAX_TEXTURE_UNITS,
        (x.host.unit u).binding =
          (x.ctx.state.unit u).boundTexture
            ((x.ctx.state.unit u).priorityEnabledTarget GL_TEXTURE_2D) ∧
        ((x.host.unit u).enabled ↔ (x.ctx.state.unit u).enables .TEXTURE_2D ∨
          (x.ctx.state.unit u).enables .TEXTURE_EXTERNAL) := by
  have hrun : Run.check (Run.total step) (fun _ _ => true)
      (fun x => (x.host.unit 0).binding ≠ (x.ctx.state.unit 0).boundTexture
        ((x.ctx.state.unit 0).priorityEnabledTarget GL_TEXTURE_2D)) init
      [.glBindTexture GL_TEXTURE_2D 1 true, .glBindTexture GL_TEXTURE_2D 2 true,
        .glBindTexture GL_TEXTURE_2D 0xC0000000 true, .glDeleteTextures [0xC0000000]] = true := by
    decide +kernel
  obtain ⟨x, hreach, htest⟩ := Run.exists_reach_of_check (fun _ _ _ => trivial) hrun
  exact ⟨x, hreach, fun h => of_decide_eq_true htest (h 0).1⟩

end System

end AndroidRenderer.GLEncoder
