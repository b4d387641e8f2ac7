import AndroidRenderer.OpenglCodecCommon.GLSharedGroup
import AndroidRenderer.OpenglCodecCommon.HostTextures

/-!
# Samplers of external textures

For a sampler of external textures the encoder gives the external target priority on the unit
the sampler is set to. The share group keeps the values of the samplers for this: they are
set by `glUniform1i` and read when a program is used. `SamplerSystem` keeps beside the
encoder and the host the values that the application has set.
-/

namespace AndroidRenderer

def uniformTypes : List GLenum :=
  [0x1404, 0x1406, 0x8B50, 0x8B51, 0x8B52, 0x8B53, 0x8B54, 0x8B55, 0x8B56, 0x8B57, 0x8B58,
    0x8B59, 0x8B5A, 0x8B5B, 0x8B5C, GL_SAMPLER_2D, 0x8B60]

structure ActiveUniform where
  base : Int
  size : Int
  type : GLenum
  name : List UInt8
  type_mem : type ∈ uniformTypes

/-- `s_glLinkProgram`, after the program was linked. -/
def GLSharedGroup.linkProgram (g : GLSharedGroup) (program : GLuint)
    (uniforms : List ActiveUniform) : GLSharedGroup :=
  let linked := uniforms.zipIdx.foldl
    (fun g (u, i) => g.setProgramIndexInfo program i u.base u.size u.type u.name)
    (g.initProgramData program uniforms.length)
  linked.setupLocationShiftWAR program

/-- The samplers that a loop over `getNextSamplerUniform` finds behind `index`. -/
def GLSharedGroup.samplerUniforms (g : GLSharedGroup) (program : GLuint) :
    Nat → Int → List (Nat × Int × GLenum)
  | 0, _ => []
  | fuel + 1, index =>
      match g.getNextSamplerUniform program index with
      | some sampler => sampler :: g.samplerUniforms program fuel sampler.1
      | none => []

def GLSharedGroup.numIndexes (g : GLSharedGroup) (program : GLuint) : Nat :=
  match g.programs.get? program with
  | some pData => pData.indexes.length
  | none => 0

namespace TextureEncoder

def updateHostTexture2DBinding (ctx : TextureEncoder) (texUnit newTarget : GLenum) :
    TextureEncoder × List TextureCommand × Bool :=
  if newTarget ≠ GL_TEXTURE_2D ∧ newTarget ≠ GL_TEXTURE_EXTERNAL_OES then (ctx, [], false)
  else
    let state := (ctx.state.setActiveTextureUnit texUnit).1
    let oldTarget := state.getPriorityEnabledTarget GL_TEXTURE_2D
    if newTarget ≠ oldTarget then
      let state :=
        if newTarget = GL_TEXTURE_EXTERNAL_OES then
          (state.disableTextureTarget GL_TEXTURE_2D).enableTextureTarget GL_TEXTURE_EXTERNAL_OES
        else
          (state.disableTextureTarget GL_TEXTURE_EXTERNAL_OES).enableTextureTarget GL_TEXTURE_2D
      ({ ctx with state },
        [.glActiveTexture texUnit,
          .glBindTexture GL_TEXTURE_2D (state.getBoundTexture newTarget)], true)
    else ({ ctx with state }, [], false)

/-- The variables of the loop of `s_glUseProgram`, and what was sent. -/
structure UseProgram where
  ctx : TextureEncoder
  sent : List TextureCommand
  hostActiveTexture : GLenum

/-- The body of the loop of `s_glUseProgram`. -/
def UseProgram.sampler (l : UseProgram) (sampler : Nat × Int × GLenum) : UseProgram :=
  if sampler.2.1 < 0 ∨ (MAX_TEXTURE_UNITS : Int) ≤ sampler.2.1 then l
  else
    let texUnit := GL_TEXTURE0 + UInt32.ofInt sampler.2.1
    let r := l.ctx.updateHostTexture2DBinding texUnit sampler.2.2
    ⟨r.1, l.sent ++ r.2.1, if r.2.2 then texUnit else l.hostActiveTexture⟩

end TextureEncoder

/-! ## The encoder -/

/-- What the encoder sends. -/
inductive SamplerCommand
  | texture (command : TextureCommand)
  | glUseProgram (program : GLuint)
  | glUniform1i (location x : Int)

structure SamplerEncoder where
  textures : TextureEncoder
  currentProgram : GLuint
  shared : GLSharedGroup

namespace SamplerEncoder

/-- `s_glUseProgram` -/
def glUseProgram (ctx : SamplerEncoder) (program : GLuint) :
    SamplerEncoder × List SamplerCommand :=
  let origActiveTexture := ctx.textures.state.getActiveTextureUnit
  let loop := (ctx.shared.samplerUniforms program (ctx.shared.numIndexes program) (-1)).foldl
    TextureEncoder.UseProgram.sampler ⟨ctx.textures, [], origActiveTexture⟩
  let state := (loop.ctx.state.setActiveTextureUnit origActiveTexture).1
  let restore :=
    if loop.hostActiveTexture ≠ origActiveTexture then
      [TextureCommand.glActiveTexture origActiveTexture]
    else []
  (⟨{ loop.ctx with state }, program, ctx.shared⟩,
    .glUseProgram program :: (loop.sent ++ restore).map .texture)

/-- `s_glUniform1i` -/
def glUniform1i (ctx : SamplerEncoder) (location x : Int) :
    SamplerEncoder × List SamplerCommand :=
  let hostLoc := ctx.shared.locationWARAppToHost ctx.currentProgram location
  let r := ctx.shared.setSamplerUniform ctx.currentProgram location x
  match r.2 with
  | some target =>
      let origActiveTexture := ctx.textures.state.getActiveTextureUnit
      let update := ctx.textures.updateHostTexture2DBinding (GL_TEXTURE0 + UInt32.ofInt x) target
      let restore :=
        if update.2.2 then [TextureCommand.glActiveTexture origActiveTexture] else []
      let state := (update.1.state.setActiveTextureUnit origActiveTexture).1
      ({ ctx with textures := { update.1 with state }, shared := r.1 },
        .glUniform1i hostLoc x :: (update.2.1 ++ restore).map .texture)
  | none => ({ ctx with shared := r.1 }, [.glUniform1i hostLoc x])

/-- `s_glActiveTexture` -/
def glActiveTexture (ctx : SamplerEncoder) (texture : GLenum) :
    SamplerEncoder × List SamplerCommand :=
  let r := ctx.textures.glActiveTexture texture
  ({ ctx with textures := r.1 }, r.2.map .texture)

/-- `s_glBindTexture` -/
def glBindTexture (ctx : SamplerEncoder) (target : GLenum) (texture : GLuint) (memory : Bool) :
    SamplerEncoder × List SamplerCommand :=
  let r := ctx.textures.glBindTexture target texture memory
  ({ ctx with textures := r.1 }, r.2.map .texture)

end SamplerEncoder

/-! ## Bindings of the host

The encoder never enables a target on the host, so that of what the host shows only the
bindings agree. -/

namespace HostTextures

/-- Other flags for the 2D targets. -/
def relit (h : HostTextures) (lit : Fin MAX_TEXTURE_UNITS → Bool) : HostTextures :=
  { h with unit := fun u => ⟨(h.unit u).binding, lit u⟩ }

def KeepsFlags : TextureCommand → Prop
  | .glEnable _ => False
  | .glDisable _ => False
  | _ => True

theorem exec_relit (h : HostTextures) (lit : Fin MAX_TEXTURE_UNITS → Bool) {c : TextureCommand}
    (hc : KeepsFlags c) : (h.relit lit).exec c = (h.exec c).relit lit := by
  cases c with
  | glActiveTexture texture =>
      unfold exec
      dsimp only
      split <;> rfl
  | glBindTexture target texture =>
      unfold exec
      dsimp only
      split
      · rw [relit, relit, setActive, mk.injEq]
        refine ⟨funext fun u => ?_, rfl⟩
        grind
      · rfl
  | glDeleteTextures textures =>
      unfold exec relit
      grind
  | glEnable cap => exact hc.elim
  | glDisable cap => exact hc.elim
  | glTexParameter type target pname param => rfl
  | glGetTexParameter type target pname => rfl

theorem run_relit (h : HostTextures) (lit : Fin MAX_TEXTURE_UNITS → Bool)
    {cs : List TextureCommand} (hcs : ∀ c ∈ cs, KeepsFlags c) :
    (h.relit lit).run cs = (h.run cs).relit lit := by
  induction cs generalizing h with
  | nil => rfl
  | cons c cs ih =>
      rw [run_cons, run_cons, exec_relit h lit (hcs c List.mem_cons_self),
        ih _ fun c' hc' => hcs c' (List.mem_cons_of_mem c hc')]

end HostTextures

/-- The host has on every unit the texture that the guest means. -/
def Binds (h : HostTextures) (s : TextureState) : Prop :=
  ∀ u, (h.unit u).binding = (s.unit u).shown

theorem Binds.shows {h : HostTextures} {s : TextureState} (hb : Binds h s)
    (hactive : h.activeUnit = s.activeUnit) : Shows (h.relit fun u => (s.unit u).lit) s :=
  ⟨hactive, fun u => congrArg (HostUnit.mk · _) (hb u)⟩

theorem Binds.of_shows {h : HostTextures} {s : TextureState}
    {lit : Fin MAX_TEXTURE_UNITS → Bool} (hs : Shows (h.relit lit) s) : Binds h s :=
  fun u => congrArg HostUnit.binding (hs.unit u)

theorem unit_of_texUnit (u : Fin MAX_TEXTURE_UNITS) :
    (GL_TEXTURE0 + UInt32.ofNat u - GL_TEXTURE0).toNat = u := by
  rw [UInt32.add_comm, UInt32.add_sub_cancel, UInt32.toNat_ofNat']
  exact Nat.mod_eq_of_lt (Nat.lt_trans u.isLt (by decide))

theorem TextureState.setActiveTextureUnit_of_unit (s : TextureState) (u : Fin MAX_TEXTURE_UNITS) :
    s.setActiveTextureUnit (GL_TEXTURE0 + UInt32.ofNat u) =
      ({ s with activeUnit := u }, GL_NO_ERROR) := by
  rw [setActiveTextureUnit, dif_pos (by rw [unit_of_texUnit]; exact u.isLt)]
  simp only [unit_of_texUnit]

theorem HostTextures.exec_glActiveTexture (h : HostTextures) (u : Fin MAX_TEXTURE_UNITS) :
    h.exec (.glActiveTexture (GL_TEXTURE0 + UInt32.ofNat u)) = { h with activeUnit := u } := by
  rw [exec, dif_pos (by rw [unit_of_texUnit]; exact u.isLt)]
  simp only [unit_of_texUnit]

namespace TextureEncoder

variable {h : HostTextures} {ctx : TextureEncoder}

theorem glActiveTexture_binds (hb : Binds h ctx.state)
    (hactive : h.activeUnit = ctx.state.activeUnit)
    (texture : GLenum) :
    Binds (h.run (ctx.glActiveTexture texture).2) (ctx.glActiveTexture texture).1.state ∧
      (h.run (ctx.glActiveTexture texture).2).activeUnit =
        (ctx.glActiveTexture texture).1.state.activeUnit := by
  have hs := glActiveTexture_shows (hb.shows hactive) texture
  rw [HostTextures.run_relit] at hs
  · exact ⟨.of_shows hs, hs.activeUnit⟩
  · grind [glActiveTexture, HostTextures.KeepsFlags]

theorem bindCommands_keepsFlags (state : TextureState) (target : GLenum) (texture : GLuint)
    (firstUse : Bool) :
    ∀ c ∈ bindCommands state target texture firstUse, HostTextures.KeepsFlags c := by
  unfold bindCommands
  dsimp only
  split_ifs <;> simp [HostTextures.KeepsFlags]

theorem glBindTexture_keepsFlags (target : GLenum) (texture : GLuint) (memory : Bool) :
    ∀ c ∈ (ctx.glBindTexture target texture memory).2, HostTextures.KeepsFlags c := by
  unfold glBindTexture
  grind [HostTextures.KeepsFlags, bindCommands_keepsFlags]

theorem glBindTexture_binds (hb : Binds h ctx.state) (hactive : h.activeUnit = ctx.state.activeUnit)
    (target : GLenum) (texture : GLuint) (memory : Bool) :
    Binds (h.run (ctx.glBindTexture target texture memory).2)
        (ctx.glBindTexture target texture memory).1.state ∧
      (h.run (ctx.glBindTexture target texture memory).2).activeUnit =
        (ctx.glBindTexture target texture memory).1.state.activeUnit := by
  have hs := glBindTexture_shows (hb.shows hactive) target texture memory
  rw [HostTextures.run_relit _ _ (glBindTexture_keepsFlags target texture memory)] at hs
  exact ⟨.of_shows hs, hs.activeUnit⟩

end TextureEncoder

namespace TextureState

/-- Another target gets priority on the active unit. -/
def switchTarget (s : TextureState) : TextureTarget → TextureState
  | .TEXTURE_EXTERNAL =>
      (s.disableTextureTarget GL_TEXTURE_2D).enableTextureTarget GL_TEXTURE_EXTERNAL_OES
  | .TEXTURE_2D =>
      (s.disableTextureTarget GL_TEXTURE_EXTERNAL_OES).enableTextureTarget GL_TEXTURE_2D

theorem switchTarget_eq (s : TextureState) (t : TextureTarget) :
    ∃ v : TextureUnit, s.switchTarget t = s.setActive v ∧ v.texture = s.active.texture ∧
      v.priority = t := by
  cases t with
  | TEXTURE_2D =>
      refine ⟨(s.active.setEnabled .TEXTURE_EXTERNAL false).setEnabled .TEXTURE_2D true, ?_, rfl, ?_⟩
      · refine ((s.disableTextureTarget GL_TEXTURE_EXTERNAL_OES).enableTextureTarget_toGLenum
          .TEXTURE_2D).trans ?_
        rw [show s.disableTextureTarget GL_TEXTURE_EXTERNAL_OES = _ from
          s.disableTextureTarget_toGLenum .TEXTURE_EXTERNAL, active_setActive, setActive_setActive]
      · simp [TextureUnit.priority, TextureUnit.setEnabled]
  | TEXTURE_EXTERNAL =>
      refine ⟨(s.active.setEnabled .TEXTURE_2D false).setEnabled .TEXTURE_EXTERNAL true, ?_, rfl, ?_⟩
      · refine ((s.disableTextureTarget GL_TEXTURE_2D).enableTextureTarget_toGLenum
          .TEXTURE_EXTERNAL).trans ?_
        rw [show s.disableTextureTarget GL_TEXTURE_2D = _ from
          s.disableTextureTarget_toGLenum .TEXTURE_2D, active_setActive, setActive_setActive]
      · simp [TextureUnit.priority, TextureUnit.setEnabled]

end TextureState

namespace TextureEncoder

variable {h : HostTextures} {ctx : TextureEncoder}

theorem updateHostTexture2DBinding_eq (ctx : TextureEncoder) (u : Fin MAX_TEXTURE_UNITS)
    (t : TextureTarget) :
    ctx.updateHostTexture2DBinding (GL_TEXTURE0 + UInt32.ofNat u) t.toGLenum =
      if t = (ctx.state.unit u).priority then
        ({ ctx with state := { ctx.state with activeUnit := u } }, [], false)
      else
        let state := TextureState.switchTarget { ctx.state with activeUnit := u } t
        ({ ctx with state },
          [.glActiveTexture (GL_TEXTURE0 + UInt32.ofNat u),
            .glBindTexture GL_TEXTURE_2D (state.getBoundTexture t.toGLenum)], true) := by
  have hpriority : TextureState.getPriorityEnabledTarget { ctx.state with activeUnit := u }
      GL_TEXTURE_2D = (ctx.state.unit u).priority.toGLenum :=
    (ctx.state.unit u).priorityEnabledTarget_eq
  have hsame : ∀ t' : TextureTarget, t.toGLenum = t'.toGLenum ↔ t = t' := by
    intro t'
    cases t <;> cases t' <;> decide
  unfold updateHostTexture2DBinding
  rw [if_neg (by cases t <;> decide), TextureState.setActiveTextureUnit_of_unit]
  dsimp only
  rw [hpriority]
  by_cases heq : t = (ctx.state.unit u).priority
  · simp [heq]
  · rw [if_neg heq, if_pos (mt (hsame _).mp heq)]
    cases t <;> rfl

theorem updateHostTexture2DBinding_spec (hb : Binds h ctx.state) (u : Fin MAX_TEXTURE_UNITS)
    (t : TextureTarget) {r : TextureEncoder × List TextureCommand × Bool}
    (hr : ctx.updateHostTexture2DBinding (GL_TEXTURE0 + UInt32.ofNat u) t.toGLenum = r) :
    Binds (h.run r.2.1) r.1.state ∧
    (h.run r.2.1).activeUnit = (if r.2.2 then u else h.activeUnit) ∧
    ∀ u', (r.1.state.unit u').priority = if u' = u then t else (ctx.state.unit u').priority := by
  rw [updateHostTexture2DBinding_eq] at hr
  split at hr
  · rename_i heq
    subst hr
    refine ⟨hb, rfl, fun u' => ?_⟩
    grind
  · obtain ⟨v, hswitch, htexture, hpriority⟩ :=
      TextureState.switchTarget_eq { ctx.state with activeUnit := u } t
    rw [hswitch] at hr
    subst hr
    have hunit : ∀ u', (TextureState.setActive { ctx.state with activeUnit := u } v).unit u' =
        if u' = u then v else ctx.state.unit u' :=
      fun u' => TextureState.setActive_unit _ _ u'
    have hbound : TextureState.getBoundTexture
        (TextureState.setActive { ctx.state with activeUnit := u } v) t.toGLenum = v.shown := by
      rw [TextureState.getBoundTexture_setActive, TextureUnit.boundTexture_toGLenum,
        TextureUnit.shown_eq, hpriority]
    refine ⟨fun u' => ?_, ?_, fun u' => ?_⟩
    · dsimp only
      rw [HostTextures.run_cons, HostTextures.exec_glActiveTexture, HostTextures.run_cons,
        HostTextures.exec_glBindTexture_2D, HostTextures.run_nil, HostTextures.bind,
        HostTextures.setActive_unit, hunit, hbound]
      dsimp only
      split
      · rfl
      · exact hb u'
    · rw [HostTextures.run_cons, HostTextures.exec_glActiveTexture, HostTextures.run_cons,
        HostTextures.exec_glBindTexture_2D, HostTextures.run_nil]
      rfl
    · grind

/-! ## The loop over the samplers of a program -/

/-- `hostActiveTexture` is the unit that is active on the host. -/
structure UseProgram.Invariant (h : HostTextures) (l : UseProgram) : Prop where
  binds : Binds (h.run l.sent) l.ctx.state
  active : l.hostActiveTexture = GL_TEXTURE0 + UInt32.ofNat (h.run l.sent).activeUnit

theorem UseProgram.Invariant.sampler {l : UseProgram} (hl : l.Invariant h)
    {s : Nat × Int × GLenum} {t : TextureTarget} (ht : s.2.2 = t.toGLenum) :
    (l.sampler s).Invariant h ∧ ∀ u : Fin MAX_TEXTURE_UNITS,
      ((l.sampler s).ctx.state.unit u).priority =
        if (u : Int) = s.2.1 then t else (l.ctx.state.unit u).priority := by
  unfold UseProgram.sampler
  split
  · grind
  · rename_i hrange
    obtain ⟨v, hv⟩ : ∃ v : Fin MAX_TEXTURE_UNITS, s.2.1 = (v : Nat) :=
      ⟨⟨s.2.1.toNat, by omega⟩, by simp only; omega⟩
    obtain ⟨hbinds, hactive, hpriority⟩ := updateHostTexture2DBinding_spec hl.binds v t rfl
    dsimp only
    rw [hv, ofInt_natCast, ht]
    refine ⟨⟨?_, ?_⟩, fun u => ?_⟩
    · rwa [HostTextures.run_append]
    · rw [HostTextures.run_append, hactive]
      split
      · rfl
      · exact hl.active
    · grind

/-- A unit that samplers are set to gets their target, if it is the same for all of them. -/
theorem UseProgram.Invariant.samplers {samplers : List (Nat × Int × GLenum)} {l : UseProgram}
    (hl : l.Invariant h) (htargets : ∀ s ∈ samplers, ∃ t : TextureTarget, s.2.2 = t.toGLenum) :
    (samplers.foldl UseProgram.sampler l).Invariant h ∧
    ∀ (u : Fin MAX_TEXTURE_UNITS) (t : TextureTarget),
      (∀ s ∈ samplers, s.2.1 = (u : Nat) → s.2.2 = t.toGLenum) →
      ((l.ctx.state.unit u).priority = t ∨ ∃ s ∈ samplers, s.2.1 = (u : Nat)) →
      ((samplers.foldl UseProgram.sampler l).ctx.state.unit u).priority = t := by
  induction samplers generalizing l with
  | nil => grind
  | cons s samplers ih =>
      obtain ⟨t₀, ht₀⟩ := htargets s List.mem_cons_self
      obtain ⟨hl', hpriority⟩ := hl.sampler ht₀
      obtain ⟨hinv, hunit⟩ := ih hl' fun s' hs' => htargets s' (List.mem_cons_of_mem s hs')
      refine ⟨hinv, fun u t hsame hor => ?_⟩
      refine hunit u t (fun s' hs' => hsame s' (List.mem_cons_of_mem s hs')) ?_
      rw [hpriority]
      split
      · rename_i heq
        have hst := hsame s List.mem_cons_self heq.symm
        rw [ht₀] at hst
        left
        have hsome := congrArg TextureTarget.ofGLenum hst
        rw [TextureTarget.ofGLenum_toGLenum, TextureTarget.ofGLenum_toGLenum] at hsome
        exact Option.some.inj hsome
      · rename_i hne
        grind

end TextureEncoder

/-! ## Enumeration of the samplers -/

namespace ProgramData

/-- What `getNextSamplerUniform` tells of a uniform with a value. -/
def samplerWith (value : Nat → IndexInfo → Int) (info : IndexInfo × Nat) :
    Option (Nat × Int × GLenum) :=
  if info.1.type = GL_SAMPLER_2D then
    some (info.2, value info.2 info.1, samplerTarget info.1)
  else none

def samplers (p : ProgramData) (value : Nat → IndexInfo → Int) : List (Nat × Int × GLenum) :=
  p.indexes.zipIdx.filterMap (samplerWith value)

theorem mem_samplers {p : ProgramData} {value : Nat → IndexInfo → Int} {s : Nat × Int × GLenum} :
    s ∈ p.samplers value ↔ ∃ info, p.indexes[s.1]? = some info ∧ info.type = GL_SAMPLER_2D ∧
      s.2.1 = value s.1 info ∧ s.2.2 = samplerTarget info := by
  rw [samplers, List.mem_filterMap]
  constructor
  · rintro ⟨⟨info, i⟩, hmem, hs⟩
    unfold samplerWith at hs
    grind
  · rintro ⟨info, hget, htype, hvalue, htarget⟩
    refine ⟨(info, s.1), List.mem_zipIdx_iff_getElem?.mpr hget, ?_⟩
    grind [samplerWith]

theorem exists_samplerTarget (info : IndexInfo) :
    ∃ t : TextureTarget, samplerTarget info = t.toGLenum := by
  unfold samplerTarget
  split
  · exact ⟨.TEXTURE_EXTERNAL, rfl⟩
  · exact ⟨.TEXTURE_2D, rfl⟩

/-- The entries up to the given one are not looked at again. -/
theorem find?_take_zipIdx (indexes : List IndexInfo) (k : Nat) {index : Int}
    (h : (k : Int) ≤ index + 1) :
    ((indexes.take k).zipIdx.find?
      fun (info, i) => decide (index < i) && info.type = GL_SAMPLER_2D) = none := by
  refine List.find?_eq_none.mpr fun x hx => ?_
  grind

theorem zipIdx_eq {indexes : List IndexInfo} {k : Nat} (h : k < indexes.length) :
    indexes.zipIdx = (indexes.take k).zipIdx ++
      (indexes[k], k) :: (indexes.drop (k + 1)).zipIdx (k + 1) := by
  have happend := @List.zipIdx_append _ (indexes.take k) (indexes.drop k) 0
  rwa [List.take_append_drop, List.length_take_of_le (Nat.le_of_lt h), Nat.zero_add,
    List.drop_eq_getElem_cons h, List.zipIdx_cons] at happend

/-- Behind the given entry all entries are looked at. -/
theorem find?_zipIdx_of_lt (indexes : List IndexInfo) {k : Nat} {index : Int} (h : index < k) :
    ((indexes.zipIdx k).find?
      fun (info, i) => decide (index < i) && info.type = GL_SAMPLER_2D) =
    (indexes.zipIdx k).find? fun (info, _) => info.type = GL_SAMPLER_2D := by
  rw [← List.head?_filter, ← List.head?_filter]
  congr 1
  refine List.filter_congr fun x hx => ?_
  grind

/-- One turn of the loop of `getNextSamplerUniform`. -/
theorem getNextSamplerUniform_of_lt {p : ProgramData} {k : Nat} (h : k < p.indexes.length) :
    p.getNextSamplerUniform ((k : Int) - 1) =
      match samplerWith (fun _ info => info.samplerValue) (p.indexes[k], k) with
      | some sampler => some sampler
      | none => p.getNextSamplerUniform k := by
  unfold getNextSamplerUniform samplerWith
  rw [zipIdx_eq h, List.find?_append, List.find?_append, find?_take_zipIdx _ _ (by omega),
    find?_take_zipIdx _ _ (by omega), Option.none_or, Option.none_or]
  have hlt : (k : Int) - 1 < k := by omega
  by_cases htype : p.indexes[k].type = GL_SAMPLER_2D
  · simp [List.find?_cons_of_pos, htype]
  · rw [List.find?_cons_of_neg (by simp [htype]), List.find?_cons_of_neg (by simp), if_neg htype,
      find?_zipIdx_of_lt _ (by omega), find?_zipIdx_of_lt _ (by omega)]

theorem getNextSamplerUniform_of_ge {p : ProgramData} {k : Nat} (h : p.indexes.length ≤ k) :
    p.getNextSamplerUniform ((k : Int) - 1) = none := by
  have hall := find?_take_zipIdx p.indexes k (Int.le_of_eq (Int.sub_add_cancel (k : Int) 1).symm)
  rw [List.take_of_length_le h] at hall
  rw [getNextSamplerUniform, hall, Option.map_none]

end ProgramData

/-- The loop finds every sampler with its recorded value. -/
theorem GLSharedGroup.samplerUniforms_eq {g : GLSharedGroup} {program : GLuint} {p : ProgramData}
    (hget : g.programs.get? program = some p) {fuel : Nat} (hfuel : p.indexes.length ≤ fuel) :
    g.samplerUniforms program fuel (-1) = p.samplers fun _ info => info.samplerValue := by
  have hnext : ∀ index, g.getNextSamplerUniform program index = p.getNextSamplerUniform index := by
    intro index
    rw [GLSharedGroup.getNextSamplerUniform, hget]
  suffices ∀ n fuel k, p.indexes.length = k + n → n ≤ fuel →
      g.samplerUniforms program fuel ((k : Int) - 1) =
        ((p.indexes.drop k).zipIdx k).filterMap
          (ProgramData.samplerWith fun _ info => info.samplerValue) by
    exact this _ fuel 0 (Nat.zero_add _).symm hfuel
  intro n
  -- the loop passes the entries one by one, and takes one of its turns at each sampler
  induction n with
  | zero =>
      intro fuel k hk _
      have hge : p.indexes.length ≤ k := by omega
      rw [List.drop_of_length_le hge, List.zipIdx_nil, List.filterMap_nil]
      cases fuel with
      | zero => rfl
      | succ fuel =>
          rw [GLSharedGroup.samplerUniforms, hnext,
            ProgramData.getNextSamplerUniform_of_ge hge]
  | succ n ih =>
      intro fuel k hk hle
      have hlt : k < p.indexes.length := by omega
      have hcast : ((k + 1 : Nat) : Int) - 1 = k := by omega
      obtain ⟨fuel, rfl⟩ := Nat.exists_eq_succ_of_ne_zero (show fuel ≠ 0 by omega)
      rw [List.drop_eq_getElem_cons hlt, List.zipIdx_cons, List.filterMap_cons,
        GLSharedGroup.samplerUniforms, hnext, ProgramData.getNextSamplerUniform_of_lt hlt]
      have hrest := ih fuel (k + 1) (by omega) (by omega)
      have hskip := ih (fuel + 1) (k + 1) (by omega) (by omega)
      grind [ProgramData.samplerWith, GLSharedGroup.samplerUniforms]

/-! ## Calls of the encoder -/

/-- What concerns the textures of the host. -/
def SamplerCommand.texture? : SamplerCommand → Option TextureCommand
  | .texture command => some command
  | .glUseProgram _ => none
  | .glUniform1i _ _ => none

@[simp] theorem filterMap_texture? (commands : List TextureCommand) :
    (commands.map SamplerCommand.texture).filterMap SamplerCommand.texture? = commands := by
  induction commands with
  | nil => rfl
  | cons command commands ih => rw [List.map_cons, List.filterMap_cons, ih]; rfl

namespace SamplerEncoder

variable {h : HostTextures} {ctx : SamplerEncoder}

/-- The samplers of a program as `s_glUseProgram` finds them. -/
def found (ctx : SamplerEncoder) (program : GLuint) : List (Nat × Int × GLenum) :=
  ctx.shared.samplerUniforms program (ctx.shared.numIndexes program) (-1)

theorem found_eq {program : GLuint} {p : ProgramData}
    (hget : ctx.shared.programs.get? program = some p) :
    ctx.found program = p.samplers fun _ info => info.samplerValue := by
  refine GLSharedGroup.samplerUniforms_eq hget ?_
  rw [GLSharedGroup.numIndexes, hget]

theorem found_target {program : GLuint} :
    ∀ s ∈ ctx.found program, ∃ t : TextureTarget, s.2.2 = t.toGLenum := by
  intro s hs
  cases hget : ctx.shared.programs.get? program with
  | none =>
      rw [found, GLSharedGroup.numIndexes, hget] at hs
      cases hs
  | some p =>
      rw [found_eq hget, ProgramData.mem_samplers] at hs
      obtain ⟨info, -, -, -, htarget⟩ := hs
      rw [htarget]
      exact ProgramData.exists_samplerTarget info

/-- The unit that was active is active again on both sides, and each unit that samplers are set
to has their target, if it is the same for all of them. -/
theorem glUseProgram_spec (hb : Binds h ctx.textures.state)
    (hactive : h.activeUnit = ctx.textures.state.activeUnit) (program : GLuint) :
    (Binds (h.run ((ctx.glUseProgram program).2.filterMap SamplerCommand.texture?))
        (ctx.glUseProgram program).1.textures.state ∧
      (h.run ((ctx.glUseProgram program).2.filterMap SamplerCommand.texture?)).activeUnit =
        (ctx.glUseProgram program).1.textures.state.activeUnit) ∧
    ∀ (u : Fin MAX_TEXTURE_UNITS) (t : TextureTarget),
      (∀ s ∈ ctx.found program, s.2.1 = (u : Nat) → s.2.2 = t.toGLenum) →
      (∃ s ∈ ctx.found program, s.2.1 = (u : Nat)) →
      ((ctx.glUseProgram program).1.textures.state.unit u).priority = t := by
  have hstart : TextureEncoder.UseProgram.Invariant h
      ⟨ctx.textures, [], ctx.textures.state.getActiveTextureUnit⟩ :=
    ⟨hb, by rw [HostTextures.run_nil, hactive]; rfl⟩
  obtain ⟨hloop, hunit⟩ := hstart.samplers found_target
  have hstate (s : TextureState) :
      s.setActiveTextureUnit ctx.textures.state.getActiveTextureUnit =
        ({ s with activeUnit := ctx.textures.state.activeUnit }, GL_NO_ERROR) :=
    s.setActiveTextureUnit_of_unit ctx.textures.state.activeUnit
  obtain ⟨loop, hfold⟩ : ∃ loop, (ctx.found program).foldl TextureEncoder.UseProgram.sampler
      ⟨ctx.textures, [], ctx.textures.state.getActiveTextureUnit⟩ = loop := ⟨_, rfl⟩
  have hcall : ctx.glUseProgram program =
      (⟨{ loop.ctx with state := (loop.ctx.state.setActiveTextureUnit
          ctx.textures.state.getActiveTextureUnit).1 }, program, ctx.shared⟩,
        .glUseProgram program :: (loop.sent ++
          if loop.hostActiveTexture ≠ ctx.textures.state.getActiveTextureUnit then
            [TextureCommand.glActiveTexture ctx.textures.state.getActiveTextureUnit]
          else []).map .texture) := by
    subst hfold
    rfl
  rw [hfold] at hloop hunit
  rw [hcall, hstate, List.filterMap_cons]
  dsimp only [SamplerCommand.texture?]
  rw [filterMap_texture?, HostTextures.run_append]
  refine ⟨?_, fun u t hsame hex => hunit u t hsame (.inr hex)⟩
  split
  · have hexec : (h.run loop.sent).exec (.glActiveTexture ctx.textures.state.getActiveTextureUnit) =
        { h.run loop.sent with activeUnit := ctx.textures.state.activeUnit } :=
      HostTextures.exec_glActiveTexture _ _
    rw [HostTextures.run_cons, HostTextures.run_nil, hexec]
    exact ⟨hloop.binds, rfl⟩
  · rename_i heq
    refine ⟨hloop.binds, ?_⟩
    have hsame := unit_of_texUnit (h.run loop.sent).activeUnit
    rw [← hloop.active, not_not.mp heq, TextureState.getActiveTextureUnit, unit_of_texUnit] at hsame
    exact Fin.ext hsame.symm

end SamplerEncoder

/-! ## Linked programs -/

/-- A uniform after linking: a sampler has the value 0, and no type is a texture target. -/
def IndexInfo.Fresh (info : IndexInfo) : Prop :=
  info.samplerValue = 0 ∧ info.type ≠ GL_TEXTURE_2D

def ProgramData.Fresh (p : ProgramData) : Prop := ∀ info ∈ p.indexes, info.Fresh

def GLSharedGroup.Fresh (g : GLSharedGroup) : Prop :=
  ∀ program p, g.programs.get? program = some p → program ≠ 0 ∧ p.Fresh

theorem ActiveUniform.type_ne (uniform : ActiveUniform) : uniform.type ≠ GL_TEXTURE_2D := by
  have hmem : GL_TEXTURE_2D ∉ uniformTypes := by decide
  exact fun heq => hmem (heq ▸ uniform.type_mem)

namespace GLSharedGroup

variable {g : GLSharedGroup}

theorem Fresh.add (hg : g.Fresh) {program : GLuint} {p p' : ProgramData}
    (hget : g.programs.get? program = some p) (hp : p'.Fresh) :
    { g with programs := g.programs.add program p' }.Fresh := by
  have hne := (hg program p hget).1
  intro program' p' hget
  rw [KeyedVector.get?_add] at hget
  split at hget
  · grind
  · exact hg program' p' hget

theorem Fresh.initProgramData (hg : g.Fresh) (program : GLuint) (numIndexes : Nat) :
    (g.initProgramData program numIndexes).Fresh := by
  unfold GLSharedGroup.initProgramData
  split
  · rename_i p hget
    refine hg.add hget fun info hmem => ?_
    rw [List.eq_of_mem_replicate hmem]
    exact ⟨rfl, by decide⟩
  · exact hg

theorem Fresh.setProgramIndexInfo (hg : g.Fresh) (program : GLuint) (index : Nat)
    (u : ActiveUniform) : (g.setProgramIndexInfo program index u.base u.size u.type u.name).Fresh := by
  unfold GLSharedGroup.setProgramIndexInfo
  split
  · rename_i p hget
    have hinfo : (p.setIndexInfo index u.base u.size u.type).Fresh := by
      intro info hmem
      rcases List.mem_or_eq_of_mem_set hmem with hold | rfl
      · exact (hg program p hget).2 info hold
      · exact ⟨rfl, u.type_ne⟩
    have hflags : ∀ flags, ((p.setIndexInfo index u.base u.size u.type).setIndexFlags index
        flags).Fresh := by
      intro flags info hmem
      obtain ⟨i, hi⟩ := List.mem_iff_getElem?.mp hmem
      unfold ProgramData.setIndexFlags at hi
      rw [List.getElem?_modify] at hi
      obtain ⟨info', hget', rfl⟩ := Option.map_eq_some_iff.mp hi
      have hfresh := hinfo info' (List.mem_of_getElem? hget')
      split
      · exact hfresh
      · exact hfresh
    grind [hg.add]
  · exact hg

theorem Fresh.linkProgram (hg : g.Fresh) (program : GLuint) (uniforms : List ActiveUniform) :
    (g.linkProgram program uniforms).Fresh := by
  have hloop : ∀ (us : List (ActiveUniform × Nat)) (g : GLSharedGroup), g.Fresh →
      (us.foldl (fun g (u, i) => g.setProgramIndexInfo program i u.base u.size u.type u.name)
        g).Fresh := by
    intro us
    induction us with
    | nil => exact fun _ hg => hg
    | cons u us ih => exact fun _ hg => ih _ (hg.setProgramIndexInfo program u.2 u.1)
  have hlinked := hloop uniforms.zipIdx _ (hg.initProgramData program uniforms.length)
  unfold GLSharedGroup.linkProgram
  dsimp only
  unfold GLSharedGroup.setupLocationShiftWAR
  split
  · rename_i p hget
    exact Fresh.add hlinked hget (hlinked program p hget).2
  · exact hlinked

end GLSharedGroup

/-! ## Encoder and host -/

def ProgramData.uniformAt (p : ProgramData) (appLoc : Int) : Option Nat :=
  (p.indexes.zipIdx.find? fun (info, _) =>
    let elemIndex := appLoc - if p.locShiftWAR then info.appBase else info.base
    decide (0 ≤ elemIndex ∧ elemIndex < info.size)).map Prod.snd

inductive SamplerCall
  | glUseProgram (program : GLuint)
  | glUniform1i (location x : Int)
  | glActiveTexture (texture : GLenum)
  | glBindTexture (target : GLenum) (texture : GLuint) (memory : Bool)

/-- `values` are the values last set, for each program and uniform. -/
structure SamplerSystem where
  ctx : SamplerEncoder
  host : HostTextures
  values : GLuint → Nat → Int

def SamplerEncoder.call (ctx : SamplerEncoder) : SamplerCall → SamplerEncoder × List SamplerCommand
  | .glUseProgram program => ctx.glUseProgram program
  | .glUniform1i location x => ctx.glUniform1i location x
  | .glActiveTexture texture => ctx.glActiveTexture texture
  | .glBindTexture target texture memory => ctx.glBindTexture target texture memory

namespace SamplerSystem

/-- A new context in a share group whose programs are linked. -/
def start (shared : GLSharedGroup) (links : List (GLuint × List ActiveUniform)) :
    SamplerSystem where
  ctx := ⟨.init, 0, links.foldl (fun g link => g.linkProgram link.1 link.2) shared⟩
  host := .init
  values := fun _ _ => 0

def current (x : SamplerSystem) : Option ProgramData :=
  x.ctx.shared.programs.get? x.ctx.currentProgram

def valuesAfter (x : SamplerSystem) : SamplerCall → GLuint → Nat → Int
  | .glUniform1i location value =>
      match x.current >>= fun p => p.uniformAt location with
      | some i =>
          Function.update x.values x.ctx.currentProgram
            (Function.update (x.values x.ctx.currentProgram) i value)
      | none => x.values
  | _ => x.values

def step (x : SamplerSystem) (c : SamplerCall) : SamplerSystem where
  ctx := (x.ctx.call c).1
  host := x.host.run ((x.ctx.call c).2.filterMap SamplerCommand.texture?)
  values := x.valuesAfter c

/-- The units that samplers of the current program are set to have their targets, and the
samplers are found with their values. -/
structure SamplersAgree (x : SamplerSystem) : Prop where
  priority : ∀ p i info (u : Fin MAX_TEXTURE_UNITS), x.current = some p →
    p.indexes[i]? = some info → info.type = GL_SAMPLER_2D →
    x.values x.ctx.currentProgram i = (u : Nat) →
    (x.ctx.textures.state.unit u).priorityEnabledTarget GL_TEXTURE_2D =
      ProgramData.samplerTarget info
  binding : ∀ p i info (u : Fin MAX_TEXTURE_UNITS), x.current = some p →
    p.indexes[i]? = some info → info.type = GL_SAMPLER_2D →
    x.values x.ctx.currentProgram i = (u : Nat) →
    (x.host.unit u).binding =
      (x.ctx.textures.state.unit u).boundTexture (ProgramData.samplerTarget info)
  enumerated : ∀ program p, x.ctx.shared.programs.get? program = some p →
    ∀ fuel, p.indexes.length ≤ fuel →
    x.ctx.shared.samplerUniforms program fuel (-1) = p.samplers fun i _ => x.values program i

/-- A sampler is only set to the value it has, and the samplers of a program that is used have
one target for each value. -/
def KeepsSamplers (x : SamplerSystem) : SamplerCall → Prop
  | .glUseProgram program => ∀ p, x.ctx.shared.programs.get? program = some p →
      ∀ info ∈ p.indexes, ∀ info' ∈ p.indexes, info.type = GL_SAMPLER_2D →
      info'.type = GL_SAMPLER_2D → info.samplerValue = info'.samplerValue →
      ProgramData.samplerTarget info = ProgramData.samplerTarget info'
  | .glUniform1i location value => ∀ p i info, x.current = some p →
      p.uniformAt location = some i → p.indexes[i]? = some info →
      info.type = GL_SAMPLER_2D → value = info.samplerValue
  | _ => True

structure Invariant (x : SamplerSystem) : Prop where
  fresh : x.ctx.shared.Fresh
  binds : Binds x.host x.ctx.textures.state
  active : x.host.activeUnit = x.ctx.textures.state.activeUnit
  value : ∀ program p i info, x.ctx.shared.programs.get? program = some p →
    p.indexes[i]? = some info → info.type = GL_SAMPLER_2D → x.values program i = info.samplerValue
  priority : ∀ p info (u : Fin MAX_TEXTURE_UNITS), x.current = some p →
    info ∈ p.indexes → info.type = GL_SAMPLER_2D → info.samplerValue = (u : Nat) →
    (x.ctx.textures.state.unit u).priority.toGLenum = ProgramData.samplerTarget info

variable {x : SamplerSystem}

theorem Invariant.agree (h : x.Invariant) : x.SamplersAgree := by
  have hpriority : ∀ p i info (u : Fin MAX_TEXTURE_UNITS), x.current = some p →
      p.indexes[i]? = some info → info.type = GL_SAMPLER_2D →
      x.values x.ctx.currentProgram i = (u : Nat) →
      (x.ctx.textures.state.unit u).priority.toGLenum = ProgramData.samplerTarget info := by
    intro p i info u hp hget htype hvalue
    refine h.priority p info u hp (List.mem_of_getElem? hget) htype ?_
    rw [← hvalue, h.value _ p i info hp hget htype]
  refine ⟨fun p i info u hp hget htype hvalue => ?_, fun p i info u hp hget htype hvalue => ?_,
    fun program p hget fuel hfuel => ?_⟩
  · rw [TextureUnit.priorityEnabledTarget_eq, hpriority p i info u hp hget htype hvalue]
  · rw [h.binds u, TextureUnit.shown_eq, ← hpriority p i info u hp hget htype hvalue,
      TextureUnit.boundTexture_toGLenum]
  · rw [GLSharedGroup.samplerUniforms_eq hget hfuel, ProgramData.samplers, ProgramData.samplers]
    refine List.filterMap_congr fun entry hmem => ?_
    grind [ProgramData.samplerWith, h.value]

/-! ## Calls of the application -/

@[simp] theorem bindActive_priority (s : TextureState) (target : GLenum) (texture : GLuint)
    (u : Fin MAX_TEXTURE_UNITS) :
    ((s.bindActive target texture).unit u).priority = (s.unit u).priority := by
  unfold TextureState.bindActive
  split
  · rw [TextureState.setActive_unit]
    split
    · rename_i heq
      rw [TextureUnit.priority_bind, heq]
      rfl
    · rfl
  · rfl

@[simp] theorem glBindTexture_priority (ctx : TextureEncoder) (target : GLenum) (texture : GLuint)
    (memory : Bool) (u : Fin MAX_TEXTURE_UNITS) :
    ((ctx.glBindTexture target texture memory).1.state.unit u).priority =
      (ctx.state.unit u).priority := by
  have hstate : (ctx.glBindTexture target texture memory).1.state =
      (ctx.state.bindTexture target texture memory).1 := by grind [TextureEncoder.glBindTexture]
  rw [hstate]
  rcases ctx.state.bindTexture_cases target texture memory with
    ⟨-, hsame⟩ | ⟨-, s', hunit, -, hbind⟩
  · rw [hsame]
  · rw [hbind, bindActive_priority, hunit]

@[simp] theorem glActiveTexture_priority (ctx : TextureEncoder) (texture : GLenum)
    (u : Fin MAX_TEXTURE_UNITS) :
    ((ctx.glActiveTexture texture).1.state.unit u).priority = (ctx.state.unit u).priority := by
  have hstate : (ctx.glActiveTexture texture).1.state =
      (ctx.state.setActiveTextureUnit texture).1 := by grind [TextureEncoder.glActiveTexture]
  rw [hstate, TextureState.setActiveTextureUnit_unit]

/-- A change of the textures that keeps the priorities. -/
theorem Invariant.textures (h : x.Invariant) {textures : TextureEncoder}
    {host : HostTextures} (hbinds : Binds host textures.state)
    (hactive : host.activeUnit = textures.state.activeUnit)
    (hpriority : ∀ u, (textures.state.unit u).priority = (x.ctx.textures.state.unit u).priority) :
    (SamplerSystem.mk { x.ctx with textures } host x.values).Invariant :=
  ⟨h.fresh, hbinds, hactive, h.value, fun p info u hp hmem htype hvalue => by
    dsimp only
    rw [hpriority]
    exact h.priority p info u hp hmem htype hvalue⟩

theorem Invariant.glActiveTexture (h : x.Invariant) (texture : GLenum) :
    (x.step (.glActiveTexture texture)).Invariant := by
  obtain ⟨hbinds, hactive⟩ := TextureEncoder.glActiveTexture_binds h.binds h.active texture
  unfold step SamplerEncoder.call SamplerEncoder.glActiveTexture
  dsimp only
  rw [filterMap_texture?]
  exact h.textures hbinds hactive (glActiveTexture_priority x.ctx.textures texture)

theorem Invariant.glBindTexture (h : x.Invariant) (target : GLenum)
    (texture : GLuint) (memory : Bool) :
    (x.step (.glBindTexture target texture memory)).Invariant := by
  obtain ⟨hbinds, hactive⟩ :=
    TextureEncoder.glBindTexture_binds h.binds h.active target texture memory
  unfold step SamplerEncoder.call SamplerEncoder.glBindTexture
  dsimp only
  rw [filterMap_texture?]
  exact h.textures hbinds hactive (glBindTexture_priority x.ctx.textures target texture memory)

theorem Invariant.glUseProgram (h : x.Invariant) {program : GLuint}
    (hkeeps : x.KeepsSamplers (.glUseProgram program)) :
    (x.step (.glUseProgram program)).Invariant := by
  obtain ⟨⟨hbinds, hactive⟩, hunit⟩ := SamplerEncoder.glUseProgram_spec h.binds h.active program
  refine ⟨h.fresh, hbinds, hactive, h.value, fun p info u hp hmem htype hvalue => ?_⟩
  obtain ⟨t, ht⟩ := ProgramData.exists_samplerTarget info
  have hget : x.ctx.shared.programs.get? program = some p := hp
  have hfound := SamplerEncoder.found_eq hget
  rw [ht]
  congr 1
  refine hunit u t (fun s hs hsu => ?_) ?_
  · rw [hfound, ProgramData.mem_samplers] at hs
    obtain ⟨info', hget', htype', hvalue', htarget'⟩ := hs
    rw [htarget', ← ht]
    refine hkeeps p hget info' (List.mem_of_getElem? hget') info hmem htype' htype ?_
    rw [hvalue, ← hsu, hvalue']
  · obtain ⟨i, hget⟩ := List.mem_iff_getElem?.mp hmem
    refine ⟨(i, info.samplerValue, ProgramData.samplerTarget info), ?_, hvalue⟩
    rw [hfound, ProgramData.mem_samplers]
    exact ⟨info, hget, htype, rfl, rfl⟩

/-- No entry has the type that `setSamplerUniform` looks for. -/
theorem samplerAt_of_fresh {p : ProgramData} (hp : p.Fresh) (appLoc : Int) :
    p.samplerAt appLoc = none := by
  refine List.find?_eq_none.mpr fun entry hmem => ?_
  have hget := List.mem_zipIdx_iff_getElem?.mp hmem
  simp [(hp entry.1 (List.mem_of_getElem? hget)).2]

/-- So that nothing is recorded. -/
theorem setSamplerUniform_of_fresh {g : GLSharedGroup} (hg : g.Fresh) (program : GLuint)
    (appLoc val : Int) :
    (g.setSamplerUniform program appLoc val).2 = none ∧
    ∀ program', (g.setSamplerUniform program appLoc val).1.programs.get? program' =
      g.programs.get? program' := by
  unfold GLSharedGroup.setSamplerUniform
  split
  · rename_i p hget
    have hsame : p.setSamplerUniform appLoc val = (p, none) := by
      rw [ProgramData.setSamplerUniform, samplerAt_of_fresh (hg program p hget).2]
    simp [KeyedVector.get?_add, hsame, hget]
  · exact ⟨rfl, fun _ => rfl⟩

theorem Invariant.glUniform1i (h : x.Invariant) {location value : Int}
    (hkeeps : x.KeepsSamplers (.glUniform1i location value)) :
    (x.step (.glUniform1i location value)).Invariant := by
  obtain ⟨hnone, hprograms⟩ :=
    setSamplerUniform_of_fresh h.fresh x.ctx.currentProgram location value
  have hcall : x.ctx.glUniform1i location value =
      ({ x.ctx with
          shared := (x.ctx.shared.setSamplerUniform x.ctx.currentProgram location value).1 },
        [.glUniform1i (x.ctx.shared.locationWARAppToHost x.ctx.currentProgram location) value]) := by
    rw [SamplerEncoder.glUniform1i, hnone]
  unfold step SamplerEncoder.call
  dsimp only
  rw [hcall]
  refine ⟨fun program p hget => ?_, h.binds, h.active, fun program p i info hget hinfo htype => ?_,
    fun p info u hp hmem htype hvalue => ?_⟩
  · exact h.fresh program p ((hprograms program).symm.trans hget)
  · have hget' := (hprograms program).symm.trans hget
    have hold := h.value program p i info hget' hinfo htype
    dsimp only
    cases hj : x.current >>= fun p => p.uniformAt location with
    | none =>
        simp only [valuesAfter, hj]
        exact hold
    | some j =>
        simp only [valuesAfter, hj, Function.update_apply]
        split
        · rename_i heq
          subst heq
          rw [Function.update_apply]
          split
          · rename_i heq
            subst heq
            have hcurrent : x.current = some p := hget'
            rw [hcurrent] at hj
            exact hkeeps p i info hcurrent hj hinfo htype
          · exact hold
        · exact hold
  · exact h.priority p info u ((hprograms x.ctx.currentProgram).symm.trans hp) hmem htype hvalue

theorem Invariant.step (h : x.Invariant) {c : SamplerCall}
    (hkeeps : x.KeepsSamplers c) : (x.step c).Invariant := by
  cases c with
  | glUseProgram program => exact h.glUseProgram hkeeps
  | glUniform1i location value => exact h.glUniform1i hkeeps
  | glActiveTexture texture => exact h.glActiveTexture texture
  | glBindTexture target texture memory => exact h.glBindTexture target texture memory

theorem invariant_start {shared : GLSharedGroup} (links : List (GLuint × List ActiveUniform))
    (hshared : ∀ program p, shared.programs.get? program = some p →
      program ≠ 0 ∧ p.indexes = []) : (start shared links).Invariant := by
  have hlinked : ∀ g : GLSharedGroup, g.Fresh →
      (links.foldl (fun g link => g.linkProgram link.1 link.2) g).Fresh := by
    induction links with
    | nil => exact fun _ hg => hg
    | cons link links ih => exact fun g hg => ih _ (hg.linkProgram link.1 link.2)
  have hfresh : (start shared links).ctx.shared.Fresh := by
    refine hlinked shared fun program p hget => ⟨(hshared program p hget).1, fun info hmem => ?_⟩
    grind
  refine ⟨hfresh, fun _ => rfl, rfl, fun program p i info hget hinfo _ => ?_,
    fun p info u hp hmem _ hvalue => ?_⟩
  · exact ((hfresh program p hget).2 info (List.mem_of_getElem? hinfo)).1.symm
  · exact absurd rfl (hfresh 0 p hp).1

/-- In every run from linked programs that sets samplers only to the values they have, and uses
only programs whose samplers of one value have one target, each unit that samplers of the
current program are set to has their target and its texture on the host, and the samplers are
found with the values last set. -/
theorem samplers_agree (shared : GLSharedGroup) (links : List (GLuint × List ActiveUniform))
    (hshared : ∀ program p, shared.programs.get? program = some p →
      program ≠ 0 ∧ p.indexes = [])
    (x : SamplerSystem)
    (h : Run.Reach (Run.total step) KeepsSamplers (start shared links) x) : x.SamplersAgree := by
  have hinv : x.Invariant :=
    h.invariant_total (invariant_start links hshared) fun _ _ hinv hkeeps => hinv.step hkeeps
  exact hinv.agree

/-- A program whose shader has an external sampler. -/
def oneProgram : GLSharedGroup where
  programs := KeyedVector.empty.add 1 { ProgramData.new with shaders := [2] }
  shaders := KeyedVector.empty.add 2 0
  heap := Registry.empty.insert ⟨[[116]], 2⟩

/-- Its uniforms: a matrix and the sampler. -/
def oneProgramUniforms : List ActiveUniform :=
  [⟨0, 1, 0x8B5C, [109], by decide⟩, ⟨1, 1, GL_SAMPLER_2D, [116], by decide⟩]

theorem oneProgram_not_linked (program : GLuint) (p : ProgramData)
    (hget : oneProgram.programs.get? program = some p) : program ≠ 0 ∧ p.indexes = [] := by
  rw [oneProgram, KeyedVector.get?_add] at hget
  split at hget
  · rename_i heq
    obtain rfl := Option.some.inj hget
    exact ⟨by rw [heq]; decide, rfl⟩
  · cases hget

/-- A test for `KeepsSamplers`. -/
def keepsSamplersTest (x : SamplerSystem) : SamplerCall → Bool
  | .glUseProgram program =>
      match x.ctx.shared.programs.get? program with
      | some p => p.indexes.all fun info => p.indexes.all fun info' =>
          decide (info.type = GL_SAMPLER_2D → info'.type = GL_SAMPLER_2D →
            info.samplerValue = info'.samplerValue →
            ProgramData.samplerTarget info = ProgramData.samplerTarget info')
      | none => true
  | .glUniform1i location value =>
      match x.current with
      | some p =>
          match p.uniformAt location >>= fun i => p.indexes[i]? with
          | some info => decide (info.type = GL_SAMPLER_2D → value = info.samplerValue)
          | none => true
      | none => true
  | _ => true

theorem keepsSamplersTest_sound (x : SamplerSystem) (c : SamplerCall)
    (h : keepsSamplersTest x c = true) : x.KeepsSamplers c := by
  cases c with
  | glUseProgram program =>
      intro p hget info hmem info' hmem'
      grind [keepsSamplersTest]
  | glUniform1i location value =>
      intro p i info hp hi hget htype
      grind [keepsSamplersTest]
  | _ => trivial

/-- The external texture of unit 0 is bound on the host when the program is used. -/
theorem samplers_agree_used :
    ∃ x : SamplerSystem, (x.host.unit 0).binding = 9 ∧ x.SamplersAgree := by
  have hrun : Run.check (Run.total step) keepsSamplersTest
      (fun x => (x.host.unit 0).binding = 9) (start oneProgram [(1, oneProgramUniforms)])
      [.glBindTexture GL_TEXTURE_2D 4 true, .glBindTexture GL_TEXTURE_EXTERNAL_OES 9 true,
        .glUseProgram 1, .glUniform1i 1 0] = true := by
    decide +kernel
  obtain ⟨x, hreach, htest⟩ := Run.exists_reach_of_check keepsSamplersTest_sound hrun
  exact ⟨x, of_decide_eq_true htest, samplers_agree oneProgram _ oneProgram_not_linked x hreach⟩

/-- The sampler is set to another unit, which is not recorded. -/
theorem setSampler_not_agrees :
    ∃ x, Run.Reach (Run.total step) (fun _ _ => True) (start oneProgram [(1, oneProgramUniforms)])
      x ∧ ¬x.SamplersAgree := by
  have hrun : Run.check (Run.total step) (fun _ _ => true)
      (fun x =>
        match x.current with
        | some p =>
            match p.indexes[1]? with
            | some info =>
                decide (info.type = GL_SAMPLER_2D) &&
                  decide (x.values x.ctx.currentProgram 1 = (1 : Fin MAX_TEXTURE_UNITS).val) &&
                  decide ((x.ctx.textures.state.unit 1).priorityEnabledTarget GL_TEXTURE_2D ≠
                    ProgramData.samplerTarget info)
            | none => false
        | none => false)
      (start oneProgram [(1, oneProgramUniforms)])
      [.glUseProgram 1, .glActiveTexture (GL_TEXTURE0 + 1),
        .glBindTexture GL_TEXTURE_EXTERNAL_OES 9 true, .glUniform1i 1 1] = true := by
    decide +kernel
  obtain ⟨x, hreach, htest⟩ := Run.exists_reach_of_check (fun _ _ _ => trivial) hrun
  refine ⟨x, hreach, fun h => ?_⟩
  split at htest
  · rename_i p hp
    split at htest
    · rename_i info hinfo
      rw [Bool.and_eq_true, Bool.and_eq_true, decide_eq_true_eq, decide_eq_true_eq,
        decide_eq_true_eq] at htest
      exact htest.2 (h.priority p 1 info 1 hp hinfo htest.1.1 htest.1.2)
    · cases htest
  · cases htest

end SamplerSystem

end AndroidRenderer
