import AndroidRenderer.Translator.LiveTextures

/-!
# Agreement of texture bindings

Where a context has bound a texture, the driver has the texture bound that the share group
has for it. `TextureSystem` keeps beside the context on which units and targets a texture
was bound that was not deleted since: elsewhere the context records the default texture, but
the driver has its own.
-/

namespace AndroidRenderer.Translator

namespace Context

variable {n : Nat} {ctx ctx' : Context n}

/-! ## Bindings -/

def recordedName (ctx : Context n) (u : Fin n) (t : TextureTarget) : ObjectLocalName :=
  textureLocalName t (ctx.texState u t)

abbrev Bound (n : Nat) := Fin n → TextureTarget → Bool

/-- The driver has what the context records where `bound` says so, and all that is recorded is in
use. -/
structure Invariant (ctx : Context n) (bound : Bound n) : Prop where
  active : ctx.driver.activeUnit = ctx.activeTexture
  agrees : ∀ u t, bound u t → ctx.driver.bound u t =
    ctx.shareGroup.getGlobalName .TEXTURE (ctx.recordedName u t)
  bound : ∀ u t, ctx.texState u t ≠ 0 → bound u t
  live : ∀ u t, Live ctx.shareGroup t (ctx.recordedName u t)
  default : ∀ t, Live ctx.shareGroup t (getDefaultTextureName t)
  images : ImagesLive ctx.shareGroup

namespace Invariant

variable {bound : Bound n}

/-- A texture is found. -/
theorem extend (h : ctx.Invariant bound) (hsame : SameBindings ctx ctx')
    (hext : Extends ctx.shareGroup ctx'.shareGroup) : ctx'.Invariant bound := by
  have hname : ctx'.recordedName = ctx.recordedName := by grind [recordedName, hsame.texState]
  refine ⟨?_, fun u t hb => ?_, ?_, fun u t => ?_, fun t => hext.live (h.default t),
    hext.images h.images⟩
  · rw [hsame.driver, hsame.activeTexture]
    exact h.active
  · rw [hsame.driver, hname, hext.global _ (h.live u t).global, h.agrees u t hb]
  · rw [hsame.texState]
    exact h.bound
  · rw [hname]
    exact hext.live (h.live u t)

theorem setGLerror (h : ctx.Invariant bound) (error : GLenum) :
    (ctx.setGLerror error).Invariant bound :=
  ⟨h.active, h.agrees, h.bound, h.live, h.default, h.images⟩

theorem glActiveTexture (h : ctx.Invariant bound) (texture : GLenum) :
    (ctx.glActiveTexture texture).Invariant bound := by
  unfold Context.glActiveTexture
  split
  · exact h.setGLerror _
  · exact ⟨rfl, h.agrees, h.bound, h.live, h.default, h.images⟩

theorem bind (h : ctx.Invariant bound) {unit : Fin n} (hunit : unit.val = ctx.activeTexture)
    {target : GLenum} {texture : GLuint}
    (hlive : Live ctx.shareGroup (GLTextureTargetToLocal target)
      (textureLocalName (GLTextureTargetToLocal target) texture)) :
    Context.Invariant { ctx with
      texState := fun u t =>
        if u = unit ∧ t = GLTextureTargetToLocal target then texture else ctx.texState u t
      driver := ctx.driver.glBindTexture target (ctx.shareGroup.getGlobalName .TEXTURE
        (textureLocalName (GLTextureTargetToLocal target) texture)) }
      (fun u t => if u = unit ∧ t = GLTextureTargetToLocal target then true else bound u t) := by
  have hactive : ∀ u : Fin n, u.val = ctx.driver.activeUnit ↔ u = unit := by
    intro u
    rw [h.active, ← hunit, Fin.ext_iff]
  refine ⟨h.active, fun u t hb => ?_, fun u t hne => ?_, fun u t => ?_, h.default, h.images⟩
  · unfold TextureDriver.glBindTexture recordedName
    dsimp only at hb ⊢
    simp only [hactive]
    split
    · rename_i heq
      rw [heq.2]
    · rename_i hother
      rw [if_neg hother] at hb
      exact h.agrees u t hb
  · grind [h.bound]
  · unfold recordedName
    dsimp only
    split
    · grind
    · exact h.live u t

end Invariant

/-- Whether `glBindTexture` binds the texture. -/
def binds (ctx : Context n) (target : GLenum) (texture : GLuint) (gen : GlobalName) : Bool :=
  textureTarget target &&
    match ctx.textureToBind target texture gen with
    | .ok (_, some _) => true
    | _ => false

def marked (ctx : Context n) (bound : Bound n) (t : TextureTarget) : Bound n := fun u t' =>
  if u.val = ctx.activeTexture ∧ t' = t then true else bound u t'

variable {target : GLenum} {texture : GLuint}

theorem Invariant.glBindTexture {bound : Bound n} (h : ctx.Invariant bound) {gen : GlobalName}
    (hcall : ctx.glBindTexture target texture gen = .ok ctx') :
    ctx'.Invariant (if ctx.binds target texture gen then
      ctx.marked bound (GLTextureTargetToLocal target) else bound) := by
  unfold Context.glBindTexture at hcall
  split at hcall
  · rename_i htarget
    rw [Bool.not_eq_true'] at htarget
    obtain rfl := Except.ok.inj hcall
    simp [binds, Bool.false_and, h.setGLerror, htarget]
  · rename_i htarget
    rw [Bool.not_eq_true, Bool.not_eq_false'] at htarget
    obtain ⟨⟨ctx₁, global⟩, hfind, hrest⟩ := Run.bind_eq_ok.mp hcall
    obtain ⟨hsame, hext, hfound⟩ := textureToBind_spec htarget hfind
    have hinv := h.extend hsame hext
    cases global with
    | none =>
        obtain rfl := Except.ok.inj hrest
        rw [binds, htarget, Bool.true_and, hfind, if_neg Bool.false_ne_true]
        exact hinv
    | some g =>
        obtain ⟨hg, hlive⟩ := hfound g rfl
        obtain ⟨ctx₂, hset, hlast⟩ := Run.bind_eq_ok.mp hrest
        obtain ⟨unit, hunit, htex⟩ := Run.bind_eq_ok.mp hset
        obtain rfl := Except.ok.inj htex
        obtain rfl := Except.ok.inj hlast
        rw [unit_eq_ok] at hunit
        rw [binds, htarget, Bool.true_and, hfind, if_pos rfl]
        have hbind := hinv.bind hunit hlive
        rw [← hg] at hbind
        have hmarked : ctx.marked bound (GLTextureTargetToLocal target) = fun u t =>
            if u = unit ∧ t = GLTextureTargetToLocal target then true else bound u t := by
          funext u t
          simp only [marked, Fin.ext_iff, hunit, hsame.activeTexture]
        rw [hmarked]
        exact hbind

/-! ## Deletion -/

theorem getTextureData_getGlobalName (ctx : Context n) (name name' : ObjectLocalName) :
    (ctx.getTextureData name).1.getGlobalName .TEXTURE name' =
      ctx.shareGroup.getGlobalName .TEXTURE name' := by
  unfold getTextureData
  split
  · rfl
  · split <;> rfl

theorem getTextureData_getObjectData (ctx : Context n) {name name' : ObjectLocalName}
    (hne : name' ≠ name) : (ctx.getTextureData name).1.getObjectData .TEXTURE name' =
      ctx.shareGroup.getObjectData .TEXTURE name' := by
  unfold getTextureData
  grind

/-- The texture is no target of an image. -/
def hasNoImage (ctx : Context n) (name : ObjectLocalName) : Bool :=
  (ctx.getTextureData name).2.all fun tData => tData.sourceEGLImage = 0

theorem unbind_spec (h : ctx.unbind target texture = .ok ctx') :
    ∃ unit : Fin n, unit.val = ctx.activeTexture ∧ ctx' = { ctx with
      texState := fun u t =>
        if u = unit ∧ t = GLTextureTargetToLocal target ∧ ctx.texState u t = texture then 0
        else ctx.texState u t } := by
  obtain ⟨binded, hget, hrest⟩ := Run.bind_eq_ok.mp h
  obtain ⟨unit, hunit, htex⟩ := Run.bind_eq_ok.mp hget
  obtain rfl := Except.ok.inj htex
  refine ⟨unit, unit_eq_ok.mp hunit, ?_⟩
  split at hrest
  · rename_i heq
    obtain ⟨unit', hunit', hset⟩ := Run.bind_eq_ok.mp hrest
    obtain rfl := Except.ok.inj (hunit.symm.trans hunit')
    obtain rfl := Except.ok.inj hset
    grind
  · rename_i hne
    obtain rfl := Except.ok.inj hrest
    have hsame : (fun u t => if u = unit ∧ t = GLTextureTargetToLocal target ∧
        ctx.texState u t = texture then 0 else ctx.texState u t) = ctx.texState := by grind
    rw [hsame]

theorem deleteTexture_spec (hne : texture ≠ 0)
    (h : ctx.deleteTexture texture = .ok ctx') :
    ∃ unit : Fin n, unit.val = ctx.activeTexture ∧ ctx' = { ctx with
      shareGroup := (ctx.getTextureData texture.toUInt64).1.deleteName .TEXTURE texture.toUInt64
      driver := if ctx.hasNoImage texture.toUInt64 then
          ctx.driver.glDeleteTextures (ctx.shareGroup.getGlobalName .TEXTURE texture.toUInt64)
        else ctx.driver
      texState := fun u t =>
        if u = unit ∧ ctx.texState u t = texture then 0 else ctx.texState u t } := by
  have hglobal := ctx.getTextureData_getGlobalName texture.toUInt64 texture.toUInt64
  unfold hasNoImage
  rw [deleteTexture, if_pos hne] at h
  generalize ctx.getTextureData texture.toUInt64 = r at *
  obtain ⟨g, tData⟩ := r
  obtain ⟨ctx₁, hfirst, hsecond⟩ := Run.bind_eq_ok.mp h
  obtain ⟨unit, hunit, rfl⟩ := unbind_spec hfirst
  obtain ⟨unit', hunit', rfl⟩ := unbind_spec hsecond
  obtain rfl : unit' = unit := Fin.ext (hunit'.trans hunit.symm)
  refine ⟨unit', hunit, ?_⟩
  rw [hglobal]
  congr 1
  funext u t
  dsimp only
  have htarget : GLTextureTargetToLocal GL_TEXTURE_2D = .TEXTURE_2D := by decide
  have hcube : GLTextureTargetToLocal GL_TEXTURE_CUBE_MAP = .TEXTURE_CUBE_MAP := by decide
  rw [htarget, hcube]
  cases t <;> by_cases hu : u = unit' <;> simp [hu]

/-- The marks after textures are deleted. -/
def cleared (ctx : Context n) (bound : Bound n) (textures : List GLuint) : Bound n := fun u t =>
  bound u t && !decide (u.val = ctx.activeTexture ∧ ctx.texState u t ≠ 0 ∧
    ctx.texState u t ∈ textures)

theorem cleared_iff {bound : Bound n} {textures : List GLuint} {u : Fin n} {t : TextureTarget} :
    ctx.cleared bound textures u t ↔ bound u t ∧
      ¬(u.val = ctx.activeTexture ∧ ctx.texState u t ≠ 0 ∧ ctx.texState u t ∈ textures) := by
  rw [cleared, Bool.and_eq_true, Bool.not_eq_true', decide_eq_false_iff_not]

/-- The texture is recorded on no unit that is not active, and the driver has it bound nowhere for
another texture, if it is deleted there. -/
def DeletesUnshared (ctx : Context n) (bound : Bound n) (texture : GLuint) : Prop :=
  texture ≠ 0 →
    (∀ (u : Fin n) t, u.val ≠ ctx.activeTexture → ctx.texState u t ≠ texture) ∧
    (ctx.hasNoImage texture.toUInt64 → ∀ u t, bound u t →
      ctx.driver.bound u t = ctx.shareGroup.getGlobalName .TEXTURE texture.toUInt64 →
      ctx.texState u t = texture)

theorem Invariant.deleteTexture {bound : Bound n} (h : ctx.Invariant bound)
    (hunshared : ctx.DeletesUnshared bound texture) (hcall : ctx.deleteTexture texture = .ok ctx') :
    ctx'.Invariant (ctx.cleared bound [texture]) := by
  by_cases hne : texture = 0
  · rw [Context.deleteTexture, if_neg (not_not.mpr hne)] at hcall
    obtain rfl := Except.ok.inj hcall
    have hsame : ctx.cleared bound [texture] = bound := by
      funext u t
      rw [Bool.eq_iff_iff, cleared_iff, List.mem_singleton]
      grind
    rwa [hsame]
  obtain ⟨unit, hunit, rfl⟩ := deleteTexture_spec hne hcall
  obtain ⟨hother, hdriver⟩ := hunshared hne
  have hactive : ∀ u : Fin n, u.val = ctx.activeTexture ↔ u = unit := by
    intro u
    rw [← hunit, Fin.ext_iff]
  -- the names that stay are not the deleted one
  have hglobal : ∀ name, name ≠ texture.toUInt64 →
      ((ctx.getTextureData texture.toUInt64).1.deleteName .TEXTURE
        texture.toUInt64).getGlobalName .TEXTURE name = ctx.shareGroup.getGlobalName .TEXTURE name := by
    grind [getTextureData_getGlobalName]
  have hlive : ∀ t name, name ≠ texture.toUInt64 → Live ctx.shareGroup t name →
      Live ((ctx.getTextureData texture.toUInt64).1.deleteName .TEXTURE texture.toUInt64) t name := by
    intro t name hname hl
    obtain ⟨d, hget, hd⟩ := hl.data
    refine ⟨by rw [hglobal name hname]; exact hl.global, d, ?_, hd⟩
    rw [ShareGroup.getObjectData_deleteName, if_neg hname, ctx.getTextureData_getObjectData hname, hget]
  have hkept : ∀ u t, ¬(u = unit ∧ ctx.texState u t = texture) →
      ctx.recordedName u t ≠ texture.toUInt64 := by
    intro u t hnot heq
    have htex := (textureLocalName_eq_toUInt64 hne).mp heq
    grind
  have hdefault : ∀ t, Live ((ctx.getTextureData texture.toUInt64).1.deleteName .TEXTURE
      texture.toUInt64) t (getDefaultTextureName t) :=
    fun t => hlive t _ (toUInt64_ne_default texture t).symm (h.default t)
  refine ⟨?_, fun u t hb => ?_, fun u t htex => ?_, fun u t => ?_, hdefault, fun name d hget => ?_⟩
  · dsimp only
    split
    · exact h.active
    · exact h.active
  · rw [cleared_iff, hactive, List.mem_singleton] at hb
    have hnot : ¬(u = unit ∧ ctx.texState u t = texture) :=
      fun hand => hb.2 ⟨hand.1, by rwa [hand.2], hand.2⟩
    have hname := hkept u t hnot
    grind [recordedName, TextureDriver.glDeleteTextures, h.agrees]
  · dsimp only at htex
    split at htex
    · exact absurd rfl htex
    · rename_i hnot
      rw [cleared_iff, hactive, List.mem_singleton]
      exact ⟨h.bound u t htex, fun hand => hnot ⟨hand.1, hand.2.2⟩⟩
  · unfold recordedName
    dsimp only
    split
    · exact hdefault t
    · rename_i hnot
      exact hlive t _ (hkept u t hnot) (h.live u t)
  · rw [ShareGroup.getObjectData_deleteName] at hget
    split at hget
    · cases hget
    · rename_i hname
      rw [ctx.getTextureData_getObjectData hname] at hget
      exact h.images name d hget

theorem deleteTexture_cleared {bound : Bound n}
    (hcall : ctx.deleteTexture texture = .ok ctx') (textures : List GLuint) :
    ctx'.cleared (ctx.cleared bound [texture]) textures =
      ctx.cleared bound (texture :: textures) := by
  funext u t
  rw [Bool.eq_iff_iff, cleared_iff, cleared_iff, cleared_iff, List.mem_singleton, List.mem_cons]
  by_cases hne : texture = 0
  · grind [Context.deleteTexture]
  · obtain ⟨unit, hunit, rfl⟩ := deleteTexture_spec hne hcall
    grind

/-- No texture of the list is shared when it is its turn. -/
def DeletesAll (ctx : Context n) (bound : Bound n) : List GLuint → Prop
  | [] => True
  | texture :: textures =>
      ctx.DeletesUnshared bound texture ∧
        ∀ ctx', ctx.deleteTexture texture = .ok ctx' →
          ctx'.DeletesAll (ctx.cleared bound [texture]) textures

theorem Invariant.deleteTextures {bound : Bound n} (h : ctx.Invariant bound)
    {textures : List GLuint} (hunshared : ctx.DeletesAll bound textures)
    (hcall : textures.foldlM Context.deleteTexture ctx = .ok ctx') :
    ctx'.Invariant (ctx.cleared bound textures) := by
  induction textures generalizing ctx bound with
  | nil =>
      obtain rfl := Except.ok.inj hcall
      have hsame : ctx.cleared bound [] = bound := by
        funext u t
        simp [cleared]
      rwa [hsame]
  | cons texture textures ih =>
      rw [List.foldlM_cons] at hcall
      obtain ⟨ctx₁, hfirst, hrest⟩ := Run.bind_eq_ok.mp hcall
      rw [← deleteTexture_cleared hfirst]
      exact ih (h.deleteTexture hunshared.1 hfirst) (hunshared.2 ctx₁ hfirst) hrest

/-! ## Images -/

theorem Invariant.getTextureData {bound : Bound n} (h : ctx.Invariant bound) (u : Fin n)
    (t : TextureTarget) :
    ∃ d, ctx.getTextureData (ctx.recordedName u t) = (ctx.shareGroup, some d) ∧
      ctx.shareGroup.getObjectData .TEXTURE (ctx.recordedName u t) = some d ∧ d.target ≠ 0 ∧
      GLTextureTargetToLocal d.target = t :=
  (h.live u t).getTextureData

/-- A texture that has an image keeps its name when it is detached, or it is no default texture and
is recorded on no other unit. -/
def DetachesUnshared (ctx : Context n) (bound : Bound n) (target : GLenum) : Prop :=
  ∀ (u : Fin n) d, u.val = ctx.activeTexture → bound u (GLTextureTargetToLocal target) →
    ctx.shareGroup.getObjectData .TEXTURE
      (ctx.recordedName u (GLTextureTargetToLocal target)) = some d → d.sourceEGLImage ≠ 0 →
    d.oldGlobal = ctx.shareGroup.getGlobalName .TEXTURE
      (ctx.recordedName u (GLTextureTargetToLocal target)) ∨
    (ctx.texState u (GLTextureTargetToLocal target) ≠ 0 ∧
      ∀ u' t', u' ≠ u → ctx.texState u' t' ≠ ctx.texState u (GLTextureTargetToLocal target))

theorem recordedName_ne_zero (ctx : Context n) (u : Fin n) (t : TextureTarget) :
    ctx.recordedName u t ≠ 0 := by
  unfold recordedName textureLocalName
  split
  · rename_i hne
    intro heq
    refine hne (UInt32.toNat_inj.mp ?_)
    have hnat := congrArg UInt64.toNat heq
    rwa [UInt32.toNat_toUInt64] at hnat
  · cases t <;> decide

/-- A texture that is recorded for two targets would be one of both. -/
theorem Invariant.target_unique {bound : Bound n} (h : ctx.Invariant bound) {u u' : Fin n}
    {t t' : TextureTarget} (heq : ctx.recordedName u t = ctx.recordedName u' t') : t = t' := by
  obtain ⟨d, hget, -, htarget⟩ := (h.live u t).data
  obtain ⟨d', hget', -, htarget'⟩ := (h.live u' t').data
  grind

theorem textureTargetEx_ne (h : textureTargetEx target = true) : target ≠ 0 := by
  rintro rfl
  revert h
  decide

/-- The driver's name of one texture changes, and is bound to the 2D target of the active unit. -/
theorem Invariant.rename {bound : Bound n} (h : ctx.Invariant bound) {unit : Fin n}
    (hunit : unit.val = ctx.activeTexture) {name : ObjectLocalName} {global : GLuint}
    (hglobal : global ≠ 0) {driver : TextureDriver}
    (hdriver : driver.activeUnit = ctx.driver.activeUnit) {bound' : Bound n}
    (hmono : ∀ u t, bound u t → bound' u t)
    (hactive : bound' unit .TEXTURE_2D →
      (ctx.shareGroup.replaceGlobalName .TEXTURE name global).getGlobalName .TEXTURE
        (ctx.recordedName unit .TEXTURE_2D) = global)
    (hother : ∀ u t, ¬(u = unit ∧ t = .TEXTURE_2D) → bound' u t → driver.bound u t =
      (ctx.shareGroup.replaceGlobalName .TEXTURE name global).getGlobalName .TEXTURE
        (ctx.recordedName u t)) :
    Context.Invariant { ctx with
      shareGroup := ctx.shareGroup.replaceGlobalName .TEXTURE name global
      driver := driver.glBindTexture GL_TEXTURE_2D global } bound' := by
  have htarget : GLTextureTargetToLocal GL_TEXTURE_2D = .TEXTURE_2D := by decide
  have hlive : ∀ t name', Live ctx.shareGroup t name' →
      Live (ctx.shareGroup.replaceGlobalName .TEXTURE name global) t name' := by
    intro t name' hl
    obtain ⟨d, hget, hd⟩ := hl.data
    refine ⟨?_, d, (ShareGroup.getObjectData_replaceGlobalName _ _ _ _ _ _).trans hget, hd⟩
    grind [hl.global]
  refine ⟨hdriver.trans h.active, fun u t hb => ?_, fun u t hne => hmono u t (h.bound u t hne),
    fun u t => hlive t _ (h.live u t), fun t => hlive t _ (h.default t), fun name' d hget => ?_⟩
  · have hslot : (u.val = driver.activeUnit ∧ t = GLTextureTargetToLocal GL_TEXTURE_2D) ↔
        u = unit ∧ t = .TEXTURE_2D := by
      rw [hdriver, h.active, ← hunit, ← Fin.ext_iff, htarget]
    unfold TextureDriver.glBindTexture
    dsimp only
    rw [if_congr hslot rfl rfl]
    split
    · rename_i heq
      obtain ⟨rfl, rfl⟩ := heq
      exact (hactive hb).symm
    · rename_i hne
      exact hother u t hne hb
  · rw [ShareGroup.getObjectData_replaceGlobalName] at hget
    exact h.images name' d hget

/-- The bound texture gets back the name it had before its image. -/
theorem Invariant.detach {bound : Bound n} (h : ctx.Invariant bound) {unit : Fin n}
    (hunit : unit.val = ctx.activeTexture) {d : TextureData} (hold : d.oldGlobal ≠ 0)
    (htarget : target ≠ 0)
    (hclass : GLTextureTargetToLocal target = .TEXTURE_2D)
    (hshared : bound unit .TEXTURE_2D →
      d.oldGlobal = ctx.shareGroup.getGlobalName .TEXTURE (ctx.recordedName unit .TEXTURE_2D) ∨
      (ctx.texState unit .TEXTURE_2D ≠ 0 ∧
        ∀ u t, u ≠ unit → ctx.texState u t ≠ ctx.texState unit .TEXTURE_2D)) :
    Context.Invariant { ctx with
      shareGroup := (ctx.shareGroup.setObjectData .TEXTURE (ctx.recordedName unit .TEXTURE_2D)
        { d with target, sourceEGLImage := 0, oldGlobal := 0 }).replaceGlobalName .TEXTURE
          (ctx.texState unit .TEXTURE_2D).toUInt64 d.oldGlobal
      driver := ctx.driver.glBindTexture GL_TEXTURE_2D d.oldGlobal } bound := by
  have hext : Extends ctx.shareGroup (ctx.shareGroup.setObjectData .TEXTURE
      (ctx.recordedName unit .TEXTURE_2D) { d with target, sourceEGLImage := 0, oldGlobal := 0 }) := by
    refine .of_data (fun _ => rfl) (fun _ => ShareGroup.getObjectData_setObjectData _ _ _ _ _)
      (fun d' hget' _ => ⟨htarget, ?_⟩) fun _ hne => absurd rfl hne
    obtain ⟨d'', hget'', -, hclass''⟩ := (h.live unit .TEXTURE_2D).data
    grind
  have hinv : Context.Invariant { ctx with
      shareGroup := ctx.shareGroup.setObjectData .TEXTURE (ctx.recordedName unit .TEXTURE_2D)
        { d with target, sourceEGLImage := 0, oldGlobal := 0 } } bound :=
    h.extend ⟨rfl, rfl, rfl⟩ hext
  -- only an application's name is replaced, which is then the one recorded
  have hname : ∀ u t, ctx.recordedName u t = (ctx.texState unit .TEXTURE_2D).toUInt64 ↔
      ctx.texState unit .TEXTURE_2D ≠ 0 ∧ ctx.texState u t = ctx.texState unit .TEXTURE_2D := by
    intro u t
    by_cases hzero : ctx.texState unit .TEXTURE_2D = 0
    · rw [hzero]
      exact iff_of_false (ctx.recordedName_ne_zero u t) fun hand => hand.1 rfl
    · grind [recordedName, textureLocalName_eq_toUInt64]
  have hobject : ctx.texState unit .TEXTURE_2D ≠ 0 →
      (ctx.shareGroup.setObjectData .TEXTURE (ctx.recordedName unit .TEXTURE_2D)
        { d with target, sourceEGLImage := 0, oldGlobal := 0 }).isObject .TEXTURE
          (ctx.texState unit .TEXTURE_2D).toUInt64 = true := by
    intro hne
    refine ShareGroup.isObject_of_getGlobalName (hext.live (t := .TEXTURE_2D) ?_).global
    grind [h.live]
  refine hinv.rename hunit hold rfl (fun _ _ hb => hb) (fun hb => ?_) fun u t hslot hb => ?_
  · rw [ShareGroup.getGlobalName_replaceGlobalName]
    split
    · rfl
    · rename_i hkeep
      rcases hshared hb with heq | ⟨hne, -⟩
      · exact heq.symm
      · exact absurd ⟨hobject hne, (hname unit .TEXTURE_2D).mpr ⟨hne, rfl⟩⟩ hkeep
  · rw [ShareGroup.getGlobalName_replaceGlobalName]
    have hagrees := h.agrees u t hb
    split
    · rename_i hreplace
      obtain ⟨hne, htex⟩ := (hname u t).mp hreplace.2
      grind [h.bound, h.target_unique]
    · exact hagrees

theorem Invariant.glTexImage2D {bound : Bound n} (h : ctx.Invariant bound)
    {argumentError : GLenum}
    (hunshared : textureTargetEx target → argumentError = GL_NO_ERROR →
      ctx.DetachesUnshared bound target)
    (hcall : ctx.glTexImage2D target argumentError = .ok ctx') : ctx'.Invariant bound := by
  unfold Context.glTexImage2D at hcall
  split at hcall
  · obtain rfl := Except.ok.inj hcall
    exact h.setGLerror _
  · rename_i htarget
    rw [Bool.not_eq_true, Bool.not_eq_false'] at htarget
    split at hcall
    · obtain rfl := Except.ok.inj hcall
      exact h.setGLerror _
    · rename_i hargument
      have hshared := hunshared htarget (not_not.mp hargument)
      obtain ⟨tex, hget, hrest⟩ := Run.bind_eq_ok.mp hcall
      obtain ⟨unit, hunit, htex⟩ := Run.bind_eq_ok.mp hget
      obtain rfl := Except.ok.inj htex
      rw [unit_eq_ok] at hunit
      obtain ⟨d, hdata, hobject, hne, hclass⟩ := h.getTextureData unit (GLTextureTargetToLocal target)
      have hfound : ctx.getTextureData (textureLocalName (GLTextureTargetToLocal target)
          (ctx.texState unit (GLTextureTargetToLocal target))) = (ctx.shareGroup, some d) := hdata
      simp only [hfound] at hrest
      have hsingle : ∀ d', ctx.shareGroup.getObjectData .TEXTURE
          (ctx.recordedName unit (GLTextureTargetToLocal target)) = some d' → d' = d :=
        fun d' hget' => Option.some.inj (hget'.symm.trans hobject)
      split at hrest
      · rename_i himage
        obtain rfl := Except.ok.inj hrest
        obtain ⟨-, hclass2D, hold⟩ := h.images _ d hobject himage
        rw [hclass] at hclass2D
        have hdetach := hshared unit d hunit
        rw [hclass2D] at hdetach hobject hsingle ⊢
        exact h.detach hunit hold (textureTargetEx_ne htarget) hclass2D fun hb =>
          hdetach hb hobject himage
      · rename_i himage
        obtain rfl := Except.ok.inj hrest
        refine h.extend ⟨rfl, rfl, rfl⟩ (.of_data (fun _ => rfl)
          (fun _ => ShareGroup.getObjectData_setObjectData _ _ _ _ _) (fun d' hget' _ => ?_)
          fun _ hsource => absurd hsource himage)
        rw [hsingle d' hget']
        exact ⟨textureTargetEx_ne htarget, hclass.symm⟩

/-- Wherever else the texture is bound that gets the image, the driver has the image bound already;
and the driver has the texture bound nowhere else, if it is deleted there. -/
def AttachesUnshared (ctx : Context n) (bound : Bound n) (img : EglImage) : Prop :=
  ∀ unit : Fin n, unit.val = ctx.activeTexture →
    ∀ u t, ¬(u = unit ∧ t = .TEXTURE_2D) → bound u t →
      (ctx.recordedName u t = ctx.recordedName unit .TEXTURE_2D →
        ctx.driver.bound u t = img.globalTexName) ∧
      (ctx.hasNoImage (ctx.recordedName unit .TEXTURE_2D) → ctx.driver.bound u t ≠
        ctx.shareGroup.getGlobalName .TEXTURE (ctx.recordedName unit .TEXTURE_2D))

/-- The bound texture gets the name of an image. -/
def attached (ctx : Context n) (unit : Fin n) (img : EglImage) : Context n :=
  { ctx with
    shareGroup := ctx.shareGroup.replaceGlobalName .TEXTURE (ctx.recordedName unit .TEXTURE_2D)
      img.globalTexName
    driver := (if ctx.hasNoImage (ctx.recordedName unit .TEXTURE_2D) then
        ctx.driver.glDeleteTextures
          (ctx.shareGroup.getGlobalName .TEXTURE (ctx.recordedName unit .TEXTURE_2D))
      else ctx.driver).glBindTexture GL_TEXTURE_2D img.globalTexName }

/-- The data of the bound texture is marked with the image. -/
def labelled (ctx : Context n) (name : ObjectLocalName) (img : EglImage)
    (oldGlobal : GLuint) : Except MemoryFault (Context n) :=
  match ctx.getTextureData name with
  | (shareGroup, none) => .ok ({ ctx with shareGroup }.setGLerror GL_INVALID_OPERATION)
  | (shareGroup, some texData) =>
      .ok { ctx with
        shareGroup := shareGroup.setObjectData .TEXTURE name
          { texData with sourceEGLImage := img.imageId, oldGlobal } }

theorem Invariant.attached {bound : Bound n} (h : ctx.Invariant bound) {unit : Fin n}
    (hunit : unit.val = ctx.activeTexture) {img : EglImage}
    (hunshared : ctx.AttachesUnshared bound img) :
    (ctx.attached unit img).Invariant (ctx.marked bound .TEXTURE_2D) := by
  have hmarked : ∀ u t, ¬(u = unit ∧ t = .TEXTURE_2D) → ctx.marked bound .TEXTURE_2D u t = bound u t := by
    grind [marked]
  refine h.rename hunit img.globalTexName.property ?_ (fun u t hb => ?_) (fun _ => ?_)
    fun u t hslot hb => ?_
  · split <;> rfl
  · rw [marked]
    split
    · rfl
    · exact hb
  · rw [ShareGroup.getGlobalName_replaceGlobalName, if_pos]
    exact ⟨ShareGroup.isObject_of_getGlobalName (h.live unit .TEXTURE_2D).global, rfl⟩
  · rw [hmarked u t hslot] at hb
    obtain ⟨himage, hdeleted⟩ := hunshared unit hunit u t hslot hb
    have hdriver : (if ctx.hasNoImage (ctx.recordedName unit .TEXTURE_2D) then
          ctx.driver.glDeleteTextures
            (ctx.shareGroup.getGlobalName .TEXTURE (ctx.recordedName unit .TEXTURE_2D))
        else ctx.driver).bound u t = ctx.driver.bound u t := by
      split
      · rename_i hno
        exact if_neg (hdeleted hno)
      · rfl
    grind [h.agrees]

theorem Invariant.glEGLImageTargetTexture2DOES {bound : Bound n} (h : ctx.Invariant bound)
    {image : Option EglImage}
    (hunshared : textureTargetLimited target → ∀ img, image = some img →
      ctx.AttachesUnshared bound img)
    (hcall : ctx.glEGLImageTargetTexture2DOES target image = .ok ctx') :
    ctx'.Invariant (if textureTargetLimited target ∧ image.isSome then
      ctx.marked bound .TEXTURE_2D else bound) := by
  unfold Context.glEGLImageTargetTexture2DOES at hcall
  split at hcall
  · rename_i htarget
    rw [Bool.not_eq_true'] at htarget
    obtain rfl := Except.ok.inj hcall
    simp [h.setGLerror, htarget]
  · rename_i htarget
    rw [Bool.not_eq_true, Bool.not_eq_false'] at htarget
    have h2D : GLTextureTargetToLocal target = .TEXTURE_2D := by
      rw [of_decide_eq_true htarget]
      decide
    split at hcall
    · grind
    · rename_i img
      rw [if_pos ⟨htarget, rfl⟩]
      obtain ⟨tex, hget, hrest⟩ := Run.bind_eq_ok.mp hcall
      obtain ⟨unit, hunit, htex⟩ := Run.bind_eq_ok.mp hget
      obtain rfl := Except.ok.inj htex
      rw [unit_eq_ok] at hunit
      have hname : textureLocalName (GLTextureTargetToLocal target)
          (ctx.texState unit (GLTextureTargetToLocal target)) = ctx.recordedName unit .TEXTURE_2D := by
        rw [h2D]
        rfl
      rw [hname] at hrest
      obtain ⟨d, hdata, hobject, -, -⟩ := h.getTextureData unit .TEXTURE_2D
      have hrest' : (ctx.attached unit img).labelled (ctx.recordedName unit .TEXTURE_2D) img
          (ctx.shareGroup.getGlobalName .TEXTURE (ctx.recordedName unit .TEXTURE_2D)) =
            .ok ctx' := by
        rw [← hrest]
        dsimp only
        rw [if_pos (h.live unit .TEXTURE_2D).global, hdata, Context.attached, hasNoImage, hdata]
        cases (some d).all fun tData : TextureData => decide (tData.sourceEGLImage = 0) <;> rfl
      have hattached := h.attached hunit (hunshared htarget img rfl)
      obtain ⟨d', hdata', hobject', hne', hclass'⟩ := hattached.getTextureData unit .TEXTURE_2D
      rw [show ctx.recordedName unit .TEXTURE_2D =
        (ctx.attached unit img).recordedName unit .TEXTURE_2D from rfl, labelled, hdata'] at hrest'
      obtain rfl := Except.ok.inj hrest'
      refine hattached.extend ⟨rfl, rfl, rfl⟩ (.of_data (fun _ => rfl)
        (fun _ => ShareGroup.getObjectData_setObjectData _ _ _ _ _) (fun d'' hget'' hne'' => ?_)
        fun _ _ => ⟨hne', hclass', (h.live unit .TEXTURE_2D).global⟩)
      grind

/-! ## The start -/

/-- Both default textures are bound on the first unit. -/
def started (n : Nat) (version : GLESVersion) (gen genCube : GlobalName) : Context n where
  version := version
  activeTexture := 0
  texState := fun _ _ => 0
  shareGroup :=
    ((((ShareGroup.new.genName .TEXTURE (getDefaultTextureName .TEXTURE_2D) gen).setObjectData
      .TEXTURE (getDefaultTextureName .TEXTURE_2D) ⟨0, true, GL_TEXTURE_2D, 0⟩).genName
        .TEXTURE (getDefaultTextureName .TEXTURE_CUBE_MAP) genCube).setObjectData
          .TEXTURE (getDefaultTextureName .TEXTURE_CUBE_MAP) ⟨0, true, GL_TEXTURE_CUBE_MAP, 0⟩)
  driver := ⟨0, fun u t =>
    if u = 0 ∧ t = .TEXTURE_CUBE_MAP then genCube
    else if u = 0 ∧ t = .TEXTURE_2D then gen else 0⟩
  glError := GL_NO_ERROR

theorem initContext_succ (version : GLESVersion) (gen genCube : GlobalName) :
    initContext (n + 1) version gen genCube = .ok (started (n + 1) version gen genCube) := by
  have hstart : initContext (n + 1) version gen genCube =
      .ok { started (n + 1) version gen genCube with
        texState := fun u t =>
          if u = 0 ∧ t = .TEXTURE_CUBE_MAP then 0
          else if u = 0 ∧ t = .TEXTURE_2D then 0 else 0 } := by
    cases version <;> rfl
  simp only [ite_self] at hstart
  exact hstart

theorem initContext_eq {version : GLESVersion} {gen genCube : GlobalName}
    (h : initContext n version gen genCube = .ok ctx) : ctx = started n version gen genCube := by
  cases n with
  | zero => cases version <;> cases h
  | succ n => exact Except.ok.inj (h.symm.trans (initContext_succ version gen genCube))

theorem started_invariant (version : GLESVersion) (gen genCube : GlobalName) :
    (started n version gen genCube).Invariant fun u _ => decide (u.val = 0) := by
  have hname : getDefaultTextureName .TEXTURE_2D ≠ getDefaultTextureName .TEXTURE_CUBE_MAP := by
    decide
  have hglobal : ∀ t, (started n version gen genCube).shareGroup.getGlobalName .TEXTURE
      (getDefaultTextureName t) = (started n version gen genCube).driver.bound 0 t := by
    intro t
    simp only [started, ShareGroup.getGlobalName_setObjectData, ShareGroup.getGlobalName_genName]
    cases t
    · simp [hname]
    · simp
  have hdata : ∀ name d, (started n version gen genCube).shareGroup.getObjectData .TEXTURE name =
      some d → d.sourceEGLImage = 0 := by
    intro name d hget
    simp only [started, ShareGroup.getObjectData_setObjectData, ShareGroup.getObjectData_genName] at hget
    split at hget
    · grind
    · split at hget
      · grind
      · cases hget
  have hlive : ∀ t, Live (started n version gen genCube).shareGroup t (getDefaultTextureName t) := by
    intro t
    refine ⟨?_, ?_⟩
    · rw [hglobal]
      cases t
      · exact gen.property
      · exact genCube.property
    · simp only [started, ShareGroup.getObjectData_setObjectData, ShareGroup.getObjectData_genName]
      cases t
      · exact ⟨_, by rw [if_neg hname, if_pos rfl], by decide, by decide⟩
      · exact ⟨_, by rw [if_pos rfl], by decide, by decide⟩
  refine ⟨rfl, fun u t hb => ?_, fun u t hne => absurd rfl hne, fun _ t => hlive t, hlive,
    fun name d hget hne => absurd (hdata name d hget) hne⟩
  rw [of_decide_eq_true hb]
  exact (hglobal t).symm

end Context

/-! ## Runs -/

inductive TextureCall
  | glActiveTexture (texture : GLenum)
  | glBindTexture (target : GLenum) (texture : GLuint) (gen : GlobalName)
  | glDeleteTextures (count : Int) (textures : List GLuint)
  | glTexImage2D (target argumentError : GLenum)
  | glEGLImageTargetTexture2DOES (target : GLenum) (image : Option EglImage)

def Context.call {n : Nat} (ctx : Context n) : TextureCall → Except MemoryFault (Context n)
  | .glActiveTexture texture => .ok (ctx.glActiveTexture texture)
  | .glBindTexture target texture gen => ctx.glBindTexture target texture gen
  | .glDeleteTextures count textures => ctx.glDeleteTextures count textures
  | .glTexImage2D target argumentError => ctx.glTexImage2D target argumentError
  | .glEGLImageTargetTexture2DOES target image => ctx.glEGLImageTargetTexture2DOES target image

/-- A context, and where it has bound textures that it has not deleted since. -/
structure TextureSystem (n : Nat) where
  ctx : Context n
  bound : Context.Bound n

namespace TextureSystem

variable {n : Nat}

def boundAfter (x : TextureSystem n) : TextureCall → Context.Bound n
  | .glBindTexture target texture gen =>
      if x.ctx.binds target texture gen then
        x.ctx.marked x.bound (GLTextureTargetToLocal target)
      else x.bound
  | .glDeleteTextures count textures =>
      if count < 0 then x.bound else x.ctx.cleared x.bound (textures.take count.toNat)
  | .glEGLImageTargetTexture2DOES target image =>
      if textureTargetLimited target ∧ image.isSome then x.ctx.marked x.bound .TEXTURE_2D
      else x.bound
  | _ => x.bound

def step (x : TextureSystem n) (c : TextureCall) : Except MemoryFault (TextureSystem n) := do
  let ctx ← x.ctx.call c
  return ⟨ctx, x.boundAfter c⟩

/-- A new context, which has bound the default textures on the first unit. -/
def start (n : Nat) (version : GLESVersion) (gen genCube : GlobalName) :
    Except MemoryFault (TextureSystem n) := do
  let ctx ← Context.initContext n version gen genCube
  return ⟨ctx, fun u _ => decide (u.val = 0)⟩

/-- No call takes a texture or its name from a unit that it does not act on. -/
def KeepsBindings (x : TextureSystem n) : TextureCall → Prop
  | .glDeleteTextures count textures =>
      0 ≤ count → x.ctx.DeletesAll x.bound (textures.take count.toNat)
  | .glTexImage2D target argumentError =>
      textureTargetEx target → argumentError = GL_NO_ERROR →
        x.ctx.DetachesUnshared x.bound target
  | .glEGLImageTargetTexture2DOES target image =>
      textureTargetLimited target → ∀ img, image = some img → x.ctx.AttachesUnshared x.bound img
  | _ => True

/-- Wherever a texture was bound that was not deleted since, the driver has the texture bound that
the share group has for what is recorded. Elsewhere the default texture is recorded, and
whatever is recorded is not deleted. -/
structure BindingsAgree (x : TextureSystem n) : Prop where
  agrees : ∀ u t, x.bound u t → x.ctx.driver.bound u t =
    x.ctx.shareGroup.getGlobalName .TEXTURE (Context.textureLocalName t (x.ctx.texState u t))
  unbound : ∀ u t, ¬x.bound u t → x.ctx.texState u t = 0
  recorded : ∀ u t, x.ctx.texState u t ≠ 0 →
    x.ctx.shareGroup.isObject .TEXTURE (x.ctx.texState u t).toUInt64

theorem agree_of_invariant {x : TextureSystem n} (h : x.ctx.Invariant x.bound) :
    x.BindingsAgree := by
  refine ⟨h.agrees, fun u t hb => ?_, fun u t hne => ?_⟩
  · by_contra hne
    exact hb (h.bound u t hne)
  · have hlive := (h.live u t).global
    rw [Context.recordedName, Context.textureLocalName_of_ne hne] at hlive
    exact ShareGroup.isObject_of_getGlobalName hlive

theorem step_invariant {x x' : TextureSystem n} {c : TextureCall} (h : x.ctx.Invariant x.bound)
    (hkeeps : x.KeepsBindings c) (hstep : x.step c = .ok x') : x'.ctx.Invariant x'.bound := by
  obtain ⟨ctx', hcall, hlast⟩ := Run.bind_eq_ok.mp hstep
  obtain rfl := Except.ok.inj hlast
  cases c with
  | glActiveTexture texture =>
      obtain rfl := Except.ok.inj hcall
      exact h.glActiveTexture texture
  | glBindTexture target texture gen => exact h.glBindTexture hcall
  | glDeleteTextures count textures =>
      change x.ctx.glDeleteTextures count textures = .ok ctx' at hcall
      unfold Context.glDeleteTextures at hcall
      dsimp only [boundAfter]
      split at hcall
      · obtain rfl := Except.ok.inj hcall
        grind [h.setGLerror]
      · rename_i hcount
        rw [if_neg hcount]
        exact h.deleteTextures (hkeeps (by omega)) hcall
  | glTexImage2D target argumentError => exact h.glTexImage2D hkeeps hcall
  | glEGLImageTargetTexture2DOES target image =>
      exact h.glEGLImageTargetTexture2DOES hkeeps hcall

/-- In every run of a new context that takes no texture from a unit it does not act on, the driver
has what the context records wherever a texture was bound and not deleted since, and no
deleted texture is recorded. -/
theorem bindings_agree (n : Nat) (version : GLESVersion) (gen genCube : GlobalName)
    (x₀ x : TextureSystem n) (hstart : start n version gen genCube = .ok x₀)
    (h : Run.Reach step KeepsBindings x₀ x) : x.BindingsAgree := by
  obtain ⟨ctx, hinit, hlast⟩ := Run.bind_eq_ok.mp hstart
  obtain rfl := Except.ok.inj hlast
  obtain rfl := Context.initContext_eq hinit
  have hinv : x.ctx.Invariant x.bound :=
    h.invariant (I := fun x => x.ctx.Invariant x.bound)
      (Context.started_invariant version gen genCube)
      fun _ _ _ hinv hkeeps hstep => step_invariant hinv hkeeps hstep
  exact agree_of_invariant hinv

/-! ## Tests of the condition -/

def allSlots (p : Fin n → TextureTarget → Bool) : Bool :=
  (List.finRange n).all fun u => p u .TEXTURE_2D && p u .TEXTURE_CUBE_MAP

theorem allSlots_sound {p : Fin n → TextureTarget → Bool} (h : allSlots p = true) (u : Fin n)
    (t : TextureTarget) : p u t = true := by
  have hu := List.all_eq_true.mp h u (List.mem_finRange u)
  rw [Bool.and_eq_true] at hu
  cases t with
  | TEXTURE_2D => exact hu.1
  | TEXTURE_CUBE_MAP => exact hu.2

def deletesUnsharedTest (ctx : Context n) (bound : Context.Bound n) (texture : GLuint) : Bool :=
  (allSlots fun u t => decide (u.val ≠ ctx.activeTexture → ctx.texState u t ≠ texture)) &&
    allSlots fun u t => decide (bound u t →
      ctx.driver.bound u t = ctx.shareGroup.getGlobalName .TEXTURE texture.toUInt64 →
      ctx.texState u t = texture)

def deletesAllTest (ctx : Context n) (bound : Context.Bound n) : List GLuint → Bool
  | [] => true
  | texture :: textures =>
      deletesUnsharedTest ctx bound texture &&
        match ctx.deleteTexture texture with
        | .ok ctx' => deletesAllTest ctx' (ctx.cleared bound [texture]) textures
        | .error _ => true

theorem deletesAllTest_sound {ctx : Context n} {bound : Context.Bound n} {textures : List GLuint}
    (h : deletesAllTest ctx bound textures = true) : ctx.DeletesAll bound textures := by
  induction textures generalizing ctx bound with
  | nil => trivial
  | cons texture textures ih =>
      rw [deletesAllTest, Bool.and_eq_true] at h
      refine ⟨fun _ => ?_, fun ctx' hcall => ?_⟩
      · rw [deletesUnsharedTest, Bool.and_eq_true] at h
        exact ⟨fun u t => of_decide_eq_true (allSlots_sound h.1.1 u t),
          fun _ u t => of_decide_eq_true (allSlots_sound h.1.2 u t)⟩
      · grind

/-- A test for `KeepsBindings` that knows no images. -/
def keepsBindingsTest (x : TextureSystem n) : TextureCall → Bool
  | .glDeleteTextures count textures =>
      deletesAllTest x.ctx x.bound (textures.take count.toNat)
  | .glTexImage2D target _ => !textureTargetEx target
  | .glEGLImageTargetTexture2DOES target _ => !textureTargetLimited target
  | _ => true

theorem keepsBindingsTest_sound (x : TextureSystem n) (c : TextureCall)
    (h : keepsBindingsTest x c = true) : x.KeepsBindings c := by
  cases c with
  | glDeleteTextures count textures => exact fun _ => deletesAllTest_sound h
  | glTexImage2D target argumentError =>
      intro htarget
      rw [keepsBindingsTest, htarget] at h
      cases h
  | glEGLImageTargetTexture2DOES target image =>
      intro htarget
      rw [keepsBindingsTest, htarget] at h
      cases h
  | _ => trivial

def twoUnits : TextureSystem 2 where
  ctx := Context.started 2 .GLES_V2 ⟨101, by decide⟩ ⟨102, by decide⟩
  bound := fun u _ => decide (u.val = 0)

theorem start_twoUnits : start 2 .GLES_V2 ⟨101, by decide⟩ ⟨102, by decide⟩ = .ok twoUnits := by
  rw [start, Context.initContext_succ]
  rfl

/-- A texture is bound on the second unit, and another one is deleted where it is bound. -/
theorem bindings_agree_deleted :
    ∃ x : TextureSystem 2, x.ctx.texState 1 .TEXTURE_2D = 5 ∧ x.BindingsAgree := by
  have hrun : Run.check step keepsBindingsTest
      (fun x => x.ctx.texState 1 .TEXTURE_2D = 5) twoUnits
      [.glActiveTexture (GL_TEXTURE0 + 1), .glBindTexture GL_TEXTURE_2D 5 ⟨103, by decide⟩,
        .glActiveTexture GL_TEXTURE0, .glBindTexture GL_TEXTURE_2D 6 ⟨104, by decide⟩,
        .glDeleteTextures 1 [6]] = true := by
    decide +kernel
  obtain ⟨x, hreach, htest⟩ := Run.exists_reach_of_check keepsBindingsTest_sound hrun
  exact ⟨x, of_decide_eq_true htest,
    bindings_agree 2 .GLES_V2 ⟨101, by decide⟩ ⟨102, by decide⟩ twoUnits x start_twoUnits hreach⟩

/-- A texture that is bound on the second unit is deleted while the first one is active, and the
cube map target of the second unit was never bound. -/
theorem deletedTexture_not_agrees :
    ∃ x₀ x : TextureSystem 2, start 2 .GLES_V2 ⟨101, by decide⟩ ⟨102, by decide⟩ = .ok x₀ ∧
      Run.Reach step (fun _ _ => True) x₀ x ∧
      (¬∀ (u : Fin 2) t, x.ctx.driver.bound u t =
        x.ctx.shareGroup.getGlobalName .TEXTURE (Context.textureLocalName t (x.ctx.texState u t))) ∧
      ¬∀ u t, x.ctx.texState u t ≠ 0 →
        x.ctx.shareGroup.isObject .TEXTURE (x.ctx.texState u t).toUInt64 := by
  have hrun : Run.check step (fun _ _ => true)
      (fun x =>
        decide (x.ctx.driver.bound 1 .TEXTURE_CUBE_MAP ≠
          x.ctx.shareGroup.getGlobalName .TEXTURE
            (Context.textureLocalName .TEXTURE_CUBE_MAP (x.ctx.texState 1 .TEXTURE_CUBE_MAP))) &&
        decide (x.ctx.texState 1 .TEXTURE_2D ≠ 0) &&
        !x.ctx.shareGroup.isObject .TEXTURE (x.ctx.texState 1 .TEXTURE_2D).toUInt64) twoUnits
      [.glActiveTexture (GL_TEXTURE0 + 1), .glBindTexture GL_TEXTURE_2D 5 ⟨103, by decide⟩,
        .glActiveTexture GL_TEXTURE0, .glDeleteTextures 1 [5]] = true := by
    decide +kernel
  obtain ⟨x, hreach, htest⟩ := Run.exists_reach_of_check (fun _ _ _ => trivial) hrun
  rw [Bool.and_eq_true, Bool.and_eq_true, decide_eq_true_eq, decide_eq_true_eq,
    Bool.not_eq_true'] at htest
  refine ⟨twoUnits, x, start_twoUnits, hreach, fun h => htest.1.1 (h 1 _), fun h => ?_⟩
  have hobject := h 1 .TEXTURE_2D htest.1.2
  rw [htest.2] at hobject
  cases hobject

end TextureSystem

end AndroidRenderer.Translator
