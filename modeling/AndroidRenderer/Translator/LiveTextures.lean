import AndroidRenderer.Lib.Run
import AndroidRenderer.Translator.Textures

/-!
# Textures in use

A texture is live when it has a name of the driver's and was bound to a target. Finding the
texture of a binding makes it live and leaves all others as they are.
-/

namespace AndroidRenderer.Translator

/-! ## Names -/

theorem toUInt64_ne_default (tex : GLuint) (t : TextureTarget) :
    tex.toUInt64 ≠ Context.getDefaultTextureName t := by
  intro heq
  have hlt := tex.toNat_lt
  have hnat := congrArg UInt64.toNat heq
  rw [UInt32.toNat_toUInt64] at hnat
  cases t
  · rw [show (Context.getDefaultTextureName .TEXTURE_2D).toNat = 4294967296 from rfl] at hnat
    omega
  · rw [show (Context.getDefaultTextureName .TEXTURE_CUBE_MAP).toNat = 4294967297 from rfl] at hnat
    omega

namespace Context

theorem textureLocalName_of_ne {tex : GLuint} (h : tex ≠ 0) (t : TextureTarget) :
    textureLocalName t tex = tex.toUInt64 :=
  if_pos h

theorem textureLocalName_eq_toUInt64 {t : TextureTarget} {tex texture : GLuint} (h : texture ≠ 0) :
    textureLocalName t tex = texture.toUInt64 ↔ tex = texture := by
  unfold textureLocalName
  split
  · constructor
    · intro heq
      have hnat := congrArg UInt64.toNat heq
      rw [UInt32.toNat_toUInt64, UInt32.toNat_toUInt64] at hnat
      exact UInt32.toNat_inj.mp hnat
    · rintro rfl
      rfl
  · rename_i hzero
    rw [not_not] at hzero
    refine ⟨fun heq => absurd heq.symm (toUInt64_ne_default texture t), ?_⟩
    grind

variable {n : Nat} {ctx : Context n}

theorem unit_eq_ok {unit : Fin n} : ctx.unit = .ok unit ↔ unit.val = ctx.activeTexture := by
  unfold Context.unit
  grind

theorem getTextureData_spec {name : ObjectLocalName} {g : ShareGroup TextureData}
    {d : TextureData} (h : ctx.getTextureData name = (g, some d)) :
    (∀ name', g.getGlobalName .TEXTURE name' = ctx.shareGroup.getGlobalName .TEXTURE name') ∧
    (∀ name', g.getObjectData .TEXTURE name' =
      if name' = name then some d else ctx.shareGroup.getObjectData .TEXTURE name') ∧
    (ctx.shareGroup.getObjectData .TEXTURE name = some d ∨
      ctx.shareGroup.getObjectData .TEXTURE name = none ∧ d = .new) := by
  unfold getTextureData at h
  split at h
  · cases h
  · split at h
    · grind
    · rename_i hnone
      obtain ⟨rfl, hd⟩ := Prod.mk.inj h
      obtain rfl := Option.some.inj hd
      exact ⟨fun _ => rfl, fun name' => ShareGroup.getObjectData_setObjectData _ _ _ _ _,
        .inr ⟨hnone, rfl⟩⟩

end Context

/-! ## Textures in use -/

structure Live (g : ShareGroup TextureData) (t : TextureTarget) (name : ObjectLocalName) :
    Prop where
  global : g.getGlobalName .TEXTURE name ≠ 0
  data : ∃ d, g.getObjectData .TEXTURE name = some d ∧ d.target ≠ 0 ∧
    GLTextureTargetToLocal d.target = t

/-- A texture with an image is one of the 2D target, and its former name is known. -/
def ImagesLive (g : ShareGroup TextureData) : Prop :=
  ∀ name d, g.getObjectData .TEXTURE name = some d → d.sourceEGLImage ≠ 0 →
    d.target ≠ 0 ∧ GLTextureTargetToLocal d.target = .TEXTURE_2D ∧ d.oldGlobal ≠ 0

theorem Live.getTextureData {n : Nat} {ctx : Context n} {t : TextureTarget} {name : ObjectLocalName}
    (h : Live ctx.shareGroup t name) :
    ∃ d, ctx.getTextureData name = (ctx.shareGroup, some d) ∧
      ctx.shareGroup.getObjectData .TEXTURE name = some d ∧ d.target ≠ 0 ∧
      GLTextureTargetToLocal d.target = t := by
  obtain ⟨d, hget, htarget⟩ := h.data
  grind [Context.getTextureData, ShareGroup.isObject_of_getGlobalName, h.global]

/-- What a call leaves of the textures that are in use. -/
structure Extends (g g' : ShareGroup TextureData) : Prop where
  global : ∀ name, g.getGlobalName .TEXTURE name ≠ 0 →
    g'.getGlobalName .TEXTURE name = g.getGlobalName .TEXTURE name
  data : ∀ name d, g.getObjectData .TEXTURE name = some d → d.target ≠ 0 →
    ∃ d', g'.getObjectData .TEXTURE name = some d' ∧ d'.target ≠ 0 ∧
      GLTextureTargetToLocal d'.target = GLTextureTargetToLocal d.target
  images : ImagesLive g → ImagesLive g'

namespace Extends

variable {g g' g'' : ShareGroup TextureData}

theorem refl (g : ShareGroup TextureData) : Extends g g :=
  ⟨fun _ _ => rfl, fun _ d hget hne => ⟨d, hget, hne, rfl⟩, id⟩

theorem trans (h : Extends g g') (h' : Extends g' g'') : Extends g g'' := by
  refine ⟨fun name hne => ?_, fun name d hget hne => ?_, fun hi => h'.images (h.images hi)⟩
  · grind [h'.global, h.global]
  · grind [h.data, h'.data]

theorem live (h : Extends g g') {t : TextureTarget} {name : ObjectLocalName}
    (hlive : Live g t name) : Live g' t name := by
  obtain ⟨d, hget, hne, rfl⟩ := hlive.data
  obtain ⟨d', hget', hne', hclass⟩ := h.data name d hget hne
  exact ⟨by rw [h.global name hlive.global]; exact hlive.global, d', hget', hne', hclass⟩

theorem genName {name : ObjectLocalName} (hzero : g.getGlobalName .TEXTURE name = 0)
    (global : GLuint) : Extends g (g.genName .TEXTURE name global) := by
  refine ⟨fun name' hne => ?_, fun _ d hget hne => ⟨d, hget, hne, rfl⟩, id⟩
  grind

theorem of_data {name : ObjectLocalName} {d' : TextureData}
    (hglobal : ∀ name', g'.getGlobalName .TEXTURE name' = g.getGlobalName .TEXTURE name')
    (hdata : ∀ name', g'.getObjectData .TEXTURE name' =
      if name' = name then some d' else g.getObjectData .TEXTURE name')
    (htarget : ∀ d, g.getObjectData .TEXTURE name = some d → d.target ≠ 0 → d'.target ≠ 0 ∧
      GLTextureTargetToLocal d'.target = GLTextureTargetToLocal d.target)
    (himage : ImagesLive g → d'.sourceEGLImage ≠ 0 →
      d'.target ≠ 0 ∧ GLTextureTargetToLocal d'.target = .TEXTURE_2D ∧ d'.oldGlobal ≠ 0) :
    Extends g g' := by
  refine ⟨fun name' _ => hglobal name', fun name' d hget hne => ?_, fun hi name' d hget hne => ?_⟩
  · grind
  · rw [hdata] at hget
    split at hget
    · grind
    · exact hi name' d hget hne

end Extends

namespace Context

variable {n : Nat} {ctx ctx' : Context n}

/-- Finding a texture changes nothing but the share group and the error. -/
structure SameBindings (ctx ctx' : Context n) : Prop where
  activeTexture : ctx'.activeTexture = ctx.activeTexture
  texState : ctx'.texState = ctx.texState
  driver : ctx'.driver = ctx.driver

/-- The texture that is found is in use, and all others stay in use. -/
theorem textureToBind_spec {target : GLenum} {texture : GLuint} {gen : GlobalName}
    {global : Option GLuint} (htarget : textureTarget target = true)
    (h : ctx.textureToBind target texture gen = .ok (ctx', global)) :
    SameBindings ctx ctx' ∧ Extends ctx.shareGroup ctx'.shareGroup ∧
    ∀ g, global = some g →
      g = ctx'.shareGroup.getGlobalName .TEXTURE
        (textureLocalName (GLTextureTargetToLocal target) texture) ∧
      Live ctx'.shareGroup (GLTextureTargetToLocal target)
        (textureLocalName (GLTextureTargetToLocal target) texture) := by
  have htarget_ne : target ≠ 0 := by
    rintro rfl
    revert htarget
    decide
  generalize hname : textureLocalName (GLTextureTargetToLocal target) texture = name at *
  unfold textureToBind at h
  rw [hname] at h
  obtain ⟨ctx₁, hctx₁⟩ : ∃ ctx₁ : Context n, (if ctx.shareGroup.getGlobalName .TEXTURE name = 0 then
      { ctx with shareGroup := ctx.shareGroup.genName .TEXTURE name gen }
    else ctx) = ctx₁ := ⟨_, rfl⟩
  have hsame : SameBindings ctx ctx₁ := by
    rw [← hctx₁]
    split <;> exact ⟨rfl, rfl, rfl⟩
  have hext : Extends ctx.shareGroup ctx₁.shareGroup := by
    rw [← hctx₁]
    split
    · rename_i hzero
      exact .genName hzero gen
    · exact .refl _
  have hglobal : ctx₁.shareGroup.getGlobalName .TEXTURE name ≠ 0 := by
    grind
  dsimp only at h
  rw [hctx₁] at h
  split at h
  · cases h
  · rename_i g₂ d hdata
    obtain ⟨hglobal₂, hdata₂, hfound⟩ := getTextureData_spec hdata
    have hold : ∀ d', ctx₁.shareGroup.getObjectData .TEXTURE name = some d' → d' = d := by grind
    have himage : ImagesLive ctx₁.shareGroup → d.sourceEGLImage ≠ 0 →
        d.target ≠ 0 ∧ GLTextureTargetToLocal d.target = .TEXTURE_2D ∧ d.oldGlobal ≠ 0 := by
      intro hi hne
      rcases hfound with hsome | ⟨-, rfl⟩
      · exact hi name d hsome hne
      · exact absurd rfl hne
    obtain ⟨d₁, hd₁⟩ : ∃ d₁, (if d.target = 0 then { d with target } else d) = d₁ := ⟨_, rfl⟩
    have htarget₁ : d₁.target ≠ 0 := by grind
    have hkeep : d.target ≠ 0 → d₁ = d := fun hne => by rw [← hd₁, if_neg hne]
    have hsource : d₁.sourceEGLImage = d.sourceEGLImage := by
      rw [← hd₁]
      split <;> rfl
    rw [hd₁] at h
    split at h
    · obtain ⟨rfl, rfl⟩ := Prod.mk.inj (Except.ok.inj h)
      refine ⟨⟨hsame.1, hsame.2, hsame.3⟩, hext.trans ?_, fun g hg => by cases hg⟩
      refine .of_data hglobal₂ hdata₂ (fun d' hget hne => ?_) himage
      rw [hold d' hget] at hne ⊢
      exact ⟨hne, rfl⟩
    · rename_i hclass
      rw [not_not] at hclass
      obtain ⟨rfl, rfl⟩ := Prod.mk.inj (Except.ok.inj h)
      have hdata₃ : ∀ name', (g₂.setObjectData .TEXTURE name
          { d₁ with wasBound := true }).getObjectData .TEXTURE name' =
            if name' = name then some { d₁ with wasBound := true }
            else ctx₁.shareGroup.getObjectData .TEXTURE name' := by
        grind
      refine ⟨⟨hsame.1, hsame.2, hsame.3⟩, hext.trans (.of_data hglobal₂ hdata₃ ?_ ?_), ?_⟩
      · grind
      · grind
      · intro g hg
        obtain rfl := Option.some.inj hg
        refine ⟨(hglobal₂ name).symm, ?_, _, (hdata₃ name).trans (if_pos rfl), htarget₁, hclass⟩
        rw [ShareGroup.getGlobalName_setObjectData, hglobal₂]
        exact hglobal

end Context

end AndroidRenderer.Translator
