import AndroidRenderer.Lib.Run
import AndroidRenderer.OpenglCodecCommon.TextureState

/-!
# The texture array

The array stays sorted, the search finds exactly the names in it, and each bound texture
has its record, on every run on which no two names in the array are 2^31 or more apart:
the comparator tells the order of two names from their difference as a signed number.
-/

namespace AndroidRenderer

open SortedArray

/-! ## The comparator -/

/-- The names are less than 2^31 apart. -/
def Near (a b : GLuint) : Prop := a.toNat < b.toNat + 2 ^ 31 ∧ b.toNat < a.toNat + 2 ^ 31

theorem Near.symm {a b : GLuint} (h : Near a b) : Near b a := ⟨h.2, h.1⟩

instance (a b : GLuint) : Decidable (Near a b) := inferInstanceAs (Decidable (_ ∧ _))

namespace TextureState

variable {rec : TextureRec} {s : TextureState} {texture : GLuint}

theorem compareTexId_eq_zero {id : GLuint} :
    compareTexId id rec = 0 ↔ rec.id = id := by
  have hid := id.toNat_lt
  have hrec := rec.id.toNat_lt
  rw [← UInt32.toNat_inj]
  simp only [compareTexId, GLint, Int.bmod_def]
  omega

theorem compareTexId_nonpos {id : GLuint} (h : Near id rec.id) :
    compareTexId id rec ≤ 0 ↔ id.toNat ≤ rec.id.toNat := by
  have hid := id.toNat_lt
  have hrec := rec.id.toNat_lt
  obtain ⟨hlt, hgt⟩ := h
  simp only [compareTexId, GLint, Int.bmod_def]
  omega

/-- The order of the array. -/
abbrev Sorted (s : TextureState) : Prop := Strict (fun rec => rec.id.toNat) s.textures

theorem findTexture_some {id : GLuint} {i : Nat}
    (h : s.findTexture id = some i) : ∃ rec, s.textures[i]? = some rec ∧ rec.id = id := by
  obtain ⟨j, rec, rfl, hget, hzero⟩ := bsearch_sound h
  grind [compareTexId_eq_zero]

/-- The search finds every name of an array whose names are near the one that is looked
for. -/
theorem findTexture_of_mem (hsorted : s.Sorted)
    (hmem : rec ∈ s.textures) (hnear : ∀ r ∈ s.textures, Near rec.id r.id) :
    ∃ i, s.findTexture rec.id = some i ∧ s.textures[i]? = some rec := by
  obtain ⟨i, hget⟩ := List.mem_iff_getElem?.mp hmem
  refine ⟨i, ?_, hget⟩
  rw [findTexture, bsearch_complete ?_ le_rfl hget (compareTexId_eq_zero.mpr rfl), Nat.zero_add]
  refine hsorted.imp_of_mem fun {a b} ha hb hlt hle => ?_
  have hle' := (compareTexId_nonpos (hnear a ha)).mp hle
  have hne : compareTexId rec.id b ≠ 0 := by
    rw [Ne, compareTexId_eq_zero]
    grind
  grind [compareTexId_nonpos]

/-- The array is sorted, the search finds exactly the names in it, and every texture bound
to a target has a record with this target. -/
structure Consistent (s : TextureState) : Prop where
  sorted : s.Sorted
  found : ∀ id, (s.findTexture id).isSome ↔ ∃ rec ∈ s.textures, rec.id = id
  bound : ∀ u t, (s.unit u).texture t ≠ 0 →
    ∃ rec ∈ s.textures, rec.id = (s.unit u).texture t ∧ rec.target = t.toGLenum

/-- What the calls keep: the names of the array are near each other. -/
structure Invariant (s : TextureState) : Prop where
  sorted : s.Sorted
  near : ∀ a ∈ s.textures, ∀ b ∈ s.textures, Near a.id b.id
  bound : ∀ u t, (s.unit u).texture t ≠ 0 →
    ∃ rec ∈ s.textures, rec.id = (s.unit u).texture t ∧ rec.target = t.toGLenum

theorem Invariant.findTexture_isSome (h : s.Invariant) (id : GLuint) :
    (s.findTexture id).isSome ↔ ∃ rec ∈ s.textures, rec.id = id := by
  rw [Option.isSome_iff_exists]
  grind [findTexture_some, findTexture_of_mem, h.sorted, h.near]

theorem Invariant.consistent (h : s.Invariant) : s.Consistent :=
  ⟨h.sorted, h.findTexture_isSome, h.bound⟩

/-! ## The calls -/

/-- A call of the texture functions of a context. -/
inductive Call
  | setActiveTextureUnit (texture : GLenum)
  | enableTextureTarget (target : GLenum)
  | disableTextureTarget (target : GLenum)
  | bindTexture (target : GLenum) (texture : GLuint) (memory : Bool)
  | deleteTextures (textures : List GLuint)
  deriving DecidableEq

def call (s : TextureState) : Call → TextureState
  | .setActiveTextureUnit texture => (s.setActiveTextureUnit texture).1
  | .enableTextureTarget target => s.enableTextureTarget target
  | .disableTextureTarget target => s.disableTextureTarget target
  | .bindTexture target texture memory => (s.bindTexture target texture memory).1
  | .deleteTextures textures => s.deleteTextures textures

/-- The call binds no texture whose name is 2^31 or more away from a name in the array. -/
def KeepsNear (s : TextureState) : Call → Prop
  | .bindTexture _ texture _ => texture ≠ 0 → ∀ rec ∈ s.textures, Near texture rec.id
  | _ => True

/-- Nothing but the switch between units and targets has changed. -/
theorem Invariant.of_texture {s' : TextureState} (h : s.Invariant)
    (htextures : s'.textures = s.textures)
    (hunit : ∀ u t, (s'.unit u).texture t = (s.unit u).texture t) : s'.Invariant := by
  refine ⟨by rw [Sorted, htextures]; exact h.sorted, by rw [htextures]; exact h.near,
    fun u t hne => ?_⟩
  grind [h.bound]

theorem setActiveTextureUnit_textures (s : TextureState) (texture : GLenum) :
    (s.setActiveTextureUnit texture).1.textures = s.textures := by
  unfold setActiveTextureUnit
  split <;> rfl

theorem setActiveTextureUnit_unit (s : TextureState) (texture : GLenum) :
    (s.setActiveTextureUnit texture).1.unit = s.unit := by
  unfold setActiveTextureUnit
  split <;> rfl

@[grind =] theorem setActive_unit (s : TextureState) (u : TextureUnit) (i : Fin MAX_TEXTURE_UNITS) :
    (s.setActive u).unit i = if i = s.activeUnit then u else s.unit i :=
  Function.update_apply s.unit s.activeUnit u i

@[simp] theorem active_setActive (s : TextureState) (u : TextureUnit) :
    (s.setActive u).active = u := by
  rw [active, setActive_unit]
  exact if_pos rfl

@[simp] theorem setActive_setActive (s : TextureState) (u v : TextureUnit) :
    (s.setActive u).setActive v = s.setActive v := by
  simp [setActive]

@[simp] theorem getPriorityEnabledTarget_setActive (s : TextureState) (u : TextureUnit)
    (allDisabled : GLenum) :
    (s.setActive u).getPriorityEnabledTarget allDisabled = u.priorityEnabledTarget allDisabled := by
  rw [getPriorityEnabledTarget, active_setActive]

@[simp] theorem getBoundTexture_setActive (s : TextureState) (u : TextureUnit) :
    (s.setActive u).getBoundTexture = u.boundTexture := by
  funext target
  rw [getBoundTexture, active_setActive]

theorem enableTextureTarget_toGLenum (s : TextureState) (t : TextureTarget) :
    s.enableTextureTarget t.toGLenum = s.setActive (s.active.setEnabled t true) := by
  rw [enableTextureTarget, TextureTarget.ofGLenum_toGLenum]

theorem disableTextureTarget_toGLenum (s : TextureState) (t : TextureTarget) :
    s.disableTextureTarget t.toGLenum = s.setActive (s.active.setEnabled t false) := by
  rw [disableTextureTarget, TextureTarget.ofGLenum_toGLenum]

theorem setEnabled_invariant (h : s.Invariant) (t : TextureTarget)
    (enabled : Bool) : (s.setActive (s.active.setEnabled t enabled)).Invariant := by
  refine h.of_texture rfl fun u t' => ?_
  rw [setActive_unit]
  split
  · rename_i heq
    rw [heq]
    rfl
  · rfl

theorem Invariant.bindActive (h : s.Invariant) {target : GLenum}
    (hrec : texture ≠ 0 → ∃ rec ∈ s.textures, rec.id = texture ∧ rec.target = target) :
    (s.bindActive target texture).Invariant := by
  unfold TextureState.bindActive
  split
  · rename_i t ht
    obtain rfl := TextureTarget.ofGLenum_eq_some ht
    refine ⟨h.sorted, h.near, fun u t' hne => ?_⟩
    rw [setActive_unit] at hne ⊢
    change ∃ rec ∈ s.textures, _
    split
    · rename_i hu
      rw [if_pos hu] at hne
      simp only [TextureUnit.bind, Function.update_apply] at hne ⊢
      split
      · grind
      · rename_i ht'
        rw [if_neg ht'] at hne
        exact h.bound s.activeUnit t' hne
    · grind [h.bound]
  · exact h

/-- A record for a new name, near the names of the array. -/
theorem Invariant.addTextureRec {s' : TextureState} {id : GLuint} {target : GLenum}
    {memory : Bool} (h : s.Invariant)
    (hnear : ∀ r ∈ s.textures, Near id r.id) (hnew : ∀ r ∈ s.textures, r.id ≠ id)
    (hadd : s.addTextureRec id target memory = some (s', rec)) :
    s'.Invariant ∧ rec ∈ s'.textures ∧ rec = ⟨id, target⟩ := by
  obtain ⟨alloc, -, heq⟩ := Option.map_eq_some_iff.mp hadd
  obtain ⟨rfl, rfl⟩ := Prod.mk.inj heq
  have hself : Near id id := ⟨by omega, by omega⟩
  refine ⟨⟨?_, fun a ha b hb => ?_, fun u t hne => ?_⟩, mem_insertBack.mpr (.inl rfl), rfl⟩
  · exact h.sorted.insertBack fun r hr heq => hnew r hr (UInt32.toNat_inj.mp heq)
  · rcases mem_insertBack.mp ha with rfl | ha <;> rcases mem_insertBack.mp hb with rfl | hb
    · exact hself
    · exact hnear b hb
    · exact (hnear a ha).symm
    · exact h.near a ha b hb
  · grind [mem_insertBack, h.bound]

theorem Invariant.bindTexture (h : s.Invariant) {target : GLenum} {memory : Bool}
    (hnear : texture ≠ 0 → ∀ rec ∈ s.textures, Near texture rec.id) :
    (s.bindTexture target texture memory).1.Invariant := by
  unfold TextureState.bindTexture
  split
  · grind [h.bindActive]
  · rename_i hne
    split
    · rename_i rec hfind
      obtain ⟨i, hi, hget⟩ := Option.bind_eq_some_iff.mp hfind
      obtain ⟨rec', hget', hid⟩ := findTexture_some hi
      obtain rfl := Option.some.inj (hget.symm.trans hget')
      grind [h.bindActive]
    · rename_i hfind
      have hnew : ∀ r ∈ s.textures, r.id ≠ texture := by grind [findTexture_of_mem, h.sorted]
      split
      · exact h
      · rename_i s' rec hadd
        obtain ⟨h', hmem, rfl⟩ := h.addTextureRec (hnear hne) hnew hadd
        grind [h'.bindActive]

/-- An error leaves the state as it was; else the texture is bound, in a state that differs
from this one in the array only. -/
theorem bindTexture_cases (s : TextureState) (target : GLenum) (texture : GLuint) (memory : Bool) :
    ((s.bindTexture target texture memory).2.1 ≠ GL_NO_ERROR ∧
      (s.bindTexture target texture memory).1 = s) ∨
    ((s.bindTexture target texture memory).2.1 = GL_NO_ERROR ∧
      ∃ s' : TextureState, s'.unit = s.unit ∧ s'.activeUnit = s.activeUnit ∧
        (s.bindTexture target texture memory).1 = s'.bindActive target texture) := by
  have hoperation : GL_INVALID_OPERATION ≠ GL_NO_ERROR := by decide
  have hmemory : GL_OUT_OF_MEMORY ≠ GL_NO_ERROR := by decide
  unfold bindTexture
  split
  · exact .inr ⟨rfl, s, rfl, rfl, rfl⟩
  · split
    · grind
    · split
      · exact .inl ⟨hmemory, rfl⟩
      · rename_i s' rec hadd
        obtain ⟨alloc, -, heq⟩ := Option.map_eq_some_iff.mp hadd
        grind

/-! ## Deletion -/

/-- A unit without the texture, if it was bound to one target at most. -/
theorem unbind_texture {u : TextureUnit}
    (honce : u.texture .TEXTURE_2D = texture → u.texture .TEXTURE_EXTERNAL ≠ texture)
    (t : TextureTarget) :
    (u.unbind texture).texture t = if u.texture t = texture then 0 else u.texture t := by
  unfold TextureUnit.unbind
  split
  · rename_i h2d
    cases t with
    | TEXTURE_2D => simp [TextureUnit.bind, h2d]
    | TEXTURE_EXTERNAL => simp [TextureUnit.bind, honce h2d]
  · rename_i h2d
    split
    · rename_i hext
      cases t with
      | TEXTURE_2D => simp [TextureUnit.bind, h2d]
      | TEXTURE_EXTERNAL => simp [TextureUnit.bind, hext]
    · rename_i hext
      cases t with
      | TEXTURE_2D => simp [h2d]
      | TEXTURE_EXTERNAL => simp [hext]

theorem Invariant.target_unique (h : s.Invariant) {u u' : Fin MAX_TEXTURE_UNITS}
    {t t' : TextureTarget} (hne : (s.unit u).texture t ≠ 0)
    (heq : (s.unit u').texture t' = (s.unit u).texture t) : t' = t := by
  obtain ⟨r, hr, hid, htarget⟩ := h.bound u t hne
  obtain ⟨r', hr', hid', htarget'⟩ := h.bound u' t' (by rwa [heq])
  have hsame : r' = r :=
    h.sorted.eq_of_key_eq hr' hr (by simp only [hid', hid, heq])
  rw [hsame, htarget] at htarget'
  cases t <;> cases t' <;> first | rfl | exact absurd htarget' (by decide)

theorem Invariant.deleteTexture_unit (h : s.Invariant)
    (u : Fin MAX_TEXTURE_UNITS) (t : TextureTarget) :
    ((s.deleteTexture texture).unit u).texture t =
      if (s.unit u).texture t = texture then 0 else (s.unit u).texture t := by
  unfold TextureState.deleteTexture
  split
  · rename_i i hfind
    by_cases hzero : texture = 0
    · subst hzero
      unfold TextureUnit.unbind
      cases t <;> simp only [TextureUnit.bind] <;> split_ifs <;> simp_all
    · grind [unbind_texture, h.target_unique]
  · rename_i hfind
    split
    · rename_i heq
      by_contra hne
      obtain ⟨r, hr, hid, -⟩ := h.bound u t hne
      have := (h.findTexture_isSome texture).mpr ⟨r, hr, hid.trans heq⟩
      grind
    · rfl

theorem Invariant.mem_deleteTexture (h : s.Invariant) :
    rec ∈ (s.deleteTexture texture).textures ↔ rec ∈ s.textures ∧ rec.id ≠ texture := by
  unfold TextureState.deleteTexture
  split
  · rename_i i hfind
    obtain ⟨r, hget, rfl⟩ := findTexture_some hfind
    rw [h.sorted.mem_eraseIdx hget]
    simp only [ne_eq, UInt32.toNat_inj]
  · rename_i hfind
    refine ⟨fun hmem => ⟨hmem, fun heq => ?_⟩, And.left⟩
    have := (h.findTexture_isSome texture).mpr ⟨rec, hmem, heq⟩
    grind

theorem Invariant.deleteTexture (h : s.Invariant) (texture : GLuint) :
    (s.deleteTexture texture).Invariant := by
  refine ⟨?_, fun a ha b hb => ?_, fun u t hne => ?_⟩
  · grind [TextureState.deleteTexture, h.sorted.eraseIdx, h.sorted]
  · exact h.near a (h.mem_deleteTexture.mp ha).1 b (h.mem_deleteTexture.mp hb).1
  · grind [h.deleteTexture_unit, h.bound, h.mem_deleteTexture]

theorem Invariant.deleteTextures (h : s.Invariant) (textures : List GLuint) :
    (s.deleteTextures textures).Invariant := by
  induction textures generalizing s with
  | nil => exact h
  | cons texture textures ih => exact ih (h.deleteTexture texture)

theorem Invariant.deleteTextures_spec (h : s.Invariant)
    (textures : List GLuint) :
    (∀ u t, ((s.deleteTextures textures).unit u).texture t =
      if (s.unit u).texture t ∈ textures then 0 else (s.unit u).texture t) ∧
    ∀ rec, rec ∈ (s.deleteTextures textures).textures ↔
      rec ∈ s.textures ∧ rec.id ∉ textures := by
  induction textures generalizing s with
  | nil => exact ⟨fun u t => by simp [TextureState.deleteTextures],
      fun rec => by simp [TextureState.deleteTextures]⟩
  | cons texture textures ih =>
      obtain ⟨hunit, hmem⟩ := ih (h.deleteTexture texture)
      refine ⟨fun u t => ?_, fun rec => ?_⟩
      · refine (hunit u t).trans ?_
        rw [h.deleteTexture_unit]
        by_cases heq : (s.unit u).texture t = texture
        · simp [heq]
        · simp [heq]
      · refine (hmem rec).trans ?_
        rw [h.mem_deleteTexture, List.mem_cons, not_or, and_assoc]

@[simp] theorem unbind_enables (u : TextureUnit) (texture : GLuint) :
    (u.unbind texture).enables = u.enables := by
  unfold TextureUnit.unbind
  split_ifs <;> rfl

@[simp] theorem deleteTexture_enables (s : TextureState) (texture : GLuint)
    (u : Fin MAX_TEXTURE_UNITS) :
    ((s.deleteTexture texture).unit u).enables = (s.unit u).enables := by
  unfold deleteTexture
  split
  · exact unbind_enables _ _
  · rfl

@[simp] theorem deleteTextures_enables (s : TextureState) (textures : List GLuint)
    (u : Fin MAX_TEXTURE_UNITS) :
    ((s.deleteTextures textures).unit u).enables = (s.unit u).enables := by
  induction textures generalizing s with
  | nil => rfl
  | cons texture textures ih => exact (ih _).trans (s.deleteTexture_enables texture u)

@[simp] theorem deleteTextures_activeUnit (s : TextureState) (textures : List GLuint) :
    (s.deleteTextures textures).activeUnit = s.activeUnit := by
  induction textures generalizing s with
  | nil => rfl
  | cons texture textures ih =>
      refine (ih _).trans ?_
      unfold deleteTexture
      split <;> rfl

/-! ## Runs -/

theorem Invariant.call (h : s.Invariant) {c : Call} (hnear : s.KeepsNear c) :
    (s.call c).Invariant := by
  cases c with
  | setActiveTextureUnit texture =>
      exact h.of_texture (s.setActiveTextureUnit_textures texture)
        fun u t => by rw [TextureState.call, setActiveTextureUnit_unit]
  | enableTextureTarget target =>
      grind [TextureState.call, enableTextureTarget, setEnabled_invariant]
  | disableTextureTarget target =>
      grind [TextureState.call, disableTextureTarget, setEnabled_invariant]
  | bindTexture target texture memory => exact h.bindTexture hnear
  | deleteTextures textures => exact h.deleteTextures textures

theorem invariant_init : init.Invariant :=
  ⟨List.Pairwise.nil, (fun _ ha => nomatch ha), fun _ _ hne => absurd rfl hne⟩

/-- On every run that keeps the names of the array near each other, the texture state is
consistent, a deleted name is bound nowhere and has no record, and an error of
`bindTexture` changes nothing. -/
theorem textureTable_consistent (s : TextureState)
    (h : Run.Reach (Run.total call) KeepsNear init s) :
    s.Consistent ∧
    (∀ textures, ∀ texture ∈ textures, texture ≠ 0 →
      (∀ u t, ((s.deleteTextures textures).unit u).texture t ≠ texture) ∧
      ∀ rec ∈ (s.deleteTextures textures).textures, rec.id ≠ texture) ∧
    ∀ target texture memory, (s.bindTexture target texture memory).2.1 ≠ GL_NO_ERROR →
      (s.bindTexture target texture memory).1 = s := by
  have hinv : s.Invariant := h.invariant_total invariant_init fun t c hinv hnear => hinv.call hnear
  refine ⟨hinv.consistent, fun textures texture hmem hne => ?_,
    fun target texture memory herr => ?_⟩
  · obtain ⟨hunit, hrec⟩ := hinv.deleteTextures_spec textures
    refine ⟨fun u t heq => ?_, fun rec hr heq => ?_⟩
    · rw [hunit] at heq
      split at heq
      · exact hne heq.symm
      · rename_i hnot
        exact hnot (by rwa [heq])
    · exact ((hrec rec).mp hr).2 (by rwa [heq])
  · rcases s.bindTexture_cases target texture memory with ⟨-, hsame⟩ | ⟨hok, -⟩
    · exact hsame
    · exact absurd hok herr

/-- A test for `KeepsNear`. -/
def keepsNearTest (s : TextureState) : Call → Bool
  | .bindTexture _ texture _ => s.textures.all fun rec => decide (Near texture rec.id)
  | _ => true

theorem keepsNearTest_sound (s : TextureState) (c : Call) (h : keepsNearTest s c = true) :
    s.KeepsNear c := by
  cases c with
  | bindTexture target texture memory =>
      intro _ rec hmem
      exact of_decide_eq_true (List.all_eq_true.mp h rec hmem)
  | _ => trivial

/-- Two textures are bound, the second below the first, which is then deleted. -/
theorem textureTable_consistent_bound :
    ∃ s : TextureState, s.textures = [⟨3, GL_TEXTURE_2D⟩] ∧ s.Consistent := by
  have hrun : Run.check (Run.total call) keepsNearTest
      (fun s => s.textures = [⟨3, GL_TEXTURE_2D⟩]) init
      [.bindTexture GL_TEXTURE_EXTERNAL_OES 7 true, .setActiveTextureUnit (GL_TEXTURE0 + 1),
        .bindTexture GL_TEXTURE_2D 3 true, .deleteTextures [0, 7]] = true := by
    decide +kernel
  obtain ⟨s, hreach, htest⟩ := Run.exists_reach_of_check keepsNearTest_sound hrun
  exact ⟨s, of_decide_eq_true htest, (textureTable_consistent s hreach).1⟩

/-- Behind the names 1 and 2 the name 0xC0000000 is not found again. -/
theorem farName_not_consistent :
    ∃ s, Run.Reach (Run.total call) (fun _ _ => True) init s ∧ ¬s.Consistent := by
  have hrun : Run.check (Run.total call) (fun _ _ => true)
      (fun s => decide (s.findTexture 0xC0000000 = none) &&
        decide (⟨0xC0000000, GL_TEXTURE_2D⟩ ∈ s.textures)) init
      [.bindTexture GL_TEXTURE_2D 1 true, .bindTexture GL_TEXTURE_2D 2 true,
        .bindTexture GL_TEXTURE_2D 0xC0000000 true] = true := by
    decide +kernel
  obtain ⟨s, hreach, htest⟩ := Run.exists_reach_of_check (fun _ _ _ => trivial) hrun
  rw [Bool.and_eq_true, decide_eq_true_eq, decide_eq_true_eq] at htest
  refine ⟨s, hreach, fun h => ?_⟩
  have := (h.found 0xC0000000).mpr ⟨_, htest.2, rfl⟩
  rw [htest.1] at this
  cases this

end TextureState

end AndroidRenderer
