import AndroidRenderer.Lib.Sorting
import AndroidRenderer.Translator.ChosenConfigs

/-!
# The order of the configs

A display sorts its configs by `operator<`, adds one of 16 bits if it has none, and sorts them
again. The comparison goes through nine levels, of which the first is not a comparison: of two
configs with different conformant masks that are both not 0, each is less than the other.
-/

namespace AndroidRenderer.Translator

namespace EglConfig

/-- `operator<`; `m_conformant` and `m_caveat` are unsigned. -/
def lt (config conf : EglConfig) : Bool :=
  if config.m_conformant ≠ conf.m_conformant then config.m_conformant ≠ 0
  else if config.m_caveat ≠ conf.m_caveat then config.m_caveat.ult conf.m_caveat
  else if config.m_buffer_size ≠ conf.m_buffer_size then
    config.m_buffer_size.slt conf.m_buffer_size
  else if config.m_sample_buffers_num ≠ conf.m_sample_buffers_num then
    config.m_sample_buffers_num.slt conf.m_sample_buffers_num
  else if config.m_samples_per_pixel ≠ conf.m_samples_per_pixel then
    config.m_samples_per_pixel.slt conf.m_samples_per_pixel
  else if config.m_depth_size ≠ conf.m_depth_size then config.m_depth_size.slt conf.m_depth_size
  else if config.m_stencil_size ≠ conf.m_stencil_size then
    config.m_stencil_size.slt conf.m_stencil_size
  else if config.m_native_visual_type ≠ conf.m_native_visual_type then
    config.m_native_visual_type.slt conf.m_native_visual_type
  else config.m_config_id.slt conf.m_config_id

/-- `operator>=` -/
def ge (config conf : EglConfig) : Bool := !config.lt conf

def derived (conf : EglConfig) (config_id red_size green_size blue_size alpha_size : EGLint) :
    EglConfig :=
  { conf with
    m_buffer_size := red_size + green_size + blue_size + alpha_size
    m_red_size := red_size
    m_green_size := green_size
    m_blue_size := blue_size
    m_alpha_size := alpha_size
    m_config_id := config_id }

end EglConfig

namespace EglDisplay

/-- `m_configs.sort(compareEglConfigsPtrs)`, which is stable. -/
def sort (dpy : EglDisplay) : EglDisplay :=
  { dpy with
    m_configs := dpy.m_configs.mergeSort fun first second =>
      !(dpy.config second).lt (dpy.config first)
    distinct := (List.mergeSort_perm _ _).nodup_iff.mpr dpy.distinct }

/-- The config of 16 bits that is looked for. -/
def dummy565 : EglConfig :=
  .new 5 6 5 0 EGL_DONT_CARE EGL_DONT_CARE 16 EGL_DONT_CARE EGL_DONT_CARE EGL_DONT_CARE
    EGL_DONT_CARE EGL_DONT_CARE EGL_DONT_CARE EGL_DONT_CARE EGL_DONT_CARE EGL_DONT_CARE
    EGL_DONT_CARE EGL_DONT_CARE

def max_config_id (dpy : EglDisplay) : EGLint :=
  dpy.m_configs.foldl (fun max_config_id p =>
    if max_config_id.slt (dpy.config p).m_config_id then (dpy.config p).m_config_id
    else max_config_id) 0

/-- `newConfig` is the address of an object that is new. -/
def push_back (dpy : EglDisplay) (newConfig : ConfigPtr) (config : EglConfig)
    (hnew : newConfig ∉ dpy.m_configs) : EglDisplay :=
  { dpy with
    m_configs := dpy.m_configs ++ [newConfig]
    config := Function.update dpy.config newConfig config
    distinct := List.nodup_append.mpr ⟨dpy.distinct, List.nodup_singleton _,
      fun _ ha _ hb heq => hnew (List.mem_singleton.mp hb ▸ heq ▸ ha)⟩ }

/-- `addMissingConfigs` behind its sort. -/
def addMissing (dpy : EglDisplay) (newConfig : ConfigPtr) (hnew : newConfig ∉ dpy.m_configs) :
    EglDisplay :=
  match dpy.chooseConfigs dummy565 true 1 with
  | (matched :: _, _) =>
      if (dpy.config matched).m_buffer_size = 16 then dpy
      else dpy.push_back newConfig
        ((dpy.config matched).derived (dpy.max_config_id + 1) 5 6 5 0) hnew
  | ([], _) => dpy

theorem mem_sort {dpy : EglDisplay} {p : ConfigPtr} :
    p ∈ dpy.sort.m_configs ↔ p ∈ dpy.m_configs :=
  List.mem_mergeSort

def addMissingConfigs (dpy : EglDisplay) (newConfig : ConfigPtr)
    (hnew : newConfig ∉ dpy.m_configs) : EglDisplay :=
  dpy.sort.addMissing newConfig fun h => hnew (mem_sort.mp h)

/-- What follows `EglOS::queryConfigs`. -/
def initConfigurations (dpy : EglDisplay) (newConfig : ConfigPtr)
    (hnew : newConfig ∉ dpy.m_configs) : EglDisplay :=
  (dpy.addMissingConfigs newConfig hnew).sort

end EglDisplay

/-! ## Keys -/

namespace EglConfig

/-- What the comparison should compare, conformant configs first. -/
def key (config : EglConfig) : List Int :=
  [if config.m_conformant = 0 then 1 else 0, config.m_caveat.toNat, config.m_buffer_size.toInt,
    config.m_sample_buffers_num.toInt, config.m_samples_per_pixel.toInt,
    config.m_depth_size.toInt, config.m_stencil_size.toInt, config.m_native_visual_type.toInt,
    config.m_config_id.toInt]

def SameMasks (a b : EglConfig) : Prop :=
  a.m_conformant ≠ 0 → b.m_conformant ≠ 0 → a.m_conformant = b.m_conformant

/-- A level that compares signed values. -/
theorem slt_level (x y : EGLint) (rest : Bool) :
    (if x ≠ y then x.slt y else rest) = true ↔
      x.toInt < y.toInt ∨ x.toInt = y.toInt ∧ rest = true := by
  by_cases h : x = y
  · simp [h]
  · have hne : x.toInt ≠ y.toInt := fun heq => h (BitVec.toInt_inj.mp heq)
    rw [if_pos h, BitVec.slt_iff_toInt_lt]
    simp [hne]

theorem ult_level (x y : EGLint) (rest : Bool) :
    (if x ≠ y then x.ult y else rest) = true ↔
      (x.toNat : Int) < y.toNat ∨ (x.toNat : Int) = y.toNat ∧ rest = true := by
  by_cases h : x = y
  · simp [h]
  · have hne : (x.toNat : Int) ≠ y.toNat := fun heq => h (BitVec.eq_of_toNat_eq (by omega))
    rw [if_pos h, BitVec.ult_iff_toNat_lt, Int.ofNat_lt]
    simp [hne]

/-- The first level is a comparison where the masks are the same. -/
theorem conformant_level {x y : EGLint} (h : x ≠ 0 → y ≠ 0 → x = y) (rest : Bool) :
    (if x ≠ y then decide (x ≠ 0) else rest) = true ↔
      (if x = 0 then (1 : Int) else 0) < (if y = 0 then 1 else 0) ∨
        (if x = 0 then (1 : Int) else 0) = (if y = 0 then 1 else 0) ∧ rest = true := by
  by_cases hx : x = 0
  · grind
  · grind

theorem lt_iff_key {a b : EglConfig} (h : SameMasks a b) : a.lt b = true ↔ a.key < b.key := by
  have hlast : a.m_config_id.slt b.m_config_id = true ↔
      a.m_config_id.toInt < b.m_config_id.toInt := BitVec.slt_iff_toInt_lt
  rw [lt]
  simp only [conformant_level h _, ult_level, slt_level, hlast, key, List.cons_lt_cons_iff]
  simp

theorem id_eq_of_key_eq {a b : EglConfig} (h : a.key = b.key) : a.m_config_id = b.m_config_id := by
  simp only [key, List.cons.injEq, and_true] at h
  exact BitVec.toInt_inj.mp h.2.2.2.2.2.2.2.2

/-- Different masks that are not 0 come before each other. -/
theorem lt_of_masks_ne {a b : EglConfig} (ha : a.m_conformant ≠ 0)
    (hne : a.m_conformant ≠ b.m_conformant) : a.lt b = true := by
  rw [lt, if_pos hne]
  exact decide_eq_true ha

/-- A config that is made for a renderable type has no other mask. -/
theorem conformant_new (red_size green_size blue_size alpha_size caveat config_id depth_size
    frame_buffer_level native_renderable renderable_type native_visual_type samples_per_pixel
    stencil_size surface_type transparent_type trans_red_val trans_green_val
    trans_blue_val : EGLint) :
    let config := new red_size green_size blue_size alpha_size caveat config_id depth_size
      frame_buffer_level native_renderable renderable_type native_visual_type samples_per_pixel
      stencil_size surface_type transparent_type trans_red_val trans_green_val trans_blue_val
    config.m_conformant ≠ 0 → config.m_conformant = renderable_type := by
  intro config h
  dsimp only [config, new] at h ⊢
  grind

end EglConfig

namespace EglDisplay

/-! ## What the order is for -/

/-- On the configs of the display the comparison is a strict weak order, which tells configs with
different ids apart. -/
structure Ordered (dpy : EglDisplay) : Prop where
  irrefl : ∀ p ∈ dpy.m_configs, (dpy.config p).lt (dpy.config p) = false
  asymm : ∀ p ∈ dpy.m_configs, ∀ q ∈ dpy.m_configs,
    (dpy.config p).lt (dpy.config q) → (dpy.config q).lt (dpy.config p) = false
  trans : ∀ p ∈ dpy.m_configs, ∀ q ∈ dpy.m_configs, ∀ r ∈ dpy.m_configs,
    (dpy.config p).lt (dpy.config q) → (dpy.config q).lt (dpy.config r) →
      (dpy.config p).lt (dpy.config r)
  equiv : ∀ p ∈ dpy.m_configs, ∀ q ∈ dpy.m_configs, ∀ r ∈ dpy.m_configs,
    (dpy.config p).ge (dpy.config q) → (dpy.config q).ge (dpy.config r) →
      (dpy.config p).ge (dpy.config r)
  total : ∀ p ∈ dpy.m_configs, ∀ q ∈ dpy.m_configs,
    (dpy.config p).m_config_id ≠ (dpy.config q).m_config_id →
      (dpy.config p).lt (dpy.config q) ∨ (dpy.config q).lt (dpy.config p)

/-- The configs are queried in another order. -/
def reorder (dpy : EglDisplay) (ps : List ConfigPtr) (hperm : ps.Perm dpy.m_configs) :
    EglDisplay :=
  { dpy with m_configs := ps, distinct := hperm.nodup_iff.mpr dpy.distinct }

/-- The list does not depend on the order in which the configs are queried. -/
def SortsAlike (dpy : EglDisplay) (newConfig : ConfigPtr) (hnew : newConfig ∉ dpy.m_configs) :
    Prop :=
  ∀ ps hperm, (dpy.reorder ps hperm).initConfigurations newConfig
      (fun h => hnew (hperm.mem_iff.mp h)) =
    dpy.initConfigurations newConfig hnew

/-- Configs that are chosen come in the order of the comparison. -/
def ChoosesInOrder (dpy : EglDisplay) : Prop :=
  ∀ attrib_list config_size r,
    eglChooseConfig (some dpy) attrib_list true config_size true = .ok r →
      r.configs.Pairwise fun p q => (dpy.config q).ge (dpy.config p)

/-- All masks that are not 0 are equal. -/
def Uniform (dpy : EglDisplay) : Prop :=
  ∀ p ∈ dpy.m_configs, ∀ q ∈ dpy.m_configs, (dpy.config p).SameMasks (dpy.config q)

variable {dpy : EglDisplay}

/-- `EglOS::queryConfigs` makes all configs for the same renderable type. -/
theorem uniform_of_renderableType {r : EGLint}
    (h : ∀ p ∈ dpy.m_configs, (dpy.config p).m_conformant ≠ 0 →
      (dpy.config p).m_conformant = r) : dpy.Uniform :=
  fun p hp q hq hpmask hqmask => (h p hp hpmask).trans (h q hq hqmask).symm

theorem Uniform.lt_iff (h : dpy.Uniform) {p q : ConfigPtr} (hp : p ∈ dpy.m_configs)
    (hq : q ∈ dpy.m_configs) :
    (dpy.config p).lt (dpy.config q) = true ↔ (dpy.config p).key < (dpy.config q).key :=
  EglConfig.lt_iff_key (h p hp q hq)

theorem Uniform.ge_iff (h : dpy.Uniform) {p q : ConfigPtr} (hp : p ∈ dpy.m_configs)
    (hq : q ∈ dpy.m_configs) :
    (dpy.config p).ge (dpy.config q) = true ↔ (dpy.config q).key ≤ (dpy.config p).key := by
  rw [EglConfig.ge, Bool.not_eq_true', ← Bool.not_eq_true, h.lt_iff hp hq, not_lt]

theorem Uniform.ordered (h : dpy.Uniform) : dpy.Ordered := by
  constructor
  · grind [h.lt_iff]
  · grind [h.lt_iff]
  · grind [h.lt_iff]
  · grind [h.ge_iff]
  · grind [h.lt_iff, EglConfig.id_eq_of_key_eq]

/-- Where the comparison is an order, the masks agree. -/
theorem Ordered.uniform (h : dpy.Ordered) : dpy.Uniform := by
  intro p hp q hq hpmask hqmask
  by_contra hne
  have hpq := EglConfig.lt_of_masks_ne hpmask hne
  grind [h.asymm, EglConfig.lt_of_masks_ne]

/-! ## The sorts -/

theorem Uniform.compares (h : dpy.Uniform) :
    KeySort.Compares (fun p => (dpy.config p).key)
      (fun first second => !(dpy.config second).lt (dpy.config first)) dpy.m_configs := by
  intro p hp q hq
  have hge := h.ge_iff hq hp
  rw [Bool.eq_iff_iff, decide_eq_true_iff]
  exact hge

theorem Uniform.sort (h : dpy.Uniform) : dpy.sort.Uniform :=
  fun p hp q hq => h p (mem_sort.mp hp) q (mem_sort.mp hq)

/-- The sort puts the keys in order. -/
theorem Uniform.pairwise_sort (h : dpy.Uniform) :
    dpy.sort.m_configs.Pairwise fun p q => (dpy.config q).ge (dpy.config p) := by
  have hsorted : dpy.sort.m_configs.Pairwise
      (fun p q => (dpy.config p).key ≤ (dpy.config q).key) :=
    KeySort.pairwise_mergeSort h.compares
  grind [mem_sort, hsorted.imp_of_mem, h.ge_iff]

theorem eq_of_m_configs {d : EglDisplay} {ps qs : List ConfigPtr} (hps : ps.Nodup)
    (hqs : qs.Nodup) (heq : ps = qs) :
    { d with m_configs := ps, distinct := hps } = { d with m_configs := qs, distinct := hqs } := by
  subst heq
  rfl

/-- Every order of the same configs is sorted to the same list. -/
theorem Uniform.sort_reorder (h : dpy.Uniform)
    (hids : (dpy.m_configs.map fun p => (dpy.config p).m_config_id).Nodup)
    {ps : List ConfigPtr} (hperm : ps.Perm dpy.m_configs) :
    (dpy.reorder ps hperm).sort = dpy.sort := by
  apply eq_of_m_configs
  symm
  apply KeySort.mergeSort_eq_of_perm h.compares _ hperm.symm
  intro p hp q hq hkey
  exact List.inj_on_of_nodup_map hids hp hq (EglConfig.id_eq_of_key_eq hkey)

variable {newConfig : ConfigPtr}

/-- The mask of an added config is one that was there. -/
theorem Uniform.push_back (h : dpy.Uniform) {matched : ConfigPtr}
    (hnew : newConfig ∉ dpy.m_configs) (hmatched : matched ∈ dpy.m_configs)
    {config : EglConfig} (hmask : config.m_conformant = (dpy.config matched).m_conformant) :
    (dpy.push_back newConfig config hnew).Uniform := by
  have hold : ∀ p ∈ (dpy.push_back newConfig config hnew).m_configs, ∃ p' ∈ dpy.m_configs,
      ((dpy.push_back newConfig config hnew).config p).m_conformant =
        (dpy.config p').m_conformant := by
    intro p hp
    obtain hp | hp := List.mem_append.mp hp
    · have hne : p ≠ newConfig := fun heq => hnew (heq ▸ hp)
      exact ⟨p, hp, congrArg _ (Function.update_of_ne hne _ _)⟩
    · obtain rfl := List.mem_singleton.mp hp
      refine ⟨matched, hmatched, ?_⟩
      rw [← hmask]
      exact congrArg _ (Function.update_self _ _ _)
  intro p hp q hq
  obtain ⟨p', hp', hpmask⟩ := hold p hp
  obtain ⟨q', hq', hqmask⟩ := hold q hq
  rw [EglConfig.SameMasks, hpmask, hqmask]
  exact h p' hp' q' hq'

theorem Uniform.addMissing (h : dpy.Uniform)
    (hnew : newConfig ∉ dpy.m_configs) : (dpy.addMissing newConfig hnew).Uniform := by
  rw [EglDisplay.addMissing]
  split
  · rename_i matched rest added hchosen
    split
    · exact h
    · have hmem : matched ∈ dpy.m_configs := by
        have hlist : matched ∈ (dpy.chooseConfigs dummy565 true 1).1 := by simp [hchosen]
        rw [chooseConfigs, chooseLoop_array] at hlist
        exact List.mem_of_mem_filter (List.mem_of_mem_take hlist)
      exact h.push_back hnew hmem rfl
  · exact h

theorem initConfigurations_congr {d d' : EglDisplay} (heq : d.sort = d'.sort)
    (hnew : newConfig ∉ d.m_configs) (hnew' : newConfig ∉ d'.m_configs) :
    d.initConfigurations newConfig hnew = d'.initConfigurations newConfig hnew' := by
  have hadd (x y : EglDisplay) (hxy : x = y) (hx : newConfig ∉ x.m_configs)
      (hy : newConfig ∉ y.m_configs) : x.addMissing newConfig hx = y.addMissing newConfig hy := by
    subst hxy
    rfl
  exact congrArg EglDisplay.sort (hadd _ _ heq _ _)

theorem Uniform.choosesInOrder (h : dpy.Uniform) : dpy.sort.ChoosesInOrder := by
  intro attrib_list config_size r hr
  exact h.pairwise_sort.sublist (eglChooseConfig_sublist hr)

/-- Exactly when the comparison orders the configs of a display, and its list is as it should be:
all conformant configs have the same mask. -/
theorem ordered_iff (dpy : EglDisplay)
    (hids : (dpy.m_configs.map fun p => (dpy.config p).m_config_id).Nodup)
    {newConfig : ConfigPtr} (hnew : newConfig ∉ dpy.m_configs) :
    dpy.Ordered ∧ dpy.SortsAlike newConfig hnew ∧
        (dpy.initConfigurations newConfig hnew).ChoosesInOrder ↔ dpy.Uniform := by
  constructor
  · exact fun h => h.1.uniform
  · intro h
    refine ⟨h.ordered, ?_, ?_⟩
    · intro ps hperm
      exact initConfigurations_congr (h.sort_reorder hids hperm) _ hnew
    · have hnew' : newConfig ∉ dpy.sort.m_configs := fun hin => hnew (mem_sort.mp hin)
      exact (h.sort.addMissing hnew').choosesInOrder

theorem ordered_twoConfigs :
    twoConfigs.Ordered ∧ twoConfigs.SortsAlike 2 (by decide) ∧
      (twoConfigs.initConfigurations 2 (by decide)).ChoosesInOrder := by
  apply (ordered_iff twoConfigs (by decide) (by decide)).mpr
  apply uniform_of_renderableType (r := EGL_OPENGL_ES_BIT)
  intro p _
  dsimp only [twoConfigs]
  split
  · apply EglConfig.conformant_new
  · apply EglConfig.conformant_new

theorem nodup_zero_one : ([0, 1] : List ConfigPtr).Nodup := by
  decide

/-- Two configs that are made for different versions of OpenGL ES. -/
def twoVersions : EglDisplay where
  m_initialized := true
  m_configs := [0, 1]
  config p :=
    if p = 0 then .new 8 8 8 8 EGL_NONE 1 24 0 1 0x0001 0 0 8 EGL_WINDOW_BIT EGL_NONE 0 0 0
    else .new 8 8 8 8 EGL_NONE 2 24 0 1 0x0004 0 0 8 EGL_WINDOW_BIT EGL_NONE 0 0 0
  distinct := nodup_zero_one

theorem not_ordered_twoVersions : ¬twoVersions.Ordered := by
  intro h
  have hlt := h.asymm 0 (by decide) 1 (by decide) (by decide)
  exact absurd hlt (by decide)

end EglDisplay

end AndroidRenderer.Translator
