import AndroidRenderer.Translator.ChooseConfig

/-!
# Chosen configs

What a list asks for is the last value that it gives to each attribute, or the default, unless it
names a config. Six of the attributes never reach the dummy config, which has values of its own for
them and for `m_conformant`: these decide where the configs that the list asks for are chosen.
-/

namespace AndroidRenderer.Translator

/-! ## First elements of filtered lists -/

section Filter

variable {α : Type} {p q : α → Bool}

/-- An element in front that passes one test only. -/
theorem take_filter_ne {x : α} {xs : List α} (hx : x ∉ xs) (n : Nat) (hp : p x = true)
    (hq : q x = false) :
    ((x :: xs).filter p).take (n + 1) ≠ ((x :: xs).filter q).take (n + 1) := by
  intro heq
  have hmem : x ∈ ((x :: xs).filter q).take (n + 1) := by grind
  grind

/-- The same before some place, said for the head and the tail. -/
theorem forall_split_cons {x : α} {xs : List α} {n : Nat} :
    (∀ front y back, x :: xs = front ++ y :: back → front.countP q < n → p y = q y) ↔
      (0 < n → p x = q x) ∧ ∀ front y back, xs = front ++ y :: back →
        (x :: front).countP q < n → p y = q y := by
  constructor
  · intro h
    exact ⟨h [] x xs rfl, fun front y back heq => h (x :: front) y back (heq ▸ rfl)⟩
  · rintro ⟨hhead, htail⟩ front y back heq hlt
    cases front with
    | nil => grind
    | cons z front => grind

/-- The first `n` elements that pass are the same where the tests agree until there are `n`. -/
theorem take_filter_eq_iff {xs : List α} (hxs : xs.Nodup) (n : Nat) :
    (xs.filter p).take n = (xs.filter q).take n ↔
      ∀ front x back, xs = front ++ x :: back → front.countP q < n → p x = q x := by
  induction xs generalizing n with
  | nil => simp
  | cons x xs ih =>
      obtain ⟨hx, hnodup⟩ := List.nodup_cons.mp hxs
      rw [forall_split_cons]
      cases n with
      | zero => simp
      | succ n =>
          cases hp : p x <;> cases hq : q x
          · simp [hp, hq, ih hnodup]
          · simp [(take_filter_ne hx n hq hp).symm]
          · simp [take_filter_ne hx n hp hq]
          · simp [hp, hq, ih hnodup]

theorem countP_and_not (xs : List α) :
    xs.countP p + xs.countP (fun x => q x && !p x) =
      xs.countP q + xs.countP (fun x => p x && !q x) := by
  induction xs with
  | nil => rfl
  | cons x xs ih =>
      simp only [List.countP_cons]
      cases p x <;> cases q x <;> simp <;> omega

end Filter

/-! ## Requests -/

/-- The pairs of an attribute list, up to `EGL_NONE`. -/
def pairs : List EGLint → List (EGLint × EGLint)
  | attrib :: value :: rest => if attrib = EGL_NONE then [] else (attrib, value) :: pairs rest
  | _ => []

def lastValue (a : Criterion) : List (EGLint × EGLint) → Option EGLint
  | [] => none
  | (attrib, value) :: rest =>
      (lastValue a rest).or (if attrib = a.value then some value else none)

def namedConfig (attribs : List (EGLint × EGLint)) : Option EGLint :=
  (attribs.find? fun pair => pair.1 == Criterion.EGL_CONFIG_ID.value).map Prod.snd

namespace Criterion

def default : Criterion → EGLint
  | .EGL_LEVEL | .EGL_BUFFER_SIZE | .EGL_RED_SIZE | .EGL_GREEN_SIZE | .EGL_BLUE_SIZE
  | .EGL_ALPHA_SIZE | .EGL_DEPTH_SIZE | .EGL_SAMPLE_BUFFERS | .EGL_SAMPLES
  | .EGL_STENCIL_SIZE => 0
  | .EGL_RENDERABLE_TYPE => EGL_OPENGL_ES_BIT
  | .EGL_SURFACE_TYPE => EGL_WINDOW_BIT
  | .EGL_TRANSPARENT_TYPE => EGL_NONE
  | .EGL_BIND_TO_TEXTURE_RGB | .EGL_BIND_TO_TEXTURE_RGBA | .EGL_CONFIG_CAVEAT | .EGL_CONFIG_ID
  | .EGL_MAX_SWAP_INTERVAL | .EGL_MIN_SWAP_INTERVAL | .EGL_NATIVE_RENDERABLE
  | .EGL_NATIVE_VISUAL_TYPE | .EGL_TRANSPARENT_RED_VALUE | .EGL_TRANSPARENT_GREEN_VALUE
  | .EGL_TRANSPARENT_BLUE_VALUE => EGL_DONT_CARE

/-- The rule of EGL for the values of a request and of a config. -/
def rule : Criterion → EGLint → EGLint → Bool
  | .EGL_BUFFER_SIZE | .EGL_RED_SIZE | .EGL_GREEN_SIZE | .EGL_BLUE_SIZE | .EGL_ALPHA_SIZE
  | .EGL_DEPTH_SIZE | .EGL_STENCIL_SIZE | .EGL_SAMPLE_BUFFERS | .EGL_SAMPLES => EglConfig.atLeast
  | .EGL_SURFACE_TYPE | .EGL_RENDERABLE_TYPE => EglConfig.mask
  | .EGL_LEVEL | .EGL_BIND_TO_TEXTURE_RGB | .EGL_BIND_TO_TEXTURE_RGBA | .EGL_CONFIG_CAVEAT
  | .EGL_CONFIG_ID | .EGL_MAX_SWAP_INTERVAL | .EGL_MIN_SWAP_INTERVAL | .EGL_NATIVE_RENDERABLE
  | .EGL_NATIVE_VISUAL_TYPE | .EGL_TRANSPARENT_TYPE | .EGL_TRANSPARENT_RED_VALUE
  | .EGL_TRANSPARENT_GREEN_VALUE | .EGL_TRANSPARENT_BLUE_VALUE => EglConfig.exact

end Criterion

/-- What a list that names no config asks for. -/
def request (attribs : List (EGLint × EGLint)) (a : Criterion) : EGLint :=
  (lastValue a attribs).getD a.default

/-- `getConfAttrib` for these attributes -/
def EglConfig.getConfAttrib (config : EglConfig) : Criterion → EGLint
  | .EGL_BUFFER_SIZE => config.m_buffer_size
  | .EGL_RED_SIZE => config.m_red_size
  | .EGL_GREEN_SIZE => config.m_green_size
  | .EGL_BLUE_SIZE => config.m_blue_size
  | .EGL_ALPHA_SIZE => config.m_alpha_size
  | .EGL_BIND_TO_TEXTURE_RGB => config.m_bind_to_tex_rgb
  | .EGL_BIND_TO_TEXTURE_RGBA => config.m_bind_to_tex_rgba
  | .EGL_CONFIG_CAVEAT => config.m_caveat
  | .EGL_CONFIG_ID => config.m_config_id
  | .EGL_DEPTH_SIZE => config.m_depth_size
  | .EGL_LEVEL => config.m_frame_buffer_level
  | .EGL_MAX_SWAP_INTERVAL => config.m_max_swap_interval
  | .EGL_MIN_SWAP_INTERVAL => config.m_min_swap_interval
  | .EGL_NATIVE_RENDERABLE => config.m_native_renderable
  | .EGL_NATIVE_VISUAL_TYPE => config.m_native_visual_type
  | .EGL_RENDERABLE_TYPE => config.m_renderable_type
  | .EGL_SAMPLE_BUFFERS => config.m_sample_buffers_num
  | .EGL_SAMPLES => config.m_samples_per_pixel
  | .EGL_STENCIL_SIZE => config.m_stencil_size
  | .EGL_SURFACE_TYPE => config.m_surface_type
  | .EGL_TRANSPARENT_TYPE => config.m_transparent_type
  | .EGL_TRANSPARENT_RED_VALUE => config.m_trans_red_val
  | .EGL_TRANSPARENT_GREEN_VALUE => config.m_trans_green_val
  | .EGL_TRANSPARENT_BLUE_VALUE => config.m_trans_blue_val

/-- The rules for some of the attributes. -/
def meets (req : Criterion → EGLint) (criteria : List Criterion) (config : EglConfig) : Bool :=
  criteria.all fun a => a.rule (req a) (config.getConfAttrib a)

def satisfies (attribs : List (EGLint × EGLint)) (config : EglConfig) : Bool :=
  match namedConfig attribs with
  | some id => config.m_config_id == id
  | none => meets (request attribs) Criterion.all config

/-- The attributes that do not reach the dummy config. -/
def unread : List Criterion :=
  [.EGL_BUFFER_SIZE, .EGL_BIND_TO_TEXTURE_RGB, .EGL_BIND_TO_TEXTURE_RGBA, .EGL_MAX_SWAP_INTERVAL,
    .EGL_MIN_SWAP_INTERVAL, .EGL_SAMPLE_BUFFERS]

/-- The attributes that reach it. -/
def carried : List Criterion :=
  Criterion.all.filter (· ∉ unread)

/-- The values that the dummy config has instead, and its `m_conformant`. -/
def assumed (req : Criterion → EGLint) (config : EglConfig) : Bool :=
  let sizes := req .EGL_RED_SIZE + req .EGL_GREEN_SIZE + req .EGL_BLUE_SIZE + req .EGL_ALPHA_SIZE
  EglConfig.atLeast sizes config.m_buffer_size &&
  EglConfig.exact EGL_FALSE config.m_bind_to_tex_rgb &&
  EglConfig.exact EGL_FALSE config.m_bind_to_tex_rgba &&
  EglConfig.exact MAX_SWAP_INTERVAL config.m_max_swap_interval &&
  EglConfig.exact MIN_SWAP_INTERVAL config.m_min_swap_interval &&
  EglConfig.atLeast (if (0#32).slt (req .EGL_SAMPLES) then 1 else 0) config.m_sample_buffers_num &&
  EglConfig.mask
    (if (0#32).slt sizes ∧ req .EGL_CONFIG_CAVEAT ≠ EGL_NON_CONFORMANT_CONFIG then
      req .EGL_RENDERABLE_TYPE
    else 0) config.m_conformant

namespace Criterion

theorem ofValue?_value (a : Criterion) : ofValue? a.value = some a := by
  cases a <;> decide

theorem value_ofValue? {attrib : EGLint} {a : Criterion} (h : ofValue? attrib = some a) :
    a.value = attrib :=
  beq_iff_eq.mp (List.find?_some (p := fun a : Criterion => a.value == attrib) h)

theorem value_inj {a b : Criterion} : a.value = b.value ↔ a = b := by
  constructor
  · intro h
    have ha := ofValue?_value a
    rw [h, ofValue?_value] at ha
    exact (Option.some.inj ha).symm
  · rintro rfl
    rfl

theorem value_not_skipped (a : Criterion) : a.value ∉ skippedAttribs := by
  cases a <;> decide

end Criterion

/-! ## Selections -/

/-- The variable of an attribute. -/
def Selection.get (sel : Selection) : Criterion → EGLint
  | .EGL_LEVEL => sel.frame_buffer_level
  | .EGL_BUFFER_SIZE => sel.buffer_size
  | .EGL_RED_SIZE => sel.red_size
  | .EGL_GREEN_SIZE => sel.green_size
  | .EGL_BLUE_SIZE => sel.blue_size
  | .EGL_ALPHA_SIZE => sel.alpha_size
  | .EGL_BIND_TO_TEXTURE_RGB => sel.bind_to_tex_rgb
  | .EGL_BIND_TO_TEXTURE_RGBA => sel.bind_to_tex_rgba
  | .EGL_CONFIG_CAVEAT => sel.caveat
  | .EGL_CONFIG_ID => sel.config_id
  | .EGL_DEPTH_SIZE => sel.depth_size
  | .EGL_MAX_SWAP_INTERVAL => sel.max_swap_interval
  | .EGL_MIN_SWAP_INTERVAL => sel.min_swap_interval
  | .EGL_NATIVE_RENDERABLE => sel.native_renderable
  | .EGL_RENDERABLE_TYPE => sel.renderable_type
  | .EGL_NATIVE_VISUAL_TYPE => sel.native_visual_type
  | .EGL_SAMPLE_BUFFERS => sel.sample_buffers_num
  | .EGL_SAMPLES => sel.samples_per_pixel
  | .EGL_STENCIL_SIZE => sel.stencil_size
  | .EGL_SURFACE_TYPE => sel.surface_type
  | .EGL_TRANSPARENT_TYPE => sel.transparent_type
  | .EGL_TRANSPARENT_RED_VALUE => sel.trans_red_val
  | .EGL_TRANSPARENT_GREEN_VALUE => sel.trans_green_val
  | .EGL_TRANSPARENT_BLUE_VALUE => sel.trans_blue_val

theorem carried_eq : carried = [.EGL_LEVEL, .EGL_RED_SIZE, .EGL_GREEN_SIZE, .EGL_BLUE_SIZE,
    .EGL_ALPHA_SIZE, .EGL_CONFIG_CAVEAT, .EGL_CONFIG_ID, .EGL_DEPTH_SIZE, .EGL_NATIVE_RENDERABLE,
    .EGL_RENDERABLE_TYPE, .EGL_NATIVE_VISUAL_TYPE, .EGL_SAMPLES, .EGL_STENCIL_SIZE,
    .EGL_SURFACE_TYPE, .EGL_TRANSPARENT_TYPE, .EGL_TRANSPARENT_RED_VALUE,
    .EGL_TRANSPARENT_GREEN_VALUE, .EGL_TRANSPARENT_BLUE_VALUE] := by
  decide

theorem meets_all (req : Criterion → EGLint) (config : EglConfig) :
    meets req Criterion.all config = (meets req carried config && meets req unread config) := by
  rw [carried_eq]
  simp only [meets, Criterion.all, unread, List.all_cons, List.all_nil, Bool.and_true]
  ac_rfl

namespace Selection

theorem get_defaults (a : Criterion) : defaults.get a = a.default := by
  cases a <;> rfl

theorem get_assign (sel : Selection) (a b : Criterion) (value : EGLint) :
    (sel.assign a value).get b = if a = b then value else sel.get b := by
  cases a <;> cases b <;> rfl

/-- The check of a config against the dummy, in two parts. -/
theorem choosen_dummy (sel : Selection) (config : EglConfig) :
    config.choosen sel.dummy = (meets sel.get carried config && assumed sel.get config) := by
  rw [carried_eq]
  simp only [meets, List.all_cons, List.all_nil, Criterion.rule, EglConfig.getConfAttrib, get,
    assumed, EglConfig.choosen, dummy, EglConfig.new, Bool.and_true]
  ac_rfl

theorem read_pairs {attribs : List EGLint} {sel sel' : Selection}
    (h : read attribs sel = .ok (sel', false)) :
    namedConfig (pairs attribs) = none ∧
      ∀ a, sel'.get a = (lastValue a (pairs attribs)).getD (sel.get a) := by
  fun_induction read attribs sel with
  | case1 => cases h
  | case2 =>
      cases h
      exact ⟨rfl, fun _ => rfl⟩
  | case3 => cases h
  | case4 => cases h
  | case5 value rest sel =>
      cases h
      exact ⟨rfl, fun _ => rfl⟩
  | case6 attrib value rest sel hnone hskipped ih =>
      obtain ⟨hnamed, hget⟩ := ih h
      have hne (a : Criterion) : attrib ≠ a.value := fun heq =>
        a.value_not_skipped (heq ▸ hskipped)
      rw [pairs, if_neg hnone]
      refine ⟨?_, fun a => ?_⟩
      · grind [namedConfig]
      · rw [hget a, lastValue, if_neg (hne a), Option.or_none]
  | case7 => cases h
  | case8 => cases h
  | case9 => cases h
  | case10 attrib value rest sel hnone hskipped a hcase hrefuses hid ih =>
      obtain ⟨hnamed, hget⟩ := ih h
      obtain rfl := Criterion.value_ofValue? hcase
      grind [pairs, namedConfig, lastValue, get_assign, Criterion.value_inj]

theorem read_named {attribs : List EGLint} {sel sel' : Selection}
    (h : read attribs sel = .ok (sel', true)) :
    namedConfig (pairs attribs) = some sel'.config_id := by
  fun_induction read attribs sel with
  | case1 => cases h
  | case2 => cases h
  | case3 => cases h
  | case4 => cases h
  | case5 => cases h
  | case6 attrib value rest sel hnone hskipped ih =>
      have hne : attrib ≠ Criterion.EGL_CONFIG_ID.value := fun heq =>
        Criterion.EGL_CONFIG_ID.value_not_skipped (heq ▸ hskipped)
      grind [pairs, namedConfig]
  | case7 => cases h
  | case8 => cases h
  | case9 attrib value rest sel hnone hskipped hcase hrefuses =>
      cases h
      rw [pairs, if_neg hnone, namedConfig, ← Criterion.value_ofValue? hcase,
        List.find?_cons_of_pos (by exact beq_self_eq_true _)]
      rfl
  | case10 attrib value rest sel hnone hskipped a hcase hrefuses hid ih =>
      obtain rfl := Criterion.value_ofValue? hcase
      grind [pairs, namedConfig, Criterion.value_inj]

end Selection

/-! ## Displays -/

namespace EglDisplay

theorem chooseLoop_array (config : ConfigPtr → EglConfig) (dummy : EglConfig) (config_size : Int)
    (m_configs : List ConfigPtr) (added : Nat) :
    chooseLoop config dummy true config_size m_configs added =
      let chosen := (m_configs.filter fun p => (config p).choosen dummy).take
        (config_size - added).toNat
      (chosen, added + chosen.length) := by
  induction m_configs generalizing added with
  | nil => simp [chooseLoop]
  | cons p m_configs ih =>
      unfold chooseLoop
      split
      · rename_i hroom
        have hlt : (added : Int) < config_size := hroom.resolve_right (by decide)
        have hsucc : (config_size - added).toNat = (config_size - (added + 1 : Nat)).toNat + 1 := by
          omega
        split
        · rename_i hchoosen
          simp [ih, hchoosen, hsucc, Nat.add_assoc, Nat.add_comm 1]
        · grind
      · rename_i hfull
        have hzero : (config_size - added).toNat = 0 := by omega
        simp [hzero]

theorem chooseLoop_null (config : ConfigPtr → EglConfig) (dummy : EglConfig) (config_size : Int)
    (m_configs : List ConfigPtr) (added : Nat) :
    chooseLoop config dummy false config_size m_configs added =
      ([], added + m_configs.countP fun p => (config p).choosen dummy) := by
  induction m_configs generalizing added with
  | nil => rfl
  | cons p m_configs ih =>
      unfold chooseLoop
      grind

def matching (dpy : EglDisplay) (attribs : List (EGLint × EGLint)) : List ConfigPtr :=
  dpy.m_configs.filter fun p => satisfies attribs (dpy.config p)

/-- The first `config_size` of them are returned and counted, or all are counted where there is no
array. -/
def Chooses (dpy : EglDisplay) (attribs : List (EGLint × EGLint)) (configs : Bool)
    (config_size : Int) (r : Chosen) : Prop :=
  if configs then
    r.configs = (dpy.matching attribs).take config_size.toNat ∧ r.num_config = r.configs.length
  else r.configs = [] ∧ r.num_config = (dpy.matching attribs).length

/-- Where a list names no config, the unread attributes and the values of the dummy config decide
the same of the configs that are reached and pass the other checks. Where it names one, there is
only one that it can return. -/
def Agrees (dpy : EglDisplay) (attribs : List (EGLint × EGLint)) (configs : Bool)
    (config_size : Int) : Prop :=
  match namedConfig attribs, configs with
  | none, true => ∀ front p back, dpy.m_configs = front ++ p :: back →
      (front.countP fun p => satisfies attribs (dpy.config p)) < config_size.toNat →
      meets (request attribs) carried (dpy.config p) = true →
      assumed (request attribs) (dpy.config p) = meets (request attribs) unread (dpy.config p)
  | none, false =>
      (dpy.m_configs.countP fun p => meets (request attribs) carried (dpy.config p) &&
        (assumed (request attribs) (dpy.config p) &&
          !meets (request attribs) unread (dpy.config p))) =
      dpy.m_configs.countP fun p => meets (request attribs) carried (dpy.config p) &&
        (meets (request attribs) unread (dpy.config p) &&
          !assumed (request attribs) (dpy.config p))
  | some id, true => 0 < config_size ∧
      (config_size = 1 ∨ (dpy.m_configs.countP fun p => (dpy.config p).m_config_id == id) = 1)
  | some id, false => (dpy.m_configs.countP fun p => (dpy.config p).m_config_id == id) = 1

end EglDisplay

theorem readAttribs_pairs {attrib_list : Option (List EGLint)} {sel : Selection}
    (h : readAttribs attrib_list = .ok (sel, false)) :
    namedConfig (pairs (attrib_list.getD [])) = none ∧
      sel.get = request (pairs (attrib_list.getD [])) := by
  unfold readAttribs at h
  split at h
  · rename_i hnone
    cases h
    have hpairs : pairs (attrib_list.getD []) = [] := by
      match attrib_list with
      | none => rfl
      | some [] => rfl
      | some [_] => rfl
      | some (attrib :: value :: rest) =>
          have hattrib : attrib = EGL_NONE := by simpa [noAttribs] using hnone
          rw [Option.getD_some, pairs, if_pos hattrib]
    rw [hpairs]
    exact ⟨rfl, funext Selection.get_defaults⟩
  · grind [Selection.get_defaults, request, Selection.read_pairs]

theorem readAttribs_named {attrib_list : Option (List EGLint)} {sel : Selection}
    (h : readAttribs attrib_list = .ok (sel, true)) :
    namedConfig (pairs (attrib_list.getD [])) = some sel.config_id := by
  unfold readAttribs at h
  grind [Selection.read_named]

namespace EglDisplay

variable {dpy : EglDisplay} {attribs : List (EGLint × EGLint)} {config_size : Int}

theorem chooses_named {id : EGLint} (hnamed : namedConfig attribs = some id) {p : ConfigPtr}
    (hget : dpy.getConfig id = some p) (configs : Bool) :
    dpy.Chooses attribs configs config_size ⟨if configs then [p] else [], 1⟩ ↔
      dpy.Agrees attribs configs config_size := by
  have hmatching : dpy.matching attribs =
      dpy.m_configs.filter fun p => (dpy.config p).m_config_id == id := by
    simp only [matching, satisfies, hnamed]
  have hhead : (dpy.matching attribs).head? = some p := by
    rw [hmatching, List.head?_filter]
    exact hget
  obtain ⟨others, hothers⟩ := List.head?_eq_some_iff.mp hhead
  have hcount : (dpy.m_configs.countP fun p => (dpy.config p).m_config_id == id) =
      others.length + 1 := by grind
  unfold Chooses Agrees
  rw [hnamed, hothers]
  cases configs with
  | false => simp [hcount]
  | true =>
      simp only [if_true, hcount]
      cases hsize : config_size.toNat with
      | zero => simp; omega
      | succ n =>
          have hpos : 0 < config_size := by omega
          have hone : config_size = 1 ↔ n = 0 := by omega
          simp [hpos, hone]

theorem chooses_dummy (hnamed : namedConfig attribs = none) {sel : Selection}
    (hget : sel.get = request attribs) (configs : Bool) :
    dpy.Chooses attribs configs config_size
        ⟨(dpy.chooseConfigs sel.dummy configs config_size).1,
          (dpy.chooseConfigs sel.dummy configs config_size).2⟩ ↔
      dpy.Agrees attribs configs config_size := by
  have hsatisfies : satisfies attribs = fun config =>
      meets (request attribs) carried config && meets (request attribs) unread config := by
    funext config
    rw [← meets_all, satisfies, hnamed]
  have hchoosen (config : EglConfig) : config.choosen sel.dummy =
      (meets (request attribs) carried config && assumed (request attribs) config) := by
    rw [sel.choosen_dummy, hget]
  unfold Chooses Agrees chooseConfigs matching
  rw [hnamed]
  cases configs with
  | true =>
      have htake := take_filter_eq_iff (p := fun p => (dpy.config p).choosen sel.dummy)
        (q := fun p => satisfies attribs (dpy.config p)) dpy.distinct config_size.toNat
      simp only [if_true, chooseLoop_array, Int.natCast_zero, Int.sub_zero, Nat.zero_add, and_true]
      grind
  | false =>
      have hcount := countP_and_not dpy.m_configs
        (p := fun p => (dpy.config p).choosen sel.dummy)
        (q := fun p => satisfies attribs (dpy.config p))
      have hnot (c a b : Bool) : ((c && a) && !(c && b)) = (c && (a && !b)) := by
        cases c <;> rfl
      simp only [hsatisfies, hchoosen, hnot] at hcount
      simp only [chooseLoop_null, hsatisfies, hchoosen, ← List.countP_eq_length_filter,
        Bool.false_eq_true, if_false, true_and, Nat.zero_add]
      omega

end EglDisplay

/-- A call returns what its list asks for exactly where the attributes agree. -/
theorem eglChooseConfig_chooses {dpy : EglDisplay} {attrib_list : Option (List EGLint)}
    {configs : Bool} {config_size : Int} {num_config : Bool} {r : Chosen}
    (h : eglChooseConfig (some dpy) attrib_list configs config_size num_config = .ok r) :
    dpy.Chooses (pairs (attrib_list.getD [])) configs config_size r ↔
      dpy.Agrees (pairs (attrib_list.getD [])) configs config_size := by
  unfold eglChooseConfig at h
  dsimp only at h
  split at h
  · cases h
  · split at h
    · cases h
    · split at h
      · cases h
      · rename_i sel hread
        split at h
        · rename_i p hget
          cases h
          exact EglDisplay.chooses_named (readAttribs_named hread) hget configs
        · cases h
      · rename_i sel hread
        cases h
        obtain ⟨hnamed, hget⟩ := readAttribs_pairs hread
        exact EglDisplay.chooses_dummy hnamed hget configs

theorem eglChooseConfig_sublist {dpy : EglDisplay} {attrib_list : Option (List EGLint)}
    {config_size : Int} {r : Chosen}
    (h : eglChooseConfig (some dpy) attrib_list true config_size true = .ok r) :
    r.configs.Sublist dpy.m_configs := by
  rw [eglChooseConfig] at h
  dsimp only at h
  split at h
  · cases h
  · split at h
    · cases h
    · split at h
      · cases h
      · split at h
        · rename_i p hget
          cases h
          exact List.singleton_sublist.mpr (List.mem_of_find?_eq_some hget)
        · cases h
      · cases h
        rw [EglDisplay.chooseConfigs, EglDisplay.chooseLoop_array]
        exact (List.take_sublist _ _).trans List.filter_sublist

def rgb565 : EglConfig :=
  .new 5 6 5 0 EGL_NONE 1 16 0 1 EGL_OPENGL_ES_BIT 0 0 0 EGL_WINDOW_BIT EGL_NONE 0 0 0

def rgba8888 : EglConfig :=
  .new 8 8 8 8 EGL_NONE 2 24 0 1 EGL_OPENGL_ES_BIT 0 0 8 EGL_WINDOW_BIT EGL_NONE 0 0 0

def twoConfigs : EglDisplay where
  m_initialized := true
  m_configs := List.range 2
  config := fun p => if p = 0 then rgb565 else rgba8888
  distinct := List.nodup_range

/-- The red size is asked for twice, and reaches the dummy config. -/
theorem eglChooseConfig_chooses_red :
    eglChooseConfig (some twoConfigs) (some [0x3024, 4, 0x3024, 6, 0x3038]) true 2 true =
        .ok ⟨[1], 1⟩ ∧
      (twoConfigs.Chooses (pairs [0x3024, 4, 0x3024, 6, 0x3038]) true 2 ⟨[1], 1⟩ ↔
        twoConfigs.Agrees (pairs [0x3024, 4, 0x3024, 6, 0x3038]) true 2) := by
  have hcall : eglChooseConfig (some twoConfigs) (some [0x3024, 4, 0x3024, 6, 0x3038]) true 2 true =
      .ok ⟨[1], 1⟩ := by
    decide +kernel
  exact ⟨hcall, eglChooseConfig_chooses hcall⟩

/-- A buffer of 32 bits is asked for, and the config of 16 bits is returned too. -/
theorem buffer_size_ignored :
    ∃ r, eglChooseConfig (some twoConfigs) (some [0x3020, 32, 0x3038]) true 2 true = .ok r ∧
      ¬twoConfigs.Chooses (pairs [0x3020, 32, 0x3038]) true 2 r := by
  refine ⟨⟨[0, 1], 2⟩, by decide +kernel, fun h => ?_⟩
  have hconfigs : [0, 1] = (twoConfigs.matching (pairs [0x3020, 32, 0x3038])).take 2 := h.1
  exact absurd hconfigs (by decide +kernel)

end AndroidRenderer.Translator
