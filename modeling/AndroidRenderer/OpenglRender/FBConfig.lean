import AndroidRenderer.Lib.Buffer
import AndroidRenderer.Lib.LittleEndian
import AndroidRenderer.Lib.Scans
import AndroidRenderer.Translator.ChosenConfigs

/-!
# Configs of the renderer

`rcChooseConfig` edits the attribute list in the buffer that it got from the guest, up to the
`EGL_NONE` that it hopes for, hands a copy of it to EGL, and looks up in its own list of configs
those that EGL has chosen.
-/

namespace AndroidRenderer.OpenglRender

open Translator (EGLint EGL_NONE EGL_WINDOW_BIT ConfigPtr Criterion pairs)

def EGL_PBUFFER_BIT : EGLint := 0x0001
def EGL_SURFACE_TYPE : EGLint := 0x3033
def EGL_CONFIG_ID : EGLint := 0x3028

/-- What the functions of `s_egl` answer for the display: its configs, those that an attribute
list and the room for them choose, and the attributes of a config. -/
structure EGLDispatch where
  eglGetConfigs : Option (List ConfigPtr)
  eglChooseConfig : List EGLint → Nat → Option (List ConfigPtr)
  eglGetConfigAttrib : ConfigPtr → EGLint → EGLint

structure FBConfig where
  m_eglConfig : ConfigPtr
  m_attribValues : List EGLint

namespace FBConfig

def s_configAttribs : List EGLint :=
  [0x3025, -- `EGL_DEPTH_SIZE`
    0x3026, -- `EGL_STENCIL_SIZE`
    0x3040, -- `EGL_RENDERABLE_TYPE`
    EGL_SURFACE_TYPE,
    EGL_CONFIG_ID,
    0x3020, -- `EGL_BUFFER_SIZE`
    0x3021, -- `EGL_ALPHA_SIZE`
    0x3022, -- `EGL_BLUE_SIZE`
    0x3023, -- `EGL_GREEN_SIZE`
    0x3024, -- `EGL_RED_SIZE`
    0x3027, -- `EGL_CONFIG_CAVEAT`
    0x3029, -- `EGL_LEVEL`
    0x302A, -- `EGL_MAX_PBUFFER_HEIGHT`
    0x302B, -- `EGL_MAX_PBUFFER_PIXELS`
    0x302C, -- `EGL_MAX_PBUFFER_WIDTH`
    0x302D, -- `EGL_NATIVE_RENDERABLE`
    0x302E, -- `EGL_NATIVE_VISUAL_ID`
    0x302F, -- `EGL_NATIVE_VISUAL_TYPE`
    0x3031, -- `EGL_SAMPLES`
    0x3032, -- `EGL_SAMPLE_BUFFERS`
    0x3034, -- `EGL_TRANSPARENT_TYPE`
    0x3035, -- `EGL_TRANSPARENT_BLUE_VALUE`
    0x3036, -- `EGL_TRANSPARENT_GREEN_VALUE`
    0x3037, -- `EGL_TRANSPARENT_RED_VALUE`
    0x3039, -- `EGL_BIND_TO_TEXTURE_RGB`
    0x303A, -- `EGL_BIND_TO_TEXTURE_RGBA`
    0x303B, -- `EGL_MIN_SWAP_INTERVAL`
    0x303C, -- `EGL_MAX_SWAP_INTERVAL`
    0x303D, -- `EGL_LUMINANCE_SIZE`
    0x303E, -- `EGL_ALPHA_MASK_SIZE`
    0x303F, -- `EGL_COLOR_BUFFER_TYPE`
    0x3042] -- `EGL_CONFORMANT`

/-- The constructor; an attribute that EGL refuses counts as 0. -/
def new (s_egl : EGLDispatch) (p_eglCfg : ConfigPtr) : FBConfig where
  m_eglConfig := p_eglCfg
  m_attribValues := s_configAttribs.map fun attrib =>
    if attrib = EGL_SURFACE_TYPE then s_egl.eglGetConfigAttrib p_eglCfg attrib ||| EGL_WINDOW_BIT
    else s_egl.eglGetConfigAttrib p_eglCfg attrib

def configId (config : FBConfig) : EGLint := config.m_attribValues.getD 4 0

def supported (s_egl : EGLDispatch) (config : ConfigPtr) : Bool :=
  s_egl.eglGetConfigAttrib config EGL_SURFACE_TYPE &&& EGL_PBUFFER_BIT != 0 &&
    !(s_egl.eglGetConfigAttrib config 0x3024 == 0 || s_egl.eglGetConfigAttrib config 0x3023 == 0 ||
      s_egl.eglGetConfigAttrib config 0x3022 == 0 || s_egl.eglGetConfigAttrib config 0x3021 == 0)

/-- `s_fbConfigs`, unless it fails. -/
def initConfigList (s_egl : EGLDispatch) : Option (List FBConfig) :=
  match s_egl.eglGetConfigs with
  | none => none
  | some configs =>
      let s_fbConfigs := (configs.filter (supported s_egl)).map (new s_egl)
      if s_fbConfigs.length > 0 then some s_fbConfigs else none

end FBConfig

/-- What EGL promises: the configs of a display have different ids, and those that are chosen are
different ones of them. -/
structure EGLDispatch.Conforms (s_egl : EGLDispatch) (configs : List ConfigPtr) : Prop where
  eglGetConfigs : s_egl.eglGetConfigs = some configs
  ids : (configs.map fun c => s_egl.eglGetConfigAttrib c EGL_CONFIG_ID).Nodup
  chosen : ∀ attribs n matched, s_egl.eglChooseConfig attribs n = some matched →
    matched.Nodup ∧ ∀ c ∈ matched, c ∈ configs

/-- The renderer with its display and its configs, once it is initialized. -/
structure FBConfigs where
  s_egl : EGLDispatch
  configs : List ConfigPtr
  conforms : s_egl.Conforms configs
  s_fbConfigs : List FBConfig
  initialized : FBConfig.initConfigList s_egl = some s_fbConfigs

/-! ## chooseConfig -/

/-- `uninitialized` is a read of `matchedConfigs` where nothing was stored. -/
inductive ConfigFault
  | outOfBounds
  | uninitialized
  deriving DecidableEq, Repr

/-- The `EGLint`s of a buffer; bytes behind the last whole one belong to none. -/
def words : List UInt8 → List EGLint
  | a :: b :: c :: d :: rest => BitVec.ofNat 32 (LittleEndian.ofLE [a, b, c, d]) :: words rest
  | _ => []

/-- The buffer, `attribCnt` and `needToAddPbufAttr`. -/
structure Scanned where
  attribs : List EGLint
  attribCnt : Nat
  needToAddPbufAttr : Bool
  deriving DecidableEq, Repr

/-- The loop over the attributes. -/
def scan : List EGLint → Except ConfigFault Scanned
  | [] => .error .outOfBounds
  | [attrib] =>
      -- the value of `EGL_SURFACE_TYPE` is written, and the next attribute is read
      if attrib = EGL_NONE then .ok ⟨[attrib], 0, true⟩ else .error .outOfBounds
  | attrib :: value :: rest =>
      if attrib = EGL_NONE then .ok ⟨attrib :: value :: rest, 0, true⟩
      else
        match scan rest with
        | .error fault => .error fault
        | .ok s =>
            if attrib = EGL_SURFACE_TYPE then
              .ok ⟨attrib :: EGL_PBUFFER_BIT :: s.attribs, s.attribCnt + 2, false⟩
            else .ok ⟨attrib :: value :: s.attribs, s.attribCnt + 2, s.needToAddPbufAttr⟩

/-- The copy, which is allocated for the attributes that were counted. -/
def newAttribs (s : Scanned) : Option (List EGLint) := do
  let added := if s.needToAddPbufAttr then [EGL_SURFACE_TYPE, EGL_PBUFFER_BIT] else []
  let alloc := List.replicate (s.attribCnt + 1 + if s.needToAddPbufAttr then 2 else 0) 0
  let alloc ← Buffer.store? alloc 0 added
  let alloc ← Buffer.store? alloc added.length (s.attribs.take s.attribCnt)
  Buffer.store? alloc (added.length + s.attribCnt) [EGL_NONE]

/-- The loop over `matchedConfigs`, whose ids are given: what it stores in `configs`, if that is
not `NULL`, and `nVerifiedCfgs`. -/
def verify (s_fbConfigs : List FBConfig) (configs : Bool) (configs_size : Nat) :
    List EGLint → Nat → List (Nat × Nat) × Nat
  | [], nVerifiedCfgs => ([], nVerifiedCfgs)
  | sCfgId :: rest, nVerifiedCfgs =>
      if configs ∧ configs_size > 0 ∧ nVerifiedCfgs ≥ configs_size then ([], nVerifiedCfgs)
      else
        match (s_fbConfigs.map FBConfig.configId).idxOf? sCfgId with
        | none => verify s_fbConfigs configs configs_size rest nVerifiedCfgs
        | some fbIdx =>
            let r := verify s_fbConfigs configs configs_size rest (nVerifiedCfgs + 1)
            (if configs ∧ nVerifiedCfgs < configs_size then (nVerifiedCfgs, fbIdx) :: r.1 else r.1,
              r.2)

/-- The buffer of the attributes, what is stored in `configs`, and the result. -/
structure ConfigReply where
  attribs : List EGLint
  stores : List (Nat × Nat)
  result : Nat
  deriving DecidableEq, Repr

def chooseConfig (fb : FBConfigs) (attribs : Option (List EGLint)) (configs : Bool)
    (configs_size : Nat) : Except ConfigFault ConfigReply :=
  match fb.s_egl.eglGetConfigs with
  | none => .ok ⟨attribs.getD [], [], 0⟩
  | some all =>
      match attribs.elim (.ok ⟨[], 0, true⟩) scan with
      | .error fault => .error fault
      | .ok s =>
          match newAttribs s with
          | none => .error .outOfBounds
          | some copy =>
              match fb.s_egl.eglChooseConfig copy all.length with
              | none =>
                  -- `nConfigs` is still the number of all configs
                  if all.length > 0 then .error .uninitialized else .ok ⟨s.attribs, [], 0⟩
              | some matchedConfigs =>
                  let r := verify fb.s_fbConfigs configs configs_size (matchedConfigs.map fun c =>
                    fb.s_egl.eglGetConfigAttrib c EGL_CONFIG_ID) 0
                  .ok ⟨s.attribs, r.1, r.2⟩

/-- `attribs` are the bytes of the guest, of which there are `attribs_size`. -/
def rcChooseConfig (fb : Option FBConfigs) (attribs : Option (List UInt8)) (configs : Bool)
    (configs_size : UInt32) : Except ConfigFault ConfigReply :=
  match fb with
  | none => .ok ⟨(attribs.map words).getD [], [], 0⟩
  | some fb => chooseConfig fb (attribs.map words) configs configs_size.toNat

/-! ## The attribute list -/

/-- There is an `EGL_NONE` where the loop looks for one, inside the buffer. -/
def Terminated (attribs : List EGLint) : Prop := ∃ k, attribs[2 * k]? = some EGL_NONE

/-- All surfaces are pbuffers. -/
def force (pair : EGLint × EGLint) : EGLint × EGLint :=
  if pair.1 = EGL_SURFACE_TYPE then (pair.1, EGL_PBUFFER_BIT) else pair

def asksForSurfaces (attribs : List (EGLint × EGLint)) : Bool :=
  attribs.any fun pair => pair.1 == EGL_SURFACE_TYPE

def flatten (attribs : List (EGLint × EGLint)) : List EGLint :=
  attribs.flatMap fun pair => [pair.1, pair.2]

/-- What EGL is asked for: what the list says, but for pbuffers. -/
def requested (attribs : List EGLint) : List EGLint :=
  (if asksForSurfaces (pairs attribs) then [] else [EGL_SURFACE_TYPE, EGL_PBUFFER_BIT]) ++
    flatten ((pairs attribs).map force) ++ [EGL_NONE]

theorem terminated_cons_cons {attrib value : EGLint} {rest : List EGLint}
    (hnone : attrib ≠ EGL_NONE) : Terminated (attrib :: value :: rest) ↔ Terminated rest := by
  constructor
  · rintro ⟨k, hk⟩
    cases k with
    | zero => exact absurd (Option.some.inj hk) hnone
    | succ k => exact ⟨k, hk⟩
  · rintro ⟨k, hk⟩
    exact ⟨k + 1, hk⟩

@[simp] theorem flatten_length (attribs : List (EGLint × EGLint)) :
    (flatten attribs).length = 2 * attribs.length := by
  induction attribs with
  | nil => rfl
  | cons pair attribs ih =>
      rw [flatten, List.flatMap_cons, List.length_append, ← flatten, ih, List.length_cons]
      grind

/-- What the loop has done where it ends: it edited the pairs in place and counted them. -/
structure Scans (attribs : List EGLint) (s : Scanned) : Prop where
  edited : ∃ rest, s.attribs = flatten ((pairs attribs).map force) ++ rest
  count : s.attribCnt = 2 * (pairs attribs).length
  need : s.needToAddPbufAttr = !asksForSurfaces (pairs attribs)

theorem Scans.first {attrib : EGLint} {rest : List EGLint} (hnone : attrib = EGL_NONE) :
    Scans (attrib :: rest) ⟨attrib :: rest, 0, true⟩ := by
  have hpairs : pairs (attrib :: rest) = [] := by
    cases rest with
    | nil => rfl
    | cons value rest => exact if_pos hnone
  constructor
  · rw [hpairs]
    exact ⟨_, rfl⟩
  · rw [hpairs]
    rfl
  · rw [hpairs]
    rfl

theorem Scans.cons {attrib value : EGLint} {rest : List EGLint} {s : Scanned}
    (hnone : attrib ≠ EGL_NONE) (h : Scans rest s) :
    Scans (attrib :: value :: rest)
      ⟨attrib :: (force (attrib, value)).2 :: s.attribs, s.attribCnt + 2,
        !(attrib == EGL_SURFACE_TYPE) && s.needToAddPbufAttr⟩ := by
  obtain ⟨⟨back, hedited⟩, hcount, hneed⟩ := h
  have hpairs : pairs (attrib :: value :: rest) = (attrib, value) :: pairs rest := if_neg hnone
  have hforce : (force (attrib, value)).1 = attrib := by
    rw [force]
    split <;> rfl
  constructor
  · refine ⟨back, ?_⟩
    rw [hpairs, List.map_cons, flatten, List.flatMap_cons, hforce, ← flatten]
    exact congrArg (attrib :: (force (attrib, value)).2 :: ·) hedited
  · grind
  · rw [hpairs, hneed, asksForSurfaces, asksForSurfaces, List.any_cons, Bool.not_or]

/-- The loop ends inside the buffer, or it runs out of it. -/
theorem scan_spec (attribs : List EGLint) :
    (Terminated attribs ∧ ∃ s, scan attribs = .ok s ∧ Scans attribs s) ∨
      (¬Terminated attribs ∧ scan attribs = .error .outOfBounds) := by
  fun_induction scan attribs with
  | case1 =>
      right
      exact ⟨fun ⟨k, hk⟩ => absurd hk (by simp), rfl⟩
  | case2 =>
      left
      exact ⟨⟨0, rfl⟩, _, rfl, .first rfl⟩
  | case3 attrib hnone =>
      right
      refine ⟨?_, rfl⟩
      rintro ⟨k, hk⟩
      grind
  | case4 value rest =>
      left
      exact ⟨⟨0, rfl⟩, _, rfl, .first rfl⟩
  | case5 attrib value rest hnone fault hfault ih => grind [terminated_cons_cons]
  | case6 value rest s hs hnone ih =>
      left
      obtain ⟨hterm, s', hs', hscans⟩ | ⟨-, herror⟩ := ih
      · obtain rfl := Except.ok.inj (hs.symm.trans hs')
        exact ⟨(terminated_cons_cons hnone).mpr hterm, _, rfl, hscans.cons hnone⟩
      · grind
  | case7 attrib value rest hnone s hs hsurface ih =>
      left
      obtain ⟨hterm, s', hs', hscans⟩ | ⟨-, herror⟩ := ih
      · obtain rfl := Except.ok.inj (hs.symm.trans hs')
        refine ⟨(terminated_cons_cons hnone).mpr hterm, _, rfl, ?_⟩
        have hcons := @Scans.cons attrib value rest s hnone hscans
        rwa [force, if_neg hsurface, beq_false_of_ne hsurface, Bool.not_false,
          Bool.true_and] at hcons
      · rw [hs] at herror
        cases herror

/-- The copy is as long as its allocation. -/
theorem newAttribs_eq {attribs : List EGLint} {s : Scanned} (h : Scans attribs s) :
    newAttribs s = some (requested attribs) := by
  obtain ⟨⟨rest, hedited⟩, hcount, hneed⟩ := h
  have htake : s.attribs.take s.attribCnt = flatten ((pairs attribs).map force) := by
    simp [List.length_map, hedited, hcount]
  have hlength : (flatten ((pairs attribs).map force)).length = s.attribCnt := by
    rw [flatten_length, List.length_map, hcount]
  have hinner (added alloc : List EGLint) :
      ((Buffer.store? alloc added.length (s.attribs.take s.attribCnt)).bind fun alloc =>
        Buffer.store? alloc (added.length + s.attribCnt) [EGL_NONE]) =
      Buffer.store? alloc added.length (flatten ((pairs attribs).map force) ++ [EGL_NONE]) := by
    rw [← Buffer.store?_bind_store?, htake, hlength]
  have houter (added alloc : List EGLint) :
      ((Buffer.store? alloc 0 added).bind fun alloc =>
        Buffer.store? alloc added.length (flatten ((pairs attribs).map force) ++ [EGL_NONE])) =
      Buffer.store? alloc 0 (added ++ (flatten ((pairs attribs).map force) ++ [EGL_NONE])) := by
    rw [← Buffer.store?_bind_store?, Nat.zero_add]
  simp only [newAttribs, Option.bind_eq_bind, hinner, houter]
  rw [requested, List.append_assoc, hneed]
  cases asksForSurfaces (pairs attribs) with
  | false =>
      apply Buffer.store?_whole
      simp [hlength]
  | true =>
      apply Buffer.store?_whole
      simp [hlength]

/-! ## Both lists -/

section Verify

open Positions (positions)

variable (s_fbConfigs : List FBConfig)

/-- Without room for them, all matches are counted. -/
theorem verify_count {configs : Bool} {configs_size : Nat}
    (h : ¬(configs = true ∧ configs_size > 0)) (ids : List EGLint) (n : Nat) :
    verify s_fbConfigs configs configs_size ids n =
      ([], n + (positions (s_fbConfigs.map FBConfig.configId) ids).length) := by
  induction ids generalizing n with
  | nil => rfl
  | cons id ids ih =>
      rw [verify, if_neg fun hstop => h ⟨hstop.1, hstop.2.1⟩, positions, List.filterMap_cons]
      cases (s_fbConfigs.map FBConfig.configId).idxOf? id with
      | none => exact ih n
      | some fbIdx =>
          have hfull : ¬(configs = true ∧ n < configs_size) := fun hroom =>
            h ⟨hroom.1, Nat.zero_lt_of_lt hroom.2⟩
          dsimp only
          rw [ih, if_neg hfull, List.length_cons, positions, Nat.add_right_comm, Nat.add_assoc]

/-- With some room, the first matches are stored one behind the other, until it is full. -/
theorem verify_room {configs_size : Nat} (hsize : configs_size > 0) (ids : List EGLint) {n : Nat}
    (hn : n ≤ configs_size) :
    let found := (positions (s_fbConfigs.map FBConfig.configId) ids).take (configs_size - n)
    verify s_fbConfigs true configs_size ids n =
      ((List.range' n found.length).zip found, n + found.length) := by
  induction ids generalizing n with
  | nil => simp [verify, positions]
  | cons id ids ih =>
      intro found
      obtain hfull | hroom := Nat.eq_or_lt_of_le hn
      · have hfound : found = [] := by
          simp only [found, hfull, Nat.sub_self, List.take_zero]
        rw [verify, if_pos ⟨rfl, hsize, Nat.le_of_eq hfull.symm⟩, hfound]
        rfl
      · have hstop : ¬(true = true ∧ configs_size > 0 ∧ n ≥ configs_size) := fun h =>
          absurd h.2.2 (Nat.not_le.mpr hroom)
        rw [verify, if_neg hstop]
        simp only [found, positions, List.filterMap_cons]
        cases (s_fbConfigs.map FBConfig.configId).idxOf? id with
        | none => exact ih hn
        | some fbIdx =>
            have hrest := ih (n := n + 1) hroom
            have hleft : configs_size - n = configs_size - (n + 1) + 1 := by omega
            dsimp only at hrest ⊢
            rw [hrest, if_pos ⟨trivial, hroom⟩, hleft, List.take_succ_cons, List.length_cons,
              List.range'_succ, List.zip_cons_cons, positions, Nat.add_right_comm, Nat.add_assoc]

end Verify

/-! ## What a call must do -/

namespace FBConfigs

def configIds (fb : FBConfigs) (configs : List ConfigPtr) : List EGLint :=
  configs.map fun c => fb.s_egl.eglGetConfigAttrib c EGL_CONFIG_ID

/-- What EGL answers to the list. -/
def chosen (fb : FBConfigs) (attribs : List EGLint) : Option (List ConfigPtr) :=
  fb.s_egl.eglChooseConfig (requested attribs) fb.configs.length

theorem lawfulBEq_EGLint : LawfulBEq EGLint :=
  inferInstance

attribute [local instance] lawfulBEq_EGLint

def matching (fb : FBConfigs) (attribs : List EGLint) : List FBConfig :=
  fb.s_fbConfigs.filter fun config =>
    config.configId ∈ fb.configIds ((fb.chosen attribs).getD [])

end FBConfigs

/-- The stores are in the array, which they fill from the front with different indices of matching
configs, and all matching configs are counted unless the room ends first. -/
structure Selected (s_fbConfigs matching : List FBConfig) (configs : Bool) (configs_size : Nat)
    (r : ConfigReply) : Prop where
  inside : ∀ store ∈ r.stores, configs = true ∧ store.1 < configs_size
  indices : ∀ store ∈ r.stores, ∃ config ∈ matching, s_fbConfigs[store.2]? = some config
  distinct : (r.stores.map Prod.snd).Nodup
  filled : r.stores.map Prod.fst =
    List.range (if configs then min matching.length configs_size else 0)
  result : r.result =
    if configs = true ∧ configs_size > 0 then min matching.length configs_size else matching.length

/-- A call goes through, without an access outside the buffers, and selects. -/
def Selects (fb : Option FBConfigs) (attribs : Option (List UInt8)) (configs : Bool)
    (configs_size : UInt32) : Prop :=
  ∃ r, rcChooseConfig fb attribs configs configs_size = .ok r ∧
    Selected (fb.elim [] FBConfigs.s_fbConfigs)
      (fb.elim [] fun fb => fb.matching ((attribs.map words).getD [])) configs configs_size.toNat r

namespace FBConfigs

variable (fb : FBConfigs)

theorem s_fbConfigs_eq :
    fb.s_fbConfigs = (fb.configs.filter (FBConfig.supported fb.s_egl)).map (.new fb.s_egl) ∧
      0 < fb.s_fbConfigs.length := by
  have hinit := fb.initialized
  rw [FBConfig.initConfigList, fb.conforms.eglGetConfigs] at hinit
  grind

theorem configs_pos : 0 < fb.configs.length := by
  obtain ⟨heq, hpos⟩ := fb.s_fbConfigs_eq
  rw [heq, List.length_map] at hpos
  exact Nat.lt_of_lt_of_le hpos (List.length_filter_le _ _)

/-- The configs of the renderer have different ids. -/
theorem configId_nodup : (fb.s_fbConfigs.map FBConfig.configId).Nodup := by
  rw [fb.s_fbConfigs_eq.1, List.map_map]
  exact fb.conforms.ids.sublist (List.filter_sublist.map _)

theorem chosen_nodup {attribs : List EGLint} {matched : List ConfigPtr}
    (h : fb.chosen attribs = some matched) : (fb.configIds matched).Nodup := by
  obtain ⟨hnodup, hmem⟩ := fb.conforms.chosen _ _ _ h
  apply List.Nodup.map_on _ hnodup
  intro a ha b hb heq
  exact List.inj_on_of_nodup_map fb.conforms.ids (hmem a ha) (hmem b hb) heq

/-- The intersection of both lists is what is asked for. -/
theorem verify_selected {attribs : List EGLint} {matched : List ConfigPtr}
    (h : fb.chosen attribs = some matched) (edited : List EGLint) (configs : Bool)
    (configs_size : Nat) :
    Selected fb.s_fbConfigs (fb.matching attribs) configs configs_size
      ⟨edited, (verify fb.s_fbConfigs configs configs_size (fb.configIds matched) 0).1,
        (verify fb.s_fbConfigs configs configs_size (fb.configIds matched) 0).2⟩ := by
  let found := Positions.positions (fb.s_fbConfigs.map FBConfig.configId) (fb.configIds matched)
  have hnodup : found.Nodup := Positions.positions_nodup (fb.chosen_nodup h)
  have hlength : found.length = (fb.matching attribs).length := by
    have hids := Positions.positions_length (fb.chosen_nodup h) fb.configId_nodup
    rw [List.filter_map, List.length_map] at hids
    rw [matching, h, Option.getD_some]
    exact hids
  have hindex : ∀ i ∈ found, ∃ config ∈ fb.matching attribs, fb.s_fbConfigs[i]? = some config := by
    intro i hi
    obtain ⟨id, hid, hget⟩ := Positions.mem_positions hi
    rw [List.getElem?_map] at hget
    obtain ⟨config, hconfig, rfl⟩ := Option.map_eq_some_iff.mp hget
    refine ⟨config, ?_, hconfig⟩
    rw [matching, h, Option.getD_some, List.mem_filter, decide_eq_true_iff]
    exact ⟨List.mem_of_getElem? hconfig, hid⟩
  by_cases hroom : configs = true ∧ configs_size > 0
  · obtain ⟨rfl, hsize⟩ := hroom
    rw [verify_room fb.s_fbConfigs hsize (fb.configIds matched) (Nat.zero_le _)]
    dsimp only
    rw [Nat.sub_zero, Nat.zero_add]
    change Selected _ _ _ _ ⟨_, (List.range' 0 (found.take configs_size).length).zip
      (found.take configs_size), (found.take configs_size).length⟩
    have hcount : (found.take configs_size).length =
        min (fb.matching attribs).length configs_size := by
      rw [List.length_take, hlength, Nat.min_comm]
    constructor
    · intro store hstore
      have hfirst := List.mem_range'_1.mp (List.of_mem_zip hstore).1
      grind
    · intro store hstore
      exact hindex store.2 (List.mem_of_mem_take (List.of_mem_zip hstore).2)
    · rw [List.map_snd_zip (by rw [List.length_range'])]
      exact hnodup.sublist (List.take_sublist _ _)
    · grind [List.map_fst_zip, List.range_eq_range']
    · grind
  · rw [verify_count _ hroom]
    constructor
    · exact fun _ h => absurd h List.not_mem_nil
    · exact fun _ h => absurd h List.not_mem_nil
    · exact List.nodup_nil
    · grind
    · grind

/-- EGL takes the list. -/
def Accepts (attribs : List EGLint) : Prop := (fb.chosen attribs).isSome

/-- What a call does once the list is read. -/
theorem chooseConfig_scanned {attribs : Option (List EGLint)} {s : Scanned}
    (hread : attribs.elim (.ok ⟨[], 0, true⟩) scan = .ok s) (hs : Scans (attribs.getD []) s)
    (configs : Bool) (configs_size : Nat) :
    chooseConfig fb attribs configs configs_size =
      (fb.chosen (attribs.getD [])).elim (.error .uninitialized) fun matched =>
        .ok ⟨s.attribs, (verify fb.s_fbConfigs configs configs_size (fb.configIds matched) 0).1,
          (verify fb.s_fbConfigs configs configs_size (fb.configIds matched) 0).2⟩ := by
  rw [chooseConfig, fb.conforms.eglGetConfigs, hread]
  dsimp only
  rw [newAttribs_eq hs]
  dsimp only
  rw [← chosen]
  cases fb.chosen (attribs.getD []) with
  | none => exact if_pos fb.configs_pos
  | some matched => rfl

end FBConfigs

/-- The list is read, or the loop runs out of its buffer. -/
theorem read_spec (attribs : Option (List EGLint)) :
    ((∀ list ∈ attribs, Terminated list) ∧ ∃ s, attribs.elim (.ok ⟨[], 0, true⟩) scan = .ok s ∧
        Scans (attribs.getD []) s) ∨
      (¬(∀ list ∈ attribs, Terminated list) ∧
        attribs.elim (.ok ⟨[], 0, true⟩) scan = .error .outOfBounds) := by
  cases attribs with
  | none =>
      left
      exact ⟨fun _ h => absurd h (Option.not_mem_none _), _, rfl, ⟨[], rfl⟩, rfl, rfl⟩
  | some list => simp [scan_spec]

theorem selected_nothing (configs : Bool) (configs_size : Nat) (attribs : List EGLint) :
    Selected [] [] configs configs_size ⟨attribs, [], 0⟩ := by
  constructor
  · exact fun _ h => absurd h List.not_mem_nil
  · exact fun _ h => absurd h List.not_mem_nil
  · exact List.nodup_nil
  · simp
  · simp

/-- Exactly when a call selects: the list ends inside its buffer, and EGL takes it. -/
theorem rcChooseConfig_selects_iff (fb : Option FBConfigs) (attribs : Option (List UInt8))
    (configs : Bool) (configs_size : UInt32) :
    Selects fb attribs configs configs_size ↔
      ∀ b ∈ fb, (∀ bytes ∈ attribs, Terminated (words bytes)) ∧
        b.Accepts ((attribs.map words).getD []) := by
  have hlists : (∀ list ∈ attribs.map words, Terminated list) ↔
      ∀ bytes ∈ attribs, Terminated (words bytes) := by
    cases attribs <;> simp
  cases fb with
  | none =>
      constructor
      · exact fun _ b hb => absurd hb (Option.not_mem_none _)
      · exact fun _ => ⟨_, rfl, selected_nothing configs configs_size.toNat _⟩
  | some fb =>
      have hcall : rcChooseConfig (some fb) attribs configs configs_size =
        chooseConfig fb (attribs.map words) configs configs_size.toNat := rfl
      simp only [Option.mem_some_iff, forall_eq']
      rw [← hlists, Selects, hcall]
      obtain ⟨hterm, s, hread, hs⟩ | ⟨hopen, herror⟩ := read_spec (attribs.map words)
      · rw [fb.chooseConfig_scanned hread hs, and_iff_right hterm, FBConfigs.Accepts]
        cases hchosen : fb.chosen ((attribs.map words).getD []) with
        | none =>
            constructor
            · rintro ⟨r, hr, -⟩
              cases hr
            · exact fun h => absurd h Bool.false_ne_true
        | some matched =>
            constructor
            · exact fun _ => rfl
            · exact fun _ => ⟨_, rfl, fb.verify_selected hchosen s.attribs configs _⟩
      · constructor
        · rintro ⟨r, hr, -⟩
          rw [chooseConfig, fb.conforms.eglGetConfigs, herror] at hr
          cases hr
        · exact fun h => absurd h.1 hopen

/-! ## The configs of the translator -/

section Translator

open Translator (EglDisplay EglConfig)

/-- The EGL of the translator; attributes that no list may ask for are left out. -/
def translatorEgl (dpy : EglDisplay) : EGLDispatch where
  eglGetConfigs := some dpy.m_configs
  eglChooseConfig attribs n :=
    match Translator.eglChooseConfig (some dpy) (some attribs) true n true with
    | .ok r => some r.configs
    | .error _ => none
  eglGetConfigAttrib p attrib :=
    ((Criterion.ofValue? attrib).map (dpy.config p).getConfAttrib).getD 0

/-- It keeps what EGL promises. -/
theorem translatorEgl_conforms (dpy : EglDisplay)
    (hids : (dpy.m_configs.map fun p => (dpy.config p).m_config_id).Nodup) :
    (translatorEgl dpy).Conforms dpy.m_configs := by
  refine ⟨rfl, hids, ?_⟩
  intro attribs n matched h
  dsimp only [translatorEgl] at h
  split at h
  · rename_i r hr
    obtain rfl := Option.some.inj h
    have hsub := Translator.eglChooseConfig_sublist hr
    exact ⟨dpy.distinct.sublist hsub, fun _ hc => hsub.subset hc⟩
  · cases h

def pbufferConfigs : EglDisplay where
  m_initialized := true
  m_configs := [0, 1]
  config p :=
    if p = 0 then .new 5 6 5 0 EGL_NONE 1 16 0 1 1 0 0 0 EGL_PBUFFER_BIT EGL_NONE 0 0 0
    else .new 8 8 8 8 EGL_NONE 2 24 0 1 1 0 0 8 EGL_PBUFFER_BIT EGL_NONE 0 0 0
  distinct := by decide

/-- Only the config of 32 bits is supported. -/
def oneFBConfig : FBConfigs where
  s_egl := translatorEgl pbufferConfigs
  configs := [0, 1]
  conforms := translatorEgl_conforms pbufferConfigs (by decide)
  s_fbConfigs := [.new (translatorEgl pbufferConfigs) 1]
  initialized := rfl

/-- A list of `EGL_NONE` alone, and room for one config. -/
theorem selects_none : Selects (some oneFBConfig) (some [0x38, 0x30, 0, 0]) true 1 := by
  apply (rcChooseConfig_selects_iff _ _ _ _).mpr
  intro b hb
  obtain rfl := Option.some.inj hb
  refine ⟨?_, ?_⟩
  · intro bytes hbytes
    obtain rfl := Option.some.inj hbytes
    exact ⟨0, rfl⟩
  · rw [FBConfigs.Accepts]
    decide +kernel

/-- The guest sends no attributes for a list that is `NULL`, and no `EGL_NONE`. -/
theorem not_selects_empty : ¬Selects (some oneFBConfig) (some []) true 1 := by
  rintro ⟨r, hr, -⟩
  cases hr

end Translator

end AndroidRenderer.OpenglRender
