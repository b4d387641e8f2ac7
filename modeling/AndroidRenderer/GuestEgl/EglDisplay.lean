import AndroidRenderer.GuestEgl.Egl
import AndroidRenderer.Lib.KeyedVector
import Mathlib.Tactic.Linarith

/-!
# The table of configs

`eglDisplay` keeps the attributes of the configs of the host in one array, by rows. The numbers
of configs and attributes are set before the array is filled, and stay when it is freed; which
column an attribute has is only known once an `initialize` has gone through. `VALIDATE_CONFIG`
takes the number of configs itself for a config.
-/

namespace AndroidRenderer.GuestEgl

def ATTRIBUTE_NONE : EGLint := -1
def EGL_TRUE : EGLint := 1
def EGL_ALPHA_SIZE : EGLint := 0x3021
def EGL_BLUE_SIZE : EGLint := 0x3022
def EGL_GREEN_SIZE : EGLint := 0x3023
def EGL_RED_SIZE : EGLint := 0x3024
def EGL_NATIVE_VISUAL_ID : EGLint := 0x302E

/-- What the host and the allocator answer to an `initialize`. -/
structure InitAnswers where
  glesIface : Bool
  rcEncoder : Bool
  rcGetEGLVersion : EGLint
  rcGetNumConfigs : EGLint
  numConfigAttribs : EGLint
  /-- there is memory for the array -/
  allocated : Bool
  junk : Nat → EGLint
  rcGetConfigs : EGLint
  tmp_buf : Nat → EGLint

structure eglDisplay where
  m_initialized : Bool
  m_numConfigs : EGLint
  m_numConfigAttribs : EGLint
  m_attribs : KeyedVector EGLint EGLint
  m_configs : Option (List EGLint)

namespace eglDisplay

def initial : eglDisplay := ⟨false, 0, 0, .empty, none⟩

/-! ## Accesses -/

/-- `m_attribs.valueFor(attrib)` -/
def valueFor (d : eglDisplay) (attrib : EGLint) : EGLint :=
  (d.m_attribs.get? attrib).getD ATTRIBUTE_NONE

/-- `m_configs + (int)config*m_numConfigAttribs + attribIdx`, with the array. -/
def element (d : eglDisplay) (config attribIdx : EGLint) : Except MemoryFault (List EGLint × Nat) :=
  match d.m_configs with
  | none => .error .outOfBounds
  | some configs =>
      let i := GLint (config * d.m_numConfigAttribs) + attribIdx
      if 0 ≤ i ∧ i < configs.length then .ok (configs, i.toNat) else .error .outOfBounds

/-- `getAttribValue`, `none` for `EGL_FALSE`. -/
def getAttribValue (d : eglDisplay) (config attribIdx : EGLint) :
    Except MemoryFault (Option EGLint) :=
  if attribIdx = ATTRIBUTE_NONE then .ok none
  else (d.element config attribIdx).map fun e => e.1[e.2]?

def setAttribValue (d : eglDisplay) (config attribIdx value : EGLint) :
    Except MemoryFault eglDisplay :=
  if attribIdx = ATTRIBUTE_NONE then .ok d
  else (d.element config attribIdx).map fun e => { d with m_configs := some (e.1.set e.2 value) }

def getConfigAttrib (d : eglDisplay) (config attrib : EGLint) :
    Except MemoryFault (Option EGLint) :=
  d.getAttribValue config (d.valueFor attrib)

def setConfigAttrib (d : eglDisplay) (config attrib value : EGLint) :
    Except MemoryFault eglDisplay :=
  d.setAttribValue config (d.valueFor attrib) value

/-- The `PixelFormat` for sizes of components. -/
def nativePixelFormat (redSize blueSize greenSize alphaSize : EGLint) : Option EGLint :=
  if redSize = 8 ∧ greenSize = 8 ∧ blueSize = 8 ∧ alphaSize = 8 then some 1
  else if redSize = 8 ∧ greenSize = 8 ∧ blueSize = 8 ∧ alphaSize = 0 then some 2
  else if redSize = 5 ∧ greenSize = 6 ∧ blueSize = 5 ∧ alphaSize = 0 then some 4
  else if redSize = 5 ∧ greenSize = 5 ∧ blueSize = 5 ∧ alphaSize = 1 then some 6
  else if redSize = 4 ∧ greenSize = 4 ∧ blueSize = 4 ∧ alphaSize = 4 then some 7
  else none

def getConfigNativePixelFormat (d : eglDisplay) (config : EGLint) :
    Except MemoryFault (Option EGLint) := do
  let some redSize ← d.getConfigAttrib config EGL_RED_SIZE | return none
  let some blueSize ← d.getConfigAttrib config EGL_BLUE_SIZE | return none
  let some greenSize ← d.getConfigAttrib config EGL_GREEN_SIZE | return none
  let some alphaSize ← d.getConfigAttrib config EGL_ALPHA_SIZE | return none
  return nativePixelFormat redSize blueSize greenSize alphaSize

/-- The turn of `processConfigs` for a config. -/
def processConfig (d : eglDisplay) (i : Nat) : Except MemoryFault eglDisplay := do
  match ← d.getConfigNativePixelFormat i with
  | some format => d.setConfigAttrib i EGL_NATIVE_VISUAL_ID format
  | none => return d

def processConfigs (d : eglDisplay) : Except MemoryFault eglDisplay :=
  (List.range d.m_numConfigs.toNat).foldlM processConfig d

/-- `VALIDATE_CONFIG` -/
def validatesConfig (d : eglDisplay) (config : EGLint) : Bool :=
  !(config < 0 || d.m_numConfigs < config)

/-! ## Calls -/

/-- The elements that the array is allocated with, `nInts-m_numConfigAttribs`. -/
def arraySize (numConfigs numConfigAttribs : EGLint) : Int :=
  (numConfigAttribs * (numConfigs + 1) % 2 ^ 32 - numConfigAttribs) % 2 ^ 32

/-- The columns that the first row of `tmp_buf` gives to the attributes. -/
def addAttribs (attribs : KeyedVector EGLint EGLint) (tmp_buf : Nat → EGLint) (n : Nat) :
    KeyedVector EGLint EGLint :=
  (List.range n).foldl (fun attribs i => attribs.add (tmp_buf i) i) attribs

/-- `eglDisplay::initialize`; `new` has no array of 4 GiB. -/
def initializeDisplay (d : eglDisplay) (a : InitAnswers) : Except MemoryFault eglDisplay :=
  if d.m_initialized then d.processConfigs
  else if !a.glesIface then .ok d
  else if !a.rcEncoder then .ok d
  else if a.rcGetEGLVersion ≠ EGL_TRUE then .ok d
  else
    let m_numConfigs := GLint a.rcGetNumConfigs
    let m_numConfigAttribs := GLint a.numConfigAttribs
    let d := { d with m_numConfigs := m_numConfigs, m_numConfigAttribs := m_numConfigAttribs }
    if m_numConfigs ≤ 0 ∨ m_numConfigAttribs ≤ 0 then .ok d
    else
      let size := arraySize m_numConfigs m_numConfigAttribs
      if !a.allocated || decide (2 ^ 30 ≤ size) then .ok { d with m_configs := none }
      else if a.rcGetConfigs ≠ m_numConfigs then
        .ok { d with m_configs := some ((List.range size.toNat).map a.junk) }
      else
        processConfigs { d with
          m_initialized := true
          m_attribs := addAttribs d.m_attribs a.tmp_buf m_numConfigAttribs.toNat
          m_configs := some ((List.range size.toNat).map fun i =>
            a.tmp_buf (m_numConfigAttribs.toNat + i)) }

def terminate (d : eglDisplay) : eglDisplay :=
  if d.m_initialized then { d with m_initialized := false, m_configs := none } else d

inductive Call
  | initializeDisplay (a : InitAnswers)
  | terminate

def step (d : eglDisplay) : Call → Except MemoryFault eglDisplay
  | .initializeDisplay a => d.initializeDisplay a
  | .terminate => .ok d.terminate

/-- No access to an attribute of a config that `VALIDATE_CONFIG` takes is a fault. -/
def InBounds (d : eglDisplay) : Prop :=
  ∀ config, d.validatesConfig config = true →
    (∀ attrib, ∃ r, d.getConfigAttrib config attrib = .ok r) ∧
    (∀ attrib value, ∃ r, d.setConfigAttrib config attrib value = .ok r) ∧
    ∃ r, d.getConfigNativePixelFormat config = .ok r

/-- A run goes through, and accesses are in bounds in each of its states. -/
def RunInBounds (d : eglDisplay) (calls : List Call) : Prop :=
  ∀ pre, pre <+: calls → ∃ d', pre.foldlM step d = .ok d' ∧ d'.InBounds

/-- The answers with which the first `initialize` goes through. -/
structure GoesThrough (a : InitAnswers) : Prop where
  glesIface : a.glesIface = true
  rcEncoder : a.rcEncoder = true
  version : a.rcGetEGLVersion = EGL_TRUE
  numConfigs : 0 < GLint a.rcGetNumConfigs
  numConfigAttribs : 0 < GLint a.numConfigAttribs
  allocated : a.allocated = true
  size : arraySize (GLint a.rcGetNumConfigs) (GLint a.numConfigAttribs) < 2 ^ 30
  configs : a.rcGetConfigs = GLint a.rcGetNumConfigs

/-! ## Before an `initialize` has gone through -/

variable {d d' : eglDisplay}

/-- No column is known. -/
structure Idle (d : eglDisplay) : Prop where
  initialized : d.m_initialized = false
  attribs : d.m_attribs = .empty

theorem Idle.inBounds (h : Idle d) : d.InBounds := by
  have hnone : ∀ attrib, d.valueFor attrib = ATTRIBUTE_NONE := fun attrib => by
    rw [valueFor, h.attribs]
    rfl
  refine fun config _ => ⟨fun attrib => ⟨none, ?_⟩, fun attrib value => ⟨d, ?_⟩, none, ?_⟩
  · rw [getConfigAttrib, hnone]
    rfl
  · rw [setConfigAttrib, hnone]
    rfl
  · rw [getConfigNativePixelFormat, getConfigAttrib, hnone]
    rfl

theorem Idle.step (h : Idle d) {c : Call} (hc : ∀ a, c = .initializeDisplay a → ¬GoesThrough a) :
    ∃ d', step d c = .ok d' ∧ Idle d' := by
  obtain ⟨hinitialized, hattribs⟩ := h
  cases c with
  | terminate =>
      exact ⟨d, by rw [eglDisplay.step, terminate, hinitialized]; rfl, ⟨hinitialized, hattribs⟩⟩
  | initializeDisplay a =>
      rw [eglDisplay.step, initializeDisplay, hinitialized]
      dsimp only
      split_ifs <;> first
        | exact ⟨_, rfl, hinitialized, hattribs⟩
        | exact ⟨_, rfl, rfl, hattribs⟩
        | exact absurd ⟨by grind, by grind, by grind, by grind, by grind, by grind, by grind,
            by grind⟩ (hc a rfl)

/-! ## After one has -/

/-- What the accesses leave of the table. -/
structure SameTable (d d' : eglDisplay) : Prop where
  numConfigs : d'.m_numConfigs = d.m_numConfigs
  numConfigAttribs : d'.m_numConfigAttribs = d.m_numConfigAttribs
  attribs : d'.m_attribs = d.m_attribs
  length : d'.m_configs.map List.length = d.m_configs.map List.length

theorem setAttribValue_same {config attribIdx value : EGLint}
    (h : d.setAttribValue config attribIdx value = .ok d') : SameTable d d' := by
  unfold setAttribValue element at h
  split at h
  · cases h
    exact ⟨rfl, rfl, rfl, rfl⟩
  · cases hconfigs : d.m_configs with
    | none => simp [hconfigs, Except.map] at h
    | some configs =>
        rw [hconfigs] at h
        dsimp only at h
        split at h
        · cases h
          exact ⟨rfl, rfl, rfl, by simp [hconfigs]⟩
        · cases h

theorem processConfigs_same (h : d.processConfigs = .ok d') : SameTable d d' := by
  refine Run.foldlM_invariant (I := SameTable d) (fun d₁ i d₂ hsame hturn => ?_)
    ⟨rfl, rfl, rfl, rfl⟩ h
  obtain ⟨format, -, hturn⟩ := Run.bind_eq_ok.mp hturn
  cases format with
  | none =>
      cases hturn
      exact hsame
  | some format =>
      obtain ⟨h₁, h₂, h₃, h₄⟩ := setAttribValue_same hturn
      obtain ⟨h₁', h₂', h₃', h₄'⟩ := hsame
      exact ⟨h₁.trans h₁', h₂.trans h₂', h₃.trans h₃', h₄.trans h₄'⟩

theorem addAttribs_last (attribs : KeyedVector EGLint EGLint) (tmp_buf : Nat → EGLint) (n : Nat) :
    (addAttribs attribs tmp_buf (n + 1)).get? (tmp_buf n) = some (n : Int) := by
  rw [addAttribs, List.range_succ, List.foldl_append, List.foldl_cons, List.foldl_nil,
    KeyedVector.get?_add, if_pos rfl]

/-- Some config that is taken has its last attribute outside of the array. -/
theorem exists_outside {nC nA : Int} (hC : 0 < nC) (hA : 0 < nA)
    (hsize : arraySize nC nA < 2 ^ 30) :
    ∃ config, 0 ≤ config ∧ config ≤ nC ∧ ¬(0 ≤ GLint (config * nA) + (nA - 1) ∧
      GLint (config * nA) + (nA - 1) < arraySize nC nA) := by
  have hsize' : arraySize nC nA = nC * nA % 2 ^ 32 := by
    rw [arraySize, Int.mul_add, Int.mul_one, Int.mul_comm nA]
    omega
  have hprod := Int.mul_pos hC hA
  by_cases hlarge : 2 ^ 30 < nA
  · exact ⟨0, Int.le_refl 0, hC.le, by
      rw [Int.zero_mul, GLint_of_range (by decide) (by decide)]
      omega⟩
  by_cases hfits : nC * nA < 2 ^ 31
  · refine ⟨nC, hC.le, Int.le_refl nC, ?_⟩
    rw [GLint_of_range (by omega) hfits]
    omega
  · -- the first config whose row starts at a negative offset
    have hlo := Int.lt_mul_ediv_self_add (x := 2 ^ 31 + nA - 1) hA
    have hhi := Int.mul_ediv_self_le (x := 2 ^ 31 + nA - 1) (Int.ne_of_gt hA)
    generalize (2 ^ 31 + nA - 1) / nA = config at hlo hhi
    refine ⟨config, by nlinarith, by nlinarith, ?_⟩
    rw [Int.mul_comm config, GLint, Int.bmod_def]
    omega

/-- The display that an `initialize` has filled. -/
def filled (d : eglDisplay) (a : InitAnswers) : eglDisplay where
  m_initialized := true
  m_numConfigs := GLint a.rcGetNumConfigs
  m_numConfigAttribs := GLint a.numConfigAttribs
  m_attribs := addAttribs d.m_attribs a.tmp_buf (GLint a.numConfigAttribs).toNat
  m_configs := some ((List.range
      (arraySize (GLint a.rcGetNumConfigs) (GLint a.numConfigAttribs)).toNat).map fun i =>
    a.tmp_buf ((GLint a.numConfigAttribs).toNat + i))

theorem Idle.goesThrough (h : Idle d) {a : InitAnswers} (ha : GoesThrough a) :
    d.initializeDisplay a = (d.filled a).processConfigs := by
  obtain ⟨hgles, hrc, hversion, hC, hA, hallocated, hsize, hconfigs⟩ := ha
  have hcounts : ¬(GLint a.rcGetNumConfigs ≤ 0 ∨ GLint a.numConfigAttribs ≤ 0) := by omega
  have hsmall : ¬(1073741824 : Int) ≤
      arraySize (GLint a.rcGetNumConfigs) (GLint a.numConfigAttribs) := Int.not_le.mpr hsize
  simp [initializeDisplay, h.initialized, hgles, hrc, hversion, hallocated, hconfigs, hcounts,
    hsmall, filled]

theorem Idle.not_inBounds (h : Idle d) {a : InitAnswers} (ha : GoesThrough a)
    (hstep : d.initializeDisplay a = .ok d') : ¬d'.InBounds := by
  intro hin
  obtain ⟨hnumConfigs, hnumAttribs, hattribs, hlength⟩ :=
    processConfigs_same ((h.goesThrough ha).symm.trans hstep)
  obtain ⟨config, hlo, hhi, hout⟩ := exists_outside ha.numConfigs ha.numConfigAttribs ha.size
  have hvalid : d'.validatesConfig config = true := by
    simp [validatesConfig, hnumConfigs, filled, hlo, hhi]
  obtain ⟨n, hn⟩ : ∃ n : Nat, GLint a.numConfigAttribs = (n + 1 : Nat) :=
    ⟨(GLint a.numConfigAttribs).toNat - 1, by have := ha.numConfigAttribs; omega⟩
  have hcolumn : d'.valueFor (a.tmp_buf n) = n := by
    rw [valueFor, hattribs, filled, hn, Int.toNat_natCast, addAttribs_last]
    rfl
  obtain ⟨r, hget⟩ := (hin config hvalid).1 (a.tmp_buf n)
  have hknown : (n : Int) ≠ ATTRIBUTE_NONE := fun heq =>
    absurd (heq ▸ Int.natCast_nonneg n : 0 ≤ ATTRIBUTE_NONE) (by decide)
  rw [getConfigAttrib, hcolumn, getAttribValue, if_neg hknown] at hget
  obtain ⟨e, helement, -⟩ := Run.map_eq_ok.mp hget
  have hn' : GLint a.numConfigAttribs - 1 = n := by omega
  cases hconfigs : d'.m_configs with
  | none => simp [element, hconfigs] at helement
  | some configs =>
      have hlen : configs.length =
          (arraySize (GLint a.rcGetNumConfigs) (GLint a.numConfigAttribs)).toNat := by
        rw [hconfigs] at hlength
        simpa [filled] using hlength
      simp only [element, hconfigs, hnumAttribs, hlen] at helement
      split at helement
      · rename_i hinside
        dsimp only [filled] at hinside
        rw [hn'] at hout
        omega
      · cases helement

/-- The accesses of a run are in bounds where no `initialize` goes through: after that there is
always a config that `VALIDATE_CONFIG` takes and the array does not have. -/
theorem runInBounds_of_idle (h : Idle d) (calls : List Call) :
    RunInBounds d calls ↔ ∀ a, .initializeDisplay a ∈ calls → ¬GoesThrough a := by
  induction calls generalizing d with
  | nil =>
      refine iff_of_true (fun pre hpre => ?_) (by simp)
      obtain rfl := List.prefix_nil.mp hpre
      exact ⟨d, rfl, h.inBounds⟩
  | cons c calls ih =>
      by_cases hc : ∀ a, c = .initializeDisplay a → ¬GoesThrough a
      · obtain ⟨d', hstep, hidle⟩ := h.step hc
        have hrest : RunInBounds d (c :: calls) ↔ RunInBounds d' calls := by
          have hrun : ∀ pre, (c :: pre).foldlM step d = pre.foldlM step d' := fun pre => by
            rw [List.foldlM_cons, hstep]
            rfl
          constructor
          · intro hall pre hpre
            exact hrun pre ▸ hall (c :: pre) (List.prefix_cons_inj c |>.mpr hpre)
          · intro hall pre hpre
            rcases List.prefix_cons_iff.mp hpre with rfl | ⟨pre', rfl, hpre'⟩
            · exact ⟨d, rfl, h.inBounds⟩
            · exact hrun pre' ▸ hall pre' hpre'
        rw [hrest, ih hidle]
        grind
      · push Not at hc
        obtain ⟨a, rfl, ha⟩ := hc
        refine iff_of_false (fun hall => ?_) fun hnone => hnone a List.mem_cons_self ha
        obtain ⟨d', hrun, hin⟩ := hall [.initializeDisplay a] (by simp)
        rw [List.foldlM_cons] at hrun
        obtain ⟨d₁, hstep, hnil⟩ := Run.bind_eq_ok.mp hrun
        cases hnil
        exact h.not_inBounds ha hstep hin

theorem initial_idle : Idle initial := ⟨rfl, rfl⟩

theorem runInBounds_iff (calls : List Call) :
    RunInBounds initial calls ↔ ∀ a, .initializeDisplay a ∈ calls → ¬GoesThrough a :=
  runInBounds_of_idle initial_idle calls

def oneConfig : InitAnswers :=
  ⟨true, true, EGL_TRUE, 1, 1, true, fun _ => 0, 1, fun _ => EGL_RED_SIZE⟩

theorem oneConfig_outside : ¬RunInBounds initial [.initializeDisplay oneConfig] := by
  intro hall
  obtain ⟨d, hrun, hin⟩ := hall _ (List.prefix_refl _)
  cases hrun
  obtain ⟨r, hget⟩ := (hin 1 rfl).1 EGL_RED_SIZE
  cases hget

end eglDisplay

end AndroidRenderer.GuestEgl
