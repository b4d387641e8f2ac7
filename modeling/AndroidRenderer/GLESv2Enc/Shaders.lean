import AndroidRenderer.Lib.Run
import AndroidRenderer.OpenglCodecCommon.GLSharedGroup

/-!
# References to shaders

The data of a shader has one reference while the application has not deleted the shader and
one for each program it is attached to. `App` is what the application did: the shaders and
programs it has not deleted, and what is attached. The references agree with it unless a
program goes with shaders attached, which leaks them, or a shader is deleted again while it
is attached, which takes the reference of a program.
-/

namespace AndroidRenderer

/-! ## References of a share group -/

namespace GLSharedGroup

/-- Every shader has as many references as `refs` says, and its data while that is not 0. -/
structure Refs (g : GLSharedGroup) (refs : GLuint → Nat) : Prop where
  live : ∀ data, (g.heap.get? data).isSome ↔ ∃ shader, g.shaders.get? shader = some data
  unique : ∀ shader shader' data, g.shaders.get? shader = some data →
    g.shaders.get? shader' = some data → shader' = shader
  absent : ∀ shader, g.shaders.get? shader = none ↔ refs shader = 0
  refcount : ∀ shader data d, g.shaders.get? shader = some data → g.heap.get? data = some d →
    d.refcount = refs shader

namespace Refs

variable {g : GLSharedGroup} {refs : GLuint → Nat}

theorem new : GLSharedGroup.new.Refs fun _ => 0 := by
  refine ⟨fun data => ?_, ?_, fun shader => ?_, ?_⟩
  · simp [GLSharedGroup.new]
  · intro shader shader' data hget
    cases hget
  · simp [GLSharedGroup.new]
  · intro shader data d hget
    cases hget

theorem of_programs (h : g.Refs refs) (programs : KeyedVector GLuint ProgramData) :
    { g with programs }.Refs refs :=
  ⟨h.live, h.unique, h.absent, h.refcount⟩

variable {shader : GLuint} {data : ShaderHandle}

theorem addShaderData (h : g.Refs refs) (hnew : refs shader = 0) :
    (g.addShaderData shader).Refs (Function.update refs shader 1) := by
  have hnone := (h.absent shader).mpr hnew
  have hfresh : ∀ shader', g.shaders.get? shader' ≠ some g.heap.next := by
    intro shader' hget
    have := (h.live g.heap.next).mpr ⟨shader', hget⟩
    simp at this
  refine ⟨fun data => ?_, fun s s' data hs hs' => ?_, fun s => ?_, fun s data d hs hd => ?_⟩
  · simp only [GLSharedGroup.addShaderData, Registry.get?_insert, KeyedVector.get?_add]
    grind [h.live]
  · grind [GLSharedGroup.addShaderData, h.unique]
  · grind [GLSharedGroup.addShaderData, h.absent]
  · simp only [GLSharedGroup.addShaderData, KeyedVector.get?_add, Registry.get?_insert,
      Function.update_apply] at hs hd ⊢
    grind [h.refcount]

theorem set (h : g.Refs refs) {d : ShaderData} {n : Nat}
    (hget : g.shaders.get? shader = some data) (hpos : 0 < n)
    (hcount : d.refcount = n) :
    { g with heap := g.heap.set data d }.Refs (Function.update refs shader n) := by
  refine ⟨fun data' => ?_, h.unique, fun s => ?_, fun s data' d' hs hd' => ?_⟩
  · grind [h.live]
  · grind [h.absent]
  · simp only [Registry.get?_set] at hd'
    rw [Function.update_apply]
    split at hd'
    · rename_i heq
      rw [if_pos (h.unique shader s data hget (heq ▸ hs))]
      obtain ⟨-, -, rfl⟩ := Option.map_eq_some_iff.mp hd'
      exact hcount
    · grind [h.refcount]

theorem remove (h : g.Refs refs)
    (hget : g.shaders.get? shader = some data) :
    { g with heap := g.heap.remove data, shaders := g.shaders.remove shader }.Refs
      (Function.update refs shader 0) := by
  refine ⟨fun data' => ?_, fun s s' data' hs hs' => ?_, fun s => ?_, fun s data' d' hs hd' => ?_⟩
  · simp only [Registry.get?_remove, KeyedVector.get?_remove]
    grind [h.live, h.unique]
  · grind [h.unique]
  · simp [KeyedVector.get?_remove, Function.update_apply, h.absent]
  · grind [h.refcount]

theorem refShaderDataLocked (h : g.Refs refs)
    (hget : g.shaders.get? shader = some data) :
    ∃ g', g.refShaderDataLocked data = .ok g' ∧ g'.programs = g.programs ∧
      g'.Refs (Function.update refs shader (refs shader + 1)) := by
  obtain ⟨d, hd⟩ := Option.isSome_iff_exists.mp ((h.live data).mpr ⟨shader, hget⟩)
  have hcount := h.refcount shader data d hget hd
  refine ⟨{ g with heap := g.heap.set data { d with refcount := d.refcount + 1 } }, ?_, rfl, ?_⟩
  · simp only [GLSharedGroup.refShaderDataLocked, shaderData, hd]
    rfl
  · exact h.set hget (Nat.succ_pos _) (by simp only [hcount]; omega)

theorem unrefShaderDataLocked (h : g.Refs refs)
    (hget : g.shaders.get? shader = some data) :
    ∃ g', g.unrefShaderDataLocked shader data = .ok g' ∧ g'.programs = g.programs ∧
      g'.Refs (Function.update refs shader (refs shader - 1)) := by
  obtain ⟨d, hd⟩ := Option.isSome_iff_exists.mp ((h.live data).mpr ⟨shader, hget⟩)
  have hcount := h.refcount shader data d hget hd
  have hpos : refs shader ≠ 0 := by
    rw [Ne, ← h.absent, hget]
    simp
  by_cases hlast : d.refcount - 1 = 0
  · refine ⟨{ g with heap := g.heap.remove data, shaders := g.shaders.remove shader }, ?_, rfl, ?_⟩
    · simp only [GLSharedGroup.unrefShaderDataLocked, shaderData, hd]
      exact if_pos hlast
    · rw [show refs shader - 1 = 0 by omega]
      exact h.remove hget
  · refine ⟨{ g with heap := g.heap.set data { d with refcount := d.refcount - 1 } }, ?_, rfl, ?_⟩
    · simp only [GLSharedGroup.unrefShaderDataLocked, shaderData, hd]
      exact if_neg hlast
    · exact h.set hget (by omega) (by simp only [hcount]; omega)

end Refs

end GLSharedGroup

/-! ## The application -/

/-- A call of the application; a name that is created is the answer of the host. -/
inductive ShaderCall
  | glCreateShader (answer : GLuint)
  | glDeleteShader (shader : GLuint)
  | glCreateProgram (answer : GLuint)
  | glDeleteProgram (program : GLuint)
  | glAttachShader (program shader : GLuint)
  | glDetachShader (program shader : GLuint)
  deriving DecidableEq

/-- What the calls do to the data of the guest. -/
def GLSharedGroup.shaderCall (g : GLSharedGroup) : ShaderCall → Except MemoryFault GLSharedGroup
  | .glCreateShader answer => .ok (if answer ≠ 0 then g.addShaderData answer else g)
  | .glDeleteShader shader => g.unrefShaderData shader
  | .glCreateProgram answer => .ok (if answer ≠ 0 then g.addProgramData answer else g)
  | .glDeleteProgram program => .ok (g.deleteProgramData program)
  | .glAttachShader program shader => g.attachShader program shader
  | .glDetachShader program shader => g.detachShader program shader

/-- The shaders and the programs that the application has created and not deleted, each
program with the shaders attached to it. -/
structure App where
  shaders : List GLuint
  programs : KeyedVector GLuint (List GLuint)

namespace App

def new : App := ⟨[], .empty⟩

def attachments (a : App) (shader : GLuint) : Nat :=
  a.programs.count fun shaders => decide (shader ∈ shaders)

def Exists (a : App) (shader : GLuint) : Prop := shader ∈ a.shaders ∨ 0 < a.attachments shader

instance (a : App) (shader : GLuint) : Decidable (a.Exists shader) :=
  inferInstanceAs (Decidable (_ ∨ _))

def refs (a : App) (shader : GLuint) : Nat :=
  (if shader ∈ a.shaders then 1 else 0) + a.attachments shader

theorem refs_eq_zero {a : App} {shader : GLuint} : a.refs shader = 0 ↔ ¬a.Exists shader := by
  unfold refs Exists
  split <;> simp [*]

def call (a : App) : ShaderCall → App
  | .glCreateShader answer => if answer ≠ 0 then { a with shaders := answer :: a.shaders } else a
  | .glDeleteShader shader => { a with shaders := a.shaders.filter (· ≠ shader) }
  | .glCreateProgram answer =>
      if answer ≠ 0 then { a with programs := a.programs.add answer [] } else a
  | .glDeleteProgram program => { a with programs := a.programs.remove program }
  | .glAttachShader program shader =>
      match a.programs.get? program with
      | some shaders =>
          if a.Exists shader ∧ shader ∉ shaders then
            { a with programs := a.programs.add program (shaders ++ [shader]) }
          else a
      | none => a
  | .glDetachShader program shader =>
      match a.programs.get? program with
      | some shaders => { a with programs := a.programs.add program (shaders.erase shader) }
      | none => a

/-- The number of programs when the shaders of one are replaced. -/
theorem attachments_add {a : App} {program : GLuint} {old : List GLuint}
    (hget : a.programs.get? program = some old) (shaders : List GLuint) (shader : GLuint) :
    ({ a with programs := a.programs.add program shaders } : App).attachments shader +
        (if shader ∈ old then 1 else 0) =
      a.attachments shader + if shader ∈ shaders then 1 else 0 := by
  have hremove := a.programs.count_remove (fun shaders => decide (shader ∈ shaders)) program
  grind [KeyedVector.countAt, attachments, KeyedVector.count_add]

/-- A program without shaders does not count. -/
theorem attachments_new {a : App} {program : GLuint} (hget : a.programs.get? program = none)
    (shader : GLuint) :
    ({ a with programs := a.programs.add program [] } : App).attachments shader =
      a.attachments shader := by
  have hremove := a.programs.count_remove (fun shaders => decide (shader ∈ shaders)) program
  simp only [KeyedVector.countAt, hget] at hremove
  simp only [attachments, KeyedVector.count_add, List.not_mem_nil, decide_false]
  simpa using hremove

theorem attachments_remove {a : App} {program : GLuint}
    (hempty : ∀ shaders, a.programs.get? program = some shaders → shaders = [])
    (shader : GLuint) :
    ({ a with programs := a.programs.remove program } : App).attachments shader =
      a.attachments shader := by
  have hremove := a.programs.count_remove (fun shaders => decide (shader ∈ shaders)) program
  unfold KeyedVector.countAt at hremove
  split at hremove
  · rename_i shaders hget
    rw [hempty shaders hget] at hremove
    simpa [attachments] using hremove
  · simpa [attachments] using hremove

end App

/-! ## Runs -/

/-- A share group and what the application did with it. -/
structure ShaderSystem where
  group : GLSharedGroup
  app : App

namespace ShaderSystem

def init : ShaderSystem := ⟨.new, .new⟩

def step (x : ShaderSystem) (c : ShaderCall) : Except MemoryFault ShaderSystem := do
  let group ← x.group.shaderCall c
  return ⟨group, x.app.call c⟩

/-- The host answers with a name that is not in use. -/
def HostFresh (x : ShaderSystem) : ShaderCall → Prop
  | .glCreateShader answer => answer ≠ 0 → ¬x.app.Exists answer
  | .glCreateProgram answer => x.app.programs.get? answer = none
  | _ => True

/-- No shader is deleted again while it is attached, and no program is deleted with shaders
attached to it. -/
def KeepsRefs (x : ShaderSystem) : ShaderCall → Prop
  | .glDeleteShader shader => shader ∈ x.app.shaders ∨ x.app.attachments shader = 0
  | .glDeleteProgram program =>
      ∀ shaders, x.app.programs.get? program = some shaders → shaders = []
  | _ => True

/-- The data of a shader exists exactly while the shader does, with one reference for the
application that has not deleted it and one for each program it is attached to; and no data
is left behind or shared. -/
structure Counted (x : ShaderSystem) : Prop where
  entry : ∀ shader, (∃ data d, x.group.shaders.get? shader = some data ∧
    x.group.heap.get? data = some d) ↔ x.app.Exists shader
  refcount : ∀ shader data d, x.group.shaders.get? shader = some data →
    x.group.heap.get? data = some d →
    d.refcount = (if shader ∈ x.app.shaders then 1 else 0) + x.app.attachments shader ∧
      0 < d.refcount
  live : ∀ data, (x.group.heap.get? data).isSome ↔
    ∃ shader, x.group.shaders.get? shader = some data
  unique : ∀ shader shader' data, x.group.shaders.get? shader = some data →
    x.group.shaders.get? shader' = some data → shader' = shader

structure Invariant (x : ShaderSystem) : Prop where
  refs : x.group.Refs x.app.refs
  programs : ∀ program,
    (x.group.programs.get? program).map ProgramData.shaders = x.app.programs.get? program
  nodup : ∀ program shaders, x.app.programs.get? program = some shaders → shaders.Nodup

theorem Invariant.counted {x : ShaderSystem} (h : x.Invariant) : x.Counted := by
  have hpos : ∀ shader data, x.group.shaders.get? shader = some data → x.app.refs shader ≠ 0 := by
    intro shader data hget
    rw [Ne, ← h.refs.absent, hget]
    simp
  refine ⟨fun shader => ⟨?_, fun hex => ?_⟩, fun shader data d hget hd => ?_, h.refs.live,
    h.refs.unique⟩
  · grind [App.refs_eq_zero]
  · cases hget : x.group.shaders.get? shader with
    | none => exact absurd hex (App.refs_eq_zero.mp ((h.refs.absent shader).mp hget))
    | some data =>
        obtain ⟨d, hd⟩ := Option.isSome_iff_exists.mp ((h.refs.live data).mpr ⟨shader, hget⟩)
        exact ⟨data, d, rfl, hd⟩
  · grind [App.refs, h.refs.refcount]

theorem invariant_init : init.Invariant := by
  refine ⟨?_, fun program => rfl, fun program shaders hget => by cases hget⟩
  have hrefs : App.new.refs = fun _ => 0 := by
    funext shader
    simp [App.refs, App.attachments, App.new, KeyedVector.count, KeyedVector.empty]
  exact hrefs ▸ GLSharedGroup.Refs.new

/-- The programs of the guest and of the application are those of the other. -/
theorem Invariant.programs_add {x : ShaderSystem} (h : x.Invariant) (program : GLuint)
    (p : ProgramData) (program' : GLuint) :
    ((x.group.programs.add program p).get? program').map ProgramData.shaders =
      (x.app.programs.add program p.shaders).get? program' := by
  rw [KeyedVector.get?_add, KeyedVector.get?_add]
  grind [h.programs]

theorem Invariant.nodup_add {x : ShaderSystem} (h : x.Invariant) {program : GLuint}
    {shaders : List GLuint} (hnew : shaders.Nodup) (program' : GLuint) (shaders' : List GLuint)
    (hget : (x.app.programs.add program shaders).get? program' = some shaders') :
    shaders'.Nodup := by
  rw [KeyedVector.get?_add] at hget
  split at hget
  · exact Option.some.inj hget ▸ hnew
  · exact h.nodup program' shaders' hget

variable {x : ShaderSystem}

/-- The references after a call, and the programs. -/
theorem Invariant.mk_of_refs {g : GLSharedGroup} {a : App} {refs : GLuint → Nat}
    (hrefs : g.Refs refs) (heq : ∀ shader, a.refs shader = refs shader)
    (hprograms : ∀ program, (g.programs.get? program).map ProgramData.shaders =
      a.programs.get? program)
    (hnodup : ∀ program shaders, a.programs.get? program = some shaders → shaders.Nodup) :
    (⟨g, a⟩ : ShaderSystem).Invariant := by
  obtain rfl : a.refs = refs := funext heq
  exact ⟨hrefs, hprograms, hnodup⟩

theorem Invariant.glCreateShader (h : x.Invariant) {answer : GLuint}
    (hfresh : answer ≠ 0 → ¬x.app.Exists answer) :
    ∃ x', x.step (.glCreateShader answer) = .ok x' ∧ x'.Invariant := by
  refine ⟨_, rfl, ?_⟩
  by_cases hzero : answer = 0
  · simp only [App.call, hzero, ne_eq, not_true_eq_false, if_false]
    exact ⟨h.refs, h.programs, h.nodup⟩
  · simp only [App.call, ne_eq, hzero, not_false_eq_true, if_true]
    have hnone := App.refs_eq_zero.mpr (hfresh hzero)
    refine .mk_of_refs (h.refs.addShaderData hnone) (fun shader => ?_) h.programs h.nodup
    rw [Function.update_apply]
    unfold App.refs at hnone ⊢
    change (if shader ∈ answer :: x.app.shaders then 1 else 0) + x.app.attachments shader = _
    grind

theorem Invariant.glDeleteShader (h : x.Invariant) {shader : GLuint}
    (hkeeps : shader ∈ x.app.shaders ∨ x.app.attachments shader = 0) :
    ∃ x', x.step (.glDeleteShader shader) = .ok x' ∧ x'.Invariant := by
  have hother : ∀ s, s ≠ shader → (x.app.call (.glDeleteShader shader)).refs s = x.app.refs s := by
    intro s hne
    simp only [App.refs, App.call, App.attachments, List.mem_filter, ne_eq, decide_not,
      Bool.not_eq_true', decide_eq_false_iff_not, hne, not_false_eq_true, and_true]
  have hself : (x.app.call (.glDeleteShader shader)).refs shader = x.app.attachments shader := by
    simp [App.refs, App.call, App.attachments]
  cases hget : x.group.shaders.get? shader with
  | none =>
      have hzero := (h.refs.absent shader).mp hget
      refine ⟨⟨x.group, x.app.call (.glDeleteShader shader)⟩, ?_, ?_⟩
      · simp only [step, GLSharedGroup.shaderCall, GLSharedGroup.unrefShaderData, hget]
        rfl
      · refine .mk_of_refs h.refs (fun s => ?_) h.programs h.nodup
        grind [App.refs]
  | some data =>
      obtain ⟨g, hg, hprograms, hrefs⟩ := h.refs.unrefShaderDataLocked hget
      have hne : x.app.refs shader ≠ 0 := by
        rw [Ne, ← h.refs.absent, hget]
        simp
      refine ⟨⟨g, x.app.call (.glDeleteShader shader)⟩, ?_, ?_⟩
      · simp only [step, GLSharedGroup.shaderCall, GLSharedGroup.unrefShaderData, hget, hg]
        rfl
      · refine .mk_of_refs hrefs (fun s => ?_) (by rw [hprograms]; exact h.programs) h.nodup
        grind [App.refs]

theorem Invariant.glCreateProgram (h : x.Invariant) {answer : GLuint}
    (hfresh : x.app.programs.get? answer = none) :
    ∃ x', x.step (.glCreateProgram answer) = .ok x' ∧ x'.Invariant := by
  refine ⟨_, rfl, ?_⟩
  by_cases hzero : answer = 0
  · simp only [App.call, hzero, ne_eq, not_true_eq_false, if_false]
    exact ⟨h.refs, h.programs, h.nodup⟩
  · simp only [App.call, ne_eq, hzero, not_false_eq_true, if_true]
    refine .mk_of_refs (h.refs.of_programs _) (fun shader => ?_) (h.programs_add answer .new)
      (h.nodup_add List.nodup_nil)
    rw [App.refs, App.attachments_new hfresh]
    rfl

theorem Invariant.glDeleteProgram (h : x.Invariant) {program : GLuint}
    (hempty : ∀ shaders, x.app.programs.get? program = some shaders → shaders = []) :
    ∃ x', x.step (.glDeleteProgram program) = .ok x' ∧ x'.Invariant := by
  refine ⟨_, rfl, .mk_of_refs (h.refs.of_programs _) (fun shader => ?_) (fun p => ?_)
    fun p shaders hget => ?_⟩
  · rw [App.refs, App.call, App.attachments_remove hempty]
    rfl
  · grind [App.call, GLSharedGroup.deleteProgramData, h.programs]
  · grind [App.call, h.nodup]

/-- The data of a live program lists what is attached to it. -/
theorem Invariant.exists_program (h : x.Invariant) {program : GLuint} {p : ProgramData}
    (hget : x.group.programs.get? program = some p) :
    x.app.programs.get? program = some p.shaders := by
  rw [← h.programs, hget]
  rfl

theorem Invariant.glAttachShader (h : x.Invariant) (program shader : GLuint) :
    ∃ x', x.step (.glAttachShader program shader) = .ok x' ∧ x'.Invariant := by
  cases hp : x.group.programs.get? program with
  | none =>
      have happ : x.app.programs.get? program = none := by rw [← h.programs, hp]; rfl
      refine ⟨x, ?_, h⟩
      simp only [step, GLSharedGroup.shaderCall, GLSharedGroup.attachShader, hp, App.call, happ]
      rfl
  | some p =>
      have happ := h.exists_program hp
      cases hs : x.group.shaders.get? shader with
      | none =>
          have hnot : ¬x.app.Exists shader := App.refs_eq_zero.mp ((h.refs.absent shader).mp hs)
          refine ⟨x, ?_, h⟩
          simp only [step, GLSharedGroup.shaderCall, GLSharedGroup.attachShader, hp, hs, App.call,
            happ, hnot, false_and, if_false]
          rfl
      | some data =>
          have hex : x.app.Exists shader := by
            by_contra hnot
            grind [App.refs_eq_zero, h.refs.absent]
          by_cases hmem : shader ∈ p.shaders
          · refine ⟨x, ?_, h⟩
            simp only [step, GLSharedGroup.shaderCall, GLSharedGroup.attachShader, hp, hs,
              ProgramData.attachShader, hmem, if_true, App.call, happ, not_true_eq_false, and_false,
              if_false]
            rfl
          · have hadded := h.refs.of_programs
              (x.group.programs.add program { p with shaders := p.shaders ++ [shader] })
            obtain ⟨g, hg, hprograms, hrefs⟩ := hadded.refShaderDataLocked hs
            have hnodup : (p.shaders ++ [shader]).Nodup := by
              refine List.nodup_append.mpr ⟨h.nodup program p.shaders happ,
                by simp, fun s hold s' hnew => ?_⟩
              grind
            refine ⟨⟨g, { x.app with
              programs := x.app.programs.add program (p.shaders ++ [shader]) }⟩, ?_, ?_⟩
            · simp only [step, GLSharedGroup.shaderCall, GLSharedGroup.attachShader, hp, hs,
                ProgramData.attachShader, hmem, if_false, if_true, App.call, happ, hex,
                not_false_eq_true, and_self, hg]
              rfl
            · refine .mk_of_refs hrefs (fun s => ?_)
                (by rw [hprograms]; exact h.programs_add program _)
                (h.nodup_add hnodup)
              have hadd := App.attachments_add happ (p.shaders ++ [shader]) s
              rw [Function.update_apply]
              unfold App.refs
              grind

theorem Invariant.glDetachShader (h : x.Invariant) (program shader : GLuint) :
    ∃ x', x.step (.glDetachShader program shader) = .ok x' ∧ x'.Invariant := by
  cases hp : x.group.programs.get? program with
  | none =>
      have happ : x.app.programs.get? program = none := by rw [← h.programs, hp]; rfl
      refine ⟨x, ?_, h⟩
      simp only [step, GLSharedGroup.shaderCall, GLSharedGroup.detachShader, hp, App.call, happ]
      rfl
  | some p =>
      have happ := h.exists_program hp
      have hnodup := h.nodup program p.shaders happ
      have hadd := App.attachments_add happ (p.shaders.erase shader)
      have hcall : x.app.call (.glDetachShader program shader) =
          { x.app with programs := x.app.programs.add program (p.shaders.erase shader) } := by
        simp only [App.call, happ]
      by_cases hmem : shader ∈ p.shaders
      · have hpos : 0 < x.app.attachments shader :=
          KeyedVector.count_pos_iff.mpr ⟨program, p.shaders, happ, by simpa using hmem⟩
        obtain ⟨data, hs⟩ : ∃ data, x.group.shaders.get? shader = some data := by
          cases hs : x.group.shaders.get? shader with
          | none => exact absurd (.inr hpos) (App.refs_eq_zero.mp ((h.refs.absent shader).mp hs))
          | some data => exact ⟨data, rfl⟩
        have herased := h.refs.of_programs
          (x.group.programs.add program { p with shaders := p.shaders.erase shader })
        obtain ⟨g, hg, hprograms, hrefs⟩ := herased.unrefShaderDataLocked hs
        refine ⟨⟨g, x.app.call (.glDetachShader program shader)⟩, ?_, ?_⟩
        · simp only [step, GLSharedGroup.shaderCall, GLSharedGroup.detachShader, hp, hs,
            ProgramData.detachShader, hmem, if_true, hg]
          rfl
        · rw [hcall]
          refine .mk_of_refs hrefs (fun s => ?_)
            (by rw [hprograms]; exact h.programs_add program _) (h.nodup_add (hnodup.erase shader))
          have hs := hadd s
          rw [Function.update_apply]
          unfold App.refs
          grind
      · have herase : p.shaders.erase shader = p.shaders := List.erase_of_not_mem hmem
        refine ⟨⟨x.group, x.app.call (.glDetachShader program shader)⟩, ?_, ?_⟩
        · simp only [step, GLSharedGroup.shaderCall, GLSharedGroup.detachShader, hp]
          cases x.group.shaders.get? shader with
          | none => rfl
          | some data =>
              simp only [ProgramData.detachShader, hmem, if_false]
              rfl
        · rw [hcall, herase]
          refine .mk_of_refs h.refs (fun s => ?_) (fun p' => ?_) (h.nodup_add hnodup)
          · have hs := hadd s
            rw [herase] at hs
            have hsame := Nat.add_right_cancel hs
            exact congrArg ((if s ∈ x.app.shaders then 1 else 0) + ·) hsame
          · grind [h.programs]

/-- A call that keeps the references goes through and keeps the invariant. -/
theorem Invariant.step (h : x.Invariant) {c : ShaderCall} (hfresh : x.HostFresh c)
    (hkeeps : x.KeepsRefs c) : ∃ x', x.step c = .ok x' ∧ x'.Invariant := by
  cases c with
  | glCreateShader answer => exact h.glCreateShader hfresh
  | glDeleteShader shader => exact h.glDeleteShader hkeeps
  | glCreateProgram answer => exact h.glCreateProgram hfresh
  | glDeleteProgram program => exact h.glDeleteProgram hkeeps
  | glAttachShader program shader => exact h.glAttachShader program shader
  | glDetachShader program shader => exact h.glDetachShader program shader

/-- On every run that keeps the references, with a host that hands out fresh names, each
shader has its data exactly while it exists, with a reference for the application and one
for each program it is attached to, and no call uses data that was freed. -/
theorem shaders_counted (x : ShaderSystem)
    (h : Run.Reach step (fun x c => x.HostFresh c ∧ x.KeepsRefs c) init x) :
    x.Counted ∧ ∀ c, x.HostFresh c → x.KeepsRefs c → ∃ x', x.step c = .ok x' := by
  have hinv : x.Invariant := by
    refine h.invariant invariant_init fun t c t' ht hok hstep => ?_
    obtain ⟨t'', hstep', ht''⟩ := ht.step hok.1 hok.2
    rw [hstep] at hstep'
    exact Except.ok.inj hstep' ▸ ht''
  refine ⟨hinv.counted, fun c hfresh hkeeps => ?_⟩
  obtain ⟨x', hstep, -⟩ := hinv.step hfresh hkeeps
  exact ⟨x', hstep⟩

/-- A test for `HostFresh`. -/
def hostFreshTest (x : ShaderSystem) : ShaderCall → Bool
  | .glCreateShader answer => !decide (x.app.Exists answer)
  | .glCreateProgram answer => (x.app.programs.get? answer).isNone
  | _ => true

theorem hostFreshTest_sound (x : ShaderSystem) (c : ShaderCall) (h : hostFreshTest x c = true) :
    x.HostFresh c := by
  cases c with
  | glCreateShader answer => exact fun _ => by simpa [hostFreshTest] using h
  | glCreateProgram answer => exact Option.isNone_iff_eq_none.mp h
  | _ => trivial

/-- A test for `KeepsRefs`. -/
def keepsRefsTest (x : ShaderSystem) : ShaderCall → Bool
  | .glDeleteShader shader => decide (shader ∈ x.app.shaders)
  | .glDeleteProgram program => (x.app.programs.get? program).all List.isEmpty
  | _ => true

theorem keepsRefsTest_sound (x : ShaderSystem) (c : ShaderCall) (h : keepsRefsTest x c = true) :
    x.KeepsRefs c := by
  cases c with
  | glDeleteShader shader => exact .inl (of_decide_eq_true h)
  | glDeleteProgram program =>
      intro shaders hget
      have hempty : (x.app.programs.get? program).all List.isEmpty = true := h
      grind
  | _ => trivial

/-- A shader is deleted while it is attached and goes when it is detached. -/
theorem shaders_counted_detached :
    ∃ x : ShaderSystem, x.app.shaders = [4] ∧ x.group.shaders.get? 3 = none ∧ x.Counted := by
  have hrun : Run.check step (fun x c => hostFreshTest x c && keepsRefsTest x c)
      (fun x => x.app.shaders = [4] && x.group.shaders.get? 3 = none) init
      [.glCreateProgram 2, .glCreateShader 3, .glAttachShader 2 3, .glDeleteShader 3,
        .glCreateShader 4, .glDetachShader 2 3, .glDeleteProgram 2] = true := by
    decide +kernel
  have hsound : ∀ x c, (hostFreshTest x c && keepsRefsTest x c) = true →
      x.HostFresh c ∧ x.KeepsRefs c := by
    intro x c h
    rw [Bool.and_eq_true] at h
    exact ⟨hostFreshTest_sound x c h.1, keepsRefsTest_sound x c h.2⟩
  obtain ⟨x, hreach, htest⟩ := Run.exists_reach_of_check hsound hrun
  rw [Bool.and_eq_true, decide_eq_true_eq, decide_eq_true_eq] at htest
  exact ⟨x, htest.1, htest.2, (shaders_counted x hreach).1⟩

/-- The data of a shader stays behind when it is deleted and its program goes. -/
theorem deletedProgram_not_counted :
    ∃ x, Run.Reach step HostFresh init x ∧ ¬x.Counted := by
  have hrun : Run.check step hostFreshTest
      (fun x => !decide (x.app.Exists 3) && (x.group.shaders.get? 3 >>= x.group.heap.get?).isSome)
      init
      [.glCreateProgram 2, .glCreateShader 3, .glAttachShader 2 3, .glDeleteShader 3,
        .glDeleteProgram 2] = true := by
    decide +kernel
  obtain ⟨x, hreach, htest⟩ := Run.exists_reach_of_check hostFreshTest_sound hrun
  rw [Bool.and_eq_true, Option.isSome_iff_exists] at htest
  obtain ⟨hgone, d, hd⟩ := htest
  obtain ⟨data, hget, hd⟩ := Option.bind_eq_some_iff.mp hd
  refine ⟨x, hreach, fun h => ?_⟩
  have := (h.entry 3).mp ⟨data, d, hget, hd⟩
  simp [this] at hgone

end ShaderSystem

end AndroidRenderer
