import AndroidRenderer.OpenglCodecCommon.HostBuffers

/-!
# Enabled arrays of the GLES 1 encoder

`GLEncoder` does not send `glEnableClientState` when it is called. It marks the array, and sends
what has changed with the next draw. The texture coordinates of all units have one enumerant, so the
host is told the unit first. `ClientArrays` is what a host knows of enabled arrays: the flags of
the host, and what they would be if it were told of every call at once.
-/

namespace AndroidRenderer

/-- One flag for each array, and for the texture coordinates one for each unit. -/
structure ClientArrays where
  enabled : GLenum → Bool
  texCoord : Nat → Bool
  clientActiveTexture : Nat

namespace ClientArrays

def init : ClientArrays := ⟨fun _ => false, fun _ => false, 0⟩

def set (h : ClientArrays) (cap : GLenum) (state : Bool) : ClientArrays :=
  if cap = GL_TEXTURE_COORD_ARRAY then
    { h with texCoord := Function.update h.texCoord h.clientActiveTexture state }
  else { h with enabled := Function.update h.enabled cap state }

def select (h : ClientArrays) (texture : GLenum) : ClientArrays :=
  { h with clientActiveTexture := (texture - GL_TEXTURE0).toNat }

def exec (h : ClientArrays) : DrawCommand → ClientArrays
  | .glEnableClientState cap => h.set cap true
  | .glDisableClientState cap => h.set cap false
  | .glClientActiveTexture texture => h.select texture
  | _ => h

def run (h : ClientArrays) (commands : List DrawCommand) : ClientArrays := commands.foldl exec h

def IsTexCoord (i : Nat) : Prop := TEXCOORD0_LOCATION ≤ i ∧ i ≤ TEXCOORD7_LOCATION

instance (i : Nat) : Decidable (IsTexCoord i) := inferInstanceAs (Decidable (_ ∧ _))

def flag (h : ClientArrays) (i : Nat) : Bool :=
  if IsTexCoord i then h.texCoord (i - TEXCOORD0_LOCATION)
  else h.enabled (GLClientState.glConst i)

/-- The array at a location is the one that an enable command with its enumerant is for. -/
def Selects (h : ClientArrays) (i : Nat) : Prop :=
  IsTexCoord i → h.clientActiveTexture = i - TEXCOORD0_LOCATION

variable (h : ClientArrays)

theorem run_append (a b : List DrawCommand) : h.run (a ++ b) = (h.run a).run b :=
  List.foldl_append

theorem glConst_texCoord : ∀ i < LAST_LOCATION,
    (GLClientState.glConst i = GL_TEXTURE_COORD_ARRAY ↔ IsTexCoord i) := by
  decide

theorem glConst_inj : ∀ i < LAST_LOCATION, ∀ j < LAST_LOCATION, ¬IsTexCoord i →
    GLClientState.glConst j = GLClientState.glConst i → j = i := by
  decide

theorem flag_set {i j : Nat} (hi : i < LAST_LOCATION) (hj : j < LAST_LOCATION)
    (hselects : h.Selects i) (state : Bool) :
    (h.set (GLClientState.glConst i) state).flag j = if j = i then state else h.flag j := by
  unfold set flag
  by_cases htex : IsTexCoord i
  · rw [if_pos ((glConst_texCoord i hi).mpr htex)]
    dsimp only
    by_cases htex' : IsTexCoord j
    · rw [if_pos htex', if_pos htex', Function.update_apply, hselects htex]
      obtain ⟨hlo, -⟩ := htex
      obtain ⟨hlo', -⟩ := htex'
      exact if_congr ⟨fun heq => by omega, fun heq => by rw [heq]⟩ rfl rfl
    · grind
  · rw [if_neg fun heq => htex ((glConst_texCoord i hi).mp heq)]
    grind [glConst_inj]

@[simp] theorem flag_select (texture : GLenum) (i : Nat) :
    (h.select texture).flag i = h.flag i := rfl

theorem selects_select {i : Nat} (hi : i < LAST_LOCATION) :
    (h.select (GL_TEXTURE0 + UInt32.ofNat i - UInt32.ofNat TEXCOORD0_LOCATION)).Selects i := by
  have hunit : ∀ i < LAST_LOCATION, IsTexCoord i →
      (GL_TEXTURE0 + UInt32.ofNat i - UInt32.ofNat TEXCOORD0_LOCATION - GL_TEXTURE0).toNat =
        i - TEXCOORD0_LOCATION := by
    decide
  exact hunit i hi

theorem run_texture {i : Nat} (hi : i < LAST_LOCATION) {texture : List DrawCommand}
    (htexture : texture =
      if TEXCOORD0_LOCATION ≤ i ∧ i ≤ TEXCOORD7_LOCATION then
        [.glClientActiveTexture (GL_TEXTURE0 + UInt32.ofNat i - UInt32.ofNat TEXCOORD0_LOCATION)]
      else []) :
    (h.run texture).Selects i ∧ (∀ j, (h.run texture).flag j = h.flag j) ∧
      ∀ c ∈ texture, c.IsEnable := by
  split at htexture
  · rw [htexture]
    refine ⟨h.selects_select hi, fun j => h.flag_select _ j, fun c hc => ?_⟩
    rw [List.mem_singleton.mp hc]
    trivial
  · rename_i hnot
    rw [htexture]
    exact ⟨fun htex => absurd htex hnot, fun _ => rfl, fun _ hc => by cases hc⟩

theorem run_of_not_isEnable {commands : List DrawCommand} (hc : ∀ c ∈ commands, ¬c.IsEnable) :
    h.run commands = h := by
  induction commands with
  | nil => rfl
  | cons c commands ih =>
      have hone : h.exec c = h := by
        have hnot := hc c List.mem_cons_self
        cases c <;> first | rfl | exact absurd trivial hnot
      change (h.exec c).run commands = h
      grind

end ClientArrays

/-! ## Sending the arrays -/

def DrawCommand.IsDraw : DrawCommand → Prop
  | glDrawArrays _ _ _ => True
  | glDrawElementsOffset _ _ _ _ => True
  | glDrawElementsData _ _ _ _ => True
  | _ => False

theorem DrawCommand.IsEnable.not_isDraw {c : DrawCommand} (h : c.IsEnable) : ¬c.IsDraw := by
  cases c <;> first | exact id | exact h.elim

/-- The commands for the array itself enable nothing and draw nothing. -/
theorem sendArray_commands {mem : ClientMemory} {s : GLClientState} {first count : Int} {i : Nat}
    {size : Int} {p : VertexPointer} {out : Output}
    (h : sendArray mem s first count i size p = .ok out) :
    ∀ c ∈ out.commands, ¬c.IsEnable ∧ ¬c.IsDraw := by
  simp only [sendArray] at h
  split at h
  · split at h
    · obtain rfl := Except.ok.inj h
      intro c hc
      rw [List.mem_singleton.mp hc]
      exact ⟨id, id⟩
    · cases h
  · obtain rfl := Except.ok.inj h
    intro c hc
    simp only [Output.send, List.mem_cons, List.not_mem_nil, or_false] at hc
    rcases hc with rfl | rfl | rfl <;> exact ⟨id, id⟩

namespace GLEncoder

variable {mem : ClientMemory} {s : GLClientState} {first count : Int}

/-- One turn of `sendVertexData` leaves the flag of its location as in the guest, and the others
as they were. -/
theorem sendLocation_flag {i : Nat} {out : Output} (hi : i < LAST_LOCATION)
    (h : sendLocation mem s first count i = .ok out) (host : ClientArrays)
    (hclean : (s.states i).enableDirty = false → host.flag i = (s.states i).enabled) :
    (∀ j < LAST_LOCATION,
      (host.run out.commands).flag j = if j = i then (s.states i).enabled else host.flag j) ∧
    ∀ c ∈ out.commands, ¬c.IsDraw := by
  unfold sendLocation at h
  dsimp only at h
  generalize htexture : (if TEXCOORD0_LOCATION ≤ i ∧ i ≤ TEXCOORD7_LOCATION then _ else _) =
    texture at h
  obtain ⟨hselects, hsame, htexture⟩ := host.run_texture hi htexture.symm
  split at h
  · rename_i hskip
    obtain rfl := Except.ok.inj h
    simp only [Bool.and_eq_true, Bool.not_eq_true'] at hskip
    refine ⟨fun j hj => ?_, fun _ hc => by cases hc⟩
    split
    · rename_i heq
      rw [heq, ← hclean hskip.1]
      rfl
    · rfl
  · split at h
    · rename_i henabled
      split at h
      · cases h
      · obtain ⟨sent, hsent, rfl⟩ := Run.map_eq_ok.mp h
        have hquiet := sendArray_commands hsent
        change (∀ j < LAST_LOCATION, (host.run ((texture ++ _) ++ sent.commands)).flag j = _) ∧
          ∀ c ∈ (texture ++ _) ++ sent.commands, ¬c.IsDraw
        rw [ClientArrays.run_append, ClientArrays.run_append,
          ClientArrays.run_of_not_isEnable _ fun c hc => (hquiet c hc).1]
        refine ⟨fun j hj => ?_, fun c hc => ?_⟩
        · split
          · rename_i hdirty
            rw [henabled, ← hsame j]
            exact ClientArrays.flag_set _ hi hj hselects true
          · rename_i hdirty
            change (host.run texture).flag j = _
            grind
        · rcases List.mem_append.mp hc with hc | hc
          · rcases List.mem_append.mp hc with hc | hc
            · exact (htexture c hc).not_isDraw
            · split at hc
              · rw [List.mem_singleton.mp hc]
                exact id
              · cases hc
          · exact (hquiet c hc).2
    · rename_i henabled
      obtain rfl := Except.ok.inj h
      change (∀ j < LAST_LOCATION, (host.run (texture ++ _)).flag j = _) ∧
        ∀ c ∈ texture ++ _, ¬c.IsDraw
      rw [ClientArrays.run_append, Bool.eq_false_iff.mpr henabled]
      refine ⟨fun j hj => ?_, fun c hc => ?_⟩
      · rw [← hsame j]
        exact ClientArrays.flag_set _ hi hj hselects false
      · rcases List.mem_append.mp hc with hc | hc
        · exact (htexture c hc).not_isDraw
        · rw [List.mem_singleton.mp hc]
          exact id

/-- The loop over the locations leaves every flag as in the guest. -/
theorem sendVertexData_flag {s' : GLClientState} {out : Output}
    (h : EncoderKind.gles1.sendVertexData mem s first count = .ok (s', out)) (host : ClientArrays)
    (hclean : ∀ i < LAST_LOCATION, (s.states i).enableDirty = false →
      host.flag i = (s.states i).enabled) :
    s' = s.clearEnableDirty LAST_LOCATION ∧
    (∀ i < LAST_LOCATION, (host.run out.commands).flag i = (s.states i).enabled) ∧
    ∀ c ∈ out.commands, ¬c.IsDraw := by
  obtain ⟨outs, houts, heq⟩ := Run.bind_eq_ok.mp h
  obtain ⟨rfl, rfl⟩ := Prod.mk.inj (Except.ok.inj heq)
  rw [Run.mapM_eq_ok] at houts
  have hrange : ∀ i ∈ List.range (EncoderKind.gles1.locations s), i < LAST_LOCATION :=
    fun i hi => List.mem_range.mp hi
  have hloop : (∀ j < LAST_LOCATION, (host.run (Output.concat outs).commands).flag j =
      if j ∈ List.range (EncoderKind.gles1.locations s) then (s.states j).enabled
      else host.flag j) ∧ ∀ c ∈ (Output.concat outs).commands, ¬c.IsDraw := by
    clear h heq
    generalize List.range (EncoderKind.gles1.locations s) = l at houts hrange
    induction houts generalizing host with
    | nil => exact ⟨fun j _ => by rw [if_neg List.not_mem_nil]; rfl, fun _ hc => by cases hc⟩
    | @cons i out l outs hout _ ih =>
        have hi := hrange i List.mem_cons_self
        obtain ⟨hflag, hdraw⟩ := sendLocation_flag hi hout host (hclean i hi)
        obtain ⟨hflags, hdraws⟩ := ih (host.run out.commands)
          (fun j hj hdirty => by
            rw [hflag j hj]
            split
            · rename_i heq
              rw [heq]
            · exact hclean j hj hdirty)
          (fun j hj => hrange j (List.mem_cons_of_mem i hj))
        change (∀ j < LAST_LOCATION,
          (host.run (out.commands ++ (Output.concat outs).commands)).flag j = _) ∧
          ∀ c ∈ out.commands ++ (Output.concat outs).commands, ¬c.IsDraw
        rw [ClientArrays.run_append]
        grind
  refine ⟨rfl, fun i hi => ?_, hloop.2⟩
  rw [hloop.1 i hi]
  exact if_pos (List.mem_range.mpr hi)

/-- `s_glEnableClientState` -/
def glEnableClientState (ctx : DrawEncoder) (state : GLenum) : DrawEncoder :=
  { ctx with state := ctx.state.enable (ctx.state.getLocation state) true }

/-- `s_glDisableClientState` -/
def glDisableClientState (ctx : DrawEncoder) (state : GLenum) : DrawEncoder :=
  { ctx with state := ctx.state.enable (ctx.state.getLocation state) false }

/-- `s_glClientActiveTexture` -/
def glClientActiveTexture (ctx : DrawEncoder) (texture : GLenum) : DrawEncoder :=
  { ctx with
    state := { ctx.state with activeTexture := GLint (texture - GL_TEXTURE0).toNat } }

end GLEncoder

/-! ## Runs -/

/-- The calls of the application. Those for buffers, pointers and draws are `BufferCall`s. -/
inductive ArrayCall
  | glEnableClientState (state : GLenum)
  | glDisableClientState (state : GLenum)
  | glClientActiveTexture (texture : GLenum)
  | buffer (c : BufferCall)

/-- An array is enabled or disabled by its location. -/
def BufferCall.isEnable : BufferCall → Bool
  | enable _ _ => true
  | _ => false

namespace ArrayCall

def arrays : List GLenum :=
  [GL_VERTEX_ARRAY, GL_NORMAL_ARRAY, GL_COLOR_ARRAY, GL_POINT_SIZE_ARRAY_OES,
    GL_TEXTURE_COORD_ARRAY, GL_MATRIX_INDEX_ARRAY_OES, GL_WEIGHT_ARRAY_OES]

def Names : ArrayCall → Prop
  | glEnableClientState state => state ∈ arrays
  | glDisableClientState state => state ∈ arrays
  | glClientActiveTexture texture => (texture - GL_TEXTURE0).toNat < 8
  | buffer c => c.isEnable = false

instance (c : ArrayCall) : Decidable c.Names :=
  match c with
  | glEnableClientState state => inferInstanceAs (Decidable (state ∈ arrays))
  | glDisableClientState state => inferInstanceAs (Decidable (state ∈ arrays))
  | glClientActiveTexture texture =>
      inferInstanceAs (Decidable ((texture - GL_TEXTURE0).toNat < 8))
  | buffer c => inferInstanceAs (Decidable (c.isEnable = false))

end ArrayCall

/-- An encoder and its host. `app` has the flags as the application sets them, as long as its
calls name arrays. -/
structure ArraySystem where
  guest : DrawEncoder
  host : ClientArrays
  app : ClientArrays
  named : Bool

namespace ArraySystem

/-- A new context; `pointers` is what the memory of the arrays' states holds. -/
def init (nLocations : Nat) (pointers : Nat → Option VertexPointer) : ArraySystem where
  guest :=
    { DrawEncoder.new nLocations with
      state := { GLClientState.new nLocations with
        states := fun i => ⟨false, false, pointers i⟩ } }
  host := .init
  app := .init
  named := true

def call (x : ArraySystem) : ArrayCall → Except EncoderFault (DrawEncoder × Output)
  | .glEnableClientState state => .ok (GLEncoder.glEnableClientState x.guest state, .empty)
  | .glDisableClientState state => .ok (GLEncoder.glDisableClientState x.guest state, .empty)
  | .glClientActiveTexture texture => .ok (GLEncoder.glClientActiveTexture x.guest texture, .empty)
  | .buffer c => x.guest.call .gles1 c

/-- The flags that the application sets. -/
def appCall (app : ClientArrays) : ArrayCall → ClientArrays
  | .glEnableClientState state => app.set state true
  | .glDisableClientState state => app.set state false
  | .glClientActiveTexture texture => app.select texture
  | .buffer _ => app

def step (x : ArraySystem) (c : ArrayCall) : Except EncoderFault ArraySystem :=
  (x.call c).map fun r =>
    ⟨r.1, x.host.run r.2.commands, appCall x.app c, x.named && decide c.Names⟩

/-- `P` holds of the host at each draw command it receives. -/
def AtDraws (P : ClientArrays → Prop) : ClientArrays → List DrawCommand → Prop
  | _, [] => True
  | h, c :: commands => (c.IsDraw → P h) ∧ AtDraws P (h.exec c) commands

/-- The flags of the host are those of the guest's state, and those the application has set. -/
def Synchronised (x : ArraySystem) (s : GLClientState) (h : ClientArrays) : Prop :=
  ∀ i < LAST_LOCATION, h.flag i = (s.states i).enabled ∧ (x.named = true → h.flag i = x.app.flag i)

variable {P : ClientArrays → Prop} {h : ClientArrays} {x : ArraySystem}

theorem atDraws_append {a b : List DrawCommand} (ha : AtDraws P h a)
    (hb : AtDraws P (h.run a) b) : AtDraws P h (a ++ b) := by
  induction a generalizing h with
  | nil => exact hb
  | cons c a ih => exact ⟨ha.1, ih ha.2 hb⟩

variable {commands : List DrawCommand} {out : Output} {guest : DrawEncoder}

theorem atDraws_mono {Q : ClientArrays → Prop} (hPQ : ∀ h, P h → Q h) (hP : AtDraws P h commands) :
    AtDraws Q h commands := by
  induction commands generalizing h with
  | nil => trivial
  | cons c commands ih => exact ⟨fun hdraw => hPQ h (hP.1 hdraw), ih hP.2⟩

theorem atDraws_of_not (hc : ∀ c ∈ commands, ¬c.IsDraw) :
    AtDraws P h commands := by
  induction commands generalizing h with
  | nil => trivial
  | cons c commands ih =>
      exact ⟨fun hdraw => absurd hdraw (hc c List.mem_cons_self),
        ih fun c' hc' => hc c' (List.mem_cons_of_mem c hc')⟩

theorem atDraws_of_same (hc : ∀ c ∈ commands, ¬c.IsEnable)
    (hP : P h) : AtDraws P h commands := by
  induction commands with
  | nil => trivial
  | cons c commands ih =>
      have hone : h.run [c] = h := h.run_of_not_isEnable fun c' hc' =>
        List.mem_singleton.mp hc' ▸ hc c List.mem_cons_self
      change (c.IsDraw → P h) ∧ AtDraws P (h.run [c]) commands
      grind

/-- An array that is not marked has its flag on the host, and the state of the guest follows the
application. -/
structure Invariant (x : ArraySystem) : Prop where
  clean : ∀ i < LAST_LOCATION, (x.guest.state.states i).enableDirty = false →
    x.host.flag i = (x.guest.state.states i).enabled
  app : x.named = true →
    x.guest.state.activeTexture = x.app.clientActiveTexture ∧ x.app.clientActiveTexture < 8 ∧
      ∀ i < LAST_LOCATION, x.app.flag i = (x.guest.state.states i).enabled

/-- What a call that sends commands leaves of the flags. -/
structure Sends (x : ArraySystem) (guest : DrawEncoder) (commands : List DrawCommand) : Prop where
  clean : ∀ i < LAST_LOCATION, (guest.state.states i).enableDirty = false →
    (x.host.run commands).flag i = (guest.state.states i).enabled
  enabled : ∀ i, (guest.state.states i).enabled = (x.guest.state.states i).enabled
  activeTexture : guest.state.activeTexture = x.guest.state.activeTexture
  draws : AtDraws (fun h => ∀ i < LAST_LOCATION, h.flag i = (guest.state.states i).enabled) x.host
    commands

structure SameFlags (s s' : GLClientState) : Prop where
  enabled : ∀ i, (s'.states i).enabled = (s.states i).enabled
  enableDirty : ∀ i, (s'.states i).enableDirty = (s.states i).enableDirty
  activeTexture : s'.activeTexture = s.activeTexture

theorem SameFlags.refl (s : GLClientState) : SameFlags s s := ⟨fun _ => rfl, fun _ => rfl, rfl⟩

/-- The commands of a call that neither enables nor draws. -/
theorem Invariant.quiet (hinv : x.Invariant) (guest : DrawEncoder)
    (hsame : SameFlags x.guest.state guest.state)
    (hquiet : ∀ c ∈ commands, ¬c.IsEnable ∧ ¬c.IsDraw) : x.Sends guest commands where
  clean i hi hdirty := by
    rw [ClientArrays.run_of_not_isEnable _ fun c hc => (hquiet c hc).1, hsame.enabled]
    exact hinv.clean i hi (hsame.enableDirty i ▸ hdirty)
  enabled := hsame.enabled
  activeTexture := hsame.activeTexture
  draws := atDraws_of_not fun c hc => (hquiet c hc).2

theorem Invariant.unchanged (hinv : x.Invariant) {buffers : SharedBuffers} {error : GLenum}
    (hquiet : ∀ c ∈ commands, ¬c.IsEnable ∧ ¬c.IsDraw) :
    x.Sends ⟨x.guest.state, buffers, error⟩ commands :=
  hinv.quiet ⟨x.guest.state, buffers, error⟩ (.refl _) hquiet

theorem nothing_sent : ∀ c ∈ Output.empty.commands, ¬c.IsEnable ∧ ¬c.IsDraw :=
  fun _ hc => by cases hc

theorem one_sent {command : DrawCommand} (h : ¬command.IsEnable ∧ ¬command.IsDraw) :
    ∀ c ∈ [command], ¬c.IsEnable ∧ ¬c.IsDraw :=
  fun _ hc => List.mem_singleton.mp hc ▸ h

/-- A draw: the arrays are sent, between some commands before and the draw commands. -/
theorem Invariant.sendVertexData (hinv : x.Invariant) {mem : ClientMemory} {first count : Int}
    {s' : GLClientState}
    (hsend : EncoderKind.gles1.sendVertexData mem x.guest.state first count = .ok (s', out))
    (front : List DrawCommand) {back : List DrawCommand}
    (hfront : ∀ c ∈ front, ¬c.IsEnable ∧ ¬c.IsDraw)
    (hback : ∀ c ∈ back, ¬c.IsEnable) :
    x.Sends { x.guest with state := s' } (front ++ (out.commands ++ back)) := by
  obtain ⟨rfl, hflag, hdraw⟩ := GLEncoder.sendVertexData_flag hsend x.host hinv.clean
  have henabled : ∀ i, ((x.guest.state.clearEnableDirty LAST_LOCATION).states i).enabled =
      (x.guest.state.states i).enabled := by grind [GLClientState.clearEnableDirty]
  have hfrontRun : x.host.run front = x.host :=
    ClientArrays.run_of_not_isEnable _ fun c hc => (hfront c hc).1
  refine ⟨fun i hi _ => ?_, henabled, rfl, ?_⟩
  · grind [ClientArrays.run_append, ClientArrays.run_of_not_isEnable]
  · refine atDraws_append (atDraws_of_not fun c hc => (hfront c hc).2)
      (atDraws_append (atDraws_of_not hdraw) (atDraws_of_same hback fun i hi => ?_))
    grind

theorem Invariant.glDrawArrays (hinv : x.Invariant) {mem : ClientMemory} {mode : GLenum}
    {first count : Int}
    (hcall : x.guest.glDrawArrays .gles1 mem mode first count = .ok (guest, out)) :
    x.Sends guest out.commands := by
  obtain ⟨⟨s', sent⟩, hsend, heq⟩ := Run.bind_eq_ok.mp hcall
  obtain ⟨rfl, rfl⟩ := Prod.mk.inj (Except.ok.inj heq)
  refine hinv.sendVertexData hsend [] (fun _ hc => by cases hc) fun c hc => ?_
  rw [List.mem_singleton.mp hc]
  exact id

theorem Invariant.glDrawElements (hinv : x.Invariant) {mem : ClientMemory} {mode : GLenum}
    {count : Int} {type : GLenum} {indices : UInt32}
    (hcall : x.guest.glDrawElements .gles1 mem mode count type indices = .ok (guest, out)) :
    x.Sends guest out.commands := by
  unfold DrawEncoder.glDrawElements at hcall
  split at hcall
  · obtain ⟨rfl, rfl⟩ := Prod.mk.inj (Except.ok.inj hcall)
    exact hinv.unchanged nothing_sent
  · split at hcall
    · cases hcall
    · dsimp only at hcall
      split at hcall
      · obtain ⟨rfl, rfl⟩ := Prod.mk.inj (Except.ok.inj hcall)
        exact hinv.unchanged nothing_sent
      · split at hcall
        · obtain ⟨⟨s', sent⟩, hsend, heq⟩ := Run.bind_eq_ok.mp hcall
          obtain ⟨rfl, rfl⟩ := Prod.mk.inj (Except.ok.inj heq)
          refine hinv.sendVertexData hsend [] (fun _ hc => by cases hc) fun c hc => ?_
          simp only [Output.send, List.mem_cons, List.not_mem_nil, or_false] at hc
          rcases hc with rfl | rfl <;> exact id
        · obtain ⟨ia, -, hrest⟩ := Run.bind_eq_ok.mp hcall
          obtain ⟨⟨guest', sent⟩, hdraw, heq⟩ := Run.bind_eq_ok.mp hrest
          obtain ⟨rfl, rfl⟩ := Prod.mk.inj (Except.ok.inj heq)
          obtain ⟨⟨s', sent'⟩, hsend, heq⟩ := Run.bind_eq_ok.mp hdraw
          obtain ⟨rfl, rfl⟩ := Prod.mk.inj (Except.ok.inj heq)
          refine hinv.sendVertexData hsend _ (fun c hc => ?_) fun c hc => ?_
          · split at hc
            · rw [List.mem_singleton.mp hc]
              exact ⟨id, id⟩
            · cases hc
          · rw [List.mem_singleton.mp hc]
            exact id

theorem SameFlags.bindBuffer (s : GLClientState) (target : GLenum) (id : GLuint) :
    SameFlags s (s.bindBuffer target id) := by
  unfold GLClientState.bindBuffer
  split_ifs <;> exact ⟨fun _ => rfl, fun _ => rfl, rfl⟩

theorem SameFlags.modify (s : GLClientState) (location : Int)
    {f : VertexAttribState → VertexAttribState}
    (hf : ∀ a, (f a).enabled = a.enabled ∧ (f a).enableDirty = a.enableDirty) :
    SameFlags s (s.modify location f) := by
  have hstate : ∀ i, ((s.modify location f).states i).enabled = (s.states i).enabled ∧
      ((s.modify location f).states i).enableDirty = (s.states i).enableDirty := by
    intro i
    unfold GLClientState.modify
    grind
  exact ⟨fun i => (hstate i).1, fun i => (hstate i).2, rfl⟩

theorem SameFlags.setState (s : GLClientState) (location size : Int) (type : GLenum)
    (normalized : Bool) (stride : Int) (data : UInt32) :
    SameFlags s (s.setState location size type normalized stride data) := by
  unfold GLClientState.setState
  split
  · exact .modify s location fun _ => ⟨rfl, rfl⟩
  · exact .refl s

theorem Invariant.bufferCall (hinv : x.Invariant) {c : BufferCall} (hc : c.isEnable = false)
    (hcall : x.guest.call .gles1 c = .ok (guest, out)) :
    x.Sends guest out.commands := by
  cases c with
  | glBindBuffer target id =>
      obtain ⟨rfl, rfl⟩ := Prod.mk.inj (Except.ok.inj hcall)
      exact hinv.quiet _ (.bindBuffer _ target id) (one_sent ⟨fun h => h, fun h => h⟩)
  | glBufferData mem target size data usage =>
      have heq := Except.ok.inj hcall
      unfold DrawEncoder.glBufferData at heq
      dsimp only at heq
      split_ifs at heq
      all_goals obtain ⟨rfl, rfl⟩ := Prod.mk.inj heq
      · exact hinv.unchanged nothing_sent
      · exact hinv.unchanged nothing_sent
      · exact hinv.unchanged (one_sent ⟨id, id⟩)
  | glBufferSubData mem target offset size data =>
      have heq : x.guest.glBufferSubData mem target offset size data = .ok (guest, out) := hcall
      unfold DrawEncoder.glBufferSubData at heq
      dsimp only at heq
      split at heq
      · obtain ⟨rfl, rfl⟩ := Prod.mk.inj (Except.ok.inj heq)
        exact hinv.unchanged nothing_sent
      · obtain ⟨r, -, heq⟩ := Run.bind_eq_ok.mp heq
        split at heq
        · obtain ⟨rfl, rfl⟩ := Prod.mk.inj (Except.ok.inj heq)
          exact hinv.unchanged nothing_sent
        · obtain ⟨rfl, rfl⟩ := Prod.mk.inj (Except.ok.inj heq)
          exact hinv.unchanged (one_sent ⟨id, id⟩)
  | glDeleteBuffers n buffers =>
      have heq := Except.ok.inj hcall
      unfold DrawEncoder.glDeleteBuffers at heq
      split at heq
      · obtain ⟨rfl, rfl⟩ := Prod.mk.inj heq
        exact hinv.unchanged nothing_sent
      · obtain ⟨rfl, rfl⟩ := Prod.mk.inj heq
        refine hinv.unchanged fun c hc => ?_
        obtain ⟨buffer, -, rfl⟩ := List.mem_map.mp hc
        exact ⟨id, id⟩
  | setState location size type normalized stride data =>
      obtain ⟨rfl, rfl⟩ := Prod.mk.inj (Except.ok.inj hcall)
      exact hinv.quiet _ (.setState _ location size type normalized stride data)
        nothing_sent
  | enable location state => cases hc
  | glDrawArrays mem mode first count => exact hinv.glDrawArrays hcall
  | glDrawElements mem mode count type indices => exact hinv.glDrawElements hcall

theorem location_of_array {s : GLClientState} {app : ClientArrays}
    (hunit : s.activeTexture = app.clientActiveTexture) (hlt : app.clientActiveTexture < 8)
    {cap : GLenum} (hcap : cap ∈ ArrayCall.arrays) :
    ∃ i < LAST_LOCATION, s.getLocation cap = i ∧ GLClientState.glConst i = cap ∧ app.Selects i := by
  by_cases htex : cap = GL_TEXTURE_COORD_ARRAY
  · refine ⟨TEXCOORD0_LOCATION + app.clientActiveTexture, ?_, ?_, ?_, fun _ => ?_⟩
    · change 4 + app.clientActiveTexture < 14
      omega
    · rw [htex, Nat.cast_add, ← hunit]
      rfl
    · rw [htex]
      have hrange : ∀ u < 8, GLClientState.glConst (TEXCOORD0_LOCATION + u) =
          GL_TEXTURE_COORD_ARRAY := by
        decide
      exact hrange _ hlt
    · rw [Nat.add_sub_cancel_left]
  · have hother : ∀ cap ∈ ArrayCall.arrays, cap ≠ GL_TEXTURE_COORD_ARRAY →
        ∃ i < LAST_LOCATION, (s.getLocation cap = i) ∧ GLClientState.glConst i = cap ∧
          ¬ClientArrays.IsTexCoord i := by
      intro cap hcap hne
      simp only [ArrayCall.arrays, List.mem_cons, List.not_mem_nil, or_false] at hcap
      rcases hcap with rfl | rfl | rfl | rfl | rfl | rfl | rfl
      · exact ⟨VERTEX_LOCATION, by decide, rfl, rfl, by decide⟩
      · exact ⟨NORMAL_LOCATION, by decide, rfl, rfl, by decide⟩
      · exact ⟨COLOR_LOCATION, by decide, rfl, rfl, by decide⟩
      · exact ⟨POINTSIZE_LOCATION, by decide, rfl, rfl, by decide⟩
      · exact absurd rfl hne
      · exact ⟨MATRIXINDEX_LOCATION, by decide, rfl, rfl, by decide⟩
      · exact ⟨WEIGHT_LOCATION, by decide, rfl, rfl, by decide⟩
    obtain ⟨i, hi, hlocation, hconst, hnot⟩ := hother cap hcap htex
    exact ⟨i, hi, hlocation, hconst, fun h => absurd h hnot⟩

/-- The state of an array after it was enabled or disabled. -/
theorem enable_states (s : GLClientState) (location : Int) (state : Bool) (i : Nat) :
    (s.enable location state).states i =
      if s.validLocation location = true ∧ i = location.toNat then
        { s.states i with
          enabled := state
          enableDirty := (s.states i).enableDirty || state != (s.states i).enabled }
      else s.states i := by
  unfold GLClientState.enable
  split
  · rename_i hvalid
    unfold GLClientState.modify
    grind
  · grind

/-- An array that is enabled or disabled is marked, unless nothing changes. -/
theorem Invariant.clean_enable (hinv : x.Invariant) (location : Int) (state : Bool) :
    ∀ i < LAST_LOCATION, ((x.guest.state.enable location state).states i).enableDirty = false →
      x.host.flag i = ((x.guest.state.enable location state).states i).enabled := by
  intro i hi
  rw [enable_states]
  split
  · intro hdirty
    rw [Bool.or_eq_false_iff, bne_eq_false_iff_eq] at hdirty
    rw [hdirty.2]
    exact hinv.clean i hi hdirty.1
  · exact hinv.clean i hi

theorem Invariant.enable (hinv : x.Invariant) (cap : GLenum) (state : Bool) :
    (ArraySystem.mk
      { x.guest with state := x.guest.state.enable (x.guest.state.getLocation cap) state } x.host
      (x.app.set cap state) (x.named && decide (cap ∈ ArrayCall.arrays))).Invariant := by
  refine ⟨hinv.clean_enable _ state, fun hnamed => ?_⟩
  dsimp only at hnamed ⊢
  rw [Bool.and_eq_true, decide_eq_true_eq] at hnamed
  obtain ⟨hunit, hlt, hflag⟩ := hinv.app hnamed.1
  obtain ⟨i, hi, hlocation, rfl, hselects⟩ := location_of_array hunit hlt hnamed.2
  have hvalid : x.guest.state.validLocation i = true := by
    have hle := x.guest.state.lastLocation_le
    grind [GLClientState.validLocation]
  rw [hlocation]
  refine ⟨?_, ?_, fun j hj => ?_⟩
  · unfold GLClientState.enable
    rw [if_pos hvalid]
    unfold ClientArrays.set
    split <;> exact hunit
  · unfold ClientArrays.set
    split <;> exact hlt
  · grind [x.app.flag_set, enable_states]

theorem Invariant.step (hinv : x.Invariant) {c : ArrayCall} {x' : ArraySystem}
    (hstep : x.step c = .ok x') : x'.Invariant := by
  obtain ⟨⟨guest, out⟩, hcall, rfl⟩ := Run.map_eq_ok.mp hstep
  cases c with
  | glEnableClientState state =>
      obtain ⟨rfl, rfl⟩ := Prod.mk.inj (Except.ok.inj hcall)
      exact hinv.enable state true
  | glDisableClientState state =>
      obtain ⟨rfl, rfl⟩ := Prod.mk.inj (Except.ok.inj hcall)
      exact hinv.enable state false
  | glClientActiveTexture texture =>
      obtain ⟨rfl, rfl⟩ := Prod.mk.inj (Except.ok.inj hcall)
      refine ⟨hinv.clean, fun hnamed => ?_⟩
      dsimp only at hnamed
      rw [Bool.and_eq_true, decide_eq_true_eq] at hnamed
      obtain ⟨hnamed, hunit⟩ := hnamed
      have hint : ∀ u : Nat, u < 8 → GLint u = u := fun u hu =>
        GLint_of_range (by omega) (by omega)
      refine ⟨?_, hunit, (hinv.app hnamed).2.2⟩
      grind [GLEncoder.glClientActiveTexture, appCall, ClientArrays.select, ArrayCall.Names]
  | buffer c =>
      by_cases hc : c.isEnable = false
      · have hsends := hinv.bufferCall hc hcall
        refine ⟨hsends.clean, fun hnamed => ?_⟩
        dsimp only at hnamed ⊢
        rw [Bool.and_eq_true] at hnamed
        obtain ⟨hunit, hlt, hflag⟩ := hinv.app hnamed.1
        refine ⟨hsends.activeTexture.trans hunit, hlt, fun i hi => ?_⟩
        rw [hsends.enabled]
        exact hflag i hi
      · cases c with
        | enable location state =>
            obtain ⟨rfl, rfl⟩ := Prod.mk.inj (Except.ok.inj hcall)
            refine ⟨hinv.clean_enable location state, fun hnamed => ?_⟩
            dsimp only at hnamed
            rw [Bool.and_eq_true, decide_eq_true_eq] at hnamed
            exact absurd hnamed.2 hc
        | _ => exact absurd rfl hc

theorem invariant_init (nLocations : Nat) (pointers : Nat → Option VertexPointer) :
    (init nLocations pointers).Invariant := by
  have hflag : ∀ i, ClientArrays.init.flag i = false := by
    intro i
    unfold ClientArrays.flag
    split <;> rfl
  exact ⟨fun i _ _ => hflag i, fun _ => ⟨rfl, Nat.zero_lt_succ 7, fun i _ => hflag i⟩⟩

theorem Invariant.synchronised (hinv : x.Invariant) {c : ArrayCall}
    (hcall : x.call c = .ok (guest, out)) :
    AtDraws (x.Synchronised guest.state) x.host out.commands := by
  cases c with
  | glEnableClientState state =>
      obtain ⟨rfl, rfl⟩ := Prod.mk.inj (Except.ok.inj hcall)
      trivial
  | glDisableClientState state =>
      obtain ⟨rfl, rfl⟩ := Prod.mk.inj (Except.ok.inj hcall)
      trivial
  | glClientActiveTexture texture =>
      obtain ⟨rfl, rfl⟩ := Prod.mk.inj (Except.ok.inj hcall)
      trivial
  | buffer c =>
      by_cases hc : c.isEnable = false
      · have hsends := hinv.bufferCall hc hcall
        refine atDraws_mono (fun h hflag i hi => ⟨hflag i hi, fun hnamed => ?_⟩) hsends.draws
        rw [hflag i hi, hsends.enabled, (hinv.app hnamed).2.2 i hi]
      · cases c with
        | enable location state =>
            obtain ⟨rfl, rfl⟩ := Prod.mk.inj (Except.ok.inj hcall)
            trivial
        | _ => exact absurd rfl hc

/-- In every run, at each draw command that is sent, each array is enabled on the host if and only
if it is enabled in the guest, the texture coordinates of every unit included; and so it is as the
application has set it, as long as its calls have named arrays. -/
theorem arrays_synchronised (nLocations : Nat) (pointers : Nat → Option VertexPointer)
    (x : ArraySystem) (hreach : Run.Reach step (fun _ _ => True) (init nLocations pointers) x)
    (c : ArrayCall) (guest : DrawEncoder) (out : Output) (hcall : x.call c = .ok (guest, out)) :
    AtDraws (x.Synchronised guest.state) x.host out.commands := by
  have hinv : x.Invariant :=
    hreach.invariant (invariant_init nLocations pointers) fun _ _ _ hinv _ hstep => hinv.step hstep
  exact hinv.synchronised hcall

/-- Texture coordinates of unit 2 are drawn, and disabled while unit 0 is selected: before the next
draw the host has not heard of it. -/
theorem arrays_synchronised_disabled :
    ∃ x : ArraySystem, x.named = true ∧ x.host.flag 6 = true ∧ x.app.flag 6 = false ∧
      ∀ c guest out, x.call c = .ok (guest, out) →
        AtDraws (x.Synchronised guest.state) x.host out.commands := by
  have hrun : Run.check step (fun _ _ => true)
      (fun x => x.named && x.host.flag 6 && !x.app.flag 6) (init 64 fun _ => none)
      [.glClientActiveTexture (GL_TEXTURE0 + 2), .glEnableClientState GL_TEXTURE_COORD_ARRAY,
        .buffer (.setState 6 2 GL_BYTE false 0 4096), .glEnableClientState GL_VERTEX_ARRAY,
        .buffer (.setState 0 2 GL_BYTE false 0 4096), .buffer (.glDrawArrays (fun _ => 7) 4 0 3),
        .glDisableClientState GL_TEXTURE_COORD_ARRAY, .glClientActiveTexture GL_TEXTURE0,
        .glDisableClientState GL_VERTEX_ARRAY, .glEnableClientState GL_VERTEX_ARRAY] = true := by
    decide +kernel
  obtain ⟨x, hreach, htest⟩ := Run.exists_reach_of_check (fun _ _ _ => trivial) hrun
  rw [Bool.and_eq_true, Bool.and_eq_true, Bool.not_eq_true'] at htest
  exact ⟨x, htest.1.1, htest.1.2, htest.2, arrays_synchronised 64 _ x hreach⟩

end ArraySystem

end AndroidRenderer
