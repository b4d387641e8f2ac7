import AndroidRenderer.OpenglRender.CurrentContext
import AndroidRenderer.OpenglRender.HandleTables

/-!
# Handles and references to color buffers

`genHandle` goes on while a number is 0, or the handle of a context or a window surface; the color
buffers are not looked at. Its counter has 32 bits, as have the reference counts. While no counter
comes to a number that is the handle of a color buffer, and no count wraps, new handles are unused
and a color buffer is there while more clients have opened than closed it.
-/

namespace AndroidRenderer.OpenglRender

namespace Tables

variable {T T' : Tables} {id : HandleType}

/-- The first number behind the counter that `genHandle` stops at is no color buffer's. -/
def NextUnused (T : Tables) : Prop :=
  ∃ k < 2 ^ 32, (∀ j < k, T.taken (T.nextHandle + UInt32.ofNat (j + 1)) = true) ∧
    T.taken (T.nextHandle + UInt32.ofNat (k + 1)) = false ∧
    T.colorbuffers.get? (T.nextHandle + UInt32.ofNat (k + 1)) = none

/-- A handle that names nothing. -/
structure Fresh (T : Tables) (id : HandleType) : Prop where
  nonzero : id ≠ 0
  context : T.contexts.get? id = none
  window : T.windows.get? id = none
  colorbuffer : T.colorbuffers.get? id = none

theorem add_next (id : HandleType) (k : Nat) :
    id + 1 + UInt32.ofNat (k + 1) = id + UInt32.ofNat (k + 1 + 1) := by
  rw [UInt32.ofNat_add (k + 1) 1, UInt32.add_comm _ (UInt32.ofNat 1), ← UInt32.add_assoc]
  rfl

/-- The loop stops at the first number that is not taken. -/
theorem genHandleLoop_eq_ok {taken : HandleType → Bool} {fuel : Nat} {id' : HandleType} :
    FrameBuffer.genHandleLoop taken fuel id = .ok id' ↔
      ∃ k < fuel, (∀ j < k, taken (id + UInt32.ofNat (j + 1)) = true) ∧
        taken (id + UInt32.ofNat (k + 1)) = false ∧ id' = id + UInt32.ofNat (k + 1) := by
  induction fuel generalizing id with
  | zero => simp [FrameBuffer.genHandleLoop]
  | succ fuel ih =>
      rw [FrameBuffer.genHandleLoop]
      split
      · rename_i htaken
        rw [ih]
        simp only [add_next]
        constructor
        · rintro ⟨k, hk, hbelow, hfree, rfl⟩
          refine ⟨k + 1, Nat.succ_lt_succ hk, fun j hj => ?_, hfree, rfl⟩
          cases j with
          | zero => exact htaken
          | succ j => exact hbelow j (Nat.lt_of_succ_lt_succ hj)
        · rintro ⟨k, hk, hbelow, hfree, rfl⟩
          cases k with
          | zero => exact absurd htaken (by rw [Bool.not_eq_true]; exact hfree)
          | succ k =>
              exact ⟨k, Nat.lt_of_succ_lt_succ hk, fun j hj => hbelow (j + 1) (Nat.succ_lt_succ hj),
                hfree, rfl⟩
      · rename_i hfree
        rw [Bool.not_eq_true] at hfree
        constructor
        · intro h
          cases h
          exact ⟨0, Nat.succ_pos _, fun j hj => absurd hj (Nat.not_lt_zero j), hfree, rfl⟩
        · rintro ⟨k, -, hbelow, -, rfl⟩
          cases k with
          | zero => rfl
          | succ k => exact absurd (hbelow 0 (Nat.succ_pos k)) (by rw [Bool.not_eq_true]; exact hfree)

theorem not_taken (h : T.taken id = false) :
    id ≠ 0 ∧ T.contexts.get? id = none ∧ T.windows.get? id = none := by
  simpa [taken, and_assoc] using h

theorem Generates.fresh_iff (h : T.Generates id) :
    T.Fresh id ↔ T.colorbuffers.get? id = none := by
  obtain ⟨k, -, -, hfree, rfl⟩ := genHandleLoop_eq_ok.mp h
  obtain ⟨hnonzero, hcontext, hwindow⟩ := not_taken hfree
  exact ⟨Fresh.colorbuffer, fun hcb => ⟨hnonzero, hcontext, hwindow, hcb⟩⟩

/-- The condition is exactly that `genHandle` returns an unused handle. -/
theorem nextUnused_iff : T.NextUnused ↔ ∃ id, T.Generates id ∧ T.Fresh id := by
  constructor
  · rintro ⟨k, hk, hbelow, hfree, hcb⟩
    have hgen : T.Generates (T.nextHandle + UInt32.ofNat (k + 1)) :=
      genHandleLoop_eq_ok.mpr ⟨k, hk, hbelow, hfree, rfl⟩
    exact ⟨_, hgen, hgen.fresh_iff.mpr hcb⟩
  · rintro ⟨id, hgen, hfresh⟩
    obtain ⟨k, hk, hbelow, hfree, rfl⟩ := genHandleLoop_eq_ok.mp hgen
    exact ⟨k, hk, hbelow, hfree, hfresh.colorbuffer⟩

theorem Generates.fresh (h : T.Generates id) (hnext : T.NextUnused) : T.Fresh id := by
  obtain ⟨id', hgen, hfresh⟩ := nextUnused_iff.mp hnext
  obtain rfl : id' = id := Except.ok.inj (hgen.symm.trans h)
  exact hfresh

/-! ## References to color buffers -/

end Tables

/-- How often a color buffer was opened and closed after it was created. -/
structure Tally where
  opens : Nat
  closes : Nat
  deriving DecidableEq, Repr

/-- The creation counts as well. -/
def Tally.Positive (y : Tally) : Prop := y.closes < 1 + y.opens

instance (y : Tally) : Decidable y.Positive := inferInstanceAs (Decidable (_ < _))

/-- What clients have done with the color buffer of a handle, once there was one. A handle that
has no references any more names nothing, until it is given again. -/
abbrev Ledger := HandleType → Option Tally

namespace Ledger

def opened (L : Ledger) (id : HandleType) : Ledger :=
  Function.update L id
    ((L id).map fun y => if y.Positive then { y with opens := y.opens + 1 } else y)

def closed (L : Ledger) (id : HandleType) : Ledger :=
  Function.update L id
    ((L id).map fun y => if y.Positive then { y with closes := y.closes + 1 } else y)

/-- The ledger after a call that has returned `id`. -/
def record (L : Ledger) (id : HandleType) : FrameBuffer.Call → Ledger
  | .own (.createColorBuffer _ _ _) => if id = 0 then L else Function.update L id (some ⟨0, 0⟩)
  | .openColorBuffer p_colorbuffer => L.opened p_colorbuffer
  | .own (.closeColorBuffer p_colorbuffer) => L.closed p_colorbuffer
  | _ => L

theorem record_zero (L : Ledger) {call : FrameBuffer.Call}
    (h : Tables.countsReferences call = false) : L.record 0 call = L := by
  cases call with
  | own call =>
      cases call with
      | closeColorBuffer p_colorbuffer => cases h
      | createColorBuffer => rfl
      | _ => rfl
  | openColorBuffer p_colorbuffer => cases h
  | _ => rfl

end Ledger

namespace Tables

variable {T T' : Tables} {id : HandleType} {L : Ledger} {call : FrameBuffer.Call}

/-- The table of color buffers is what the ledger says. -/
structure Counted (T : Tables) (L : Ledger) : Prop where
  present : ∀ id c, T.colorbuffers.get? id = some c → ∃ y, L id = some y ∧
    y.closes + c.refcount.toNat = 1 + y.opens ∧ 0 < c.refcount.toNat
  absent : ∀ id y, T.colorbuffers.get? id = none → L id = some y → ¬y.Positive

theorem Counted.isSome_iff (h : T.Counted L) (id : HandleType) :
    (T.colorbuffers.get? id).isSome ↔ ∃ y, L id = some y ∧ y.Positive := by
  cases hget : T.colorbuffers.get? id with
  | none => grind [h.absent]
  | some c => grind [Tally.Positive, h.present]

/-- A color buffer is opened before its count wraps, and numbers that are given are unused. -/
def Careful (T : Tables) (call : FrameBuffer.Call) : Prop :=
  (T.CallsGenHandle call → T.NextUnused) ∧
    ∀ p_colorbuffer c, call = .openColorBuffer p_colorbuffer →
      T.colorbuffers.get? p_colorbuffer = some c → c.refcount.toNat + 1 < 2 ^ 32

theorem Counted.add (h : T.Counted L) {c : ColorBufferRef} {y : Tally}
    (hcount : y.closes + c.refcount.toNat = 1 + y.opens) (hpos : 0 < c.refcount.toNat)
    (hadded : T'.colorbuffers = T.colorbuffers.add id c) :
    T'.Counted (Function.update L id (some y)) := by
  constructor
  · grind [h.present]
  · grind [h.absent]

theorem Counted.remove (h : T.Counted L) {y : Tally} (hdead : ¬y.Positive)
    (hremoved : T'.colorbuffers = T.colorbuffers.remove id) :
    T'.Counted (Function.update L id (some y)) := by
  constructor
  · grind [h.present]
  · grind [h.absent]

/-- A handle that names nothing is not counted for. -/
theorem Counted.ignored (h : T.Counted L) (hnone : T.colorbuffers.get? id = none)
    (f : Tally → Tally) :
    Function.update L id ((L id).map fun y => if y.Positive then f y else y) = L := by
  rw [Function.update_eq_self_iff]
  cases hy : L id with
  | none => rfl
  | some y => rw [Option.map_some, if_neg (h.absent id y hnone hy)]

theorem Counted.openColorBuffer (h : T.Counted L) {p_colorbuffer : HandleType}
    (hwrap : ∀ c, T.colorbuffers.get? p_colorbuffer = some c → c.refcount.toNat + 1 < 2 ^ 32) :
    (T.openColorBuffer p_colorbuffer).Counted (L.opened p_colorbuffer) := by
  rw [Tables.openColorBuffer, Ledger.opened]
  cases hget : T.colorbuffers.get? p_colorbuffer with
  | none =>
      rw [h.ignored hget]
      exact h
  | some c =>
      obtain ⟨y, hy, hcount, hpos⟩ := h.present _ c hget
      have hpositive : y.Positive := by
        rw [Tally.Positive]
        omega
      have hnext : (c.refcount + 1).toNat = c.refcount.toNat + 1 := by grind [UInt32.toNat_add]
      rw [hy, Option.map_some, if_pos hpositive]
      refine h.add ?_ ?_ rfl
      · grind
      · grind

theorem Counted.closeColorBuffer (h : T.Counted L) (p_colorbuffer : HandleType) :
    (T.closeColorBuffer p_colorbuffer).Counted (L.closed p_colorbuffer) := by
  rw [Tables.closeColorBuffer, Ledger.closed]
  cases hget : T.colorbuffers.get? p_colorbuffer with
  | none =>
      rw [h.ignored hget]
      exact h
  | some c =>
      obtain ⟨y, hy, hcount, hpos⟩ := h.present _ c hget
      have hpositive : y.Positive := by
        rw [Tally.Positive]
        omega
      have hle : (1 : UInt32) ≤ c.refcount := by
        rw [UInt32.le_iff_toNat_le]
        exact hpos
      have hprev : (c.refcount - 1).toNat = c.refcount.toNat - 1 :=
        UInt32.toNat_sub_of_le _ _ hle
      rw [hy, Option.map_some, if_pos hpositive]
      dsimp only
      split
      · rename_i hzero
        rw [hzero] at hprev
        have hone : c.refcount.toNat = 1 := by
          have hz : (0 : UInt32).toNat = 0 := rfl
          omega
        refine h.remove ?_ rfl
        show ¬y.closes + 1 < 1 + y.opens
        omega
      · rename_i hnonzero
        have hmore : (c.refcount - 1).toNat ≠ 0 := fun heq =>
          hnonzero (UInt32.toNat_inj.mp heq)
        refine h.add ?_ ?_ rfl
        · grind
        · show 0 < (c.refcount - 1).toNat
          omega

theorem Counted.congr (h : T.Counted L) (hsame : T'.colorbuffers = T.colorbuffers) :
    T'.Counted L := by
  refine ⟨fun id c hget => h.present id c ?_, fun id y hget => h.absent id y ?_⟩
  · rwa [← hsame]
  · rwa [← hsame]

theorem Counted.step (h : T.Counted L) (hcareful : T.Careful call) (hstep : T.Step call id T') :
    T'.Counted (L.record id call) := by
  cases hstep with
  | createColorBuffer hcalls hgen =>
      rw [Ledger.record, if_neg (hgen.fresh (hcareful.1 hcalls)).nonzero]
      refine h.add (y := ⟨0, 0⟩) (c := ⟨_, 1⟩) rfl ?_ rfl
      exact Nat.one_pos
  | createRenderContext | createWindowSurface | DestroyRenderContext => exact h.congr rfl
  | openColorBuffer => exact h.openColorBuffer fun c => hcareful.2 _ c rfl
  | closeColorBuffer => exact h.closeColorBuffer _
  | DestroyWindowSurface | noPbuffer => exact h.congr rfl
  | same hother =>
      rw [Ledger.record_zero L hother]
      exact h

/-! ## What is created -/

/-- Everything that was named by a handle still is. -/
structure Keeps (T T' : Tables) : Prop where
  contexts : ∀ id c, T.contexts.get? id = some c → T'.contexts.get? id = some c
  windows : ∀ id w, T.windows.get? id = some w → T'.windows.get? id = some w
  colorbuffers : ∀ id cb, T.colorbuffers.get? id = some cb → T'.colorbuffers.get? id = some cb

/-- Adding under an unused key replaces nothing. -/
theorem get?_add_of_unused {α : Type} {v : KeyedVector HandleType α} {a : α}
    (hunused : v.get? id = none) (id' : HandleType) (b : α) (hget : v.get? id' = some b) :
    (v.add id a).get? id' = some b := by
  rw [KeyedVector.get?_add, if_neg]
  · exact hget
  · grind

def creates : FrameBuffer.Call → Bool
  | .own (.createColorBuffer _ _ _) => true
  | .createRenderContext _ _ _ _ => true
  | .createWindowSurface _ _ _ _ => true
  | _ => false

/-- Nothing is replaced by what is created, and its handle was unused. -/
theorem Step.creates (hstep : T.Step call id T') (hcareful : T.Careful call)
    (hcreates : creates call = true) : T.Keeps T' ∧ (id = 0 ∨ T.Fresh id) := by
  cases hstep with
  | createColorBuffer hcalls hgen =>
      have hfresh := hgen.fresh (hcareful.1 hcalls)
      exact ⟨⟨fun _ _ h => h, fun _ _ h => h, get?_add_of_unused hfresh.colorbuffer⟩, .inr hfresh⟩
  | createRenderContext hcalls hgen =>
      have hfresh := hgen.fresh (hcareful.1 hcalls)
      exact ⟨⟨get?_add_of_unused hfresh.context, fun _ _ h => h, fun _ _ h => h⟩, .inr hfresh⟩
  | createWindowSurface hcalls hgen =>
      have hfresh := hgen.fresh (hcareful.1 hcalls)
      exact ⟨⟨fun _ _ h => h, get?_add_of_unused hfresh.window, fun _ _ h => h⟩, .inr hfresh⟩
  | same | noPbuffer => exact ⟨⟨fun _ _ h => h, fun _ _ h => h, fun _ _ h => h⟩, .inl rfl⟩
  | openColorBuffer | closeColorBuffer | DestroyRenderContext | DestroyWindowSurface =>
      cases hcreates

end Tables

namespace FrameBuffer

variable {n : Nat}

/-! ## Runs -/

/-- The frame buffer, and what clients have done with color buffers. -/
structure Tracked (n : Nat) where
  fb : FrameBuffer n
  ledger : Ledger

def Tracked.step (x : Tracked n) (call : Fin n × Call) : Except CallFault (Tracked n) :=
  (x.fb.step call).map fun fb => ⟨fb, x.ledger.record (x.fb.reply call) call.2⟩

def Tracked.initial (eglContext : EGLContext) (pbufSurface : EGLSurface) : Tracked n :=
  ⟨FrameBuffer.initial eglContext pbufSurface, fun _ => none⟩

def Tracked.Careful (x : Tracked n) (call : Fin n × Call) : Prop := x.fb.tables.Careful call.2

theorem Tracked.counted_step {x x' : Tracked n} {call : Fin n × Call}
    (h : x.fb.tables.Counted x.ledger) (hcareful : x.Careful call) (hs : x.step call = .ok x') :
    x'.fb.tables.Counted x'.ledger := by
  obtain ⟨fb, hfb, rfl⟩ := Run.map_eq_ok.mp hs
  exact h.step hcareful (step_tables hfb)

theorem Tracked.counted_initial (eglContext : EGLContext) (pbufSurface : EGLSurface) :
    (initial eglContext pbufSurface : Tracked n).fb.tables.Counted
      (initial eglContext pbufSurface : Tracked n).ledger :=
  ⟨fun _ _ h => (nomatch h), fun _ _ _ h => (nomatch h)⟩

theorem generates_iff {s : FrameBuffer n} {id : HandleType} :
    s.tables.Generates id ↔ ∃ s', s.genHandle = .ok (s', id) := by
  constructor
  · intro h
    exact ⟨{ s with s_nextHandle := id }, Run.bind_eq_ok.mpr ⟨id, h, rfl⟩⟩
  · grind [genHandle_generates]

/-- In every run of careful calls, color buffers are there while their references count more than
zero, a careful call that creates something replaces nothing and returns an unused handle, and the
condition is the one under which `genHandle` does. -/
theorem handles_unused {x : Tracked n} {eglContext : EGLContext} {pbufSurface : EGLSurface}
    (h : Run.Reach Tracked.step Tracked.Careful (Tracked.initial eglContext pbufSurface) x) :
    (∀ id, (x.fb.m_colorbuffers.get? id).isSome ↔ ∃ y, x.ledger id = some y ∧ y.Positive) ∧
      (x.fb.tables.NextUnused ↔ ∃ s id, x.fb.genHandle = .ok (s, id) ∧ x.fb.tables.Fresh id) ∧
      ∀ call x', x.Careful call → x.step call = .ok x' → Tables.creates call.2 = true →
        x.fb.tables.Keeps x'.fb.tables ∧
          (x.fb.reply call = 0 ∨ x.fb.tables.Fresh (x.fb.reply call)) := by
  have hcounted : x.fb.tables.Counted x.ledger :=
    h.invariant (I := fun x => x.fb.tables.Counted x.ledger)
      (Tracked.counted_initial eglContext pbufSurface)
      fun _ _ _ hinv hok hs => Tracked.counted_step hinv hok hs
  refine ⟨hcounted.isSome_iff, ?_, ?_⟩
  · rw [Tables.nextUnused_iff]
    constructor
    · rintro ⟨id, hgen, hfresh⟩
      obtain ⟨s, hs⟩ := generates_iff.mp hgen
      exact ⟨s, id, hs, hfresh⟩
    · rintro ⟨s, id, hs, hfresh⟩
      exact ⟨id, generates_iff.mpr ⟨s, hs⟩, hfresh⟩
  · intro call x' hcareful hs hcreates
    obtain ⟨fb, hfb, rfl⟩ := Run.map_eq_ok.mp hs
    exact (step_tables hfb).creates hcareful hcreates

/-- A color buffer that two clients have, of whom one closes it, and a context and a surface. -/
def sharedBuffer : List (Fin 1 × Call) :=
  [.own (.createColorBuffer 1 1 GL_RGBA), .openColorBuffer 1, .createRenderContext true 0 false 7,
    .createWindowSurface true 1 1 8, .own (.closeColorBuffer 1)].map (Prod.mk (Fin.last 0))

/-- The next number is unused, and a count is far from its end. -/
def Tracked.carefulTest (x : Tracked n) (call : Fin n × Call) : Bool :=
  (!x.fb.tables.taken (x.fb.s_nextHandle + 1) &&
    (x.fb.m_colorbuffers.get? (x.fb.s_nextHandle + 1)).isNone) &&
  match call.2 with
  | .openColorBuffer p_colorbuffer =>
      ((x.fb.m_colorbuffers.get? p_colorbuffer).map fun c => c.refcount) = some 1
  | _ => true

theorem Tracked.careful_of_test (x : Tracked n) (call : Fin n × Call)
    (h : x.carefulTest call = true) : x.Careful call := by
  rw [carefulTest, Bool.and_eq_true, Bool.and_eq_true, Bool.not_eq_true', Option.isNone_iff_eq_none] at h
  obtain ⟨⟨hfree, hcb⟩, hopen⟩ := h
  refine ⟨fun _ => ⟨0, by decide, fun j hj => (nomatch hj), hfree, hcb⟩, ?_⟩
  intro p_colorbuffer c hcall hget
  rw [hcall] at hopen
  have hget' : x.fb.m_colorbuffers.get? p_colorbuffer = some c := hget
  have hcount : c.refcount = 1 := by simpa [hget'] using hopen
  rw [hcount]
  decide

theorem sharedBuffer_check :
    Run.check Tracked.step Tracked.carefulTest
      (fun x => x.ledger 1 = some ⟨1, 1⟩) (Tracked.initial 1 2) sharedBuffer = true := by
  decide +kernel

theorem handles_unused_shared :
    ∃ x : Tracked 1, x.ledger 1 = some ⟨1, 1⟩ ∧ (x.fb.m_colorbuffers.get? 1).isSome := by
  obtain ⟨x, hreach, hx⟩ := Run.exists_reach_of_check Tracked.careful_of_test sharedBuffer_check
  have hledger := of_decide_eq_true hx
  exact ⟨x, hledger, ((handles_unused hreach).1 1).mpr ⟨_, hledger, by decide⟩⟩

/-- `k` contexts have been created and destroyed while there was a color buffer. -/
structure Aged (k : Nat) (s : FrameBuffer 1) : Prop where
  reach : Run.Reach FrameBuffer.step (fun _ _ => True) (FrameBuffer.initial 1 2) s
  context : ∀ id, s.m_contexts.get? id = none
  window : ∀ id, s.m_windows.get? id = none
  colorbuffer : (s.m_colorbuffers.get? 1).isSome
  nextHandle : s.s_nextHandle = UInt32.ofNat (k + 1)

theorem Aged.free {k : Nat} {s : FrameBuffer 1} (h : s.Aged k) {id : HandleType} (hid : id ≠ 0) :
    s.handleTaken id = false := by
  simp [handleTaken, hid, h.context, h.window]

theorem aged_check :
    Run.check FrameBuffer.step (fun _ _ => true)
      (fun s => s.m_contexts.entries = [] && s.m_windows.entries = [] &&
        (s.m_colorbuffers.get? 1).isSome && s.s_nextHandle = 1)
      (FrameBuffer.initial 1 2)
      ([.own (.createColorBuffer 1 1 GL_RGBA)].map (Prod.mk (Fin.last 0))) = true := by
  decide +kernel

theorem aged_zero : ∃ s, Aged 0 s := by
  obtain ⟨s, hreach, hs⟩ :=
    Run.exists_reach_of_check (fun _ _ _ => trivial) aged_check
  simp only [Bool.and_eq_true, decide_eq_true_eq] at hs
  obtain ⟨⟨⟨hcontexts, hwindows⟩, hcb⟩, hnext⟩ := hs
  refine ⟨s, hreach, fun id => ?_, fun id => ?_, hcb, hnext⟩
  · rw [KeyedVector.get?, hcontexts]
    rfl
  · rw [KeyedVector.get?, hwindows]
    rfl

theorem Aged.next {k : Nat} {s : FrameBuffer 1} (h : s.Aged k) (hk : k + 2 < 2 ^ 32) :
    ∃ s', Aged (k + 1) s' := by
  let id := UInt32.ofNat (k + 1 + 1)
  have hid : id ≠ 0 := by
    intro heq
    have hnat : (k + 1 + 1) % 2 ^ 32 = 0 := congrArg UInt32.toNat heq
    omega
  have hnext : s.s_nextHandle + UInt32.ofNat (0 + 1) = id := by
    rw [h.nextHandle, ← UInt32.ofNat_add]
  let s₁ : FrameBuffer 1 :=
    { s with
      contexts := s.contexts ++ [⟨7, false⟩], s_nextHandle := id
      m_contexts := s.m_contexts.add id s.contexts.length }
  have hgen : genHandleLoop s.handleTaken (2 ^ 32) s.s_nextHandle = .ok id :=
    Tables.genHandleLoop_eq_ok.mpr
      ⟨0, by decide, fun j hj => (nomatch hj), by rw [hnext]; exact h.free hid, hnext.symm⟩
  have hcreate : s.step (Fin.last 0, .createRenderContext true 0 false 7) = .ok s₁ := by
    refine Run.map_eq_ok.mpr ⟨(s₁, id), ?_, rfl⟩
    exact Run.bind_eq_ok.mpr ⟨(_, id), Run.bind_eq_ok.mpr ⟨id, hgen, rfl⟩, rfl⟩
  let s₂ := s₁.DestroyRenderContext id
  have htables : s₂.tables = { s₁.tables with contexts := s₁.m_contexts.remove id } :=
    releaseContext_tables _ _
  refine ⟨s₂, ((h.reach.step trivial hcreate).step trivial (a := (0, .DestroyRenderContext id)) rfl),
    ?_, ?_, ?_, ?_⟩
  · intro id'
    show s₂.tables.contexts.get? id' = none
    grind [h.context]
  · intro id'
    show s₂.tables.windows.get? id' = none
    rw [htables]
    exact h.window id'
  · show (s₂.tables.colorbuffers.get? 1).isSome
    rw [htables]
    exact h.colorbuffer
  · show s₂.tables.nextHandle = _
    rw [htables]
    rfl

theorem exists_aged (k : Nat) (hk : k + 1 < 2 ^ 32) : ∃ s, Aged k s := by
  induction k with
  | zero => exact aged_zero
  | succ k ih =>
      obtain ⟨s, hs⟩ := ih (by omega)
      exact hs.next hk

/-- After the counter has wrapped, `genHandle` returns the handle of a color buffer. -/
theorem genHandle_of_live :
    ∃ s : FrameBuffer 1,
      Run.Reach FrameBuffer.step (fun _ _ => True) (FrameBuffer.initial 1 2) s ∧
      (s.m_colorbuffers.get? 1).isSome ∧ ∃ s', s.genHandle = .ok (s', 1) := by
  obtain ⟨s, hs⟩ := exists_aged (2 ^ 32 - 2) (by decide)
  refine ⟨s, hs.reach, hs.colorbuffer, generates_iff.mp ?_⟩
  refine Tables.genHandleLoop_eq_ok.mpr ⟨1, by decide, ?_, ?_, ?_⟩
  · intro j hj
    obtain rfl : j = 0 := by omega
    show s.handleTaken (s.s_nextHandle + 1) = true
    rw [hs.nextHandle]
    rfl
  · show s.handleTaken (s.s_nextHandle + 2) = false
    rw [hs.nextHandle]
    exact hs.free (by decide)
  · show 1 = s.s_nextHandle + 2
    rw [hs.nextHandle]
    rfl

end FrameBuffer

end AndroidRenderer.OpenglRender
