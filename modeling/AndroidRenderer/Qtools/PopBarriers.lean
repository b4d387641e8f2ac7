import AndroidRenderer.Qtools.CallStackRuns

/-!
# Pop barriers

A frame that caused an exception, or that is a method's, is a barrier for `doPop`: a pass over the
frames removes it only as the frame whose return address the block has. Where the kernel is left
there is a second pass, and the frame that was on top after the first one is no barrier any more
for having caused the exception.
-/

namespace AndroidRenderer.Qtools

namespace CallStack

open Run

variable {Sym : Type} [DecidableEq Sym] {e : Env Sym} {c c' : CallStack Sym} {event : BBEvent}
  {function : Sym} {bb_addr : BitVec 32}

def barrier (c : CallStack Sym) (level : Nat) : Bool := (c.mFrames level).flags.kPopBarrier

/-- A pass over the frames: which barriers it removes, and the frames it leaves. -/
structure Pass (bb_addr : BitVec 32) (c c' : CallStack Sym) : Prop where
  top : c'.mTop ≤ c.mTop
  barriers : ∀ k, c'.mTop ≤ k → k < c.mTop → c.barrier k = true →
    k = c'.mTop ∧ (c.mFrames k).addr = bb_addr
  frames : c'.mFrames =
    if 0 < c'.mTop then (c.setCausedException (c'.mTop - 1) false).mFrames else c.mFrames

/-- Two call stacks that differ in nothing but frames that are not on the stack. -/
structure Agree (c c' : CallStack Sym) : Prop where
  same : c' = { c with mFrames := c'.mFrames }
  frames : ∀ k < c.mTop, c'.mFrames k = c.mFrames k

/-- What holds of the members of a call stack between two calls. -/
structure Sound (e : Env Sym) (c : CallStack Sym) : Prop where
  frames : 0 < c.mNumFrames
  top : c.mTop ≤ c.mNumFrames
  user : isKernel e c.mUserFunction = false

/-- There is a frame behind the newest one, or the newest one stops no search for an address. -/
def Room (c : CallStack Sym) (bb_addr : BitVec 32) : Prop :=
  c.mTop = c.mNumFrames → c.barrier (c.mTop - 1) = true → (c.mFrames (c.mTop - 1)).addr = bb_addr

/-! ## The searches -/

omit [DecidableEq Sym] in
/-- Where the search for a return address stops, when no method may be popped: at a frame with
the address and without barriers above, or above a barrier. -/
theorem findReturn_some {n level : Nat} (h : c.findReturn bb_addr false n = some level) :
    (level < n ∧ (c.mFrames level).addr = bb_addr ∧
      ∀ k, level < k → k < n → c.barrier k = false) ∨
    (level ≤ n ∧ 0 < level ∧ c.barrier (level - 1) = true ∧
      ∀ k, level - 1 ≤ k → k < n → (c.mFrames k).addr ≠ bb_addr) := by
  induction n with
  | zero => cases h
  | succ n ih =>
      rw [findReturn] at h
      split at h
      · rename_i haddr
        obtain rfl := Option.some.inj h
        exact .inl ⟨Nat.lt_succ_self n, haddr.symm,
          fun k hlt hk => absurd (Nat.le_of_lt_succ hk) (Nat.not_le.mpr hlt)⟩
      · rename_i haddr
        split at h
        · rename_i hbarrier
          rw [Bool.and_false] at h
          obtain rfl := Option.some.inj h
          refine .inr ⟨Nat.le_refl _, Nat.succ_pos n, hbarrier, fun k hle hk => ?_⟩
          rw [Nat.le_antisymm (Nat.le_of_lt_succ hk) hle]
          exact Ne.symm haddr
        · rename_i hbarrier
          have hn : c.barrier n = false := by simpa [barrier] using hbarrier
          obtain ⟨hlt, haddr', hbarriers⟩ | ⟨hle, hpos, hbar, haddrs⟩ := ih h
          · refine .inl ⟨Nat.lt_succ_of_lt hlt, haddr', fun k hlevel hk => ?_⟩
            obtain rfl | hk' : k = n ∨ k < n := by omega
            · exact hn
            · exact hbarriers k hlevel hk'
          · refine .inr ⟨Nat.le_succ_of_le hle, hpos, hbar, fun k hlevel hk => ?_⟩
            obtain rfl | hk' : k = n ∨ k < n := by omega
            · exact Ne.symm haddr
            · exact haddrs k hlevel hk'

omit [DecidableEq Sym] in
theorem findReturn_none {n : Nat} (h : c.findReturn bb_addr false n = none) :
    ∀ k < n, c.barrier k = false := by
  induction n with
  | zero => exact fun k hk => absurd hk (Nat.not_lt_zero k)
  | succ n ih =>
      rw [findReturn] at h
      split at h
      · cases h
      · split at h
        · rw [Bool.and_false] at h
          cases h
        · rename_i hbarrier
          intro k hk
          obtain rfl | hk' : k = n ∨ k < n := by omega
          · simpa [barrier] using hbarrier
          · exact ih h k hk'

/-- The search for a function goes past no barrier. -/
theorem findFunction_barrier (n : Nat) :
    ∀ k, (c.findFunction function false n).getD 0 ≤ k → k < n → c.barrier k = false := by
  induction n with
  | zero => exact fun k _ hk => absurd hk (Nat.not_lt_zero k)
  | succ n ih =>
      rw [findFunction]
      intro k hle hlt
      split at hle
      · grind
      · split at hle
        · grind
        · rename_i hbarrier
          obtain rfl | hk' : k = n ∨ k < n := by omega
          · simpa [barrier] using hbarrier
          · exact ih k hle hk'

theorem findFunction_top {n : Nat} (h : c.barrier n = true) :
    (c.findFunction function false (n + 1)).getD 0 = n + 1 := by
  rw [findFunction]
  split
  · rw [if_neg (by simp)]
    rfl
  · rw [if_pos (show (c.mFrames n).flags.kPopBarrier = true from h), Bool.and_false]
    rfl

/-! ## The frames that stay -/

/-- The level down to which a pass pops, without a look at the frame behind the newest one. -/
def popTarget (c : CallStack Sym) (bb_addr : BitVec 32) (function : Sym) : Nat :=
  let byFunction := (c.findFunction function false c.mTop).getD 0
  match c.findReturn bb_addr false c.mTop with
  | none => byFunction
  | some level =>
      if level < c.mTop ∧ bb_addr = (c.mFrames level).addr then level else byFunction

/-- The current function stays where the stack would get empty. -/
def keptLevel (c : CallStack Sym) (bb_addr : BitVec 32) (function : Sym) : Nat :=
  let level := c.popTarget bb_addr function
  if level = 0 ∧ (c.mFrames 0).function = function then 1 else level

/-- Some frames are popped, and the newest one that is left has not caused an exception. -/
def popped (n : Nat) (c : CallStack Sym) : CallStack Sym :=
  let c := doPops n c
  if 0 < c.mTop then c.setCausedException (c.mTop - 1) false else c

/-- What `popFrames` leaves. -/
def passed (c : CallStack Sym) (bb_addr : BitVec 32) (function : Sym) : CallStack Sym :=
  popped (c.mTop - c.keptLevel bb_addr function) c

/-- The frame that is looked at behind the newest one does not count. -/
theorem popLevel_eq (htop : c.mTop ≤ c.mNumFrames) (hroom : c.Room event.bb_addr) :
    c.popLevel event function .NONE = .ok (c.popTarget event.bb_addr function) := by
  have hmethod : decide (Action.NONE = Action.POP) = false := rfl
  unfold popLevel popTarget
  simp only [hmethod]
  cases hfind : c.findReturn event.bb_addr false c.mTop with
  | none => rfl
  | some level =>
      obtain hlt | ⟨rfl, hpos, hbar, haddr⟩ : level < c.mTop ∨
          level = c.mTop ∧ 0 < level ∧ c.barrier (level - 1) = true ∧
            (c.mFrames (level - 1)).addr ≠ event.bb_addr := by
        obtain ⟨hlt, -⟩ | ⟨hle, hpos, hbar, haddrs⟩ := findReturn_some hfind
        · exact .inl hlt
        · grind
      · have hframe : c.frameAt level = .ok (c.mFrames level) :=
          if_pos (Nat.lt_of_lt_of_le hlt htop)
        simp only [hframe, hlt, true_and, Except.map]
      · have hnum : c.mTop < c.mNumFrames :=
          Nat.lt_of_le_of_ne htop fun hfull => haddr (hroom hfull hbar)
        have hframe : c.frameAt c.mTop = .ok (c.mFrames c.mTop) := if_pos hnum
        have hfunction : (c.findFunction function false c.mTop).getD 0 = c.mTop := by
          have hsucc : (c.findFunction function false (c.mTop - 1 + 1)).getD 0 = c.mTop - 1 + 1 :=
            findFunction_top hbar
          rwa [Nat.sub_add_cancel hpos] at hsucc
        simp only [hframe, hfunction, Nat.lt_irrefl, false_and, Except.map, ite_self]

theorem popFrames_eq (hframes : 0 < c.mNumFrames) (htop : c.mTop ≤ c.mNumFrames)
    (hroom : c.Room event.bb_addr) : c.popFrames event function .NONE =
      .ok (c.passed event.bb_addr function) := by
  have hfirst : c.frameAt 0 = .ok (c.mFrames 0) := if_pos hframes
  rw [popFrames, popLevel_eq htop hroom, hfirst]
  unfold passed keptLevel
  by_cases hzero : c.popTarget event.bb_addr function = 0
  · by_cases hfunction : (c.mFrames 0).function = function
    · simp only [hzero, hfunction, and_self, if_true, bind, Except.bind, Except.map]
      rfl
    · simp only [hzero, hfunction, and_false, if_true, if_false, bind, Except.bind, Except.map]
      rfl
  · simp only [hzero, false_and, if_false, bind, Except.bind]
    rfl

omit [DecidableEq Sym] in
/-- Nothing but `mTop` and `mAllowNativeFrames` changes. -/
theorem doPops_eq (n : Nat) : ∀ c : CallStack Sym, ∃ allow,
    doPops n c = { c with mTop := c.mTop - n, mAllowNativeFrames := allow } := by
  induction n with
  | zero => exact fun c => ⟨c.mAllowNativeFrames, rfl⟩
  | succ n ih =>
      intro c
      obtain ⟨allow, hpops⟩ := ih c.doSimplePop
      refine ⟨allow, ?_⟩
      rw [doPops, hpops, doSimplePop]
      split
      · rename_i hzero
        simp only [hzero, Nat.zero_sub]
      · simp only [Nat.sub_sub, Nat.add_comm 1 n]

theorem popTarget_barrier {k : Nat} (hle : c.popTarget bb_addr function ≤ k) (hlt : k < c.mTop)
    (hbarrier : c.barrier k = true) :
    k = c.popTarget bb_addr function ∧ (c.mFrames k).addr = bb_addr := by
  have hnot : c.barrier k ≠ false := fun h => by rw [h] at hbarrier; cases hbarrier
  unfold popTarget at hle ⊢
  cases hfind : c.findReturn bb_addr false c.mTop with
  | none => exact absurd (findReturn_none hfind k hlt) hnot
  | some level =>
      simp only [hfind] at hle ⊢
      by_cases hmatch : level < c.mTop ∧ bb_addr = (c.mFrames level).addr
      · grind [findReturn_some]
      · grind [findFunction_barrier]

theorem keptLevel_barrier {k : Nat} (hle : c.keptLevel bb_addr function ≤ k) (hlt : k < c.mTop)
    (hbarrier : c.barrier k = true) :
    k = c.keptLevel bb_addr function ∧ (c.mFrames k).addr = bb_addr := by
  unfold keptLevel at hle ⊢
  dsimp only at hle ⊢
  split at hle
  · rename_i hkept
    have hlast : k = c.popTarget bb_addr function ∧ (c.mFrames k).addr = bb_addr :=
      popTarget_barrier (hkept.1 ▸ Nat.zero_le k) hlt hbarrier
    omega
  · grind [popTarget_barrier]

omit [DecidableEq Sym] in
theorem popped_eq (c : CallStack Sym) (n : Nat) : ∃ allow, popped n c =
    { c with
      mTop := c.mTop - n
      mAllowNativeFrames := allow
      mFrames := if 0 < c.mTop - n then (c.setCausedException (c.mTop - n - 1) false).mFrames
        else c.mFrames } := by
  obtain ⟨allow, hpops⟩ := doPops_eq n c
  refine ⟨allow, ?_⟩
  unfold popped
  rw [hpops]
  by_cases hpos : 0 < c.mTop - n
  · simp only [hpos, if_true]
    rfl
  · simp only [hpos, if_false]

theorem passed_pass : Pass bb_addr c (c.passed bb_addr function) := by
  obtain ⟨allow, hpopped⟩ := popped_eq c (c.mTop - c.keptLevel bb_addr function)
  rw [passed, hpopped]
  refine ⟨Nat.sub_le _ _, fun k hle hlt hbarrier => ?_, rfl⟩
  dsimp only at hle ⊢
  have hlast : k = c.keptLevel bb_addr function ∧ (c.mFrames k).addr = bb_addr :=
    keptLevel_barrier (by omega) hlt hbarrier
  grind

/-! ## Frames that are not on the stack -/

namespace Agree

omit [DecidableEq Sym] in
theorem mTop (h : Agree c c') : c'.mTop = c.mTop := by
  rw [h.same]

omit [DecidableEq Sym] in
theorem barrier {k : Nat} (h : Agree c c') (hk : k < c.mTop) : c'.barrier k = c.barrier k :=
  congrArg (fun frame => frame.flags.kPopBarrier) (h.frames k hk)

omit [DecidableEq Sym] in
theorem room (h : Agree c c') (hframes : 0 < c.mNumFrames) (hroom : c.Room bb_addr) :
    c'.Room bb_addr := by
  intro hfull
  rw [h.mTop] at hfull ⊢
  have hnum : c'.mNumFrames = c.mNumFrames := by rw [h.same]
  rw [hnum] at hfull
  have htop : c.mTop - 1 < c.mTop := by omega
  rw [h.barrier htop, h.frames _ htop]
  exact hroom hfull

omit [DecidableEq Sym] in
theorem sound (h : Agree c c') (hsound : Sound e c) : Sound e c' := by
  rw [h.same]
  exact ⟨hsound.frames, hsound.top, hsound.user⟩

omit [DecidableEq Sym] in
theorem findReturn_eq (h : Agree c c') {n : Nat} (hn : n ≤ c.mTop) :
    c'.findReturn bb_addr false n = c.findReturn bb_addr false n := by
  induction n with
  | zero => rfl
  | succ n ih =>
      rw [findReturn, findReturn, h.frames n hn, ih (Nat.le_of_lt hn)]

theorem findFunction_eq (h : Agree c c') {n : Nat} (hn : n ≤ c.mTop) :
    c'.findFunction function false n = c.findFunction function false n := by
  induction n with
  | zero => rfl
  | succ n ih =>
      rw [findFunction, findFunction, h.frames n hn, ih (Nat.le_of_lt hn)]
      simp

theorem popTarget_eq (h : Agree c c') :
    c'.popTarget bb_addr function = c.popTarget bb_addr function := by
  unfold popTarget
  rw [h.mTop, h.findReturn_eq (Nat.le_refl _), h.findFunction_eq (Nat.le_refl _)]
  cases c.findReturn bb_addr false c.mTop with
  | none => rfl
  | some level => grind [h.frames]

/-- As many frames are popped, also where the first frame of an empty stack is looked at. -/
theorem keptLevel_eq (h : Agree c c') :
    c.mTop - c'.keptLevel bb_addr function = c.mTop - c.keptLevel bb_addr function := by
  unfold keptLevel
  grind [h.popTarget_eq, h.frames]

omit [DecidableEq Sym] in
theorem doSimplePop (h : Agree c c') : Agree c.doSimplePop c'.doSimplePop := by
  have hsame := h.same
  rw [CallStack.doSimplePop, CallStack.doSimplePop, h.mTop]
  by_cases hzero : c.mTop = 0
  · rw [if_pos hzero, if_pos hzero]
    exact h
  · rw [if_neg hzero, if_neg hzero]
    dsimp only
    rw [h.frames (c.mTop - 1) (by omega), h.frames (c.mTop - 1 - 1) (by omega)]
    refine ⟨?_, fun k hk => h.frames k (Nat.lt_of_lt_of_le hk (Nat.sub_le _ _))⟩
    rw [hsame]

omit [DecidableEq Sym] in
theorem doPops (n : Nat) : ∀ {c c' : CallStack Sym}, Agree c c' →
    Agree (CallStack.doPops n c) (CallStack.doPops n c') := by
  induction n with
  | zero => exact fun h => h
  | succ n ih => exact fun h => ih h.doSimplePop

omit [DecidableEq Sym] in
theorem popped (h : Agree c c') (n : Nat) : Agree (popped n c) (popped n c') := by
  have hpops := h.doPops n
  unfold CallStack.popped
  dsimp only
  rw [hpops.mTop]
  by_cases hpos : 0 < (CallStack.doPops n c).mTop
  · rw [if_pos hpos, if_pos hpos]
    have hframe := hpops.frames ((CallStack.doPops n c).mTop - 1) (Nat.sub_lt hpos Nat.one_pos)
    refine ⟨?_, fun k hk => ?_⟩
    · have hsame := hpops.same
      rw [setCausedException, setFrame, setCausedException, setFrame]
      rw [hsame]
    · rw [setCausedException, setFrame, setCausedException, setFrame, hframe]
      dsimp only
      by_cases htop : k = (CallStack.doPops n c).mTop - 1
      · rw [htop, Function.update_self, Function.update_self]
      · rw [Function.update_of_ne htop, Function.update_of_ne htop]
        exact hpops.frames k hk
  · rw [if_neg hpos, if_neg hpos]
    exact hpops

theorem passed (h : Agree c c') :
    Agree (c.passed bb_addr function) (c'.passed bb_addr function) := by
  rw [CallStack.passed, CallStack.passed, h.mTop, h.keptLevel_eq]
  exact h.popped _

end Agree

/-! ## doPop -/

/-- The last block before the kernel becomes the previous one. -/
def resumed (c : CallStack Sym) : CallStack Sym :=
  { c with mPrevEvent := c.mUserEvent, mPrevFunction := c.mUserFunction }

/-- What `doPop` leaves. -/
def unwound (e : Env Sym) (c : CallStack Sym) (event : BBEvent) (function : Sym) :
    CallStack Sym :=
  let c := c.passed event.bb_addr function
  if isKernel e c.mPrevFunction ∧ !isKernel e (some function) then
    if c.resumed.userAction e event function = .POP then
      c.resumed.passed event.bb_addr function
    else c.resumed
  else c

theorem passed_sound (h : Sound e c) : Sound e (c.passed bb_addr function) := by
  obtain ⟨allow, hpopped⟩ := popped_eq c (c.mTop - c.keptLevel bb_addr function)
  rw [passed, hpopped]
  exact ⟨h.frames, Nat.le_trans (Nat.sub_le _ _) h.top, h.user⟩

@[simp] theorem passed_mPrevFunction :
    (c.passed bb_addr function).mPrevFunction = c.mPrevFunction := by
  obtain ⟨allow, hpopped⟩ := popped_eq c (c.mTop - c.keptLevel bb_addr function)
  rw [passed, hpopped]

/-- A pass makes no barrier. -/
theorem passed_room (h : Sound e c) (hroom : c.Room bb_addr) :
    (c.passed bb_addr function).Room bb_addr := by
  obtain ⟨allow, hpopped⟩ := popped_eq c (c.mTop - c.keptLevel bb_addr function)
  rw [passed, hpopped]
  intro hfull hbarrier
  have hframes := h.frames
  have htop := h.top
  dsimp only at hfull ⊢
  have hmTop : c.mTop - (c.mTop - c.keptLevel bb_addr function) = c.mTop := by omega
  simp only [hmTop, barrier, if_pos (show 0 < c.mTop by omega), setCausedException, setFrame,
    Function.update_self] at hbarrier ⊢
  refine hroom (by omega) ?_
  simp only [barrier, FrameFlags.kPopBarrier, Bool.or_eq_true] at hbarrier ⊢
  exact hbarrier.imp_left fun h => .inr (h.resolve_left Bool.false_ne_true)

theorem doPop_eq (hsound : Sound e c) (hroom : c.Room event.bb_addr) :
    c.doPop e 2 event function .NONE = .ok (c.unwound e event function) := by
  have hpassed : Sound e (c.passed event.bb_addr function) := passed_sound hsound
  have hresumed : Sound e (c.passed event.bb_addr function).resumed :=
    ⟨hpassed.frames, hpassed.top, hpassed.user⟩
  have hresumedRoom : (c.passed event.bb_addr function).resumed.Room event.bb_addr :=
    passed_room hsound hroom
  rw [doPop, popFrames_eq hsound.frames hsound.top hroom, unwound]
  simp only [bind, Except.bind]
  split
  · rename_i hleaves
    let c₁ := (c.passed event.bb_addr function).resumed
    have huser : (e.symbol function).kIsKernelRegion = false := by
      simpa [isKernel] using hleaves.2
    have haction : c₁.getAction e event function = (c₁, c₁.userAction e event function) :=
      getAction_user hpassed.user huser
    change (if (c₁.getAction e event function).2 = .POP then
      doPop e 1 (c₁.getAction e event function).1 event function .NONE
      else .ok (c₁.getAction e event function).1) = .ok (if _ then _ else _)
    rw [haction]
    dsimp only
    by_cases hpop : c₁.userAction e event function = .POP
    · have hprev : isKernel e (c₁.passed event.bb_addr function).mPrevFunction = false := by
        rw [passed_mPrevFunction]
        exact hpassed.user
      have hstay : ¬(isKernel e (c₁.passed event.bb_addr function).mPrevFunction ∧
          !isKernel e (some function)) := fun hleaves => by
        rw [hprev] at hleaves
        cases hleaves.1
      rw [if_pos hpop, if_pos hpop, doPop,
        popFrames_eq hresumed.frames hresumed.top hresumedRoom]
      simp only [bind, Except.bind]
      rw [if_neg hstay]
    · rw [if_neg hpop, if_neg hpop]
  · rfl

theorem Agree.unwound (h : Agree c c') :
    Agree (c.unwound e event function) (c'.unwound e event function) := by
  have hpassed : Agree (c.passed event.bb_addr function) (c'.passed event.bb_addr function) :=
    h.passed
  have hresumed : Agree (c.passed event.bb_addr function).resumed
      (c'.passed event.bb_addr function).resumed := by
    refine ⟨?_, hpassed.frames⟩
    grind [resumed, hpassed.same]
  have hprev : (c'.passed event.bb_addr function).mPrevFunction =
      (c.passed event.bb_addr function).mPrevFunction := by
    rw [hpassed.same]
  have haction : (c'.passed event.bb_addr function).resumed.userAction e event function =
      (c.passed event.bb_addr function).resumed.userAction e event function := by
    rw [hresumed.same]
    rfl
  grind [CallStack.unwound, hresumed.passed]

/-! ## The members between two calls -/

namespace Sound

omit [DecidableEq Sym] in
theorem new {numFrames : Nat} (h : 0 < numFrames) (nativeOnly : Bool)
    (junk : Nat → StackFrame Sym) (methods : List MethodRec) (vm_sym : Sym → Option Sym) :
    Sound e (new numFrames nativeOnly junk methods vm_sym) := by
  unfold CallStack.new
  split
  · exact ⟨h, Nat.zero_le _, rfl⟩
  · rw [readNext]
    split
    · exact ⟨h, Nat.zero_le _, rfl⟩
    · exact ⟨h, Nat.zero_le _, rfl⟩

omit [DecidableEq Sym] in
theorem doPops (h : Sound e c) (n : Nat) : Sound e (CallStack.doPops n c) := by
  obtain ⟨allow, hpops⟩ := doPops_eq n c
  rw [hpops]
  exact ⟨h.frames, Nat.le_trans (Nat.sub_le _ _) h.top, h.user⟩

omit [DecidableEq Sym] in
theorem doSimplePop (h : Sound e c) : Sound e c.doSimplePop := h.doPops 1

omit [DecidableEq Sym] in
theorem setCausedException (h : Sound e c) (level : Nat) (bit : Bool) :
    Sound e (c.setCausedException level bit) := ⟨h.frames, h.top, h.user⟩

omit [DecidableEq Sym] in
theorem doSimplePush {addr : BitVec 32} {time : BitVec 64} {flags : FrameFlags}
    (h : Sound e c) (hpush : c.doSimplePush function addr time flags = .ok c') : Sound e c' := by
  rw [CallStack.doSimplePush] at hpush
  split at hpush
  · cases hpush
  · rename_i hroom
    cases hpush
    exact ⟨h.frames, Nat.not_le.mp hroom, h.user⟩

omit [DecidableEq Sym] in
theorem popKernelFrames (n : Nat) : ∀ {c : CallStack Sym} {retAddr : BitVec 32}, Sound e c →
    Sound e (CallStack.popKernelFrames n c retAddr).1 := by
  induction n with
  | zero => exact fun h => h
  | succ n ih =>
      intro c retAddr h
      rw [CallStack.popKernelFrames]
      split
      · exact h.doSimplePop.setCausedException _ _
      · split
        · exact ih h.doSimplePop
        · exact h.doSimplePop

omit [DecidableEq Sym] in
theorem doPush (h : Sound e c) (hpush : c.doPush e event function = .ok c') : Sound e c' := by
  have hplt : ∀ retAddr : BitVec 32, Sound e
      (if 0 < c.mTop ∧ (e.symbol (c.mFrames (c.mTop - 1)).function).kIsVectorTable then
        (c.doSimplePop, (c.mFrames (c.mTop - 1)).addr) else (c, retAddr)).1 := by
    intro retAddr
    split
    · exact h.doSimplePop
    · exact h
  have hkernel : ∀ plt : CallStack Sym × BitVec 32, Sound e plt.1 → Sound e
      (if isKernel e c.mPrevFunction ∧ !isKernel e (some function) ∧ 0 < plt.1.mTop then
        CallStack.popKernelFrames plt.1.mTop plt.1 plt.2 else plt).1 := by
    intro plt hsound
    split
    · exact popKernelFrames _ hsound
    · exact hsound
  have hstart : ∀ c : CallStack Sym, Sound e c → Sound e
      (if (e.symbol function).kIsVectorStart ∧ 0 < c.mTop then
        c.setCausedException (c.mTop - 1) true else c) := by
    intro c hsound
    split
    · exact hsound.setCausedException _ _
    · exact hsound
  rw [CallStack.doPush] at hpush
  by_cases hfull : c.mNumFrames ≤ c.mTop
  · rw [if_pos hfull] at hpush
    cases hpush
  · rw [if_neg hfull] at hpush
    exact doSimplePush (hstart _ (hkernel _ (hplt _))) hpush

theorem getAction (h : Sound e c) : Sound e (c.getAction e event function).1 := by
  rw [CallStack.getAction]
  split
  · exact h
  · split
    · exact h
    · split
      · exact h
      · split
        · rename_i hentered
          exact ⟨h.frames, h.top, by simpa using hentered.1⟩
        · exact h

theorem popFrames {methodAction : Action} (h : Sound e c)
    (hpop : c.popFrames event function methodAction = .ok c') : Sound e c' := by
  obtain ⟨level, -, hpop⟩ := bind_eq_ok.mp hpop
  obtain ⟨stackLevel, -, hpop⟩ := bind_eq_ok.mp hpop
  obtain rfl := Except.ok.inj hpop
  split
  · exact (h.doPops _).setCausedException _ _
  · exact h.doPops _

theorem doPop {methodAction : Action} (turns : Nat) : ∀ {c : CallStack Sym}, Sound e c →
    c.doPop e turns event function methodAction = .ok c' → Sound e c' := by
  induction turns with
  | zero =>
      intro c _ hpop
      cases hpop
  | succ turns ih =>
      intro c h hpop
      obtain ⟨c₁, hframes, hpop⟩ := bind_eq_ok.mp hpop
      have h₁ := h.popFrames hframes
      split at hpop
      · have hresumed : Sound e c₁.resumed := ⟨h₁.frames, h₁.top, h₁.user⟩
        have hnext : Sound e (c₁.resumed.getAction e event function).1 := hresumed.getAction
        dsimp only at hpop
        split at hpop
        · exact ih hnext hpop
        · exact Except.ok.inj hpop ▸ hnext
      · exact Except.ok.inj hpop ▸ h₁

theorem doAction {action : Action} (h : Sound e c)
    (haction : c.doAction e event function action = .ok c') : Sound e c' := by
  cases action with
  | NONE => exact Except.ok.inj haction ▸ h
  | PUSH => exact h.doPush haction
  | POP => exact h.doPop 2 haction

omit [DecidableEq Sym] in
theorem readAhead (time : BitVec 64) : ∀ (methods : List MethodRec) {c : CallStack Sym},
    Sound e c → CallStack.readAhead time methods c = .ok c' → Sound e c' := by
  intro methods
  induction methods with
  | nil =>
      intro c h hread
      rw [CallStack.readAhead] at hread
      split at hread
      · split at hread
        · cases hread
        · exact Except.ok.inj hread ▸ ⟨h.frames, h.top, h.user⟩
      · exact Except.ok.inj hread ▸ h
  | cons rec methods ih =>
      intro c h hread
      rw [CallStack.readAhead] at hread
      split at hread
      · have hcaught : Sound e { c with
            sCurrentMethod := c.sNextMethod, sNextMethod := rec, methods := methods } :=
          ⟨h.frames, h.top, h.user⟩
        exact ih hcaught hread
      · exact Except.ok.inj hread ▸ h

omit [DecidableEq Sym] in
theorem doMethodPop {addr : BitVec 32} {native : Bool} (h : Sound e c) :
    Sound e (c.doMethodPop e addr native) := by
  rw [CallStack.doMethodPop]
  cases c.findMethod e addr native c.mTop with
  | none => exact h
  | some level => exact h.doPops _

omit [DecidableEq Sym] in
theorem handleMethod {rec : MethodRec} (h : Sound e c)
    (hmethod : c.handleMethod e event function rec = .ok c') : Sound e c' := by
  rw [CallStack.handleMethod] at hmethod
  dsimp only at hmethod
  split at hmethod
  · obtain ⟨c₁, hpush, rfl⟩ := map_eq_ok.mp hmethod
    have h₁ := h.doSimplePush hpush
    exact ⟨h₁.frames, h₁.top, h₁.user⟩
  · obtain ⟨c₁, hpush, rfl⟩ := map_eq_ok.mp hmethod
    have h₁ := h.doSimplePush hpush
    exact ⟨h₁.frames, h₁.top, h₁.user⟩
  · exact Except.ok.inj hmethod ▸ h.doMethodPop
  · exact Except.ok.inj hmethod ▸ h.doMethodPop
  · exact Except.ok.inj hmethod ▸ h.doMethodPop
  · exact Except.ok.inj hmethod ▸ h.doMethodPop
  · exact Except.ok.inj hmethod ▸ h

omit [DecidableEq Sym] in
theorem readNext (h : Sound e c) : Sound e c.readNext := by
  rw [CallStack.readNext]
  split
  · exact ⟨h.frames, h.top, h.user⟩
  · exact ⟨h.frames, h.top, h.user⟩

omit [DecidableEq Sym] in
theorem doMethodAction (h : Sound e c) (hmethod : c.doMethodAction e event function = .ok c') :
    Sound e c' := by
  obtain ⟨c₁, hread, hmethod⟩ := bind_eq_ok.mp hmethod
  have h₁ := h.readAhead _ _ hread
  split at hmethod
  · obtain ⟨c₂, hhandle, hc'⟩ := map_eq_ok.mp hmethod
    have h₂ := h₁.handleMethod hhandle
    have h₃ : Sound e { c₂ with sCurrentMethod := c₂.sNextMethod } :=
      ⟨h₂.frames, h₂.top, h₂.user⟩
    dsimp only at hc'
    split at hc'
    · exact hc' ▸ h₃.readNext
    · exact hc' ▸ h₃
  · exact Except.ok.inj hmethod ▸ h₁

theorem nativeFunction (h : Sound e c) : Sound e (c.nativeFunction function).1 := by
  rw [CallStack.nativeFunction]
  split
  · exact h
  · exact ⟨h.frames, h.top, h.user⟩

omit [DecidableEq Sym] in
theorem finishUpdate (h : Sound e c) (hfinish : c.finishUpdate event function = .ok c') :
    Sound e c' := by
  obtain ⟨c₁, hpush, rfl⟩ := map_eq_ok.mp hfinish
  have h₁ : Sound e c₁ := by
    split at hpush
    · exact h.doSimplePush hpush
    · exact Except.ok.inj hpush ▸ h
  exact ⟨h₁.frames, h₁.top, h₁.user⟩

/-- The blocks that a thread runs keep the members sound. -/
theorem updateStack (h : Sound e c) (hupdate : c.updateStack e event function = .ok c') :
    Sound e c' := by
  obtain ⟨c₁, hmethods, hupdate⟩ := bind_eq_ok.mp hupdate
  have h₁ : Sound e c₁ := by
    split at hmethods
    · exact Except.ok.inj hmethods ▸ h
    · exact h.doMethodAction hmethods
  obtain ⟨c₂, haction, hfinish⟩ := bind_eq_ok.mp hupdate
  exact (doAction (nativeFunction (getAction h₁)) haction).finishUpdate hfinish

end Sound

/-- In every run that starts with an empty stack the members are sound. -/
theorem sound_of_reach {numFrames : Nat} (h : 0 < numFrames) {nativeOnly : Bool}
    {junk : Nat → StackFrame Sym} {methods : List MethodRec} {vm_sym : Sym → Option Sym}
    (hreach : Reach (fun c (block : BBEvent × Sym) => c.updateStack e block.1 block.2)
      (fun _ _ => True) (new numFrames nativeOnly junk methods vm_sym) c) : Sound e c :=
  hreach.invariant (.new h _ _ _ _) fun _ _ _ hsound _ hstep => hsound.updateStack hstep

/-! ## Barriers -/

/-- `doPop` ends after one pass or, where it leaves the kernel, two. Frames behind the newest one
are without effect. -/
theorem doPop_barriers (hsound : Sound e c) (hroom : c.Room event.bb_addr) :
    ∃ c₁ c₂, c.doPop e 2 event function .NONE = .ok c₂ ∧ Pass event.bb_addr c c₁ ∧
      (c₂.mTop = c₁.mTop ∧ c₂.mFrames = c₁.mFrames ∨
        isKernel e c.mPrevFunction = true ∧ isKernel e (some function) = false ∧
          Pass event.bb_addr c₁ c₂) ∧
      c₂.mTop ≤ c.mNumFrames ∧
      ∀ c', Agree c c' → ∃ c₂', c'.doPop e 2 event function .NONE = .ok c₂' ∧ Agree c₂ c₂' := by
  have hpass : Pass event.bb_addr c (c.passed event.bb_addr function) := passed_pass
  have hsecond : Pass event.bb_addr (c.passed event.bb_addr function).resumed
      ((c.passed event.bb_addr function).resumed.passed event.bb_addr function) := passed_pass
  have hunwound : (c.unwound e event function).mTop = (c.passed event.bb_addr function).mTop ∧
        (c.unwound e event function).mFrames = (c.passed event.bb_addr function).mFrames ∨
      isKernel e c.mPrevFunction = true ∧ isKernel e (some function) = false ∧
        Pass event.bb_addr (c.passed event.bb_addr function) (c.unwound e event function) := by
    rw [unwound]
    split
    · rename_i hleaves
      rw [passed_mPrevFunction] at hleaves
      split
      · exact .inr ⟨hleaves.1, by simpa using hleaves.2,
          ⟨hsecond.top, hsecond.barriers, hsecond.frames⟩⟩
      · exact .inl ⟨rfl, rfl⟩
    · exact .inl ⟨rfl, rfl⟩
  refine ⟨c.passed event.bb_addr function, c.unwound e event function, doPop_eq hsound hroom,
    hpass, hunwound, ?_, fun c' hagree => ?_⟩
  · have hfirst : (c.passed event.bb_addr function).mTop ≤ c.mNumFrames :=
      Nat.le_trans hpass.top hsound.top
    obtain ⟨hsame, -⟩ | ⟨-, -, hpass₂⟩ := hunwound
    · exact hsame ▸ hfirst
    · exact Nat.le_trans hpass₂.top hfirst
  · exact ⟨c'.unwound e event function,
      doPop_eq (hagree.sound hsound) (hagree.room hsound.frames hroom), hagree.unwound⟩

/-- A function of the kernel was entered after a `bx lr` of the second function, which has caused
an exception; the next block is in the first function. -/
def interrupted : Env (Fin 3) × CallStack (Fin 3) :=
  ({ symbol := fun f => ⟨BitVec.ofNat 32 (4096 * f.val), false, false, 0, f.val == 2⟩
     insn := fun _ _ => 0xe12fff1e
     insn_unwrap_thumb := id
     decode_insn_thumb := fun _ => .OP_INVALID },
    { mNumFrames := 4
      mFrames := fun level =>
        if level = 1 then ⟨1, 64, ⟨true, false, false⟩, 0, 0⟩
        else if level = 2 then ⟨2, 68, .zero, 0, 0⟩
        else ⟨0, 0, .zero, 0, 0⟩
      mTop := 3
      mNativeOnly := true
      mAllowNativeFrames := true
      mPrevFunction := some 2
      mPrevEvent := ⟨0, 0, 8192, 0, 1, 0, 0⟩
      mUserFunction := some 1
      mUserEvent := ⟨0, 0, 4100, 0, 1, 0, 0⟩
      mSkippedTime := 0
      sCurrentMethod := .last
      sNextMethod := .last
      methods := []
      vm_sym := fun _ => none })

theorem interrupted_sound : Sound interrupted.1 interrupted.2 := ⟨by decide, by decide, by decide⟩

/-- The second pass pops the frame that has caused the exception, although none has the address. -/
theorem barrier_popped : ¬∀ (e : Env (Fin 3)) (c c₂ : CallStack (Fin 3)) (event : BBEvent)
    (function : Fin 3), Sound e c → c.doPop e 2 event function .NONE = .ok c₂ →
      ∀ k, c₂.mTop ≤ k → k < c.mTop → c.barrier k = true →
        ∃ level ≤ k, (c.mFrames level).addr = event.bb_addr := by
  intro h
  have hpop : interrupted.2.doPop interrupted.1 2 ⟨0, 0, 8, 0, 1, 0, 0⟩ 0 .NONE = .ok _ :=
    doPop_eq interrupted_sound fun hfull => absurd hfull (by decide)
  obtain ⟨level, hle, haddr⟩ := h _ _ _ _ _ interrupted_sound hpop 1 (by decide) (by decide)
    (by decide)
  obtain rfl | rfl : level = 0 ∨ level = 1 := by omega
  · exact absurd haddr (by decide)
  · exact absurd haddr (by decide)

theorem doPop_barriers_interrupted : ∃ c₁ c₂,
    interrupted.2.doPop interrupted.1 2 ⟨0, 0, 8, 0, 1, 0, 0⟩ 0 .NONE = .ok c₂ ∧
      Pass 8 interrupted.2 c₁ ∧ c₂.mTop ≤ 4 := by
  obtain ⟨c₁, c₂, hpop, hpass, -, htop, -⟩ := doPop_barriers interrupted_sound
    fun hfull => absurd hfull (by decide)
  exact ⟨c₁, c₂, hpop, hpass, htop⟩

theorem sound_of_reach_block : ∃ c, Sound interrupted.1 c ∧ c.mPrevFunction = some 1 := by
  have hrun : check (fun c (b : BBEvent × Fin 3) => c.updateStack interrupted.1 b.1 b.2)
      (fun _ _ => true) (fun c => decide (c.mPrevFunction = some 1))
      (new 4 true interrupted.2.mFrames [] fun _ => none)
      [(⟨0, 0, 4096, 0, 1, 0, 0⟩, 1)] = true := by
    decide
  obtain ⟨c, hreach, hprev⟩ := exists_reach_of_check (fun _ _ _ => trivial) hrun
  exact ⟨c, sound_of_reach (by decide) hreach, of_decide_eq_true hprev⟩

/-- On a full stack with a barrier on top `doPop` looks behind the array of frames. -/
theorem doPop_overrun (hpos : 0 < c.mTop) (hfull : c.mTop = c.mNumFrames)
    (hbarrier : c.barrier (c.mTop - 1) = true)
    (haddr : (c.mFrames (c.mTop - 1)).addr ≠ event.bb_addr) :
    c.doPop e 2 event function .NONE = .error .outOfBounds := by
  have hfind : c.findReturn event.bb_addr false c.mTop = some c.mTop := by
    rw [← Nat.sub_add_cancel hpos, findReturn, Nat.sub_add_cancel hpos, if_neg (Ne.symm haddr),
      if_pos (show (c.mFrames (c.mTop - 1)).flags.kPopBarrier = true from hbarrier), Bool.and_false]
    rfl
  have hframe : c.frameAt c.mTop = .error .outOfBounds :=
    if_neg fun hlt => absurd hfull (Nat.ne_of_lt hlt)
  have hmethod : decide (Action.NONE = Action.POP) = false := rfl
  have hlevel : c.popLevel event function .NONE = .error .outOfBounds := by
    grind [popLevel, Except.map]
  rw [doPop, popFrames, hlevel]
  rfl

end CallStack

end AndroidRenderer.Qtools
