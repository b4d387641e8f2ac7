import AndroidRenderer.Qtools.NativeCalls

/-!
# The call stack of a native execution

While calls and returns are plain, the frames are the real stack: every frame but the oldest has
the return address of its call, and a return is found at the newest frame.
-/

namespace AndroidRenderer.Qtools

namespace CallStack

open Run

variable {Sym : Type} {e : Env Sym} {p : Program e} {numFrames : Nat}
  {c : CallStack Sym} {event : BBEvent} {function : Sym}

/-- The functions in `mFrames[0..mTop)`. -/
def functions (c : CallStack Sym) : List Sym :=
  (List.range c.mTop).map fun level => (c.mFrames level).function

/-! ## updateStack without Java methods and kernel -/

/-- No Java method is current, or will be. -/
structure Native (c : CallStack Sym) : Prop where
  allow : c.mAllowNativeFrames = true
  current : c.sCurrentMethod = .last
  next : c.sNextMethod = .last
  methods : c.methods = []
  vm_sym : ∀ f, c.vm_sym f = none

/-- No time of a trace is at or behind the end of the method trace. -/
theorem not_last_le {time : BitVec 64} (h : time ≠ ~~~0) : ¬MethodRec.last.time ≤ time := by
  intro hle
  have hlast : MethodRec.last.time.toNat = 2 ^ 64 - 1 := rfl
  rw [BitVec.le_def, hlast] at hle
  refine h (BitVec.eq_of_toNat_eq ?_)
  have hlt := time.isLt
  grind

theorem doMethodAction_native (h : Native c) (htime : event.time ≠ ~~~0) :
    c.doMethodAction e event function = .ok c := by
  have hahead : readAhead event.time c.methods c = .ok c := by
    rw [h.methods, readAhead, h.next, if_neg (not_last_le htime)]
  rw [doMethodAction, hahead]
  change (if _ then _ else _) = _
  grind [h.current, not_last_le]

theorem finishUpdate_ok (h : 0 < c.mTop) : c.finishUpdate event function =
    .ok { c with mPrevFunction := some function, mPrevEvent := event } := by
  rw [finishUpdate, if_neg (Nat.ne_of_gt h)]
  rfl

/-! ## Frames and calls -/

def Holds (mFrames : Nat → StackFrame Sym) : List (Call Sym) → Prop
  | [] => True
  | call :: calls =>
      (mFrames calls.length).function = call.function ∧
        (calls ≠ [] → (mFrames calls.length).addr = call.ret) ∧
        (mFrames calls.length).flags = .zero ∧ Holds mFrames calls

variable {mFrames : Nat → StackFrame Sym} {calls : List (Call Sym)}

theorem Holds.congr {mFrames' : Nat → StackFrame Sym}
    (h : Holds mFrames calls) (heq : ∀ level < calls.length, mFrames' level = mFrames level) :
    Holds mFrames' calls := by
  induction calls with
  | nil => trivial
  | cons call calls ih => grind [Holds]

theorem Holds.flags (h : Holds mFrames calls) {level : Nat} (hlevel : level < calls.length) :
    (mFrames level).flags = .zero := by
  induction calls with
  | nil => exact absurd hlevel (Nat.not_lt_zero _)
  | cons call calls ih =>
      obtain ⟨-, -, hflags, hrest⟩ := h
      grind

theorem Holds.functions (h : Holds mFrames calls) : ((List.range calls.length).map fun level =>
      (mFrames level).function) = (calls.map Call.function).reverse := by
  induction calls with
  | nil => rfl
  | cons call calls ih =>
      obtain ⟨hfunction, -, -, hrest⟩ := h
      rw [List.length_cons, List.range_succ, List.map_append, ih hrest, List.map_cons,
        List.map_nil, hfunction, List.map_cons, List.reverse_cons]

namespace Program

variable (p) in
/-- Return addresses lie behind a `bl`, in functions that may call. -/
def Chained : List (Call Sym) → Prop
  | callee :: caller :: calls =>
      (Arm.decode (p.code (callee.ret - 4)) = .OP_BL ∧
        (first e caller.function).toNat < callee.ret.toNat ∧
        (e.symbol caller.function).kIsPlt = false) ∧ Chained (caller :: calls)
  | _ => True

variable (p) in
structure Tracks (numFrames : Nat) (x : Exec Sym) (c : CallStack Sym) : Prop where
  block : Block e p.code x.prev
  current : ∃ ret calls, x.stack = ⟨p.function x.prev.bb_addr, ret⟩ :: calls
  chained : p.Chained x.stack
  room : x.stack.length < numFrames
  mNumFrames : c.mNumFrames = numFrames
  mTop : c.mTop = x.stack.length
  holds : Holds c.mFrames x.stack
  prevFunction : c.mPrevFunction = some (p.function x.prev.bb_addr)
  prevEvent : c.mPrevEvent = x.prev
  native : Native c

variable {x : Exec Sym}

theorem Tracks.functions_eq (h : p.Tracks numFrames x c) : c.functions = x.functions := by
  rw [CallStack.functions, h.mTop, h.holds.functions, Exec.functions]

theorem Tracks.mTop_lt (h : p.Tracks numFrames x c) : c.mTop < c.mNumFrames := by
  rw [h.mTop, h.mNumFrames]
  exact h.room

theorem Tracks.top_pos (h : p.Tracks numFrames x c) : 0 < c.mTop := by
  obtain ⟨ret, calls, hstack⟩ := h.current
  rw [h.mTop, hstack]
  exact Nat.succ_pos _

theorem Tracks.stay (h : p.Tracks numFrames x c) (hblock : Block e p.code event)
    (hfunction : p.function event.bb_addr = p.function x.prev.bb_addr) :
    ∃ c', c.finishUpdate event (p.function event.bb_addr) = .ok c' ∧
      p.Tracks numFrames ⟨event, x.stack⟩ c' := by
  refine ⟨{ c with mPrevFunction := some (p.function event.bb_addr), mPrevEvent := event }, ?_,
    ⟨hblock, ?_, h.chained, h.room, h.mNumFrames, h.mTop, h.holds, rfl, rfl, ?_⟩⟩
  · exact finishUpdate_ok h.top_pos
  · rw [hfunction]
    exact h.current
  · exact ⟨h.native.allow, h.native.current, h.native.next, h.native.methods, h.native.vm_sym⟩

/-- The newest frame is the one of the current function. -/
theorem Tracks.top (h : p.Tracks numFrames x c) : ∃ ret calls,
    x.stack = ⟨p.function x.prev.bb_addr, ret⟩ :: calls ∧ c.mTop = calls.length + 1 ∧
      (c.mFrames (c.mTop - 1)).function = p.function x.prev.bb_addr := by
  obtain ⟨ret, calls, hstack⟩ := h.current
  have hmTop := h.mTop
  have hholds := h.holds
  rw [hstack] at hmTop hholds
  refine ⟨ret, calls, hstack, hmTop, ?_⟩
  rw [hmTop]
  exact hholds.1

theorem Tracks.kIsVectorTable (h : p.Tracks numFrames x c) :
    (e.symbol (c.mFrames (c.mTop - 1)).function).kIsVectorTable =
      (e.symbol (p.function x.prev.bb_addr)).kIsPlt := by
  obtain ⟨ret, calls, -, -, hfunction⟩ := h.top
  rw [hfunction, SymbolEntry.kIsVectorTable, (p.user _).2, Bool.or_false]

theorem Tracks.doSimplePop_eq (h : p.Tracks numFrames x c) :
    c.doSimplePop = { c with mTop := c.mTop - 1 } := by
  have hflags : ∀ level < c.mTop, (c.mFrames level).flags = .zero := fun level hlevel =>
    h.holds.flags (h.mTop ▸ hlevel)
  have hpos := h.top_pos
  grind [h.native.allow, doSimplePop]

theorem Tracks.isKernel (h : p.Tracks numFrames x c) : isKernel e c.mPrevFunction = false := by
  rw [h.prevFunction]
  exact (p.user _).1

end Program

variable [DecidableEq Sym]

def userAction (e : Env Sym) (c : CallStack Sym) (event : BBEvent) (function : Sym) : Action :=
  let offset := offset e event.bb_addr function
  let last := lastInsn e c.mPrevEvent
  if endAddr c.mPrevEvent = event.bb_addr then .NONE
  else if c.mPrevFunction = some function then
    recursiveAction last.2 last.1 offset c.mPrevEvent.num_insns
  else guessAction e last.2 offset c.mPrevFunction function

theorem getAction_user (hprev : isKernel e c.mPrevFunction = false)
    (huser : (e.symbol function).kIsKernelRegion = false) :
    c.getAction e event function = (c, c.userAction e event function) := by
  have hfunction : isKernel e (some function) = false := huser
  rw [getAction, userAction]
  grind

theorem updateStack_native (h : Native c) (htime : event.time ≠ ~~~0)
    (hprev : isKernel e c.mPrevFunction = false)
    (huser : (e.symbol function).kIsKernelRegion = false) :
    c.updateStack e event function =
      c.doAction e event function (c.userAction e event function) >>= fun c =>
        c.finishUpdate event function := by
  have hmethods : (if c.mNativeOnly then .ok c else c.doMethodAction e event function) =
      Except.ok (ε := Fault) c := by
    rw [doMethodAction_native h htime, ite_self]
  have hfunction : (if c.mNativeOnly = true then (c.vm_sym function).getD function
      else function) = function := by
    rw [h.vm_sym, Option.getD_none, ite_self]
  have hnative : c.nativeFunction function = (c, function) := by rw [nativeFunction, h.vm_sym]
  rw [updateStack, hmethods]
  simp only [bind, Except.bind, hfunction, getAction_user hprev huser, h.allow, hnative,
    Bool.not_true, Bool.false_eq_true, false_and, if_false]

omit [DecidableEq Sym] in
theorem doPush_user (h : Native c) (hprev : isKernel e c.mPrevFunction = false)
    (hstart : (e.symbol function).kIsVectorStart = false) (hfree : c.mTop < c.mNumFrames) :
    c.doPush e event function =
      let top := c.mFrames (c.mTop - 1)
      let plt : CallStack Sym × BitVec 32 :=
        if 0 < c.mTop ∧ (e.symbol top.function).kIsVectorTable then (c.doSimplePop, top.addr)
        else (c, endAddr c.mPrevEvent)
      plt.1.doSimplePush function plt.2 (event.time - c.mSkippedTime) .zero := by
  have hvm : (c.vm_sym function).isSome = false := by rw [h.vm_sym, Option.isSome_none]
  have hpop : ∀ f, (c.doSimplePop).vm_sym f = none := by
    intro f
    rw [doSimplePop]
    split
    · exact h.vm_sym f
    · exact h.vm_sym f
  rw [doPush, if_neg (Nat.not_le.mpr hfree)]
  simp only [hvm, hprev, hstart, Bool.false_eq_true, false_and, if_false]
  split
  · rw [hpop]
    rfl
  · rw [hvm]
    rfl

namespace Program

variable {x : Exec Sym}

theorem Tracks.updateStack_eq (h : p.Tracks numFrames x c) (hblock : Block e p.code event) :
    c.updateStack e event (p.function event.bb_addr) =
      c.doAction e event (p.function event.bb_addr)
        (c.userAction e event (p.function event.bb_addr)) >>= fun c =>
          c.finishUpdate event (p.function event.bb_addr) := by
  refine updateStack_native h.native hblock.time ?_ (p.user _).1
  rw [h.prevFunction]
  exact (p.user _).1

/-- What the last instruction tells. -/
theorem Tracks.userAction_eq (h : p.Tracks numFrames x c) (event : BBEvent) (function : Sym) :
    c.userAction e event function =
      if endAddr x.prev = event.bb_addr then .NONE
      else if p.function x.prev.bb_addr = function then
        recursiveAction (Arm.decode (p.last x.prev)) (p.last x.prev)
          (offset e event.bb_addr function) x.prev.num_insns
      else guessAction e (Arm.decode (p.last x.prev)) (offset e event.bb_addr function)
        (some (p.function x.prev.bb_addr)) function := by
  rw [userAction, h.prevEvent, h.prevFunction, h.block.lastInsn]
  simp only [Option.some.injEq, last]

def pushedFrame (p : Program e) (c : CallStack Sym) (event : BBEvent) (addr : BitVec 32) :
    StackFrame Sym :=
  ⟨p.function event.bb_addr, addr, .zero, (event.time - c.mSkippedTime).setWidth 32,
    (event.time - c.mSkippedTime + c.mSkippedTime).setWidth 32⟩

omit [DecidableEq Sym] in
theorem Tracks.doPush_eq (h : p.Tracks numFrames x c)
    (hplt : (e.symbol (p.function x.prev.bb_addr)).kIsPlt = false) :
    c.doPush e event (p.function event.bb_addr) =
      .ok { c.setFrame c.mTop (pushedFrame p c event (endAddr x.prev)) with
        mTop := c.mTop + 1 } := by
  have hroom := h.mTop_lt
  rw [doPush_user h.native h.isKernel (p.user _).2 hroom]
  simp only [h.kIsVectorTable, hplt, Bool.false_eq_true, and_false, if_false]
  rw [doSimplePush, if_neg (Nat.not_le.mpr hroom), h.prevEvent]
  rfl

omit [DecidableEq Sym] in
/-- A call outside the `.plt` gets a frame. -/
theorem Tracks.push (h : p.Tracks numFrames x c) (hblock : Block e p.code event)
    (hfree : x.stack.length + 1 < numFrames) (hlink : Arm.decode (p.last x.prev) = .OP_BL)
    (hplt : (e.symbol (p.function x.prev.bb_addr)).kIsPlt = false) :
    ∃ c', (c.doPush e event (p.function event.bb_addr) >>= fun c =>
        c.finishUpdate event (p.function event.bb_addr)) = .ok c' ∧
      p.Tracks numFrames ⟨event, ⟨p.function event.bb_addr, endAddr x.prev⟩ :: x.stack⟩ c' := by
  let frame := pushedFrame p c event (endAddr x.prev)
  let pushed : CallStack Sym := { c.setFrame c.mTop frame with mTop := c.mTop + 1 }
  have hpos : 0 < pushed.mTop := Nat.succ_pos _
  rw [h.doPush_eq hplt]
  refine ⟨{ pushed with mPrevFunction := some (p.function event.bb_addr), mPrevEvent := event },
    finishUpdate_ok hpos, ?_⟩
  have hnew : (Function.update c.mFrames c.mTop frame) x.stack.length = frame := by
    rw [h.mTop, Function.update_self]
  refine ⟨hblock, ⟨_, _, rfl⟩, ?_, hfree, h.mNumFrames, ?_, ?_, rfl, rfl, ?_⟩
  · obtain ⟨ret, calls, hstack⟩ := h.current
    have hchained := h.chained
    rw [hstack] at hchained ⊢
    refine ⟨⟨hlink, ?_, hplt⟩, hchained⟩
    have hle := p.first_le x.prev.bb_addr
    have hend := h.block.endAddr_toNat
    have hnonempty := h.block.nonempty
    change (first e (p.function x.prev.bb_addr)).toNat < (endAddr x.prev).toNat
    omega
  · change c.mTop + 1 = _
    rw [h.mTop, List.length_cons]
  · change Holds (Function.update c.mFrames c.mTop frame) _
    rw [Holds, hnew]
    refine ⟨rfl, fun _ => rfl, rfl, h.holds.congr fun level hlevel => ?_⟩
    rw [Function.update_of_ne (Nat.ne_of_lt (h.mTop ▸ hlevel))]
  · exact ⟨h.native.allow, h.native.current, h.native.next, h.native.methods, h.native.vm_sym⟩

omit [DecidableEq Sym] in
/-- A frame of the `.plt` is replaced by one with its return address. -/
theorem Tracks.pushPlt (h : p.Tracks numFrames x c) (hblock : Block e p.code event)
    (hplt : (e.symbol (p.function x.prev.bb_addr)).kIsPlt = true) :
    ∃ c', (c.doPush e event (p.function event.bb_addr) >>= fun c =>
        c.finishUpdate event (p.function event.bb_addr)) = .ok c' ∧ c'.mTop = c.mTop ∧
      (p.function event.bb_addr = p.function x.prev.bb_addr →
        p.Tracks numFrames ⟨event, x.stack⟩ c') := by
  have hpos := h.top_pos
  have hroom := h.mTop_lt
  let frame := pushedFrame p c event (c.mFrames (c.mTop - 1)).addr
  have hpush : c.doPush e event (p.function event.bb_addr) =
      .ok (c.setFrame (c.mTop - 1) frame) := by
    have hless : ¬c.mNumFrames ≤ c.mTop - 1 := by omega
    rw [doPush_user h.native h.isKernel (p.user _).2 hroom]
    simp only [h.kIsVectorTable, hplt, hpos, true_and, if_true, h.doSimplePop_eq, doSimplePush,
      if_neg hless, setFrame, Nat.sub_add_cancel hpos]
    rfl
  have hpos' : 0 < (c.setFrame (c.mTop - 1) frame).mTop := hpos
  rw [hpush]
  refine ⟨{ c.setFrame (c.mTop - 1) frame with
      mPrevFunction := some (p.function event.bb_addr), mPrevEvent := event },
    finishUpdate_ok hpos', rfl, fun hfunction => ?_⟩
  obtain ⟨ret, calls, hstack, hmTop, -⟩ := h.top
  refine ⟨hblock, ⟨ret, calls, hfunction.symm ▸ hstack⟩, h.chained, h.room, h.mNumFrames, h.mTop, ?_,
    rfl, rfl, ?_⟩
  · change Holds (Function.update c.mFrames (c.mTop - 1) frame) x.stack
    obtain ⟨-, haddr, -, hholds⟩ := hstack ▸ h.holds
    have hlevel : c.mTop - 1 = calls.length := by omega
    rw [hstack, hlevel, Holds, Function.update_self]
    refine ⟨hfunction, fun hne => ?_, rfl, hholds.congr fun level hlt => ?_⟩
    · exact (congrArg (fun level => (c.mFrames level).addr) hlevel).trans (haddr hne)
    · rw [Function.update_of_ne (Nat.ne_of_lt hlt)]
  · exact ⟨h.native.allow, h.native.current, h.native.next, h.native.methods, h.native.vm_sym⟩

/-- A return is found at the newest frame, which goes. -/
theorem Tracks.pop (h : p.Tracks numFrames x c) (hblock : Block e p.code event)
    {current caller : Call Sym}
    (hstack : x.stack = current :: caller :: calls) (hret : event.bb_addr = current.ret)
    (hfunction : p.function event.bb_addr = caller.function) :
    ∃ c', (c.doPop e 2 event (p.function event.bb_addr) .NONE >>= fun c =>
        c.finishUpdate event (p.function event.bb_addr)) = .ok c' ∧
      p.Tracks numFrames ⟨event, caller :: calls⟩ c' := by
  have hmTop : c.mTop = calls.length + 2 := by rw [h.mTop, hstack]; rfl
  obtain ⟨-, haddr, -, hholds⟩ := hstack ▸ h.holds
  have haddr : (c.mFrames (calls.length + 1)).addr = current.ret := haddr (List.cons_ne_nil _ _)
  have hchained := h.chained
  have hroom := h.room
  rw [hstack] at hchained hroom
  have hlevel : c.popLevel event (p.function event.bb_addr) .NONE = .ok (calls.length + 1) := by
    have hfound : c.findReturn event.bb_addr false c.mTop = some (calls.length + 1) := by
      grind [findReturn]
    have hframe : c.frameAt (calls.length + 1) = .ok (c.mFrames (calls.length + 1)) := by
      grind [frameAt, h.mNumFrames]
    grind [popLevel, Except.map]
  let popped : CallStack Sym := { c with mTop := calls.length + 1 }
  let cleared := popped.setCausedException calls.length false
  have hpops : c.popFrames event (p.function event.bb_addr) .NONE = .ok cleared := by
    have hcount : c.mTop - (calls.length + 1) = 1 := by omega
    have hpopped : doPops 1 c = popped := by simp [doPops, h.doSimplePop_eq, popped, hmTop]
    rw [popFrames, hlevel]
    simp only [bind, Except.bind, if_neg (Nat.succ_ne_zero calls.length), hcount, hpopped]
    rfl
  have hpop : c.doPop e 2 event (p.function event.bb_addr) .NONE = .ok cleared := by
    have hkernel : CallStack.isKernel e cleared.mPrevFunction = false := h.isKernel
    rw [doPop, hpops]
    simp only [bind, Except.bind, hkernel, Bool.false_eq_true, false_and, if_false]
  have hpos : 0 < cleared.mTop := Nat.succ_pos _
  rw [hpop]
  refine ⟨{ cleared with mPrevFunction := some (p.function event.bb_addr), mPrevEvent := event },
    finishUpdate_ok hpos, ?_⟩
  refine ⟨hblock, ⟨caller.ret, calls, ?_⟩, hchained.2, Nat.lt_of_succ_lt hroom, h.mNumFrames, rfl,
    ?_, rfl, rfl, ?_⟩
  · rw [hfunction]
  · have hsame : cleared.mFrames = c.mFrames := by
      have hclear : ∀ frame : StackFrame Sym, frame.flags = .zero →
          { frame with flags := { frame.flags with kCausedException := false } } = frame := by
        rintro ⟨function, addr, flags, time, global_time⟩ rfl
        rfl
      exact Function.update_eq_self_iff.mpr
        (hclear _ (hholds.flags (Nat.lt_succ_self calls.length)))
    grind
  · exact ⟨h.native.allow, h.native.current, h.native.next, h.native.methods, h.native.vm_sym⟩

/-! ## Moves -/

omit [DecidableEq Sym] in
theorem finishUpdate_mTop {c' : CallStack Sym} (hpos : 0 < c.mTop)
    (h : c.finishUpdate event function = .ok c') : c'.mTop = c.mTop := by
  rw [finishUpdate_ok hpos] at h
  rw [← Except.ok.inj h]

/-- A call is followed if and only if it is plain. -/
theorem Tracks.call (h : p.Tracks numFrames x c) (hcan : p.Can numFrames x (.call event)) :
    (p.Plain x (.call event) → ∃ c',
        c.updateStack e event (p.function event.bb_addr) = .ok c' ∧
          p.Tracks numFrames (p.next x (.call event)) c') ∧
      (¬p.Plain x (.call event) → ∀ c',
        c.updateStack e event (p.function event.bb_addr) = .ok c' →
          c'.mTop ≠ (p.next x (.call event)).stack.length) := by
  obtain ⟨hblock, hlink, hfirst, hfree⟩ := hcan
  change Block e p.code event at hblock
  have hoffset : offset e event.bb_addr (p.function event.bb_addr) = 0 :=
    (offset_eq_zero e _ _).mpr hfirst
  have hpush : event.bb_addr ≠ endAddr x.prev →
      c.userAction e event (p.function event.bb_addr) = .PUSH := by
    intro hne
    rw [h.userAction_eq, if_neg hne.symm, hoffset, hlink]
    split
    · rw [recursiveAction, if_pos h.block.nonempty]
      rfl
    · rfl
  rw [h.updateStack_eq hblock]
  constructor
  · rintro ⟨hne, hplt⟩
    rw [hpush hne]
    exact h.push hblock hfree hlink hplt
  · intro hnot c' hc'
    have hlength : (p.next x (.call event)).stack.length = c.mTop + 1 := by
      rw [h.mTop]
      rfl
    rw [hlength]
    by_cases hne : event.bb_addr = endAddr x.prev
    · have hnone : c.userAction e event (p.function event.bb_addr) = .NONE := by
        rw [h.userAction_eq, if_pos hne.symm]
      rw [hnone] at hc'
      rw [finishUpdate_mTop h.top_pos hc']
      exact (Nat.succ_ne_self _).symm
    · have hplt : (e.symbol (p.function x.prev.bb_addr)).kIsPlt = true := by
        by_contra hplt
        exact hnot ⟨hne, Bool.not_eq_true _ ▸ hplt⟩
      obtain ⟨c₁, hc₁, hmTop, -⟩ := h.pushPlt hblock hplt
      rw [hpush hne] at hc'
      obtain rfl := Except.ok.inj (hc'.symm.trans hc₁)
      omega

/-- A return is followed if and only if it is plain. -/
theorem Tracks.ret (h : p.Tracks numFrames x c) (hcan : p.Can numFrames x (.ret event)) :
    (p.Plain x (.ret event) → ∃ c',
        c.updateStack e event (p.function event.bb_addr) = .ok c' ∧
          p.Tracks numFrames (p.next x (.ret event)) c') ∧
      (¬p.Plain x (.ret event) → ∀ c',
        c.updateStack e event (p.function event.bb_addr) = .ok c' →
          c'.mTop ≠ (p.next x (.ret event)).stack.length) := by
  obtain ⟨hblock, hreturn, current, caller, calls, hstack, hret, hfunction⟩ := hcan
  change Block e p.code event at hblock
  have hchained := h.chained
  rw [hstack] at hchained
  obtain ⟨⟨hlink, hlt, hplt⟩, -⟩ := hchained
  have hoffset : offset e event.bb_addr (p.function event.bb_addr) ≠ 0 := by grind [offset_eq_zero]
  -- The block does not end where a `bl` ends.
  have hne : endAddr x.prev ≠ event.bb_addr := by grind [last, isReturn]
  have hpop : p.Plain x (.ret event) → c.userAction e event (p.function event.bb_addr) = .POP := by
    intro hplain
    rw [h.userAction_eq, if_neg hne]
    split
    · rename_i hsame
      have hldm := hplain.resolve_left (absurd hsame.symm)
      grind [isReturn, recursiveAction, h.block.nonempty]
    · have htable : (e.symbol (p.function event.bb_addr)).kIsVectorTable = false := by
        rw [SymbolEntry.kIsVectorTable, (p.user _).2, hfunction, hplt]
        rfl
      have hop : (!(Arm.decode (p.last x.prev)).isBranch) = true ∨
          Arm.decode (p.last x.prev) = .OP_BX ∨ Arm.decode (p.last x.prev) = .OP_THUMB_BX := by
        rw [isReturn] at hreturn
        split at hreturn
        · grind
        · rename_i hop
          exact .inl (by rw [hop]; rfl)
        · rename_i hop
          exact .inl (by rw [hop]; rfl)
        · cases hreturn
      grind [guessAction]
  rw [h.updateStack_eq hblock]
  constructor
  · intro hplain
    rw [hpop hplain, next, hstack]
    exact h.pop hblock hstack hret hfunction
  · intro hnot c' hc'
    have hsame : p.function x.prev.bb_addr = p.function event.bb_addr := by
      by_contra hother
      exact hnot (.inl (Ne.symm hother))
    have hldm : Arm.decode (p.last x.prev) ≠ .OP_LDM := fun hldm => hnot (.inr hldm)
    have hthumb : Arm.decode (p.last x.prev) ≠ .OP_THUMB_POP := fun heq => by
      have hnot := Arm.decode_not_thumb (p.last x.prev)
      rw [heq] at hnot
      cases hnot
    have hnone : c.userAction e event (p.function event.bb_addr) = .NONE := by
      grind [h.userAction_eq, recursiveAction]
    rw [hnone] at hc'
    rw [finishUpdate_mTop h.top_pos hc', h.mTop, next, hstack]
    exact Nat.succ_ne_self _

/-- A jump is followed if and only if it is plain. -/
theorem Tracks.jump (h : p.Tracks numFrames x c) (hcan : p.Can numFrames x (.jump event)) :
    (p.Plain x (.jump event) → ∃ c',
        c.updateStack e event (p.function event.bb_addr) = .ok c' ∧
          p.Tracks numFrames (p.next x (.jump event)) c') ∧
      (¬p.Plain x (.jump event) → ∀ c',
        c.updateStack e event (p.function event.bb_addr) = .ok c' →
          c'.mTop ≠ (p.next x (.jump event)).stack.length) := by
  obtain ⟨hblock, hfunction, hway⟩ := hcan
  change Block e p.code event at hblock
  have hthumb : Arm.decode (p.last x.prev) ≠ .OP_THUMB_POP ∧
      Arm.decode (p.last x.prev) ≠ .OP_THUMB_B := by
    have hnot := Arm.decode_not_thumb (p.last x.prev)
    constructor
    · intro heq
      rw [heq] at hnot
      cases hnot
    · intro heq
      rw [heq] at hnot
      cases hnot
  have haction : c.userAction e event (p.function event.bb_addr) =
      if event.bb_addr = endAddr x.prev ∨ event.bb_addr ≠ first e (p.function event.bb_addr) ∨
          Arm.decode (p.last x.prev) = .OP_B then .NONE else .PUSH := by
    have hoffset := offset_eq_zero e event.bb_addr (p.function event.bb_addr)
    grind [h.userAction_eq, recursiveAction, h.block.nonempty]
  rw [h.updateStack_eq hblock, haction]
  by_cases hnone : event.bb_addr = endAddr x.prev ∨
      event.bb_addr ≠ first e (p.function event.bb_addr) ∨ Arm.decode (p.last x.prev) = .OP_B
  · rw [if_pos hnone]
    refine ⟨fun _ => h.stay hblock hfunction, fun hnot => absurd ?_ hnot⟩
    exact hnone.imp_right fun hother => hother.imp_right .inl
  · rw [if_neg hnone]
    constructor
    · intro hplain
      have hplt : (e.symbol (p.function x.prev.bb_addr)).kIsPlt = true := by
        rcases hplain with hend | hfirst | hop | hplt
        · exact absurd (.inl hend) hnone
        · exact absurd (.inr (.inl hfirst)) hnone
        · exact absurd (.inr (.inr hop)) hnone
        · exact hplt
      obtain ⟨c', hc', -, htracks⟩ := h.pushPlt hblock hplt
      exact ⟨c', hc', htracks hfunction⟩
    · intro hnot c' hc'
      have hplt : (e.symbol (p.function x.prev.bb_addr)).kIsPlt = false := by
        refine Bool.not_eq_true _ ▸ fun hplt => hnot ?_
        exact .inr (.inr (.inr hplt))
      let pushed : CallStack Sym :=
        { c.setFrame c.mTop (pushedFrame p c event (endAddr x.prev)) with mTop := c.mTop + 1 }
      have hpos : 0 < pushed.mTop := Nat.succ_pos _
      change (c.doPush e event (p.function event.bb_addr) >>= _) = _ at hc'
      rw [h.doPush_eq hplt] at hc'
      rw [finishUpdate_mTop hpos hc']
      change c.mTop + 1 ≠ x.stack.length
      simp [h.mTop]

/-- A move is followed if and only if it is plain. -/
theorem Tracks.move (h : p.Tracks numFrames x c) {move : Move} (hcan : p.Can numFrames x move) :
    (p.Plain x move → ∃ c',
        c.updateStack e move.event (p.function move.event.bb_addr) = .ok c' ∧
          p.Tracks numFrames (p.next x move) c') ∧
      (¬p.Plain x move → ∀ c',
        c.updateStack e move.event (p.function move.event.bb_addr) = .ok c' →
          c'.mTop ≠ (p.next x move).stack.length) := by
  cases move with
  | call event => exact h.call hcan
  | ret event => exact h.ret hcan
  | jump event => exact h.jump hcan

/-! ## Runs -/

variable (p) in
/-- The execution and the call stack, which gets the event of every block. -/
def step (x : Exec Sym × CallStack Sym) (move : Move) : Except Fault (Exec Sym × CallStack Sym) :=
  (x.2.updateStack e move.event (p.function move.event.bb_addr)).map fun c => (p.next x.1 move, c)

/-- The first block gives the stack its first frame. -/
theorem start_tracks (p : Program e) (hframes : 1 < numFrames) (nativeOnly : Bool)
    (junk : Nat → StackFrame Sym) : ∃ c,
      (new numFrames nativeOnly junk [] fun _ => none).updateStack e p.entry
        (p.function p.entry.bb_addr) = .ok c ∧ p.Tracks numFrames p.start c := by
  let c₀ : CallStack Sym := new numFrames nativeOnly junk [] fun _ => none
  have hnative : Native c₀ := ⟨rfl, rfl, rfl, rfl, fun _ => rfl⟩
  have hdummy : c₀.mPrevFunction = none := rfl
  have hempty : c₀.mTop = 0 := rfl
  have huser := (p.user p.entry.bb_addr).1
  let frame : StackFrame Sym := ⟨p.function p.entry.bb_addr, 0, .zero, (p.entry.time - 0).setWidth 32,
    (p.entry.time - 0 + 0).setWidth 32⟩
  have hfull : ¬c₀.mNumFrames ≤ c₀.mTop := Nat.not_le.mpr (Nat.lt_of_succ_lt hframes)
  have hsimple : c₀.doSimplePush (p.function p.entry.bb_addr) 0 (p.entry.time - 0) .zero =
      .ok { c₀.setFrame 0 frame with mTop := 1 } := by
    rw [doSimplePush, if_neg hfull]
    rfl
  let pushed : CallStack Sym := { c₀.setFrame 0 frame with mTop := 1 }
  have hfinish : pushed.finishUpdate p.entry (p.function p.entry.bb_addr) = .ok
      { pushed with mPrevFunction := some (p.function p.entry.bb_addr), mPrevEvent := p.entry } :=
    finishUpdate_ok Nat.one_pos
  have haction : c₀.userAction e p.entry (p.function p.entry.bb_addr) = .PUSH ∨
      c₀.userAction e p.entry (p.function p.entry.bb_addr) = .NONE := by
    grind [userAction, guessAction]
  have hpush : c₀.doPush e p.entry (p.function p.entry.bb_addr) = .ok pushed := by
    rw [doPush_user hnative rfl (p.user _).2 (Nat.lt_of_succ_lt hframes)]
    exact hsimple
  refine ⟨{ pushed with
    mPrevFunction := some (p.function p.entry.bb_addr), mPrevEvent := p.entry }, ?_, ?_⟩
  · rw [updateStack_native hnative p.block.time rfl huser]
    rcases haction with haction | haction
    · rw [haction]
      change (c₀.doPush e p.entry _ >>= _) = _
      rw [hpush]
      exact hfinish
    · rw [haction]
      change c₀.finishUpdate p.entry _ = _
      rw [finishUpdate, if_pos hempty]
      change Except.map _ (c₀.doSimplePush _ 0 (p.entry.time - 0) .zero) = _
      rw [hsimple]
      rfl
  · have hframe : Function.update junk 0 frame 0 = frame := Function.update_self _ _ _
    refine ⟨p.block, ⟨0, [], rfl⟩, trivial, hframes, rfl, rfl, ?_, rfl, rfl,
      ⟨rfl, rfl, rfl, rfl, fun _ => rfl⟩⟩
    change Holds (Function.update junk 0 frame) _
    grind [start, Holds]

/-- In a run of plain moves the frames are the real stack after every block, and the next block is
followed if and only if its move is plain. -/
theorem functions_eq_stack (p : Program e) (hframes : 1 < numFrames) (nativeOnly : Bool)
    (junk : Nat → StackFrame Sym) : ∃ c,
      (new numFrames nativeOnly junk [] fun _ => none).updateStack e p.entry
        (p.function p.entry.bb_addr) = .ok c ∧
      ∀ x, Reach p.step (fun x move => p.Can numFrames x.1 move ∧ p.Plain x.1 move) (p.start, c) x →
        x.2.functions = x.1.functions ∧
        ∀ move, p.Can numFrames x.1 move →
          ((∃ c', x.2.updateStack e move.event (p.function move.event.bb_addr) = .ok c' ∧
            c'.functions = (p.next x.1 move).functions) ↔ p.Plain x.1 move) := by
  obtain ⟨c, hstart, htracks⟩ := start_tracks p hframes nativeOnly junk
  refine ⟨c, hstart, fun x hrun => ?_⟩
  have hinv : p.Tracks numFrames x.1 x.2 := by
    refine hrun.invariant (I := fun x => p.Tracks numFrames x.1 x.2) htracks ?_
    intro y move y' hy hok hstep
    obtain ⟨c₁, hc₁, rfl⟩ := map_eq_ok.mp hstep
    obtain ⟨c₂, hc₂, htracks₂⟩ := (hy.move hok.1).1 hok.2
    obtain rfl := Except.ok.inj (hc₁.symm.trans hc₂)
    exact htracks₂
  refine ⟨hinv.functions_eq, fun move hcan => ⟨?_, fun hplain => ?_⟩⟩
  · rintro ⟨c', hc', hfunctions⟩
    by_contra hnot
    refine (hinv.move hcan).2 hnot c' hc' ?_
    have hlength := congrArg List.length hfunctions
    rwa [CallStack.functions, List.length_map, List.length_range, Exec.functions,
      List.length_reverse, List.length_map] at hlength
  · obtain ⟨c', hc', htracks'⟩ := (hinv.move hcan).1 hplain
    exact ⟨c', hc', htracks'.functions_eq⟩

variable (p) in
/-- All moves of an execution are as they should be. -/
def All (ok : Exec Sym → Move → Prop) : Exec Sym → List Move → Prop
  | _, [] => True
  | x, move :: moves => ok x move ∧ All ok (p.next x move) moves

theorem reach_of_moves {ok : Exec Sym → Move → Prop} {moves : List Move}
    {y : Exec Sym × CallStack Sym} (hall : p.All ok x moves)
    (hrun : moves.foldlM p.step (x, c) = .ok y) {start : Exec Sym × CallStack Sym}
    (h : Reach p.step (fun x move => ok x.1 move) start (x, c)) :
    Reach p.step (fun x move => ok x.1 move) start y := by
  induction moves generalizing x c with
  | nil => exact Except.ok.inj hrun ▸ h
  | cons move moves ih =>
      rw [List.foldlM_cons] at hrun
      obtain ⟨z, hstep, hrest⟩ := bind_eq_ok.mp hrun
      have hreach := Reach.step h hall.1 hstep
      obtain ⟨c', -, rfl⟩ := map_eq_ok.mp hstep
      exact ih hall.2 hrest hreach

/-! ## A recursive function -/

/-- The instructions at 0x8000: `beq 0x8008`, `bl 0x8000` and `bx lr`. -/
def recursiveCode (addr : BitVec 32) : BitVec 32 :=
  if addr = 0x8000 then 0x0a000000 else if addr = 0x8004 then 0xebfffffd else 0xe12fff1e

/-- A function at 0x8000, and what lies below it. -/
def recursiveEnv : Env Bool where
  symbol function := ⟨if function then 0x8000 else 0, false, false, 0, false⟩
  insn insns i := recursiveCode (BitVec.ofNat 32 (insns + 4 * i))
  insn_unwrap_thumb := id
  decode_insn_thumb := fun _ => .OP_THUMB_UNDEFINED

/-- The basic block of one instruction. -/
def blockAt (addr : BitVec 32) : BBEvent := ⟨0, 0, addr, addr.toNat, 1, 1, 0⟩

theorem blockAt_block {addr : BitVec 32} (h : addr.toNat + 4 < 2 ^ 32) :
    Block recursiveEnv recursiveCode (blockAt addr) := by
  have htime : (0 : BitVec 64) ≠ ~~~0 := by decide
  refine ⟨rfl, Int.one_pos, h, fun i hi => ?_, htime⟩
  obtain rfl := Nat.lt_one_iff.mp hi
  change recursiveCode (BitVec.ofNat 32 (addr.toNat + 0)) = recursiveCode (addr + 0#32)
  simp

def recursive : Program recursiveEnv where
  code := recursiveCode
  function addr := decide (0x8000 ≤ addr)
  entry := blockAt 0x8000
  first_le addr := by
    by_cases h : (0x8000 : BitVec 32) ≤ addr
    · rw [decide_eq_true h]
      exact BitVec.le_def.mp h
    · rw [decide_eq_false h]
      exact Nat.zero_le _
  user _ := ⟨rfl, rfl⟩
  block := blockAt_block (by decide)

/-- The function calls itself once; the inner call returns with `bx`. -/
def recursiveMoves : List Move :=
  [.jump (blockAt 0x8004), .call (blockAt 0x8000), .jump (blockAt 0x8008), .ret (blockAt 0x8008)]

theorem recursiveMoves_can : recursive.All (recursive.Can 3) recursive.start recursiveMoves := by
  refine ⟨⟨blockAt_block (by decide), ?_⟩, ⟨blockAt_block (by decide), ?_⟩,
    ⟨blockAt_block (by decide), ?_⟩, ⟨blockAt_block (by decide), ?_⟩, trivial⟩
  · exact ⟨by decide, .inl (by decide)⟩
  · exact ⟨by decide, by decide, by decide⟩
  · exact ⟨by decide, .inr ⟨by decide, by decide⟩⟩
  · exact ⟨by decide, _, _, _, rfl, by decide, by decide⟩

/-- The frames before the first block. -/
def noFrame (_ : Nat) : StackFrame Bool := ⟨false, 0, .zero, 0, 0⟩

theorem ok_of_toOption {ε α : Type} {x : Except ε α} {a : α} (h : x.toOption = some a) :
    x = .ok a := by
  cases x with
  | error _ => cases h
  | ok _ => exact congrArg Except.ok (Option.some.inj h)

/-- A run of the program that passes a test. -/
theorem exists_run (ok : Exec Bool → Move → Prop) (moves : List Move)
    (test : Exec Bool × CallStack Bool → Bool) (hall : recursive.All ok recursive.start moves)
    (hcheck : ((new 3 false noFrame [] fun _ => none).updateStack recursiveEnv recursive.entry
      (recursive.function recursive.entry.bb_addr)).toOption.any (fun c =>
        (moves.foldlM recursive.step (recursive.start, c)).toOption.any test) = true) :
    ∃ c x, (new 3 false noFrame [] fun _ => none).updateStack recursiveEnv recursive.entry
        (recursive.function recursive.entry.bb_addr) = .ok c ∧
      Reach recursive.step (fun x move => ok x.1 move) (recursive.start, c) x ∧ test x = true := by
  obtain ⟨c, hstart, hmoves⟩ := (Option.any_eq_true _ _).mp hcheck
  obtain ⟨x, hrun, htest⟩ := (Option.any_eq_true _ _).mp hmoves
  exact ⟨c, x, ok_of_toOption hstart, reach_of_moves hall (ok_of_toOption hrun) .refl, htest⟩

/-- The return leaves both frames of the function. -/
theorem recursion_stays : ∃ c x,
    (new 3 false noFrame [] fun _ => none).updateStack recursiveEnv recursive.entry
      (recursive.function recursive.entry.bb_addr) = .ok c ∧
    Reach recursive.step (fun x move => recursive.Can 3 x.1 move) (recursive.start, c) x ∧
    x.1.functions = [true] ∧ x.2.functions = [true, true] := by
  obtain ⟨c, x, hstart, hreach, htest⟩ := exists_run _ recursiveMoves
    (fun x => x.1.functions = [true] ∧ x.2.functions = [true, true]) recursiveMoves_can
    (by decide +kernel)
  exact ⟨c, x, hstart, hreach, of_decide_eq_true htest⟩

/-- Up to the return the moves are plain, and the frames are those of the two calls. -/
theorem recursive_starts : ∃ c x,
    (new 3 false noFrame [] fun _ => none).updateStack recursiveEnv recursive.entry
      (recursive.function recursive.entry.bb_addr) = .ok c ∧
    Reach recursive.step (fun x move => recursive.Can 3 x.1 move ∧ recursive.Plain x.1 move)
      (recursive.start, c) x ∧
    x.1.functions = [true, true] ∧ x.2.functions = x.1.functions := by
  obtain ⟨c, hstart, hfollows⟩ := functions_eq_stack recursive (by decide : 1 < 3) false noFrame
  obtain ⟨hjump, hcall, hback, -⟩ := recursiveMoves_can
  obtain ⟨c', x, hstart', hreach, htest⟩ := exists_run
    (fun x move => recursive.Can 3 x move ∧ recursive.Plain x move) (recursiveMoves.take 3)
    (fun x => x.1.functions = [true, true])
    ⟨⟨hjump, .inl (by decide)⟩, ⟨hcall, by decide, by decide⟩, ⟨hback, .inr (.inl (by decide))⟩,
      trivial⟩ (by decide +kernel)
  obtain rfl := Except.ok.inj (hstart.symm.trans hstart')
  exact ⟨c, x, hstart, hreach, of_decide_eq_true htest, (hfollows x hreach).1⟩

end Program

end CallStack

end AndroidRenderer.Qtools
