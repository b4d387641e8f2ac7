import AndroidRenderer.Qtools.BBReader
import AndroidRenderer.Qtools.Opcode

/-!
# Call stacks of traced threads

`CallStack` follows the basic blocks of a thread and guesses from the last instruction of the
previous block, and from where the next one lies, whether a function was called or returned.
Symbols are pointers of a type `Sym`; the records of the method trace and what a word of Thumb
code means are parameters.
-/

namespace AndroidRenderer.Qtools

/-- The members of a symbol and of its region that the call stack reads. -/
structure SymbolEntry where
  addr : BitVec 32
  kIsPlt : Bool
  kIsVectorStart : Bool
  base_addr : BitVec 32
  kIsKernelRegion : Bool

/-- `kIsVectorTable` is `kIsPlt | kIsVectorStart`. -/
def SymbolEntry.kIsVectorTable (s : SymbolEntry) : Bool := s.kIsPlt || s.kIsVectorStart

namespace CallStack

inductive MethodFlags
  | kMethodEnter
  | kMethodExit
  | kMethodException
  | kNativeEnter
  | kNativeExit
  | kNativeException
  | others
  deriving DecidableEq, Repr

structure MethodRec where
  time : BitVec 64
  addr : BitVec 32
  pid : Int
  flags : MethodFlags

/-- The record that stands for the end of the method trace. -/
def MethodRec.last : MethodRec := ⟨~~~0, 0, 0, .others⟩

/-- What the call stack reads besides its own members: symbols, the arrays of instructions of the
basic blocks, and Thumb instructions. -/
structure Env (Sym : Type) where
  symbol : Sym → SymbolEntry
  insn : Nat → Nat → BitVec 32
  insn_unwrap_thumb : BitVec 32 → BitVec 32
  decode_insn_thumb : BitVec 32 → Opcode

structure FrameFlags where
  kCausedException : Bool
  kInterpreted : Bool
  kStartNative : Bool
  deriving DecidableEq, Repr

def FrameFlags.zero : FrameFlags := ⟨false, false, false⟩

def FrameFlags.kPopBarrier (flags : FrameFlags) : Bool :=
  flags.kCausedException || flags.kInterpreted || flags.kStartNative

structure StackFrame (Sym : Type) where
  function : Sym
  addr : BitVec 32
  flags : FrameFlags
  time : BitVec 32
  global_time : BitVec 32

inductive Fault
  /-- The program ends with a message. -/
  | exit
  | outOfBounds
  /-- A loop does not end. -/
  | endless
  deriving DecidableEq, Repr

inductive Action
  | NONE
  | PUSH
  | POP
  deriving DecidableEq, Repr

end CallStack

open CallStack in
/-- `none` stands for a pointer to `mDummyFunction`; `vm_sym` holds the members of that name of all
symbols, and `methods` the records that the method trace still has. -/
structure CallStack (Sym : Type) where
  mNumFrames : Nat
  mFrames : Nat → StackFrame Sym
  mTop : Nat
  mNativeOnly : Bool
  mAllowNativeFrames : Bool
  mPrevFunction : Option Sym
  mPrevEvent : BBEvent
  mUserFunction : Option Sym
  mUserEvent : BBEvent
  mSkippedTime : BitVec 64
  sCurrentMethod : MethodRec
  sNextMethod : MethodRec
  methods : List MethodRec
  vm_sym : Sym → Option Sym

namespace CallStack

variable {Sym : Type} [DecidableEq Sym]

/-! ## Blocks and functions -/

/-- The address behind a basic block. -/
def endAddr (event : BBEvent) : BitVec 32 :=
  event.bb_addr +
    BitVec.ofInt 32 (if event.is_thumb ≠ 0 then event.num_insns * 2 else event.num_insns * 4)

def lastInsn (e : Env Sym) (event : BBEvent) : BitVec 32 × Opcode :=
  if 0 < event.num_insns then
    let insn := e.insn event.insns (event.num_insns - 1).toNat
    if event.is_thumb ≠ 0 then
      let insn := e.insn_unwrap_thumb insn
      (insn, e.decode_insn_thumb insn)
    else (insn, Arm.decode insn)
  else (0, .OP_INVALID)

def offset (e : Env Sym) (bb_addr : BitVec 32) (function : Sym) : BitVec 32 :=
  bb_addr - (e.symbol function).addr - (e.symbol function).base_addr

def isKernel (e : Env Sym) (function : Option Sym) : Bool :=
  function.any fun function => (e.symbol function).kIsKernelRegion

/-- What `getAction` returns for a function that is not the previous one. -/
def guessAction (e : Env Sym) (op : Opcode) (offset : BitVec 32) (prev : Option Sym)
    (function : Sym) : Action :=
  if offset ≠ 0 ∧ prev ≠ none then
    if (e.symbol function).kIsVectorTable then .PUSH
    else if !op.isBranch ∨ op = .OP_BX ∨ op = .OP_THUMB_BX then .POP
    else if !op.isBranchLink then .NONE
    else .PUSH
  else .PUSH

/-- What `getAction` returns for the previous function. -/
def recursiveAction (op : Opcode) (insn offset : BitVec 32) (numInsns : Int) : Action :=
  if 0 < numInsns then
    if offset = 0 ∧ op ≠ .OP_B ∧ op ≠ .OP_THUMB_B then .PUSH
    else if offset ≠ 0 ∧ ((op = .OP_LDM ∧ insn &&& 0x8000 ≠ 0) ∨
        (op = .OP_THUMB_POP ∧ insn &&& 0x100 ≠ 0)) then .POP
    else .NONE
  else .NONE

def getAction (e : Env Sym) (c : CallStack Sym) (event : BBEvent) (function : Sym) :
    CallStack Sym × Action :=
  let offset := offset e event.bb_addr function
  let last := lastInsn e c.mPrevEvent
  if endAddr c.mPrevEvent = event.bb_addr then (c, .NONE)
  else if c.mPrevFunction = some function then
    (c, recursiveAction last.2 last.1 offset c.mPrevEvent.num_insns)
  else if isKernel e c.mPrevFunction ∧ !isKernel e (some function) then (c, .POP)
  else
    let c' :=
      if !isKernel e c.mPrevFunction ∧ isKernel e (some function) then
        { c with mUserEvent := c.mPrevEvent, mUserFunction := c.mPrevFunction }
      else c
    (c', guessAction e last.2 offset c.mPrevFunction function)

/-! ## Frames -/

/-- An access to the array of frames. -/
def frameAt (c : CallStack Sym) (level : Nat) : Except Fault (StackFrame Sym) :=
  if level < c.mNumFrames then .ok (c.mFrames level) else .error .outOfBounds

def setFrame (c : CallStack Sym) (level : Nat) (frame : StackFrame Sym) : CallStack Sym :=
  { c with mFrames := Function.update c.mFrames level frame }

def doSimplePush (c : CallStack Sym) (function : Sym) (addr : BitVec 32) (time : BitVec 64)
    (flags : FrameFlags) : Except Fault (CallStack Sym) :=
  if c.mNumFrames ≤ c.mTop then .error .exit
  else
    .ok { c.setFrame c.mTop ⟨function, addr, flags, time.setWidth 32,
            (time + c.mSkippedTime).setWidth 32⟩ with
          mTop := c.mTop + 1 }

def doSimplePop (c : CallStack Sym) : CallStack Sym :=
  if c.mTop = 0 then c
  else
    let mTop := c.mTop - 1
    let newerIsJava := (c.mFrames mTop).flags.kInterpreted
    let olderIsJava := (c.mFrames (mTop - 1)).flags.kInterpreted
    { c with
      mTop := mTop
      mAllowNativeFrames :=
        if c.mNativeOnly then c.mAllowNativeFrames
        else if mTop = 0 then true
        else if newerIsJava ∧ !olderIsJava then true
        else if !newerIsJava ∧ olderIsJava then false
        else c.mAllowNativeFrames }

/-- A number of frames is popped. -/
def doPops : Nat → CallStack Sym → CallStack Sym
  | 0, c => c
  | n + 1, c => doPops n c.doSimplePop

/-- The bit `kCausedException` of a frame. -/
def setCausedException (c : CallStack Sym) (level : Nat) (bit : Bool) : CallStack Sym :=
  c.setFrame level { c.mFrames level with
    flags := { (c.mFrames level).flags with kCausedException := bit } }

/-- The loop of `doPush` that pops the frames of the kernel, with the return address it leaves. -/
def popKernelFrames : Nat → CallStack Sym → BitVec 32 → CallStack Sym × BitVec 32
  | 0, c, retAddr => (c, retAddr)
  | n + 1, c, retAddr =>
      let c := c.doSimplePop
      if 0 < c.mTop ∧ (c.mFrames (c.mTop - 1)).flags.kCausedException then
        (c.setCausedException (c.mTop - 1) false, (c.mFrames c.mTop).addr)
      else if 0 < c.mTop then popKernelFrames n c retAddr
      else (c, retAddr)

def doPush (e : Env Sym) (c : CallStack Sym) (event : BBEvent) (function : Sym) :
    Except Fault (CallStack Sym) :=
  let time := event.time - c.mSkippedTime
  if c.mNumFrames ≤ c.mTop then .error .exit
  else
    let retAddr := if (c.vm_sym function).isSome then 0 else endAddr c.mPrevEvent
    let top := c.mFrames (c.mTop - 1)
    let plt : CallStack Sym × BitVec 32 :=
      if 0 < c.mTop ∧ (e.symbol top.function).kIsVectorTable then (c.doSimplePop, top.addr)
      else (c, retAddr)
    let user :=
      if isKernel e c.mPrevFunction ∧ !isKernel e (some function) ∧ 0 < plt.1.mTop then
        popKernelFrames plt.1.mTop plt.1 plt.2
      else plt
    let c := user.1
    let c := if (e.symbol function).kIsVectorStart ∧ 0 < c.mTop then
        c.setCausedException (c.mTop - 1) true
      else c
    c.doSimplePush function user.2 time
      { FrameFlags.zero with kInterpreted := (c.vm_sym function).isSome }

/-! ## Returns -/

/-- The search of `doPop` for a return address, from the frame below a level on. -/
def findReturn (c : CallStack Sym) (bb_addr : BitVec 32) : Bool → Nat → Option Nat
  | _, 0 => none
  | allowMethodPop, level + 1 =>
      let frame := c.mFrames level
      if bb_addr = frame.addr then some level
      else if frame.flags.kPopBarrier then
        if frame.flags.kInterpreted && allowMethodPop then findReturn c bb_addr false level
        else some (level + 1)
      else findReturn c bb_addr allowMethodPop level

/-- The search of `doPop` for a function. -/
def findFunction (c : CallStack Sym) (function : Sym) : Bool → Nat → Option Nat
  | _, 0 => none
  | allowMethodPop, level + 1 =>
      let frame := c.mFrames level
      if function = frame.function then
        if allowMethodPop ∧ c.mPrevFunction = some function then some level else some (level + 1)
      else if frame.flags.kPopBarrier then
        if frame.flags.kInterpreted && allowMethodPop then findFunction c function false level
        else some (level + 1)
      else findFunction c function allowMethodPop level

/-- The level down to which `doPop` pops. -/
def popLevel (c : CallStack Sym) (event : BBEvent) (function : Sym) (methodAction : Action) :
    Except Fault Nat :=
  let allowMethodPop : Bool := methodAction = .POP
  let byFunction := (c.findFunction function allowMethodPop c.mTop).getD 0
  match c.findReturn event.bb_addr allowMethodPop c.mTop with
  | none => .ok byFunction
  | some level =>
      (c.frameAt level).map fun frame => if event.bb_addr = frame.addr then level else byFunction

/-- `doPop` up to its last part. -/
def popFrames (c : CallStack Sym) (event : BBEvent) (function : Sym) (methodAction : Action) :
    Except Fault (CallStack Sym) :=
  c.popLevel event function methodAction >>= fun stackLevel =>
    (if stackLevel = 0 then
        (c.frameAt 0).map fun frame => if frame.function = function then 1 else 0
      else .ok stackLevel) >>= fun stackLevel =>
      let c := doPops (c.mTop - stackLevel) c
      .ok (if 0 < c.mTop then c.setCausedException (c.mTop - 1) false else c)

/-- `doPop`, which calls itself where the kernel is left; `mUserFunction` is never a function of
the kernel, so that the second call is the last. -/
def doPop (e : Env Sym) :
    Nat → CallStack Sym → BBEvent → Sym → Action → Except Fault (CallStack Sym)
  | 0, _, _, _, _ => .error .endless
  | turns + 1, c, event, function, methodAction =>
      c.popFrames event function methodAction >>= fun c =>
        if isKernel e c.mPrevFunction ∧ !isKernel e (some function) then
          let c := { c with mPrevEvent := c.mUserEvent, mPrevFunction := c.mUserFunction }
          let next := c.getAction e event function
          if next.2 = .POP then doPop e turns next.1 event function methodAction else .ok next.1
        else .ok c

/-! ## The method trace -/

/-- `ReadMethod` for `sNextMethod`. -/
def readNext (c : CallStack Sym) : CallStack Sym :=
  match c.methods with
  | [] => { c with sNextMethod := .last }
  | rec :: methods => { c with sNextMethod := rec, methods := methods }

/-- The loop of `doMethodAction` that catches up with the events. -/
def readAhead (time : BitVec 64) :
    List MethodRec → CallStack Sym → Except Fault (CallStack Sym)
  | [], c =>
      if c.sNextMethod.time ≤ time then
        if MethodRec.last.time ≤ time then .error .endless
        else .ok { c with sCurrentMethod := c.sNextMethod, sNextMethod := .last }
      else .ok c
  | rec :: methods, c =>
      if c.sNextMethod.time ≤ time then
        readAhead time methods
          { c with sCurrentMethod := c.sNextMethod, sNextMethod := rec, methods := methods }
      else .ok c

/-- The search of `doMethodPop`, for a native method or for a Java method at an address. -/
def findMethod (e : Env Sym) (c : CallStack Sym) (addr : BitVec 32) (native : Bool) :
    Nat → Option Nat
  | 0 => none
  | level + 1 =>
      let frame := c.mFrames level
      let entry := e.symbol frame.function
      if native ∧ frame.flags.kStartNative then some level
      else if !native ∧ frame.flags.kInterpreted ∧ entry.base_addr + entry.addr = addr then
        some level
      else findMethod e c addr native level

def doMethodPop (e : Env Sym) (c : CallStack Sym) (addr : BitVec 32) (native : Bool) :
    CallStack Sym :=
  (c.findMethod e addr native c.mTop).elim c fun stackLevel => doPops (c.mTop - stackLevel) c

def handleMethod (e : Env Sym) (c : CallStack Sym) (event : BBEvent) (function : Sym)
    (rec : MethodRec) : Except Fault (CallStack Sym) :=
  let time := event.time - c.mSkippedTime
  match rec.flags with
  | .kMethodEnter =>
      (c.doSimplePush function 0 time { FrameFlags.zero with kInterpreted := true }).map fun c =>
        { c with mAllowNativeFrames := false }
  | .kNativeEnter =>
      (c.doSimplePush function 0 time { FrameFlags.zero with kStartNative := true }).map fun c =>
        { c with mAllowNativeFrames := true }
  | .kMethodExit => .ok (c.doMethodPop e rec.addr false)
  | .kMethodException => .ok (c.doMethodPop e rec.addr false)
  | .kNativeExit => .ok (c.doMethodPop e rec.addr true)
  | .kNativeException => .ok (c.doMethodPop e rec.addr true)
  | .others => .ok c

def doMethodAction (e : Env Sym) (c : CallStack Sym) (event : BBEvent) (function : Sym) :
    Except Fault (CallStack Sym) :=
  readAhead event.time c.methods c >>= fun c =>
    if c.sCurrentMethod.time ≤ event.time ∧ event.pid = c.sCurrentMethod.pid then
      (c.handleMethod e event function c.sCurrentMethod).map fun c =>
        let c := { c with sCurrentMethod := c.sNextMethod }
        if c.sNextMethod.time ≠ ~~~0 then c.readNext else c
    else .ok c

/-! ## updateStack -/

/-- The frames after an action. -/
def doAction (e : Env Sym) (c : CallStack Sym) (event : BBEvent) (function : Sym) :
    Action → Except Fault (CallStack Sym)
  | .NONE => .ok c
  | .PUSH => c.doPush e event function
  | .POP => c.doPop e 2 event function .NONE

/-- The end of `updateStack`: an empty stack gets the current function. -/
def finishUpdate (c : CallStack Sym) (event : BBEvent) (function : Sym) :
    Except Fault (CallStack Sym) :=
  (if c.mTop = 0 then c.doSimplePush function 0 (event.time - c.mSkippedTime) .zero
    else .ok c).map fun c => { c with mPrevFunction := some function, mPrevEvent := event }

/-- The native function behind a method that is interpreted, whose own `vm_sym` is cleared. -/
def nativeFunction (c : CallStack Sym) (function : Sym) : CallStack Sym × Sym :=
  match c.vm_sym function with
  | none => (c, function)
  | some native => ({ c with vm_sym := Function.update c.vm_sym native none }, native)

def updateStack (e : Env Sym) (c : CallStack Sym) (event : BBEvent) (function : Sym) :
    Except Fault (CallStack Sym) :=
  (if c.mNativeOnly then .ok c else c.doMethodAction e event function) >>= fun c' =>
    let function := if c.mNativeOnly then (c.vm_sym function).getD function else function
    let next := c'.getAction e event function
    let action := if !next.1.mAllowNativeFrames ∧ !isKernel e (some function) then .NONE else next.2
    let native := next.1.nativeFunction function
    native.1.doAction e event native.2 action >>= fun c => c.finishUpdate event native.2

/-- `CallStack::CallStack` and `setNativeOnly`, for the first stack; `junk` is what the memory of
the frames held before. -/
def new (numFrames : Nat) (nativeOnly : Bool) (junk : Nat → StackFrame Sym)
    (methods : List MethodRec) (vm_sym : Sym → Option Sym) : CallStack Sym :=
  let zero : BBEvent := ⟨0, 0, 0, 0, 0, 0, 0⟩
  let c : CallStack Sym :=
    { mNumFrames := numFrames
      mFrames := junk
      mTop := 0
      mNativeOnly := nativeOnly
      mAllowNativeFrames := true
      mPrevFunction := none
      mPrevEvent := zero
      mUserFunction := none
      mUserEvent := zero
      mSkippedTime := 0
      sCurrentMethod := .last
      sNextMethod := .last
      methods := methods
      vm_sym := vm_sym }
  match methods with
  | [] => c
  | rec :: methods => ({ c with sCurrentMethod := rec, methods := methods } : CallStack Sym).readNext

end CallStack

end AndroidRenderer.Qtools
