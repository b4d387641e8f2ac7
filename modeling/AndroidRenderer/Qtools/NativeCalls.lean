import AndroidRenderer.Qtools.CallStack

/-!
# Native executions

A program is a memory of instructions and the functions its addresses belong to. An execution
calls with `bl`, returns with `bx`, `mov pc` or `ldm`, and otherwise stays in its function; it
has a real stack of functions with their return addresses.
-/

namespace AndroidRenderer.Qtools

namespace CallStack

variable {Sym : Type}

def first (e : Env Sym) (function : Sym) : BitVec 32 :=
  (e.symbol function).base_addr + (e.symbol function).addr

def isReturn (insn : BitVec 32) : Bool :=
  match Arm.decode insn with
  | .OP_BX => true
  | .OP_MOV => Arm.bits insn 12 4 = 15
  | .OP_LDM => insn &&& 0x8000 ≠ 0
  | _ => false

/-- A basic block of a memory of instructions, at a time of a trace. -/
structure Block (e : Env Sym) (code : BitVec 32 → BitVec 32) (event : BBEvent) : Prop where
  arm : event.is_thumb = 0
  nonempty : 0 < event.num_insns
  inside : event.bb_addr.toNat + 4 * event.num_insns.toNat < 2 ^ 32
  insns : ∀ i < event.num_insns.toNat,
    e.insn event.insns i = code (event.bb_addr + BitVec.ofNat 32 (4 * i))
  time : event.time ≠ ~~~0

/-! ## Blocks -/

section

variable {e : Env Sym} {code : BitVec 32 → BitVec 32} {event : BBEvent}

theorem Block.endAddr_toNat (h : Block e code event) :
    (endAddr event).toNat = event.bb_addr.toNat + 4 * event.num_insns.toNat := by
  have hpos := h.nonempty
  have hinside := h.inside
  rw [endAddr, if_neg (fun hne => hne h.arm)]
  have hcast : event.num_insns * 4 = ((4 * event.num_insns.toNat : Nat) : Int) := by omega
  rw [hcast, BitVec.ofInt_natCast, BitVec.toNat_add, BitVec.toNat_ofNat]
  omega

theorem Block.lastInsn (h : Block e code event) :
    lastInsn e event = (code (endAddr event - 4), Arm.decode (code (endAddr event - 4))) := by
  have hend := h.endAddr_toNat
  have hinside := h.inside
  have hnonempty := h.nonempty
  have haddr : event.bb_addr + BitVec.ofNat 32 (4 * (event.num_insns - 1).toNat) =
      endAddr event - 4 := by
    apply BitVec.eq_of_toNat_eq
    grind
  grind [CallStack.lastInsn, h.insns, h.arm]

theorem offset_eq_zero (e : Env Sym) (addr : BitVec 32) (function : Sym) :
    offset e addr function = 0 ↔ addr = first e function := by
  have hsub : offset e addr function = addr - first e function := by
    rw [offset, first, BitVec.sub_sub, BitVec.add_comm]
  grind

end

/-- A program in user mode; `function` is the function that is looked up for an address, and
`entry` the basic block with which the trace begins. -/
structure Program (e : Env Sym) where
  code : BitVec 32 → BitVec 32
  function : BitVec 32 → Sym
  entry : BBEvent
  first_le : ∀ addr, (first e (function addr)).toNat ≤ addr.toNat
  user : ∀ addr, (e.symbol (function addr)).kIsKernelRegion = false ∧
    (e.symbol (function addr)).kIsVectorStart = false
  block : Block e code entry

/-- A function on the real stack, with the address to which it returns. -/
structure Call (Sym : Type) where
  function : Sym
  ret : BitVec 32

/-- The block that was executed last, and the real stack, newest first. -/
structure Exec (Sym : Type) where
  prev : BBEvent
  stack : List (Call Sym)

/-- How an execution goes on with a basic block. -/
inductive Move
  | call (event : BBEvent)
  | ret (event : BBEvent)
  | jump (event : BBEvent)

def Move.event : Move → BBEvent
  | .call event => event
  | .ret event => event
  | .jump event => event

namespace Exec

/-- The functions of the real stack, oldest first. -/
def functions (x : Exec Sym) : List Sym := (x.stack.map Call.function).reverse

end Exec

namespace Program

variable {e : Env Sym} (p : Program e)

/-- The instruction with which a block ends. -/
def last (event : BBEvent) : BitVec 32 := p.code (endAddr event - 4)

def start : Exec Sym := ⟨p.entry, [⟨p.function p.entry.bb_addr, 0⟩]⟩

def next (x : Exec Sym) : Move → Exec Sym
  | .call event => ⟨event, ⟨p.function event.bb_addr, endAddr x.prev⟩ :: x.stack⟩
  | .ret event => ⟨event, x.stack.tail⟩
  | .jump event => ⟨event, x.stack⟩

/-- A call leads to the first address of a function, with fewer functions than `numFrames`. A
return leads to the instruction behind the call, in the function that called. Everything else
stays in the function. -/
def Can (numFrames : Nat) (x : Exec Sym) (move : Move) : Prop :=
  Block e p.code move.event ∧
    match move with
    | .call event =>
        Arm.decode (p.last x.prev) = .OP_BL ∧
          event.bb_addr = first e (p.function event.bb_addr) ∧ x.stack.length + 1 < numFrames
    | .ret event =>
        isReturn (p.last x.prev) = true ∧ ∃ current caller rest,
          x.stack = current :: caller :: rest ∧ event.bb_addr = current.ret ∧
            p.function event.bb_addr = caller.function
    | .jump event =>
        p.function event.bb_addr = p.function x.prev.bb_addr ∧
          (event.bb_addr = endAddr x.prev ∨ Arm.decode (p.last x.prev) ≠ .OP_BL ∧
            ¬(Arm.decode (p.last x.prev) = .OP_LDM ∧ p.last x.prev &&& 0x8000 ≠ 0))

/-- A call is not made from the `.plt`, nor to the instruction behind the `bl`. A return into the
function that returns is made with `ldm`. A jump back to the first address of a function is a
branch, outside the `.plt`. -/
def Plain (x : Exec Sym) : Move → Prop
  | .call event =>
      event.bb_addr ≠ endAddr x.prev ∧
        (e.symbol (p.function x.prev.bb_addr)).kIsPlt = false
  | .ret event =>
      p.function event.bb_addr ≠ p.function x.prev.bb_addr ∨
        Arm.decode (p.last x.prev) = .OP_LDM
  | .jump event =>
      event.bb_addr = endAddr x.prev ∨ event.bb_addr ≠ first e (p.function event.bb_addr) ∨
        Arm.decode (p.last x.prev) = .OP_B ∨
        (e.symbol (p.function x.prev.bb_addr)).kIsPlt = true

end Program

end CallStack

end AndroidRenderer.Qtools
