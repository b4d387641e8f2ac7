import Mathlib.Algebra.Group.Nat.Defs
import Mathlib.Algebra.Ring.Int.Defs

/-!
# Instructions of the ARM

`Arm::decode` names the operation of an ARM instruction.
-/

namespace AndroidRenderer.Qtools

inductive Opcode
  | OP_INVALID
  | OP_UNDEFINED
  | OP_ADC
  | OP_ADD
  | OP_AND
  | OP_B
  | OP_BL
  | OP_BIC
  | OP_BKPT
  | OP_BLX
  | OP_BX
  | OP_CDP
  | OP_CLZ
  | OP_CMN
  | OP_CMP
  | OP_EOR
  | OP_LDC
  | OP_LDM
  | OP_LDR
  | OP_LDRB
  | OP_LDRBT
  | OP_LDRH
  | OP_LDRSB
  | OP_LDRSH
  | OP_LDRT
  | OP_MCR
  | OP_MLA
  | OP_MOV
  | OP_MRC
  | OP_MRS
  | OP_MSR
  | OP_MUL
  | OP_MVN
  | OP_ORR
  | OP_PLD
  | OP_RSB
  | OP_RSC
  | OP_SBC
  | OP_SMLAL
  | OP_SMULL
  | OP_STC
  | OP_STM
  | OP_STR
  | OP_STRB
  | OP_STRBT
  | OP_STRH
  | OP_STRT
  | OP_SUB
  | OP_SWI
  | OP_SWP
  | OP_SWPB
  | OP_TEQ
  | OP_TST
  | OP_UMLAL
  | OP_UMULL
  | OP_THUMB_UNDEFINED
  | OP_THUMB_ADC
  | OP_THUMB_ADD
  | OP_THUMB_AND
  | OP_THUMB_ASR
  | OP_THUMB_B
  | OP_THUMB_BIC
  | OP_THUMB_BKPT
  | OP_THUMB_BL
  | OP_THUMB_BLX
  | OP_THUMB_BX
  | OP_THUMB_CMN
  | OP_THUMB_CMP
  | OP_THUMB_EOR
  | OP_THUMB_LDMIA
  | OP_THUMB_LDR
  | OP_THUMB_LDRB
  | OP_THUMB_LDRH
  | OP_THUMB_LDRSB
  | OP_THUMB_LDRSH
  | OP_THUMB_LSL
  | OP_THUMB_LSR
  | OP_THUMB_MOV
  | OP_THUMB_MUL
  | OP_THUMB_MVN
  | OP_THUMB_NEG
  | OP_THUMB_ORR
  | OP_THUMB_POP
  | OP_THUMB_PUSH
  | OP_THUMB_ROR
  | OP_THUMB_SBC
  | OP_THUMB_STMIA
  | OP_THUMB_STR
  | OP_THUMB_STRB
  | OP_THUMB_STRH
  | OP_THUMB_SUB
  | OP_THUMB_SWI
  | OP_THUMB_TST
  | OP_END
  deriving DecidableEq, Repr

namespace Opcode

/-- The opcodes with the flag `kCatBranch`. -/
def isBranch : Opcode → Bool
  | OP_B | OP_BL | OP_BLX | OP_BX => true
  | OP_THUMB_B | OP_THUMB_BL | OP_THUMB_BLX | OP_THUMB_BX => true
  | _ => false

/-- The opcodes with the flag `kCatBranchLink`. -/
def isBranchLink : Opcode → Bool
  | OP_BL | OP_BLX | OP_THUMB_BL | OP_THUMB_BLX => true
  | _ => false

end Opcode

namespace Arm

def bits (insn : BitVec 32) (start width : Nat) : Nat := insn.toNat / 2 ^ start % 2 ^ width

def decode_alu (insn : BitVec 32) : Opcode :=
  let is_immed := bits insn 25 1
  let bit_s := bits insn 20 1
  let shift_is_reg := bits insn 4 1
  let bit7 := bits insn 7 1
  if is_immed = 0 ∧ shift_is_reg ≠ 0 ∧ bit7 ≠ 0 then .OP_UNDEFINED
  else
    match bits insn 21 4 with
    | 0x0 => .OP_AND
    | 0x1 => .OP_EOR
    | 0x2 => .OP_SUB
    | 0x3 => .OP_RSB
    | 0x4 => .OP_ADD
    | 0x5 => .OP_ADC
    | 0x6 => .OP_SBC
    | 0x7 => .OP_RSC
    | 0x8 => if bit_s ≠ 0 then .OP_TST else .OP_MRS
    | 0x9 => if bit_s ≠ 0 then .OP_TEQ else .OP_MSR
    | 0xa => if bit_s ≠ 0 then .OP_CMP else .OP_MRS
    | 0xb => if bit_s ≠ 0 then .OP_CMN else .OP_MSR
    | 0xc => .OP_ORR
    | 0xd => .OP_MOV
    | 0xe => .OP_BIC
    | 0xf => .OP_MVN
    | _ => .OP_INVALID

def decode_mul (insn : BitVec 32) : Opcode :=
  let bit22_U := bits insn 22 1
  let bit21_A := bits insn 21 1
  if bits insn 24 1 ≠ 0 then .OP_UNDEFINED
  else if bits insn 23 1 = 0 then
    if bit22_U ≠ 0 then .OP_UNDEFINED
    else if bit21_A = 0 then .OP_MUL else .OP_MLA
  else if bit22_U = 0 then
    if bit21_A = 0 then .OP_UMULL else .OP_UMLAL
  else if bit21_A = 0 then .OP_SMULL else .OP_SMLAL

def decode_ldrh (insn : BitVec 32) : Opcode :=
  let bits_65 := bits insn 5 2
  if bits insn 20 1 ≠ 0 then
    if bits_65 = 0x1 then .OP_LDRH
    else if bits_65 = 0x2 then .OP_LDRSB
    else if bits_65 ≠ 0x3 then .OP_UNDEFINED
    else .OP_LDRSH
  else if bits_65 ≠ 0x1 then .OP_UNDEFINED
  else .OP_STRH

def decode00 (insn : BitVec 32) : Opcode :=
  if bits insn 25 1 = 0 ∧ bits insn 4 1 = 1 then
    if insn &&& 0x0ffffff0 = 0x012fff10 then .OP_BX
    else if insn &&& 0x0ff000f0 = 0x01600010 then .OP_CLZ
    else if insn &&& 0xfff000f0 = 0xe1200070 then .OP_BKPT
    else if bits insn 4 4 = 0x9 then
      if insn &&& 0x0ff00ff0 = 0x01000090 then
        if bits insn 22 1 ≠ 0 then .OP_SWPB else .OP_SWP
      else decode_mul insn
    else if bits insn 7 1 = 1 then decode_ldrh insn
    else decode_alu insn
  else decode_alu insn

def decode01 (insn : BitVec 32) : Opcode :=
  if bits insn 25 1 = 1 ∧ bits insn 4 1 = 1 then .OP_UNDEFINED
  else if insn &&& 0xfd70f000 = 0xf550f000 then .OP_PLD
  else if bits insn 20 1 ≠ 0 then
    if bits insn 22 1 ≠ 0 then .OP_LDRB else .OP_LDR
  else if bits insn 22 1 ≠ 0 then .OP_STRB
  else .OP_STR

def decode10 (insn : BitVec 32) : Opcode :=
  if bits insn 25 1 = 0 then
    if bits insn 20 1 ≠ 0 then .OP_LDM else .OP_STM
  else if bits insn 24 1 = 0 then .OP_B
  else .OP_BL

def decode11 (insn : BitVec 32) : Opcode :=
  if bits insn 25 1 = 0 then
    if bits insn 20 1 ≠ 0 then .OP_LDC else .OP_STC
  else if bits insn 24 1 = 1 then .OP_SWI
  else if bits insn 8 4 = 15 then
    if bits insn 4 1 = 0 ∨ bits insn 21 3 ≠ 0 then .OP_UNDEFINED
    else if bits insn 20 1 ≠ 0 then .OP_MRC else .OP_MCR
  else if bits insn 4 1 = 0 then .OP_CDP
  else if bits insn 20 1 ≠ 0 then .OP_MRC
  else .OP_MCR

def decode (insn : BitVec 32) : Opcode :=
  match bits insn 26 2 with
  | 0x0 => decode00 insn
  | 0x1 => decode01 insn
  | 0x2 => decode10 insn
  | 0x3 => decode11 insn
  | _ => .OP_INVALID

/-- The opcodes of Thumb instructions that a call stack asks for. -/
def isThumb : Opcode → Bool
  | .OP_THUMB_B | .OP_THUMB_POP => true
  | _ => false

theorem decode_alu_not_thumb (insn : BitVec 32) : isThumb (decode_alu insn) = false := by
  rw [decode_alu]
  repeat (first | rfl | split)

theorem decode_mul_not_thumb (insn : BitVec 32) : isThumb (decode_mul insn) = false := by
  rw [decode_mul]
  repeat (first | rfl | split)

theorem decode_ldrh_not_thumb (insn : BitVec 32) : isThumb (decode_ldrh insn) = false := by
  rw [decode_ldrh]
  repeat (first | rfl | split)

theorem decode_not_thumb (insn : BitVec 32) : isThumb (decode insn) = false := by
  rw [decode]
  split
  · rw [decode00]
    repeat (first | rfl | exact decode_alu_not_thumb insn | exact decode_mul_not_thumb insn |
      exact decode_ldrh_not_thumb insn | split)
  · rw [decode01]
    repeat (first | rfl | split)
  · rw [decode10]
    repeat (first | rfl | split)
  · rw [decode11]
    repeat (first | rfl | split)
  · rfl

end Arm

end AndroidRenderer.Qtools
