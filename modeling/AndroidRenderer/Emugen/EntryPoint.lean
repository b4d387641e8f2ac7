import AndroidRenderer.Lib.LittleEndian

/-!
# Entry points of an emugen specification

An entry point is a function of the remoted API: its name, its return type and
its parameters. A parameter is a scalar or a pointer; for a pointer the `.attrib`
file gives a length expression, a direction and the flags `nullAllowed` and
`isLarge`. The texts of the C expressions are not modelled, only what they
evaluate to in one call: `Arg` holds that value for each parameter.
-/

namespace AndroidRenderer.Emugen

open LittleEndian

/-- The widths emugen accepts for a type: 0, 8, 16 and 32 bits. -/
inductive VarConverter
  | var0 | var8 | var16 | var32
  deriving DecidableEq, Repr

def VarConverter.bytes : VarConverter → Nat
  | .var0 => 0
  | .var8 => 1
  | .var16 => 2
  | .var32 => 4

theorem VarConverter.bytes_le (c : VarConverter) : c.bytes ≤ 4 := by
  cases c <;> decide

/-- A type of the specification. The name `void` is predefined with width 0 and a
`.types` file cannot redefine it. -/
structure VarType where
  name : String
  converter : VarConverter
  isPointer : Bool
  void_empty : name = "void" → converter = .var0 ∧ isPointer = false

def VarType.bytes (t : VarType) : Nat := t.converter.bytes

/-- Pointer data direction, from the client's point of view. -/
inductive PointerDir
  | pointerOut | pointerIn | pointerInout
  deriving DecidableEq, Repr

/-- A parameter. `EntryPoint::setAttribute` sets the two flags on pointers only. -/
structure Var where
  type : VarType
  pointerDir : PointerDir
  nullAllowed : Bool
  isLarge : Bool
  large_pointer : isLarge = true → type.isPointer = true

namespace Var

/-- A parameter that is not large. -/
def small (type : VarType) (pointerDir : PointerDir) (nullAllowed : Bool) : Var :=
  ⟨type, pointerDir, nullAllowed, false, nofun⟩

def isPointer (v : Var) : Bool := v.type.isPointer

def isVoid (v : Var) : Bool := v.type.bytes == 0 && !v.type.isPointer

/-- The pointer's data travels from the client to the server. -/
def sendsData (v : Var) : Bool :=
  v.pointerDir == .pointerInout || v.pointerDir == .pointerIn

/-- The client reads the pointer's data back. -/
def readsBack (v : Var) : Bool :=
  v.pointerDir == .pointerInout || v.pointerDir == .pointerOut

@[grind →] theorem isLarge_isPointer {v : Var} (h : v.isLarge = true) : v.isPointer = true :=
  v.large_pointer h

theorem sendsData_eq_false {v : Var} : v.sendsData = false ↔ v.pointerDir = .pointerOut := by
  cases h : v.pointerDir <;> simp [sendsData, h]

theorem not_isVoid_of_isPointer {v : Var} (h : v.isPointer = true) : v.isVoid = false := by
  simp only [isPointer] at h
  simp [isVoid, h]

theorem bytes_of_isVoid {v : Var} (h : v.isVoid = true) : v.type.bytes = 0 := by
  simp only [isVoid, Bool.and_eq_true, beq_iff_eq] at h
  exact h.1

theorem not_isPointer_of_isVoid {v : Var} (h : v.isVoid = true) : v.isPointer = false := by
  simp only [isVoid, Bool.and_eq_true, Bool.not_eq_true'] at h
  exact h.2

theorem bytes_pos_of_not_isVoid {v : Var} (hv : v.isVoid = false) (hp : v.isPointer = false) :
    0 < v.type.bytes := by
  rcases Nat.eq_zero_or_pos v.type.bytes with h | h
  · grind [isVoid, isPointer]
  · exact h

end Var

/-- An entry point stands on one line of the `.in` file, which `readSpec` reads into
`char line[1000]`. -/
structure EntryPoint where
  name : String
  retval : VarType
  vars : List Var
  vars_length_lt : vars.length < 1000

/-- A parameter together with its position; the generated code refers to the
parameter by its name, the model by its position. -/
abbrev Param := Var × Nat

def EntryPoint.params (e : EntryPoint) : List Param := e.vars.zipIdx

/-- What one call passes for a parameter: a scalar, a pointer whose data the
callee reads, or a pointer to room for the callee's data. The length expression
evaluates to the length of the data, respectively of the room. -/
inductive Arg
  | scalar (value : Nat)
  | buffer (null : Bool) (data : List UInt8)
  | room (null : Bool) (len : Nat)
  deriving DecidableEq, Repr

namespace Arg

/-- The value of the length expression. -/
def len : Arg → Nat
  | scalar _ => 0
  | buffer _ data => data.length
  | room _ len => len

def isNull : Arg → Bool
  | scalar _ => false
  | buffer null _ => null
  | room null _ => null

def value : Arg → Nat
  | scalar v => v
  | _ => 0

def data : Arg → List UInt8
  | buffer _ d => d
  | _ => []

/-- The argument fits the parameter: a scalar in its type's range, a pointer of
the right direction whose length is an `unsigned int`. Only a `nullAllowed`
pointer may be `NULL` while its length expression is not zero. -/
inductive Conforms : Var → Arg → Prop
  | scalar {v : Var} {n : Nat} (hp : v.isPointer = false) (hn : n < 256 ^ v.type.bytes) :
      Conforms v (scalar n)
  | buffer {v : Var} {null : Bool} {data : List UInt8} (hp : v.isPointer = true)
      (hd : v.sendsData = true) (hlen : data.length < 2 ^ 32)
      (hnull : null = true → v.nullAllowed = true ∨ data = []) :
      Conforms v (buffer null data)
  | room {v : Var} {null : Bool} {len : Nat} (hp : v.isPointer = true)
      (hd : v.sendsData = false) (hlen : len < 2 ^ 32)
      (hnull : null = true → v.nullAllowed = true ∨ len = 0) :
      Conforms v (room null len)

end Arg

/-- The arguments of a call, by parameter position. -/
abbrev Args := Nat → Arg

def Args.Conform (args : Args) (ps : List Param) : Prop :=
  ∀ p ∈ ps, (args p.2).Conforms p.1

/-- `__size_x`: the length expression, or 0 for a `NULL` that is allowed,
converted to `unsigned int`. -/
def size (args : Args) (p : Param) : Nat :=
  (if p.1.nullAllowed && (args p.2).isNull then 0 else (args p.2).len) % 2 ^ 32

theorem size_lt (args : Args) (p : Param) : size args p < 2 ^ 32 :=
  Nat.mod_lt _ (by decide)

end AndroidRenderer.Emugen
