import AndroidRenderer.Lib.Buffer
import AndroidRenderer.Emugen.EntryPoint

/-!
# The generated decoder

`genDecoderImpl` prints one `case` per entry point. It goes over the parameters in
several passes (sizes of the reply buffer, its pointers, the call, the epilogue)
and in each pass rebuilds `varoffset`, a C expression that reads the length fields
of the pointers passed so far. The model emits the same passes as data, with
`varoffset` as the expression tree `OffExpr`.

The decoder reads through `ptr`, so its memory is addressed from the packet's
first byte on and does not end with the packet.
-/

namespace AndroidRenderer.Emugen

open LittleEndian

/-- `varoffset`: `8`, `… + n`, or `… + 4 + *(tsize_t *)(ptr + …)`. -/
inductive OffExpr
  | header
  | skip (off : OffExpr) (n : Nat)
  | skipData (off : OffExpr)

def OffExpr.eval (m : Mem) : OffExpr → Nat
  | .header => 8
  | .skip off n => off.eval m + n
  | .skipData off => off.eval m + 4 + loadLE m (off.eval m) 4

/-- An argument of the printed call `this->f(…)`. -/
inductive DecArg
  /-- `*(T *)(ptr + off)` -/
  | scalar (off : OffExpr) (bytes : Nat)
  /-- `(T)(ptr + off + 4)`, guarded by the length for a `nullAllowed` pointer. -/
  | data (nullAllowed : Bool) (off : OffExpr)
  /-- `(T)(tmpPtr<j>)`, guarded by `tmpPtr<j>Size` for a `nullAllowed` pointer. -/
  | tmpPtr (nullAllowed : Bool) (j : Nat)

inductive DecStmt
  /-- `size_t tmpPtr<j>Size = (size_t)*(unsigned int *)(ptr + off);` and
  `totalTmpSize += tmpPtr<j>Size;` -/
  | tmpSize (j : Nat) (off : OffExpr)
  /-- `totalTmpSize += sizeof(T);` -/
  | retvalSize (bytes : Nat)
  /-- `unsigned char *tmpBuf = stream->alloc(totalTmpSize);` -/
  | allocTmpBuf
  /-- `unsigned char *tmpPtr<j> = (ptr + off + 4);` -/
  | inoutPtr (j : Nat) (off : OffExpr)
  /-- `unsigned char *tmpPtr<j> = &tmpBuf[0 + tmpPtr<i>Size + …];` -/
  | outPtr (j : Nat) (before : List Nat)
  /-- `*(T *)(&tmpBuf[0 + tmpPtr<i>Size + …]) = this->f(…);` -/
  | call (retval : Option (List Nat × Nat)) (args : List DecArg)
  /-- `stream->flush();` -/
  | flush
  /-- `pos += *(int *)(ptr + 4); ptr += *(int *)(ptr + 4);` -/
  | advance

/-- `varoffset` behind a parameter. -/
def nextOffset (p : Param) (off : OffExpr) : OffExpr :=
  if p.1.isVoid then off
  else if !p.1.isPointer then .skip off p.1.type.bytes
  else if p.1.sendsData then .skipData off
  else .skip off 4

/-- The parameters, each with its `varoffset`. -/
def varOffsets : OffExpr → List Param → List (Param × OffExpr)
  | _, [] => []
  | off, p :: ps => (p, off) :: varOffsets (nextOffset p off) ps

/-- One pass over the parameters; `varoffset` starts behind the packet header. -/
def pass {α : Type} (emit : Param → OffExpr → List α) (ps : List Param) : List α :=
  (varOffsets .header ps).flatMap fun q => emit q.1 q.2

def isOut (p : Param) : Bool := p.1.isPointer && !p.1.sendsData

/-- The `out` pointers of the parameters, by position. -/
def outPointers (ps : List Param) : List Nat := (ps.filter isOut).map Prod.snd

/-- The reply carries a return value unless it is void or a pointer. -/
def returnsValue (t : VarType) : Bool := !(t.bytes == 0 && !t.isPointer) && !t.isPointer

/-- `PASS_TmpBuffAlloc` -/
def passTmpBuffAlloc (e : EntryPoint) : List DecStmt :=
  pass (fun p off => if isOut p then [.tmpSize p.2 off] else []) e.params ++
    (if returnsValue e.retval then [.retvalSize e.retval.bytes] else []) ++
    -- totalTmpBuffExist
    (if returnsValue e.retval || !(outPointers e.params).isEmpty then [.allocTmpBuf] else [])

/-- `tmpBufOffset[j]` adds up the sizes of the `out` pointers before `j`. -/
def memAlloc (outs : List Nat) (p : Param) (off : OffExpr) : List DecStmt :=
  if p.1.isPointer then
    match p.1.pointerDir with
    | .pointerInout => [.inoutPtr p.2 off]
    | .pointerOut => [.outPtr p.2 (outs.takeWhile (· ≠ p.2))]
    | .pointerIn => []
  else []

/-- `PASS_MemAlloc` -/
def passMemAlloc (e : EntryPoint) : List DecStmt :=
  pass (memAlloc (outPointers e.params)) e.params

def decArg (p : Param) (off : OffExpr) : List DecArg :=
  if p.1.isVoid then []
  else if !p.1.isPointer then [.scalar off p.1.type.bytes]
  else if p.1.sendsData then [.data p.1.nullAllowed off]
  else [.tmpPtr p.1.nullAllowed p.2]

/-- `PASS_FunctionCall` -/
def passFunctionCall (e : EntryPoint) : List DecStmt :=
  [.call (if returnsValue e.retval then some (outPointers e.params, e.retval.bytes) else none)
    (pass decArg e.params)]

/-- `PASS_Epilog` -/
def passEpilog (e : EntryPoint) : List DecStmt :=
  (if returnsValue e.retval || !(outPointers e.params).isEmpty then [.flush] else []) ++ [.advance]

/-- The body of `case OP_f:`. -/
def genDecoderImpl (e : EntryPoint) : List DecStmt :=
  passTmpBuffAlloc e ++ passMemAlloc e ++ passFunctionCall e ++ passEpilog e

/-! ## Running the generated code -/

/-- What the server function receives for a parameter: a scalar, `NULL`, a pointer
to data inside the packet, or a pointer to room in the reply buffer. -/
inductive Decoded
  | scalar (value : Nat)
  | null
  | data (bytes : List UInt8)
  | room (len : Nat)
  deriving DecidableEq, Repr

/-- What the server function leaves behind: the contents of the data or room behind
each pointer, by position, and its return value. -/
structure Served where
  contents : Nat → Mem
  retval : Nat

structure DecEnv where
  mem : Mem
  server : List Decoded → Served
  /-- previous contents of the reply stream's buffer -/
  stale : Mem

/-- The locals of the `case` body, and what it has called and flushed. -/
structure DecState where
  tmpSize : Nat → Nat
  totalTmpSize : Nat
  tmpBuf : List UInt8
  tmpPtr : Nat → Nat
  called : Option (List Decoded)
  reply : List UInt8

def DecState.start : DecState := ⟨fun _ => 0, 0, [], fun _ => 0, none, []⟩

def DecState.offset (s : DecState) (before : List Nat) : Nat := (before.map s.tmpSize).sum

def DecArg.eval (m : Mem) (s : DecState) : DecArg → Decoded
  | .scalar off bytes => .scalar (loadLE m (off.eval m) bytes)
  | .data nullAllowed off =>
      if nullAllowed && loadLE m (off.eval m) 4 == 0 then .null
      else .data (load m (off.eval m + 4) (loadLE m (off.eval m) 4))
  | .tmpPtr nullAllowed j =>
      if nullAllowed && s.tmpSize j == 0 then .null else .room (s.tmpSize j)

/-- The reply buffer pointer among the arguments of a call. -/
def DecArg.tmpPtr? : DecArg → Option Nat
  | .tmpPtr _ j => some j
  | _ => none

/-- The server function fills the room behind the pointers it was given. -/
def fillRoom (r : Served) (s : DecState) : List Nat → Option (List UInt8)
  | [] => some s.tmpBuf
  | j :: js => (fillRoom r s js).bind fun buf =>
      Buffer.store? buf (s.tmpPtr j) (load (r.contents j) 0 (s.tmpSize j))

def DecStmt.exec (env : DecEnv) (s : DecState) : DecStmt → Option DecState
  | .tmpSize j off =>
      let n := loadLE env.mem (off.eval env.mem) 4
      some { s with
        tmpSize := Function.update s.tmpSize j n
        totalTmpSize := s.totalTmpSize + n }
  | .retvalSize bytes => some { s with totalTmpSize := s.totalTmpSize + bytes }
  | .allocTmpBuf => some { s with tmpBuf := load env.stale 0 s.totalTmpSize }
  | .inoutPtr j off => some { s with
      tmpSize := Function.update s.tmpSize j (loadLE env.mem (off.eval env.mem) 4) }
  | .outPtr j before => some { s with tmpPtr := Function.update s.tmpPtr j (s.offset before) }
  | .call retval args =>
      let decoded := args.map (·.eval env.mem s)
      let r := env.server decoded
      (fillRoom r s (args.filterMap DecArg.tmpPtr?)).bind fun buf =>
        match retval with
        | none => some { s with tmpBuf := buf, called := some decoded }
        | some (before, bytes) =>
            (Buffer.store? buf (s.offset before) (leBytes bytes r.retval)).map fun buf =>
              { s with tmpBuf := buf, called := some decoded }
  | .flush => some { s with reply := s.reply ++ s.tmpBuf }
  | .advance => some s

def runAll (env : DecEnv) : List DecStmt → DecState → Option DecState
  | [], s => some s
  | c :: cs, s => (c.exec env s).bind (runAll env cs)

/-- One dispatched packet of `e`. -/
def dispatch (e : EntryPoint) (env : DecEnv) : Option DecState :=
  runAll env (genDecoderImpl e) .start

end AndroidRenderer.Emugen
