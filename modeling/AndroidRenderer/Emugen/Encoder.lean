import AndroidRenderer.Lib.Buffer
import AndroidRenderer.Emugen.EntryPoint

/-!
# The generated encoder

`genEncoderImpl` prints, for each entry point, the C++ body that marshals one
call. Here it emits the same statements as data, `EncStmt`, with the loops of the
source over the same list; `exec` is what the printed C++ does when it runs.

The sizes are added in `unsigned int`. `stream->alloc(n)` hands out the next `n`
bytes of the stream buffer with whatever they contained before; a store past them
is a heap overflow, which `exec` answers with `none`. The packet's own bytes are
what was flushed followed by what still waits in the stream buffer.
-/

namespace AndroidRenderer.Emugen

open LittleEndian

/-- One summand of a printed size expression: a decimal constant or `__size_x`. -/
inductive SizeTerm
  | const (n : Nat)
  | sizeOf (p : Param)

inductive EncStmt
  /-- `ptr = stream->alloc(packetSize);` -/
  | allocPacket
  /-- `ptr = stream->alloc(a + b + …);` -/
  | alloc (size : List SizeTerm)
  /-- `*(unsigned int *)(ptr) = OP_x; ptr += 4;` -/
  | storeOpcode
  /-- `*(unsigned int *)(ptr) = (unsigned int) packetSize; ptr += 4;` -/
  | storePacketSize
  /-- `*(unsigned int *)(ptr) = __size_x; ptr += 4;` -/
  | storeSize (p : Param)
  /-- `[if (x != NULL)] memcpy(ptr, x, __size_x); ptr += __size_x;` -/
  | storeData (p : Param)
  /-- `*(T *) (ptr) = x; ptr += n;` -/
  | storeScalar (p : Param)
  /-- `stream->flush();` -/
  | flush
  /-- `stream->writeFully(&__size_x,4);` -/
  | writeSize (p : Param)
  /-- `[if (x != NULL)] stream->writeFully(x, __size_x);` -/
  | writeData (p : Param)
  /-- `[if (x != NULL)] stream->readback(x, __size_x);` -/
  | readback (p : Param)
  /-- `stream->readback(&retval, n);` -/
  | readRetval (bytes : Nat)

/-- The summand printed for a parameter, and whether it is a pointer. -/
def writeVarEncodingSize (p : Param) : SizeTerm × Nat :=
  if p.1.isPointer then (.sizeOf p, 1) else (.const p.1.type.bytes, 0)

def writeVarEncodingExpression (p : Param) : List EncStmt :=
  if p.1.isPointer then
    -- the pointer header, then the data of an in or inout pointer
    .storeSize p :: if p.1.sendsData then [.storeData p] else []
  else if p.1.isVoid then []
  else [.storeScalar p]

/-- Size and data are written straight to the stream, whatever the direction. -/
def writeVarLargeEncodingExpression (p : Param) : List EncStmt :=
  [.writeSize p, .writeData p]

/-- The printed sum over some parameters, the last summand being `npointers*4`. -/
def sizeTerms (ps : List Param) : List SizeTerm :=
  let npointers := (ps.map fun p => (writeVarEncodingSize p).2).sum
  ps.map (fun p => (writeVarEncodingSize p).1) ++
    if 0 < npointers then [.const (npointers * 4)] else []

/-- `const size_t packetSize = 8 + …;` -/
def packetSizeExpr (ps : List Param) : List SizeTerm := .const 8 :: sizeTerms ps

/-- The fragment of one turn of the loop below: the parameters `small` are packed,
`rest` are the ones from the first large parameter on. -/
def genFragment (first : Bool) (small rest : List Param) : List EncStmt :=
  if first || !small.isEmpty then
    -- without large parameters one allocation of `packetSize` bytes is enough
    (if first && rest.isEmpty then [.allocPacket]
      else [.alloc ((if first then [.const 8] else []) ++ sizeTerms small)]) ++
    (if first then [.storeOpcode, .storePacketSize] else []) ++
    small.flatMap writeVarEncodingExpression ++
    -- the fragment is committed if it is followed by a large variable
    (if rest.isEmpty then [] else [.flush])
  else []

/-- The `while (nvars < maxvars || maxvars == 0)` loop. `rest` are the parameters
from `nvars` on and `first` is `nvars == 0`; each turn packs the leading non-large
parameters into one fragment and writes the large ones behind them directly. With
`maxvars == 0` the loop is left behind the header. -/
def genFragments : Nat → Bool → List Param → List EncStmt
  | 0, _, _ => []
  | fuel + 1, first, rest =>
      if rest.isEmpty && !first then []
      else
        let small := rest.takeWhile fun p => !p.1.isLarge
        let rest' := rest.dropWhile fun p => !p.1.isLarge
        let large := rest'.takeWhile fun p => p.1.isLarge
        let next := rest'.dropWhile fun p => p.1.isLarge
        genFragment first small rest' ++ large.flatMap writeVarLargeEncodingExpression ++
          genFragments fuel false next

/-- The statements that read the reply back. -/
def genReadback (e : EntryPoint) : List EncStmt :=
  (e.params.filter fun p => p.1.isPointer && p.1.readsBack).map .readback ++
    if e.retval.isPointer then []
    else if e.retval.name ≠ "void" then [.readRetval e.retval.bytes]
    else []

/-- The statements that build the packet. -/
def genPack (e : EntryPoint) : List EncStmt :=
  genFragments (e.params.length + 1) true e.params

def genEncoderImpl (e : EntryPoint) : List EncStmt := genPack e ++ genReadback e

/-! ## Running the generated code -/

/-- What one call of the encoder runs with: the arguments, the opcode, the value of
`packetSize`, and the bytes found at each stream position that the code allocates
or sends without storing into it (stale stream buffer contents, and the contents
of the room behind an `out` pointer). -/
structure EncEnv where
  args : Args
  opcode : Nat
  packetSize : Nat
  junk : Mem

def SizeTerm.eval (args : Args) : SizeTerm → Nat
  | .const n => n
  | .sizeOf p => size args p

/-- A printed sum evaluated in `unsigned int`. -/
def evalSize (args : Args) (ts : List SizeTerm) : Nat :=
  (ts.map (SizeTerm.eval args)).sum % 2 ^ 32

/-- The stream: bytes already sent, bytes allocated since the last flush, and the
index of `ptr` in the latter. -/
structure EncState where
  wire : List UInt8
  region : List UInt8
  ptr : Nat

/-- Everything emitted so far, sent or still buffered. -/
def EncState.emitted (s : EncState) : List UInt8 := s.wire ++ s.region

def EncState.start : EncState := ⟨[], [], 0⟩

/-- The undetermined bytes at the next `n` stream positions. -/
def EncState.fresh (env : EncEnv) (s : EncState) (n : Nat) : List UInt8 :=
  load env.junk (s.wire.length + s.region.length) n

def EncState.alloc (env : EncEnv) (s : EncState) (n : Nat) : EncState :=
  { s with region := s.region ++ s.fresh env n, ptr := s.region.length }

/-- Store at `ptr` and advance it. -/
def EncState.store (s : EncState) (bs : List UInt8) : Option EncState :=
  (Buffer.store? s.region s.ptr bs).map fun region =>
    { s with region := region, ptr := s.ptr + bs.length }

def EncState.writeFully (s : EncState) (bs : List UInt8) : EncState :=
  { s with wire := s.wire ++ bs }

/-- The bytes `memcpy` or `writeFully` takes from behind a pointer. -/
def pointerBytes (env : EncEnv) (s : EncState) (p : Param) : List UInt8 :=
  if p.1.nullAllowed && (env.args p.2).isNull then []
  else if p.1.sendsData then (env.args p.2).data.take (size env.args p)
  else s.fresh env (size env.args p)

def EncStmt.exec (env : EncEnv) (s : EncState) : EncStmt → Option EncState
  | .allocPacket => some (s.alloc env env.packetSize)
  | .alloc ts => some (s.alloc env (evalSize env.args ts))
  | .storeOpcode => s.store (leBytes 4 env.opcode)
  | .storePacketSize => s.store (leBytes 4 env.packetSize)
  | .storeSize p => s.store (leBytes 4 (size env.args p))
  | .storeData p => s.store (pointerBytes env s p)
  | .storeScalar p => s.store (leBytes p.1.type.bytes (env.args p.2).value)
  | .flush => some { s with wire := s.wire ++ s.region, region := [] }
  | .writeSize p => some (s.writeFully (leBytes 4 (size env.args p)))
  | .writeData p => some (s.writeFully (pointerBytes env s p))
  | .readback _ => some s
  | .readRetval _ => some s

def execAll (env : EncEnv) : List EncStmt → EncState → Option EncState
  | [], s => some s
  | c :: cs, s => (c.exec env s).bind (execAll env cs)

theorem execAll_append (env : EncEnv) (a b : List EncStmt) (s : EncState) :
    execAll env (a ++ b) s = (execAll env a s).bind (execAll env b) := by
  induction a generalizing s with
  | nil => rfl
  | cons c cs ih =>
      simp only [List.cons_append, execAll, Option.bind_assoc]
      congr 1
      funext t
      exact ih t

/-- One call of `e`: the C++ locals are computed, then the packet is built. -/
def callEnv (e : EntryPoint) (opcode : Nat) (args : Args) (junk : Mem) : EncEnv where
  args := args
  opcode := opcode
  packetSize := evalSize args (packetSizeExpr e.params)
  junk := junk

/-- The packet of one call, `none` when the encoder overflows its own buffer. -/
def encode (e : EntryPoint) (opcode : Nat) (args : Args) (junk : Mem) : Option (List UInt8) :=
  (execAll (callEnv e opcode args junk) (genPack e) .start).map EncState.emitted

end AndroidRenderer.Emugen
