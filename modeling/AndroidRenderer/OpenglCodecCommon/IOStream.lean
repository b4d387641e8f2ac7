import AndroidRenderer.Lib.Buffer
import AndroidRenderer.Lib.Run

/-!
# Streams of encoded calls

`IOStream` hands out regions of a buffer that a concrete stream allocates, and commits what was
handed out when the buffer is full or flushed. Both keep a size of the buffer. `SocketStream` and
`QemuPipeStream` are the same but for the loop that writes to their descriptor.

`size_t` has `w` bits, and `int` has 32. What the allocator and the system calls return is a
parameter of each call.
-/

namespace AndroidRenderer.OpenglCodecCommon

abbrev BlockId := Nat

/-- A new block of the allocator: its address, and what it holds. -/
structure Block where
  id : BlockId
  junk : Nat → UInt8

/-- What `send` or `write` returns: how many bytes were written, that the call was interrupted, or
that it failed otherwise. -/
inductive WriteResult
  | count (stat : Nat)
  | eintr
  | failed
  deriving DecidableEq, Repr

inductive StreamKind
  | SocketStream
  | QemuPipeStream
  deriving DecidableEq, Repr

inductive StreamFault
  | outOfBounds
  | blocked
  deriving DecidableEq, Repr

/-- The members of `IOStream`; `m_buf` is a pointer into the concrete stream's memory. -/
structure IOStream (w : Nat) where
  m_buf : Option BlockId
  m_bufsize : BitVec w
  m_free : BitVec w

/-- A concrete stream, whose buffer has an address and holds some bytes. `sent` is what has been
written to the descriptor. -/
structure Stream (w : Nat) where
  kind : StreamKind
  base : IOStream w
  valid : Bool
  m_buf : Option (BlockId × List UInt8)
  m_bufsize : BitVec w
  sent : List UInt8

/-- What `alloc` returns: `len` bytes at an offset of a block. -/
structure Region (w : Nat) where
  block : BlockId
  off : BitVec w
  len : BitVec w

namespace Stream

variable {w : Nat}

/-- `SocketStream::SocketStream` and `QemuPipeStream::QemuPipeStream`, with a descriptor. -/
def new (kind : StreamKind) (bufSize : BitVec w) : Stream w where
  kind := kind
  base := ⟨none, bufSize, 0⟩
  valid := true
  m_buf := none
  m_bufsize := bufSize
  sent := []

/-! ## Concrete streams -/

/-- The bytes of a block of `size` bytes that begins with `bytes`. -/
def contents (bytes : List UInt8) (junk : Nat → UInt8) (size : Nat) : List UInt8 :=
  (List.range size).map fun i => bytes[i]?.getD (junk i)

/-- `allocBuffer`; `block` is what `malloc` or `realloc` returns. -/
def allocBuffer (s : Stream w) (minSize : BitVec w) (block : Option Block) : Stream w :=
  let allocSize := if s.m_bufsize < minSize then minSize else s.m_bufsize
  match s.m_buf with
  | none => { s with m_buf := block.map fun b => (b.id, contents [] b.junk allocSize.toNat) }
  | some (_, bytes) =>
      if s.m_bufsize < allocSize then
        match block with
        | some b =>
            { s with
              m_buf := some (b.id, contents bytes b.junk allocSize.toNat), m_bufsize := allocSize }
        | none => { s with m_buf := none, m_bufsize := 0 }
      else s

/-- The loop of `SocketStream::writeFully`: whether it succeeds, and what was written. -/
def sendLoop : List WriteResult → List UInt8 → Except StreamFault (Bool × List UInt8)
  | _, [] => .ok (true, [])
  | [], _ :: _ => .error .blocked
  | .count stat :: results, bytes =>
      (sendLoop results (bytes.drop stat)).map fun r => (r.1, bytes.take stat ++ r.2)
  | .eintr :: results, bytes => sendLoop results bytes
  | .failed :: _, _ => .ok (false, [])

/-- The loop of `QemuPipeStream::writeFully`, for which 0 is the end of the file. -/
def writeLoop : List WriteResult → List UInt8 → Except StreamFault (Bool × List UInt8)
  | _, [] => .ok (true, [])
  | [], _ :: _ => .error .blocked
  | .count stat :: results, bytes =>
      if 0 < stat then
        (writeLoop results (bytes.drop stat)).map fun r => (r.1, bytes.take stat ++ r.2)
      else .ok (false, [])
  | .eintr :: results, bytes => writeLoop results bytes
  | .failed :: _, _ => .ok (false, [])

def writeFully (s : Stream w) (bytes : List UInt8) (results : List WriteResult) :
    Except StreamFault (Bool × List UInt8) :=
  if !s.valid then .ok (false, [])
  else
    match s.kind with
    | .SocketStream => sendLoop results bytes
    | .QemuPipeStream => writeLoop results bytes

/-- `commitBuffer`, which returns whether it succeeds. -/
def commitBuffer (s : Stream w) (size : BitVec w) (results : List WriteResult) :
    Except StreamFault (Stream w × Bool) :=
  match s.m_buf with
  | none => .error .outOfBounds
  | some (_, bytes) =>
      if bytes.length < size.toNat then .error .outOfBounds
      else
        (s.writeFully (bytes.take size.toNat) results).map fun r =>
          ({ s with sent := s.sent ++ r.2 }, r.1)

/-! ## IOStream -/

/-- `flush`, which returns whether its status is not negative. -/
def flush (s : Stream w) (results : List WriteResult) : Except StreamFault (Stream w × Bool) :=
  if s.base.m_buf = none ∨ s.base.m_free = s.base.m_bufsize then .ok (s, true)
  else
    (s.commitBuffer (s.base.m_bufsize - s.base.m_free) results).map fun r =>
      ({ r.1 with base := { r.1.base with m_buf := none, m_free := 0 } }, r.2)

/-- The first condition of `alloc`. -/
def makeRoom (s : Stream w) (len : BitVec w) (results : List WriteResult) :
    Except StreamFault (Stream w × Bool) :=
  if s.base.m_buf ≠ none ∧ s.base.m_free < len then s.flush results else .ok (s, true)

/-- The conversion of a `size_t` to an `int` and back. -/
def throughInt (n : BitVec w) : BitVec w := (n.setWidth 32).signExtend w

/-- The second condition of `alloc`; whether there is a buffer then. -/
def getBuffer (s : Stream w) (len : BitVec w) (block : Option Block) : Stream w × Bool :=
  if s.base.m_buf = none ∨ s.base.m_bufsize < len then
    let allocLen := throughInt (if s.base.m_bufsize < len then len else s.base.m_bufsize)
    let s := s.allocBuffer allocLen block
    match s.m_buf with
    | none => ({ s with base := { s.base with m_buf := none } }, false)
    | some (id, _) => ({ s with base := ⟨some id, allocLen, allocLen⟩ }, true)
  else (s, true)

/-- The end of `alloc`. -/
def takeRegion (s : Stream w) (len : BitVec w) : Stream w × Option (Region w) :=
  match s.base.m_buf with
  | none => (s, none)
  | some id =>
      ({ s with base := { s.base with m_free := s.base.m_free - len } },
        some ⟨id, s.base.m_bufsize - s.base.m_free, len⟩)

def alloc (s : Stream w) (len : BitVec w) (block : Option Block) (results : List WriteResult) :
    Except StreamFault (Stream w × Option (Region w)) := do
  match ← s.makeRoom len results with
  | (s, false) => return (s, none)
  | (s, true) =>
      match s.getBuffer len block with
      | (s, false) => return (s, none)
      | (s, true) => return s.takeRegion len

/-- The caller of `alloc` fills its region. -/
def fill (s : Stream w) (r : Region w) (data : Nat → UInt8) : Except StreamFault (Stream w) :=
  match s.m_buf with
  | none => .error .outOfBounds
  | some (id, bytes) =>
      if id = r.block then
        match Buffer.store? bytes r.off.toNat ((List.range r.len.toNat).map data) with
        | some bytes => .ok { s with m_buf := some (id, bytes) }
        | none => .error .outOfBounds
      else .error .outOfBounds

end Stream

end AndroidRenderer.OpenglCodecCommon
