import AndroidRenderer.Qtools.DecoderRuns

/-!
# Reader of basic block traces

A record of a trace says that a basic block was executed, and how often and at which interval it
was executed again. `BBReader` returns all executions in time order: records are decoded when they
are due, and the executions to come are kept in a list of futures, whose nodes are taken from a
free list. `kMaxNumBasicBlocks`, the width of the member `repeat` of a record and what the trace
reader says of a block are parameters.
-/

namespace AndroidRenderer.Qtools

/-- A record; its member `repeat` holds `w` bits. -/
structure BBRec (w : Nat) where
  start_time : BitVec 64
  bb_num : BitVec 64
  repeats : BitVec w
  time_diff : BitVec 64

structure TimeRec (w : Nat) where
  bb_rec : BBRec w
  next_time : BitVec 64

/-- A node of the list of futures, or of the free list. -/
structure Future (kMaxNumBasicBlocks w : Nat) where
  next : Option (Fin kMaxNumBasicBlocks)
  bb : TimeRec w

structure BBEvent where
  time : BitVec 64
  bb_num : BitVec 64
  bb_addr : BitVec 32
  insns : Nat
  num_insns : Int
  pid : Int
  is_thumb : Int

/-- What the trace reader, in a state of type `τ`, says of a basic block. -/
structure TraceReader (τ : Type) where
  GetBBAddr : τ → BitVec 64 → BitVec 32
  GetInsns : τ → BitVec 64 → Nat
  FindNumInsns : τ → BitVec 64 → BitVec 64 → Int × τ
  FindCurrentPid : τ → BitVec 64 → Int × τ
  GetIsThumb : τ → BitVec 64 → Int

inductive BBFault
  | decoder (fault : DecoderFault)
  | nullPointer
  | assertFailed
  | endlessList
  deriving DecidableEq, Repr

structure BBReader (kMaxNumBasicBlocks w : Nat) (τ : Type) where
  nextrec_ : TimeRec w
  futures_ : Fin kMaxNumBasicBlocks → Future kMaxNumBasicBlocks w
  head_ : Option (Fin kMaxNumBasicBlocks)
  free_ : Option (Fin kMaxNumBasicBlocks)
  decoder_ : Decoder
  is_eof_ : Bool
  trace_ : τ

namespace BBReader

variable {N w : Nat} {τ : Type}

/-- The member `next` of a node is set. -/
def setNext (r : BBReader N w τ) (future : Fin N) (next : Option (Fin N)) : BBReader N w τ :=
  { r with futures_ := Function.update r.futures_ future { r.futures_ future with next } }

def setTimeRec (r : BBReader N w τ) (future : Fin N) (bb : TimeRec w) : BBReader N w τ :=
  { r with futures_ := Function.update r.futures_ future { r.futures_ future with bb } }

def AllocFuture (r : BBReader N w τ) : Except BBFault (BBReader N w τ × Fin N) :=
  match r.free_ with
  | none => .error .nullPointer
  | some future => .ok ({ r with free_ := (r.futures_ future).next }, future)

def FreeFuture (r : BBReader N w τ) (future : Fin N) : BBReader N w τ :=
  { r.setNext future r.free_ with free_ := some future }

/-- The loop of `InsertFuture`, which ends with `prev`; a list of nodes ends after `N` turns, or is
endless. -/
def findPrev (futures_ : Fin N → Future N w) (future_time : BitVec 64) :
    Nat → Option (Fin N) → Option (Fin N) → Except BBFault (Option (Fin N))
  | _, prev, none => .ok prev
  | 0, _, some _ => .error .endlessList
  | turns + 1, prev, some ptr =>
      if future_time ≤ (futures_ ptr).bb.next_time then .ok prev
      else findPrev futures_ future_time turns (some ptr) (futures_ ptr).next

def InsertFuture (r : BBReader N w τ) (future : Fin N) : Except BBFault (BBReader N w τ) := do
  let future_time := (r.futures_ future).bb.next_time
  let prev ← findPrev r.futures_ future_time N none r.head_
  match prev with
  | none => return { r.setNext future r.head_ with head_ := some future }
  | some prev => return (r.setNext future (r.futures_ prev).next).setNext prev (some future)

/-- `Decode` of the reader's decoder. -/
def decode (order : ByteOrder) (machine : Machine) (r : BBReader N w τ) (is_signed : Bool) :
    Except BBFault (BBReader N w τ × BitVec 64) :=
  match r.decoder_.Decode order machine is_signed with
  | .ok (decoder_, val64) => .ok ({ r with decoder_ }, val64)
  | .error fault => .error (.decoder fault)

def setRec (r : BBReader N w τ) (bb_rec : BBRec w) : BBReader N w τ :=
  { r with nextrec_ := { r.nextrec_ with bb_rec } }

def DecodeNextRec (order : ByteOrder) (machine : Machine) (r : BBReader N w τ) :
    Except BBFault (BBReader N w τ × Bool) := do
  let (r, bb_diff) ← r.decode order machine true
  let (r, time_diff) ← r.decode order machine false
  let (r, repeats) ← r.decode order machine false
  let r := r.setRec { r.nextrec_.bb_rec with repeats := repeats.setWidth w }
  if time_diff = 0 then return (r, true)
  else if r.nextrec_.bb_rec.repeats ≠ 0 then do
    let (r, interval) ← r.decode order machine false
    let bb_rec := { r.nextrec_.bb_rec with time_diff := interval }
    return (r.setRec { bb_rec with
      bb_num := bb_rec.bb_num + bb_diff, start_time := bb_rec.start_time + time_diff }, false)
  else
    let bb_rec := r.nextrec_.bb_rec
    return (r.setRec { bb_rec with
      bb_num := bb_rec.bb_num + bb_diff, start_time := bb_rec.start_time + time_diff }, false)

/-- What the assignments to `is_eof_` do. -/
def decodeEof (order : ByteOrder) (machine : Machine) (r : BBReader N w τ) :
    Except BBFault (BBReader N w τ) := do
  let (r, is_eof_) ← r.DecodeNextRec order machine
  return { r with is_eof_ }

def zeroRec : TimeRec w := ⟨⟨0, 0, 0, 0⟩, 0⟩

/-- The reader of a file; `m` is what the buffer of its decoder holds before. -/
def Open (order : ByteOrder) (machine : Machine) (m : LittleEndian.Mem) (file : List UInt8)
    (trace_ : τ) : Except BBFault (BBReader N w τ) :=
  decodeEof order machine
    { nextrec_ := zeroRec
      futures_ := fun ii => ⟨if h : ii.val + 1 < N then some ⟨ii.val + 1, h⟩ else none, zeroRec⟩
      head_ := none
      free_ := if h : 0 < N then some ⟨0, h⟩ else none
      decoder_ := .Open m file
      is_eof_ := false
      trace_ }

def fillEvent (trace : TraceReader τ) (r : BBReader N w τ) (time bb_num : BitVec 64) :
    BBReader N w τ × BBEvent :=
  let bb_addr := trace.GetBBAddr r.trace_ bb_num
  let insns := trace.GetInsns r.trace_ bb_num
  let (num_insns, trace_) := trace.FindNumInsns r.trace_ bb_num time
  let (pid, trace_) := trace.FindCurrentPid trace_ time
  let is_thumb := trace.GetIsThumb trace_ bb_num
  ({ r with trace_ }, { time, bb_num, bb_addr, insns, num_insns, pid, is_thumb })

/-- The event of the head of the list, as both before and after the end of the file. -/
def readHead (trace : TraceReader τ) (r : BBReader N w τ) (future : Fin N) :
    Except BBFault (BBReader N w τ × BBEvent) := do
  let bb := (r.futures_ future).bb
  let (r, event) := r.fillEvent trace bb.next_time bb.bb_rec.bb_num
  let r := { r with head_ := (r.futures_ future).next }
  if 0 < bb.bb_rec.repeats then do
    let r := r.setTimeRec future
      { bb_rec := { bb.bb_rec with repeats := bb.bb_rec.repeats - 1 }
        next_time := bb.next_time + bb.bb_rec.time_diff }
    let r ← r.InsertFuture future
    return (r, event)
  else return (r.FreeFuture future, event)

/-- The event of the next record. -/
def readRec (order : ByteOrder) (machine : Machine) (trace : TraceReader τ)
    (r : BBReader N w τ) : Except BBFault (BBReader N w τ × BBEvent) := do
  let bb_rec := r.nextrec_.bb_rec
  let (r, event) := r.fillEvent trace bb_rec.start_time bb_rec.bb_num
  if 0 < bb_rec.repeats then do
    let (r, future) ← r.AllocFuture
    let r := r.setTimeRec future
      { bb_rec := { bb_rec with repeats := bb_rec.repeats - 1 }
        next_time := bb_rec.start_time + bb_rec.time_diff }
    let r ← r.InsertFuture future
    let r ← r.decodeEof order machine
    return (r, event)
  else do
    let r ← r.decodeEof order machine
    return (r, event)

/-- The next event, or none at the end of the file. -/
def ReadBB (order : ByteOrder) (machine : Machine) (trace : TraceReader τ)
    (r : BBReader N w τ) : Except BBFault (BBReader N w τ × Option BBEvent) :=
  if r.is_eof_ then
    match r.head_ with
    | none => .ok (r, none)
    | some future => (r.readHead trace future).map fun out => (out.1, some out.2)
  else
    match r.head_ with
    | none => (r.readRec order machine trace).map fun out => (out.1, some out.2)
    | some future =>
        if (r.futures_ future).bb.next_time < r.nextrec_.bb_rec.start_time then
          (r.readHead trace future).map fun out => (out.1, some out.2)
        else (r.readRec order machine trace).map fun out => (out.1, some out.2)

end BBReader

end AndroidRenderer.Qtools
