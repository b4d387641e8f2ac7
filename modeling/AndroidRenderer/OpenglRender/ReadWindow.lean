import AndroidRenderer.Lib.Buffer
import AndroidRenderer.Lib.Run
import AndroidRenderer.OpenglRender.ReadBuffer

/-!
# The window of the receive buffer

The members of `ReadBuffer` as the code changes them, with no promise about them: `m_readPtr`
may lie anywhere, and `m_size` need not be the size of the allocation. On every run of `getData`
and `consume` they describe a window of the bytes that the stream has delivered. The window
begins where the caller has got to, and ends with the last byte.

What the allocator and the stream answer is a parameter of each call.
-/

namespace AndroidRenderer.OpenglRender

open LittleEndian

/-- What `IOStream::read` does when it is asked for a number of bytes: it delivers no more than
that, or fails. -/
structure Delivery where
  read : Nat → Option (List UInt8)
  length_le : ∀ len bytes, read len = some bytes → bytes.length ≤ len

inductive WindowFault
  | outOfBounds
  | assertion
  deriving DecidableEq, Repr

/-- The members of `ReadBuffer`; `m_readPtr` is an index into `m_buf`. -/
structure Window where
  m_buf : List UInt8
  m_readPtr : Nat
  m_size : Nat
  m_validData : Nat

namespace Window

/-- `buf()[0..validData())` -/
def contents (b : Window) : List UInt8 := (b.m_buf.drop b.m_readPtr).take b.m_validData

/-- `ReadBuffer::ReadBuffer`, when `malloc` finds the memory. -/
def new (heap : Mem) (bufsize : Nat) : Window := ⟨load heap 0 bufsize, 0, bufsize, 0⟩

/-- `memmove(m_buf, m_readPtr, m_validData)` at the beginning of `getData`. -/
def moveData (b : Window) : Except WindowFault Window :=
  if 0 < b.m_validData ∧ 0 < b.m_readPtr then
    if b.m_buf.length < b.m_readPtr + b.m_validData then .error .outOfBounds
    else
      match Buffer.store? b.m_buf 0 b.contents with
      | none => .error .outOfBounds
      | some m_buf => .ok { b with m_buf }
  else .ok b

/-- `len`, a `size_t`. -/
def free (b : Window) : Nat := (b.m_size + 2 ^ 64 - b.m_validData) % 2 ^ 64

/-- The growth of a full buffer. An allocator that has no memory left does not grant it, and none
grants 2^63 bytes. -/
def growIfFull (heap : Mem) (granted : Bool) (b : Window) : Option Window :=
  if b.free = 0 then
    let new_size := ReadBuffer.grownSize b.m_size
    if granted ∧ new_size < 2 ^ 63 then
      some { b with
        m_buf := b.m_buf.take new_size ++ load heap b.m_buf.length (new_size - b.m_buf.length)
        m_size := new_size }
    else none
  else some b

/-- The rest of `getData`: its result, an `int`, and what the stream has delivered. -/
def readStream (d : Delivery) (b : Window) : Except WindowFault (Int × Window × List UInt8) :=
  let b := { b with m_readPtr := 0 }
  match d.read b.free with
  | none => .ok (-1, b, [])
  | some bytes =>
      match Buffer.store? b.m_buf b.m_validData bytes with
      | none => .error .outOfBounds
      | some m_buf =>
          .ok (Int.bmod bytes.length (2 ^ 32),
            { b with m_buf, m_validData := b.m_validData + bytes.length }, bytes)

def getData (heap : Mem) (granted : Bool) (d : Delivery) (b : Window) :
    Except WindowFault (Int × Window × List UInt8) := do
  let b ← b.moveData
  match b.growIfFull heap granted with
  | none => .ok (-1, b, [])
  | some b => b.readStream d

def consume (amount : Nat) (b : Window) : Except WindowFault Window :=
  if amount ≤ b.m_validData then
    .ok { b with m_validData := b.m_validData - amount, m_readPtr := b.m_readPtr + amount }
  else .error .assertion

end Window

/-- The buffer, with the bytes that the stream has delivered and those that are consumed. -/
structure Reading where
  buffer : Window
  delivered : List UInt8
  consumed : List UInt8

inductive ReadCall
  | getData (heap : Mem) (granted : Bool) (d : Delivery)
  | consume (amount : Nat)

namespace Reading

def new (heap : Mem) (bufsize : Nat) : Reading := ⟨.new heap bufsize, [], []⟩

def step (s : Reading) : ReadCall → Except WindowFault Reading
  | .getData heap granted d =>
      (s.buffer.getData heap granted d).map fun (_, buffer, bytes) =>
        { s with buffer, delivered := s.delivered ++ bytes }
  | .consume amount =>
      (s.buffer.consume amount).map fun buffer =>
        { s with buffer, consumed := s.consumed ++ s.buffer.contents.take amount }

/-- A caller consumes no more than is valid. -/
def Allowed (s : Reading) : ReadCall → Prop
  | .getData .. => True
  | .consume amount => amount ≤ s.buffer.m_validData

instance (s : Reading) : (c : ReadCall) → Decidable (s.Allowed c)
  | .getData .. => isTrue trivial
  | .consume amount => inferInstanceAs (Decidable (amount ≤ s.buffer.m_validData))

end Reading

/-! ## What the calls do to the window -/

namespace Window

/-- The window lies in the allocation, whose size the buffer knows. -/
structure Inside (b : Window) : Prop where
  size : b.m_size = b.m_buf.length
  size_lt : b.m_size < 2 ^ 63
  valid_le : b.m_readPtr + b.m_validData ≤ b.m_size

variable {b : Window}

theorem contents_length (h : b.Inside) : b.contents.length = b.m_validData := by
  have hsize := h.size
  have hvalid := h.valid_le
  rw [contents, List.length_take, List.length_drop]
  omega

theorem free_eq (h : b.Inside) : b.free = b.m_size - b.m_validData := by
  have hlt := h.size_lt
  have hvalid := h.valid_le
  unfold free
  omega

/-- After the move the window begins at the start of the buffer, where `m_readPtr` will point. A
full buffer has not moved. -/
theorem moveData_spec (h : b.Inside) :
    ∃ b', b.moveData = .ok b' ∧ b'.Inside ∧ b'.m_readPtr = b.m_readPtr ∧
      b'.m_validData = b.m_validData ∧ b'.m_buf.take b'.m_validData = b.contents ∧
      (b'.free = 0 → b' = b) := by
  have hsize := h.size
  have hvalid := h.valid_le
  have hlength := contents_length h
  unfold moveData
  split
  · rename_i hmoved
    rw [if_neg (by omega)]
    split
    · grind [Buffer.store?_eq_none_iff]
    · rename_i m_buf hstore
      have hlen := Buffer.store?_length hstore
      have hinside : Inside { b with m_buf } := ⟨hsize.trans hlen.symm, h.size_lt, hvalid⟩
      grind [Buffer.store?, free_eq]
  · grind [contents]

/-- Growth keeps the bytes in front, and leaves room behind them. -/
theorem growIfFull_spec {heap : Mem} {granted : Bool} {b' : Window} (h : b.Inside)
    (hgrow : b.growIfFull heap granted = some b') :
    b'.Inside ∧ b'.m_readPtr = b.m_readPtr ∧ b'.m_validData = b.m_validData ∧
      b'.m_buf.take b.m_validData = b.m_buf.take b.m_validData := by
  have hsize := h.size
  have hvalid := h.valid_le
  unfold growIfFull at hgrow
  split at hgrow
  · dsimp only at hgrow
    split at hgrow
    · rename_i hgranted
      obtain rfl := Option.some.inj hgrow
      have hnew := hgranted.2
      have htwice := ReadBuffer.grownSize_eq h.size_lt
      have htake : b.m_buf.take (ReadBuffer.grownSize b.m_size) = b.m_buf :=
        List.take_of_length_le (by omega)
      refine ⟨⟨?_, hnew, ?_⟩, rfl, rfl, ?_⟩
      · grind
      · dsimp only
        omega
      · grind
    · cases hgrow
  · grind

/-- What the stream delivers is stored behind the valid data. -/
theorem readStream_spec (h : b.Inside) (d : Delivery) :
    ∃ result b' bytes, b.readStream d = .ok (result, b', bytes) ∧ b'.Inside ∧
      b'.contents = b.m_buf.take b.m_validData ++ bytes := by
  have hsize := h.size
  have hvalid := h.valid_le
  have hreset : Inside { b with m_readPtr := 0 } :=
    ⟨hsize, h.size_lt, show 0 + b.m_validData ≤ b.m_size by omega⟩
  have hfree : (Window.free { b with m_readPtr := 0 }) = b.m_size - b.m_validData :=
    free_eq hreset
  unfold readStream
  dsimp only
  split
  · exact ⟨-1, _, [], rfl, hreset, (List.append_nil _).symm⟩
  · rename_i bytes hread
    have hle := d.length_le _ _ hread
    rw [hfree] at hle
    split
    · rename_i hnone
      rw [Buffer.store?_eq_none_iff] at hnone
      omega
    · rename_i m_buf hstore
      have hlen := Buffer.store?_length hstore
      refine ⟨_, _, bytes, rfl, ⟨hsize.trans hlen.symm, h.size_lt, ?_⟩, ?_⟩
      · dsimp only
        omega
      · rw [Buffer.store?, if_pos (by omega)] at hstore
        obtain rfl := Option.some.inj hstore
        unfold contents
        dsimp only
        rw [List.drop_zero]
        apply List.take_left'
        rw [List.length_append, List.length_take]
        omega

/-- `getData` adds what is delivered to the end of the window, also when the buffer cannot grow. -/
theorem getData_spec (h : b.Inside) (heap : Mem) (granted : Bool) (d : Delivery) :
    ∃ result b' bytes, b.getData heap granted d = .ok (result, b', bytes) ∧ b'.Inside ∧
      b'.contents = b.contents ++ bytes := by
  obtain ⟨b₁, hmove, hinside₁, hreadPtr₁, hvalid₁, hfront₁, hfull⟩ := moveData_spec h
  cases hgrow : b₁.growIfFull heap granted with
  | none =>
      have hfree : b₁.free = 0 := by
        by_contra hne
        rw [growIfFull, if_neg hne] at hgrow
        cases hgrow
      obtain rfl := hfull hfree
      refine ⟨-1, b₁, [], Run.bind_eq_ok.mpr ⟨b₁, hmove, ?_⟩, hinside₁, ?_⟩
      · rw [hgrow]
      · rw [List.append_nil]
  | some b₂ =>
      obtain ⟨hinside₂, -, hvalid₂, hfront₂⟩ := growIfFull_spec hinside₁ hgrow
      obtain ⟨result, b', bytes, hread, hinside', hcontents⟩ := readStream_spec hinside₂ d
      refine ⟨result, b', bytes, Run.bind_eq_ok.mpr ⟨b₁, hmove, ?_⟩, hinside', ?_⟩
      · rw [hgrow]
        exact hread
      · rw [hcontents, hvalid₂, hfront₂, hfront₁]

/-- `consume` moves the start of the window. -/
theorem consume_spec (h : b.Inside) {amount : Nat} (hle : amount ≤ b.m_validData) :
    ∃ b', b.consume amount = .ok b' ∧ b'.Inside ∧ b'.contents = b.contents.drop amount := by
  have hvalid := h.valid_le
  refine ⟨_, if_pos hle, ⟨h.size, h.size_lt, ?_⟩, ?_⟩
  · dsimp only
    omega
  · unfold contents
    dsimp only
    rw [List.drop_take, List.drop_drop]

end Window

namespace Reading

/-- The consumed bytes and the window make up what the stream has delivered. -/
structure Fifo (s : Reading) : Prop where
  inside : s.buffer.Inside
  delivered : s.consumed ++ s.buffer.contents = s.delivered

theorem fifo_new (heap : Mem) {bufsize : Nat} (hlt : bufsize < 2 ^ 63) :
    (new heap bufsize).Fifo :=
  ⟨⟨(load_length heap 0 bufsize).symm, hlt, Nat.zero_le _⟩, rfl⟩

/-- Every allowed call goes through and keeps the window. -/
theorem Fifo.step {s : Reading} (h : s.Fifo) {c : ReadCall} (hallowed : s.Allowed c) :
    ∃ t, s.step c = .ok t ∧ t.Fifo := by
  cases c with
  | getData heap granted d =>
      obtain ⟨result, b', bytes, hget, hinside, hcontents⟩ :=
        Window.getData_spec h.inside heap granted d
      refine ⟨_, Run.map_eq_ok.mpr ⟨_, hget, rfl⟩, hinside, ?_⟩
      grind [h.delivered]
  | consume amount =>
      obtain ⟨b', hconsume, hinside, hcontents⟩ := Window.consume_spec h.inside hallowed
      refine ⟨_, Run.map_eq_ok.mpr ⟨_, hconsume, rfl⟩, hinside, ?_⟩
      dsimp only
      rw [hcontents, List.append_assoc, List.take_append_drop, h.delivered]

/-- On every run the consumed bytes and those of the window are what the stream has delivered,
the window lies in the buffer, and the next call goes through. -/
theorem window_delivered (heap : Mem) (bufsize : Nat) (hlt : bufsize < 2 ^ 63) (s : Reading)
    (h : Run.Reach step Allowed (new heap bufsize) s) :
    s.consumed ++ s.buffer.contents = s.delivered ∧
      s.buffer.contents.length = s.buffer.m_validData ∧
      s.buffer.m_readPtr + s.buffer.m_validData ≤ s.buffer.m_size ∧
      s.buffer.m_size = s.buffer.m_buf.length ∧
      ∀ c, s.Allowed c → ∃ t, s.step c = .ok t := by
  have hfifo : s.Fifo := by
    refine h.invariant (fifo_new heap hlt) ?_
    intro t c u hfifo hallowed hstep
    obtain ⟨u', hstep', hfifo'⟩ := hfifo.step hallowed
    obtain rfl := Except.ok.inj (hstep'.symm.trans hstep)
    exact hfifo'
  refine ⟨hfifo.delivered, Window.contents_length hfifo.inside, hfifo.inside.valid_le,
    hfifo.inside.size, ?_⟩
  intro c hallowed
  obtain ⟨t, hstep, -⟩ := hfifo.step hallowed
  exact ⟨t, hstep⟩

/-- A stream that delivers `bytes`, as far as it is asked for them. -/
private def delivers (bytes : List UInt8) : Delivery :=
  ⟨fun len => some (bytes.take len), fun len taken h => by
    obtain rfl := Option.some.inj h
    exact List.length_take_le len bytes⟩

/-- A buffer of two bytes is filled, is not granted more, and grows later. -/
theorem window_delivered_grown :
    ∃ s : Reading, (s.delivered = [1, 2, 3, 4, 5] ∧ s.buffer.contents = [3, 4, 5] ∧
      s.buffer.m_size = 4) ∧ s.consumed ++ s.buffer.contents = s.delivered := by
  have hrun : Run.check step (fun s c => decide (s.Allowed c))
      (fun s => s.delivered = [1, 2, 3, 4, 5] ∧ s.buffer.contents = [3, 4, 5] ∧
        s.buffer.m_size = 4)
      (new (fun _ => 0) 2)
      [.getData (fun _ => 0) true (delivers [1, 2, 9]), .getData (fun _ => 0) false (delivers [9]),
        .consume 1, .getData (fun _ => 0) true (delivers [3]),
        .getData (fun _ => 0) true (delivers [4, 5]), .consume 1] = true := by
    decide +kernel
  obtain ⟨s, hreach, htest⟩ := Run.exists_reach_of_check (fun _ _ h => of_decide_eq_true h) hrun
  exact ⟨s, of_decide_eq_true htest, (window_delivered (fun _ => 0) 2 (by decide) s hreach).1⟩

end Reading

end AndroidRenderer.OpenglRender
