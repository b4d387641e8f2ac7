import AndroidRenderer.Lib.LittleEndian

/-!
# The receive buffer of the render thread

`ReadBuffer` holds the bytes that were received and not yet decoded, at `m_readPtr`
in an allocation that is compacted before each read and doubled when it is full.
Bytes of the allocation that nothing was stored into come from `heap`; `realloc`
fails for more than `PTRDIFF_MAX` bytes.

The socket delivers the stream in chunks. One `recv` returns a part of one chunk.
-/

namespace AndroidRenderer.OpenglRender

open LittleEndian

/-- The chunks that are still to arrive. -/
abbrev Socket := List (List UInt8)

def INT_MAX : Nat := 2 ^ 31 - 1

/-- `SocketStream::recv`: at most `len` bytes, none when the peer has closed. Its
result is an `int`. -/
def Socket.recv (s : Socket) (len : Nat) : List UInt8 × Socket :=
  match s with
  | [] => ([], [])
  | c :: cs =>
      let n := min len INT_MAX
      (c.take n, if (c.drop n).isEmpty then cs else c.drop n :: cs)

/-- `m_buf` with its `m_size` bytes, `m_readPtr` as an index, and `m_validData`. -/
structure ReadBuffer where
  buf : List UInt8
  readPtr : Nat
  validData : Nat
  valid_le : readPtr + validData ≤ buf.length
  size_pos : 0 < buf.length
  size_lt : buf.length < 2 ^ 63

namespace ReadBuffer

/-- The received bytes that are not consumed. -/
def contents (b : ReadBuffer) : List UInt8 := (b.buf.drop b.readPtr).take b.validData

@[grind =] theorem contents_length (b : ReadBuffer) : b.contents.length = b.validData := by
  have := b.valid_le
  rw [contents, List.length_take, List.length_drop]
  omega

/-- `ReadBuffer(stream, bufsize)` -/
def new (heap : Mem) (bufsize : Nat) (hpos : 0 < bufsize) (hlt : bufsize < 2 ^ 63) :
    ReadBuffer where
  buf := load heap 0 bufsize
  readPtr := 0
  validData := 0
  valid_le := by simp
  size_pos := by simpa using hpos
  size_lt := by simpa using hlt

/-- `memmove(m_buf, m_readPtr, m_validData)` and `m_readPtr = m_buf`. -/
def compact (b : ReadBuffer) : ReadBuffer where
  buf := if 0 < b.validData ∧ 0 < b.readPtr then b.contents ++ b.buf.drop b.validData else b.buf
  readPtr := 0
  validData := b.validData
  valid_le := by
    have := b.valid_le
    split
    · rw [List.length_append, contents_length]
      omega
    · omega
  size_pos := by
    have := b.size_pos
    split
    · rw [List.length_append, contents_length]
      omega
    · exact this
  size_lt := by
    have := b.valid_le
    have := b.size_lt
    split
    · rw [List.length_append, contents_length, List.length_drop]
      omega
    · exact this

/-- The new size of a full buffer, with the overflow check of the source. -/
def grownSize (size : Nat) : Nat :=
  if size * 2 % 2 ^ 64 < size then INT_MAX else size * 2 % 2 ^ 64

theorem grownSize_eq {size : Nat} (h : size < 2 ^ 63) : grownSize size = size * 2 := by
  rw [grownSize, Nat.mod_eq_of_lt (by omega), if_neg (by omega)]

/-- `realloc(m_buf, new_size)` -/
def grow (heap : Mem) (b : ReadBuffer) : Option ReadBuffer :=
  if h : grownSize b.buf.length < 2 ^ 63 then
    some {
      buf := b.buf ++ load heap b.buf.length (grownSize b.buf.length - b.buf.length)
      readPtr := b.readPtr
      validData := b.validData
      valid_le := by
        have := b.valid_le
        rw [List.length_append]
        omega
      size_pos := by
        have := b.size_pos
        rw [List.length_append]
        omega
      size_lt := by
        have := b.size_lt
        rw [grownSize_eq this] at h ⊢
        rw [List.length_append, load_length]
        omega }
  else none

/-- `read(m_buf + m_validData, &len)` into the free end of the buffer. -/
def fill (b : ReadBuffer) (bytes : List UInt8)
    (h : b.readPtr + b.validData + bytes.length ≤ b.buf.length) : ReadBuffer where
  buf := b.buf.take (b.readPtr + b.validData) ++ bytes ++
    b.buf.drop (b.readPtr + b.validData + bytes.length)
  readPtr := b.readPtr
  validData := b.validData + bytes.length
  valid_le := by
    simp only [List.length_append, List.length_take, List.length_drop]
    omega
  size_pos := by
    have := b.size_pos
    simp only [List.length_append, List.length_take, List.length_drop]
    omega
  size_lt := by
    have := b.size_lt
    simp only [List.length_append, List.length_take, List.length_drop]
    omega

/-- `getData()`: the number of bytes received, or -1. -/
def getData (heap : Mem) (b : ReadBuffer) (s : Socket) : Int × ReadBuffer × Socket :=
  let b' := b.compact
  match if b'.buf.length - b'.validData = 0 then b'.grow heap else some b' with
  | none => (-1, b, s)
  | some b'' =>
      let r := s.recv (b''.buf.length - (b''.readPtr + b''.validData))
      if h : b''.readPtr + b''.validData + r.1.length ≤ b''.buf.length ∧ 0 < r.1.length then
        (r.1.length, b''.fill r.1 h.1, r.2)
      else (-1, b'', r.2)

/-- `consume(amount)`; the assertion fails when there is not that much. -/
def consume (b : ReadBuffer) (amount : Nat) : Option ReadBuffer :=
  if h : amount ≤ b.validData then
    some {
      buf := b.buf
      readPtr := b.readPtr + amount
      validData := b.validData - amount
      valid_le := by
        have := b.valid_le
        omega
      size_pos := b.size_pos
      size_lt := b.size_lt }
  else none

/-! ## What they do to the contents -/

theorem contents_compact (b : ReadBuffer) : b.compact.contents = b.contents := by
  have := b.valid_le
  unfold compact contents
  grind

theorem buf_length_compact (b : ReadBuffer) : b.compact.buf.length = b.buf.length := by
  have := b.valid_le
  grind [compact]

theorem contents_grow {heap : Mem} {b b' : ReadBuffer} (h : b.grow heap = some b') :
    b'.contents = b.contents ∧ b'.buf.length = 2 * b.buf.length ∧ b'.readPtr = b.readPtr ∧
      b'.validData = b.validData := by
  have hv := b.valid_le
  have hsize := b.size_lt
  unfold grow at h
  split at h
  · obtain rfl := Option.some.inj h
    grind [contents, grownSize_eq]
  · cases h

theorem grow_eq_none {heap : Mem} {b : ReadBuffer} (h : b.grow heap = none) :
    2 ^ 62 ≤ b.buf.length := by
  unfold grow at h
  grind [grownSize_eq]

theorem contents_fill (b : ReadBuffer) (bytes : List UInt8)
    (h : b.readPtr + b.validData + bytes.length ≤ b.buf.length) :
    (b.fill bytes h).contents = b.contents ++ bytes := by
  have hv := b.valid_le
  have hfront : b.buf.take (b.readPtr + b.validData) = b.buf.take b.readPtr ++ b.contents :=
    List.take_add
  have htake : (b.buf.take b.readPtr).length = b.readPtr := by grind
  rw [contents, fill]
  dsimp only
  rw [hfront, List.append_assoc, List.append_assoc, List.drop_left' htake, ← List.append_assoc,
    List.take_left' (by rw [List.length_append, contents_length])]

theorem contents_consume {b b' : ReadBuffer} {amount : Nat} (h : b.consume amount = some b') :
    b'.contents = b.contents.drop amount ∧ b'.validData + amount = b.validData := by
  unfold consume at h
  split at h
  · obtain rfl := Option.some.inj h
    grind [contents, List.drop_take, List.drop_drop]
  · cases h

end ReadBuffer

/-! ## The socket -/

def Socket.NonEmpty (s : Socket) : Prop := ∀ c ∈ s, c ≠ []

theorem Socket.recv_flatten (s : Socket) (len : Nat) :
    (s.recv len).1 ++ (s.recv len).2.flatten = s.flatten := by
  cases s with
  | nil => rfl
  | cons c cs =>
      rw [Socket.recv]
      dsimp only
      split
      · rename_i h
        have hdrop : c.length ≤ min len INT_MAX := by
          rwa [List.isEmpty_iff, List.drop_eq_nil_iff] at h
        rw [List.take_of_length_le hdrop, List.flatten_cons]
      · grind [List.take_append_drop]

theorem Socket.recv_length_le (s : Socket) (len : Nat) : (s.recv len).1.length ≤ len := by
  cases s with
  | nil => exact Nat.zero_le _
  | cons c cs =>
      rw [Socket.recv, List.length_take]
      omega

theorem Socket.NonEmpty.recv {s : Socket} (h : s.NonEmpty) (len : Nat) :
    (s.recv len).2.NonEmpty := by
  cases s with
  | nil => exact h
  | cons c cs =>
      rw [Socket.recv]
      dsimp only
      split
      · exact fun d hd => h d (by simp [hd])
      · rename_i hdrop
        rw [List.isEmpty_iff] at hdrop
        intro d hd
        rcases List.mem_cons.mp hd with rfl | hd
        · exact hdrop
        · exact h d (by simp [hd])

/-- As long as chunks arrive, something is received. -/
theorem Socket.NonEmpty.recv_pos {s : Socket} (h : s.NonEmpty) (hs : s ≠ []) {len : Nat}
    (hlen : 0 < len) : 0 < (s.recv len).1.length := by
  cases s with
  | nil => exact absurd rfl hs
  | cons c cs =>
      have hc := List.length_pos_iff.mpr (h c (by simp))
      rw [Socket.recv, List.length_take, INT_MAX]
      omega

/-! ## Receiving -/

/-- `getData` appends what it received to the contents, or nothing arrives any more,
or the buffer is full and cannot grow. -/
theorem ReadBuffer.getData_spec (heap : Mem) (b : ReadBuffer) {s : Socket} (hs : s.NonEmpty) :
    (∃ got b' s', b.getData heap s = ((got.length : Int), b', s') ∧ got ≠ [] ∧
      b'.contents = b.contents ++ got ∧ got ++ s'.flatten = s.flatten ∧ s'.NonEmpty) ∨
    (∃ b' s', b.getData heap s = (-1, b', s') ∧ b'.contents = b.contents ∧ s'.NonEmpty ∧
      s'.flatten = s.flatten ∧ (s = [] ∨ (b.validData = b.buf.length ∧ 2 ^ 62 ≤ b.validData))) := by
  have hcompact := contents_compact b
  have hsize := buf_length_compact b
  have hvalid : b.compact.validData = b.validData := rfl
  have hptr : b.compact.readPtr = 0 := rfl
  unfold getData
  dsimp only
  split
  · -- `realloc` failed
    rename_i heq
    refine Or.inr ⟨b, s, rfl, rfl, hs, rfl, Or.inr ?_⟩
    split at heq
    · rename_i hfull
      have hle := b.compact.valid_le
      have hlarge := grow_eq_none heq
      omega
    · cases heq
  · rename_i b'' heq
    have hb : b''.contents = b.contents ∧ b''.readPtr = 0 ∧
        b''.validData = b.validData ∧ b.validData < b''.buf.length := by
      split at heq
      · obtain ⟨hc, hl, hp, hv⟩ := contents_grow heq
        have hpos := b.compact.size_pos
        have hle := b.compact.valid_le
        exact ⟨hc.trans hcompact, hp.trans hptr, hv.trans hvalid, by omega⟩
      · grind
    obtain ⟨hcontents, hp, hv, hlt⟩ := hb
    obtain ⟨len, hlen⟩ : ∃ len, len = b''.buf.length - (b''.readPtr + b''.validData) := ⟨_, rfl⟩
    have hrecv := Socket.recv_length_le s len
    have hflatten := Socket.recv_flatten s len
    have hnonEmpty := hs.recv len
    grind [contents_fill, hs.recv_pos]

end AndroidRenderer.OpenglRender
