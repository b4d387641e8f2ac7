import AndroidRenderer.Lib.LittleEndian

/-!
# Reading a number of bytes

`readFully` asks the kernel for bytes until it has as many as the caller wants. The kernel may
deliver fewer than it is asked for, and the call may be interrupted. `SocketStream` asks for
those that are missing; `QemuPipeStream` asks for as many as at the beginning.

`size_t` has `w` bits. Addresses are offsets from `buf`.
-/

namespace AndroidRenderer.OpenglCodecCommon

open LittleEndian

/-- What a call of the kernel returns for the bytes of a descriptor: some bytes, the end of the
file, that it was interrupted, or that it failed otherwise. -/
inductive ReadResult
  | bytes (data : List UInt8)
  | eof
  | eintr
  | failed
  deriving DecidableEq, Repr

/-- One call of `read` or `recv`, for whatever number of bytes it is made. -/
structure KernelRead where
  answer : Nat → ReadResult
  bounded : ∀ size data, answer size = .bytes data → 0 < data.length ∧ data.length ≤ size

/-- A request of `size` bytes for the address `off`, and the bytes that the kernel stores there. -/
structure ReadRequest where
  off : Nat
  size : Nat
  data : List UInt8
  deriving DecidableEq, Repr

/-- How a call of `readFully` stands: it has returned `buf` or `NULL`, or waits for the kernel. -/
inductive ReadStatus
  | full
  | null
  | waiting
  deriving DecidableEq, Repr

/-- The state of a call, and the requests that it has made. -/
structure Transfer where
  status : ReadStatus
  requests : List ReadRequest
  deriving DecidableEq, Repr

namespace Transfer

/-- One more request in front. -/
def after (r : ReadRequest) (t : Transfer) : Transfer := { t with requests := r :: t.requests }

/-- What the kernel has taken from the stream. -/
def consumed (t : Transfer) : List UInt8 := t.requests.flatMap ReadRequest.data

def memory (t : Transfer) (m : Mem) : Mem := t.requests.foldl (fun m r => store m r.off r.data) m

end Transfer

section Loops

variable (w : Nat)

/-- The difference of two `size_t`s. -/
def sizeDiff (a b : Nat) : Nat := (a + 2 ^ w - b) % 2 ^ w

/-- The loop of `readFully`, which asks for `size res` bytes while `res` are missing. -/
def readLoop (size : Nat → Nat) (len : Nat) : List KernelRead → Nat → Transfer
  | [], res =>
      if res = 0 then ⟨.full, []⟩ else ⟨.waiting, [⟨sizeDiff w len res, size res, []⟩]⟩
  | read :: reads, res =>
      if res = 0 then ⟨.full, []⟩
      else
        match read.answer (size res) with
        | .bytes data =>
            (readLoop size len reads (sizeDiff w res data.length)).after
              ⟨sizeDiff w len res, size res, data⟩
        | .eintr => (readLoop size len reads res).after ⟨sizeDiff w len res, size res, []⟩
        | .eof => ⟨.null, [⟨sizeDiff w len res, size res, []⟩]⟩
        | .failed => ⟨.null, [⟨sizeDiff w len res, size res, []⟩]⟩

/-- `SocketStream::readFully`; `buf` tells whether it is given a buffer. -/
def SocketStream.readFully (valid buf : Bool) (len : Nat) (reads : List KernelRead) : Transfer :=
  if valid && buf then readLoop w (fun res => res) len reads len else ⟨.null, []⟩

def QemuPipeStream.readFully (valid buf : Bool) (len : Nat) (reads : List KernelRead) : Transfer :=
  if valid && buf then readLoop w (fun _ => len) len reads len else ⟨.null, []⟩

end Loops

/-- A call that succeeds has taken `len` bytes from the stream. Those that a call has taken lie at
the beginning of the buffer, it stores nothing outside the buffer, and it never asks for more than
is missing. -/
structure Transfer.Exact (t : Transfer) (len : Nat) : Prop where
  full : t.status = .full → t.consumed.length = len
  stored : ∀ m, Holds (t.memory m) 0 t.consumed
  inside : ∀ m a, len ≤ a → t.memory m a = m a
  asked : ∀ front r back, t.requests = front ++ r :: back →
    (front.flatMap ReadRequest.data).length + r.size ≤ len

/-- The first answer that is not an interruption holds all `len` bytes, if it holds any. -/
def Unsplit (len : Nat) : List KernelRead → Prop
  | [] => True
  | read :: reads =>
      match read.answer len with
      | .bytes data => data.length = len
      | .eintr => Unsplit len reads
      | .eof => True
      | .failed => True

/-! ## What the loop does -/

section Loops

variable {w len res : Nat} {size : Nat → Nat}

theorem sizeDiff_eq {a b : Nat} (h : b ≤ a) (ha : a < 2 ^ w) : sizeDiff w a b = a - b := by
  have hsum : a + 2 ^ w - b = a - b + 2 ^ w := by omega
  rw [sizeDiff, hsum, Nat.add_mod_right, Nat.mod_eq_of_lt (by omega)]

theorem readLoop_requests (w len : Nat) (size : Nat → Nat) (hres : res ≠ 0)
    (reads : List KernelRead) :
    ∃ data back, (readLoop w size len reads res).requests =
      ⟨sizeDiff w len res, size res, data⟩ :: back := by
  cases reads with
  | nil => simp [readLoop, hres]
  | cons read reads =>
      rw [readLoop, if_neg hres]
      cases read.answer (size res) with
      | bytes data => exact ⟨data, _, rfl⟩
      | eintr => exact ⟨[], _, rfl⟩
      | eof => exact ⟨[], [], rfl⟩
      | failed => exact ⟨[], [], rfl⟩

/-- What remains to be done while `res` of `len` bytes are missing. -/
structure Transfer.Completes (t : Transfer) (len res : Nat) : Prop where
  full : t.status = .full → t.consumed.length = res
  le : t.consumed.length ≤ res
  stored : ∀ m, Holds (t.memory m) (len - res) t.consumed
  inside : ∀ m a, a < len - res ∨ len ≤ a → t.memory m a = m a
  asked : ∀ front r back, t.requests = front ++ r :: back →
    (front.flatMap ReadRequest.data).length + r.size ≤ res

namespace Transfer

/-- A last request that is not answered with bytes. -/
theorem completes_single {off size : Nat} {status : ReadStatus} (hstatus : status ≠ .full)
    (hsize : size ≤ res) : Completes ⟨status, [⟨off, size, []⟩]⟩ len res := by
  refine ⟨fun h => absurd h hstatus, Nat.zero_le res, fun m => rfl, ?_, ?_⟩
  · intro m a _
    exact dif_neg fun h => absurd h.2 (Nat.not_lt_zero _)
  · intro front r back h
    cases front with
    | nil => grind
    | cons _ front =>
        have hnil := (List.cons.inj h).2
        cases front <;> cases hnil

/-- A request that is answered with bytes that are missing. -/
theorem Completes.after {t : Transfer} {size : Nat} (data : List UInt8)
    (h : t.Completes len (res - data.length)) (hdata : data.length ≤ size) (hsize : size ≤ res)
    (hres : res ≤ len) : (t.after ⟨len - res, size, data⟩).Completes len res := by
  have hnext : len - (res - data.length) = len - res + data.length := by omega
  have hconsumed : (t.after ⟨len - res, size, data⟩).consumed = data ++ t.consumed := rfl
  have hmemory : ∀ m, (t.after ⟨len - res, size, data⟩).memory m =
      t.memory (store m (len - res) data) := fun m => rfl
  refine ⟨?_, ?_, ?_, ?_, ?_⟩
  · intro hfull
    have hrest := h.full hfull
    grind
  · have hrest := h.le
    grind
  · intro m
    rw [hconsumed, hmemory, holds_append]
    refine ⟨?_, hnext ▸ h.stored _⟩
    have hkept : load (t.memory (store m (len - res) data)) (len - res) data.length =
        load (store m (len - res) data) (len - res) data.length := by
      apply List.map_congr_left
      grind [h.inside]
    grind [Holds, holds_store]
  · intro m a ha
    rw [hmemory, h.inside _ a (by omega)]
    exact dif_neg (by omega)
  · intro front r back heq
    cases front with
    | nil =>
        obtain rfl := (List.cons.inj heq).1
        exact (Nat.zero_add size).symm ▸ hsize
    | cons r' front =>
        obtain ⟨rfl, hrest⟩ := List.cons.inj heq
        have hle := h.asked front r back hrest
        grind

theorem Completes.exact {t : Transfer} (h : t.Completes len len) : t.Exact len :=
  ⟨h.full, fun m => Nat.sub_self len ▸ h.stored m, fun m a ha => h.inside m a (.inr ha), h.asked⟩

end Transfer

/-- A loop that asks for what is missing. Induction over the answers. -/
theorem readLoop_completes (hlen : len < 2 ^ w) (reads : List KernelRead) (hres : res ≤ len) :
    (readLoop w (fun res => res) len reads res).Completes len res := by
  have hdone : Transfer.Completes ⟨.full, []⟩ len 0 := by
    refine ⟨fun _ => rfl, Nat.zero_le 0, fun _ => rfl, fun _ _ _ => rfl, ?_⟩
    simp
  induction reads generalizing res with
  | nil => grind [readLoop, Transfer.completes_single]
  | cons read reads ih =>
      rw [readLoop]
      split
      · grind
      · rw [sizeDiff_eq hres hlen]
        split
        · rename_i data hanswer
          have hle := (read.bounded _ _ hanswer).2
          rw [sizeDiff_eq hle (Nat.lt_of_le_of_lt hres hlen)]
          exact (ih (by omega)).after _ hle (Nat.le_refl res) hres
        · grind [Transfer.Completes.after]
        · exact Transfer.completes_single (fun h => by cases h) (Nat.le_refl res)
        · exact Transfer.completes_single (fun h => by cases h) (Nat.le_refl res)

/-- The two loops are the same as long as nothing has been delivered. -/
theorem readLoop_eq_of_unsplit {reads : List KernelRead} (h : Unsplit len reads) :
    readLoop w (fun _ => len) len reads len = readLoop w (fun res => res) len reads len := by
  induction reads with
  | nil => rfl
  | cons read reads ih =>
      rw [Unsplit] at h
      rw [readLoop, readLoop]
      split
      · rfl
      · cases hanswer : read.answer len with
        | bytes data =>
            rw [hanswer] at h
            have hdone : ∀ size, readLoop w size len reads (sizeDiff w len data.length) =
                ⟨.full, []⟩ := by
              have hzero : sizeDiff w len data.length = 0 := by
                grind [sizeDiff, Nat.add_sub_cancel_left, Nat.mod_self]
              intro size
              rw [hzero]
              cases reads <;> rfl
            simp [hdone]
        | eintr => grind
        | eof => rfl
        | failed => rfl

/-- Behind a split answer the loop asks for too much. -/
theorem unsplit_of_asked (hlen : len < 2 ^ w) {reads : List KernelRead}
    (hasked : ∀ front r back, (readLoop w (fun _ => len) len reads len).requests =
      front ++ r :: back → (front.flatMap ReadRequest.data).length + r.size ≤ len) :
    Unsplit len reads := by
  induction reads with
  | nil => trivial
  | cons read reads ih =>
      rw [Unsplit]
      cases hanswer : read.answer len with
      | bytes data =>
          obtain ⟨hpos, hle⟩ := read.bounded _ _ hanswer
          by_contra hsplit
          have hsplit' : data.length ≠ len := hsplit
          rw [readLoop, if_neg (by omega), hanswer] at hasked
          have hrest : sizeDiff w len data.length ≠ 0 := by
            rw [sizeDiff_eq hle hlen]
            omega
          obtain ⟨data', back, hback⟩ :=
            readLoop_requests w len (fun _ => len) hrest reads
          have htoo := hasked [⟨sizeDiff w len len, len, data⟩] _ back (congrArg _ hback)
          grind
      | eintr =>
          apply ih
          intro front r back heq
          by_cases hzero : len = 0
          · have hnil : (readLoop w (fun _ => len) len reads len).requests = [] := by
              cases reads <;> rw [readLoop, if_pos hzero]
            rw [hnil] at heq
            cases front <;> cases heq
          · have hmore := hasked (⟨sizeDiff w len len, len, []⟩ :: front) r back (by
              rw [readLoop, if_neg hzero, hanswer]
              exact congrArg _ heq)
            rwa [List.flatMap_cons, List.nil_append] at hmore
      | eof => trivial
      | failed => trivial

/-- A call that is refused takes nothing. -/
theorem Transfer.exact_null (len : Nat) : Transfer.Exact ⟨.null, []⟩ len := by
  refine ⟨fun h => ReadStatus.noConfusion h, fun _ => rfl, fun _ _ _ => rfl, ?_⟩
  simp

/-- `SocketStream::readFully` is exact, and `QemuPipeStream::readFully` is exactly if the first
answer of the kernel is not split. -/
theorem readFully_exact (w : Nat) (valid buf : Bool) (len : Nat) (hlen : len < 2 ^ w)
    (reads : List KernelRead) :
    (SocketStream.readFully w valid buf len reads).Exact len ∧
      ((QemuPipeStream.readFully w valid buf len reads).Exact len ↔
        (valid = true → buf = true → Unsplit len reads)) := by
  have hloop := (readLoop_completes hlen reads (Nat.le_refl len)).exact
  unfold SocketStream.readFully QemuPipeStream.readFully
  by_cases hcalled : (valid && buf) = true
  · rw [if_pos hcalled, if_pos hcalled]
    rw [Bool.and_eq_true] at hcalled
    refine ⟨hloop, fun h _ _ => unsplit_of_asked hlen h.asked, fun h => ?_⟩
    rw [readLoop_eq_of_unsplit (h hcalled.1 hcalled.2)]
    exact hloop
  · rw [if_neg hcalled, if_neg hcalled]
    refine ⟨Transfer.exact_null len, fun _ hvalid hbuf => ?_, fun _ => Transfer.exact_null len⟩
    exact absurd (by rw [hvalid, hbuf]; rfl) hcalled

/-- The kernel delivers what it is asked for, but no more than `bytes`. -/
private def delivering (b : UInt8) (bytes : List UInt8) : KernelRead where
  answer size := if size = 0 then .eof else .bytes ((b :: bytes).take size)
  bounded size data h := by
    split at h
    · cases h
    · obtain rfl := ReadResult.bytes.inj h
      rw [List.length_take, List.length_cons]
      omega

private def interrupted : KernelRead := ⟨fun _ => .eintr, fun _ _ h => by cases h⟩

/-- An interruption, and all four bytes at once. -/
theorem readFully_exact_interrupted :
    (QemuPipeStream.readFully 32 true true 4 [interrupted, delivering 1 [2, 3, 4, 5]]).Exact 4 :=
  (readFully_exact 32 true true 4 (by decide) _).2.mpr fun _ _ => rfl

/-- Four bytes that arrive in two parts: the second request is for four bytes again, and takes two
bytes of what follows. -/
theorem readFully_split_not_exact :
    ¬(QemuPipeStream.readFully 32 true true 4 [delivering 1 [2], delivering 3 [4, 5, 6]]).Exact 4 ∧
      (QemuPipeStream.readFully 32 true true 4
        [delivering 1 [2], delivering 3 [4, 5, 6]]).memory (fun _ => 0) 4 = 5 := by
  constructor
  · intro h
    have hasked := h.asked [⟨0, 4, [1, 2]⟩] ⟨2, 4, [3, 4, 5, 6]⟩ _ rfl
    exact absurd hasked (by decide)
  · decide +kernel

end Loops

end AndroidRenderer.OpenglCodecCommon
