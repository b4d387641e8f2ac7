import AndroidRenderer.Lib.Mealy
import AndroidRenderer.Qemud.Serial

/-!
# The serial reader as a byte machine

`Reader` reads the serial line one byte at a time and keeps only the bytes of the
header or payload that is being read. A turn of the loop of `serial_fd_receive` is
the run of this machine over the bytes it takes, undefined stores included
(`Serial.receiveTurn_spec`).
-/

namespace AndroidRenderer.Qemud

/-- What was read of the header, or of a payload of `length` bytes for `channel`. -/
inductive Reader
  | header (read : List UInt8)
  | payload (length : Nat) (channel : Int) (read : List UInt8)

namespace Reader

def start (header : List UInt8) : Reader :=
  if (hex2int ((header.drop LENGTH_OFFSET).take LENGTH_SIZE)).toNat = 0 then .header []
  else .payload (hex2int ((header.drop LENGTH_OFFSET).take LENGTH_SIZE)).toNat
    (hex2int ((header.drop CHANNEL_OFFSET).take CHANNEL_SIZE)) []

/-- Only the first six bytes count. -/
theorem start_take (bytes : List UInt8) :
    start (bytes.take HEADER_SIZE) =
      if (hex2int ((bytes.drop LENGTH_OFFSET).take LENGTH_SIZE)).toNat = 0 then .header []
      else .payload (hex2int ((bytes.drop LENGTH_OFFSET).take LENGTH_SIZE)).toNat
        (hex2int ((bytes.drop CHANNEL_OFFSET).take CHANNEL_SIZE)) [] := by
  rw [start, List.drop_take, List.take_take, List.drop_take, List.take_take]
  rfl

def post (channel : Int) (payload : List UInt8) : List (Int × List UInt8) :=
  if channel < 0 then [] else [(channel, payload)]

def byte : Reader → UInt8 → Option (Reader × List (Int × List UInt8))
  | .header read, b =>
      if read.length + 1 < HEADER_SIZE then some (.header (read ++ [b]), [])
      else some (start (read ++ [b]), [])
  | .payload length channel read, b =>
      if MAX_PAYLOAD ≤ read.length then none
      else if read.length + 1 < length then some (.payload length channel (read ++ [b]), [])
      else some (.header [], post channel (read ++ [b]))

/-! ## Runs inside a header or a payload -/

theorem run_header {read xs : List UInt8} (h : read.length + xs.length < HEADER_SIZE) :
    Mealy.run byte (.header read) xs = some (.header (read ++ xs), []) := by
  induction xs generalizing read with
  | nil => simp
  | cons b xs ih =>
      rw [List.length_cons] at h
      have hstep : byte (.header read) b = some (.header (read ++ [b]), []) :=
        if_pos (by omega)
      rw [Mealy.run_cons hstep, ih (by rw [List.length_append, List.length_singleton]; omega)]
      simp

theorem run_header_complete {read xs : List UInt8} (hread : read.length < HEADER_SIZE)
    (h : read.length + xs.length = HEADER_SIZE) :
    Mealy.run byte (.header read) xs = some (start (read ++ xs), []) := by
  have hne : xs ≠ [] := by grind
  obtain ⟨front, b, rfl⟩ : ∃ front b, xs = front ++ [b] :=
    ⟨_, _, (List.dropLast_append_getLast hne).symm⟩
  rw [List.length_append, List.length_singleton] at h
  have hstep : byte (.header (read ++ front)) b = some (start (read ++ front ++ [b]), []) :=
    if_neg (by rw [List.length_append]; omega)
  rw [Mealy.run_append_of_eq (run_header (by omega)), Mealy.run_cons hstep]
  simp

theorem run_payload {n : Nat} {channel : Int} {read xs : List UInt8}
    (h : read.length + xs.length < n) (hfit : read.length + xs.length ≤ MAX_PAYLOAD) :
    Mealy.run byte (.payload n channel read) xs = some (.payload n channel (read ++ xs), []) := by
  induction xs generalizing read with
  | nil => simp
  | cons b xs ih =>
      rw [List.length_cons] at h hfit
      have hstep : byte (.payload n channel read) b = some (.payload n channel (read ++ [b]), []) := by
        rw [byte, if_neg (by omega), if_pos (by omega)]
      have hlen : (read ++ [b]).length = read.length + 1 := by simp
      rw [Mealy.run_cons hstep, ih (by omega) (by omega)]
      simp

theorem run_payload_complete {n : Nat} {channel : Int} {read xs : List UInt8}
    (hread : read.length < n) (h : read.length + xs.length = n) (hfit : n ≤ MAX_PAYLOAD) :
    Mealy.run byte (.payload n channel read) xs =
      some (.header [], post channel (read ++ xs)) := by
  have hne : xs ≠ [] := by grind
  obtain ⟨front, b, rfl⟩ : ∃ front b, xs = front ++ [b] :=
    ⟨_, _, (List.dropLast_append_getLast hne).symm⟩
  rw [List.length_append, List.length_singleton] at h
  have hstep : byte (.payload n channel (read ++ front)) b =
      some (.header [], post channel (read ++ front ++ [b])) := by grind [byte]
  rw [Mealy.run_append_of_eq (run_payload (by omega) (by omega)), Mealy.run_cons hstep]
  simp

/-- More payload bytes than there is room for. -/
theorem run_payload_overflow {n : Nat} {channel : Int} {read xs : List UInt8}
    (h : read.length + xs.length ≤ n) (hread : read.length ≤ MAX_PAYLOAD)
    (hfit : MAX_PAYLOAD < read.length + xs.length) :
    Mealy.run byte (.payload n channel read) xs = none := by
  obtain ⟨front, b, back, rfl, hfront⟩ : ∃ front b back, xs = front ++ b :: back ∧
      read.length + front.length = MAX_PAYLOAD := by
    refine ⟨xs.take (MAX_PAYLOAD - read.length), xs[MAX_PAYLOAD - read.length],
      xs.drop (MAX_PAYLOAD - read.length + 1), ?_, by rw [List.length_take]; omega⟩
    rw [List.getElem_cons_drop, List.take_append_drop]
  rw [List.length_append, List.length_cons] at h
  have hstep : byte (.payload n channel (read ++ front)) b = none := by
    rw [byte, if_pos (by rw [List.length_append]; omega)]
  rw [Mealy.run_append_of_eq (run_payload (by omega) (by omega)), Mealy.run_cons_eq_none hstep]
  rfl

end Reader

/-! ## A turn of the loop -/

/-- What a packet tells its receiver. -/
def Packet.frame (p : Packet) : Int × List UInt8 := (p.channel, p.payload)

namespace Serial

/-- The bytes read of the current header or payload. -/
def read (s : Serial) : List UInt8 := s.inPacket.data.toList.take s.inLen

theorem read_length (s : Serial) : s.read.length = s.inLen := by
  rw [read, List.length_take, s.inPacket.data.size_eq]
  exact Nat.min_eq_left s.inLen_le

/-- The abstract state of the reader. -/
def reader (s : Serial) : Reader :=
  if s.inDatalen = 0 then .header s.read else .payload s.inDatalen s.inChannel s.read

variable {s : Serial}

theorem reader_header (h : s.inDatalen = 0) : s.reader = .header s.read := if_pos h

theorem reader_payload (h : s.inDatalen ≠ 0) :
    s.reader = .payload s.inDatalen s.inChannel s.read :=
  if_neg h

theorem wanted_add (s : Serial) :
    s.inLen + s.wanted = expected s.inDatalen :=
  Nat.add_sub_of_le (Nat.le_of_lt s.inLen_lt)

/-- The packet behind the bytes that were read is the reader's only memory. -/
theorem reader_inPacket (h : s.inLen = 0) (p : Packet) :
    ({ s with inPacket := p } : Serial).reader = s.reader := by
  simp only [reader, read, h, List.take_zero]

@[simp] theorem reader_startHeader (s : Serial) (inp : Packet) :
    (s.startHeader inp).reader = .header [] := by
  simp [reader, startHeader, read]

theorem reader_startPayload (s : Serial) {inp : Packet} {header : List UInt8}
    (h : inp.data.toList.take HEADER_SIZE = header) :
    (s.startPayload inp).reader = Reader.start header := by
  rw [← h, Reader.start_take]
  rfl

/-- A turn of the loop is a run of the byte machine. -/
theorem receiveTurn_some {s' : Serial} {unread unread' : List UInt8} {p : Option Packet}
    (h : s.receiveTurn unread = some (s', p, unread')) :
    Mealy.run Reader.byte s.reader (s.taken unread) =
        some (s'.reader, p.toList.map Packet.frame) ∧
      unread' = unread.drop (s.taken unread).length ∧
      (p.isSome → s'.inLen = 0) ∧ s'.fdhandler = s.fdhandler := by
  have hwanted := s.wanted_add
  have hlt := s.inLen_lt
  have htaken := s.taken_length unread
  have hread := s.read_length
  simp only [receiveTurn] at h
  split at h
  case isFalse => cases h
  case isTrue hstore =>
    have hdata := Buffer.take_write (b := s.inPacket.data) hstore
    rw [← read] at hdata
    split at h
    case isTrue hmore =>
      obtain ⟨rfl, rfl, rfl⟩ : _ ∧ _ ∧ _ := by simpa using h
      refine ⟨?_, rfl, by simp, rfl⟩
      by_cases hheader : s.inDatalen = 0
      · rw [expected, if_pos hheader] at hmore
        rw [reader_header hheader, Reader.run_header (by omega)]
        simp only [reader, if_pos hheader, read, hdata, Option.toList_none, List.map_nil]
      · rw [expected, if_neg hheader] at hmore
        rw [reader_payload hheader, Reader.run_payload (by omega) (by omega)]
        simp only [reader, if_neg hheader, read, hdata, Option.toList_none, List.map_nil]
    case isFalse hmore =>
      split at h
      case isTrue hheader =>
        obtain ⟨rfl, rfl, rfl⟩ : _ ∧ _ ∧ _ := by simpa using h
        rw [expected, if_pos hheader] at hmore hwanted hlt
        refine ⟨?_, rfl, by simp, rfl⟩
        have hfull : s.inLen + (s.taken unread).length = HEADER_SIZE := by omega
        rw [hfull] at hdata
        rw [reader_header hheader, Reader.run_header_complete (by omega) (by omega),
          reader_startPayload s hdata]
        rfl
      case isFalse hheader =>
        rw [expected, if_neg hheader] at hmore hwanted hlt
        have hrun := @Reader.run_payload_complete s.inDatalen s.inChannel s.read (s.taken unread)
          (by omega) (by omega) (by omega)
        split at h
        case isTrue hchannel =>
          obtain ⟨rfl, rfl, rfl⟩ : _ ∧ _ ∧ _ := by simpa using h
          refine ⟨?_, rfl, by simp, rfl⟩
          rw [reader_payload hheader, hrun, reader_startHeader, Reader.post, if_pos hchannel]
          rfl
        case isFalse hchannel =>
          obtain ⟨rfl, rfl, rfl⟩ : _ ∧ _ ∧ _ := by simpa using h
          refine ⟨?_, rfl, fun _ => rfl, rfl⟩
          rw [reader_payload hheader, hrun, reader_startHeader, Reader.post, if_neg hchannel]
          simp only [Packet.frame, Packet.payload, hdata, Option.toList_some, List.map_cons,
            List.map_nil]

/-- Without bytes nothing is posted. -/
theorem receiveTurn_nil {s' : Serial} {p : Option Packet} {unread' : List UInt8}
    (h : s.receiveTurn [] = some (s', p, unread')) : p = none := by
  obtain ⟨hrun, -, -, -⟩ := receiveTurn_some h
  have htaken : s.taken [] = [] := List.take_nil
  rw [htaken, Mealy.run_nil] at hrun
  cases p with
  | none => rfl
  | some p => simp at hrun

theorem receiveTurn_none {unread : List UInt8} (h : s.receiveTurn unread = none) :
    Mealy.run Reader.byte s.reader (s.taken unread) = none := by
  have hwanted := s.wanted_add
  have htaken := s.taken_length unread
  have hread := s.read_length
  have hle := s.inLen_le
  have hstore : ¬s.inLen + (s.taken unread).length ≤ MAX_PAYLOAD := by grind [receiveTurn]
  by_cases hheader : s.inDatalen = 0
  · rw [expected, if_pos hheader] at hwanted
    have : HEADER_SIZE ≤ MAX_PAYLOAD := by decide
    omega
  · grind [expected, reader_payload, Reader.run_payload_overflow]

end Serial

end AndroidRenderer.Qemud
