import AndroidRenderer.Qemud.Reader

/-!
# Framing on the serial line

The serial reader with a receiver that keeps what is posted to it. `frames` splits a
byte stream into frames without regard to the reads it arrives in; what the reader
posts, and whether it ever stores a byte behind the data of its packet, is a function
of these frames alone (`Line.receiveAll_spec`, `run_frames`).

A length field of four digits announces up to 65535 bytes and is not checked, so the
reader stays inside its packet exactly as long as no frame brings more than 4000.
-/

namespace AndroidRenderer.Qemud

/-- The result of one `read`. -/
structure Read where
  bytes : List UInt8
  length_le : bytes.length ≤ MAX_PAYLOAD
  deriving DecidableEq

/-- The serial reader, the packet lists, and the packets posted so far. -/
structure Line where
  serial : Serial
  pool : PacketPool
  posted : List Packet

namespace Line

/-- `serial_init` with an empty receiver. -/
def init (fdhandler : Nat) (pool : PacketPool) : Line where
  serial := Serial.init fdhandler pool.packetAlloc.1
  pool := pool.packetAlloc.2
  posted := []

/-- The packet goes to the receiver and the reader allocates a new one. -/
def post (line : Line) (serial : Serial) (p : Packet) : Line where
  serial := { serial with inPacket := line.pool.packetAlloc.1 }
  pool := line.pool.packetAlloc.2
  posted := line.posted ++ [p]

/-- The loop of `serial_fd_receive`, for at most as many turns as given. -/
def receiveLoop (line : Line) : Nat → List UInt8 → Except Fault Line
  | _, [] => .ok line
  | 0, _ :: _ => .error .hang
  | turns + 1, b :: unread =>
      match line.serial.receiveTurn (b :: unread) with
      | none => .error .outOfBounds
      | some (serial, none, unread') => receiveLoop { line with serial := serial } turns unread'
      | some (serial, some p, unread') => receiveLoop (line.post serial p) turns unread'

/-- `serial_fd_receive` -/
def serialFdReceive (line : Line) (p : Packet) : Except Fault Line :=
  (line.receiveLoop p.len p.payload).map fun line =>
    { line with pool := line.pool.packetFree p }

/-- The `EPOLLIN` part of `fdhandler_event` on the serial line; a packet into which
nothing was read is not posted. -/
def read (line : Line) (r : Read) : Except Fault Line :=
  let line' := { line with pool := line.pool.packetAlloc.2 }
  if r.bytes.length = 0 then .ok line'
  else line'.serialFdReceive (line.pool.packetAlloc.1.fill r.bytes r.length_le)

def receiveAll (line : Line) : List Read → Except Fault Line
  | [] => .ok line
  | r :: reads => (line.read r).bind fun line' => line'.receiveAll reads

end Line

def stream (reads : List Read) : List UInt8 := (reads.map Read.bytes).flatten

/-! ## The reader follows the byte machine -/

namespace Line

/-- What a run of the byte machine says about the reader: an undefined run is a store
outside the packet, any other leaves the reader in its state and posts its outputs. -/
def Follows (line : Line) (run : Option (Reader × List (Int × List UInt8)))
    (result : Except Fault Line) : Prop :=
  match run with
  | none => result = .error .outOfBounds
  | some (reader, out) => ∃ line', result = .ok line' ∧ line'.serial.reader = reader ∧
      line'.posted.map Packet.frame = line.posted.map Packet.frame ++ out

theorem Follows.refl (line : Line) : Follows line (some (line.serial.reader, [])) (.ok line) :=
  ⟨line, rfl, rfl, by simp⟩

/-- The state is followed further after some packets were posted. -/
theorem Follows.prepend {line line₁ : Line} {out : List (Int × List UInt8)}
    (hposted : line₁.posted.map Packet.frame = line.posted.map Packet.frame ++ out)
    {run : Option (Reader × List (Int × List UInt8))} {result : Except Fault Line}
    (h : Follows line₁ run result) :
    Follows line (run.map fun r => (r.1, out ++ r.2)) result := by
  cases run with
  | none => exact h
  | some r =>
      obtain ⟨line', hresult, hreader, hmap⟩ := h
      exact ⟨line', hresult, hreader, by rw [hmap, hposted, List.append_assoc]⟩

theorem receiveLoop_follows (line : Line) {turns : Nat} {unread : List UInt8}
    (h : unread.length ≤ turns) :
    Follows line (Mealy.run Reader.byte line.serial.reader unread)
      (line.receiveLoop turns unread) := by
  induction turns generalizing line unread with
  | zero =>
      obtain rfl := List.eq_nil_of_length_eq_zero (Nat.le_zero.mp h)
      exact Follows.refl line
  | succ turns ih =>
      cases unread with
      | nil => exact Follows.refl line
      | cons b unread =>
          have hpos : 0 < (line.serial.taken (b :: unread)).length := by
            have := line.serial.wanted_pos
            rw [Serial.taken_length, List.length_cons]
            omega
          have hsplit : b :: unread = line.serial.taken (b :: unread) ++
              (b :: unread).drop (line.serial.taken (b :: unread)).length := by
            rw [Serial.taken_length]
            exact (List.take_append_drop _ _).symm
          rw [receiveLoop]
          cases hturn : line.serial.receiveTurn (b :: unread) with
          | none =>
              rw [hsplit, Mealy.run_append_eq_none (Serial.receiveTurn_none hturn)]
              rfl
          | some r =>
              obtain ⟨serial, p, unread'⟩ := r
              obtain ⟨hrun, hrest, hempty, -⟩ := Serial.receiveTurn_some hturn
              have hle : unread'.length ≤ turns := by grind
              rw [hsplit, Mealy.run_append_of_eq hrun, ← hrest]
              cases p with
              | none => exact (ih { line with serial := serial } hle).prepend (by simp)
              | some p =>
                  have hnew := ih (line.post serial p) hle
                  rw [post, Serial.reader_inPacket (hempty rfl), ← post] at hnew
                  exact hnew.prepend (by simp [post])

theorem read_follows (line : Line) (r : Read) :
    Follows line (Mealy.run Reader.byte line.serial.reader r.bytes) (line.read r) := by
  rw [read]
  split
  · rename_i hnil
    rw [List.eq_nil_of_length_eq_zero hnil]
    exact ⟨_, rfl, rfl, by simp⟩
  · have hloop := receiveLoop_follows { line with pool := line.pool.packetAlloc.2 }
      (Nat.le_refl r.bytes.length)
    rw [serialFdReceive, Packet.fill_payload]
    change Follows line _ ((receiveLoop _ r.bytes.length r.bytes).map _)
    cases hrun : Mealy.run Reader.byte line.serial.reader r.bytes with
    | none =>
        rw [hrun] at hloop
        rw [show receiveLoop _ _ _ = _ from hloop]
        rfl
    | some out =>
        rw [hrun] at hloop
        obtain ⟨line', hresult, hreader, hmap⟩ := hloop
        rw [hresult]
        exact ⟨_, rfl, hreader, hmap⟩

/-- Over any reads, the reader does what the byte machine does on their bytes. -/
theorem receiveAll_follows (line : Line) (reads : List Read) :
    Follows line (Mealy.run Reader.byte line.serial.reader (stream reads))
      (line.receiveAll reads) := by
  induction reads generalizing line with
  | nil => exact Follows.refl line
  | cons r reads ih =>
      have hread := read_follows line r
      rw [receiveAll, stream, List.map_cons, List.flatten_cons]
      cases hrun : Mealy.run Reader.byte line.serial.reader r.bytes with
      | none =>
          rw [hrun] at hread
          rw [Mealy.run_append_eq_none hrun, show line.read r = _ from hread]
          rfl
      | some out =>
          rw [hrun] at hread
          obtain ⟨line', hresult, hreader, hmap⟩ := hread
          rw [Mealy.run_append_of_eq hrun, hresult, ← hreader]
          exact (ih line').prepend hmap

theorem init_reader (fdhandler : Nat) (pool : PacketPool) :
    (init fdhandler pool).serial.reader = .header [] :=
  rfl

theorem receiveAll_eq_error {line : Line} {reads : List Read}
    (h : Mealy.run Reader.byte line.serial.reader (stream reads) = none) :
    line.receiveAll reads = .error .outOfBounds := by
  have hfollows := line.receiveAll_follows reads
  rw [h] at hfollows
  exact hfollows

theorem receiveAll_eq_ok {line : Line} {reads : List Read} {reader : Reader}
    {out : List (Int × List UInt8)}
    (h : Mealy.run Reader.byte line.serial.reader (stream reads) = some (reader, out)) :
    ∃ line', line.receiveAll reads = .ok line' ∧ line'.serial.reader = reader ∧
      line'.posted.map Packet.frame = line.posted.map Packet.frame ++ out := by
  have hfollows := line.receiveAll_follows reads
  rw [h] at hfollows
  exact hfollows

end Line

/-! ## Frames of a stream -/

/-- A frame with the part of its payload that has arrived. -/
structure Frame where
  channel : Int
  length : Nat
  payload : List UInt8

/-- The frames of a byte stream; those that announce no payload are left out. -/
def frames (bytes : List UInt8) : List Frame :=
  if _h : bytes.length < HEADER_SIZE then []
  else
    let length := (hex2int ((bytes.drop LENGTH_OFFSET).take LENGTH_SIZE)).toNat
    let channel := hex2int ((bytes.drop CHANNEL_OFFSET).take CHANNEL_SIZE)
    let body := bytes.drop HEADER_SIZE
    if length = 0 then frames body
    else { channel := channel, length := length, payload := body.take length } ::
      frames (body.drop length)
termination_by bytes.length
decreasing_by
  all_goals
    simp only [List.length_drop, HEADER_SIZE] at *
    omega

def Frame.posts (f : Frame) : List (Int × List UInt8) :=
  if f.payload.length = f.length then Reader.post f.channel f.payload else []

/-- No frame brings more bytes than a packet has room for. -/
def Fit (bytes : List UInt8) : Prop := ∀ f ∈ frames bytes, f.payload.length ≤ MAX_PAYLOAD

instance (bytes : List UInt8) : Decidable (Fit bytes) :=
  inferInstanceAs (Decidable (∀ f ∈ frames bytes, f.payload.length ≤ MAX_PAYLOAD))

theorem fit_nil {bytes : List UInt8} (h : frames bytes = []) : Fit bytes := by
  simp [Fit, h]

theorem fit_cons {bytes rest : List UInt8} {f : Frame} (h : frames bytes = f :: frames rest) :
    Fit bytes ↔ f.payload.length ≤ MAX_PAYLOAD ∧ Fit rest := by
  simp [Fit, h]

/-- The outputs of the byte machine inside a payload, given those behind it. -/
theorem run_payload_outputs {length : Nat} {channel : Int} {body : List UInt8}
    (hpos : length ≠ 0)
    (ih : (Mealy.run Reader.byte (.header []) (body.drop length)).map Prod.snd =
      if Fit (body.drop length) then some ((frames (body.drop length)).flatMap Frame.posts)
      else none) :
    (Mealy.run Reader.byte (.payload length channel []) body).map Prod.snd =
      if (body.take length).length ≤ MAX_PAYLOAD ∧ Fit (body.drop length) then
        some ((Frame.mk channel length (body.take length)).posts ++
          (frames (body.drop length)).flatMap Frame.posts)
      else none := by
  have hsplit := List.take_append_drop length body
  have hlen := List.length_take (l := body) (i := length)
  have hnil : ([] : List UInt8).length = 0 := rfl
  by_cases hfit : (body.take length).length ≤ MAX_PAYLOAD
  · by_cases hfull : (body.take length).length = length
    · have hrun := @Reader.run_payload_complete length channel [] (body.take length)
        (by omega) (by omega) (by omega)
      rw [← hsplit, Mealy.run_append_of_eq hrun, hsplit, Option.map_map]
      have hcomp : Prod.snd ∘ (fun r : Reader × List (Int × List UInt8) =>
          (r.1, Reader.post channel ([] ++ body.take length) ++ r.2)) =
          (fun out => Reader.post channel (body.take length) ++ out) ∘ Prod.snd := rfl
      rw [hcomp, ← Option.map_map, ih, Frame.posts, if_pos hfull]
      grind
    · have hdrop : body.drop length = [] := List.drop_eq_nil_of_le (by omega)
      have htake : body.take length = body := List.take_of_length_le (by omega)
      have hrun := @Reader.run_payload length channel [] body (by rw [← htake]; omega)
        (by rw [← htake]; omega)
      have hframes : frames [] = [] := by
        rw [frames]
        rfl
      rw [hrun, hdrop, if_pos ⟨hfit, fit_nil hframes⟩, Frame.posts, if_neg hfull, hframes]
      rfl
  · have hrun := @Reader.run_payload_overflow length channel [] (body.take length)
      (by omega) (Nat.zero_le _) (by omega)
    rw [← hsplit, Mealy.run_append_eq_none hrun, hsplit, if_neg (fun h => hfit h.1)]
    rfl

/-- A complete header is read at once. -/
theorem run_start {bytes : List UInt8} (h : ¬bytes.length < HEADER_SIZE) :
    Mealy.run Reader.byte (.header []) bytes =
      Mealy.run Reader.byte (Reader.start (bytes.take HEADER_SIZE)) (bytes.drop HEADER_SIZE) := by
  have hrun := @Reader.run_header_complete [] (bytes.take HEADER_SIZE) (by decide)
    (by rw [List.length_nil, List.length_take]; omega)
  conv_lhs => rw [← List.take_append_drop HEADER_SIZE bytes]
  rw [Mealy.run_append_of_eq hrun]
  simp

/-- The outputs of the byte machine on a stream, from the start of a frame. -/
theorem run_frames (bytes : List UInt8) :
    (Mealy.run Reader.byte (.header []) bytes).map Prod.snd =
      if Fit bytes then some ((frames bytes).flatMap Frame.posts) else none := by
  induction bytes using frames.induct with
  | case1 bytes hshort => simp [frames, Reader.run_header, fit_nil, hshort]
  | case2 bytes hlong length body hzero ih =>
      have hframes : frames bytes = frames body := by grind [frames]
      have hfit : Fit bytes ↔ Fit body := by rw [Fit, Fit, hframes]
      rw [run_start hlong, Reader.start_take, if_pos hzero, ih, hframes]
      simp only [hfit]
  | case3 bytes hlong length body hpos ih =>
      let channel := hex2int ((bytes.drop CHANNEL_OFFSET).take CHANNEL_SIZE)
      have hframes : frames bytes =
          Frame.mk channel length (body.take length) :: frames (body.drop length) := by
        grind [frames]
      rw [run_start hlong, Reader.start_take, if_neg hpos]
      refine (run_payload_outputs hpos ih).trans ?_
      rw [hframes, List.flatMap_cons]
      simp only [fit_cons hframes]
      rfl

/-! ## Stores stay inside the packet -/

/-- The bytes of a stream are stored inside the data of the packets they accumulate
into, however the stream is cut into reads, exactly if no frame brings more than 4000
bytes of payload. -/
theorem stores_iff_fit (fdhandler : Nat) (pool : PacketPool) (reads : List Read) :
    (Line.init fdhandler pool).receiveAll reads ≠ .error .outOfBounds ↔ Fit (stream reads) := by
  have hrun := run_frames (stream reads)
  cases hm : Mealy.run Reader.byte (.header []) (stream reads) with
  | none =>
      rw [hm] at hrun
      have hover : ¬Fit (stream reads) := fun h => by simp [h] at hrun
      rw [← Line.init_reader fdhandler pool] at hm
      have herror := Line.receiveAll_eq_error hm
      exact ⟨fun h => absurd herror h, fun h => absurd h hover⟩
  | some r =>
      rw [hm] at hrun
      have hfit : Fit (stream reads) := by
        by_contra h
        simp [h] at hrun
      rw [← Line.init_reader fdhandler pool] at hm
      obtain ⟨line', hok, -⟩ := Line.receiveAll_eq_ok hm
      exact ⟨fun _ => hfit, fun _ => by rw [hok]; exact fun h => by cases h⟩

def zeroData : Buffer UInt8 MAX_PAYLOAD := ⟨List.replicate MAX_PAYLOAD 0, List.length_replicate⟩

/-- Nothing is allocated yet. -/
def emptyPool : PacketPool := ⟨[], 0, fun _ => zeroData⟩

/-- A header that announces 65535 bytes for channel 1. -/
def longHeader : Read := ⟨ascii "01ffff", by decide⟩

/-- A read that fills a packet. -/
def fullRead : Read := ⟨List.replicate MAX_PAYLOAD 0, Nat.le_of_eq List.length_replicate⟩

/-- A frame for channel 1 that announces 65535 bytes, of which 4001 arrive. -/
theorem longFrame_outOfBounds :
    (Line.init 0 emptyPool).receiveAll [longHeader, fullRead, ⟨[0], by decide⟩] =
      .error .outOfBounds := by
  have hheader : Mealy.run Reader.byte (.header []) longHeader.bytes =
      some (Reader.start longHeader.bytes, []) :=
    Reader.run_header_complete (by decide) (by decide)
  have hstart : Reader.start longHeader.bytes = .payload 65535 1 [] := by
    have hlength : hex2int ((longHeader.bytes.drop LENGTH_OFFSET).take LENGTH_SIZE) = 65535 := by
      decide +kernel
    have hchannel : hex2int ((longHeader.bytes.drop CHANNEL_OFFSET).take CHANNEL_SIZE) = 1 := by
      decide
    rw [Reader.start, hlength, hchannel, if_neg (by decide)]
    rfl
  have hlen : (fullRead.bytes ++ [0]).length = MAX_PAYLOAD + 1 := by
    rw [List.length_append, fullRead, List.length_replicate, List.length_singleton]
  have hpayload : Mealy.run Reader.byte (.payload 65535 1 []) (fullRead.bytes ++ [0]) = none :=
    Reader.run_payload_overflow (by rw [hlen]; decide) (Nat.zero_le _) (by rw [hlen]; decide)
  have hstream : stream [longHeader, fullRead, ⟨[0], by decide⟩] =
      longHeader.bytes ++ (fullRead.bytes ++ [0]) := by
    simp only [stream, List.map_cons, List.map_nil, List.flatten_cons, List.flatten_nil,
      List.append_nil]
  refine Line.receiveAll_eq_error ?_
  rw [Line.init_reader, hstream, Mealy.run_append_of_eq hheader, hstart, hpayload]
  rfl

/-! ## Round trip -/

/-- What is put on the line: a packet framed by `serial_send` with the header packet
`h`, a frame with an empty payload, or a frame with a malformed channel. -/
inductive Item
  | packet (h p : Packet) (channel_le : 0 ≤ p.channel ∧ p.channel ≤ 255) (len_pos : 0 < p.len)
  | empty (a b : UInt8)
  | stray (a b : UInt8) (payload : List UInt8) (malformed : hexDigit a = none ∨ hexDigit b = none)
      (length_pos : 0 < payload.length) (length_le : payload.length ≤ MAX_PAYLOAD)

namespace Item

def bytes : Item → List UInt8
  | packet h p _ _ => (serialHeader h p).payload ++ p.payload
  | empty a b => [a, b] ++ int2hex 0 LENGTH_SIZE
  | stray a b payload _ _ _ => [a, b] ++ int2hex payload.length LENGTH_SIZE ++ payload

/-- What the receiver is to get. -/
def frame? : Item → Option (Int × List UInt8)
  | packet _ p _ _ => some p.frame
  | empty _ _ => none
  | stray _ _ _ _ _ _ => none

/-- The byte machine reads a frame with a non-empty payload. -/
theorem run_frame (channel : List UInt8) {payload : List UInt8}
    (hchannel : channel.length = CHANNEL_SIZE) (hpos : 0 < payload.length)
    (hle : payload.length ≤ MAX_PAYLOAD) :
    Mealy.run Reader.byte (.header [])
        (channel ++ int2hex payload.length LENGTH_SIZE ++ payload) =
      some (.header [], Reader.post (hex2int channel) payload) := by
  have hlength : hex2int (int2hex (payload.length : Nat) LENGTH_SIZE) = payload.length :=
    hex2int_int2hex (Nat.lt_of_le_of_lt hle (by decide))
  have hheader := @Reader.run_header_complete []
    (channel ++ int2hex payload.length LENGTH_SIZE) (by decide)
    (by rw [List.length_append, hchannel, int2hex_length]; rfl)
  have hstart : Reader.start (channel ++ int2hex payload.length LENGTH_SIZE) =
      .payload payload.length (hex2int channel) [] := by
    have hdrop : ((channel ++ int2hex payload.length LENGTH_SIZE).drop LENGTH_OFFSET).take
        LENGTH_SIZE = int2hex payload.length LENGTH_SIZE := by
      rw [show LENGTH_OFFSET = CHANNEL_SIZE from rfl, List.drop_left' hchannel,
        List.take_of_length_le (by rw [int2hex_length])]
    have htake : ((channel ++ int2hex payload.length LENGTH_SIZE).drop CHANNEL_OFFSET).take
        CHANNEL_SIZE = channel := List.take_left' hchannel
    rw [Reader.start, hdrop, htake, hlength, Int.toNat_natCast, if_neg (by omega)]
  have hbody := @Reader.run_payload_complete payload.length (hex2int channel) [] payload
    hpos (Nat.zero_add _) hle
  rw [Mealy.run_append_of_eq hheader, List.nil_append, hstart, hbody]
  rfl

/-- One item is read completely, and posted if it is a packet. -/
theorem run_bytes (item : Item) :
    Mealy.run Reader.byte (.header []) item.bytes = some (.header [], item.frame?.toList) := by
  cases item with
  | packet h p channel_le len_pos =>
      obtain ⟨channel, hchannel⟩ := Int.eq_ofNat_of_zero_le channel_le.1
      have hread : hex2int (int2hex p.channel CHANNEL_SIZE) = p.channel := by
        rw [hchannel]
        exact hex2int_int2hex (by simp only [CHANNEL_SIZE]; omega)
      rw [bytes, serialHeader_append_payload, frameBytes,
        run_frame _ (int2hex_length _ _) (by rwa [Packet.payload_length])
          (by rw [Packet.payload_length]; exact p.len_le),
        hread, Reader.post, if_neg (by omega)]
      rfl
  | empty a b => rfl
  | stray a b payload malformed length_pos length_le =>
      have hread : hex2int [a, b] = -1 := by
        rcases malformed with ha | hb
        · simp [hex2int, hex2intFrom, ha]
        · cases ha : hexDigit a <;> simp [hex2int, hex2intFrom, ha, hb]
      rw [bytes, run_frame [a, b] rfl length_pos length_le, hread]
      rfl

theorem run_flatMap (items : List Item) :
    Mealy.run Reader.byte (.header []) (items.flatMap bytes) =
      some (.header [], items.filterMap frame?) := by
  induction items with
  | nil => rfl
  | cons item items ih =>
      rw [List.flatMap_cons, Mealy.run_append_of_eq item.run_bytes, ih]
      grind

end Item

/-- However the frames of some packets, with empty and malformed frames between them,
are cut into reads, exactly these packets are posted, each once and in order, and the
reader is ready for the next frame. -/
theorem receiveAll_posts_items (fdhandler : Nat) (pool : PacketPool) (items : List Item)
    (reads : List Read) (hreads : stream reads = items.flatMap Item.bytes) :
    ∃ line, (Line.init fdhandler pool).receiveAll reads = .ok line ∧
      line.posted.map Packet.frame = items.filterMap Item.frame? ∧
      line.serial.reader = .header [] := by
  have hrun : Mealy.run Reader.byte (Line.init fdhandler pool).serial.reader (stream reads) =
      some (.header [], items.filterMap Item.frame?) := by
    rw [Line.init_reader, hreads, Item.run_flatMap]
  obtain ⟨line, hok, hstate, hposted⟩ := Line.receiveAll_eq_ok hrun
  exact ⟨line, hok, by simpa [Line.init] using hposted, hstate⟩

/-- A packet with one byte for channel 5. -/
def shortPacket : Packet := ⟨0, 1, 5, zeroData, by decide⟩

/-- Two packets with an empty frame and a frame for channel `z0` between them, cut in
the middle of headers. -/
theorem receiveAll_posts_items_cut :
    ∃ line, (Line.init 0 emptyPool).receiveAll
        [⟨ascii "05", by decide⟩, ⟨ascii "0001" ++ [0] ++ ascii "070000z", by decide⟩,
          ⟨ascii "00001!0500", by decide⟩, ⟨ascii "01" ++ [0], by decide⟩] = .ok line ∧
      line.posted.map Packet.frame = [(5, [0]), (5, [0])] ∧ line.serial.reader = .header [] := by
  have hframe : shortPacket.frame = (5, [0]) := rfl
  have hbytes : (serialHeader shortPacket shortPacket).payload ++ shortPacket.payload =
      ascii "050001" ++ [0] := by
    rw [serialHeader_append_payload]
    decide
  rw [← hframe]
  refine receiveAll_posts_items 0 emptyPool
    [.packet shortPacket shortPacket (by decide) (by decide), .empty 48 55,
      .stray 122 48 (ascii "!") (by decide) (by decide) (by decide),
      .packet shortPacket shortPacket (by decide) (by decide)] _ ?_
  simp only [List.flatMap_cons, List.flatMap_nil, Item.bytes, hbytes]
  decide

end AndroidRenderer.Qemud
