import AndroidRenderer.Qemud.Hex
import AndroidRenderer.Qemud.Packet

/-!
# The serial connection

A frame is two hexadecimal digits of channel, four of payload length, and the
payload. The reader accumulates header and payload in the same packet, at `inLen`,
over any number of reads; `inDatalen = 0` means that it is reading a header.
-/

namespace AndroidRenderer.Qemud

def HEADER_SIZE : Nat := 6
def CHANNEL_OFFSET : Nat := 0
def LENGTH_OFFSET : Nat := 2
def CHANNEL_SIZE : Nat := 2
def LENGTH_SIZE : Nat := 4
def CHANNEL_CONTROL : Int := 0

/-- Where the daemon stops when C gives its next action no meaning, or by design:
`exit` is `fatal`, `hang` an endless loop, `notEnabled` an answer of the kernel to a
question that was not asked. -/
inductive Fault
  | outOfBounds
  | useAfterFree
  | danglingHook
  | hang
  | exit
  | notEnabled
  deriving DecidableEq, Repr

/-- The bytes of a header, or of the payload it announced. -/
def expected (inDatalen : Nat) : Nat := if inDatalen = 0 then HEADER_SIZE else inDatalen

/-- The `Serial` object; its receiver is the multiplexer. -/
structure Serial where
  fdhandler : Nat
  inLen : Nat
  inDatalen : Nat
  inChannel : Int
  inPacket : Packet
  inLen_lt : inLen < expected inDatalen
  inLen_le : inLen ≤ MAX_PAYLOAD

namespace Serial

/-- The bytes that the header or the payload is short of. -/
def wanted (s : Serial) : Nat := expected s.inDatalen - s.inLen

theorem wanted_pos (s : Serial) : 0 < s.wanted := Nat.sub_pos_of_lt s.inLen_lt

/-- The bytes one turn of the loop takes from those that are unread. -/
def taken (s : Serial) (unread : List UInt8) : List UInt8 :=
  unread.take (min unread.length s.wanted)

theorem taken_length (s : Serial) (unread : List UInt8) :
    (s.taken unread).length = min unread.length s.wanted := by
  rw [taken, List.length_take]
  omega

/-- The header is complete: `in_datalen` and `in_channel` are read from it. A length
that is malformed (-1) or empty makes the reader go on with the next header. -/
def startPayload (s : Serial) (inp : Packet) : Serial where
  fdhandler := s.fdhandler
  inLen := 0
  inDatalen := (hex2int ((inp.data.toList.drop LENGTH_OFFSET).take LENGTH_SIZE)).toNat
  inChannel := hex2int ((inp.data.toList.drop CHANNEL_OFFSET).take CHANNEL_SIZE)
  inPacket := inp
  inLen_lt := by
    unfold expected
    split
    · decide
    · omega
  inLen_le := Nat.zero_le _

/-- The payload is complete. -/
def startHeader (s : Serial) (inp : Packet) : Serial :=
  { s with
    inLen := 0, inDatalen := 0, inPacket := inp
    inLen_lt := by decide, inLen_le := Nat.zero_le _ }

/-- One turn of the loop of `serial_fd_receive` (`inpos` is kept in `inLen`): the
new state, a packet to post, and the bytes left to read. A packet that is posted must
be replaced by a new one before the next turn; `none` is a store outside the data. -/
def receiveTurn (s : Serial) (unread : List UInt8) :
    Option (Serial × Option Packet × List UInt8) :=
  let bytes := s.taken unread
  let inpos := s.inLen + bytes.length
  let unread' := unread.drop bytes.length
  if hstore : inpos ≤ MAX_PAYLOAD then
    let inp := { s.inPacket with data := s.inPacket.data.write s.inLen bytes hstore }
    if hmore : inpos < expected s.inDatalen then
      some ({ s with inLen := inpos, inPacket := inp, inLen_lt := hmore, inLen_le := hstore },
        none, unread')
    else if s.inDatalen = 0 then
      some (s.startPayload inp, none, unread')
    else if s.inChannel < 0 then
      some (s.startHeader inp, none, unread')
    else
      some (s.startHeader inp,
        some { inp with len := inpos, channel := s.inChannel, len_le := hstore }, unread')
  else none

/-- `serial_init` -/
def init (fdhandler : Nat) (inPacket : Packet) : Serial where
  fdhandler := fdhandler
  inLen := 0
  inDatalen := 0
  inChannel := 0
  inPacket := inPacket
  inLen_lt := by decide
  inLen_le := Nat.zero_le _

end Serial

/-- The header packet that `serial_send` queues in front of `p`. -/
def serialHeader (h p : Packet) : Packet :=
  let lengthStored := h.data.write LENGTH_OFFSET (int2hex p.len LENGTH_SIZE)
    (by rw [int2hex_length]; decide)
  { h with
    len := HEADER_SIZE
    data := lengthStored.write CHANNEL_OFFSET (int2hex p.channel CHANNEL_SIZE)
      (by rw [int2hex_length]; decide)
    len_le := by decide }

/-- A frame on the serial line. -/
def frameBytes (channel : Int) (payload : List UInt8) : List UInt8 :=
  int2hex channel CHANNEL_SIZE ++ int2hex payload.length LENGTH_SIZE ++ payload

theorem serialHeader_payload (h p : Packet) :
    (serialHeader h p).payload = int2hex p.channel CHANNEL_SIZE ++ int2hex p.len LENGTH_SIZE := by
  have hsize := h.data.size_eq
  simp only [MAX_PAYLOAD] at hsize
  simp only [Packet.payload, serialHeader, Buffer.write, LENGTH_OFFSET, CHANNEL_OFFSET,
    LENGTH_SIZE, CHANNEL_SIZE, HEADER_SIZE, int2hex_length]
  simp [List.take_append, hsize, List.take_of_length_le]

/-- The two packets queued by `serial_send` make up a frame. -/
theorem serialHeader_append_payload (h p : Packet) :
    (serialHeader h p).payload ++ p.payload = frameBytes p.channel p.payload := by
  rw [serialHeader_payload, frameBytes, Packet.payload_length]

end AndroidRenderer.Qemud
