import AndroidRenderer.Lib.Buffer

/-!
# Packets and the list of free packets

A packet is 4000 bytes of data with a length and a channel. Released packets are
kept in a list and handed out again before new ones are allocated; `addr` tells the
allocations apart. What `malloc` leaves in a new packet is given by `heap`.
-/

namespace AndroidRenderer.Qemud

def MAX_PAYLOAD : Nat := 4000

structure Packet where
  addr : Nat
  len : Nat
  channel : Int
  data : Buffer UInt8 MAX_PAYLOAD
  len_le : len ≤ MAX_PAYLOAD

/-- The bytes a packet carries. -/
def Packet.payload (p : Packet) : List UInt8 := p.data.toList.take p.len

/-- `_free_packets`, and what the next calls of `malloc` return. -/
structure PacketPool where
  free : List Packet
  made : Nat
  heap : Nat → Buffer UInt8 MAX_PAYLOAD

/-- `packet_alloc` -/
def PacketPool.packetAlloc (pool : PacketPool) : Packet × PacketPool :=
  match pool.free with
  | p :: free => ({ p with len := 0, channel := -1, len_le := Nat.zero_le _ }, { pool with free := free })
  | [] =>
      ({ addr := pool.made, len := 0, channel := -1, data := pool.heap pool.made,
         len_le := Nat.zero_le _ }, { pool with made := pool.made + 1 })

/-- `packet_free` -/
def PacketPool.packetFree (pool : PacketPool) (p : Packet) : PacketPool :=
  { pool with free := p :: pool.free }

def Packet.fill (p : Packet) (bytes : List UInt8) (h : bytes.length ≤ MAX_PAYLOAD) : Packet :=
  { p with len := bytes.length, data := p.data.write 0 bytes (by simpa using h), len_le := h }

@[simp] theorem Packet.fill_payload (p : Packet) (bytes : List UInt8)
    (h : bytes.length ≤ MAX_PAYLOAD) : (p.fill bytes h).payload = bytes := by
  rw [payload, fill, Buffer.drop_write, List.take_left]

/-- `snprintf` of a text that fits, with its terminating zero; the length is that of the
text. -/
def Packet.print (p : Packet) (text : List UInt8) (h : text.length < MAX_PAYLOAD) : Packet :=
  { p with
    len := text.length
    data := p.data.write 0 (text ++ [0])
      (by rw [Nat.zero_add, List.length_append, List.length_singleton]; exact h)
    len_le := Nat.le_of_lt h }

@[simp] theorem Packet.print_payload (p : Packet) (text : List UInt8)
    (h : text.length < MAX_PAYLOAD) : (p.print text h).payload = text := by
  rw [payload, print, Buffer.drop_write, List.append_assoc, List.take_left]

/-- `p->channel = channel` -/
def Packet.withChannel (p : Packet) (channel : Int) : Packet := { p with channel := channel }

@[simp] theorem Packet.withChannel_payload (p : Packet) (channel : Int) :
    (p.withChannel channel).payload = p.payload :=
  rfl

@[simp] theorem Packet.payload_length (p : Packet) : p.payload.length = p.len := by
  rw [payload, List.length_take, p.data.size_eq]
  exact Nat.min_eq_left p.len_le

end AndroidRenderer.Qemud
