import AndroidRenderer.Lib.LittleEndian

/-!
# The loop around the dispatch

The generated `decode(buf, len, stream)` walks over the packets in a buffer and
stops at the first one that is incomplete or has an opcode of another decoder. The
length field is compared as an `unsigned int` but added to the cursor as an `int`,
so a packet of 2^31 bytes or more moves the cursor backwards.

`pos` is a 64-bit `size_t`; `ptr` is the index of the cursor in the allocated
buffer, of which the loop is given a part. Reading a header outside the allocation
is undefined, here `none`.
-/

namespace AndroidRenderer.Emugen

open LittleEndian

/-- An `unsigned int` reinterpreted as `int`. -/
def toInt32 (n : Nat) : Int := if n < 2 ^ 31 then n else n - 2 ^ 32

theorem toInt32_of_lt {n : Nat} (h : n < 2 ^ 31) : toInt32 n = n :=
  if_pos h

theorem toInt32_eq_self_iff {n : Nat} : toInt32 n = n ↔ n < 2 ^ 31 := by
  unfold toInt32
  split <;> omega

theorem toInt32_le (n : Nat) : toInt32 n ≤ n := by
  unfold toInt32
  split <;> omega

/-- `size_t` subtraction. -/
def sizeSub (a b : Nat) : Nat := (a + 2 ^ 64 - b) % 2 ^ 64

theorem sizeSub_eq {a b : Nat} (h : b ≤ a) (ha : a < 2 ^ 64) : sizeSub a b = a - b := by
  unfold sizeSub
  omega

/-- `pos += *(int *)(ptr + 4)` -/
def advance (pos packetLen : Nat) : Nat := (((pos : Int) + toInt32 packetLen) % 2 ^ 64).toNat

theorem advance_eq {pos packetLen : Nat} (h : packetLen < 2 ^ 31)
    (hpos : pos + packetLen < 2 ^ 64) : advance pos packetLen = pos + packetLen := by
  unfold advance
  rw [toInt32_of_lt h]
  omega

/-- The opcode of the packet that starts with these bytes. -/
def opcodeOf (bs : List UInt8) : Nat := ofLE (bs.take 4)

/-- The length field of the packet that starts with these bytes. -/
def packetLenOf (bs : List UInt8) : Nat := ofLE ((bs.drop 4).take 4)

/-- The `while` loop. A dispatched packet is recorded by its bytes. -/
def decodeLoop (known : Nat → Bool) (mem : List UInt8) (len : Nat) :
    Nat → Int → Nat → List (List UInt8) → Option (Nat × List (List UInt8))
  | 0, _, _, _ => none
  | fuel + 1, ptr, pos, calls =>
      if sizeSub len pos < 8 then some (pos, calls)
      else if ptr < 0 ∨ (mem.length : Int) < ptr + 8 then none
      else
        let packet := mem.drop ptr.toNat
        let packetLen := packetLenOf packet
        if sizeSub len pos < packetLen then some (pos, calls)
        else if known (opcodeOf packet) then
          decodeLoop known mem len fuel (ptr + toInt32 packetLen) (advance pos packetLen)
            (calls ++ [packet.take packetLen])
        else some (pos, calls) -- unknownOpcode

/-- `decode(buf, len, stream)` with `buf` at index `buf` of the allocation `mem`:
the number of consumed bytes and the dispatched packets. -/
def decode (known : Nat → Bool) (mem : List UInt8) (buf len fuel : Nat) :
    Option (Nat × List (List UInt8)) :=
  if len < 8 then some (0, []) else decodeLoop known mem len fuel buf 0 []

/-! ## Packets -/

/-- A packet as the encoder frames it: its length field is its length. -/
structure Packet where
  bytes : List UInt8
  length_ge : 8 ≤ bytes.length
  packetLen : packetLenOf bytes = bytes.length

namespace Packet

def opcode (p : Packet) : Nat := opcodeOf p.bytes

/-- The concatenation of some packets. -/
def stream (ps : List Packet) : List UInt8 := ps.flatMap bytes

@[simp] theorem stream_nil : stream [] = [] := rfl

@[simp] theorem stream_cons (p : Packet) (ps : List Packet) :
    stream (p :: ps) = p.bytes ++ stream ps := by
  simp [stream]

@[simp] theorem stream_append (ps qs : List Packet) :
    stream (ps ++ qs) = stream ps ++ stream qs := by
  simp [stream]

theorem opcodeOf_append (p : Packet) (bs : List UInt8) :
    opcodeOf (p.bytes ++ bs) = p.opcode := by
  have := p.length_ge
  rw [opcode, opcodeOf, opcodeOf, List.take_append_of_le_length (by omega)]

theorem packetLenOf_append (p : Packet) (bs : List UInt8) :
    packetLenOf (p.bytes ++ bs) = p.bytes.length := by
  have := p.length_ge
  rw [← p.packetLen, packetLenOf, packetLenOf, List.drop_append_of_le_length (by omega),
    List.take_append_of_le_length (by simp; omega)]

end Packet

/-! ## What the loop does -/

/-- The loop does not get past these bytes: not a complete packet of this decoder. -/
def Stuck (known : Nat → Bool) (bs : List UInt8) : Prop :=
  bs.length < 8 ∨ bs.length < packetLenOf bs ∨ known (opcodeOf bs) = false

/-- The header at the cursor, read through the allocation, is the one in the part
the loop was given. -/
theorem header_of_take (bs : List UInt8) {n : Nat} (hn : 8 ≤ n) :
    packetLenOf (bs.take n) = packetLenOf bs ∧ opcodeOf (bs.take n) = opcodeOf bs := by
  simp only [packetLenOf, opcodeOf, List.drop_take, List.take_take]
  exact ⟨by rw [Nat.min_eq_left (by omega)], by rw [Nat.min_eq_left (by omega)]⟩

section Loop

variable {known : Nat → Bool} {mem : List UInt8} {buf len : Nat}

/-- The loop dispatches the complete packets in front, up to where it is stuck. -/
theorem decodeLoop_spec (hlen : buf + len ≤ mem.length) (hmem : mem.length < 2 ^ 63)
    {ps : List Packet} {rest : List UInt8} (hknown : ∀ p ∈ ps, known p.opcode = true)
    (hlt : ∀ p ∈ ps, p.bytes.length < 2 ^ 31) (hstuck : Stuck known rest) {fuel : Nat}
    (hfuel : ps.length < fuel) {pos : Nat} (hpos : pos ≤ len) (calls : List (List UInt8))
    (h : (mem.drop (buf + pos)).take (len - pos) = Packet.stream ps ++ rest) :
    decodeLoop known mem len fuel ((buf : Int) + pos) pos calls =
      some (pos + (Packet.stream ps).length, calls ++ ps.map Packet.bytes) := by
  induction ps generalizing fuel pos calls with
  | nil =>
      obtain ⟨fuel, rfl⟩ := Nat.exists_eq_succ_of_ne_zero (Nat.ne_of_gt hfuel)
      simp only [Packet.stream_nil, List.nil_append, List.length_nil, Nat.add_zero, List.map_nil,
        List.append_nil] at h ⊢
      have hrest : rest.length = len - pos := by grind
      have hsub : sizeSub len pos = len - pos := sizeSub_eq hpos (by omega)
      rw [decodeLoop]
      by_cases hshort : len - pos < 8
      · rw [if_pos (by rwa [hsub])]
      · have htoNat : ((buf : Int) + pos).toNat = buf + pos := by omega
        obtain ⟨hheader, hopcode⟩ := header_of_take (mem.drop (buf + pos))
          (n := len - pos) (by omega)
        rw [h] at hheader hopcode
        rw [if_neg (by rwa [hsub]), if_neg (by omega)]
        simp only [htoNat, ← hheader, ← hopcode, hsub]
        rcases hstuck with hs | hs | hs
        · omega
        · rw [if_pos (by omega)]
        · simp only [hs, Bool.false_eq_true, if_false, ite_self]
  | cons p ps ih =>
      obtain ⟨fuel, rfl⟩ := Nat.exists_eq_succ_of_ne_zero (Nat.ne_of_gt (Nat.zero_lt_of_lt hfuel))
      rw [Packet.stream_cons, List.append_assoc] at h
      have hp8 := p.length_ge
      have hp31 := hlt p (by simp)
      have htotal := congrArg List.length h
      simp only [List.length_take, List.length_drop, List.length_append] at htotal
      have hsub : sizeSub len pos = len - pos := sizeSub_eq hpos (by omega)
      have htoNat : ((buf : Int) + pos).toNat = buf + pos := by omega
      obtain ⟨hheader, hopcode⟩ := header_of_take (mem.drop (buf + pos))
        (n := len - pos) (by omega)
      rw [h, p.packetLenOf_append] at hheader
      rw [h, p.opcodeOf_append] at hopcode
      have hbytes : (mem.drop (buf + pos)).take p.bytes.length = p.bytes := by
        have := congrArg (List.take p.bytes.length) h
        grind
      have hnext : (mem.drop (buf + (pos + p.bytes.length))).take
          (len - (pos + p.bytes.length)) = Packet.stream ps ++ rest := by
        have := congrArg (List.drop p.bytes.length) h
        rw [List.drop_left, List.drop_take, List.drop_drop] at this
        rw [← this, Nat.add_assoc, Nat.sub_sub]
      rw [decodeLoop, if_neg (by omega), if_neg (by omega)]
      simp only [htoNat, ← hheader, ← hopcode, hsub, hbytes]
      rw [if_neg (by omega), if_pos (hknown p (by simp)), toInt32_of_lt hp31,
        advance_eq hp31 (by omega), Int.add_assoc, ← Int.natCast_add]
      rw [ih (fun q hq => hknown q (by simp [hq])) (fun q hq => hlt q (by simp [hq]))
        (by simpa using hfuel) (by omega) _ hnext]
      simp [Nat.add_assoc]

theorem decode_spec (hlen : buf + len ≤ mem.length) (hmem : mem.length < 2 ^ 63)
    {ps : List Packet} {rest : List UInt8} (hknown : ∀ p ∈ ps, known p.opcode = true)
    (hlt : ∀ p ∈ ps, p.bytes.length < 2 ^ 31) (hstuck : Stuck known rest) {fuel : Nat}
    (hfuel : ps.length < fuel) (h : (mem.drop buf).take len = Packet.stream ps ++ rest) :
    decode known mem buf len fuel = some ((Packet.stream ps).length, ps.map Packet.bytes) := by
  unfold decode
  split
  · rename_i hshort
    cases ps with
    | nil => rfl
    | cons p ps =>
        have hp8 := p.length_ge
        grind [Packet.stream_cons, List.length_append]
  · have := decodeLoop_spec hlen hmem hknown hlt hstuck hfuel (Nat.zero_le len) [] (by simpa using h)
    simpa using this

/-- However the loop ends, the cursor moved by the signed lengths of the dispatched
packets, provided each of them contains its header. -/
theorem decodeLoop_moved (buf : Nat) {fuel : Nat} {ptr : Int} {pos pos' : Nat}
    {calls calls' : List (List UInt8)}
    (h : decodeLoop known mem len fuel ptr pos calls = some (pos', calls'))
    (hcalls : ∀ c ∈ calls', 8 ≤ c.length) (hpos : (pos : Int) = (ptr - buf) % 2 ^ 64) :
    ∃ new, calls' = calls ++ new ∧
      (pos' : Int) = (ptr + (new.map fun c => toInt32 (packetLenOf c)).sum - buf) % 2 ^ 64 ∧
      (new = [] ∨ (-2 ^ 31 ≤ ptr + (new.map fun c => toInt32 (packetLenOf c)).sum ∧
        ptr + (new.map fun c => toInt32 (packetLenOf c)).sum < mem.length + 2 ^ 31)) := by
  induction fuel generalizing ptr pos calls with
  | zero => cases h
  | succ fuel ih =>
      have hdone : some (pos, calls) = some (pos', calls') →
          ∃ new, calls' = calls ++ new ∧
            (pos' : Int) = (ptr + (new.map fun c => toInt32 (packetLenOf c)).sum - buf) % 2 ^ 64 ∧
            (new = [] ∨ (-2 ^ 31 ≤ ptr + (new.map fun c => toInt32 (packetLenOf c)).sum ∧
              ptr + (new.map fun c => toInt32 (packetLenOf c)).sum < mem.length + 2 ^ 31)) := by
        grind
      rw [decodeLoop] at h
      split at h
      · exact hdone h
      · split at h
        · cases h
        · rename_i hbounds
          dsimp only at h
          split at h
          · exact hdone h
          · split at h
            · generalize hpacket : mem.drop ptr.toNat = packet at h
              generalize hpl : packetLenOf packet = packetLen at h
              have hlt32 : packetLen < 2 ^ 32 := by
                have hlt := ofLE_lt ((packet.drop 4).take 4)
                have hle : ((packet.drop 4).take 4).length ≤ 4 := List.length_take_le 4 _
                have hpow : 256 ^ ((packet.drop 4).take 4).length ≤ 256 ^ 4 :=
                  Nat.pow_le_pow_right (by decide) hle
                rw [← hpl]
                exact Nat.lt_of_lt_of_le hlt hpow
              have hnextPos : ((advance pos packetLen : Nat) : Int) =
                  (ptr + toInt32 packetLen - buf) % 2 ^ 64 := by
                unfold advance
                omega
              obtain ⟨new, rfl, hpos', hbound⟩ := ih h hnextPos
              have hc8 := hcalls (packet.take packetLen) (by simp)
              have hlenc : packetLenOf (packet.take packetLen) = packetLen := by
                rw [(header_of_take packet (by
                  rw [List.length_take] at hc8
                  omega)).1, hpl]
              have hsum : ptr + toInt32 packetLen +
                  (new.map fun c => toInt32 (packetLenOf c)).sum =
                  ptr + ((packet.take packetLen :: new).map fun c =>
                    toInt32 (packetLenOf c)).sum := by
                rw [List.map_cons, List.sum_cons, hlenc, Int.add_assoc]
              refine ⟨packet.take packetLen :: new, by simp, ?_, Or.inr ?_⟩
              · rw [← hsum]
                exact hpos'
              · rw [← hsum]
                rcases hbound with rfl | hbound
                · simp only [List.map_nil, List.sum_nil, Int.add_zero]
                  have hle := toInt32_le packetLen
                  unfold toInt32 at hle ⊢
                  split <;> omega
                · exact hbound
            · exact hdone h

theorem decode_moved (hlen : buf + len ≤ mem.length) (hmem : mem.length < 2 ^ 63) {fuel pos : Nat}
    {calls : List (List UInt8)} (h : decode known mem buf len fuel = some (pos, calls))
    (hcalls : ∀ c ∈ calls, 8 ≤ c.length) (hpos : pos ≤ len) :
    (pos : Int) = (calls.map fun c => toInt32 (packetLenOf c)).sum := by
  unfold decode at h
  split at h
  · grind
  · obtain ⟨new, rfl, hpos', hbound⟩ := decodeLoop_moved buf h hcalls (by simp)
    grind

end Loop

end AndroidRenderer.Emugen
