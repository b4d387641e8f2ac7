import AndroidRenderer.Qtools.Varint

/-!
# Runs of the decoder

The bytes between `next_` and `end_`, and behind them those that are not read yet, are what is left
of the file. Both are kept by `FillBuffer`, which moves the border between them, so that every call
reads at its position of the file wherever the buffer ends.
-/

namespace AndroidRenderer.Qtools

open BigEndian LittleEndian

/-- `bswap64` reverses the bytes of a word. -/
def Machine.Swaps (machine : Machine) : Prop :=
  ∀ bytes : List UInt8, bytes.length = 8 →
    machine.bswap64 (.ofNat 64 (ofLE bytes)) = .ofNat 64 (ofBE bytes)

namespace Decoder

variable {d d' : Decoder} {rest : List UInt8}

/-- `rest` is what is left of the file. -/
structure Reads (d : Decoder) (rest : List UInt8) : Prop where
  next_le : d.next_ ≤ d.end_
  end_le : d.end_ ≤ kBufSize
  full : d.end_ = kBufSize ∨ d.fstream_ = []
  bytes : load d.buf_ d.next_ (d.end_ - d.next_) ++ d.fstream_ = rest

theorem open_reads (m : Mem) (file : List UInt8) : (Open m file).Reads file := by
  have hload : load (store m 0 (file.take kBufSize)) 0 (file.take kBufSize).length =
      file.take kBufSize := holds_store m 0 _
  refine ⟨Nat.zero_le _, ?_, ?_, ?_⟩
  · exact List.length_take_le _ _
  · by_cases hlong : kBufSize ≤ file.length
    · exact .inl (List.length_take_of_le hlong)
    · exact .inr (List.drop_eq_nil_of_le (by omega))
  · show load (store m 0 (file.take kBufSize)) 0 (file.take kBufSize).length ++
      file.drop kBufSize = file
    rw [hload, List.take_append_drop]

theorem Reads.length (h : d.Reads rest) : rest.length = d.end_ - d.next_ + d.fstream_.length := by
  rw [← h.bytes, List.length_append, load_length]

/-- The unused bytes are moved to the front, and as many are read as fit behind them. -/
theorem fillBuffer_spec (h : d.Reads rest) :
    ∃ d', d.FillBuffer = .ok d' ∧ d'.Reads rest ∧
      min kDecodingSpace rest.length ≤ d'.end_ - d'.next_ := by
  have hlength := h.length
  unfold FillBuffer
  rw [if_neg (Nat.not_lt.mpr h.next_le)]
  split
  · rename_i hfill
    generalize hlen : d.end_ - d.next_ = len at hfill hlength
    have hspace : kDecodingSpace < kBufSize := by decide
    have hmoved : load (if 0 < len then store d.buf_ 0 (load d.buf_ d.next_ len) else d.buf_) 0 len =
        load d.buf_ d.next_ len := by
      split
      · exact (holds_store d.buf_ 0 (load d.buf_ d.next_ len)).load_eq (load_length _ _ _)
      · rename_i hzero
        obtain rfl : len = 0 := by omega
        rfl
    refine ⟨_, rfl, ⟨Nat.zero_le _, ?_, ?_, ?_⟩, ?_⟩
    · grind
    · show len + (d.fstream_.take (kBufSize - len)).length = kBufSize ∨
        d.fstream_.drop (kBufSize - len) = []
      by_cases hlong : kBufSize - len ≤ d.fstream_.length
      · grind
      · exact .inr (List.drop_eq_nil_of_le (by omega))
    · show load (store _ len (d.fstream_.take (kBufSize - len))) 0
        (len + (d.fstream_.take (kBufSize - len)).length - 0) ++
          d.fstream_.drop (kBufSize - len) = rest
      rw [Nat.sub_zero, load_add, load_store_of_disjoint (by omega), hmoved, Nat.zero_add,
        (holds_store _ len (d.fstream_.take (kBufSize - len))).load_eq rfl, List.append_assoc,
        List.take_append_drop, ← hlen]
      exact h.bytes
    · grind
  · grind [h.full]

/-- Bytes of the buffer are taken. -/
theorem Reads.advance (h : d.Reads rest) {n : Nat} (hn : n ≤ d.end_ - d.next_) :
    load d.buf_ d.next_ n = rest.take n ∧
      ({ d with next_ := d.next_ + n } : Decoder).Reads (rest.drop n) := by
  have hsplit : load d.buf_ d.next_ n ++
      (load d.buf_ (d.next_ + n) (d.end_ - (d.next_ + n)) ++ d.fstream_) = rest := by
    rw [← List.append_assoc, ← load_add, ← h.bytes]
    congr 2
    omega
  have hle := h.next_le
  constructor
  · rw [← hsplit, List.take_left' (load_length _ _ _)]
  · refine ⟨?_, h.end_le, h.full, ?_⟩
    · grind
    · grind

theorem fillBelow_spec (h : d.Reads rest) {space : Nat} (hspace : space ≤ kDecodingSpace) :
    ∃ d', d.fillBelow space = .ok d' ∧ d'.Reads rest ∧
      min space rest.length ≤ d'.end_ - d'.next_ := by
  unfold fillBelow
  grind [fillBuffer_spec]

/-- `Read` copies the next `len` bytes, or those that are left. -/
theorem readBytes_spec (h : d.Reads rest) (len : Nat) :
    ∃ d', d.readBytes len = .ok (d', rest.take len) ∧ d'.Reads (rest.drop len) := by
  induction len using Nat.strongRecOn generalizing d rest with
  | ind len ih =>
      rw [readBytes]
      split
      · rename_i hpos
        obtain ⟨d₁, hfill, h₁, hspace⟩ := fillBelow_spec h (by decide : 1 ≤ kDecodingSpace)
        have hsome : d₁.end_ - d₁.next_ = 0 → rest = [] := fun hzero =>
          List.eq_nil_of_length_eq_zero (by omega)
        by_cases hnone : d₁.end_ - d₁.next_ = 0
        · refine ⟨d₁, Run.bind_eq_ok.mpr ⟨d₁, hfill, ?_⟩, ?_⟩
          · rw [hsome hnone, List.take_nil]
            exact dif_pos hnone
          · have hrest := hsome hnone
            rw [hrest] at h₁ ⊢
            rwa [List.drop_nil]
        · generalize hn : (if d₁.end_ - d₁.next_ > len then len else d₁.end_ - d₁.next_) = n
          have hle : n ≤ d₁.end_ - d₁.next_ ∧ n ≤ len ∧ 0 < n := by
            rw [← hn]
            split <;> omega
          obtain ⟨hbytes, hnext⟩ := h₁.advance hle.1
          obtain ⟨d', hread, h'⟩ := ih (len - n) (by omega) hnext
          have hlen : n + (len - n) = len := by omega
          refine ⟨d', Run.bind_eq_ok.mpr ⟨d₁, hfill, ?_⟩, ?_⟩
          · dsimp only
            rw [dif_neg hnone, hn, hread, hbytes]
            show Except.ok (d', rest.take n ++ (rest.drop n).take (len - n)) = _
            rw [← List.take_add, hlen]
          · rwa [List.drop_drop, hlen] at h'
      · obtain rfl : len = 0 := by omega
        exact ⟨d, rfl, h⟩

/-! ## Objects -/

/-- The buffer of a decoder holds an object at `next_`. -/
structure Holds (d : Decoder) (row : PrefixRow) (byte0 : UInt8) (body : List UInt8) : Prop where
  found : row? byte0.toNat = some row
  length : body.length + 1 = row.bytes
  bytes : load d.buf_ d.next_ row.bytes = byte0 :: body
  inside : d.next_ + row.bytes ≤ d.end_
  end_le : d.end_ ≤ kBufSize

variable {row : PrefixRow} {byte0 : UInt8} {body : List UInt8} {machine : Machine}

theorem object?_eq_some {object : List UInt8}
    (h : object? rest = some (row, object)) :
    ∃ byte0 body, row? byte0.toNat = some row ∧ body.length + 1 = row.bytes ∧
      object = byte0 :: body ∧ rest.take row.bytes = byte0 :: body ∧ row.bytes ≤ rest.length := by
  cases rest with
  | nil => cases h
  | cons byte0 rest =>
      obtain ⟨row', hrow, hif⟩ := Option.bind_eq_some_iff.mp h
      split at hif
      · rename_i hle
        cases hif
        obtain ⟨-, -, hpos, -⟩ := row_shape (row?_mem hrow)
        obtain ⟨k, hk⟩ := Nat.exists_eq_add_of_lt hpos
        grind
      · cases hif

theorem Reads.holds (h : d.Reads rest)
    (hrow : row? byte0.toNat = some row) (hlength : body.length + 1 = row.bytes)
    (htake : rest.take row.bytes = byte0 :: body) (hle : row.bytes ≤ d.end_ - d.next_) :
    d.Holds row byte0 body := by
  have hnext := h.next_le
  refine ⟨hrow, hlength, ?_, by omega, h.end_le⟩
  rw [(h.advance hle).1, htake]

theorem Holds.first (h : d.Holds row byte0 body) : d.buf_ d.next_ = byte0 ∧
      load d.buf_ (d.next_ + 1) (row.bytes - 1) = body := by
  have hbytes := h.bytes
  have hpos : row.bytes = row.bytes - 1 + 1 := by
    have := h.length
    omega
  grind [load_succ]

theorem Holds.tables (h : d.Holds row byte0 body) (is_signed : Bool) :
    d.objectLength byte0.toNat = .ok row.bytes ∧
      firstData is_signed byte0.toNat = .ofInt 64 (row.first is_signed byte0.toNat) := by
  obtain ⟨hlen, hfirst⟩ := tables_agree byte0.toNat_lt h.found
  grind [objectLength, firstData, h.inside]

theorem decodeBig_eq (h : d.Holds row byte0 body) (is_signed : Bool) :
    d.decodeBig is_signed =
      .ok ({ d with next_ := d.next_ + row.bytes }, row.number is_signed (byte0 :: body)) := by
  obtain ⟨hbyte0, hbody⟩ := h.first
  obtain ⟨hlen, hfirst⟩ := h.tables is_signed
  unfold decodeBig
  rw [hbyte0]
  refine Run.bind_eq_ok.mpr ⟨_, hlen, ?_⟩
  rw [hbody, hfirst, foldl_shifted, ← row.number_eq (row?_mem h.found) is_signed _ h.length]
  rfl

/-- What a load of 64 bits sees of the buffer, and some bytes behind it. -/
theorem load64_eq (machine : Machine) (d : Decoder) (off : Nat) {k : Nat} (hk : k ≤ 8)
    (hin : off + k ≤ kBufSize) :
    ∃ tail, tail.length = 8 - k ∧
      d.load64 machine off = .ofNat 64 (ofLE (load d.buf_ off k ++ tail)) := by
  unfold load64
  generalize hm : (fun a => if a < kBufSize then d.buf_ a else machine.behind d a) = m
  have hfront : load m off k = load d.buf_ off k := by
    apply List.map_congr_left
    grind
  refine ⟨load m (off + k) (8 - k), load_length _ _ _, ?_⟩
  have hsum : k + (8 - k) = 8 := by omega
  rw [← hfront, ← load_add, hsum, loadLE]

theorem bswap64_load64 (hswaps : machine.Swaps) (d : Decoder) (off : Nat) {k : Nat}
    (hk : k ≤ 8) (hin : off + k ≤ kBufSize) :
    ∃ tail, tail.length = 8 - k ∧
      machine.bswap64 (d.load64 machine off) = .ofNat 64 (ofBE (load d.buf_ off k ++ tail)) := by
  obtain ⟨tail, hlength, heq⟩ := load64_eq machine d off hk hin
  refine ⟨tail, hlength, ?_⟩
  rw [heq, hswaps]
  rw [List.length_append, load_length]
  omega

theorem load64_byte0 (h : d.Holds row byte0 body) :
    ((d.load64 machine d.next_).setWidth 8).toNat = byte0.toNat := by
  have hin := h.inside
  have hend := h.end_le
  have hlength := h.length
  obtain ⟨tail, -, heq⟩ := load64_eq machine d d.next_ (k := 1) (by omega) (by omega)
  have hone : load d.buf_ d.next_ 1 = [byte0] := by
    rw [load_succ, h.first.1]
    rfl
  have hbyte := byte0.toNat_lt
  rw [heq, hone, BitVec.toNat_setWidth, BitVec.toNat_ofNat]
  show (byte0.toNat + 256 * ofLE tail) % 2 ^ 64 % 2 ^ 8 = byte0.toNat
  omega

theorem decodeLittle_eq (hswaps : machine.Swaps) (h : d.Holds row byte0 body) (is_signed : Bool) :
    d.decodeLittle machine is_signed =
      .ok ({ d with next_ := d.next_ + row.bytes }, row.number is_signed (byte0 :: body)) := by
  obtain ⟨hbyte0, hbody⟩ := h.first
  obtain ⟨hlen, hfirst⟩ := h.tables is_signed
  have hin := h.inside
  have hend := h.end_le
  have hnumber := row.number_eq (row?_mem h.found) is_signed byte0 h.length
  have hmasked : ∀ k, k + 1 = row.bytes → k ≤ 7 →
      firstData is_signed byte0.toNat <<< (8 * k) |||
        (machine.bswap64 (d.load64 machine d.next_) >>> (8 * (7 - k)) &&&
          BitVec.ofNat 64 (2 ^ (8 * k) - 1)) = row.number is_signed (byte0 :: body) := by
    intro k hk hshort
    have hlength := h.length
    obtain rfl : body.length = k := by omega
    obtain ⟨tail, htail, hswap⟩ := bswap64_load64 hswaps d d.next_ (k := row.bytes)
      (by omega) (by omega)
    have htail' : tail.length = 7 - body.length := by omega
    grind [h.bytes, masked_shifted]
  have hwhole : row.bytes = 9 → row.width = 8 →
      machine.bswap64 (d.load64 machine (d.next_ + 1)) = row.number is_signed (byte0 :: body) := by
    intro hbytes hwidth
    obtain ⟨tail, htail, hswap⟩ := bswap64_load64 hswaps d (d.next_ + 1) (k := 8)
      (by omega) (by omega)
    obtain rfl : tail = [] := List.eq_nil_of_length_eq_zero htail
    have hzero : row.first is_signed byte0.toNat = 0 := by simp [PrefixRow.first, hwidth]
    rw [hbytes] at hbody
    rw [hswap, List.append_nil, hbody, hnumber, hzero, shifted, Int.zero_mul, Int.zero_add,
      BitVec.ofInt_natCast]
  unfold decodeLittle
  dsimp only
  rw [load64_byte0 h]
  refine Run.bind_eq_ok.mpr ⟨_, hlen, ?_⟩
  refine congrArg (fun n => Except.ok (_, n)) ?_
  have hrow := row?_mem h.found
  simp only [prefixTable, List.mem_cons, List.not_mem_nil, or_false] at hrow
  obtain rfl | rfl | rfl | rfl | rfl | rfl | rfl := hrow
  · grind
  · exact hmasked 1 rfl (by decide)
  · exact hmasked 2 rfl (by decide)
  · exact hmasked 3 rfl (by decide)
  · exact hmasked 4 rfl (by decide)
  · exact hmasked 5 rfl (by decide)
  · exact hwhole rfl rfl

theorem decode_spec (hswaps : machine.Swaps) (order : ByteOrder)
    (h : d.Reads rest) {object : List UInt8}
    (hobject : object? rest = some (row, object)) (is_signed : Bool) :
    ∃ d', d.Decode order machine is_signed = .ok (d', row.number is_signed object) ∧
      d'.Reads (rest.drop row.bytes) := by
  obtain ⟨byte0, body, hrow, hlength, rfl, htake, hle⟩ := object?_eq_some hobject
  obtain ⟨d₁, hfill, h₁, hspace⟩ := fillBelow_spec h (Nat.le_refl kDecodingSpace)
  have hbytes : row.bytes ≤ kDecodingSpace := by
    obtain ⟨hwidth, hbits, -, hdata⟩ := row_shape (row?_mem hrow)
    show row.bytes ≤ 9
    omega
  have hin : row.bytes ≤ d₁.end_ - d₁.next_ := by omega
  have hholds := h₁.holds hrow hlength htake hin
  refine ⟨_, Run.bind_eq_ok.mpr ⟨d₁, hfill, ?_⟩, (h₁.advance hin).2⟩
  grind [decodeBig_eq, decodeLittle_eq]

end Decoder

/-! ## Sequences of calls -/

inductive Call
  | Decode (is_signed : Bool)
  | Read (len : Int)

/-- What a call returns, or copies to `dest`. -/
inductive Result
  | value (val64 : BitVec 64)
  | bytes (dest : List UInt8)
  deriving DecidableEq

def Decoder.call (order : ByteOrder) (machine : Machine) (d : Decoder) :
    Call → Except DecoderFault (Decoder × Result)
  | .Decode is_signed => (d.Decode order machine is_signed).map fun r => (r.1, .value r.2)
  | .Read len => (d.Read len).map fun r => (r.1, .bytes r.2)

def Decoder.calls (order : ByteOrder) (machine : Machine) (d : Decoder) :
    List Call → Except DecoderFault (Decoder × List Result)
  | [] => .ok (d, [])
  | c :: cs => do
      let (d, result) ← d.call order machine c
      let (d, results) ← d.calls order machine cs
      return (d, result :: results)

/-- What the call should give at a position of the file, behind which the bytes `rest` are, and
what is left then; nothing, where its object does not lie inside the file. -/
def Call.expected (rest : List UInt8) : Call → Option (Result × List UInt8)
  | .Decode is_signed =>
      (object? rest).map fun o => (.value (o.1.number is_signed o.2), rest.drop o.1.bytes)
  | .Read len =>
      if len ≤ rest.length then some (.bytes (rest.take len.toNat), rest.drop len.toNat) else none

def expected (rest : List UInt8) : List Call → Option (List Result × List UInt8)
  | [] => some ([], rest)
  | c :: cs => do
      let (result, rest) ← c.expected rest
      let (results, rest) ← expected rest cs
      return (result :: results, rest)

theorem Decoder.call_spec {machine : Machine} (hswaps : machine.Swaps) (order : ByteOrder)
    {d : Decoder} {rest rest' : List UInt8} (h : d.Reads rest) {c : Call} {result : Result}
    (hexpected : c.expected rest = some (result, rest')) :
    ∃ d', d.call order machine c = .ok (d', result) ∧ d'.Reads rest' := by
  cases c with
  | Decode is_signed =>
      obtain ⟨⟨row, object⟩, hobject, heq⟩ := Option.map_eq_some_iff.mp hexpected
      cases heq
      obtain ⟨d', hdecode, h'⟩ := decode_spec hswaps order h hobject is_signed
      exact ⟨d', Run.map_eq_ok.mpr ⟨_, hdecode, rfl⟩, h'⟩
  | Read len =>
      rw [Call.expected] at hexpected
      split at hexpected
      · cases hexpected
        obtain ⟨d', hread, h'⟩ := readBytes_spec h len.toNat
        exact ⟨d', Run.map_eq_ok.mpr ⟨_, hread, rfl⟩, h'⟩
      · cases hexpected

/-- Every sequence of calls whose objects lie inside the file gives what they should, in either
byte order. -/
theorem Decoder.calls_spec {machine : Machine} (hswaps : machine.Swaps) {d : Decoder}
    {rest rest' : List UInt8} (h : d.Reads rest) {cs : List Call} {results : List Result}
    (hexpected : expected rest cs = some (results, rest')) (order : ByteOrder) :
    ∃ d', d.calls order machine cs = .ok (d', results) ∧ d'.Reads rest' := by
  induction cs generalizing d rest results with
  | nil =>
      cases hexpected
      exact ⟨d, rfl, h⟩
  | cons c cs ih =>
      obtain ⟨⟨result, rest₁⟩, hc, hexpected⟩ := Option.bind_eq_some_iff.mp hexpected
      obtain ⟨⟨results₁, rest₂⟩, hcs, heq⟩ := Option.bind_eq_some_iff.mp hexpected
      cases heq
      obtain ⟨d₁, hcall, h₁⟩ := d.call_spec hswaps order h hc
      obtain ⟨d₂, hcalls, h₂⟩ := ih h₁ hcs
      exact ⟨d₂, Run.bind_eq_ok.mpr ⟨_, hcall, Run.bind_eq_ok.mpr ⟨_, hcalls, rfl⟩⟩, h₂⟩

/-- From the opening of the file on. -/
theorem decoder_expected {machine : Machine} (hswaps : machine.Swaps) (m : Mem)
    {file rest : List UInt8} {cs : List Call} {results : List Result}
    (hexpected : expected file cs = some (results, rest)) (order : ByteOrder) :
    ∃ d, (Decoder.Open m file).calls order machine cs = .ok (d, results) ∧ d.Reads rest :=
  Decoder.calls_spec hswaps (Decoder.open_reads m file) hexpected order

def onesBehind : Machine where
  bswap64 data := .ofNat 64 (ofBE (leBytes 8 data.toNat))
  behind _ _ := 0xff

theorem onesBehind_swaps : onesBehind.Swaps := by
  intro bytes hlength
  have hlt := ofLE_lt bytes
  rw [hlength] at hlt
  show BitVec.ofNat 64 (ofBE (leBytes 8 (BitVec.ofNat 64 (ofLE bytes)).toNat)) = _
  rw [BitVec.toNat_ofNat, Nat.mod_eq_of_lt (by omega), ← hlength, leBytes_ofLE]

/-- Objects of one, two and nine bytes, and raw bytes between them. -/
theorem decoder_expected_objects :
    ∃ d, (Decoder.Open (fun _ => 0)
        [0x7f, 0xbf, 0xfe, 1, 2, 0xfc, 0, 0, 0, 0, 0, 0, 1, 2]).calls .LITTLE_ENDIAN onesBehind
        [.Decode false, .Decode true, .Read 2, .Decode true] =
          .ok (d, [.value 127, .value (-2), .bytes [1, 2], .value 258]) ∧ d.Reads [] :=
  decoder_expected onesBehind_swaps _ (by decide) .LITTLE_ENDIAN

end AndroidRenderer.Qtools
