import AndroidRenderer.Lib.BigEndian
import AndroidRenderer.Lib.Run

/-!
# Decoder of trace files

Trace files consist of raw bytes and of objects whose first byte tells their length. `Decoder`
reads both through a buffer. An `int64_t` is its 64 bits. The addresses of `buf_` behind its
`kBufSize` bytes are those of the members behind it, of which a wide load may see some; what they
hold, and `bswap64`, are parameters. The file is read without errors.
-/

namespace AndroidRenderer.Qtools

open LittleEndian

def kBufSize : Nat := 4096
def kDecodingSpace : Nat := 9

/-- From the initial byte of an object to its length. -/
def prefix_to_len : List Nat := [
    1, 1, 1, 1, 1, 1, 1, 1, 1, 1, 1, 1, 1, 1, 1, 1,
    1, 1, 1, 1, 1, 1, 1, 1, 1, 1, 1, 1, 1, 1, 1, 1,
    1, 1, 1, 1, 1, 1, 1, 1, 1, 1, 1, 1, 1, 1, 1, 1,
    1, 1, 1, 1, 1, 1, 1, 1, 1, 1, 1, 1, 1, 1, 1, 1,
    1, 1, 1, 1, 1, 1, 1, 1, 1, 1, 1, 1, 1, 1, 1, 1,
    1, 1, 1, 1, 1, 1, 1, 1, 1, 1, 1, 1, 1, 1, 1, 1,
    1, 1, 1, 1, 1, 1, 1, 1, 1, 1, 1, 1, 1, 1, 1, 1,
    1, 1, 1, 1, 1, 1, 1, 1, 1, 1, 1, 1, 1, 1, 1, 1,
    2, 2, 2, 2, 2, 2, 2, 2, 2, 2, 2, 2, 2, 2, 2, 2,
    2, 2, 2, 2, 2, 2, 2, 2, 2, 2, 2, 2, 2, 2, 2, 2,
    2, 2, 2, 2, 2, 2, 2, 2, 2, 2, 2, 2, 2, 2, 2, 2,
    2, 2, 2, 2, 2, 2, 2, 2, 2, 2, 2, 2, 2, 2, 2, 2,
    3, 3, 3, 3, 3, 3, 3, 3, 3, 3, 3, 3, 3, 3, 3, 3,
    3, 3, 3, 3, 3, 3, 3, 3, 3, 3, 3, 3, 3, 3, 3, 3,
    4, 4, 4, 4, 4, 4, 4, 4, 4, 4, 4, 4, 4, 4, 4, 4,
    5, 5, 5, 5, 5, 5, 5, 5, 6, 6, 6, 6, 9, 9, 17, 17]

/-- From the initial byte of an object to its initial data bits. -/
def prefix_to_data : List Int := [
    0, 1, 2, 3, 4, 5, 6, 7, 8, 9, 10, 11, 12, 13, 14, 15,
    16, 17, 18, 19, 20, 21, 22, 23, 24, 25, 26, 27, 28, 29, 30, 31,
    32, 33, 34, 35, 36, 37, 38, 39, 40, 41, 42, 43, 44, 45, 46, 47,
    48, 49, 50, 51, 52, 53, 54, 55, 56, 57, 58, 59, 60, 61, 62, 63,
    64, 65, 66, 67, 68, 69, 70, 71, 72, 73, 74, 75, 76, 77, 78, 79,
    80, 81, 82, 83, 84, 85, 86, 87, 88, 89, 90, 91, 92, 93, 94, 95,
    96, 97, 98, 99, 100, 101, 102, 103, 104, 105, 106, 107, 108, 109, 110, 111,
    112, 113, 114, 115, 116, 117, 118, 119, 120, 121, 122, 123, 124, 125, 126, 127,
    0, 1, 2, 3, 4, 5, 6, 7, 8, 9, 10, 11, 12, 13, 14, 15,
    16, 17, 18, 19, 20, 21, 22, 23, 24, 25, 26, 27, 28, 29, 30, 31,
    32, 33, 34, 35, 36, 37, 38, 39, 40, 41, 42, 43, 44, 45, 46, 47,
    48, 49, 50, 51, 52, 53, 54, 55, 56, 57, 58, 59, 60, 61, 62, 63,
    0, 1, 2, 3, 4, 5, 6, 7, 8, 9, 10, 11, 12, 13, 14, 15,
    16, 17, 18, 19, 20, 21, 22, 23, 24, 25, 26, 27, 28, 29, 30, 31,
    0, 1, 2, 3, 4, 5, 6, 7, 8, 9, 10, 11, 12, 13, 14, 15,
    0, 1, 2, 3, 4, 5, 6, 7, 0, 1, 2, 3, 0, 0, 0, 0]

/-- The entries as they are written; they are converted to `signed char`. -/
def signedDataBytes : List Int := [
    0x00, 0x01, 0x02, 0x03, 0x04, 0x05, 0x06, 0x07,
    0x08, 0x09, 0x0a, 0x0b, 0x0c, 0x0d, 0x0e, 0x0f,
    0x10, 0x11, 0x12, 0x13, 0x14, 0x15, 0x16, 0x17,
    0x18, 0x19, 0x1a, 0x1b, 0x1c, 0x1d, 0x1e, 0x1f,
    0x20, 0x21, 0x22, 0x23, 0x24, 0x25, 0x26, 0x27,
    0x28, 0x29, 0x2a, 0x2b, 0x2c, 0x2d, 0x2e, 0x2f,
    0x30, 0x31, 0x32, 0x33, 0x34, 0x35, 0x36, 0x37,
    0x38, 0x39, 0x3a, 0x3b, 0x3c, 0x3d, 0x3e, 0x3f,
    0xc0, 0xc1, 0xc2, 0xc3, 0xc4, 0xc5, 0xc6, 0xc7,
    0xc8, 0xc9, 0xca, 0xcb, 0xcc, 0xcd, 0xce, 0xcf,
    0xd0, 0xd1, 0xd2, 0xd3, 0xd4, 0xd5, 0xd6, 0xd7,
    0xd8, 0xd9, 0xda, 0xdb, 0xdc, 0xdd, 0xde, 0xdf,
    0xe0, 0xe1, 0xe2, 0xe3, 0xe4, 0xe5, 0xe6, 0xe7,
    0xe8, 0xe9, 0xea, 0xeb, 0xec, 0xed, 0xee, 0xef,
    0xf0, 0xf1, 0xf2, 0xf3, 0xf4, 0xf5, 0xf6, 0xf7,
    0xf8, 0xf9, 0xfa, 0xfb, 0xfc, 0xfd, 0xfe, 0xff,
    0x00, 0x01, 0x02, 0x03, 0x04, 0x05, 0x06, 0x07,
    0x08, 0x09, 0x0a, 0x0b, 0x0c, 0x0d, 0x0e, 0x0f,
    0x10, 0x11, 0x12, 0x13, 0x14, 0x15, 0x16, 0x17,
    0x18, 0x19, 0x1a, 0x1b, 0x1c, 0x1d, 0x1e, 0x1f,
    0xe0, 0xe1, 0xe2, 0xe3, 0xe4, 0xe5, 0xe6, 0xe7,
    0xe8, 0xe9, 0xea, 0xeb, 0xec, 0xed, 0xee, 0xef,
    0xf0, 0xf1, 0xf2, 0xf3, 0xf4, 0xf5, 0xf6, 0xf7,
    0xf8, 0xf9, 0xfa, 0xfb, 0xfc, 0xfd, 0xfe, 0xff,
    0x00, 0x01, 0x02, 0x03, 0x04, 0x05, 0x06, 0x07,
    0x08, 0x09, 0x0a, 0x0b, 0x0c, 0x0d, 0x0e, 0x0f,
    0xf0, 0xf1, 0xf2, 0xf3, 0xf4, 0xf5, 0xf6, 0xf7,
    0xf8, 0xf9, 0xfa, 0xfb, 0xfc, 0xfd, 0xfe, 0xff,
    0x00, 0x01, 0x02, 0x03, 0x04, 0x05, 0x06, 0x07,
    0xf8, 0xf9, 0xfa, 0xfb, 0xfc, 0xfd, 0xfe, 0xff,
    0x00, 0x01, 0x02, 0x03, 0xfc, 0xfd, 0xfe, 0xff,
    0x00, 0x01, 0xfe, 0xff, 0x00, 0xff, 0x00, 0xff]

def prefix_to_signed_data : List Int :=
  signedDataBytes.map fun n => if n < 0x80 then n else n - 0x100

/-- How the decoder ends the program. -/
inductive DecoderFault
  | assertFailed
  | pastEnd
  deriving DecidableEq, Repr

/-- `next_` and `end_` are offsets in `buf_`; `fstream_` has the bytes that are not read yet. -/
structure Decoder where
  fstream_ : List UInt8
  buf_ : Mem
  next_ : Nat
  end_ : Nat

inductive ByteOrder
  | BIG_ENDIAN
  | LITTLE_ENDIAN
  deriving DecidableEq, Repr

/-- What is not in the sources of the decoder: the function that swaps the bytes of a word, and
the memory behind the buffer of a decoder. -/
structure Machine where
  bswap64 : BitVec 64 → BitVec 64
  behind : Decoder → Mem

/-- `fread` to `off` of the buffer `m`: the buffer, and how many bytes were read. -/
def fread (m : Mem) (off nbytes : Nat) (fstream : List UInt8) : Mem × Nat :=
  (store m off (fstream.take nbytes), (fstream.take nbytes).length)

namespace Decoder

/-- `m` is what the buffer holds before. -/
def Open (m : Mem) (file : List UInt8) : Decoder :=
  let (buf_, rval) := fread m 0 kBufSize file
  { fstream_ := file.drop kBufSize, buf_, next_ := 0, end_ := rval }

def FillBuffer (d : Decoder) : Except DecoderFault Decoder :=
  if d.end_ < d.next_ then .error .assertFailed
  else if d.end_ - d.next_ < kDecodingSpace ∧ d.end_ = kBufSize then
    let len := d.end_ - d.next_
    let buf_ := if 0 < len then store d.buf_ 0 (load d.buf_ d.next_ len) else d.buf_
    let nbytes := kBufSize - len
    let (buf_, rval) := fread buf_ len nbytes d.fstream_
    .ok { fstream_ := d.fstream_.drop nbytes, buf_, next_ := 0, end_ := len + rval }
  else .ok d

/-- `FillBuffer` is called when fewer than `space` bytes are left: in `Read` when there are none. -/
def fillBelow (d : Decoder) (space : Nat) : Except DecoderFault Decoder :=
  if d.end_ - d.next_ < space then d.FillBuffer else .ok d

/-- The loop of `Read`, with what is copied to `dest`. -/
def readBytes (d : Decoder) (len : Nat) : Except DecoderFault (Decoder × List UInt8) :=
  if 0 < len then do
    let d ← d.fillBelow 1
    let nbytes := d.end_ - d.next_
    if _hnone : nbytes = 0 then return (d, [])
    else
      let nbytes := if nbytes > len then len else nbytes
      let (d', bytes) ← readBytes { d with next_ := d.next_ + nbytes } (len - nbytes)
      return (d', load d.buf_ d.next_ nbytes ++ bytes)
  else .ok (d, [])
termination_by len
decreasing_by
  split <;> omega

def Read (d : Decoder) (len : Int) : Except DecoderFault (Decoder × List UInt8) :=
  d.readBytes len.toNat

def firstData (is_signed : Bool) (byte0 : Nat) : BitVec 64 :=
  .ofInt 64 (if is_signed then prefix_to_signed_data[byte0]?.getD 0
    else prefix_to_data[byte0]?.getD 0)

/-- The length of the object at `next_`, unless the file ends before it does. -/
def objectLength (d : Decoder) (byte0 : Nat) : Except DecoderFault Nat :=
  let len := prefix_to_len[byte0]?.getD 0
  if d.end_ < d.next_ + len then .error .pastEnd else .ok len

/-- `Decode` on a big-endian machine, behind the call of `FillBuffer`. -/
def decodeBig (d : Decoder) (is_signed : Bool) : Except DecoderFault (Decoder × BitVec 64) := do
  let byte0 := (d.buf_ d.next_).toNat
  let len ← d.objectLength byte0
  let val64 := (load d.buf_ (d.next_ + 1) (len - 1)).foldl
    (fun (val64 : BitVec 64) (byte : UInt8) => val64 <<< 8 ||| BitVec.ofNat 64 byte.toNat)
    (firstData is_signed byte0)
  return ({ d with next_ := d.next_ + len }, val64)

/-- A load of 64 bits at `off` of the buffer. -/
def load64 (machine : Machine) (d : Decoder) (off : Nat) : BitVec 64 :=
  .ofNat 64 (loadLE (fun a => if a < kBufSize then d.buf_ a else machine.behind d a) off 8)

/-- `Decode` on a little-endian machine, behind the call of `FillBuffer`. -/
def decodeLittle (machine : Machine) (d : Decoder) (is_signed : Bool) :
    Except DecoderFault (Decoder × BitVec 64) := do
  let data := d.load64 machine d.next_
  let byte0 := (data.setWidth 8).toNat
  let data := machine.bswap64 data
  let len ← d.objectLength byte0
  let val64 := firstData is_signed byte0
  let val64 :=
    match len with
    | 2 => val64 <<< 8 ||| (data >>> 48 &&& 0xff)
    | 3 => val64 <<< 16 ||| (data >>> 40 &&& 0xffff)
    | 4 => val64 <<< 24 ||| (data >>> 32 &&& 0xffffff)
    | 5 => val64 <<< 32 ||| (data >>> 24 &&& 0xffffffff)
    | 6 => val64 <<< 40 ||| (data >>> 16 &&& 0xffffffffff)
    | 9 => machine.bswap64 (d.load64 machine (d.next_ + 1))
    | _ => val64
  return ({ d with next_ := d.next_ + len }, val64)

def Decode (order : ByteOrder) (machine : Machine) (d : Decoder) (is_signed : Bool) :
    Except DecoderFault (Decoder × BitVec 64) := do
  let d ← d.fillBelow kDecodingSpace
  match order with
  | .BIG_ENDIAN => d.decodeBig is_signed
  | .LITTLE_ENDIAN => d.decodeLittle machine is_signed

end Decoder

end AndroidRenderer.Qtools
