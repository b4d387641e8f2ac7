import AndroidRenderer.Translator.Conversions

/-!
# Converted copies of vertex arrays

Arrays of `GL_FIXED` in client memory, and arrays of `GL_BYTE` anywhere, are converted into new
arrays of `GLfloat`s and `GLshort`s, which the driver reads in their place. `convertDirect` does
it for `glDrawArrays` and `convertIndirect` for `glDrawElements`.

`x2f` stands for `X2F`, from the bits of a `GLfixed` to those of a `GLfloat`. Addresses are those
of the memory that the array lies in.
-/

namespace AndroidRenderer.Translator

open LittleEndian

/-- `X2F`: the bits of the `float` nearest to the `int`, ties to even, with an exponent that is 16
less. -/
def X2F (fixed : UInt32) : UInt32 :=
  let negative := decide (2 ^ 31 ≤ fixed.toNat)
  let magnitude := if negative then 2 ^ 32 - fixed.toNat else fixed.toNat
  let exponent := Nat.log2 magnitude
  let unit := 2 ^ (exponent - 23)
  let floor := magnitude * 2 ^ (23 - exponent) / unit
  let rest := magnitude * 2 ^ (23 - exponent) % unit
  let significand :=
    if unit < 2 * rest ∨ unit = 2 * rest ∧ floor % 2 = 1 then floor + 1 else floor
  if magnitude = 0 then 0
  else
    UInt32.ofNat ((if negative then 2 ^ 31 else 0) + (exponent + 111) * 2 ^ 23 +
      (significand - 2 ^ 23))

example : [X2F 0x10000, X2F 0xFFFF8000, X2F 0x7FFFFFFF, X2F 3] =
    [0x3F800000, 0xBF000000, 0x47000000, 0x38400000] := by decide +kernel

/-- An element of a new array. -/
inductive Component
  | GLfloat (bits : UInt32)
  | GLshort (value : Int16)
  deriving DecidableEq, Repr

/-- An array that is converted to a copy; `data` is `getArrayData()`. The pointer functions check
the size and that the stride is not negative. -/
structure ConvertedPointer where
  data : Int
  size : Nat
  type : GLenum
  stride : Nat
  size_pos : 0 < size
  size_le : size ≤ 4
  type_eq : type = GL_FIXED ∨ type = GL_BYTE
  stride_lt : stride < 2 ^ 31

namespace ConvertedPointer

theorem packed_type_eq : GL_FIXED = GL_FIXED ∨ GL_FIXED = GL_BYTE := .inl rfl

theorem packed_stride_lt : 0 < 2147483648 := by decide

/-- Vectors of `GLfixed`s, one behind the other. -/
def packedFixed (size : Nat) (size_pos : 0 < size) (size_le : size ≤ 4) : ConvertedPointer :=
  ⟨0x1000, size, GL_FIXED, 0, size_pos, size_le, packed_type_eq, packed_stride_lt⟩

/-- `bytes`, of one component. -/
def bytes (p : ConvertedPointer) : Nat := if p.type = GL_FIXED then 4 else 1

/-- `sizeof(GLfloat)` or `sizeof(GLshort)`. -/
def outBytes (p : ConvertedPointer) : Nat := if p.type = GL_FIXED then 4 else 2

/-- `stride` of the functions below. -/
def byteStride (p : ConvertedPointer) : Nat := if p.stride = 0 then p.bytes * p.size else p.stride

def strideOut (p : ConvertedPointer) : Nat := p.size * p.outBytes

/-- The address of an element, where the application has placed it. -/
def element (p : ConvertedPointer) (e : Nat) : Int := p.data + e * p.byteStride

/-- `X2F` of the `GLfixed` at an address, or `B2S` of the `GLbyte`. -/
def component (x2f : UInt32 → UInt32) (mem : Int → UInt8) (p : ConvertedPointer) (addr : Int) :
    Component :=
  if p.type = GL_FIXED then
    .GLfloat (x2f (UInt32.ofNat (ofLE ((List.range 4).map fun i : Nat => mem (addr + i)))))
  else .GLshort (mem addr).toInt8.toInt16

/-- The components of the element at an address. -/
def attrib (x2f : UInt32 → UInt32) (mem : Int → UInt8) (p : ConvertedPointer) (addr : Int) :
    List Component :=
  (List.range p.size).map fun j : Nat => p.component x2f mem (addr + j * p.bytes)

/-- `allocArr`, where `junk` is what the new array holds. -/
def allocArr (junk : Nat → Component) (size : Nat) : List Component := (List.range size).map junk

end ConvertedPointer

section Conversion

variable (x2f : UInt32 → UInt32) (mem : Int → UInt8) (p : ConvertedPointer)

/-- `convertFixedDirectLoop` and `convertByteDirectLoop`, with the addresses of the elements that
they read. -/
def convertDirectLoop (nBytes : Nat) : Nat → Nat → Int → List Component →
    Except BufferFault (List Component × List Int)
  | 0, _, _, _ => .error .endless
  | fuel + 1, i, dataIn, dataOut =>
      if i < nBytes then
        match Buffer.store? dataOut (i / p.outBytes) (p.attrib x2f mem dataIn) with
        | none => .error .outOfBounds
        | some dataOut =>
            (convertDirectLoop nBytes fuel ((i + p.strideOut) % 2 ^ 32) (dataIn + p.byteStride)
              dataOut).map fun r => (r.1, dataIn :: r.2)
      else .ok (dataOut, [])

/-- `convertDirect`; the sizes are `unsigned int`s. -/
def convertDirect (junk : Nat → Component) (first count fuel : Nat) :
    Except BufferFault (List Component × List Int) :=
  let size := (p.size * count + first) % 2 ^ 32
  convertDirectLoop x2f mem p (size * p.outBytes % 2 ^ 32) fuel 0
    (p.data + GLint (first * p.byteStride)) (ConvertedPointer.allocArr junk size)

def findMaxIndex (count : Nat) (type : GLenum) (indices : Mem) : Nat :=
  (List.range count).foldl (fun max i =>
    let index := if type = GL_UNSIGNED_BYTE then loadLE indices i 1 else loadLE indices (2 * i) 2
    if max < index then index else max) 0

def conversionIndex (indices_type : GLenum) (indices : Mem) (i : Nat) : Nat :=
  if indices_type = GL_UNSIGNED_BYTE then loadLE indices i 1 else loadLE indices (2 * i) 2

/-- `convertFixedIndirectLoop` and `convertByteIndirectLoop` into a new array, with the addresses
of the elements that they read. The product with the stride is unsigned. -/
def convertIndirectLoop (count : Nat) (indices_type : GLenum) (indices : Mem)
    (dataOut : List Component) : Except BufferFault (List Component × List Int) :=
  let addresses := (List.range count).map fun i =>
    p.data + (conversionIndex indices_type indices i * p.byteStride % 2 ^ 32 : Nat)
  match Buffer.storeAll? dataOut ((List.range count).map fun i =>
      (conversionIndex indices_type indices i * p.strideOut % 2 ^ 32 / p.outBytes,
        p.attrib x2f mem
          (p.data + (conversionIndex indices_type indices i * p.byteStride % 2 ^ 32 : Nat)))) with
  | none => .error .outOfBounds
  | some dataOut => .ok (dataOut, addresses)

/-- `convertIndirect`. The index type of the new array's size is the type of the array. -/
def convertIndirect (junk : Nat → Component) (count : Nat) (indices_type : GLenum)
    (indices : Mem) : Except BufferFault (List Component × List Int) :=
  let maxElements := findMaxIndex count p.type indices + 1
  convertIndirectLoop x2f mem p count indices_type indices
    (ConvertedPointer.allocArr junk (p.size * maxElements))

end Conversion

end AndroidRenderer.Translator
