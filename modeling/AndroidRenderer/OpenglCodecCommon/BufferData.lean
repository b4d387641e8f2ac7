import AndroidRenderer.Lib.Buffer
import AndroidRenderer.Lib.KeyedVector
import AndroidRenderer.OpenglCodecCommon.GLUtils

/-!
# The guest's copies of buffer objects

`GLSharedGroup` keeps a copy of the contents of every buffer object, because the indices of
a draw call may have to be read from it. A byte that was never written is `none`.
-/

namespace AndroidRenderer

abbrev ClientMemory := UInt32 → UInt8

inductive EncoderFault
  | uninitialised
  | nullPointer
  | outOfBounds
  deriving DecidableEq, Repr

/-- The bytes at a pointer, none if it is `NULL`. -/
def bytesAt (mem : ClientMemory) (data : UInt32) (size : Int) : Option (List UInt8) :=
  if data = 0 then none
  else some ((List.range size.toNat).map fun i => mem (data + UInt32.ofNat i))

structure BufferData where
  size : Int
  fixedBuffer : List (Option UInt8)
  deriving DecidableEq, Repr

/-- The contents of a buffer object that is filled with some data, or with nothing. -/
def contentsOf (size : Int) : Option (List UInt8) → List (Option UInt8)
  | some data => data.map some
  | none => List.replicate size.toNat none

@[simp] theorem length_contentsOf (mem : ClientMemory) (data : UInt32) (size : Int) :
    (contentsOf size (bytesAt mem data size)).length = size.toNat := by
  unfold bytesAt
  split <;> simp [contentsOf]

theorem length_of_bytesAt {mem : ClientMemory} {data : UInt32} {size : Int} {bytes : List UInt8}
    (h : bytesAt mem data size = some bytes) : bytes.length = size.toNat := by
  unfold bytesAt at h
  grind

/-- `BufferData(size, data)` -/
def BufferData.new (size : Int) (data : Option (List UInt8)) : BufferData :=
  ⟨size, contentsOf size data⟩

abbrev SharedBuffers := KeyedVector GLuint BufferData

namespace SharedBuffers

def updateBufferData (m_buffers : SharedBuffers) (bufferId : GLuint) (size : Int)
    (data : Option (List UInt8)) : SharedBuffers :=
  m_buffers.add bufferId (.new size data)

/-- `subUpdateBufferData`. The sum of offset and size is an `int`. -/
def subUpdateBufferData (m_buffers : SharedBuffers) (bufferId : GLuint) (offset size : Int)
    (data : Option (List UInt8)) : Except EncoderFault (SharedBuffers × GLenum) :=
  match m_buffers.get? bufferId with
  | none => .ok (m_buffers, GL_INVALID_VALUE)
  | some buf =>
      if buf.size < GLint (offset + size) ∨ offset < 0 ∨ size < 0 then
        .ok (m_buffers, GL_INVALID_VALUE)
      else
        match data with
        | none => if size = 0 then .ok (m_buffers, GL_NO_ERROR) else .error .nullPointer
        | some data =>
            match Buffer.store? buf.fixedBuffer offset.toNat (data.map some) with
            | none => .error .outOfBounds
            | some contents =>
                .ok (m_buffers.add bufferId { buf with fixedBuffer := contents }, GL_NO_ERROR)

def deleteBufferData (m_buffers : SharedBuffers) (bufferId : GLuint) : SharedBuffers :=
  m_buffers.remove bufferId

end SharedBuffers

/-! ## Index arrays in memory -/

/-- Two bytes as an `unsigned short`. -/
def shortsOf : List UInt8 → List UInt16
  | a :: b :: bs => (a.toUInt16 + 256 * b.toUInt16) :: shortsOf bs
  | _ => []

def IndexArray.ofBytes (type : GLenum) (bs : List UInt8) : IndexArray :=
  if type = GL_BYTE ∨ type = GL_UNSIGNED_BYTE then .bytes bs
  else if type = GL_SHORT ∨ type = GL_UNSIGNED_SHORT then .shorts (shortsOf bs)
  else .other bs

/-- The index array at an address of the application. -/
def clientIndices (mem : ClientMemory) (type : GLenum) (indices : UInt32) (count : Int) :
    IndexArray :=
  .ofBytes type ((addresses indices (UInt32.ofInt count * glSizeof type)).map mem)

/-- The index array at an offset into a buffer object. -/
def BufferData.indices (buf : BufferData) (type : GLenum) (indices : UInt32) (count : Int) :
    Except EncoderFault IndexArray :=
  let len := (UInt32.ofInt count * glSizeof type).toNat
  let bytes := (buf.fixedBuffer.drop indices.toNat).take len
  if bytes.length < len then .error .outOfBounds
  else if bytes.all Option.isSome then .ok (.ofBytes type (bytes.map fun b => b.getD 0))
  else .error .uninitialised

end AndroidRenderer
