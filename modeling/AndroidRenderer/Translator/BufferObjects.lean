import AndroidRenderer.Lib.Registry
import AndroidRenderer.Translator.Conversions
import AndroidRenderer.Translator.NameSpace
import AndroidRenderer.Translator.Textures

/-!
# Buffer objects of a share group

A context binds buffer objects by their names, which the share group looks up with each use. A
vertex array that is set while a buffer is bound keeps the name and the address of the buffer
object. Draws read through that address.

What conversions do to the data of a buffer object is a parameter of the draws.
-/

namespace AndroidRenderer.Translator

def GL_STATIC_DRAW : GLenum := 0x88E4
def GL_BUFFER_SIZE : GLenum := 0x8764
def GL_BUFFER_USAGE : GLenum := 0x8765
def GL_HALF_FLOAT : GLenum := 0x140B

/-- A `GLESbuffer` with all its data. -/
structure BufferObject where
  buffer : GLESbuffer
  usage : GLenum
  wasBound : Bool

def BufferObject.new : BufferObject := ⟨.new, GL_STATIC_DRAW, false⟩

/-- A `GLESpointer` of a context, less the address of an array of the application's. `buffer` is
the number of a buffer object. -/
structure ArrayPointer where
  size : Int
  type : GLenum
  stride : Int
  enabled : Bool
  normalize : Bool
  buffer : Option Nat
  bufferName : GLuint
  buffOffset : GLuint
  isVBO : Bool

namespace ArrayPointer

/-- `GLESpointer::GLESpointer` -/
def new : ArrayPointer := ⟨4, GL_FLOAT, 0, false, false, none, 0, 0, false⟩

def setArray (p : ArrayPointer) (size : Int) (type : GLenum) (stride : Int) (normalize : Bool) :
    ArrayPointer :=
  { p with size, type, stride, normalize, buffer := none, bufferName := 0, isVBO := false }

def setBuffer (p : ArrayPointer) (size : Int) (type : GLenum) (stride : Int) (buf : Option Nat)
    (bufferName offset : GLuint) (normalize : Bool) : ArrayPointer :=
  { p with
    size, type, stride, normalize, bufferName, buffer := buf, buffOffset := offset, isVBO := true }

def enable (p : ArrayPointer) (b : Bool) : ArrayPointer := { p with enabled := b }

end ArrayPointer

/-- The vertex arrays of a context: GLES_V2 has `attribs` of them, and GLES_CM has four and one for
each of `units` texture units. -/
inductive ArrayId (attribs units : Nat)
  | vertexAttrib (index : Fin attribs)
  | vertex
  | normal
  | color
  | pointSize
  | texCoord (unit : Fin units)
  deriving DecidableEq

structure BufferContext (attribs units : Nat) where
  version : GLESVersion
  arrayBuffer : GLuint
  elementBuffer : GLuint
  pointers : ArrayId attribs units → ArrayPointer
  clientActiveTexture : Nat
  glError : GLenum

/-- The buffer objects of a share group, and its `k` contexts. -/
structure SharedBuffers (k attribs units : Nat) where
  names : ObjectNames Nat
  objects : Registry BufferObject
  contexts : Fin k → BufferContext attribs units

/-! ## Checks of arguments -/

def bufferTarget (target : GLenum) : Bool :=
  target = GL_ARRAY_BUFFER || target = GL_ELEMENT_ARRAY_BUFFER

def bufferParam (param : GLenum) : Bool := param = GL_BUFFER_SIZE || param = GL_BUFFER_USAGE

/-- `drawMode`: the modes from `GL_POINTS` to `GL_TRIANGLE_FAN`. -/
def drawMode (mode : GLenum) : Bool := mode ≤ 6

namespace BufferContext

variable {attribs units : Nat}

def new (version : GLESVersion) : BufferContext attribs units :=
  ⟨version, 0, 0, fun _ => .new, 0, GL_NO_ERROR⟩

def setGLerror (ctx : BufferContext attribs units) (error : GLenum) :
    BufferContext attribs units :=
  { ctx with glError := error }

def bindBuffer (ctx : BufferContext attribs units) (target : GLenum) (buffer : GLuint) :
    BufferContext attribs units :=
  if target = GL_ARRAY_BUFFER then { ctx with arrayBuffer := buffer }
  else { ctx with elementBuffer := buffer }

def unbindBuffer (ctx : BufferContext attribs units) (buffer : GLuint) :
    BufferContext attribs units :=
  { ctx with
    arrayBuffer := if ctx.arrayBuffer = buffer then 0 else ctx.arrayBuffer
    elementBuffer := if ctx.elementBuffer = buffer then 0 else ctx.elementBuffer }

def getBuffer (ctx : BufferContext attribs units) (target : GLenum) : GLuint :=
  if target = GL_ARRAY_BUFFER then ctx.arrayBuffer else ctx.elementBuffer

def isBindedBuffer (ctx : BufferContext attribs units) (target : GLenum) : Bool :=
  ctx.getBuffer target ≠ 0

def modifyPointer (ctx : BufferContext attribs units) (array : ArrayId attribs units)
    (f : ArrayPointer → ArrayPointer) : BufferContext attribs units :=
  { ctx with pointers := Function.update ctx.pointers array (f (ctx.pointers array)) }

/-- The array of the client's active texture, `m_map[GL_TEXTURE_COORD_ARRAY]`. -/
def texCoordArray (ctx : BufferContext attribs units) :
    Except MemoryFault (ArrayId attribs units) :=
  if h : ctx.clientActiveTexture < units then .ok (.texCoord ⟨ctx.clientActiveTexture, h⟩)
  else .error .outOfBounds

/-- The arrays of `supportedArrays`. -/
def clientArray (ctx : BufferContext attribs units) (array : GLenum) :
    Except MemoryFault (Option (ArrayId attribs units)) :=
  if array = GL_VERTEX_ARRAY then .ok (some .vertex)
  else if array = GL_NORMAL_ARRAY then .ok (some .normal)
  else if array = GL_COLOR_ARRAY then .ok (some .color)
  else if array = GL_POINT_SIZE_ARRAY_OES then .ok (some .pointSize)
  else if array = GL_TEXTURE_COORD_ARRAY then ctx.texCoordArray.map some
  else .ok none

/-- The arrays in the order of `setupArraysPointers`. GLES_CM looks at the array of the client's
active texture first, which must be there. -/
def drawnArrays (ctx : BufferContext attribs units) :
    Except MemoryFault (List (ArrayId attribs units)) :=
  if ctx.version = .GLES_CM then
    ctx.texCoordArray.map fun _ =>
      [.vertex, .normal, .color, .pointSize] ++ (List.finRange units).map .texCoord
  else .ok ((List.finRange attribs).map .vertexAttrib)

end BufferContext

namespace SharedBuffers

variable {k attribs units : Nat}

/-- The contexts of a new share group. -/
def initial (version : Fin k → GLESVersion) : SharedBuffers k attribs units :=
  ⟨.new, .empty, fun c => .new (version c)⟩

/-- The number of the buffer object of a name, behind `getObjectData`. -/
def vbo (s : SharedBuffers k attribs units) (name : GLuint) : Option Nat :=
  s.names.getObjectData .VERTEXBUFFER (localName name)

/-- An access to a buffer object. -/
def deref (s : SharedBuffers k attribs units) :
    Option Nat → Except MemoryFault (Nat × BufferObject)
  | none => .error .nullPointer
  | some o =>
      match s.objects.get? o with
      | none => .error .useAfterFree
      | some b => .ok (o, b)

def setObject (s : SharedBuffers k attribs units) (o : Nat) (b : BufferObject) :
    SharedBuffers k attribs units :=
  { s with objects := s.objects.set o b }

def modifyContext (s : SharedBuffers k attribs units) (c : Fin k)
    (f : BufferContext attribs units → BufferContext attribs units) :
    SharedBuffers k attribs units :=
  { s with contexts := Function.update s.contexts c (f (s.contexts c)) }

def setGLerror (s : SharedBuffers k attribs units) (c : Fin k) (error : GLenum) :
    SharedBuffers k attribs units :=
  s.modifyContext c (·.setGLerror error)

/-- `setObjectData` with a `new GLESbuffer()`, which is deleted at once if the name has data. -/
def newBuffer (s : SharedBuffers k attribs units) (name : GLuint) :
    SharedBuffers k attribs units :=
  if (s.vbo name).isSome then s
  else { s with
    names := s.names.modify (·.setObjectData .VERTEXBUFFER (localName name) s.objects.next)
    objects := s.objects.insert .new }

/-! ## Names and bindings -/

/-- A turn of the loop of `glGenBuffers`. -/
def genBuffer (s : SharedBuffers k attribs units) (globalName : GLuint) :
    SharedBuffers k attribs units × GLuint :=
  let (names, name) := s.names.genLocalName .VERTEXBUFFER globalName
  (({ s with names } : SharedBuffers k attribs units).newBuffer (clientName name), clientName name)

/-- `glGenBuffers`, with the names that it gives; `globalNames` are the driver's. -/
def glGenBuffers (s : SharedBuffers k attribs units) (c : Fin k) (n : Int)
    (globalNames : Nat → GLuint) : SharedBuffers k attribs units × List GLuint :=
  if n < 0 then (s.setGLerror c GL_INVALID_VALUE, [])
  else
    (List.range n.toNat).foldl (fun (s, buffers) i =>
      let (s, buffer) := s.genBuffer (globalNames i)
      (s, buffers ++ [buffer])) (s, [])

/-- `glBindBuffer`; `gen` is the driver's name for a new buffer. -/
def glBindBuffer (s : SharedBuffers k attribs units) (c : Fin k) (target : GLenum)
    (buffer gen : GLuint) : Except MemoryFault (SharedBuffers k attribs units) :=
  if !bufferTarget target then .ok (s.setGLerror c GL_INVALID_ENUM)
  else
    let s :=
      if buffer ≠ 0 ∧ !s.names.isObject .VERTEXBUFFER (localName buffer) then
        ({ s with names := s.names.modify (·.genName .VERTEXBUFFER (localName buffer) gen) } :
          SharedBuffers k attribs units).newBuffer buffer
      else s
    let s := s.modifyContext c (·.bindBuffer target buffer)
    if buffer ≠ 0 then
      (s.deref (s.vbo buffer)).map fun (o, b) => s.setObject o { b with wasBound := true }
    else .ok s

/-- A turn of the loop of `glDeleteBuffers`. The buffer object is deleted with its last smart
pointer, and GLES_CM unbinds the name in the context. -/
def deleteBuffer (s : SharedBuffers k attribs units) (c : Fin k) (buffer : GLuint) :
    SharedBuffers k attribs units :=
  let s' : SharedBuffers k attribs units := { s with
    names := s.names.modify (·.deleteName .VERTEXBUFFER (localName buffer))
    objects := (s.vbo buffer).elim s.objects s.objects.remove }
  if (s.contexts c).version = .GLES_CM then s'.modifyContext c (·.unbindBuffer buffer) else s'

def glDeleteBuffers (s : SharedBuffers k attribs units) (c : Fin k) (n : Int)
    (buffers : List GLuint) : SharedBuffers k attribs units :=
  if n < 0 then s.setGLerror c GL_INVALID_VALUE
  else (buffers.take n.toNat).foldl (fun s buffer => s.deleteBuffer c buffer) s

/-! ## Data -/

/-- `glBufferData`, where `setBufferData` looks the buffer object up. -/
def glBufferData (s : SharedBuffers k attribs units) (c : Fin k) (target : GLenum)
    (data : List UInt8) (usage : GLenum) : Except MemoryFault (SharedBuffers k attribs units) :=
  if !bufferTarget target then .ok (s.setGLerror c GL_INVALID_ENUM)
  else if !(s.contexts c).isBindedBuffer target then .ok (s.setGLerror c GL_INVALID_OPERATION)
  else
    (s.deref (s.vbo ((s.contexts c).getBuffer target))).map fun (o, b) =>
      s.setObject o { b with buffer := .setBuffer data, usage }

/-- `setBufferSubData`, with `false` where no buffer is bound or the data does not fit. -/
def setBufferSubData (s : SharedBuffers k attribs units) (c : Fin k) (target : GLenum)
    (offset : Int) (data : List UInt8) :
    Except MemoryFault (SharedBuffers k attribs units × Bool) := do
  let bufferName := (s.contexts c).getBuffer target
  if bufferName = 0 then return (s, false)
  else
    let (o, b) ← s.deref (s.vbo bufferName)
    match b.buffer.setSubBuffer offset data with
    | .error _ => .error .outOfBounds
    | .ok none => return (s, false)
    | .ok (some buffer) => return (s.setObject o { b with buffer }, true)

def glBufferSubData (s : SharedBuffers k attribs units) (c : Fin k) (target : GLenum)
    (offset : Int) (data : List UInt8) : Except MemoryFault (SharedBuffers k attribs units) :=
  if !(s.contexts c).isBindedBuffer target then .ok (s.setGLerror c GL_INVALID_OPERATION)
  else if !bufferTarget target then .ok (s.setGLerror c GL_INVALID_ENUM)
  else
    (s.setBufferSubData c target offset data).map fun (s, set) =>
      if set then s else s.setGLerror c GL_INVALID_VALUE

/-- `glGetBufferParameteriv`, with the size or the usage. -/
def glGetBufferParameteriv (s : SharedBuffers k attribs units) (c : Fin k)
    (target pname : GLenum) :
    Except MemoryFault (SharedBuffers k attribs units × Option Nat) :=
  if !(bufferTarget target && bufferParam pname) then .ok (s.setGLerror c GL_INVALID_ENUM, none)
  else if !(s.contexts c).isBindedBuffer target then
    .ok (s.setGLerror c GL_INVALID_OPERATION, none)
  else
    (s.deref (s.vbo ((s.contexts c).getBuffer target))).map fun (_, b) =>
      (s, some (if pname = GL_BUFFER_SIZE then b.buffer.data.length else b.usage.toNat))

/-! ## Vertex arrays -/

/-- `setPointer`; `data` is an offset where a buffer is bound. -/
def setPointer (s : SharedBuffers k attribs units) (c : Fin k) (arrType : ArrayId attribs units)
    (size : Int) (type : GLenum) (stride : Int) (data : UInt64) (normalize : Bool) :
    Except MemoryFault (SharedBuffers k attribs units) :=
  let bufferName := (s.contexts c).arrayBuffer
  if bufferName ≠ 0 then do
    let vbo := s.vbo bufferName
    let s := s.modifyContext c (·.modifyPointer arrType
      (·.setBuffer size type stride vbo bufferName data.toUInt32 normalize))
    let _ ← s.deref vbo
    return s
  else
    .ok (s.modifyContext c (·.modifyPointer arrType (·.setArray size type stride normalize)))

/-- A pointer function of GLES_CM, with the checks of its arguments. -/
def clientPointer (s : SharedBuffers k attribs units) (c : Fin k) (params types : Bool)
    (arrType : Except MemoryFault (ArrayId attribs units)) (size : Int) (type : GLenum)
    (stride : Int) (pointer : UInt64) : Except MemoryFault (SharedBuffers k attribs units) :=
  if !params then .ok (s.setGLerror c GL_INVALID_VALUE)
  else if !types then .ok (s.setGLerror c GL_INVALID_ENUM)
  else do
    let arrType ← arrType
    s.setPointer c arrType size type stride pointer false

def glVertexPointer (s : SharedBuffers k attribs units) (c : Fin k) (size : Int) (type : GLenum)
    (stride : Int) (pointer : UInt64) : Except MemoryFault (SharedBuffers k attribs units) :=
  s.clientPointer c (2 ≤ size && size ≤ 4 && 0 ≤ stride)
    (type ∈ [GL_BYTE, GL_SHORT, GL_FLOAT, GL_FIXED]) (.ok .vertex) size type stride pointer

def glNormalPointer (s : SharedBuffers k attribs units) (c : Fin k) (type : GLenum)
    (stride : Int) (pointer : UInt64) : Except MemoryFault (SharedBuffers k attribs units) :=
  s.clientPointer c (0 ≤ stride) (type ∈ [GL_BYTE, GL_SHORT, GL_FLOAT, GL_FIXED]) (.ok .normal) 3
    type stride pointer

def glColorPointer (s : SharedBuffers k attribs units) (c : Fin k) (size : Int) (type : GLenum)
    (stride : Int) (pointer : UInt64) : Except MemoryFault (SharedBuffers k attribs units) :=
  s.clientPointer c (3 ≤ size && size ≤ 4 && 0 ≤ stride)
    (type ∈ [GL_UNSIGNED_BYTE, GL_FIXED, GL_FLOAT]) (.ok .color) size type stride pointer

def glTexCoordPointer (s : SharedBuffers k attribs units) (c : Fin k) (size : Int)
    (type : GLenum) (stride : Int) (pointer : UInt64) :
    Except MemoryFault (SharedBuffers k attribs units) :=
  s.clientPointer c (2 ≤ size && size ≤ 4 && 0 ≤ stride)
    (type ∈ [GL_BYTE, GL_SHORT, GL_FLOAT, GL_FIXED]) (s.contexts c).texCoordArray size type stride
    pointer

def glPointSizePointerOES (s : SharedBuffers k attribs units) (c : Fin k) (type : GLenum)
    (stride : Int) (pointer : UInt64) : Except MemoryFault (SharedBuffers k attribs units) :=
  s.clientPointer c (0 ≤ stride) (type ∈ [GL_FIXED, GL_FLOAT]) (.ok .pointSize) 1 type stride
    pointer

def glVertexAttribPointer (s : SharedBuffers k attribs units) (c : Fin k) (indx : GLuint)
    (size : Int) (type : GLenum) (normalized : Bool) (stride : Int) (ptr : UInt64) :
    Except MemoryFault (SharedBuffers k attribs units) :=
  if h : indx.toNat < attribs then
    s.setPointer c (.vertexAttrib ⟨indx.toNat, h⟩) size
      (if type = GL_HALF_FLOAT_OES then GL_HALF_FLOAT else type) stride ptr normalized
  else .ok (s.setGLerror c GL_INVALID_VALUE)

def enableArr (s : SharedBuffers k attribs units) (c : Fin k) (array : ArrayId attribs units)
    (enable : Bool) : SharedBuffers k attribs units :=
  s.modifyContext c (·.modifyPointer array (·.enable enable))

/-- `glEnableClientState` and `glDisableClientState` -/
def glClientState (s : SharedBuffers k attribs units) (c : Fin k) (array : GLenum)
    (enable : Bool) : Except MemoryFault (SharedBuffers k attribs units) :=
  ((s.contexts c).clientArray array).map fun arrType =>
    arrType.elim (s.setGLerror c GL_INVALID_ENUM) fun arrType => s.enableArr c arrType enable

/-- `glEnableVertexAttribArray` and `glDisableVertexAttribArray` -/
def glVertexAttribArray (s : SharedBuffers k attribs units) (c : Fin k) (index : GLuint)
    (enable : Bool) : SharedBuffers k attribs units :=
  if h : index.toNat < attribs then s.enableArr c (.vertexAttrib ⟨index.toNat, h⟩) enable
  else s.setGLerror c GL_INVALID_VALUE

def glClientActiveTexture (s : SharedBuffers k attribs units) (c : Fin k) (texture : GLenum) :
    SharedBuffers k attribs units :=
  if !textureEnum texture units then s.setGLerror c GL_INVALID_ENUM
  else
    s.modifyContext c fun ctx =>
      { ctx with clientActiveTexture := (texture - GL_TEXTURE0).toNat }

/-! ## Draws -/

section Draws

variable (convert : Draw → ArrayPointer → GLESbuffer → GLESbuffer)

/-- `setupArr` of one array. Arrays of `GL_FIXED` in a buffer are converted in their place; for
others in a buffer, `getBufferData` gives the address. -/
def setupArray (c : Fin k) (d : Draw) (s : SharedBuffers k attribs units)
    (array : ArrayId attribs units) : Except MemoryFault (SharedBuffers k attribs units) :=
  let p := (s.contexts c).pointers array
  if p.enabled && p.isVBO then
    if p.type = GL_FIXED then
      (s.deref p.buffer).map fun (o, b) => s.setObject o { b with buffer := convert d p b.buffer }
    else if p.buffer.isNone then .ok s
    else (s.deref p.buffer).map fun _ => s
  else .ok s

def setupArraysPointers (s : SharedBuffers k attribs units) (c : Fin k) (d : Draw) :
    Except MemoryFault (SharedBuffers k attribs units) := do
  let arrays ← (s.contexts c).drawnArrays
  arrays.foldlM (setupArray convert c d) s

/-- GLES_CM draws nothing without vertices. -/
def draws (s : SharedBuffers k attribs units) (c : Fin k) : Bool :=
  (s.contexts c).version = .GLES_V2 || ((s.contexts c).pointers .vertex).enabled

def glDrawArrays (s : SharedBuffers k attribs units) (c : Fin k) (mode : GLenum)
    (first count : Int) : Except MemoryFault (SharedBuffers k attribs units) :=
  if count < 0 then .ok (s.setGLerror c GL_INVALID_VALUE)
  else if !drawMode mode then .ok (s.setGLerror c GL_INVALID_ENUM)
  else if !s.draws c then .ok s
  else s.setupArraysPointers convert c (.glDrawArrays first count)

/-- The indices of a draw, in the element buffer if one is bound. `memory` is what is at the
address, or behind the data of the buffer. -/
def drawIndices (s : SharedBuffers k attribs units) (c : Fin k) (elementsIndices : UInt64)
    (memory : LittleEndian.Mem) : Except MemoryFault LittleEndian.Mem :=
  if (s.contexts c).isBindedBuffer GL_ELEMENT_ARRAY_BUFFER then
    (s.deref (s.vbo ((s.contexts c).getBuffer GL_ELEMENT_ARRAY_BUFFER))).map fun (_, b) i =>
      LittleEndian.ofList b.buffer.data memory (elementsIndices.toNat + i)
  else .ok memory

def glDrawElements (s : SharedBuffers k attribs units) (c : Fin k) (mode : GLenum) (count : Int)
    (type : GLenum) (elementsIndices : UInt64) (memory : LittleEndian.Mem) :
    Except MemoryFault (SharedBuffers k attribs units) :=
  if count < 0 then .ok (s.setGLerror c GL_INVALID_VALUE)
  else if !(drawMode mode && drawType type) then .ok (s.setGLerror c GL_INVALID_ENUM)
  else if !s.draws c then .ok s
  else do
    let indices ← s.drawIndices c elementsIndices memory
    s.setupArraysPointers convert c (.glDrawElements count type indices)

end Draws

end SharedBuffers

/-! ## Runs -/

inductive BufferCall
  | glGenBuffers (n : Int) (globalNames : Nat → GLuint)
  | glBindBuffer (target : GLenum) (buffer gen : GLuint)
  | glDeleteBuffers (n : Int) (buffers : List GLuint)
  | glBufferData (target : GLenum) (data : List UInt8) (usage : GLenum)
  | glBufferSubData (target : GLenum) (offset : Int) (data : List UInt8)
  | glGetBufferParameteriv (target pname : GLenum)
  | glVertexPointer (size : Int) (type : GLenum) (stride : Int) (pointer : UInt64)
  | glNormalPointer (type : GLenum) (stride : Int) (pointer : UInt64)
  | glColorPointer (size : Int) (type : GLenum) (stride : Int) (pointer : UInt64)
  | glTexCoordPointer (size : Int) (type : GLenum) (stride : Int) (pointer : UInt64)
  | glPointSizePointerOES (type : GLenum) (stride : Int) (pointer : UInt64)
  | glVertexAttribPointer (indx : GLuint) (size : Int) (type : GLenum) (normalized : Bool)
      (stride : Int) (ptr : UInt64)
  | glClientState (array : GLenum) (enable : Bool)
  | glVertexAttribArray (index : GLuint) (enable : Bool)
  | glClientActiveTexture (texture : GLenum)
  | glDrawArrays (mode : GLenum) (first count : Int)
  | glDrawElements (mode : GLenum) (count : Int) (type : GLenum) (elementsIndices : UInt64)
      (memory : LittleEndian.Mem)

namespace BufferCall

def version : BufferCall → Option GLESVersion
  | glVertexPointer .. | glNormalPointer .. | glColorPointer .. | glTexCoordPointer ..
  | glPointSizePointerOES .. | glClientState .. | glClientActiveTexture .. => some .GLES_CM
  | glVertexAttribPointer .. | glVertexAttribArray .. => some .GLES_V2
  | _ => none

end BufferCall

namespace SharedBuffers

variable {k attribs units : Nat} (convert : Draw → ArrayPointer → GLESbuffer → GLESbuffer)

def call (s : SharedBuffers k attribs units) (c : Fin k) :
    BufferCall → Except MemoryFault (SharedBuffers k attribs units)
  | .glGenBuffers n globalNames => .ok (s.glGenBuffers c n globalNames).1
  | .glBindBuffer target buffer gen => s.glBindBuffer c target buffer gen
  | .glDeleteBuffers n buffers => .ok (s.glDeleteBuffers c n buffers)
  | .glBufferData target data usage => s.glBufferData c target data usage
  | .glBufferSubData target offset data => s.glBufferSubData c target offset data
  | .glGetBufferParameteriv target pname => (s.glGetBufferParameteriv c target pname).map Prod.fst
  | .glVertexPointer size type stride pointer => s.glVertexPointer c size type stride pointer
  | .glNormalPointer type stride pointer => s.glNormalPointer c type stride pointer
  | .glColorPointer size type stride pointer => s.glColorPointer c size type stride pointer
  | .glTexCoordPointer size type stride pointer => s.glTexCoordPointer c size type stride pointer
  | .glPointSizePointerOES type stride pointer => s.glPointSizePointerOES c type stride pointer
  | .glVertexAttribPointer indx size type normalized stride ptr =>
      s.glVertexAttribPointer c indx size type normalized stride ptr
  | .glClientState array enable => s.glClientState c array enable
  | .glVertexAttribArray index enable => .ok (s.glVertexAttribArray c index enable)
  | .glClientActiveTexture texture => .ok (s.glClientActiveTexture c texture)
  | .glDrawArrays mode first count => s.glDrawArrays convert c mode first count
  | .glDrawElements mode count type elementsIndices memory =>
      s.glDrawElements convert c mode count type elementsIndices memory

/-- A context gets the calls of its version. -/
def step (s : SharedBuffers k attribs units) (event : Fin k × BufferCall) :
    Except MemoryFault (SharedBuffers k attribs units) :=
  if event.2.version.all (· = (s.contexts event.1).version) then s.call convert event.1 event.2
  else .ok s

end SharedBuffers

end AndroidRenderer.Translator
