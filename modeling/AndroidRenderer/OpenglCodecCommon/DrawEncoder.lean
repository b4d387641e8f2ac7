import AndroidRenderer.OpenglCodecCommon.BufferData

/-!
# Buffers and draw calls of the encoders

`GLEncoder` and `GL2Encoder` keep vertex arrays on the guest and send them with each draw
call: the data of a client array is packed into the command, and for an array in a buffer
object the buffer is bound on the host for the time of one command. The two encoders differ
in the locations they know and in the commands that enable them.

A function of an encoder answers with the commands it sends and with the addresses of the
application's arrays it reads.
-/

namespace AndroidRenderer

/-- The commands for buffers, vertex arrays and draw calls. A location stands for the pointer
function that sends its array. -/
inductive DrawCommand
  | glBindBuffer (target : GLenum) (buffer : GLuint)
  | glBufferData (target : GLenum) (size : Int) (data : Option (List UInt8)) (usage : GLenum)
  | glBufferSubData (target : GLenum) (offset size : Int) (data : Option (List UInt8))
  | glDeleteBuffers (buffers : List GLuint)
  | glEnableVertexAttribArray (location : Nat)
  | glDisableVertexAttribArray (location : Nat)
  | glEnableClientState (cap : GLenum)
  | glDisableClientState (cap : GLenum)
  | glClientActiveTexture (texture : GLenum)
  | pointerData (location : Nat) (size : Int) (type : GLenum) (normalized : Bool) (stride : Int)
      (data : List UInt8)
  | pointerOffset (location : Nat) (size : Int) (type : GLenum) (normalized : Bool) (stride : Int)
      (offset : UInt32)
  | glDrawArrays (mode : GLenum) (first count : Int)
  | glDrawElementsOffset (mode : GLenum) (count : Int) (type : GLenum) (offset : UInt32)
  | glDrawElementsData (mode : GLenum) (count : Int) (type : GLenum) (indices : IndexArray)
  deriving DecidableEq, Repr

/-- The command enables or disables an array, or selects the texture unit for it. -/
def DrawCommand.IsEnable : DrawCommand → Prop
  | glEnableVertexAttribArray _ => True
  | glDisableVertexAttribArray _ => True
  | glEnableClientState _ => True
  | glDisableClientState _ => True
  | glClientActiveTexture _ => True
  | _ => False

/-- What a call sends, and the array bytes it reads. -/
structure Output where
  commands : List DrawCommand
  reads : List UInt32
  deriving DecidableEq, Repr

namespace Output

def empty : Output := ⟨[], []⟩

def send (commands : List DrawCommand) : Output := ⟨commands, []⟩

def append (a b : Output) : Output := ⟨a.commands ++ b.commands, a.reads ++ b.reads⟩

def concat (outs : List Output) : Output := ⟨outs.flatMap commands, outs.flatMap reads⟩

end Output

/-- What is sent for an enabled array. The pointer function of a location may know the size
of the elements itself. -/
def sendArray (mem : ClientMemory) (s : GLClientState) (first count : Int) (i : Nat) (size : Int)
    (p : VertexPointer) : Except EncoderFault Output :=
  let datalen := p.elementSize * UInt32.ofInt count
  let firstIndex := p.step * UInt32.ofInt first
  if p.bufferObject = 0 then
    match glUtilsPackPointerData (p.data + firstIndex) size p.type p.stride datalen with
    | some reads =>
        .ok ⟨[.pointerData i size p.type p.normalized p.stride (reads.map mem)], reads⟩
    | none => .error .outOfBounds
  else
    .ok (.send [.glBindBuffer GL_ARRAY_BUFFER p.bufferObject,
      .pointerOffset i size p.type p.normalized p.stride (p.data + firstIndex),
      .glBindBuffer GL_ARRAY_BUFFER s.currentArrayVbo])

inductive EncoderKind
  | gles1
  | gles2
  deriving DecidableEq, Repr

namespace GLEncoder

/-- The size of the elements at a location: `glNormalPointerData` and `glPointSizePointerData`
have no parameter for it. -/
def pointerSize (i : Nat) (size : Int) : Int :=
  if i = NORMAL_LOCATION then 3 else if i = POINTSIZE_LOCATION then 1 else size

/-- One turn of the loop of `sendVertexData`. -/
def sendLocation (mem : ClientMemory) (s : GLClientState) (first count : Int) (i : Nat) :
    Except EncoderFault Output :=
  let state := s.states i
  if !state.enableDirty && !state.enabled then .ok .empty
  else
    let texture :=
      if TEXCOORD0_LOCATION ≤ i ∧ i ≤ TEXCOORD7_LOCATION then
        [.glClientActiveTexture (GL_TEXTURE0 + UInt32.ofNat i - UInt32.ofNat TEXCOORD0_LOCATION)]
      else []
    if state.enabled then
      match state.pointer with
      | none => .error .uninitialised
      | some p =>
          let enable :=
            if state.enableDirty then [.glEnableClientState (GLClientState.glConst i)] else []
          (sendArray mem s first count i (pointerSize i p.size) p).map
            (Output.append (.send (texture ++ enable)))
    else .ok (.send (texture ++ [.glDisableClientState (GLClientState.glConst i)]))

end GLEncoder

namespace GL2Encoder

/-- One turn of the loop of `sendVertexAttributes`. -/
def sendLocation (mem : ClientMemory) (s : GLClientState) (first count : Int) (i : Nat) :
    Except EncoderFault Output :=
  let state := s.states i
  if !state.enableDirty && !state.enabled then .ok .empty
  else if state.enabled then
    match state.pointer with
    | none => .error .uninitialised
    | some p =>
        (sendArray mem s first count i p.size p).map
          (Output.append (.send [.glEnableVertexAttribArray i]))
  else .ok (.send [.glDisableVertexAttribArray i])

end GL2Encoder

namespace EncoderKind

/-- The locations that the loops of an encoder run over. -/
def locations (k : EncoderKind) (s : GLClientState) : Nat :=
  match k with
  | gles1 => LAST_LOCATION
  | gles2 => s.nLocations

def pointerSize (k : EncoderKind) (i : Nat) (size : Int) : Int :=
  match k with
  | gles1 => GLEncoder.pointerSize i size
  | gles2 => size

def sendLocation (k : EncoderKind) (mem : ClientMemory) (s : GLClientState) (first count : Int)
    (i : Nat) : Except EncoderFault Output :=
  match k with
  | gles1 => GLEncoder.sendLocation mem s first count i
  | gles2 => GL2Encoder.sendLocation mem s first count i

section

variable {k : EncoderKind} {s : GLClientState} {i : Nat} {p : VertexPointer}
  (mem : ClientMemory) (first count : Int)

/-- Both encoders send an enabled array with some commands in front. -/
theorem sendLocation_enabled (henabled : (s.states i).enabled = true)
    (hp : (s.states i).pointer = some p) :
    ∃ front : List DrawCommand, (∀ c ∈ front, c.IsEnable) ∧
      k.sendLocation mem s first count i =
        (sendArray mem s first count i (k.pointerSize i p.size) p).map
          (Output.append (.send front)) := by
  cases k with
  | gles1 =>
      simp only [sendLocation, GLEncoder.sendLocation, henabled, hp, Bool.not_true, Bool.and_false,
        Bool.false_eq_true, if_false, if_true]
      refine ⟨_, fun c hc => ?_, rfl⟩
      rcases List.mem_append.mp hc with hc | hc <;> split at hc
      · rw [List.mem_singleton.mp hc]
        trivial
      · cases hc
      · rw [List.mem_singleton.mp hc]
        trivial
      · cases hc
  | gles2 =>
      simp only [sendLocation, GL2Encoder.sendLocation, henabled, hp, Bool.not_true, Bool.and_false,
        Bool.false_eq_true, if_false, if_true]
      exact ⟨_, fun c hc => by rw [List.mem_singleton.mp hc]; trivial, rfl⟩

theorem sendLocation_disabled (hdisabled : (s.states i).enabled = false) :
    ∃ out, k.sendLocation mem s first count i = .ok out ∧ out.reads = [] ∧
      ∀ c ∈ out.commands, c.IsEnable := by
  cases k with
  | gles1 =>
      simp only [sendLocation, GLEncoder.sendLocation, hdisabled, Bool.false_eq_true, if_false]
      split
      · exact ⟨_, rfl, rfl, by simp [Output.empty]⟩
      · refine ⟨_, rfl, rfl, fun c hc => ?_⟩
        rcases List.mem_append.mp hc with hc | hc
        · split at hc
          · rw [List.mem_singleton.mp hc]
            trivial
          · cases hc
        · rw [List.mem_singleton.mp hc]
          trivial
  | gles2 =>
      simp only [sendLocation, GL2Encoder.sendLocation, hdisabled, Bool.false_eq_true, if_false]
      split
      · exact ⟨_, rfl, rfl, by simp [Output.empty]⟩
      · exact ⟨_, rfl, rfl, fun c hc => by rw [List.mem_singleton.mp hc]; trivial⟩

end

/-- `sendVertexData` and `sendVertexAttributes`. A turn of the loop reads and clears the flag
of its own location only. -/
def sendVertexData (k : EncoderKind) (mem : ClientMemory) (s : GLClientState) (first count : Int) :
    Except EncoderFault (GLClientState × Output) := do
  let outs ← (List.range (k.locations s)).mapM (k.sendLocation mem s first count)
  return (s.clearEnableDirty (k.locations s), .concat outs)

/-- An enabled array of the application's memory, or of a buffer object. -/
def enabledArray (k : EncoderKind) (s : GLClientState) (client : Bool) : Bool :=
  (List.range (k.locations s)).any fun i =>
    (s.states i).enabled && (s.states i).pointer.any fun p => (p.bufferObject == 0) == client

/-- The loop over the locations reads the arrays that are enabled. -/
def arraysSet (k : EncoderKind) (s : GLClientState) : Bool :=
  (List.range (k.locations s)).all fun i => !(s.states i).enabled || (s.states i).pointer.isSome

end EncoderKind

/-- `m_state`, the buffers of `m_shared` and `m_error`. -/
structure DrawEncoder where
  state : GLClientState
  buffers : SharedBuffers
  error : GLenum

namespace DrawEncoder

def new (nLocations : Nat) : DrawEncoder := ⟨.new nLocations, .empty, GL_NO_ERROR⟩

def setError (ctx : DrawEncoder) (error : GLenum) : DrawEncoder := { ctx with error := error }

/-- `s_glBindBuffer` -/
def glBindBuffer (ctx : DrawEncoder) (target : GLenum) (id : GLuint) : DrawEncoder × Output :=
  ({ ctx with state := ctx.state.bindBuffer target id }, .send [.glBindBuffer target id])

/-- `s_glBufferData` -/
def glBufferData (ctx : DrawEncoder) (mem : ClientMemory) (target : GLenum) (size : Int)
    (data : UInt32) (usage : GLenum) : DrawEncoder × Output :=
  let bufferId := ctx.state.getBuffer target
  if bufferId = 0 then (ctx.setError GL_INVALID_OPERATION, .empty)
  else if size < 0 then (ctx.setError GL_INVALID_VALUE, .empty)
  else
    ({ ctx with buffers := ctx.buffers.updateBufferData bufferId size (bytesAt mem data size) },
      .send [.glBufferData target size (bytesAt mem data size) usage])

/-- `s_glBufferSubData` -/
def glBufferSubData (ctx : DrawEncoder) (mem : ClientMemory) (target : GLenum) (offset size : Int)
    (data : UInt32) : Except EncoderFault (DrawEncoder × Output) := do
  let bufferId := ctx.state.getBuffer target
  if bufferId = 0 then return (ctx.setError GL_INVALID_OPERATION, .empty)
  else
    let r ← ctx.buffers.subUpdateBufferData bufferId offset size (bytesAt mem data size)
    if r.2 ≠ GL_NO_ERROR then return ({ ctx with buffers := r.1 }.setError r.2, .empty)
    else
      return ({ ctx with buffers := r.1 },
        .send [.glBufferSubData target offset size (bytesAt mem data size)])

/-- `s_glDeleteBuffers`; `buffers` are the `n` names. -/
def glDeleteBuffers (ctx : DrawEncoder) (n : Int) (buffers : List GLuint) : DrawEncoder × Output :=
  if n < 0 then (ctx.setError GL_INVALID_VALUE, .empty)
  else
    ({ ctx with buffers := buffers.foldl SharedBuffers.deleteBufferData ctx.buffers },
      .send (buffers.map fun buffer => .glDeleteBuffers [buffer]))

/-- `s_glDrawArrays` -/
def glDrawArrays (k : EncoderKind) (ctx : DrawEncoder) (mem : ClientMemory) (mode : GLenum)
    (first count : Int) : Except EncoderFault (DrawEncoder × Output) := do
  let r ← k.sendVertexData mem ctx.state first count
  return ({ ctx with state := r.1 }, r.2.append (.send [.glDrawArrays mode 0 count]))

/-- The part of `s_glDrawElements` that sends the indices with the call. -/
def drawElementsData (k : EncoderKind) (ctx : DrawEncoder) (mem : ClientMemory) (mode : GLenum)
    (count : Int) (type : GLenum) (indices : IndexArray) :
    Except EncoderFault (DrawEncoder × Output) := do
  let minIndex := indices.adjust.1
  let maxIndex := indices.adjust.2.1
  let r ← k.sendVertexData mem ctx.state minIndex (maxIndex - minIndex + 1)
  return ({ ctx with state := r.1 },
    r.2.append (.send [.glDrawElementsData mode count type indices.adjust.2.2]))

/-- The indices of a call: an offset into the buffer object that is bound for them, and else
an address of the application. -/
def indexArray (ctx : DrawEncoder) (mem : ClientMemory) (count : Int) (type : GLenum)
    (indices : UInt32) : Except EncoderFault IndexArray :=
  if ctx.state.currentIndexVbo ≠ 0 then
    match ctx.buffers.get? ctx.state.currentIndexVbo with
    | none => .error .nullPointer
    | some buf => buf.indices type indices count
  else .ok (clientIndices mem type indices count)

/-- `s_glDrawElements` -/
def glDrawElements (k : EncoderKind) (ctx : DrawEncoder) (mem : ClientMemory) (mode : GLenum)
    (count : Int) (type : GLenum) (indices : UInt32) :
    Except EncoderFault (DrawEncoder × Output) := do
  if count < 0 then return (ctx.setError GL_INVALID_VALUE, .empty)
  else if !k.arraysSet ctx.state then throw .uninitialised
  else
    let has_immediate_arrays := k.enabledArray ctx.state true
    let has_indirect_arrays := k.enabledArray ctx.state false
    if !has_immediate_arrays && !has_indirect_arrays then return (ctx, .empty)
    else if ctx.state.currentIndexVbo ≠ 0 ∧ !has_immediate_arrays then
      let r ← k.sendVertexData mem ctx.state 0 count
      return ({ ctx with state := r.1 }, r.2.append (.send
        [.glBindBuffer GL_ELEMENT_ARRAY_BUFFER ctx.state.currentIndexVbo,
          .glDrawElementsOffset mode count type indices]))
    else
      let ia ← ctx.indexArray mem count type indices
      let r ← ctx.drawElementsData k mem mode count type ia
      -- the indices are not on the host, and the binding is not restored
      let unbind :=
        if ctx.state.currentIndexVbo ≠ 0 then [.glBindBuffer GL_ELEMENT_ARRAY_BUFFER 0] else []
      return (r.1, (Output.send unbind).append r.2)

end DrawEncoder

end AndroidRenderer
