import AndroidRenderer.Lib.Run
import AndroidRenderer.OpenglCodecCommon.DrawEncoder

/-!
# The buffer bindings of the host

The host is what GL makes of the buffer commands: two bindings, and the contents of the
buffer objects. The guest believes that the host's bindings are its own and that it has a
copy of the contents. Draw calls change the bindings on the host only, and deleting a bound
buffer resets the binding on the host only; `KeepsBindings` leaves out the calls after which
the two differ.
-/

namespace AndroidRenderer

structure HostBuffers where
  arrayBuffer : GLuint
  elementArrayBuffer : GLuint
  buffers : KeyedVector GLuint (List (Option UInt8))

namespace HostBuffers

def init : HostBuffers := ⟨0, 0, .empty⟩

def bound (h : HostBuffers) (target : GLenum) : GLuint :=
  if target = GL_ARRAY_BUFFER then h.arrayBuffer
  else if target = GL_ELEMENT_ARRAY_BUFFER then h.elementArrayBuffer
  else 0

/-- Binding a name for the first time makes an empty buffer. -/
def create (h : HostBuffers) (buffer : GLuint) : HostBuffers :=
  if buffer = 0 ∨ (h.buffers.get? buffer).isSome then h
  else { h with buffers := h.buffers.add buffer [] }

def bind (h : HostBuffers) (target : GLenum) (buffer : GLuint) : HostBuffers :=
  if target = GL_ARRAY_BUFFER then { h.create buffer with arrayBuffer := buffer }
  else if target = GL_ELEMENT_ARRAY_BUFFER then
    { h.create buffer with elementArrayBuffer := buffer }
  else h

def bufferData (h : HostBuffers) (target : GLenum) (size : Int) (data : Option (List UInt8)) :
    HostBuffers :=
  if h.bound target = 0 ∨ size < 0 then h
  else { h with buffers := h.buffers.add (h.bound target) (contentsOf size data) }

def bufferSubData (h : HostBuffers) (target : GLenum) (offset size : Int)
    (data : Option (List UInt8)) : HostBuffers :=
  match h.buffers.get? (h.bound target), data with
  | some contents, some data =>
      if offset < 0 ∨ size < 0 then h
      else
        match Buffer.store? contents offset.toNat (data.map some) with
        | some contents => { h with buffers := h.buffers.add (h.bound target) contents }
        | none => h
  | _, _ => h

def delete (h : HostBuffers) (buffer : GLuint) : HostBuffers :=
  if buffer = 0 then h
  else
    { arrayBuffer := if h.arrayBuffer = buffer then 0 else h.arrayBuffer
      elementArrayBuffer := if h.elementArrayBuffer = buffer then 0 else h.elementArrayBuffer
      buffers := h.buffers.remove buffer }

def exec (h : HostBuffers) : DrawCommand → HostBuffers
  | .glBindBuffer target buffer => h.bind target buffer
  | .glBufferData target size data _ => h.bufferData target size data
  | .glBufferSubData target offset size data => h.bufferSubData target offset size data
  | .glDeleteBuffers buffers => buffers.foldl delete h
  | _ => h

def run (h : HostBuffers) (commands : List DrawCommand) : HostBuffers := commands.foldl exec h

end HostBuffers

/-- The calls of the application. The pointer functions of both encoders are `setState` at
their location. -/
inductive BufferCall
  | glBindBuffer (target : GLenum) (id : GLuint)
  | glBufferData (mem : ClientMemory) (target : GLenum) (size : Int) (data : UInt32)
      (usage : GLenum)
  | glBufferSubData (mem : ClientMemory) (target : GLenum) (offset size : Int) (data : UInt32)
  | glDeleteBuffers (n : Int) (buffers : List GLuint)
  | setState (location size : Int) (type : GLenum) (normalized : Bool) (stride : Int)
      (data : UInt32)
  | enable (location : Int) (state : Bool)
  | glDrawArrays (mem : ClientMemory) (mode : GLenum) (first count : Int)
  | glDrawElements (mem : ClientMemory) (mode : GLenum) (count : Int) (type : GLenum)
      (indices : UInt32)

def BufferCall.IsDraw : BufferCall → Prop
  | glDrawArrays .. => True
  | glDrawElements .. => True
  | _ => False

def DrawEncoder.call (k : EncoderKind) (ctx : DrawEncoder) :
    BufferCall → Except EncoderFault (DrawEncoder × Output)
  | .glBindBuffer target id => .ok (ctx.glBindBuffer target id)
  | .glBufferData mem target size data usage => .ok (ctx.glBufferData mem target size data usage)
  | .glBufferSubData mem target offset size data => ctx.glBufferSubData mem target offset size data
  | .glDeleteBuffers n buffers => .ok (ctx.glDeleteBuffers n buffers)
  | .setState location size type normalized stride data =>
      .ok ({ ctx with state := ctx.state.setState location size type normalized stride data },
        .empty)
  | .enable location state => .ok ({ ctx with state := ctx.state.enable location state }, .empty)
  | .glDrawArrays mem mode first count => ctx.glDrawArrays k mem mode first count
  | .glDrawElements mem mode count type indices => ctx.glDrawElements k mem mode count type indices

/-- An encoder and its host. -/
structure BufferSystem where
  guest : DrawEncoder
  host : HostBuffers

namespace BufferSystem

def init (nLocations : Nat) : BufferSystem := ⟨.new nLocations, .init⟩

def step (k : EncoderKind) (x : BufferSystem) (c : BufferCall) :
    Except EncoderFault BufferSystem :=
  (x.guest.call k c).map fun r => ⟨r.1, x.host.run r.2.commands⟩

/-- The bindings are the same, and the guest has a copy of what the host has. -/
structure Agrees (x : BufferSystem) : Prop where
  arrayBuffer : x.host.arrayBuffer = x.guest.state.currentArrayVbo
  elementArrayBuffer : x.host.elementArrayBuffer = x.guest.state.currentIndexVbo
  contents : ∀ id buf, x.guest.buffers.get? id = some buf →
    x.host.buffers.get? id = some buf.fixedBuffer

/-- The commands that change the contents of a buffer, with the target it is bound to. -/
def dataTarget : DrawCommand → Option GLenum
  | .glBufferData target _ _ _ => some target
  | .glBufferSubData target _ _ _ => some target
  | _ => none

/-- Every command that changes the contents of a buffer reaches the host while its bindings are
those of the guest, and leaves the contents that the guest has. -/
def DataAgrees (guest : DrawEncoder) : HostBuffers → List DrawCommand → Prop
  | _, [] => True
  | h, c :: commands =>
      (∀ target, dataTarget c = some target →
        h.arrayBuffer = guest.state.currentArrayVbo ∧
          h.elementArrayBuffer = guest.state.currentIndexVbo ∧
          (h.exec c).buffers.get? (h.bound target) =
            (guest.buffers.get? (h.bound target)).map BufferData.fixedBuffer) ∧
        DataAgrees guest (h.exec c) commands

/-- Contents are given to an existing target, with an offset and a size whose sum is an
`int`; no buffer is deleted while it is bound; and no client array is drawn with indices from
a buffer. -/
def KeepsBindings (k : EncoderKind) (x : BufferSystem) : BufferCall → Prop
  | .glBufferData _ target _ _ _ => target = GL_ARRAY_BUFFER ∨ target = GL_ELEMENT_ARRAY_BUFFER
  | .glBufferSubData _ target offset size data =>
      (target = GL_ARRAY_BUFFER ∨ target = GL_ELEMENT_ARRAY_BUFFER) ∧
        offset + size < 2 ^ 31 ∧ (data = 0 → size ≤ 0)
  | .glDeleteBuffers _ buffers =>
      ∀ buffer ∈ buffers, buffer ≠ 0 → buffer ≠ x.guest.state.currentArrayVbo ∧
        buffer ≠ x.guest.state.currentIndexVbo
  | .glDrawElements .. =>
      x.guest.state.currentIndexVbo = 0 ∨ k.enabledArray x.guest.state true = false
  | _ => True

instance (k : EncoderKind) (x : BufferSystem) : (c : BufferCall) → Decidable (KeepsBindings k x c)
  | .glBufferData _ target _ _ _ =>
      inferInstanceAs (Decidable (target = GL_ARRAY_BUFFER ∨ target = GL_ELEMENT_ARRAY_BUFFER))
  | .glBufferSubData _ target offset size data =>
      inferInstanceAs (Decidable ((target = GL_ARRAY_BUFFER ∨ target = GL_ELEMENT_ARRAY_BUFFER) ∧
        offset + size < 2 ^ 31 ∧ (data = 0 → size ≤ 0)))
  | .glDeleteBuffers _ buffers => List.decidableBAll _ buffers
  | .glDrawElements .. =>
      inferInstanceAs (Decidable (x.guest.state.currentIndexVbo = 0 ∨
        k.enabledArray x.guest.state true = false))
  | .glBindBuffer .. | .setState .. | .enable .. | .glDrawArrays .. => isTrue trivial

end BufferSystem

/-! ## What draw calls do to the host -/

namespace HostBuffers

theorem run_append (h : HostBuffers) (a b : List DrawCommand) :
    h.run (a ++ b) = (h.run a).run b :=
  List.foldl_append

/-- The bindings are the same and no contents are changed. -/
structure Keeps (h h' : HostBuffers) : Prop where
  arrayBuffer : h'.arrayBuffer = h.arrayBuffer
  elementArrayBuffer : h'.elementArrayBuffer = h.elementArrayBuffer
  contents : ∀ id c, h.buffers.get? id = some c → h'.buffers.get? id = some c

namespace Keeps

theorem refl (h : HostBuffers) : h.Keeps h := ⟨rfl, rfl, fun _ _ hc => hc⟩

theorem trans {h h' h'' : HostBuffers} (a : h.Keeps h') (b : h'.Keeps h'') : h.Keeps h'' :=
  ⟨b.arrayBuffer.trans a.arrayBuffer, b.elementArrayBuffer.trans a.elementArrayBuffer,
    fun id c hc => b.contents id c (a.contents id c hc)⟩

end Keeps

theorem keeps_create (h : HostBuffers) (buffer : GLuint) : h.Keeps (h.create buffer) := by
  unfold create
  split
  · exact .refl h
  · rename_i hnew
    refine ⟨rfl, rfl, fun id c hc => ?_⟩
    grind

theorem keeps_bind_array (h : HostBuffers) (buffer : GLuint) :
    h.Keeps ((h.bind GL_ARRAY_BUFFER buffer).bind GL_ARRAY_BUFFER h.arrayBuffer) := by
  have hfirst := h.keeps_create buffer
  have hsecond := keeps_create { h.create buffer with arrayBuffer := buffer } h.arrayBuffer
  exact ⟨rfl, hsecond.elementArrayBuffer.trans hfirst.elementArrayBuffer,
    fun id c hc => hsecond.contents id c (hfirst.contents id c hc)⟩

/-- Binding the index buffer that is bound already. -/
theorem keeps_bind_element (h : HostBuffers) :
    h.Keeps (h.bind GL_ELEMENT_ARRAY_BUFFER h.elementArrayBuffer) := by
  have hcreate := h.keeps_create h.elementArrayBuffer
  exact ⟨hcreate.arrayBuffer, rfl, hcreate.contents⟩

end HostBuffers

/-- The commands keep a host whose array buffer is the guest's, and change no contents. -/
structure Quiet (s : GLClientState) (commands : List DrawCommand) : Prop where
  keeps : ∀ h : HostBuffers, h.arrayBuffer = s.currentArrayVbo → h.Keeps (h.run commands)
  noData : ∀ c ∈ commands, BufferSystem.dataTarget c = none

namespace Quiet

variable {s : GLClientState} {a b : List DrawCommand}

theorem nil (s : GLClientState) : Quiet s [] := ⟨fun h _ => .refl h, by simp⟩

theorem append (ha : Quiet s a) (hb : Quiet s b) : Quiet s (a ++ b) where
  keeps h hh := by
    have hfirst := ha.keeps h hh
    rw [HostBuffers.run_append]
    exact hfirst.trans (hb.keeps _ (hfirst.arrayBuffer.trans hh))
  noData c hc := (List.mem_append.mp hc).elim (ha.noData c) (hb.noData c)

theorem of_forall (h : ∀ c ∈ a, (∀ host : HostBuffers, host.exec c = host) ∧
    BufferSystem.dataTarget c = none) : Quiet s a where
  keeps host _ := by
    suffices host.run a = host by
      rw [this]
      exact .refl host
    induction a with
    | nil => rfl
    | cons c a ih =>
        change HostBuffers.run (host.exec c) a = host
        grind
  noData c hc := (h c hc).2

theorem of_isEnable (h : ∀ c ∈ a, c.IsEnable) : Quiet s a := by
  refine of_forall fun c hc => ?_
  have henable := h c hc
  cases c <;> first | exact ⟨fun _ => rfl, rfl⟩ | exact henable.elim

theorem sendArray {mem : ClientMemory} {first count : Int} {i : Nat} {size : Int}
    {p : VertexPointer} {out : Output}
    (h : AndroidRenderer.sendArray mem s first count i size p = .ok out) :
    Quiet s out.commands := by
  simp only [AndroidRenderer.sendArray] at h
  split at h
  · split at h
    · obtain rfl := Except.ok.inj h
      refine of_forall fun c hc => ?_
      rw [List.mem_singleton.mp hc]
      exact ⟨fun _ => rfl, rfl⟩
    · cases h
  · obtain rfl := Except.ok.inj h
    refine ⟨fun host hhost => ?_, fun c hc => ?_⟩
    · rw [← hhost]
      exact host.keeps_bind_array p.bufferObject
    · simp only [Output.send, List.mem_cons, List.not_mem_nil, or_false] at hc
      rcases hc with rfl | rfl | rfl <;> rfl

theorem sendLocation {k : EncoderKind} {mem : ClientMemory} {first count : Int} {i : Nat}
    {out : Output} (h : k.sendLocation mem s first count i = .ok out) : Quiet s out.commands := by
  cases henabled : (s.states i).enabled with
  | false =>
      obtain ⟨out', hout, -, henable⟩ :=
        EncoderKind.sendLocation_disabled (k := k) mem first count henabled
      obtain rfl := Except.ok.inj (h.symm.trans hout)
      exact of_isEnable henable
  | true =>
      cases hp : (s.states i).pointer with
      | none =>
          cases k with
          | gles1 => simp [EncoderKind.sendLocation, GLEncoder.sendLocation, henabled, hp] at h
          | gles2 => simp [EncoderKind.sendLocation, GL2Encoder.sendLocation, henabled, hp] at h
      | some p =>
          obtain ⟨front, hfront, hsend⟩ :=
            EncoderKind.sendLocation_enabled (k := k) mem first count henabled hp
          rw [hsend] at h
          obtain ⟨out', hout', rfl⟩ := Run.map_eq_ok.mp h
          exact (of_isEnable hfront).append (sendArray hout')

/-- Each turn of the loop restores the binding, so the whole loop does. -/
theorem sendVertexData {k : EncoderKind} {mem : ClientMemory} {first count : Int}
    {s' : GLClientState} {out : Output}
    (h : k.sendVertexData mem s first count = .ok (s', out)) :
    Quiet s out.commands ∧ s'.currentArrayVbo = s.currentArrayVbo ∧
      s'.currentIndexVbo = s.currentIndexVbo := by
  obtain ⟨outs, houts, heq⟩ := Run.bind_eq_ok.mp h
  obtain ⟨rfl, rfl⟩ := Prod.mk.inj (Except.ok.inj heq)
  refine ⟨?_, rfl, rfl⟩
  clear h heq
  rw [Run.mapM_eq_ok] at houts
  generalize List.range (k.locations s) = l at houts
  induction houts with
  | nil => exact nil s
  | cons hout _ ih => exact (sendLocation hout).append ih

end Quiet

/-! ## Every call keeps the agreement -/

namespace BufferSystem

variable {k : EncoderKind} {x : BufferSystem}

variable {guest : DrawEncoder} {target : GLenum} {mem : ClientMemory}

theorem dataAgrees_of_noData {h : HostBuffers} {commands : List DrawCommand}
    (hnone : ∀ c ∈ commands, dataTarget c = none) : DataAgrees guest h commands := by
  induction commands generalizing h with
  | nil => trivial
  | cons c commands ih =>
      refine ⟨fun target htarget => ?_, ih fun c' hc' => hnone c' (List.mem_cons_of_mem c hc')⟩
      grind

/-- The agreement, and the sizes that the guest has recorded. -/
structure Invariant (x : BufferSystem) : Prop extends x.Agrees where
  size : ∀ id buf, x.guest.buffers.get? id = some buf → buf.size = buf.fixedBuffer.length

theorem invariant_init (nLocations : Nat) : (init nLocations).Invariant where
  arrayBuffer := rfl
  elementArrayBuffer := rfl
  contents _ _ h := by cases h
  size _ _ h := by cases h

/-- What a call leaves: the invariant, and agreement at each of its data commands. -/
structure Kept (x : BufferSystem) (guest : DrawEncoder) (commands : List DrawCommand) : Prop where
  invariant : Invariant ⟨guest, x.host.run commands⟩
  dataAgrees : DataAgrees guest x.host commands

/-- A call that sends nothing and keeps bindings and contents. -/
theorem Invariant.kept_nil (h : x.Invariant)
    (harray : guest.state.currentArrayVbo = x.guest.state.currentArrayVbo)
    (hindex : guest.state.currentIndexVbo = x.guest.state.currentIndexVbo)
    (hbuffers : guest.buffers = x.guest.buffers) : x.Kept guest [] where
  invariant :=
    { arrayBuffer := h.arrayBuffer.trans harray.symm
      elementArrayBuffer := h.elementArrayBuffer.trans hindex.symm
      contents := fun id buf hget => h.contents id buf (hbuffers ▸ hget)
      size := fun id buf hget => h.size id buf (hbuffers ▸ hget) }
  dataAgrees := trivial

/-- A call that sends commands which keep the host. -/
theorem Invariant.kept_of_keeps (h : x.Invariant)
    {commands : List DrawCommand}
    (harray : guest.state.currentArrayVbo = x.guest.state.currentArrayVbo)
    (hindex : guest.state.currentIndexVbo = x.guest.state.currentIndexVbo)
    (hbuffers : guest.buffers = x.guest.buffers) (hkeeps : x.host.Keeps (x.host.run commands))
    (hnone : ∀ c ∈ commands, dataTarget c = none) : x.Kept guest commands where
  invariant :=
    { arrayBuffer := hkeeps.arrayBuffer.trans (h.arrayBuffer.trans harray.symm)
      elementArrayBuffer := hkeeps.elementArrayBuffer.trans (h.elementArrayBuffer.trans hindex.symm)
      contents := fun id buf hget =>
        hkeeps.contents id _ (h.contents id buf (hbuffers ▸ hget))
      size := fun id buf hget => h.size id buf (hbuffers ▸ hget) }
  dataAgrees := dataAgrees_of_noData hnone

theorem Invariant.glBindBuffer (h : x.Invariant) (target : GLenum) (id : GLuint) :
    x.Kept (x.guest.glBindBuffer target id).1 (x.guest.glBindBuffer target id).2.commands where
  invariant := by
    have hcreate := x.host.keeps_create id
    change Invariant ⟨{ x.guest with state := x.guest.state.bindBuffer target id },
      x.host.bind target id⟩
    unfold GLClientState.bindBuffer HostBuffers.bind
    split
    · exact
        { arrayBuffer := rfl
          elementArrayBuffer := hcreate.elementArrayBuffer.trans h.elementArrayBuffer
          contents := fun id buf hget => hcreate.contents id _ (h.contents id buf hget)
          size := h.size }
    · split
      · exact
          { arrayBuffer := hcreate.arrayBuffer.trans h.arrayBuffer
            elementArrayBuffer := rfl
            contents := fun id buf hget => hcreate.contents id _ (h.contents id buf hget)
            size := h.size }
      · exact h
  dataAgrees := dataAgrees_of_noData fun c hc => by
    rw [List.mem_singleton.mp hc]
    rfl

/-- The buffer that the guest fills is the one bound on the host. -/
theorem Agrees.bound (h : x.Agrees)
    (htarget : target = GL_ARRAY_BUFFER ∨ target = GL_ELEMENT_ARRAY_BUFFER) :
    x.host.bound target = x.guest.state.getBuffer target := by
  rcases htarget with rfl | rfl
  · exact h.arrayBuffer
  · exact h.elementArrayBuffer

/-- The same contents for the same buffer on both sides. -/
theorem Invariant.add (h : x.Invariant) (id : GLuint) {buf : BufferData}
    (hsize : buf.size = buf.fixedBuffer.length) :
    Invariant ⟨{ x.guest with buffers := x.guest.buffers.add id buf },
      { x.host with buffers := x.host.buffers.add id buf.fixedBuffer }⟩ where
  arrayBuffer := h.arrayBuffer
  elementArrayBuffer := h.elementArrayBuffer
  contents id' buf' hget := by
    rw [KeyedVector.get?_add] at hget ⊢
    split at hget
    · grind
    · grind [h.contents]
  size id' buf' hget := by
    rw [KeyedVector.get?_add] at hget
    split at hget
    · grind
    · exact h.size id' buf' hget

/-- A single data command whose effect on the host is the guest's. -/
theorem Invariant.kept_data (h : x.Invariant)
    (htarget : target = GL_ARRAY_BUFFER ∨ target = GL_ELEMENT_ARRAY_BUFFER) {b : BufferData}
    (hsize : b.size = b.fixedBuffer.length) {c : DrawCommand} (hc : dataTarget c = some target)
    (hexec : x.host.exec c = { x.host with
      buffers := x.host.buffers.add (x.guest.state.getBuffer target) b.fixedBuffer }) :
    x.Kept { x.guest with buffers := x.guest.buffers.add (x.guest.state.getBuffer target) b }
      [c] where
  invariant := by
    change Invariant ⟨_, x.host.exec c⟩
    rw [hexec]
    exact h.add _ hsize
  dataAgrees := by
    refine ⟨fun target' htarget' => ⟨h.arrayBuffer, h.elementArrayBuffer, ?_⟩, trivial⟩
    obtain rfl := Option.some.inj (hc.symm.trans htarget')
    rw [hexec, h.bound htarget, KeyedVector.get?_add, KeyedVector.get?_add, if_pos rfl, if_pos rfl]
    rfl

theorem Invariant.glBufferData (h : x.Invariant) (mem : ClientMemory)
    (size : Int) (data : UInt32) (usage : GLenum)
    (htarget : target = GL_ARRAY_BUFFER ∨ target = GL_ELEMENT_ARRAY_BUFFER) :
    x.Kept (x.guest.glBufferData mem target size data usage).1
      (x.guest.glBufferData mem target size data usage).2.commands := by
  unfold DrawEncoder.glBufferData
  dsimp only
  split
  · exact h.kept_nil rfl rfl rfl
  · rename_i hbound
    split
    · exact h.kept_nil rfl rfl rfl
    · rename_i hsize
      have hlength := length_contentsOf mem data size
      refine h.kept_data htarget (b := .new size (bytesAt mem data size)) ?_ rfl ?_
      · change size = (contentsOf size (bytesAt mem data size)).length
        omega
      · change x.host.bufferData target size (bytesAt mem data size) = _
        rw [HostBuffers.bufferData, h.bound htarget, if_neg (not_or.mpr ⟨hbound, hsize⟩)]
        rfl

theorem bytesAt_eq_none {data : UInt32} {size : Int} :
    bytesAt mem data size = none ↔ data = 0 := by
  simp [bytesAt]

/-- The guest's check makes the store go through on both sides. -/
theorem Invariant.glBufferSubData (h : x.Invariant) (mem : ClientMemory)
    (offset size : Int) (data : UInt32)
    (htarget : target = GL_ARRAY_BUFFER ∨ target = GL_ELEMENT_ARRAY_BUFFER)
    (hrange : offset + size < 2 ^ 31) (hdata : data = 0 → size ≤ 0) :
    ∃ guest out, x.guest.glBufferSubData mem target offset size data = .ok (guest, out) ∧
      x.Kept guest out.commands := by
  simp only [DrawEncoder.glBufferSubData]
  split
  · exact ⟨_, _, rfl, h.kept_nil rfl rfl rfl⟩
  · rename_i hbound
    unfold SharedBuffers.subUpdateBufferData
    cases hget : x.guest.buffers.get? (x.guest.state.getBuffer target) with
    | none => exact ⟨_, _, rfl, h.kept_nil rfl rfl rfl⟩
    | some buf =>
        dsimp only
        split
        · exact ⟨_, _, rfl, h.kept_nil rfl rfl rfl⟩
        · rename_i hchecked
          have hsize := h.size _ buf hget
          have hcontents := h.contents _ buf hget
          rw [not_or, not_or] at hchecked
          obtain ⟨hfits, hoffset, hnonneg⟩ := hchecked
          rw [GLint_of_range (by omega) hrange] at hfits
          cases hbytes : bytesAt mem data size with
          | none =>
              -- nothing is copied, on neither side
              have hzero : size = 0 := by grind [bytesAt_eq_none]
              have hhost : x.host.exec (.glBufferSubData target offset size none) = x.host := by
                change x.host.bufferSubData target offset size none = _
                simp [HostBuffers.bufferSubData]
              rw [if_pos hzero]
              refine ⟨_, _, rfl, ⟨?_, fun target' htarget' => ?_, trivial⟩⟩
              · change Invariant ⟨x.guest, x.host.exec (.glBufferSubData target offset size none)⟩
                rw [hhost]
                exact h
              · obtain rfl := Option.some.inj htarget'
                refine ⟨h.arrayBuffer, h.elementArrayBuffer, ?_⟩
                grind [h.bound]
          | some bytes =>
              have hlength := length_of_bytesAt hbytes
              obtain ⟨contents, hstore⟩ : ∃ contents,
                  Buffer.store? buf.fixedBuffer offset.toNat (bytes.map some) = some contents := by
                refine Option.isSome_iff_exists.mp (Buffer.store?_isSome_iff.mpr ?_)
                rw [List.length_map]
                omega
              dsimp only
              rw [hstore]
              refine ⟨_, _, rfl, h.kept_data htarget (b := { buf with fixedBuffer := contents }) ?_
                rfl ?_⟩
              · rw [hsize, ← Buffer.store?_length hstore]
              · change x.host.bufferSubData target offset size (some bytes) = _
                simp only [HostBuffers.bufferSubData, h.bound htarget, hcontents, hstore,
                  if_neg (not_or.mpr ⟨hoffset, hnonneg⟩)]

theorem Invariant.delete (h : x.Invariant) {buffer : GLuint}
    (hfree : buffer ≠ 0 → buffer ≠ x.guest.state.currentArrayVbo ∧
      buffer ≠ x.guest.state.currentIndexVbo) :
    Invariant ⟨{ x.guest with buffers := x.guest.buffers.deleteBufferData buffer },
      x.host.delete buffer⟩ := by
  have hold : ∀ id buf, (x.guest.buffers.deleteBufferData buffer).get? id = some buf →
      id ≠ buffer ∧ x.guest.buffers.get? id = some buf := by
    simp [SharedBuffers.deleteBufferData, KeyedVector.get?_remove]
  unfold HostBuffers.delete
  split
  · exact
      { arrayBuffer := h.arrayBuffer
        elementArrayBuffer := h.elementArrayBuffer
        contents := fun id buf hget => h.contents id buf (hold id buf hget).2
        size := fun id buf hget => h.size id buf (hold id buf hget).2 }
  · rename_i hnonzero
    obtain ⟨harray, hindex⟩ := hfree hnonzero
    refine
      { arrayBuffer := ?_
        elementArrayBuffer := ?_
        contents := fun id buf hget => ?_
        size := fun id buf hget => h.size id buf (hold id buf hget).2 }
    · grind [h.arrayBuffer]
    · grind [h.elementArrayBuffer]
    · grind [h.contents]

/-- Induction over the names of the call. -/
theorem Invariant.deleteBuffers (h : x.Invariant) {buffers : List GLuint}
    (hfree : ∀ buffer ∈ buffers, buffer ≠ 0 → buffer ≠ x.guest.state.currentArrayVbo ∧
      buffer ≠ x.guest.state.currentIndexVbo) :
    Invariant ⟨{ x.guest with buffers := buffers.foldl SharedBuffers.deleteBufferData x.guest.buffers },
      x.host.run (buffers.map fun buffer => .glDeleteBuffers [buffer])⟩ := by
  induction buffers generalizing x with
  | nil => exact h
  | cons buffer buffers ih =>
      have hone := h.delete (hfree buffer List.mem_cons_self)
      exact ih hone fun b hb => hfree b (List.mem_cons_of_mem buffer hb)

theorem Invariant.glDeleteBuffers (h : x.Invariant) (n : Int) {buffers : List GLuint}
    (hfree : ∀ buffer ∈ buffers, buffer ≠ 0 → buffer ≠ x.guest.state.currentArrayVbo ∧
      buffer ≠ x.guest.state.currentIndexVbo) :
    x.Kept (x.guest.glDeleteBuffers n buffers).1
      (x.guest.glDeleteBuffers n buffers).2.commands := by
  unfold DrawEncoder.glDeleteBuffers
  split
  · exact h.kept_nil rfl rfl rfl
  · refine ⟨h.deleteBuffers hfree, dataAgrees_of_noData fun c hc => ?_⟩
    obtain ⟨buffer, -, rfl⟩ := List.mem_map.mp hc
    rfl

/-- Sending the vertex arrays, and some commands behind them that keep the host. -/
theorem Invariant.kept_sendVertexData (h : x.Invariant) {first count : Int}
    {s' : GLClientState} {out : Output}
    (hsend : k.sendVertexData mem x.guest.state first count = .ok (s', out))
    {commands : List DrawCommand}
    (hkeeps : ∀ host : HostBuffers, host.elementArrayBuffer = x.guest.state.currentIndexVbo →
      host.Keeps (host.run commands))
    (hnone : ∀ c ∈ commands, dataTarget c = none) :
    x.Kept { x.guest with state := s' } (out.commands ++ commands) := by
  obtain ⟨hquiet, harray, hindex⟩ := Quiet.sendVertexData hsend
  have hsent := hquiet.keeps x.host h.arrayBuffer
  refine h.kept_of_keeps harray hindex rfl ?_ fun c hc => ?_
  · rw [HostBuffers.run_append]
    exact hsent.trans (hkeeps _ (hsent.elementArrayBuffer.trans h.elementArrayBuffer))
  · exact (List.mem_append.mp hc).elim (hquiet.noData c) (hnone c)

theorem Invariant.glDrawArrays (h : x.Invariant) {mode : GLenum}
    {first count : Int} {out : Output}
    (hcall : x.guest.glDrawArrays k mem mode first count = .ok (guest, out)) :
    x.Kept guest out.commands := by
  obtain ⟨⟨s', sent⟩, hsend, heq⟩ := Run.bind_eq_ok.mp hcall
  obtain ⟨rfl, rfl⟩ := Prod.mk.inj (Except.ok.inj heq)
  refine h.kept_sendVertexData hsend (fun host _ => .refl host) fun c hc => ?_
  rw [List.mem_singleton.mp hc]
  rfl

/-- Without an index buffer, or without client arrays, the binding of the indices is kept. -/
theorem Invariant.glDrawElements (h : x.Invariant) {mode : GLenum}
    {count : Int} {type : GLenum} {indices : UInt32}
    (hkeeps : x.guest.state.currentIndexVbo = 0 ∨ k.enabledArray x.guest.state true = false)
    {out : Output}
    (hcall : x.guest.glDrawElements k mem mode count type indices = .ok (guest, out)) :
    x.Kept guest out.commands := by
  unfold DrawEncoder.glDrawElements at hcall
  split at hcall
  · obtain ⟨rfl, rfl⟩ := Prod.mk.inj (Except.ok.inj hcall)
    exact h.kept_nil rfl rfl rfl
  · split at hcall
    · cases hcall
    · dsimp only at hcall
      split at hcall
      · obtain ⟨rfl, rfl⟩ := Prod.mk.inj (Except.ok.inj hcall)
        exact h.kept_nil rfl rfl rfl
      · split at hcall
        · -- the buffer that is bound for the indices is bound again
          obtain ⟨⟨s', sent⟩, hsend, heq⟩ := Run.bind_eq_ok.mp hcall
          obtain ⟨rfl, rfl⟩ := Prod.mk.inj (Except.ok.inj heq)
          refine h.kept_sendVertexData hsend (fun host hhost => ?_) fun c hc => ?_
          · rw [← hhost]
            exact host.keeps_bind_element
          · simp only [Output.send, List.mem_cons, List.not_mem_nil, or_false] at hc
            rcases hc with rfl | rfl <;> rfl
        · rename_i hmixed
          have hzero : x.guest.state.currentIndexVbo = 0 := by grind
          obtain ⟨ia, -, hrest⟩ := Run.bind_eq_ok.mp hcall
          obtain ⟨⟨guest', sent⟩, hdraw, heq⟩ := Run.bind_eq_ok.mp hrest
          obtain ⟨rfl, rfl⟩ := Prod.mk.inj (Except.ok.inj heq)
          obtain ⟨⟨s', sent'⟩, hsend, heq⟩ := Run.bind_eq_ok.mp hdraw
          obtain ⟨rfl, rfl⟩ := Prod.mk.inj (Except.ok.inj heq)
          rw [if_neg (not_not_intro hzero)]
          refine h.kept_sendVertexData hsend (fun host _ => .refl host) fun c hc => ?_
          rw [List.mem_singleton.mp hc]
          rfl

theorem Invariant.call (h : x.Invariant) {c : BufferCall} (hkeeps : x.KeepsBindings k c)
    {out : Output} (hcall : x.guest.call k c = .ok (guest, out)) :
    x.Kept guest out.commands := by
  cases c with
  | glBindBuffer target id =>
      obtain ⟨rfl, rfl⟩ := Prod.mk.inj (Except.ok.inj hcall)
      exact h.glBindBuffer target id
  | glBufferData mem target size data usage =>
      have heq := Except.ok.inj hcall
      have hkept := h.glBufferData mem size data usage hkeeps
      grind
  | glBufferSubData mem target offset size data =>
      obtain ⟨htarget, hrange, hdata⟩ := hkeeps
      obtain ⟨guest', out', hok, hkept⟩ := h.glBufferSubData mem offset size data htarget hrange hdata
      obtain ⟨rfl, rfl⟩ := Prod.mk.inj (Except.ok.inj (hok.symm.trans hcall))
      exact hkept
  | glDeleteBuffers n buffers =>
      have heq := Except.ok.inj hcall
      have hkept := h.glDeleteBuffers n hkeeps
      rw [heq] at hkept
      exact hkept
  | setState location size type normalized stride data =>
      obtain ⟨rfl, rfl⟩ := Prod.mk.inj (Except.ok.inj hcall)
      exact h.kept_nil (by simp) (by simp) rfl
  | enable location state =>
      obtain ⟨rfl, rfl⟩ := Prod.mk.inj (Except.ok.inj hcall)
      exact h.kept_nil (by simp) (by simp) rfl
  | glDrawArrays mem mode first count => exact h.glDrawArrays hcall
  | glDrawElements mem mode count type indices => exact h.glDrawElements hkeeps hcall

/-- Only a draw call can fault. -/
theorem Invariant.exists_call (h : x.Invariant) {c : BufferCall} (hkeeps : x.KeepsBindings k c)
    (hdraw : ¬c.IsDraw) : ∃ r, x.guest.call k c = .ok r := by
  cases c with
  | glBufferSubData mem target offset size data =>
      obtain ⟨htarget, hrange, hdata⟩ := hkeeps
      obtain ⟨guest, out, hok, -⟩ := h.glBufferSubData mem offset size data htarget hrange hdata
      exact ⟨_, hok⟩
  | glDrawArrays mem mode first count => exact absurd trivial hdraw
  | glDrawElements mem mode count type indices => exact absurd trivial hdraw
  | _ => exact ⟨_, rfl⟩

/-- On every run that keeps the bindings, the host has the guest's bindings and the contents
that the guest has copies of, also at each command that changes contents. -/
theorem buffers_agree (k : EncoderKind) (nLocations : Nat) (x : BufferSystem)
    (h : Run.Reach (step k) (KeepsBindings k) (init nLocations) x) :
    x.Agrees ∧ ∀ c, x.KeepsBindings k c →
      (¬c.IsDraw → ∃ r, x.guest.call k c = .ok r) ∧
        ∀ guest out, x.guest.call k c = .ok (guest, out) →
          DataAgrees guest x.host out.commands := by
  have hinv : x.Invariant := by
    refine h.invariant (invariant_init nLocations) fun t c u ht hkeeps hstep => ?_
    obtain ⟨⟨guest, out⟩, hcall, rfl⟩ := Run.map_eq_ok.mp hstep
    exact (ht.call hkeeps hcall).invariant
  exact ⟨hinv.toAgrees, fun c hkeeps => ⟨hinv.exists_call hkeeps,
    fun guest out hcall => (hinv.call hkeeps hcall).dataAgrees⟩⟩

/-- A buffer of vertices is drawn with a buffer of indices and then changed. -/
theorem buffers_agree_drawn :
    ∃ x : BufferSystem, x.host.buffers.get? 1 = some [some 7, some 7, some 9] ∧
      x.host.elementArrayBuffer = 2 ∧ x.Agrees := by
  have hrun : Run.check (step .gles2) (fun x c => decide (KeepsBindings .gles2 x c))
      (fun x => x.host.buffers.get? 1 = some [some 7, some 7, some 9] &&
        x.host.elementArrayBuffer = 2) (init 64)
      [.glBindBuffer GL_ARRAY_BUFFER 1, .glBufferData (fun _ => 7) GL_ARRAY_BUFFER 3 4096 0,
        .setState 0 1 GL_UNSIGNED_BYTE false 0 0, .enable 0 true,
        .glBindBuffer GL_ELEMENT_ARRAY_BUFFER 2,
        .glBufferData (fun _ => 0) GL_ELEMENT_ARRAY_BUFFER 3 4096 0,
        .glDrawElements (fun _ => 0) 4 3 GL_UNSIGNED_BYTE 0, .glDeleteBuffers 1 [3],
        .glBufferSubData (fun _ => 9) GL_ARRAY_BUFFER 2 1 4096] = true := by
    decide +kernel
  obtain ⟨x, hreach, htest⟩ := Run.exists_reach_of_check (fun _ _ h => of_decide_eq_true h) hrun
  rw [Bool.and_eq_true, decide_eq_true_eq, decide_eq_true_eq] at htest
  exact ⟨x, htest.1, htest.2, (buffers_agree .gles2 64 x hreach).1⟩

/-- The guest still fills a buffer that it has deleted while it was bound. -/
theorem deletedBuffer_not_agrees :
    ∃ x, Run.Reach (step .gles2) (fun _ _ => True) (init 64) x ∧
      ∃ c guest out, x.guest.call .gles2 c = .ok (guest, out) ∧
        ¬DataAgrees guest x.host out.commands := by
  have hrun : Run.check (step .gles2) (fun _ _ => true)
      (fun x => x.host.arrayBuffer = 0 && x.guest.state.currentArrayVbo = 1) (init 64)
      [.glBindBuffer GL_ARRAY_BUFFER 1, .glDeleteBuffers 1 [1]] = true := by
    decide +kernel
  obtain ⟨x, hreach, htest⟩ := Run.exists_reach_of_check (fun _ _ _ => trivial) hrun
  rw [Bool.and_eq_true, decide_eq_true_eq, decide_eq_true_eq] at htest
  obtain ⟨hhost, hguest⟩ := htest
  have hcall : x.guest.glBufferData (fun _ => 7) GL_ARRAY_BUFFER 1 4096 0 =
      ({ x.guest with
          buffers := x.guest.buffers.updateBufferData 1 1 (some [7]) },
        .send [.glBufferData GL_ARRAY_BUFFER 1 (some [7]) 0]) := by
    have hbound : x.guest.state.getBuffer GL_ARRAY_BUFFER = 1 := hguest
    simp only [DrawEncoder.glBufferData, hbound]
    rfl
  refine ⟨x, hreach, .glBufferData (fun _ => 7) GL_ARRAY_BUFFER 1 4096 0, _, _,
    congrArg Except.ok hcall, fun h => ?_⟩
  have hbinding := (h.1 GL_ARRAY_BUFFER rfl).1
  change x.host.arrayBuffer = x.guest.state.currentArrayVbo at hbinding
  rw [hhost, hguest] at hbinding
  exact absurd hbinding (by decide)

end BufferSystem

end AndroidRenderer
