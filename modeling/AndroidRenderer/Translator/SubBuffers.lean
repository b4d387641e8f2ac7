import AndroidRenderer.OpenglCodecCommon.BufferData
import AndroidRenderer.Translator.BufferObjects

/-!
# Updates of a part of a buffer

The guest keeps a copy of each buffer, and the translator has the buffer. Both look for
themselves whether the bytes of an update lie in it. Offset and size are the `int`s of the
caller: the guest adds them as `int`s, and the translator takes the size, and the sum, for
unsigned.
-/

namespace AndroidRenderer.Translator

/-! ## What an update is -/

namespace SubUpdate

variable {α : Type}

/-- The bytes from `offset` on lie in a buffer that exists, as whole numbers. -/
def Fits (buffer : Option (List α)) (offset size : Int) : Prop :=
  ∃ bytes, buffer = some bytes ∧ 0 ≤ offset ∧ 0 ≤ size ∧ offset + size ≤ bytes.length

/-- The data in the place of the bytes `[offset, offset + size)`. -/
def overwrite (data : Nat → α) (offset size : Int) (bytes : List α) : List α :=
  bytes.mapIdx fun i byte =>
    if offset ≤ i ∧ i < offset + size then data (i - offset).toNat else byte

/-- The verdict says whether the update fits, and the buffer changes there if it does. -/
structure Meets (data : Nat → α) (offset size : Int) (old new : Option (List α))
    (verdict : Bool) : Prop where
  fits : verdict = true ↔ Fits old offset size
  contents : new = if verdict then old.map (overwrite data offset size) else old

theorem store?_of_fits {bytes : List α} {offset size : Int} (data : Nat → α) (hlo : 0 ≤ offset)
    (hsize : 0 ≤ size) (hhi : offset + size ≤ bytes.length) :
    Buffer.store? bytes offset.toNat ((List.range size.toNat).map data) =
      some (overwrite data offset size bytes) := by
  obtain ⟨contents, hcontents⟩ := Option.isSome_iff_exists.mp (Buffer.store?_isSome_iff.mpr
    (show offset.toNat + ((List.range size.toNat).map data).length ≤ bytes.length by
      rw [List.length_map, List.length_range]
      omega))
  rw [hcontents]
  congr 1
  apply List.ext_getElem?
  intro i
  rw [overwrite, List.getElem?_mapIdx]
  by_cases hi : offset ≤ i ∧ i < offset + size
  · rw [Buffer.store?_getElem?_inside hcontents (by omega)
      (by rw [List.length_map, List.length_range]; omega), List.getElem?_map,
      List.getElem?_range (by omega), List.getElem?_eq_getElem (show i < bytes.length by omega)]
    grind
  · rw [Buffer.store?_getElem? hcontents
      (by rw [List.length_map, List.length_range]; omega)]
    simp only [if_neg hi, Option.map_id']

/-- Nothing changes where the update is refused. -/
theorem Meets.refused {data : Nat → α} {offset size : Int} {old : Option (List α)}
    (h : ¬ Fits old offset size) : Meets data offset size old old false :=
  ⟨by simpa using h, rfl⟩

theorem Meets.accepted {data : Nat → α} {offset size : Int} {bytes : List α}
    (h : Fits (some bytes) offset size) :
    Meets data offset size (some bytes) (some (overwrite data offset size bytes)) true :=
  ⟨by simpa using h, rfl⟩

end SubUpdate

open SubUpdate

/-! ## The copy of the guest -/

section Guest

variable {m_buffers : AndroidRenderer.SharedBuffers} {bufferId : GLuint} {offset size : Int32}

/-- The contents of the guest's copy of a buffer. -/
def copyOf (m_buffers : AndroidRenderer.SharedBuffers) (bufferId : GLuint) :
    Option (List (Option UInt8)) :=
  (m_buffers.get? bufferId).map BufferData.fixedBuffer

/-- Each copy is as long as its size, which is an `int`. -/
def Sized (m_buffers : AndroidRenderer.SharedBuffers) : Prop :=
  ∀ id buf, m_buffers.get? id = some buf →
    buf.size = buf.fixedBuffer.length ∧ buf.size < 2 ^ 31

theorem Sized.empty : Sized .empty := by
  intro id buf hget
  cases hget

theorem Sized.add {buf : BufferData} (h : Sized m_buffers)
    (hbuf : buf.size = buf.fixedBuffer.length ∧ buf.size < 2 ^ 31) :
    Sized (m_buffers.add bufferId buf) := by
  intro id buf' hget
  rw [KeyedVector.get?_add] at hget
  split at hget
  · rwa [← Option.some.inj hget]
  · exact h id buf' hget

theorem Sized.deleteBufferData (h : Sized m_buffers) :
    Sized (m_buffers.deleteBufferData bufferId) := by
  intro id buf hget
  rw [AndroidRenderer.SharedBuffers.deleteBufferData, KeyedVector.get?_remove] at hget
  split at hget
  · cases hget
  · exact h id buf hget

/-- The encoders refuse a size that is negative. -/
theorem Sized.updateBufferData (h : Sized m_buffers) (hsize : 0 ≤ size.toInt) (mem : ClientMemory)
    (data : UInt32) :
    Sized (m_buffers.updateBufferData bufferId size.toInt (bytesAt mem data size.toInt)) := by
  refine h.add ⟨?_, ?_⟩
  · change size.toInt = (contentsOf size.toInt (bytesAt mem data size.toInt)).length
    rw [length_contentsOf]
    omega
  · exact size.toInt_lt

theorem Sized.subUpdateBufferData {after : AndroidRenderer.SharedBuffers} {error : GLenum}
    {data : Option (List UInt8)} (h : Sized m_buffers)
    (hupdate : m_buffers.subUpdateBufferData bufferId offset.toInt size.toInt data =
      .ok (after, error)) : Sized after := by
  unfold AndroidRenderer.SharedBuffers.subUpdateBufferData at hupdate
  split at hupdate
  · cases hupdate
    exact h
  · rename_i buf hbuf
    split at hupdate
    · cases hupdate
      exact h
    · split at hupdate
      · grind
      · split at hupdate
        · cases hupdate
        · rename_i contents hstore
          cases hupdate
          refine h.add ?_
          rw [Buffer.store?_length hstore]
          exact h bufferId buf hbuf

/-- `subUpdateBufferData` with the bytes at the application's pointer. -/
def guestUpdate (m_buffers : AndroidRenderer.SharedBuffers) (bufferId : GLuint)
    (offset size : Int32) (data : Nat → UInt8) :
    Except EncoderFault (AndroidRenderer.SharedBuffers × GLenum) :=
  m_buffers.subUpdateBufferData bufferId offset.toInt size.toInt
    (some ((List.range size.toInt.toNat).map data))

/-- The guest's update is right, and leaves the other buffers alone. -/
def GuestMeets (m_buffers : AndroidRenderer.SharedBuffers) (bufferId : GLuint)
    (offset size : Int32) (data : Nat → UInt8) : Prop :=
  ∃ after error, guestUpdate m_buffers bufferId offset size data = .ok (after, error) ∧
    Meets (fun i => some (data i)) offset.toInt size.toInt (copyOf m_buffers bufferId)
      (copyOf after bufferId) (error = GL_NO_ERROR) ∧
    ∀ other, other ≠ bufferId → after.get? other = m_buffers.get? other

/-- The sum of an offset and a size that are not negative is an `int`. -/
def GuestSum (m_buffers : AndroidRenderer.SharedBuffers) (bufferId : GLuint)
    (offset size : Int32) : Prop :=
  ∀ buf, m_buffers.get? bufferId = some buf → 0 ≤ offset.toInt → 0 ≤ size.toInt →
    offset.toInt + size.toInt < 2 ^ 31

/-- The test of the guest, whose sum is an `int`. -/
def GuestRefuses (buf : BufferData) (offset size : Int32) : Prop :=
  buf.size < GLint (offset.toInt + size.toInt) ∨ offset.toInt < 0 ∨ size.toInt < 0

theorem guestUpdate_refused {buf : BufferData} (hbuf : m_buffers.get? bufferId = some buf)
    (hrefuses : GuestRefuses buf offset size) (data : Nat → UInt8) :
    guestUpdate m_buffers bufferId offset size data = .ok (m_buffers, GL_INVALID_VALUE) := by
  rw [guestUpdate, AndroidRenderer.SharedBuffers.subUpdateBufferData, hbuf]
  exact if_pos hrefuses

theorem guestUpdate_stored {buf : BufferData} (hbuf : m_buffers.get? bufferId = some buf)
    (hrefuses : ¬ GuestRefuses buf offset size) {data : Nat → UInt8}
    {contents : List (Option UInt8)}
    (hstore : Buffer.store? buf.fixedBuffer offset.toInt.toNat
      ((List.range size.toInt.toNat).map fun i => some (data i)) = some contents) :
    guestUpdate m_buffers bufferId offset size data =
      .ok (m_buffers.add bufferId { buf with fixedBuffer := contents }, GL_NO_ERROR) := by
  rw [guestUpdate, AndroidRenderer.SharedBuffers.subUpdateBufferData, hbuf]
  simp only [List.map_map, Function.comp_def, hstore]
  exact if_neg hrefuses

theorem guestUpdate_outside {buf : BufferData} (hbuf : m_buffers.get? bufferId = some buf)
    (hrefuses : ¬ GuestRefuses buf offset size) (data : Nat → UInt8)
    (hstore : Buffer.store? buf.fixedBuffer offset.toInt.toNat
      ((List.range size.toInt.toNat).map fun i => some (data i)) = none) :
    guestUpdate m_buffers bufferId offset size data = .error .outOfBounds := by
  rw [guestUpdate, AndroidRenderer.SharedBuffers.subUpdateBufferData, hbuf]
  simp only [List.map_map, Function.comp_def, hstore]
  exact if_neg hrefuses

/-- A refused update keeps the copies. -/
theorem guestMeets_of_refused {data : Nat → UInt8}
    (hupdate : guestUpdate m_buffers bufferId offset size data = .ok (m_buffers, GL_INVALID_VALUE))
    (hfits : ¬ Fits (copyOf m_buffers bufferId) offset.toInt size.toInt) :
    GuestMeets m_buffers bufferId offset size data :=
  ⟨m_buffers, GL_INVALID_VALUE, hupdate, Meets.refused hfits, fun _ _ => rfl⟩

theorem fits_copyOf {buf : BufferData} (hbuf : m_buffers.get? bufferId = some buf)
    (offset size : Int) : Fits (copyOf m_buffers bufferId) offset size ↔
      0 ≤ offset ∧ 0 ≤ size ∧ offset + size ≤ buf.fixedBuffer.length := by
  rw [copyOf, hbuf, Option.map_some, Fits]
  simp

theorem guestMeets_iff (h : Sized m_buffers) (data : Nat → UInt8) :
    GuestMeets m_buffers bufferId offset size data ↔
      GuestSum m_buffers bufferId offset size := by
  cases hbuf : m_buffers.get? bufferId with
  | none =>
      have hupdate : guestUpdate m_buffers bufferId offset size data =
          .ok (m_buffers, GL_INVALID_VALUE) := by
        rw [guestUpdate, AndroidRenderer.SharedBuffers.subUpdateBufferData, hbuf]
      refine iff_of_true (guestMeets_of_refused hupdate ?_) (fun buf hget => ?_)
      · rintro ⟨bytes, hbytes, -⟩
        grind [copyOf]
      · rw [hbuf] at hget
        cases hget
  | some buf =>
      obtain ⟨hlength, hint⟩ := h bufferId buf hbuf
      have hfits := fits_copyOf hbuf offset.toInt size.toInt
      have hsum : GuestSum m_buffers bufferId offset size ↔
          (0 ≤ offset.toInt → 0 ≤ size.toInt → offset.toInt + size.toInt < 2 ^ 31) := by
        rw [GuestSum, hbuf]
        simp
      rw [hsum]
      by_cases hrange : 0 ≤ offset.toInt ∧ 0 ≤ size.toInt
      · obtain ⟨hlo, hsize⟩ := hrange
        have hoffset := offset.toInt_lt
        have hsize' := size.toInt_lt
        by_cases hwrap : offset.toInt + size.toInt < 2 ^ 31
        · have hGLint := GLint_of_range (show -2 ^ 31 ≤ offset.toInt + size.toInt by omega) hwrap
          refine iff_of_true ?_ fun _ _ => hwrap
          by_cases hfit : buf.size < offset.toInt + size.toInt
          · have hrefuses : GuestRefuses buf offset size := .inl (by omega)
            grind [guestMeets_of_refused, guestUpdate_refused]
          · have hrefuses : ¬ GuestRefuses buf offset size := by
              unfold GuestRefuses
              omega
            have hstore := store?_of_fits (fun i => some (data i)) hlo hsize
              (show offset.toInt + size.toInt ≤ buf.fixedBuffer.length by omega)
            refine ⟨_, _, guestUpdate_stored hbuf hrefuses hstore, ?_, fun other hother => ?_⟩
            · grind [copyOf, Meets.accepted]
            · rw [KeyedVector.get?_add, if_neg hother]
        · -- The sum wraps to a negative `int`, and the bytes lie behind the copy.
          have hneg : GLint (offset.toInt + size.toInt) < 0 := by
            rw [GLint, Int.bmod_def]
            omega
          have hrefuses : ¬ GuestRefuses buf offset size := by
            unfold GuestRefuses
            omega
          have hupdate := guestUpdate_outside hbuf hrefuses data
            (Buffer.store?_eq_none_iff.mpr (by
              rw [List.length_map, List.length_range]
              omega))
          refine iff_of_false ?_ fun hsum => hwrap (hsum hlo hsize)
          rintro ⟨after, error, hok, -⟩
          grind
      · have hrefuses : GuestRefuses buf offset size := .inr (by omega)
        grind [guestMeets_of_refused, guestUpdate_refused]

inductive CopyCall
  | bufferData (size : Int32) (hsize : 0 ≤ size.toInt) (mem : ClientMemory) (data : UInt32)
  | bufferSubData (offset size : Int32) (data : Nat → UInt8)
  | deleteBuffers

def copyCall (m_buffers : AndroidRenderer.SharedBuffers) :
    GLuint × CopyCall → Except EncoderFault AndroidRenderer.SharedBuffers
  | (id, .bufferData size _ mem data) =>
      .ok (m_buffers.updateBufferData id size.toInt (bytesAt mem data size.toInt))
  | (id, .bufferSubData offset size data) =>
      (guestUpdate m_buffers id offset size data).map Prod.fst
  | (id, .deleteBuffers) => .ok (m_buffers.deleteBufferData id)

/-- After any calls an update is right where its sum is an `int`, and only then. -/
theorem copies_updated (calls : List (GLuint × CopyCall)) :
    Run.Meets (calls.foldlM copyCall .empty) (· = .outOfBounds) fun m => ∀ id offset size data,
      GuestMeets m id offset size data ↔ GuestSum m id offset size := by
  refine Run.Meets.mono (Run.Meets.foldlM (fun m c _ hsized => ?_) Sized.empty)
    fun m hsized _ _ _ data => guestMeets_iff hsized data
  obtain ⟨id, call⟩ := c
  cases call with
  | bufferData size hsize mem data => exact .pure (hsized.updateBufferData hsize mem data)
  | bufferSubData offset size data =>
      refine ⟨Run.Faults.map fun e he => ?_, fun u hu => ?_⟩
      · grind [guestUpdate, AndroidRenderer.SharedBuffers.subUpdateBufferData]
      · obtain ⟨⟨u, error⟩, hupdate, rfl⟩ := Run.map_eq_ok.mp hu
        exact hsized.subUpdateBufferData hupdate
  | deleteBuffers => exact .pure hsized.deleteBufferData

end Guest

/-! ## The buffer of the translator -/

namespace SharedBuffers

variable {k attribs units : Nat} {s : SharedBuffers k attribs units} {c : Fin k} {target : GLenum}
  {offset size : Int32}

def boundContents (s : SharedBuffers k attribs units) (c : Fin k) (target : GLenum) :
    Option (List UInt8) :=
  let bufferName := (s.contexts c).getBuffer target
  if bufferName = 0 then none
  else ((s.vbo bufferName).bind s.objects.get?).map (·.buffer.data)

/-- `setBufferSubData` with the bytes at the caller's pointer; the size is a `GLuint` there. -/
def hostUpdate (s : SharedBuffers k attribs units) (c : Fin k) (target : GLenum)
    (offset size : Int32) (data : Nat → UInt8) :
    Except MemoryFault (SharedBuffers k attribs units × Bool) :=
  s.setBufferSubData c target offset.toInt ((List.range (size.toInt % 2 ^ 32).toNat).map data)

/-- The translator's update is right, and leaves the other buffers alone. -/
def HostMeets (s : SharedBuffers k attribs units) (c : Fin k) (target : GLenum)
    (offset size : Int32) (data : Nat → UInt8) : Prop :=
  ∃ after verdict, s.hostUpdate c target offset size data = .ok (after, verdict) ∧
    Meets data offset.toInt size.toInt (s.boundContents c target)
      (after.boundContents c target) verdict ∧
    ∀ o, s.vbo ((s.contexts c).getBuffer target) ≠ some o →
      after.objects.get? o = s.objects.get? o

def BoundExists (s : SharedBuffers k attribs units) (c : Fin k) (target : GLenum) : Prop :=
  (s.contexts c).getBuffer target ≠ 0 → (s.boundContents c target).isSome

/-- With a negative offset or size, the sum as a `GLuint` is larger than the buffer. -/
def HostSum (s : SharedBuffers k attribs units) (c : Fin k) (target : GLenum)
    (offset size : Int32) : Prop :=
  ∀ bytes, s.boundContents c target = some bytes → offset.toInt < 0 ∨ size.toInt < 0 →
    (bytes.length : Int) < (offset.toInt + size.toInt) % 2 ^ 32

theorem deref_of_boundContents {bytes : List UInt8}
    (h : s.boundContents c target = some bytes) :
    (s.contexts c).getBuffer target ≠ 0 ∧ ∃ o b,
      s.vbo ((s.contexts c).getBuffer target) = some o ∧ s.objects.get? o = some b ∧
      b.buffer.data = bytes := by
  rw [boundContents] at h
  split at h
  · cases h
  · rename_i hname
    obtain ⟨b, hb, hbytes⟩ := Option.map_eq_some_iff.mp h
    obtain ⟨o, ho, hget⟩ := Option.bind_eq_some_iff.mp hb
    exact ⟨hname, o, b, ho, hget, hbytes⟩

/-- Without a buffer object behind the name, its address is `NULL` or that of a deleted one. -/
theorem deref_of_boundContents_none (hname : (s.contexts c).getBuffer target ≠ 0)
    (h : s.boundContents c target = none) :
    ∃ fault, s.deref (s.vbo ((s.contexts c).getBuffer target)) = .error fault := by
  rw [boundContents, if_neg hname, Option.map_eq_none_iff] at h
  cases ho : s.vbo ((s.contexts c).getBuffer target) with
  | none => exact ⟨.nullPointer, rfl⟩
  | some o =>
      rw [ho, Option.bind_some] at h
      exact ⟨.useAfterFree, by rw [deref, h]⟩

/-- What `setSubBuffer` returns decides what the context returns. -/
theorem hostUpdate_of_setSubBuffer {o : Nat} {b : BufferObject}
    (hname : (s.contexts c).getBuffer target ≠ 0)
    (ho : s.vbo ((s.contexts c).getBuffer target) = some o) (hb : s.objects.get? o = some b)
    {data : Nat → UInt8} {result : Option GLESbuffer}
    (hset : b.buffer.setSubBuffer offset.toInt
      ((List.range (size.toInt % 2 ^ 32).toNat).map data) = .ok result) :
    s.hostUpdate c target offset size data =
      .ok (result.elim (s, false) fun buffer => (s.setObject o { b with buffer }, true)) := by
  have hderef : s.deref (some o) = .ok (o, b) := by rw [deref, hb]
  simp only [hostUpdate, setBufferSubData, if_neg hname, ho, hderef, bind, Except.bind, hset]
  cases result <;> rfl

theorem hostUpdate_fault {o : Nat} {b : BufferObject} {fault : BufferFault}
    (hname : (s.contexts c).getBuffer target ≠ 0)
    (ho : s.vbo ((s.contexts c).getBuffer target) = some o) (hb : s.objects.get? o = some b)
    {data : Nat → UInt8}
    (hset : b.buffer.setSubBuffer offset.toInt
      ((List.range (size.toInt % 2 ^ 32).toNat).map data) = .error fault) :
    s.hostUpdate c target offset size data = .error .outOfBounds := by
  have hderef : s.deref (some o) = .ok (o, b) := by rw [deref, hb]
  simp only [hostUpdate, setBufferSubData, if_neg hname, ho, hderef, bind, Except.bind, hset]

theorem hostUpdate_unbound (hname : (s.contexts c).getBuffer target = 0) (data : Nat → UInt8) :
    s.hostUpdate c target offset size data = .ok (s, false) := by
  simp only [hostUpdate, setBufferSubData, if_pos hname, pure, Except.pure]

theorem hostUpdate_missing (hname : (s.contexts c).getBuffer target ≠ 0)
    (h : s.boundContents c target = none) (offset size : Int32) (data : Nat → UInt8) :
    ∃ fault, s.hostUpdate c target offset size data = .error fault := by
  obtain ⟨fault, hderef⟩ := deref_of_boundContents_none hname h
  simp [setBufferSubData, bind, Except.bind, hostUpdate, hname, hderef]

/-- A refused update keeps the buffer. -/
theorem hostMeets_of_refused {data : Nat → UInt8}
    (hupdate : s.hostUpdate c target offset size data = .ok (s, false))
    (hfits : ¬ Fits (s.boundContents c target) offset.toInt size.toInt) :
    s.HostMeets c target offset size data :=
  ⟨s, false, hupdate, Meets.refused hfits, fun _ _ => rfl⟩

end SharedBuffers

/-! ### One buffer -/

section Buffer

variable {b : GLESbuffer} {offset size : Int32} {data : Nat → UInt8}

theorem length_hostData (size : Int32) (data : Nat → UInt8) :
    ((((List.range (size.toInt % 2 ^ 32).toNat).map data).length % 2 ^ 32 : Nat) : Int) =
      size.toInt % 2 ^ 32 := by
  rw [List.length_map, List.length_range]
  omega

theorem setSubBuffer_refused
    (hsum : (b.data.length : Int) < (offset.toInt + size.toInt) % 2 ^ 32) :
    b.setSubBuffer offset.toInt ((List.range (size.toInt % 2 ^ 32).toNat).map data) =
      .ok none := by
  rw [GLESbuffer.setSubBuffer]
  simp only [length_hostData, GLint_of_range offset.le_toInt offset.toInt_lt,
    Int.add_emod_emod]
  exact if_pos hsum

theorem setSubBuffer_ne_none
    (hsum : (offset.toInt + size.toInt) % 2 ^ 32 ≤ b.data.length) :
    b.setSubBuffer offset.toInt ((List.range (size.toInt % 2 ^ 32).toNat).map data) ≠
      .ok none := by
  rw [GLESbuffer.setSubBuffer]
  simp only [length_hostData, GLint_of_range offset.le_toInt offset.toInt_lt,
    Int.add_emod_emod]
  grind

theorem setSubBuffer_accepted (data : Nat → UInt8)
    (hsum : (offset.toInt + size.toInt) % 2 ^ 32 ≤ b.data.length) (hlo : 0 ≤ offset.toInt)
    (hsize : 0 ≤ size.toInt) :
    ∃ conversions, b.setSubBuffer offset.toInt
        ((List.range (size.toInt % 2 ^ 32).toNat).map data) =
      .ok (some ⟨overwrite data offset.toInt size.toInt b.data, conversions⟩) := by
  have hoffset := offset.toInt_lt
  have hint := size.toInt_lt
  have hmod : size.toInt % 2 ^ 32 = size.toInt := Int.emod_eq_of_lt hsize (by omega)
  have hlength : ((List.range size.toInt.toNat).map data).length % 2 ^ 32 =
      ((List.range size.toInt.toNat).map data).length := by grind
  rw [hmod, GLESbuffer.setSubBuffer]
  simp only [hlength, List.take_length, GLint_of_range offset.le_toInt offset.toInt_lt]
  rw [if_neg (by rw [List.length_map, List.length_range]; omega), if_neg (by omega),
    store?_of_fits data hlo hsize (by omega)]
  exact ⟨_, rfl⟩

end Buffer

namespace SharedBuffers

variable {k attribs units : Nat} {s : SharedBuffers k attribs units} {c : Fin k} {target : GLenum}
  {offset size : Int32}

theorem boundContents_setObject {o : Nat} {b b' : BufferObject}
    (hname : (s.contexts c).getBuffer target ≠ 0)
    (ho : s.vbo ((s.contexts c).getBuffer target) = some o) (hb : s.objects.get? o = some b) :
    (s.setObject o b').boundContents c target = some b'.buffer.data := by
  have hset : (s.objects.set o b').get? o = some b' := by
    rw [Registry.get?_set]
    simp [hb]
  rw [boundContents]
  change (if (s.contexts c).getBuffer target = 0 then none
    else ((s.vbo ((s.contexts c).getBuffer target)).bind (s.objects.set o b').get?).map
      (·.buffer.data)) = _
  simp [hname, ho, hset]

theorem hostMeets_iff (data : Nat → UInt8) :
    s.HostMeets c target offset size data ↔
      s.BoundExists c target ∧ s.HostSum c target offset size := by
  cases hcontents : s.boundContents c target with
  | none =>
      have hsum : s.HostSum c target offset size := by
        intro bytes hbytes
        grind
      by_cases hname : (s.contexts c).getBuffer target = 0
      · refine iff_of_true (hostMeets_of_refused (hostUpdate_unbound hname data) ?_)
          ⟨fun hne => absurd hname hne, hsum⟩
        rintro ⟨bytes, hbytes, -⟩
        rw [hcontents] at hbytes
        cases hbytes
      · obtain ⟨fault, hfault⟩ := hostUpdate_missing hname hcontents offset size data
        refine iff_of_false ?_ fun h => ?_
        · rintro ⟨after, verdict, hok, -⟩
          grind
        · have hsome := h.1 hname
          grind
  | some bytes =>
      obtain ⟨hname, o, b, ho, hb, rfl⟩ := deref_of_boundContents hcontents
      have hexists : s.BoundExists c target := fun _ => by rw [hcontents]; rfl
      have hfits : Fits (s.boundContents c target) offset.toInt size.toInt ↔
          0 ≤ offset.toInt ∧ 0 ≤ size.toInt ∧
            offset.toInt + size.toInt ≤ b.buffer.data.length := by
        rw [hcontents, Fits]
        simp
      have hoffset := offset.toInt_lt
      have hint := size.toInt_lt
      by_cases hsum : (b.buffer.data.length : Int) < (offset.toInt + size.toInt) % 2 ^ 32
      · refine iff_of_true (hostMeets_of_refused (hostUpdate_of_setSubBuffer hname ho hb
          (setSubBuffer_refused hsum)) fun hin => ?_) ⟨hexists, fun bytes hbytes _ => ?_⟩
        · grind
        · grind
      · by_cases hrange : 0 ≤ offset.toInt ∧ 0 ≤ size.toInt
        · obtain ⟨conversions, hset⟩ := setSubBuffer_accepted (b := b.buffer) data (by omega)
            hrange.1 hrange.2
          have hupdate : s.hostUpdate c target offset size data =
              .ok (s.setObject o { b with buffer := ⟨_, conversions⟩ }, true) :=
            hostUpdate_of_setSubBuffer hname ho hb hset
          refine iff_of_true ⟨_, _, hupdate, ?_, ?_⟩ ⟨hexists, fun _ _ hneg => by omega⟩
          · grind [boundContents_setObject, Meets.accepted]
          · intro o' ho'
            have hne : o' ≠ o := by grind
            change (s.objects.set o _).get? o' = _
            rw [Registry.get?_set]
            simp [hne]
        · -- The test lets a negative offset or size through: the call faults or succeeds.
          refine iff_of_false ?_ fun h => hsum (h.2 _ hcontents (by omega))
          rintro ⟨after, verdict, hok, hmeets, -⟩
          cases hset : b.buffer.setSubBuffer offset.toInt
              ((List.range (size.toInt % 2 ^ 32).toNat).map data) with
          | error fault =>
              rw [hostUpdate_fault hname ho hb hset] at hok
              cases hok
          | ok result =>
              cases result with
              | none => exact setSubBuffer_ne_none (by omega) hset
              | some buffer =>
                  rw [hostUpdate_of_setSubBuffer hname ho hb hset] at hok
                  grind [hmeets.fits]

/-- Where the guest's copy is as long as the buffer, both answer alike. -/
def SameVerdict (m_buffers : AndroidRenderer.SharedBuffers) (bufferId : GLuint)
    (s : SharedBuffers k attribs units) (c : Fin k) (target : GLenum) (offset size : Int32)
    (data : Nat → UInt8) : Prop :=
  ∀ copies error after verdict, guestUpdate m_buffers bufferId offset size data =
      .ok (copies, error) → s.hostUpdate c target offset size data = .ok (after, verdict) →
    (copyOf m_buffers bufferId).map List.length = (s.boundContents c target).map List.length →
    (error = GL_NO_ERROR ↔ verdict = true)

end SharedBuffers

theorem SubUpdate.fits_of_length {α β : Type} {x : Option (List α)} {y : Option (List β)}
    (h : x.map List.length = y.map List.length) {offset size : Int} (hfits : Fits x offset size) :
    Fits y offset size := by
  obtain ⟨bytes, rfl, hlo, hsize, hhi⟩ := hfits
  obtain ⟨bytes', rfl, hlength⟩ := Option.map_eq_some_iff.mp h.symm
  exact ⟨bytes', rfl, hlo, hsize, hlength ▸ hhi⟩

namespace SharedBuffers

variable {k attribs units : Nat}

/-- A guest's copy and a translator's buffer are updated as they should be, with the same verdict,
if and only if the sums that they test do not wrap to something that passes. -/
theorem subUpdates_iff {m_buffers : AndroidRenderer.SharedBuffers} (h : Sized m_buffers)
    (bufferId : GLuint) (s : SharedBuffers k attribs units) (c : Fin k) (target : GLenum)
    (offset size : Int32) (data : Nat → UInt8) :
    (GuestMeets m_buffers bufferId offset size data ∧ s.HostMeets c target offset size data ∧
        SameVerdict m_buffers bufferId s c target offset size data) ↔
      GuestSum m_buffers bufferId offset size ∧ s.BoundExists c target ∧
        s.HostSum c target offset size := by
  rw [← guestMeets_iff h data, ← hostMeets_iff data]
  refine ⟨fun ⟨hguest, hhost, _⟩ => ⟨hguest, hhost⟩, fun ⟨hguest, hhost⟩ => ⟨hguest, hhost, ?_⟩⟩
  intro copies error after verdict hcopies hafter hlength
  obtain ⟨_, _, hguest, hcopy, -⟩ := hguest
  obtain ⟨_, _, hhost, hbuffer, -⟩ := hhost
  rw [hcopies] at hguest
  rw [hafter] at hhost
  cases hguest
  cases hhost
  have herror : error = GL_NO_ERROR ↔
      Fits (copyOf m_buffers bufferId) offset.toInt size.toInt := by
    simpa using hcopy.fits
  rw [herror, hbuffer.fits]
  exact ⟨fits_of_length hlength, fits_of_length hlength.symm⟩

/-- A buffer of four bytes, bound to `GL_ARRAY_BUFFER`. -/
def fourBytes : Except MemoryFault (SharedBuffers 1 0 0) := do
  let s ← (initial fun _ => .GLES_V2 : SharedBuffers 1 0 0).glBindBuffer (Fin.last 0)
    GL_ARRAY_BUFFER 1 7
  s.glBufferData (Fin.last 0) GL_ARRAY_BUFFER [1, 2, 3, 4] GL_STATIC_DRAW

/-- The guest's copy of it. -/
def fourCopied : AndroidRenderer.SharedBuffers :=
  (KeyedVector.empty : AndroidRenderer.SharedBuffers).add 1 (.new 4 (some [1, 2, 3, 4]))

theorem sized_fourCopied : Sized fourCopied :=
  Sized.empty.add ⟨rfl, by decide⟩

/-- Two bytes of four are replaced. -/
theorem subUpdates_four :
    ∃ s, fourBytes = .ok s ∧ GuestMeets fourCopied 1 1 2 (fun _ => 9) ∧
      s.HostMeets 0 GL_ARRAY_BUFFER 1 2 (fun _ => 9) ∧
      SameVerdict fourCopied 1 s 0 GL_ARRAY_BUFFER 1 2 fun _ => 9 := by
  refine ⟨_, rfl, (subUpdates_iff sized_fourCopied 1 _ 0 GL_ARRAY_BUFFER 1 2 _).mpr
    ⟨fun _ _ _ _ => by decide, fun _ => rfl, fun _ _ hneg => ?_⟩⟩
  exact absurd hneg (by decide)

/-- The byte behind the largest offset is taken for one of the copy, and the byte before a buffer
for one of the buffer. -/
theorem subUpdate_wraps :
    ¬ GuestMeets fourCopied 1 0x7FFFFFFF 1 (fun _ => 9) ∧
      ∃ s, fourBytes = .ok s ∧ ¬ s.HostMeets 0 GL_ARRAY_BUFFER (-1) 1 fun _ => 9 := by
  refine ⟨fun h => ?_, _, rfl, fun h => ?_⟩
  · have hsum := (guestMeets_iff sized_fourCopied _).mp h _ rfl (by decide) (by decide)
    exact absurd hsum (by decide)
  · have hsum := ((hostMeets_iff _).mp h).2 [1, 2, 3, 4] rfl (by decide)
    exact absurd hsum (by decide)

end SharedBuffers

end AndroidRenderer.Translator
