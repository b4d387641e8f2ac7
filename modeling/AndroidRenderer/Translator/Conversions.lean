import AndroidRenderer.Translator.ElementRuns

/-!
# Conversions of buffer objects

Buffer objects are written and drawn from. Beside each buffer stand the bytes as the
application has written them, how many conversions each byte has had since it was written,
and as part of which component of a `GL_FIXED` element a draw has first used it since, with
the word that the application has written there.

A draw is careful if no drawn element needs a conversion and the translator's ranges touch
nothing that does, or if it starts at the first element, and each element that needs a
conversion lies in one dirty range and is no part of another element. Such draws convert
what they use exactly once.
-/

namespace AndroidRenderer.Translator

open LittleEndian RangeList

/-- The indices that the driver reads. -/
def drawnIndex (type : GLenum) (indices : Mem) (i : Nat) : Nat :=
  if type = GL_UNSIGNED_BYTE then loadLE indices i 1
  else if type = GL_UNSIGNED_SHORT then loadLE indices (2 * i) 2
  else loadLE indices (4 * i) 4

def drawType (type : GLenum) : Bool :=
  type = GL_UNSIGNED_BYTE || type = GL_UNSIGNED_SHORT || type = GL_UNSIGNED_INT

inductive Draw
  | glDrawArrays (first count : Int)
  | glDrawElements (count : Int) (type : GLenum) (indices : Mem)

namespace Draw

/-- The checks of the arguments. -/
def Accepted : Draw → Prop
  | glDrawArrays _ count => 0 ≤ count
  | glDrawElements count type _ => 0 ≤ count ∧ drawType type

instance : (d : Draw) → Decidable d.Accepted
  | glDrawArrays _ count => inferInstanceAs (Decidable (0 ≤ count))
  | glDrawElements count type _ => inferInstanceAs (Decidable (0 ≤ count ∧ drawType type))

/-- The elements that the driver takes of each array. -/
def elements : Draw → List Int
  | glDrawArrays first count => (List.range count.toNat).map fun i : Nat => first + i
  | glDrawElements count type indices =>
      (List.range count.toNat).map fun i : Nat => (drawnIndex type indices i : Int)

/-- The ranges of bytes that the translator computes for an array. -/
def ranges (p : GLESpointer) : Draw → List Range
  | glDrawArrays first count => directToBytesRanges first count.toNat p
  | glDrawElements count type indices => indirectToBytesRanges indices type count.toNat p

/-- The conversion that `needConvert` chooses. -/
def convert (x2f : UInt32 → UInt32) (b : GLESbuffer) (p : GLESpointer) :
    Draw → Except BufferFault (GLESbuffer × List Int)
  | glDrawArrays first count => convertDirectVBO x2f b first count.toNat p
  | glDrawElements count type indices => convertIndirectVBO x2f b count.toNat type indices p

end Draw

/-- A component of a drawn element: its address, and the word there as it was written. -/
abbrev UsedWord := Int × UInt32

structure VertexBuffer where
  buffer : GLESbuffer
  written : List UInt8
  converted : Int → Nat
  used : Int → Option UsedWord

/-- The component of the drawn elements that a byte is a part of. -/
def Draw.component (d : Draw) (p : GLESpointer) (written : List UInt8) (x : Int) :
    Option UsedWord :=
  (d.elements.find? fun e => decide ((p.element e).Covers x)).map fun e =>
    let addr := (p.element e).start + 4 * ((x - (p.element e).start) / 4)
    (addr, wordAt written addr)

/-- The buffer objects of a share group. -/
abbrev VertexBuffers := GLuint → VertexBuffer

/-- The calls on the buffer that is bound, and draws with the arrays that are enabled and stored
in a buffer. -/
inductive VertexCall
  | glBufferData (name : GLuint) (data : List UInt8)
  | glBufferSubData (name : GLuint) (offset : Int) (data : List UInt8)
  | draw (d : Draw) (arrays : List GLESpointer)

namespace VertexBuffer

def new : VertexBuffer := ⟨.new, [], fun _ => 0, fun _ => none⟩

def setBuffer (data : List UInt8) : VertexBuffer :=
  ⟨.setBuffer data, (GLESbuffer.setBuffer data).data, fun _ => 0, fun _ => none⟩

/-- The bytes that are written are not converted and not used. -/
def setSubBuffer (b : VertexBuffer) (offset : Int) (data : List UInt8) :
    Except BufferFault VertexBuffer :=
  (b.buffer.setSubBuffer offset data).map fun buffer =>
    match buffer with
    | none => b
    | some buffer =>
        let size : Nat := data.length % 2 ^ 32
        let range : Range := ⟨GLint offset, size⟩
        { buffer
          written :=
            (Buffer.store? b.written (GLint offset).toNat (data.take size)).getD b.written
          converted := fun x => if range.Covers x then 0 else b.converted x
          used := fun x => if range.Covers x then none else b.used x }

/-- `setupArr` of one array. Arrays of bytes are converted to a copy, and others not at all. -/
def setupArray (x2f : UInt32 → UInt32) (d : Draw) (p : GLESpointer) (b : VertexBuffer) :
    Except BufferFault VertexBuffer :=
  if p.type = GL_FIXED then
    (d.convert x2f b.buffer p).map fun (buffer, addresses) =>
      { b with
        buffer
        converted := fun x =>
          b.converted x + hits (addresses.map fun addr => ⟨addr, p.attribSize⟩) x
        used := fun x => (b.used x).or (d.component p b.written x) }
  else .ok b

end VertexBuffer

namespace VertexBuffers

def setupArraysPointers (x2f : UInt32 → UInt32) (d : Draw) :
    VertexBuffers → List GLESpointer → Except BufferFault VertexBuffers
  | s, [] => .ok s
  | s, p :: arrays => do
      let b ← (s p.bufferName).setupArray x2f d p
      setupArraysPointers x2f d (Function.update s p.bufferName b) arrays

def step (x2f : UInt32 → UInt32) (s : VertexBuffers) :
    VertexCall → Except BufferFault VertexBuffers
  | .glBufferData name data => .ok (Function.update s name (.setBuffer data))
  | .glBufferSubData name offset data =>
      ((s name).setSubBuffer offset data).map (Function.update s name)
  | .draw d arrays => if d.Accepted then setupArraysPointers x2f d s arrays else .ok s

def init : VertexBuffers := fun _ => .new

end VertexBuffers

/-- A byte is converted once if it has been used, and is then the byte of the converted word;
it has not changed if it has not. -/
structure VertexBuffer.ConvertedOnce (x2f : UInt32 → UInt32) (b : VertexBuffer) : Prop where
  converted : ∀ i : Nat, i < b.buffer.data.length →
    b.converted i = if (b.used i).isSome then 1 else 0
  unchanged : ∀ i : Nat, i < b.buffer.data.length → b.used i = none →
    b.buffer.data[i]? = b.written[i]?
  values : ∀ (i : Nat) (addr : Int) (fixed : UInt32), i < b.buffer.data.length →
    b.used i = some (addr, fixed) → addr ≤ i ∧ i < addr + 4 ∧
      b.buffer.data[i]? = (leBytes 4 (x2f fixed).toNat)[(i - addr).toNat]?

/-! ## Careful draws -/

namespace Draw

/-- The elements that a draw takes of the fixed arrays in one buffer. -/
def drawn (d : Draw) (arrays : List GLESpointer) (name : GLuint) : List Range :=
  (arrays.filter fun p => p.type = GL_FIXED ∧ p.bufferName = name).flatMap fun p =>
    d.elements.map p.element

/-- The element that the translator takes for the first is the first, and the indices are
those of the driver. -/
def Supported : Draw → Prop
  | glDrawArrays first _ => first = 0
  | glDrawElements _ type _ => type ≠ GL_UNSIGNED_INT

instance : (d : Draw) → Decidable d.Supported
  | glDrawArrays first _ => inferInstanceAs (Decidable (first = 0))
  | glDrawElements _ type _ => inferInstanceAs (Decidable (type ≠ GL_UNSIGNED_INT))

/-- The draw finds nothing to convert, and there is nothing. -/
def Idle (d : Draw) (p : GLESpointer) (list : List Range) : Prop :=
  (∀ r ∈ d.ranges p, ∀ e ∈ list, r.rangeIntersection e = none) ∧
    ∀ e ∈ d.elements, Clean list (p.element e)

/-- The draw finds its elements: their ends are `int`s, and those that need a conversion have
an index that is a `GLushort`. -/
def Finds (d : Draw) (p : GLESpointer) (list : List Range) : Prop :=
  d.Supported ∧ ∀ e ∈ d.elements, (p.element e).start + (p.element e).size < 2 ^ 31 ∧
    (Clean list (p.element e) ∨ e < 2 ^ 16)

instance (d : Draw) (p : GLESpointer) (list : List Range) : Decidable (d.Idle p list) :=
  inferInstanceAs (Decidable ((∀ r ∈ d.ranges p, ∀ e ∈ list, r.rangeIntersection e = none) ∧
    ∀ e ∈ d.elements, Clean list (p.element e)))

instance (d : Draw) (p : GLESpointer) (list : List Range) : Decidable (d.Finds p list) :=
  inferInstanceAs (Decidable (d.Supported ∧ ∀ e ∈ d.elements,
    (p.element e).start + (p.element e).size < 2 ^ 31 ∧ (Clean list (p.element e) ∨ e < 2 ^ 16)))

end Draw

/-- A buffer has fewer than 2^31 bytes, and draws are careful. -/
def VertexBuffers.Careful (s : VertexBuffers) : VertexCall → Prop
  | .glBufferData _ data => data.length < 2 ^ 31
  | .glBufferSubData .. => True
  | .draw d arrays => d.Accepted →
      ∀ p ∈ arrays, p.type = GL_FIXED →
        let list := (s p.bufferName).buffer.conversionManager
        (d.Idle p list ∨ d.Finds p list) ∧ Separate (d.drawn arrays p.bufferName) list

instance (s : VertexBuffers) : (c : VertexCall) → Decidable (s.Careful c)
  | .glBufferData _ data => inferInstanceAs (Decidable (data.length < 2 ^ 31))
  | .glBufferSubData .. => isTrue trivial
  | .draw d arrays =>
      inferInstanceAs (Decidable (d.Accepted → ∀ p ∈ arrays, p.type = GL_FIXED →
        (d.Idle p (s p.bufferName).buffer.conversionManager ∨
          d.Finds p (s p.bufferName).buffer.conversionManager) ∧
            Separate (d.drawn arrays p.bufferName) (s p.bufferName).buffer.conversionManager))

/-! ## Ranges of draws -/

namespace Draw

variable {d : Draw} {p : GLESpointer}

/-- The number of elements of a draw. -/
def size : Draw → Nat
  | glDrawArrays _ count => count.toNat
  | glDrawElements count _ _ => count.toNat

theorem length_elements (d : Draw) : d.elements.length = d.size := by
  cases d <;> simp only [elements, size, List.length_map, List.length_range]

theorem convert_eq (x2f : UInt32 → UInt32) (b : GLESbuffer) (hs : d.Supported) :
    d.convert x2f b p = convertRanges x2f b p p.buffOffset.toNat d.size (d.ranges p) := by
  cases d with
  | glDrawArrays first count =>
      obtain rfl : first = 0 := hs
      have hzero : GLint (0 * p.byteStride) = 0 := by
        rw [Int.zero_mul]
        rfl
      rw [convert, convertDirectVBO, hzero, Int.add_zero]
      rfl
  | glDrawElements count type indices => rfl

/-- The two readings of the indices agree on types that are not wider. -/
theorem rangeIndex_eq {type : GLenum} (haccepted : drawType type)
    (hs : type ≠ GL_UNSIGNED_INT) (indices : Mem) (i : Nat) :
    rangeIndex type indices i = drawnIndex type indices i := by
  unfold rangeIndex drawnIndex
  by_cases hbyte : type = GL_UNSIGNED_BYTE
  · rw [if_pos hbyte, if_neg (by rw [hbyte]; decide)]
  · have hshort : type = GL_UNSIGNED_SHORT := by
      simp only [drawType, Bool.or_eq_true, decide_eq_true_eq] at haccepted
      rcases haccepted with (h | h) | h
      · exact absurd h hbyte
      · exact h
      · exact absurd h hs
    grind

theorem ranges_start (d : Draw) (p : GLESpointer) :
    ∀ r ∈ d.ranges p, -2 ^ 31 ≤ r.start ∧ r.start < 2 ^ 31 := by
  intro r hr
  cases d with
  | glDrawArrays first count =>
      simp only [ranges, directToBytesRanges] at hr
      split at hr
      · obtain rfl := List.mem_singleton.mp hr
        exact GLint_bounds _
      · obtain ⟨i, -, rfl⟩ := List.mem_map.mp hr
        exact GLint_bounds _
  | glDrawElements count type indices =>
      obtain ⟨i, -, rfl⟩ := List.mem_map.mp hr
      exact GLint_bounds _

theorem isRun_element {drawn : List Int} {e : Nat} (he : (e : Int) ∈ drawn)
    (hend : (p.element e).start + (p.element e).size < 2 ^ 31) :
    (p.element e).Fits ∧ IsRun p drawn (p.element e) e 1 := by
  have hpos := p.attribSize_pos
  have hprod : 0 ≤ (e : Int) * p.byteStride :=
    Int.mul_nonneg (Int.natCast_nonneg e) (Int.le_of_lt p.byteStride_pos)
  have hstart := p.element_start e
  have hsize := p.element_size e
  constructor
  · constructor <;> omega
  · refine ⟨rfl, (Int.one_mul _).symm, Nat.one_pos, .inl rfl, ?_⟩
    grind

theorem ranges_of_elements {drawn : List Nat} {ranges : List Range}
    (hranges : ranges = drawn.map fun e : Nat => p.element e)
    (hend : ∀ e ∈ drawn, (p.element (e : Nat)).start + (p.element (e : Nat)).size < 2 ^ 31) :
    (∀ r ∈ ranges, r.size = 0 ∨ r.Fits ∧ ∃ e k, IsRun p (drawn.map fun e : Nat => (e : Int)) r e k) ∧
      ∀ e ∈ drawn.map fun e : Nat => (e : Int), ∃ r ∈ ranges, (p.element e).Within r := by
  subst hranges
  constructor
  · intro r hr
    obtain ⟨e, he, rfl⟩ := List.mem_map.mp hr
    have hmem : (e : Int) ∈ drawn.map fun e : Nat => (e : Int) := List.mem_map_of_mem he
    obtain ⟨hfits, hrun⟩ := isRun_element hmem (hend e he)
    exact .inr ⟨hfits, e, 1, hrun⟩
  · intro e he
    obtain ⟨e, hmem, rfl⟩ := List.mem_map.mp he
    exact ⟨p.element e, List.mem_map.mpr ⟨e, hmem, rfl⟩, Int.le_refl _, Int.le_refl _⟩

/-- The one range of elements without gaps. -/
theorem ranges_of_tight {n : Nat} {start size : Int} (htight : p.stride = 0)
    (hstart : start = GLint p.buffOffset.toNat) (hsize : size = GLint (n * p.attribSize))
    (hend : ∀ e < n, (p.element (e : Nat)).start + (p.element (e : Nat)).size < 2 ^ 31) :
    (size = 0 ∨ Range.Fits ⟨start, size⟩ ∧
        ∃ e k, IsRun p ((List.range n).map fun i : Nat => (i : Int)) ⟨start, size⟩ e k) ∧
      ∀ e < n, (p.element (e : Nat)).Within ⟨start, size⟩ := by
  have hstride : p.byteStride = p.attribSize := if_pos htight
  cases n with
  | zero => simp [GLint_of_range, hsize]
  | succ n =>
      have hpos := p.attribSize_pos
      have hlast := hend n (Nat.lt_succ_self n)
      have hsucc : ((n + 1 : Nat) : Int) * p.attribSize = n * p.attribSize + p.attribSize := by
        grind
      have hprod : 0 ≤ (n : Int) * p.attribSize :=
        Int.mul_nonneg (Int.natCast_nonneg _) (Int.le_of_lt hpos)
      rw [GLESpointer.element_start, GLESpointer.element_size, hstride] at hlast
      rw [GLint_of_range (by omega) (by omega)] at hstart
      rw [hsucc, GLint_of_range (by omega) (by omega)] at hsize
      have hrun : IsRun p ((List.range (n + 1)).map fun i : Nat => (i : Int)) ⟨start, size⟩ 0
          (n + 1) := by
        refine ⟨?_, hsize.trans hsucc.symm, Nat.succ_pos n, .inr hstride, ?_⟩
        · grind
        · simp
      refine ⟨.inr ⟨?_, 0, n + 1, hrun⟩, ?_⟩
      · constructor <;> dsimp only <;> omega
      · grind [hrun.element_within]

theorem ranges_spec (haccepted : d.Accepted) (hs : d.Supported)
    (hend : ∀ e ∈ d.elements, (p.element e).start + (p.element e).size < 2 ^ 31) :
    (∀ r ∈ d.ranges p, r.size = 0 ∨ r.Fits ∧ ∃ e k, IsRun p d.elements r e k) ∧
      ∀ e ∈ d.elements, ∃ r ∈ d.ranges p, (p.element e).Within r := by
  have hpos := p.attribSize_pos
  cases d with
  | glDrawArrays first count =>
      obtain rfl : first = 0 := hs
      have helements : (glDrawArrays 0 count).elements =
          (List.range count.toNat).map fun i : Nat => (i : Int) :=
        List.map_congr_left fun i _ => Int.zero_add _
      rw [helements] at hend ⊢
      have hend' : ∀ e ∈ List.range count.toNat,
          (p.element (e : Nat)).start + (p.element (e : Nat)).size < 2 ^ 31 :=
        fun e he => hend _ (List.mem_map_of_mem he)
      have hstart : (p.buffOffset.toNat : Int) + 0 * p.attribSize = p.buffOffset.toNat := by simp
      simp only [ranges, directToBytesRanges, hstart]
      split
      · rename_i htight
        obtain ⟨hrange, hwithin⟩ := ranges_of_tight htight (Eq.refl (GLint p.buffOffset.toNat))
          (Eq.refl (GLint (count.toNat * p.attribSize)))
          fun e he => hend' e (List.mem_range.mpr he)
        grind
      · refine ranges_of_elements (List.map_congr_left fun i hi => ?_) hend'
        have hlt := hend' i hi
        have hprod : 0 ≤ (i : Int) * p.byteStride :=
          Int.mul_nonneg (Int.natCast_nonneg i) (Int.le_of_lt p.byteStride_pos)
        rw [GLESpointer.element_start, GLESpointer.element_size] at hlt
        rw [GLint_of_range (i := p.buffOffset.toNat) (by omega) (by omega),
          GLint_of_range (by omega) (by omega)]
        rfl
  | glDrawElements count type indices =>
      have helements : (glDrawElements count type indices).elements =
          ((List.range count.toNat).map (drawnIndex type indices)).map fun e : Nat => (e : Int) := by
        rw [List.map_map]
        rfl
      rw [helements] at hend ⊢
      have hend' : ∀ e ∈ (List.range count.toNat).map (drawnIndex type indices),
          (p.element (e : Nat)).start + (p.element (e : Nat)).size < 2 ^ 31 :=
        fun e he => hend _ (List.mem_map_of_mem he)
      refine ranges_of_elements ?_ hend'
      rw [List.map_map]
      apply List.map_congr_left
      intro i hi
      have hlt := hend' _ (List.mem_map_of_mem hi)
      have hprod : 0 ≤ (drawnIndex type indices i : Int) * p.byteStride :=
        Int.mul_nonneg (Int.natCast_nonneg _) (Int.le_of_lt p.byteStride_pos)
      rw [GLESpointer.element_start, GLESpointer.element_size] at hlt
      rw [rangeIndex_eq haccepted.2 hs, GLint_of_range (by omega) (by omega)]
      rfl

end Draw

/-! ## One buffer -/

namespace VertexBuffer

variable {x2f : UInt32 → UInt32} {b : VertexBuffer}

/-- Bytes in a dirty range are as they were written; the others are used and converted. -/
structure Invariant (x2f : UInt32 → UInt32) (b : VertexBuffer) : Prop where
  length_lt : b.buffer.data.length < 2 ^ 31
  length_written : b.written.length = b.buffer.data.length
  inside : ∀ d ∈ b.buffer.conversionManager, d.Inside b.buffer.data.length
  dirty : ∀ x, 0 < hits b.buffer.conversionManager x → b.converted x = 0 ∧ b.used x = none
  clean : ∀ x, 0 ≤ x → x < b.buffer.data.length → hits b.buffer.conversionManager x = 0 →
    b.converted x = 1 ∧ (b.used x).isSome
  unchanged : ∀ i : Nat, b.converted i = 0 → b.buffer.data[i]? = b.written[i]?
  values : ∀ (i : Nat) (addr : Int) (fixed : UInt32), i < b.buffer.data.length →
    b.used i = some (addr, fixed) → addr ≤ i ∧ i < addr + 4 ∧
      b.buffer.data[i]? = (leBytes 4 (x2f fixed).toNat)[(i - addr).toNat]?

theorem Invariant.convertedOnce (h : b.Invariant x2f) : b.ConvertedOnce x2f := by
  constructor
  · grind [h.clean, h.dirty]
  · grind [h.clean, h.unchanged, h.dirty]
  · exact h.values

theorem invariant_new (x2f : UInt32 → UInt32) : Invariant x2f .new := by
  refine ⟨by decide, rfl, fun _ hd => (by cases hd), fun _ hpos => (by cases hpos), ?_,
    fun _ _ => rfl, fun _ _ _ hi => absurd hi (Nat.not_lt_zero _)⟩
  intro x hlo hhi
  have hempty : x < 0 := hhi
  omega

theorem setBuffer_invariant (x2f : UInt32 → UInt32) {data : List UInt8}
    (h : data.length < 2 ^ 31) : Invariant x2f (.setBuffer data) := by
  have hmod : data.length % 2 ^ 32 = data.length := by omega
  have hbuffer : GLESbuffer.setBuffer data = ⟨data, [⟨0, data.length⟩]⟩ := by
    grind [GLESbuffer.setBuffer, List.take_length, GLint_of_range]
  unfold setBuffer
  rw [hbuffer]
  refine ⟨h, rfl, ?_, fun _ _ => ⟨rfl, rfl⟩, ?_, fun _ _ => rfl, fun _ _ _ _ hused => by
    cases hused⟩
  · intro d hd
    obtain rfl := List.mem_singleton.mp hd
    dsimp only
    refine ⟨⟨?_, ?_, ?_, ?_⟩, ?_, ?_⟩ <;> dsimp only <;> omega
  · simp [Range.Covers, RangeList.hits_eq_zero]

/-- The written bytes are dirty once more. -/
theorem Invariant.setSubBuffer (h : b.Invariant x2f) {offset : Int} {data : List UInt8}
    {b' : VertexBuffer} (hset : b.setSubBuffer offset data = .ok b') : b'.Invariant x2f := by
  obtain ⟨buffer, hbuffer, rfl⟩ := Run.map_eq_ok.mp hset
  unfold GLESbuffer.setSubBuffer at hbuffer
  dsimp only at hbuffer
  split at hbuffer
  · obtain rfl := Except.ok.inj hbuffer
    exact h
  · split at hbuffer
    · cases hbuffer
    · rename_i hoffset
      split at hbuffer
      · cases hbuffer
      · rename_i contents hstore
        obtain rfl := Except.ok.inj hbuffer
        dsimp only
        rw [merge_eq]
        generalize GLint offset = start at *
        generalize hbytes : data.take (data.length % 2 ^ 32) = bytes at *
        have hsize : bytes.length = data.length % 2 ^ 32 := by
          rw [← hbytes, List.length_take]
          omega
        rw [← hsize]
        have hlength := h.length_lt
        have hfit : start.toNat + bytes.length ≤ b.buffer.data.length := by
          apply Buffer.store?_isSome_iff.mp
          rw [hstore]
          rfl
        obtain ⟨written, hwritten⟩ : ∃ written,
            Buffer.store? b.written start.toNat bytes = some written := by
          apply Option.isSome_iff_exists.mp
          rw [Buffer.store?_isSome_iff, h.length_written]
          exact hfit
        have hcontents := Buffer.store?_length hstore
        have hwritten' := Buffer.store?_length hwritten
        rw [hwritten, Option.getD_some, GLint_of_range (i := bytes.length) (by omega) (by omega)]
        have hcovers : ∀ x, (⟨start, bytes.length⟩ : Range).Covers x ↔
            start ≤ x ∧ x < start + bytes.length := fun _ => Iff.rfl
        constructor
        · dsimp only
          omega
        · grind [h.length_written]
        · intro d hd
          dsimp only at hd ⊢
          rw [hcontents]
          rcases List.mem_append.mp hd with hd | hd
          · exact h.inside d hd
          · obtain rfl := List.mem_singleton.mp hd
            refine ⟨⟨?_, ?_, ?_, ?_⟩, ?_, ?_⟩ <;> dsimp only <;> omega
        · grind [h.dirty]
        · intro x hlo hhi hzero
          grind [h.clean]
        · intro i hzero
          dsimp only at hzero ⊢
          split at hzero
          · rename_i hin
            rw [hcovers] at hin
            rw [Buffer.store?_getElem?_inside hstore (by omega) (by omega),
              Buffer.store?_getElem?_inside hwritten (by omega) (by omega)]
          · rename_i hout
            rw [hcovers] at hout
            rw [Buffer.store?_getElem? hstore (by omega), Buffer.store?_getElem? hwritten (by omega)]
            exact h.unchanged i hzero
        · intro i addr fixed hi hused
          dsimp only at hi hused ⊢
          split at hused
          · cases hused
          · rename_i hout
            rw [hcovers] at hout
            rw [Buffer.store?_getElem? hstore (by omega)]
            exact h.values i addr fixed (by omega) hused

variable {d : Draw} {p : GLESpointer} {elements : List Range}

/-- What a draw keeps of a buffer for the arrays behind it. -/
structure KeepsParts (x2f : UInt32 → UInt32) (b b' : VertexBuffer) (elements : List Range) :
    Prop where
  invariant : b'.Invariant x2f
  separate : Separate elements b'.buffer.conversionManager
  parts : ∀ d ∈ b'.buffer.conversionManager, PartOf b.buffer.conversionManager d

theorem component_eq_none {written : List UInt8} {x : Int}
    (h : ∀ e ∈ d.elements, ¬(p.element e).Covers x) : d.component p written x = none := by
  have hfind : (d.elements.find? fun e => decide ((p.element e).Covers x)) = none :=
    List.find?_eq_none.mpr fun e he hcovers => h e he (of_decide_eq_true hcovers)
  rw [Draw.component, hfind]
  rfl

/-- The component of a byte lies in an element that is drawn. -/
theorem of_component {written : List UInt8} {x addr : Int} {fixed : UInt32}
    (h : d.component p written x = some (addr, fixed)) :
    ∃ e ∈ d.elements, (p.element e).Covers x ∧ fixed = wordAt written addr ∧
      addr ≤ x ∧ x < addr + 4 ∧ ∃ j < p.size, addr = (p.element e).start + 4 * (j : Nat) := by
  obtain ⟨e, hfind, heq⟩ := Option.map_eq_some_iff.mp h
  obtain ⟨rfl, rfl⟩ := Prod.mk.inj heq
  have hcovers : (p.element e).Covers x := by simpa using List.find?_some hfind
  refine ⟨e, List.mem_of_find?_eq_some hfind, hcovers, rfl, ?_⟩
  have hsize : (p.element e).size = p.size * 4 := rfl
  simp only [Range.Covers] at hcovers
  generalize (p.element e).start = start at *
  refine ⟨by omega, by omega, ((x - start) / 4).toNat, by omega, by omega⟩

theorem isSome_component_iff {written : List UInt8} {x : Int} :
    (d.component p written x).isSome ↔ ∃ e ∈ d.elements, (p.element e).Covers x := by
  simp [Draw.component]

/-- A draw that finds nothing to convert uses what is converted. -/
theorem Invariant.setupArray_idle (h : b.Invariant x2f)
    (hidle : d.Idle p b.buffer.conversionManager) (hfixed : p.type = GL_FIXED)
    (hsep : Separate elements b.buffer.conversionManager) :
    ∃ b', b.setupArray x2f d p = .ok b' ∧ KeepsParts x2f b b' elements := by
  have hconvert : d.convert x2f b.buffer p = .ok (b.buffer, []) := by
    have hranges : ∀ dataIn count, convertRanges x2f b.buffer p dataIn count (d.ranges p) =
        .ok (b.buffer, []) := by
      intro dataIn count
      have hget : b.buffer.getConversions (d.ranges p) = .ok (b.buffer, []) := by
        rw [GLESbuffer.getConversions, delRanges_of_none hidle.1]
        rfl
      unfold convertRanges
      split
      · rfl
      · rw [hget]
        rfl
    cases d <;> exact hranges _ _
  refine ⟨_, (if_pos hfixed).trans (congrArg (Except.map _) hconvert), ?_, hsep,
    fun d hd => partOf_of_mem hd⟩
  have hclean : ∀ x, 0 < hits b.buffer.conversionManager x →
      d.component p b.written x = none := by
    intro x hpos
    refine component_eq_none fun e he hcovers => ?_
    have hzero := (hidle.2 e he).hits_eq_zero hcovers
    omega
  refine ⟨h.length_lt, h.length_written, h.inside, ?_, ?_, h.unchanged, ?_⟩
  · intro x hpos
    obtain ⟨hconverted, hused⟩ := h.dirty x hpos
    refine ⟨hconverted, ?_⟩
    grind
  · intro x hlo hhi hzero
    obtain ⟨hconverted, hused⟩ := h.clean x hlo hhi hzero
    refine ⟨hconverted, ?_⟩
    grind
  · intro i addr fixed hi hused
    dsimp only at hi hused ⊢
    rcases Option.or_eq_some_iff.mp hused with hbefore | ⟨hnone, hcomponent⟩
    · exact h.values i addr fixed hi hbefore
    · have hpos : hits b.buffer.conversionManager i ≠ 0 := fun hzero => by
        have hsome := (h.clean i (by omega) (by omega) hzero).2
        rw [hnone] at hsome
        cases hsome
      rw [hclean i (by omega)] at hcomponent
      cases hcomponent

/-- A dirty byte that is drawn holds its byte of the converted word. -/
theorem Invariant.byte_of_component (h : b.Invariant x2f) {buffer : GLESbuffer}
    {addresses : List Int} (hsep : Separate elements b.buffer.conversionManager)
    (hdrawn : ∀ e ∈ d.elements, p.element e ∈ elements)
    (hcovered : ∀ e ∈ d.elements, ∃ r ∈ d.ranges p, (p.element e).Within r)
    (hspec : ConvertsDirty b.buffer buffer p (d.ranges p) addresses)
    (hwords : ∀ addr ∈ addresses, (∃ e ∈ d.elements, addr = (p.element e).start) ∧
      ∀ j < p.size, wordAt buffer.data (addr + 4 * (j : Nat)) =
        x2f (wordAt b.buffer.data (addr + 4 * (j : Nat)))) {i : Nat} {addr : Int}
    {fixed : UInt32} (hpos : 0 < hits b.buffer.conversionManager i)
    (hcomponent : d.component p b.written i = some (addr, fixed)) :
    addr ≤ i ∧ i < addr + 4 ∧
      buffer.data[i]? = (leBytes 4 (x2f fixed).toNat)[(i - addr).toNat]? := by
  obtain ⟨e, he, hcovers, rfl, hlo, hhi, j, hj, haddr⟩ := of_component hcomponent
  have haligned := (hsep _ (hdrawn e he)).1
  -- the whole element is dirty, so it is inside the buffer and as it was written
  have hdirty : ∀ x, (p.element e).Covers x → 0 < hits b.buffer.conversionManager x := by
    intro x hx
    rw [haligned.hits_eq hx, ← haligned.hits_eq hcovers]
    exact hpos
  obtain ⟨r, hr, hcoversR⟩ := List.countP_pos_iff.mp hpos
  have hwithin : (p.element e).Within r := (haligned.whole r hr).resolve_right fun hdisjoint =>
    hdisjoint.not_covers hcovers (of_decide_eq_true hcoversR)
  have hinside := h.inside r hr
  have hstart := hinside.start_nonneg
  have hend := hinside.end_le
  have hsize : (p.element e).size = p.size * 4 := rfl
  unfold Range.Within at hwithin
  have hsame : wordAt b.buffer.data addr = wordAt b.written addr := by
    refine wordAt_congr (by omega) fun x hx => h.unchanged x (h.dirty x (hdirty x ?_)).1
    simp only [Range.Covers] at hx ⊢
    omega
  -- the element that was converted over the byte is this one
  obtain ⟨range, hrange, hwithinRange⟩ := hcovered e he
  have hranges : hits (d.ranges p) i ≠ 0 := by
    have hcoversRange : range.Covers i := covers_of_within hcovers hwithinRange
    have hposRange : 0 < hits (d.ranges p) i :=
      List.countP_pos_iff.mpr ⟨range, hrange, decide_eq_true hcoversRange⟩
    omega
  have hconverted := hspec.converted i
  rw [if_neg hranges] at hconverted
  obtain ⟨q, hq, hcoversQ⟩ := List.countP_pos_iff.mp (hconverted ▸ hpos)
  obtain ⟨start, hmem, rfl⟩ := List.mem_map.mp hq
  obtain ⟨⟨e', he', rfl⟩, hconvertedWords⟩ := hwords start hmem
  have heq : p.element e = p.element e' := by
    have hcovers' : (p.element e').Covers i := of_decide_eq_true hcoversQ
    rcases (hsep _ (hdrawn e he)).2 _ (hdrawn e' he') with heq | hdisjoint | hclean
    · exact heq
    · exact absurd hcovers' (hdisjoint.not_covers hcovers)
    · rw [hclean.hits_eq_zero hcovers] at hpos
      cases hpos
  have hword : wordAt buffer.data addr = x2f (wordAt b.written addr) := by
    rw [← hsame, haddr, heq]
    exact hconvertedWords j hj
  refine ⟨hlo, hhi, ?_⟩
  rw [← hword]
  exact getElem?_of_wordAt (by omega) (by rw [hspec.length]; omega) hlo hhi

/-- A draw that finds its elements converts those that are dirty. -/
theorem Invariant.setupArray_finds (h : b.Invariant x2f)
    (haccepted : d.Accepted) (hfinds : d.Finds p b.buffer.conversionManager)
    (hfixed : p.type = GL_FIXED) (hsep : Separate elements b.buffer.conversionManager)
    (hsize : ∀ q ∈ elements, 0 < q.size) (hdrawn : ∀ e ∈ d.elements, p.element e ∈ elements) :
    ∃ b', b.setupArray x2f d p = .ok b' ∧ KeepsParts x2f b b' elements := by
  obtain ⟨hs, hends⟩ := hfinds
  obtain ⟨hruns, hcovered⟩ := Draw.ranges_spec haccepted hs fun e he => (hends e he).1
  obtain ⟨buffer, addresses, hconvert, hsep', hspec, hwords⟩ := convertRanges_spec x2f hsep hsize
    hdrawn h.inside h.length_lt hruns (fun e he => (hends e he).2) (Nat.le_of_eq d.length_elements)
  rw [← Draw.convert_eq x2f b.buffer hs] at hconvert
  refine ⟨_, (if_pos hfixed).trans (congrArg (Except.map _) hconvert), ?_, hsep',
    fun d hd => (hspec.parts d hd).2⟩
  have hinElement : ∀ x, 0 < hits (d.ranges p) x ↔ (d.component p b.written x).isSome := by
    intro x
    rw [isSome_component_iff]
    constructor
    · intro hpos
      obtain ⟨r, hr, hcovers⟩ := List.countP_pos_iff.mp hpos
      have hx := of_decide_eq_true hcovers
      rcases hruns r hr with hempty | ⟨-, e, k, hrun⟩
      · unfold Range.Covers at hx
        omega
      · obtain ⟨j, hj, hcovers⟩ := hrun.exists_element hx
        exact ⟨_, hrun.drawn j hj, hcovers⟩
    · rintro ⟨e, he, hx⟩
      obtain ⟨r, hr, hwithin⟩ := hcovered e he
      exact List.countP_pos_iff.mpr ⟨r, hr, decide_eq_true (covers_of_within hx hwithin)⟩
  have honce : ∀ x, 0 < hits (d.ranges p) x → hits b.buffer.conversionManager x ≤ 1 := by
    intro x hpos
    obtain ⟨e, he, hcovers⟩ := isSome_component_iff.mp ((hinElement x).mp hpos)
    have haligned := (hsep _ (hdrawn e he)).1
    rw [haligned.hits_eq hcovers]
    exact haligned.once
  refine ⟨?_, ?_, ?_, ?_, ?_, ?_, ?_⟩
  · dsimp only
    rw [hspec.length]
    exact h.length_lt
  · dsimp only
    rw [hspec.length, h.length_written]
  · intro d hd
    dsimp only at hd ⊢
    rw [hspec.length]
    exact (hspec.parts d hd).1
  · intro x hpos
    dsimp only at hpos ⊢
    rw [hspec.dirty] at hpos
    split at hpos
    · rename_i hout
      have hcomponent : d.component p b.written x = none :=
        Option.not_isSome_iff_eq_none.mp fun hsome => by
          rw [← hinElement, hout] at hsome
          cases hsome
      rw [hspec.converted, if_pos hout, (h.dirty x hpos).1, (h.dirty x hpos).2, hcomponent]
      exact ⟨rfl, rfl⟩
    · cases hpos
  · intro x hlo hhi hzero
    dsimp only at hhi hzero ⊢
    rw [hspec.length] at hhi
    rw [hspec.dirty] at hzero
    rw [hspec.converted, Option.isSome_or]
    split at hzero
    · grind [h.clean]
    · rename_i hne
      rw [if_neg hne, (hinElement x).mp (by omega), Bool.or_true]
      grind [h.clean, h.dirty]
  · grind [hspec.unchanged, h.unchanged]
  · intro i addr fixed hi hused
    dsimp only at hi hused ⊢
    rw [hspec.length] at hi
    by_cases hzero : hits b.buffer.conversionManager i = 0
    · -- what was clean keeps its byte and its use
      have hsome := (h.clean i (by omega) (by omega) hzero).2
      rw [Option.or_of_isSome hsome] at hused
      have hnone := hspec.converted i
      rw [hzero, ite_self] at hnone
      rw [hspec.unchanged i hnone]
      exact h.values i addr fixed hi hused
    · have hpos := Nat.pos_of_ne_zero hzero
      rw [(h.dirty i hpos).2, Option.none_or] at hused
      exact h.byte_of_component hsep hdrawn hcovered hspec hwords hpos hused

end VertexBuffer

/-! ## Runs -/

namespace VertexBuffers

variable {x2f : UInt32 → UInt32} {s : VertexBuffers} {d : Draw} {arrays : List GLESpointer}

/-- The buffers while the arrays of a draw are set up, with those that are still to come. -/
structure Ready (x2f : UInt32 → UInt32) (s : VertexBuffers) (d : Draw)
    (all arrays : List GLESpointer) : Prop where
  invariant : ∀ name, (s name).Invariant x2f
  separate : ∀ name, Separate (d.drawn all name) (s name).buffer.conversionManager
  careful : ∀ p ∈ arrays, p.type = GL_FIXED →
    d.Idle p (s p.bufferName).buffer.conversionManager ∨
      d.Finds p (s p.bufferName).buffer.conversionManager

theorem mem_drawn {p : GLESpointer} (hp : p ∈ arrays) (hfixed : p.type = GL_FIXED) {e : Int}
    (he : e ∈ d.elements) : p.element e ∈ d.drawn arrays p.bufferName :=
  List.mem_flatMap.mpr ⟨p, List.mem_filter.mpr ⟨hp, by simp [hfixed]⟩, List.mem_map_of_mem he⟩

theorem drawn_size {name : GLuint} : ∀ q ∈ d.drawn arrays name, 0 < q.size := by
  intro q hq
  obtain ⟨p, -, hq⟩ := List.mem_flatMap.mp hq
  obtain ⟨e, -, rfl⟩ := List.mem_map.mp hq
  exact p.attribSize_pos

theorem careful_of_parts {p : GLESpointer} {list list' : List Range} {n n' : Int}
    (h : d.Idle p list ∨ d.Finds p list) (hparts : ∀ d ∈ list', PartOf list d)
    (hlist : ∀ d ∈ list, d.Inside n) (hlist' : ∀ d ∈ list', d.Inside n') :
    d.Idle p list' ∨ d.Finds p list' := by
  rcases h with ⟨hnone, hclean⟩ | ⟨hs, hends⟩
  · refine .inl ⟨?_, fun e he => (hclean e he).of_partOf hparts⟩
    intro r hr e he
    obtain ⟨entry, hmem, hwithin, -⟩ := hparts e he
    obtain ⟨hlo, hhi⟩ := d.ranges_start p r hr
    exact Range.rangeIntersection_of_within hlo hhi (hlist entry hmem).toFits (hlist' e he).toFits
      hwithin (hnone r hr entry hmem)
  · exact .inr ⟨hs, fun e he => ⟨(hends e he).1, (hends e he).2.imp (·.of_partOf hparts) id⟩⟩

theorem Ready.setupArray {all : List GLESpointer} {p : GLESpointer}
    (h : Ready x2f s d all (p :: arrays)) (haccepted : d.Accepted) (hall : p ∈ all) :
    ∃ b, (s p.bufferName).setupArray x2f d p = .ok b ∧
      Ready x2f (Function.update s p.bufferName b) d all arrays := by
  have hrest : ∀ q ∈ arrays, q.type = GL_FIXED →
      d.Idle q (s q.bufferName).buffer.conversionManager ∨
        d.Finds q (s q.bufferName).buffer.conversionManager :=
    fun q hq => h.careful q (List.mem_cons_of_mem p hq)
  by_cases hfixed : p.type = GL_FIXED
  · obtain ⟨b, hsetup, hkeeps⟩ : ∃ b, (s p.bufferName).setupArray x2f d p = .ok b ∧
        VertexBuffer.KeepsParts x2f (s p.bufferName) b (d.drawn all p.bufferName) := by
      rcases h.careful p List.mem_cons_self hfixed with hidle | hfinds
      · exact (h.invariant _).setupArray_idle hidle hfixed (h.separate _)
      · exact (h.invariant _).setupArray_finds haccepted hfinds hfixed (h.separate _)
          drawn_size fun e he => mem_drawn hall hfixed he
    refine ⟨b, hsetup, ?_, ?_, ?_⟩
    · grind [hkeeps.invariant, h.invariant]
    · grind [hkeeps.separate, h.separate]
    · intro q hq hqfixed
      by_cases hname : q.bufferName = p.bufferName
      · have hcareful := hrest q hq hqfixed
        rw [hname] at hcareful ⊢
        rw [Function.update_self]
        exact careful_of_parts hcareful hkeeps.parts (h.invariant _).inside
          hkeeps.invariant.inside
      · grind
  · refine ⟨s p.bufferName, if_neg hfixed, ?_⟩
    rw [Function.update_eq_self]
    exact ⟨h.invariant, h.separate, hrest⟩

/-- Induction over the arrays of the draw. -/
theorem Ready.setupArraysPointers {all : List GLESpointer} (h : Ready x2f s d all arrays)
    (haccepted : d.Accepted) (hall : ∀ p ∈ arrays, p ∈ all) :
    ∃ t, VertexBuffers.setupArraysPointers x2f d s arrays = .ok t ∧
      ∀ name, (t name).Invariant x2f := by
  induction arrays generalizing s with
  | nil => exact ⟨s, rfl, h.invariant⟩
  | cons p arrays ih =>
      obtain ⟨b, hsetup, hready⟩ := h.setupArray haccepted (hall p List.mem_cons_self)
      obtain ⟨t, hrest, hinvariant⟩ := ih hready fun q hq => hall q (List.mem_cons_of_mem p hq)
      refine ⟨t, ?_, hinvariant⟩
      rw [VertexBuffers.setupArraysPointers, hsetup]
      exact hrest

theorem draw_spec (h : ∀ name, (s name).Invariant x2f) (hcareful : s.Careful (.draw d arrays)) :
    ∃ t, step x2f s (.draw d arrays) = .ok t ∧ ∀ name, (t name).Invariant x2f := by
  by_cases haccepted : d.Accepted
  · have hready : Ready x2f s d arrays arrays := by
      refine ⟨h, ?_, fun p hp hfixed => (hcareful haccepted p hp hfixed).1⟩
      intro name q hq
      obtain ⟨p, hp, hmem⟩ := List.mem_flatMap.mp hq
      obtain ⟨hmem', hnamed⟩ := List.mem_filter.mp hp
      obtain ⟨hfixed, rfl⟩ := of_decide_eq_true hnamed
      exact (hcareful haccepted p hmem' hfixed).2 q hq
    obtain ⟨t, hsetup, hinvariant⟩ := hready.setupArraysPointers haccepted fun _ hp => hp
    exact ⟨t, (if_pos haccepted).trans hsetup, hinvariant⟩
  · exact ⟨s, if_neg haccepted, h⟩

theorem step_invariant {t : VertexBuffers} {c : VertexCall} (h : ∀ name, (s name).Invariant x2f)
    (hcareful : s.Careful c) (hstep : step x2f s c = .ok t) (name : GLuint) :
    (t name).Invariant x2f := by
  cases c with
  | glBufferData name' data =>
      obtain rfl := Except.ok.inj hstep
      by_cases hname : name = name'
      · subst hname
        rw [Function.update_self]
        exact VertexBuffer.setBuffer_invariant x2f hcareful
      · grind
  | glBufferSubData name' offset data =>
      obtain ⟨b, hset, rfl⟩ := Run.map_eq_ok.mp hstep
      by_cases hname : name = name'
      · subst hname
        rw [Function.update_self]
        exact (h name).setSubBuffer hset
      · rw [Function.update_of_ne hname]
        exact h name
  | draw d arrays =>
      obtain ⟨t', hstep', hinvariant⟩ := draw_spec h hcareful
      obtain rfl := Except.ok.inj (hstep'.symm.trans hstep)
      exact hinvariant name

/-- On every run of careful calls the bytes of all buffers are converted once when they are
used, to those of the word as it was written, and not before; and careful draws go through. -/
theorem converted_once (x2f : UInt32 → UInt32) (s : VertexBuffers)
    (h : Run.Reach (step x2f) Careful init s) :
    (∀ name, (s name).ConvertedOnce x2f) ∧
      ∀ d arrays, s.Careful (.draw d arrays) → ∃ t, step x2f s (.draw d arrays) = .ok t := by
  have hinvariant : ∀ name, (s name).Invariant x2f :=
    h.invariant (I := fun s => ∀ name, (s name).Invariant x2f)
      (fun _ => VertexBuffer.invariant_new x2f)
      fun t c u ht hcareful hstep name => step_invariant ht hcareful hstep name
  refine ⟨fun name => (hinvariant name).convertedOnce, fun d arrays hcareful => ?_⟩
  obtain ⟨t, hstep, -⟩ := draw_spec hinvariant hcareful
  exact ⟨t, hstep⟩

/-- `X2F` on 0 and 1. -/
private def oneToFloat (fixed : UInt32) : UInt32 := if fixed = 0x10000 then 0x3F800000 else 0

/-- Elements of one component, without gaps. -/
private def components (name : GLuint) : GLESpointer :=
  ⟨name, 1, GL_FIXED, 0, 0, Nat.one_pos, Nat.le_of_ble_eq_true rfl, Nat.two_pow_pos 31⟩

/-- Two elements are drawn twice, one of them is written once more, and both are drawn through
indices. -/
theorem converted_once_drawn :
    ∃ s : VertexBuffers, (s 1).buffer.data = [0, 0, 0x80, 0x3F, 0, 0, 0x80, 0x3F, 0, 0, 1, 0] ∧
      (s 1).converted 4 = 1 ∧ (s 1).used 4 = some (4, 0x10000) ∧
      ∀ name, (s name).ConvertedOnce oneToFloat := by
  have hrun : Run.check (step oneToFloat) (fun s c => decide (s.Careful c))
      (fun s => (s 1).buffer.data = [0, 0, 0x80, 0x3F, 0, 0, 0x80, 0x3F, 0, 0, 1, 0] &&
        (s 1).converted 4 = 1 && (s 1).used 4 = some (4, 0x10000)) init
      [.glBufferData 1 [0, 0, 1, 0, 0, 0, 1, 0, 0, 0, 1, 0],
        .draw (.glDrawArrays 0 2) [components 1], .draw (.glDrawArrays 0 2) [components 1],
        .glBufferSubData 1 0 [0, 0, 1, 0],
        .draw (.glDrawElements 3 GL_UNSIGNED_BYTE (ofList [1, 0, 1] fun _ => 0))
          [components 1]] = true := by
    decide +kernel
  obtain ⟨s, hreach, htest⟩ := Run.exists_reach_of_check (fun _ _ h => of_decide_eq_true h) hrun
  simp only [Bool.and_eq_true, decide_eq_true_eq] at htest
  obtain ⟨⟨hdata, hconverted⟩, hused⟩ := htest
  exact ⟨s, hdata, hconverted, hused, (converted_once oneToFloat s hreach).1⟩

/-- Two writes of the same bytes leave two ranges, and the element is converted twice. -/
theorem rewritten_not_converted_once :
    ∃ s : VertexBuffers, Run.Reach (step oneToFloat) (fun _ _ => True) init s ∧
      ¬(s 1).ConvertedOnce oneToFloat := by
  have hrun : Run.check (step oneToFloat) (fun _ _ => true)
      (fun s => (s 1).buffer.data.length = 8 && ((s 1).used 0).isSome && (s 1).converted 0 = 2) init
      [.glBufferData 1 [0, 0, 1, 0, 0, 0, 1, 0], .draw (.glDrawArrays 0 2) [components 1],
        .glBufferSubData 1 0 [0, 0, 1, 0], .glBufferSubData 1 0 [0, 0, 1, 0],
        .draw (.glDrawArrays 0 2) [components 1]] = true := by
    decide +kernel
  obtain ⟨s, hreach, htest⟩ := Run.exists_reach_of_check (fun _ _ _ => trivial) hrun
  rw [Bool.and_eq_true, Bool.and_eq_true, decide_eq_true_eq, decide_eq_true_eq] at htest
  obtain ⟨⟨hlength, hused⟩, hconverted⟩ := htest
  refine ⟨s, hreach, fun h => ?_⟩
  have hone := h.converted 0 (by omega)
  rw [Int.natCast_zero, hconverted, if_pos hused] at hone
  cases hone

end VertexBuffers

end AndroidRenderer.Translator
