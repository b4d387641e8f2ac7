import AndroidRenderer.Lib.Buffer
import AndroidRenderer.Lib.LittleEndian
import AndroidRenderer.Lib.Run
import AndroidRenderer.OpenglCodecCommon.GLClientState
import AndroidRenderer.Translator.RangeList

/-!
# Vertex arrays in buffer objects

The driver has no fixed-point arrays, so the translator converts the elements of a `GL_FIXED`
array to floats inside the buffer object, before the first draw that uses them. The buffer
keeps the ranges of bytes that are still as the application has written them.

`x2f` stands for `X2F`, from the bits of a `GLfixed` to those of a `GLfloat`. Positions are
offsets from the start of the data of a buffer.
-/

namespace AndroidRenderer.Translator

open LittleEndian

inductive BufferFault
  | outOfBounds
  | endless
  deriving DecidableEq, Repr

/-- `m_size` is the length of the data. -/
structure GLESbuffer where
  data : List UInt8
  conversionManager : List Range
  deriving DecidableEq, Repr

namespace GLESbuffer

/-- `GLESbuffer::GLESbuffer` -/
def new : GLESbuffer := ⟨[], []⟩

/-- `setBuffer`; the size is a `GLuint`. -/
def setBuffer (data : List UInt8) : GLESbuffer :=
  let size : Nat := data.length % 2 ^ 32
  ⟨data.take size, [⟨0, GLint size⟩]⟩

/-- `setSubBuffer`, with nothing where it returns `false`. The sum is a `GLuint`. -/
def setSubBuffer (b : GLESbuffer) (offset : Int) (data : List UInt8) :
    Except BufferFault (Option GLESbuffer) :=
  let size : Nat := data.length % 2 ^ 32
  if (b.data.length : Int) < (GLint offset + size) % 2 ^ 32 then .ok none
  else if GLint offset < 0 then .error .outOfBounds
  else
    match Buffer.store? b.data (GLint offset).toNat (data.take size) with
    | none => .error .outOfBounds
    | some contents =>
        .ok (some ⟨contents,
          RangeList.merge (b.conversionManager ++ [⟨GLint offset, GLint size⟩])⟩)

/-- `getConversions`, with the conversions that it puts out. -/
def getConversions (b : GLESbuffer) (rIn : List Range) :
    Except BufferFault (GLESbuffer × List Range) :=
  match RangeList.delRanges b.conversionManager rIn [] with
  | none => .error .endless
  | some (list, rOut) => .ok ({ b with conversionManager := list }, RangeList.merge rOut)

def fullyConverted (b : GLESbuffer) : Bool := b.conversionManager.length = 0

end GLESbuffer

/-- A pointer into the buffer object `bufferName`. The pointer functions check the size and
that the stride is not negative. -/
structure GLESpointer where
  bufferName : GLuint
  size : Nat
  type : GLenum
  stride : Nat
  buffOffset : GLuint
  size_pos : 0 < size
  size_le : size ≤ 4
  stride_lt : stride < 2 ^ 31

namespace GLESpointer

/-- `attribSize` of the functions below, in bytes. -/
def attribSize (p : GLESpointer) : Int := p.size * 4

/-- `stride` of the functions below. -/
def byteStride (p : GLESpointer) : Int := if p.stride = 0 then p.attribSize else p.stride

/-- The bytes of an element, as the application and the driver place them. -/
def element (p : GLESpointer) (e : Int) : Range :=
  ⟨p.buffOffset.toNat + e * p.byteStride, p.attribSize⟩

end GLESpointer

def directToBytesRanges (first : Int) (count : Nat) (p : GLESpointer) : List Range :=
  let start := GLint (p.buffOffset.toNat + first * p.attribSize)
  if p.stride = 0 then [⟨start, GLint (count * p.attribSize)⟩]
  else (List.range count).map fun i : Nat => ⟨GLint (start + i * p.byteStride), p.attribSize⟩

/-- The index that `indirectToBytesRanges` reads. -/
def rangeIndex (indices_type : GLenum) (indices : Mem) (i : Nat) : Nat :=
  if indices_type = GL_UNSIGNED_SHORT then loadLE indices (2 * i) 2 else loadLE indices i 1

def indirectToBytesRanges (indices : Mem) (indices_type : GLenum) (count : Nat)
    (p : GLESpointer) : List Range :=
  (List.range count).map fun i : Nat =>
    ⟨GLint (p.buffOffset.toNat + rangeIndex indices_type indices i * p.byteStride), p.attribSize⟩

/-- The indices of one range. The values are `GLushort`s. -/
def rangeToIndices (p : GLESpointer) (r : Range) : List Nat :=
  let startIndex := (GLint (r.start - GLint p.buffOffset.toNat)).tdiv p.byteStride
  let nElements := r.size.tdiv p.attribSize
  (List.range nElements.toNat).map fun j => ((startIndex + j) % 2 ^ 16).toNat

/-- `bytesRangesToIndices` into an array of `count` indices. -/
def bytesRangesToIndices (ranges : List Range) (p : GLESpointer) (count : Nat) :
    Except BufferFault (List Nat) :=
  let indices := ranges.flatMap (rangeToIndices p)
  if indices.length ≤ count then .ok indices else .error .outOfBounds

section Conversion

variable (x2f : UInt32 → UInt32)

/-- One component is converted in its place. -/
def convertWord (data : List UInt8) (addr : Int) : Except BufferFault (List UInt8) :=
  if addr < 0 then .error .outOfBounds
  else
    let fixed := UInt32.ofNat (ofLE ((data.drop addr.toNat).take 4))
    match Buffer.store? data addr.toNat (leBytes 4 (x2f fixed).toNat) with
    | none => .error .outOfBounds
    | some data => .ok data

/-- The inner loop of `convertFixedIndirectLoop`. -/
def convertElement (size : Nat) (data : List UInt8) (addr : Int) :
    Except BufferFault (List UInt8) :=
  (List.range size).foldlM (fun data (j : Nat) => convertWord x2f data (addr + 4 * j)) data

def elementAddress (dataIn stride : Int) (index : Nat) : Int := dataIn + (index * stride) % 2 ^ 32

/-- `convertFixedIndirectLoop` with the same data and stride on both sides. -/
def convertFixedIndirectLoop (p : GLESpointer) (dataIn : Int) (data : List UInt8)
    (indices : List Nat) : Except BufferFault (List UInt8) :=
  indices.foldlM
    (fun data index => convertElement x2f p.size data (elementAddress dataIn p.byteStride index))
    data

def convertRanges (b : GLESbuffer) (p : GLESpointer) (dataIn : Int) (count : Nat)
    (ranges : List Range) : Except BufferFault (GLESbuffer × List Int) :=
  if b.fullyConverted then .ok (b, [])
  else do
    let (b, conversions) ← b.getConversions ranges
    if conversions.length = 0 then .ok (b, [])
    else
      let indices ← bytesRangesToIndices conversions p count
      let data ← convertFixedIndirectLoop x2f p dataIn b.data indices
      .ok ({ b with data }, indices.map (elementAddress dataIn p.byteStride))

def convertDirectVBO (b : GLESbuffer) (first : Int) (count : Nat) (p : GLESpointer) :
    Except BufferFault (GLESbuffer × List Int) :=
  convertRanges x2f b p (p.buffOffset.toNat + GLint (first * p.byteStride)) count
    (directToBytesRanges first count p)

def convertIndirectVBO (b : GLESbuffer) (count : Nat) (indices_type : GLenum) (indices : Mem)
    (p : GLESpointer) : Except BufferFault (GLESbuffer × List Int) :=
  convertRanges x2f b p p.buffOffset.toNat count
    (indirectToBytesRanges indices indices_type count p)

end Conversion

/-! ## Conversions of elements -/

section Conversion

variable (x2f : UInt32 → UInt32) {data : List UInt8} {addr : Int}

theorem convertWord_spec (h0 : 0 ≤ addr) (hend : addr + 4 ≤ data.length) :
    ∃ data', convertWord x2f data addr = .ok data' ∧ data'.length = data.length ∧
      ∀ i : Nat, ¬(⟨addr, 4⟩ : Range).Covers i → data'[i]? = data[i]? := by
  unfold convertWord
  rw [if_neg (by omega)]
  dsimp only
  split
  · grind [Buffer.store?_eq_none_iff]
  · grind [Range.Covers, Buffer.store?_length, Buffer.store?_getElem?]

/-- Induction over the components. -/
theorem convertElement_spec {size : Nat} (h0 : 0 ≤ addr) (hend : addr + size * 4 ≤ data.length) :
    ∃ data', convertElement x2f size data addr = .ok data' ∧ data'.length = data.length ∧
      ∀ i : Nat, ¬(⟨addr, size * 4⟩ : Range).Covers i → data'[i]? = data[i]? := by
  unfold convertElement
  induction size with
  | zero => exact ⟨data, rfl, rfl, fun _ _ => rfl⟩
  | succ size ih =>
      obtain ⟨data₁, hfirst, hlength₁, hsame₁⟩ := ih (by omega)
      have h0' : 0 ≤ addr + 4 * (size : Int) := by omega
      have hend' : addr + 4 * (size : Int) + 4 ≤ data₁.length := by omega
      obtain ⟨data₂, hword, hlength₂, hsame₂⟩ := convertWord_spec x2f h0' hend'
      refine ⟨data₂, ?_, hlength₂.trans hlength₁, ?_⟩
      · rw [List.range_succ, List.foldlM_append, hfirst]
        change convertWord x2f data₁ (addr + 4 * size) >>= pure = _
        rw [hword]
        rfl
      · intro i hi
        simp only [Range.Covers] at hsame₁ hsame₂ hi
        rw [hsame₂ i (by omega), hsame₁ i (by omega)]

/-- The loop converts elements that lie in the data, and nothing else changes. -/
theorem convertFixedIndirectLoop_spec {p : GLESpointer} {dataIn : Int} {indices : List Nat}
    (h : ∀ index ∈ indices, 0 ≤ elementAddress dataIn p.byteStride index ∧
      elementAddress dataIn p.byteStride index + p.attribSize ≤ data.length) :
    ∃ data', convertFixedIndirectLoop x2f p dataIn data indices = .ok data' ∧
      data'.length = data.length ∧
      ∀ i : Nat, (∀ index ∈ indices,
        ¬(⟨elementAddress dataIn p.byteStride index, p.attribSize⟩ : Range).Covers i) →
          data'[i]? = data[i]? := by
  unfold convertFixedIndirectLoop
  induction indices generalizing data with
  | nil => exact ⟨data, rfl, rfl, fun _ _ => rfl⟩
  | cons index indices ih =>
      obtain ⟨h0, hend⟩ := h index List.mem_cons_self
      obtain ⟨data₁, hfirst, hlength₁, hsame₁⟩ :=
        convertElement_spec x2f h0 hend
      have hinside : ∀ index ∈ indices, 0 ≤ elementAddress dataIn p.byteStride index ∧
          elementAddress dataIn p.byteStride index + p.attribSize ≤ data₁.length := by grind
      obtain ⟨data₂, hrest, hlength₂, hsame₂⟩ := ih hinside
      refine ⟨data₂, ?_, hlength₂.trans hlength₁, ?_⟩
      · rw [List.foldlM_cons, hfirst]
        exact hrest
      · intro i hi
        rw [hsame₂ i fun index' hindex' => hi index' (List.mem_cons_of_mem _ hindex'),
          hsame₁ i (hi index List.mem_cons_self)]

/-! ## The converted words -/

/-- The component at an offset. -/
def wordAt (data : List UInt8) (addr : Int) : UInt32 :=
  UInt32.ofNat (ofLE ((data.drop addr.toNat).take 4))

theorem wordAt_congr {data' : List UInt8} (h0 : 0 ≤ addr)
    (h : ∀ i : Nat, (⟨addr, 4⟩ : Range).Covers i → data'[i]? = data[i]?) :
    wordAt data' addr = wordAt data addr := by
  unfold wordAt
  congr 2
  apply List.ext_getElem?
  intro i
  rw [List.getElem?_take, List.getElem?_take]
  split
  · rw [List.getElem?_drop, List.getElem?_drop]
    apply h
    simp only [Range.Covers]
    omega
  · rfl

/-- A byte of the word at an offset. -/
theorem getElem?_of_wordAt (h0 : 0 ≤ addr) (hend : addr + 4 ≤ data.length) {i : Nat}
    (hlo : addr ≤ i) (hhi : i < addr + 4) :
    data[i]? = (leBytes 4 (wordAt data addr).toNat)[(i - addr).toNat]? := by
  have hlength : ((data.drop addr.toNat).take 4).length = 4 := by
    rw [List.length_take, List.length_drop]
    omega
  have hlt := ofLE_lt ((data.drop addr.toNat).take 4)
  rw [hlength] at hlt
  have hbytes := leBytes_ofLE ((data.drop addr.toNat).take 4)
  rw [hlength] at hbytes
  rw [wordAt, UInt32.toNat_ofNat_of_lt' hlt, hbytes, List.getElem?_take_of_lt (by omega),
    List.getElem?_drop]
  congr 1
  omega

theorem wordAt_convertWord {data' : List UInt8} (h : convertWord x2f data addr = .ok data') :
    wordAt data' addr = x2f (wordAt data addr) := by
  unfold convertWord at h
  split at h
  · cases h
  · dsimp only at h
    split at h
    · cases h
    · rename_i stored hstore
      obtain rfl := Except.ok.inj h
      have htake := Buffer.store?_take hstore
      have hlength := Buffer.store?_isSome_iff.mp (Option.isSome_iff_exists.mpr ⟨_, hstore⟩)
      rw [leBytes_length] at htake hlength
      have hfront : (data.take addr.toNat).length = addr.toNat := by grind
      have hword : (stored.drop addr.toNat).take 4 = leBytes 4 (x2f (wordAt data addr)).toNat :=
        calc (stored.drop addr.toNat).take 4
            = (stored.take (addr.toNat + 4)).drop addr.toNat := by
              rw [List.drop_take, Nat.add_sub_cancel_left]
          _ = leBytes 4 (x2f (wordAt data addr)).toNat := by
              rw [htake, List.drop_left' hfront]
              rfl
      rw [wordAt, hword, ofLE_leBytes (UInt32.toNat_lt _), UInt32.ofNat_toNat]

/-- Induction over the components. -/
theorem wordAt_convertElement {size : Nat} {data' : List UInt8} (h0 : 0 ≤ addr)
    (hend : addr + size * 4 ≤ data.length) (h : convertElement x2f size data addr = .ok data')
    {j : Nat} (hj : j < size) :
    wordAt data' (addr + 4 * j) = x2f (wordAt data (addr + 4 * j)) := by
  induction size generalizing data' with
  | zero => cases hj
  | succ size ih =>
      have hend₁ : addr + size * 4 ≤ data.length := by omega
      obtain ⟨data₁, hfirst, hlength₁, hsame₁⟩ := convertElement_spec x2f h0 hend₁
      rw [convertElement, List.range_succ, List.foldlM_append] at h
      obtain ⟨data₂, hfirst', hlast⟩ := Run.bind_eq_ok.mp h
      obtain rfl := Except.ok.inj (hfirst.symm.trans hfirst')
      have hword : convertWord x2f data₁ (addr + 4 * size) = .ok data' := by
        rw [List.foldlM_cons] at hlast
        obtain ⟨data₂, hword, hnil⟩ := Run.bind_eq_ok.mp hlast
        rw [hword]
        exact hnil
      have h0' : 0 ≤ addr + 4 * (size : Int) := by omega
      have hend' : addr + 4 * (size : Int) + 4 ≤ data₁.length := by omega
      rcases Nat.lt_succ_iff_lt_or_eq.mp hj with hlt | rfl
      · obtain ⟨data₂, hword', -, hsame₂⟩ := convertWord_spec x2f h0' hend'
        obtain rfl := Except.ok.inj (hword.symm.trans hword')
        rw [← ih (by omega) hfirst hlt]
        apply wordAt_congr (by omega)
        intro i hi
        apply hsame₂
        simp only [Range.Covers] at hi ⊢
        omega
      · rw [wordAt_convertWord x2f hword]
        congr 1
        apply wordAt_congr h0'
        grind [Range.Covers]

/-- The loop converts the words of each element that has its bytes for itself. Induction over the
indices. -/
theorem wordAt_convertFixedIndirectLoop {p : GLESpointer} {dataIn : Int} {indices : List Nat}
    {data' : List UInt8} (hinside : ∀ index ∈ indices, 0 ≤ elementAddress dataIn p.byteStride index ∧
      elementAddress dataIn p.byteStride index + p.attribSize ≤ data.length)
    (h : convertFixedIndirectLoop x2f p dataIn data indices = .ok data') {index : Nat}
    (hindex : index ∈ indices)
    (honce : ∀ x, (⟨elementAddress dataIn p.byteStride index, p.attribSize⟩ : Range).Covers x →
      RangeList.hits (indices.map fun index =>
        ⟨elementAddress dataIn p.byteStride index, p.attribSize⟩) x ≤ 1) {j : Nat}
    (hj : j < p.size) :
    wordAt data' (elementAddress dataIn p.byteStride index + 4 * j) =
      x2f (wordAt data (elementAddress dataIn p.byteStride index + 4 * j)) := by
  have hattrib : p.attribSize = p.size * 4 := rfl
  have hwithin : ∀ i : Nat,
      (⟨elementAddress dataIn p.byteStride index + 4 * (j : Int), 4⟩ : Range).Covers i →
        (⟨elementAddress dataIn p.byteStride index, p.attribSize⟩ : Range).Covers i := by
    grind [Range.Covers]
  induction indices generalizing data with
  | nil => cases hindex
  | cons first indices ih =>
      rw [convertFixedIndirectLoop, List.foldlM_cons] at h
      obtain ⟨data₁, hfirst, hrest⟩ := Run.bind_eq_ok.mp h
      obtain ⟨h0, hend⟩ := hinside first List.mem_cons_self
      obtain ⟨data₂, hfirst', hlength₁, hsame₁⟩ := convertElement_spec x2f h0 hend
      obtain rfl := Except.ok.inj (hfirst.symm.trans hfirst')
      have hinside₁ : ∀ index ∈ indices, 0 ≤ elementAddress dataIn p.byteStride index ∧
          elementAddress dataIn p.byteStride index + p.attribSize ≤ data₁.length := by grind
      have hindex0 := (hinside index hindex).1
      by_cases hin : index ∈ indices
      · rw [ih hinside₁ hrest hin]
        · congr 1
          apply wordAt_congr (by omega)
          intro i hi
          apply hsame₁
          intro (hcovers : (⟨_, p.attribSize⟩ : Range).Covers i)
          have hle := honce i (hwithin i hi)
          have hpos : 0 < RangeList.hits (indices.map fun index =>
              ⟨elementAddress dataIn p.byteStride index, p.attribSize⟩) i :=
            List.countP_pos_iff.mpr ⟨_, List.mem_map_of_mem hin, decide_eq_true (hwithin i hi)⟩
          rw [List.map_cons, RangeList.hits_cons, if_pos hcovers] at hle
          omega
        · intro x hx
          have hle := honce x hx
          rw [List.map_cons, RangeList.hits_cons] at hle
          omega
      · obtain rfl : index = first := (List.mem_cons.mp hindex).resolve_right hin
        obtain ⟨data₂, hrest', -, hsame₂⟩ := convertFixedIndirectLoop_spec x2f hinside₁
        obtain rfl := Except.ok.inj (hrest.symm.trans hrest')
        rw [← wordAt_convertElement x2f h0 hend hfirst hj]
        apply wordAt_congr (by omega)
        intro i hi
        apply hsame₂
        intro index' hindex' hcovers
        have hle := honce i (hwithin i hi)
        have hpos : 0 < RangeList.hits (indices.map fun index =>
            ⟨elementAddress dataIn p.byteStride index, p.attribSize⟩) i :=
          List.countP_pos_iff.mpr ⟨_, List.mem_map_of_mem hindex', decide_eq_true hcovers⟩
        rw [List.map_cons, RangeList.hits_cons, if_pos (hwithin i hi)] at hle
        omega

end Conversion

end AndroidRenderer.Translator
