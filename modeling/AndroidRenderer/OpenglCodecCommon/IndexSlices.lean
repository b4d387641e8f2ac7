import AndroidRenderer.Lib.Run
import AndroidRenderer.OpenglCodecCommon.DrawEncoder

/-!
# The vertices of an indexed draw call

`glDrawElements` sends of each client array only the elements that the indices reach, and
indices that count from the first of these. The host stores the packed data and draws from
it with a stride of 0. Here the vertices it draws are compared with those that the indices
of the application select from the arrays of the application.
-/

namespace AndroidRenderer

/-! ## The arrays of the application and of the host -/

namespace VertexPointer

/-- The addresses of an element of an array. -/
def element (p : VertexPointer) (j : Nat) : List UInt32 :=
  addresses (p.data + p.step * UInt32.ofNat j) p.elementSize

def vertex (mem : ClientMemory) (p : VertexPointer) (j : Nat) : List UInt8 :=
  (p.element j).map mem

end VertexPointer

structure HostArray where
  elementSize : UInt32
  data : List UInt8

/-- An element of tightly packed data, if the data is long enough. -/
def HostArray.vertex (a : HostArray) (k : Nat) : Option (List UInt8) :=
  let v := (a.data.drop (k * a.elementSize.toNat)).take a.elementSize.toNat
  if v.length = a.elementSize.toNat then some v else none

/-- `storePointerData`, and the pointer call behind it that has a stride of 0. -/
def storePointerData (arrays : Nat → Option HostArray) : DrawCommand → Nat → Option HostArray
  | .pointerData i size type _ _ data =>
      Function.update arrays i (some ⟨glSizeof type * UInt32.ofInt size, data⟩)
  | _ => arrays

def hostArrays (commands : List DrawCommand) : Nat → Option HostArray :=
  commands.foldl storePointerData fun _ => none

namespace EncoderKind

variable (k : EncoderKind)

/-- The array at a location, if it is enabled and lies in the application's memory. -/
def clientArray (s : GLClientState) (i : Nat) : Option VertexPointer :=
  if i < k.locations s ∧ (s.states i).enabled then
    (s.states i).pointer.filter fun p => p.bufferObject = 0
  else none

/-- The enabled arrays have been set, by the pointer function of their location. -/
def Specified (s : GLClientState) : Prop :=
  ∀ i < k.locations s, (s.states i).enabled = true →
    (s.states i).pointer.any (fun p => k.pointerSize i p.size == p.size) = true

instance (s : GLClientState) : Decidable (k.Specified s) := by
  unfold Specified
  infer_instance

variable {k}

theorem Specified.exists_pointer {s : GLClientState} (h : k.Specified s) {i : Nat}
    (hi : i < k.locations s) (henabled : (s.states i).enabled = true) :
    ∃ p, (s.states i).pointer = some p ∧ k.pointerSize i p.size = p.size := by
  obtain ⟨p, hp, hsize⟩ := (Option.any_eq_true _ _).mp (h i hi henabled)
  exact ⟨p, hp, by simpa using hsize⟩

end EncoderKind

/-- The vertices that the host draws for the indices of a call are those of the application,
and of the client arrays only elements between two indices are read. -/
def SendsSlices (k : EncoderKind) (ctx : DrawEncoder) (mem : ClientMemory) (mode : GLenum)
    (count : Int) (type : GLenum) (indices : UInt32) (ia : IndexArray) : Prop :=
  ∃ ctx' out, ctx.glDrawElements k mem mode count type indices = .ok (ctx', out) ∧
    (∀ i p, k.clientArray ctx.state i = some p →
      ∃ sent a, out.commands.getLast? = some (.glDrawElementsData mode count type sent) ∧
        hostArrays out.commands i = some a ∧
        sent.values.map a.vertex = ia.values.map fun j => some (p.vertex mem j)) ∧
    ∀ addr ∈ out.reads, ∃ i p, k.clientArray ctx.state i = some p ∧
      ∃ lo ∈ ia.values, ∃ hi ∈ ia.values, ∃ j, lo ≤ j ∧ j ≤ hi ∧ addr ∈ p.element j

/-- The elements of an array between two indices take less than 2^32 bytes, and there are
indices if the elements have bytes. -/
def SliceFits (ia : IndexArray) (p : VertexPointer) : Prop :=
  p.elementSize = 0 ∨ ia.values ≠ [] ∧
    ∀ lo ∈ ia.values, ∀ hi ∈ ia.values, (hi + 1 - lo) * p.elementSize.toNat < 2 ^ 32

instance (ia : IndexArray) (p : VertexPointer) : Decidable (SliceFits ia p) := by
  unfold SliceFits
  infer_instance

/-! ## Packed elements -/

theorem elements_block (src stride vsize : UInt32) {n i : Nat} (h : i < n) :
    ((elements src stride vsize n).drop (i * vsize.toNat)).take vsize.toNat =
      addresses (src + stride * UInt32.ofNat i) vsize := by
  induction i generalizing src n with
  | zero =>
      obtain ⟨n, rfl⟩ := Nat.exists_eq_succ_of_ne_zero (Nat.ne_of_gt h)
      simp [elements_succ, List.drop_zero, addresses_length]
  | succ i ih =>
      obtain ⟨n, rfl⟩ := Nat.exists_eq_succ_of_ne_zero (Nat.ne_of_gt (Nat.zero_lt_of_lt h))
      have hlength := addresses_length src vsize
      have hcast : UInt32.ofNat (i + 1) = UInt32.ofNat i + 1 := by simp
      rw [elements_succ, Nat.succ_mul, Nat.add_comm, ← List.drop_drop, ← hlength, List.drop_left,
        hlength, ih (src + stride) (Nat.lt_of_succ_lt_succ h), hcast, UInt32.mul_add,
        UInt32.mul_one, UInt32.add_comm (stride * _), UInt32.add_assoc]

/-- The data that is sent for an array from `first` on. -/
def packed (p : VertexPointer) (first count : Int) : Option (List UInt32) :=
  glUtilsPackPointerData (p.data + p.step * UInt32.ofInt first) p.size p.type p.stride
    (p.elementSize * UInt32.ofInt count)

theorem packed_length {p : VertexPointer} {first count : Int} {reads : List UInt32}
    (h : packed p first count = some reads) :
    reads.length = (p.elementSize * UInt32.ofInt count).toNat :=
  glUtilsPackPointerData_length h

theorem packed_eq (p : VertexPointer) (first : Int) {n : Nat}
    (h : n * p.elementSize.toNat < 2 ^ 32) :
    packed p first n =
      some (elements (p.data + p.step * UInt32.ofInt first) p.step p.elementSize n) := by
  rw [packed, ofInt_natCast]
  exact glUtilsPackPointerData_eq _ p.size p.type p.stride h

/-- The stored slice holds the elements of the application's array. -/
theorem vertex_elements (mem : ClientMemory) (p : VertexPointer) (lo : Nat) {n i : Nat}
    (h : i < n) :
    HostArray.vertex ⟨p.elementSize,
        (elements (p.data + p.step * UInt32.ofInt lo) p.step p.elementSize n).map mem⟩ i =
      some (p.vertex mem (lo + i)) := by
  have hblock := elements_block (p.data + p.step * UInt32.ofNat lo) p.step p.elementSize h
  rw [UInt32.add_assoc, ← UInt32.mul_add, ← UInt32.ofNat_add] at hblock
  simp only [HostArray.vertex, ofInt_natCast, ← List.map_drop, ← List.map_take, hblock,
    List.length_map, addresses_length, if_true]
  rfl

/-- The stored data is long enough for each vertex it has. -/
theorem HostArray.le_of_vertex {a : HostArray} {i : Nat} {v : List UInt8}
    (h : a.vertex i = some v) (hpos : 0 < a.elementSize.toNat) :
    (i + 1) * a.elementSize.toNat ≤ a.data.length := by
  simp only [HostArray.vertex] at h
  grind

theorem mem_elements {src stride vsize : UInt32} {n : Nat} {addr : UInt32}
    (h : addr ∈ elements src stride vsize n) :
    ∃ i < n, addr ∈ addresses (src + stride * UInt32.ofNat i) vsize := by
  obtain ⟨i, hi, haddr⟩ := List.mem_flatMap.mp h
  exact ⟨i, List.mem_range.mp hi, haddr⟩

/-! ## One location -/

@[simp] theorem foldl_storePointerData_append (a b : List DrawCommand)
    (arrays : Nat → Option HostArray) :
    (a ++ b).foldl storePointerData arrays =
      b.foldl storePointerData (a.foldl storePointerData arrays) :=
  List.foldl_append

/-- The commands leave the arrays of the host alone. -/
def KeepsArrays (commands : List DrawCommand) : Prop :=
  ∀ arrays, commands.foldl storePointerData arrays = arrays

theorem keepsArrays_send_append {front : List DrawCommand} (h : KeepsArrays front) (out : Output)
    (arrays : Nat → Option HostArray) :
    ((Output.send front).append out).commands.foldl storePointerData arrays =
      out.commands.foldl storePointerData arrays := by
  change (front ++ out.commands).foldl _ _ = _
  rw [foldl_storePointerData_append, h]

theorem keepsArrays_of_isEnable {commands : List DrawCommand} (h : ∀ c ∈ commands, c.IsEnable) :
    KeepsArrays commands := by
  intro arrays
  induction commands with
  | nil => rfl
  | cons c commands ih =>
      have hkeep : storePointerData arrays c = arrays := by
        have hc := h c List.mem_cons_self
        cases c <;> first | rfl | exact hc.elim
      grind

/-- What a turn of the loop does for a client array whose data is packed. -/
def SendsArray (mem : ClientMemory) (i : Nat) (p : VertexPointer) (reads : List UInt32)
    (out : Output) : Prop :=
  out.reads = reads ∧ ∀ arrays, out.commands.foldl storePointerData arrays =
    Function.update arrays i (some ⟨p.elementSize, reads.map mem⟩)

namespace EncoderKind

variable {k : EncoderKind} {s : GLClientState} {i : Nat} {p : VertexPointer}
  (mem : ClientMemory) (first count : Int)

theorem clientArray_eq_some (h : k.clientArray s i = some p) :
    i < k.locations s ∧ (s.states i).enabled = true ∧ (s.states i).pointer = some p ∧
      p.bufferObject = 0 := by
  unfold clientArray at h
  split at h
  · rename_i henabled
    obtain ⟨hp, hbuffer⟩ := Option.filter_eq_some_iff.mp h
    exact ⟨henabled.1, henabled.2, hp, by simpa using hbuffer⟩
  · cases h

theorem sendLocation_client (hset : k.Specified s) (h : k.clientArray s i = some p) :
    (∀ reads, packed p first count = some reads →
      ∃ out, k.sendLocation mem s first count i = .ok out ∧ SendsArray mem i p reads out) ∧
    (packed p first count = none → k.sendLocation mem s first count i = .error .outOfBounds) := by
  obtain ⟨hi, henabled, hp, hbuffer⟩ := clientArray_eq_some h
  obtain ⟨p', hp', hsize⟩ := hset.exists_pointer hi henabled
  obtain rfl := Option.some.inj (hp.symm.trans hp')
  obtain ⟨front, hfront, hsend⟩ :=
    sendLocation_enabled (k := k) mem first count henabled hp
  rw [hsend, hsize]
  unfold sendArray
  rw [if_pos hbuffer]
  refine ⟨fun reads hreads => ?_, fun hnone => ?_⟩
  · rw [packed] at hreads
    rw [hreads]
    refine ⟨_, rfl, rfl, fun arrays => ?_⟩
    rw [keepsArrays_send_append (keepsArrays_of_isEnable hfront)]
    rfl
  · rw [packed] at hnone
    rw [hnone]
    rfl

theorem sendLocation_other (hset : k.Specified s) (hi : i < k.locations s)
    (h : k.clientArray s i = none) :
    ∃ out, k.sendLocation mem s first count i = .ok out ∧ out.reads = [] ∧
      KeepsArrays out.commands := by
  cases henabled : (s.states i).enabled with
  | false =>
      obtain ⟨out, hout, hreads, henable⟩ := sendLocation_disabled (k := k) mem first count henabled
      exact ⟨out, hout, hreads, keepsArrays_of_isEnable henable⟩
  | true =>
      obtain ⟨p, hp, -⟩ := hset.exists_pointer hi henabled
      have hbuffer : p.bufferObject ≠ 0 := by grind [clientArray]
      obtain ⟨front, hfront, hsend⟩ :=
        sendLocation_enabled (k := k) mem first count henabled hp
      rw [hsend]
      unfold sendArray
      rw [if_neg hbuffer]
      refine ⟨_, rfl, rfl, fun arrays => ?_⟩
      rw [keepsArrays_send_append (keepsArrays_of_isEnable hfront)]
      rfl

/-! ## All locations -/

variable {mem first count}

/-- What a turn of the loop leaves, whichever array lies at its location. -/
def LocationSpec (k : EncoderKind) (mem : ClientMemory) (s : GLClientState) (first count : Int)
    (i : Nat) (out : Output) : Prop :=
  (∃ p reads, k.clientArray s i = some p ∧ packed p first count = some reads ∧
    SendsArray mem i p reads out) ∨
  (k.clientArray s i = none ∧ out.reads = [] ∧ KeepsArrays out.commands)

@[simp] theorem concat_cons (out : Output) (outs : List Output) :
    (Output.concat (out :: outs)).commands = out.commands ++ (Output.concat outs).commands := rfl

theorem sendLocation_spec (hset : k.Specified s) (hi : i < k.locations s) {out : Output}
    (h : k.sendLocation mem s first count i = .ok out) : k.LocationSpec mem s first count i out := by
  cases hclient : k.clientArray s i with
  | none =>
      obtain ⟨out', hout, hreads, hkeeps⟩ :=
        sendLocation_other mem first count hset hi hclient
      obtain rfl := Except.ok.inj (h.symm.trans hout)
      exact .inr ⟨hclient, hreads, hkeeps⟩
  | some p =>
      obtain ⟨hsome, hnone⟩ :=
        sendLocation_client mem first count hset hclient
      cases hpacked : packed p first count with
      | none => grind
      | some reads =>
          obtain ⟨out', hout, hsends⟩ := hsome reads hpacked
          obtain rfl := Except.ok.inj (h.symm.trans hout)
          exact .inl ⟨p, reads, hclient, hpacked, hsends⟩

/-- The array at a location is the one that its own turn has sent. -/
theorem foldl_concat {l : List Nat} (hl : l.Nodup) {outs : List Output}
    (h : List.Forall₂ (k.LocationSpec mem s first count) l outs) (arrays : Nat → Option HostArray)
    (i : Nat) :
    (i ∉ l → (Output.concat outs).commands.foldl storePointerData arrays i = arrays i) ∧
      ∀ p reads, i ∈ l → k.clientArray s i = some p → packed p first count = some reads →
        (Output.concat outs).commands.foldl storePointerData arrays i =
          some ⟨p.elementSize, reads.map mem⟩ := by
  induction h generalizing arrays with
  | nil => simp [Output.concat]
  | @cons j out l outs hout _ ih =>
      rw [List.nodup_cons] at hl
      rw [concat_cons, foldl_storePointerData_append]
      obtain ⟨hkeep, hset⟩ := ih hl.2 (out.commands.foldl storePointerData arrays)
      refine ⟨fun hi => ?_, fun p reads hi hp hreads => ?_⟩
      · rw [List.mem_cons, not_or] at hi
        rw [hkeep hi.2]
        rcases hout with ⟨p, reads, -, -, -, hfold⟩ | ⟨-, -, hfold⟩
        · rw [hfold, Function.update_of_ne hi.1]
        · rw [hfold]
      · rcases List.mem_cons.mp hi with rfl | hi
        · rw [hkeep hl.1]
          rcases hout with ⟨p', reads', hp', hreads', -, hfold⟩ | ⟨hnone, -, -⟩
          · obtain rfl := Option.some.inj (hp.symm.trans hp')
            obtain rfl := Option.some.inj (hreads.symm.trans hreads')
            rw [hfold, Function.update_self]
          · grind
        · exact hset p reads hi hp hreads

theorem mem_reads_concat {outs : List Output} {addr : UInt32} :
    addr ∈ (Output.concat outs).reads ↔ ∃ out ∈ outs, addr ∈ out.reads :=
  List.mem_flatMap

theorem sendVertexData_eq_ok {s' : GLClientState} {out : Output} :
    k.sendVertexData mem s first count = .ok (s', out) ↔
      s' = s.clearEnableDirty (k.locations s) ∧
        ∃ outs, List.Forall₂ (fun i out => k.sendLocation mem s first count i = .ok out)
          (List.range (k.locations s)) outs ∧ out = .concat outs := by
  unfold sendVertexData
  rw [Run.bind_eq_ok]
  simp only [Run.mapM_eq_ok]
  constructor
  · rintro ⟨outs, houts, heq⟩
    obtain ⟨rfl, rfl⟩ := Prod.mk.inj (Except.ok.inj heq)
    exact ⟨rfl, outs, houts, rfl⟩
  · rintro ⟨rfl, outs, houts, rfl⟩
    exact ⟨outs, houts, rfl⟩

/-- What has been sent when the loop ends: the packed data of every client array. -/
theorem sendVertexData_spec (hset : k.Specified s) {s' : GLClientState} {out : Output}
    (h : k.sendVertexData mem s first count = .ok (s', out)) :
    (∀ i p, k.clientArray s i = some p → ∃ reads, packed p first count = some reads ∧
      reads ⊆ out.reads ∧ ∀ arrays, out.commands.foldl storePointerData arrays i =
        some ⟨p.elementSize, reads.map mem⟩) ∧
    ∀ addr ∈ out.reads, ∃ i p reads, k.clientArray s i = some p ∧
      packed p first count = some reads ∧ addr ∈ reads := by
  obtain ⟨-, outs, houts, rfl⟩ := sendVertexData_eq_ok.mp h
  have hspec : List.Forall₂ (k.LocationSpec mem s first count) (List.range (k.locations s)) outs := by
    have hturns := (List.forall₂_and_left _ _).mpr ⟨fun i hi => List.mem_range.mp hi, houts⟩
    exact hturns.imp fun i out hturn => sendLocation_spec hset hturn.1 hturn.2
  refine ⟨fun i p hp => ?_, fun addr haddr => ?_⟩
  · have hi : i ∈ List.range (k.locations s) := List.mem_range.mpr (clientArray_eq_some hp).1
    obtain ⟨out, hout, hturn⟩ : ∃ out ∈ outs, k.LocationSpec mem s first count i out := by
      exact Run.exists_of_forall₂_left hspec hi
    rcases hturn with ⟨p', reads, hp', hreads, hsent, -⟩ | ⟨hnone, -, -⟩
    · obtain rfl := Option.some.inj (hp.symm.trans hp')
      grind [mem_reads_concat, foldl_concat]
    · grind
  · obtain ⟨out, hout, haddr⟩ := mem_reads_concat.mp haddr
    obtain ⟨i, -, hturn⟩ := Run.exists_of_forall₂_right hspec hout
    rcases hturn with ⟨p, reads, hp, hreads, hsent, -⟩ | ⟨-, hempty, -⟩
    · exact ⟨i, p, reads, hp, hreads, hsent ▸ haddr⟩
    · grind

variable (mem)

/-- The loop ends if the data of every client array can be packed. -/
theorem sendVertexData_isOk (hset : k.Specified s)
    (h : ∀ i p, k.clientArray s i = some p → ∃ reads, packed p first count = some reads) :
    ∃ out, k.sendVertexData mem s first count = .ok (s.clearEnableDirty (k.locations s), out) := by
  have hturns : ∀ i ∈ List.range (k.locations s),
      ∃ out, k.sendLocation mem s first count i = .ok out := by
    intro i hi
    cases hclient : k.clientArray s i with
    | none =>
        obtain ⟨out, hout, -⟩ :=
          sendLocation_other mem first count hset (List.mem_range.mp hi) hclient
        exact ⟨out, hout⟩
    | some p =>
        obtain ⟨reads, hreads⟩ := h i p hclient
        obtain ⟨out, hout, -⟩ := (sendLocation_client mem first count hset hclient).1 reads hreads
        exact ⟨out, hout⟩
  obtain ⟨outs, houts⟩ : ∃ outs, List.Forall₂
      (fun i out => k.sendLocation mem s first count i = .ok out)
      (List.range (k.locations s)) outs := by
    generalize List.range (k.locations s) = l at hturns
    induction l with
    | nil => exact ⟨[], .nil⟩
    | cons i l ih =>
        obtain ⟨out, hout⟩ := hturns i (by simp)
        obtain ⟨outs, houts⟩ := ih fun j hj => hturns j (by simp [hj])
        exact ⟨out :: outs, .cons hout houts⟩
  exact ⟨_, sendVertexData_eq_ok.mpr ⟨rfl, outs, houts, rfl⟩⟩

end EncoderKind

/-! ## The draw call -/

theorem IndexArray.supported_ofBytes {type : GLenum}
    (htype : type = GL_UNSIGNED_BYTE ∨ type = GL_UNSIGNED_SHORT) (bs : List UInt8) :
    (IndexArray.ofBytes type bs).Supported := by
  rcases htype with rfl | rfl <;> exact trivial

namespace DrawEncoder

variable {k : EncoderKind} {ctx : DrawEncoder} {mem : ClientMemory} (mode : GLenum) {count : Int}
  {type : GLenum} {indices : UInt32} {ia : IndexArray}

theorem exists_ofBytes (h : ctx.indexArray mem count type indices = .ok ia) :
    ∃ bs : List UInt8, ia = .ofBytes type bs ∧
      bs.length = (UInt32.ofInt count * glSizeof type).toNat := by
  unfold indexArray at h
  split at h
  · split at h
    · cases h
    · unfold BufferData.indices at h
      grind
  · exact ⟨_, (Except.ok.inj h).symm, by simp⟩

theorem arraysSet_of_specified (hset : k.Specified ctx.state) : k.arraysSet ctx.state = true := by
  refine List.all_eq_true.mpr fun i hi => ?_
  grind [hset.exists_pointer]

theorem enabledArray_client_iff :
    k.enabledArray ctx.state true = true ↔ ∃ i p, k.clientArray ctx.state i = some p := by
  simp only [EncoderKind.enabledArray, List.any_eq_true, List.mem_range, Bool.and_eq_true,
    Option.any_eq_true, beq_true, beq_iff_eq]
  grind [EncoderKind.clientArray, EncoderKind.clientArray_eq_some]

/-- With a client array, the indices are sent with the call. -/
theorem glDrawElements_client (hcount : 0 ≤ count) (hset : k.Specified ctx.state)
    (hclient : ∃ i p, k.clientArray ctx.state i = some p)
    (hsource : ctx.indexArray mem count type indices = .ok ia) :
    ∃ front, KeepsArrays front ∧ ctx.glDrawElements k mem mode count type indices =
      (k.sendVertexData mem ctx.state ia.adjust.1 (ia.adjust.2.1 - ia.adjust.1 + 1)).map fun r =>
        ({ ctx with state := r.1 }, (Output.send front).append
          (r.2.append (.send [.glDrawElementsData mode count type ia.adjust.2.2]))) := by
  have himmediate := enabledArray_client_iff.mpr hclient
  refine ⟨if ctx.state.currentIndexVbo ≠ 0 then [.glBindBuffer GL_ELEMENT_ARRAY_BUFFER 0] else [],
    fun arrays => by split <;> rfl, ?_⟩
  simp only [glDrawElements, if_neg (Int.not_lt.mpr hcount), arraysSet_of_specified hset,
    himmediate, hsource, drawElementsData, Bool.not_true, Bool.false_and, Bool.false_eq_true,
    and_false, if_false, bind, Except.bind]
  cases k.sendVertexData mem ctx.state ia.adjust.1 (ia.adjust.2.1 - ia.adjust.1 + 1) <;> rfl

/-- Without one, nothing of the application's memory is sent as an array. -/
theorem glDrawElements_noClient (hcount : 0 ≤ count) (hset : k.Specified ctx.state)
    (hclient : ∀ i, k.clientArray ctx.state i = none)
    (hsource : ctx.indexArray mem count type indices = .ok ia) :
    ∃ ctx' out, ctx.glDrawElements k mem mode count type indices = .ok (ctx', out) ∧
      out.reads = [] := by
  have himmediate : k.enabledArray ctx.state true = false := by
    simp [Bool.eq_false_iff, Ne, enabledArray_client_iff, hclient]
  have hsend : ∀ first n, ∃ out, k.sendVertexData mem ctx.state first n =
      .ok (ctx.state.clearEnableDirty (k.locations ctx.state), out) ∧ out.reads = [] := by
    intro first n
    have hpacked : ∀ i p, k.clientArray ctx.state i = some p →
        ∃ reads, packed p first n = some reads := by simp [hclient]
    obtain ⟨out, hout⟩ := EncoderKind.sendVertexData_isOk mem hset hpacked
    refine ⟨out, hout, List.eq_nil_iff_forall_not_mem.mpr fun addr haddr => ?_⟩
    grind [EncoderKind.sendVertexData_spec]
  simp only [glDrawElements, if_neg (Int.not_lt.mpr hcount), arraysSet_of_specified hset,
    himmediate, hsource, drawElementsData, Bool.not_true, Bool.not_false, Bool.true_and,
    Bool.false_eq_true, if_false, bind, Except.bind]
  split
  · exact ⟨_, _, rfl, rfl⟩
  · split
    · obtain ⟨out, hout, hreads⟩ := hsend 0 count
      rw [hout]
      refine ⟨_, _, rfl, ?_⟩
      change out.reads ++ [] = []
      rw [hreads, List.append_nil]
    · obtain ⟨out, hout, hreads⟩ := hsend ia.adjust.1 (ia.adjust.2.1 - ia.adjust.1 + 1)
      rw [hout]
      refine ⟨_, _, rfl, ?_⟩
      change [] ++ (out.reads ++ []) = []
      rw [hreads]
      rfl

/-- The slice of an array that fits: what is sent, and what the host draws from it. -/
theorem packed_of_sliceFits {p : VertexPointer} (hs : ia.Supported) (hfits : SliceFits ia p) :
    ∃ reads, packed p ia.adjust.1 (ia.adjust.2.1 - ia.adjust.1 + 1) = some reads ∧
      ia.adjust.2.2.values.map (HostArray.vertex ⟨p.elementSize, reads.map mem⟩) =
        ia.values.map (fun j => some (p.vertex mem j)) ∧
      ∀ addr ∈ reads, ∃ lo ∈ ia.values, ∃ hi ∈ ia.values, ∃ j, lo ≤ j ∧ j ≤ hi ∧
        addr ∈ p.element j := by
  rcases eq_or_ne ia.values [] with hempty | hne
  · -- both bounds are -1, and one element is sent
    obtain ⟨hlo, hhi, hsent⟩ := IndexArray.adjust_of_empty hs hempty
    have hzero : p.elementSize.toNat = 0 := by
      rcases hfits with hzero | ⟨hne, -⟩
      · rw [hzero]
        rfl
      · exact absurd hempty hne
    have hpacked := packed_eq p (-1) (n := 1) (by omega)
    refine ⟨_, by rw [hlo, hhi]; exact hpacked, by rw [hempty, hsent]; rfl, fun addr haddr => ?_⟩
    obtain ⟨i, -, hmem⟩ := mem_elements haddr
    obtain ⟨b, hb, -⟩ := mem_addresses.mp hmem
    omega
  · obtain ⟨lo, hi, hlo, hhi, hlomem, himem, hall, hsent⟩ := IndexArray.adjust_spec hs hne
    have hle := (hall lo hlomem).2
    have hcount : ia.adjust.2.1 - ia.adjust.1 + 1 = ((hi + 1 - lo : Nat) : Int) := by
      rw [hlo, hhi]
      omega
    have hlt : (hi + 1 - lo) * p.elementSize.toNat < 2 ^ 32 := by
      rcases hfits with hzero | ⟨-, hlt⟩
      · simp [hzero]
      · exact hlt lo hlomem hi himem
    refine ⟨_, by rw [hcount, hlo]; exact packed_eq p lo hlt, ?_, fun addr haddr => ?_⟩
    · rw [hsent, List.map_map]
      refine List.map_congr_left fun j hj => ?_
      grind [vertex_elements]
    · obtain ⟨i, hlt, hmem⟩ := mem_elements haddr
      refine ⟨lo, hlomem, hi, himem, lo + i, by omega, by omega, ?_⟩
      rw [ofInt_natCast, UInt32.add_assoc, ← UInt32.mul_add, ← UInt32.ofNat_add] at hmem
      exact hmem

theorem sliceFits_of_packed {p : VertexPointer} (hs : ia.Supported) {reads : List UInt32}
    (hpacked : packed p ia.adjust.1 (ia.adjust.2.1 - ia.adjust.1 + 1) = some reads)
    (hvertices : ia.adjust.2.2.values.map (HostArray.vertex ⟨p.elementSize, reads.map mem⟩) =
      ia.values.map (fun j => some (p.vertex mem j)))
    (hconfined : ∀ addr ∈ reads, ia.values ≠ []) : SliceFits ia p := by
  rcases Nat.eq_zero_or_pos p.elementSize.toNat with hzero | hpos
  · exact .inl (UInt32.toNat_inj.mp hzero)
  · right
    have hlength := packed_length hpacked
    rcases eq_or_ne ia.values [] with hempty | hne
    · -- the element in front of the array would be read
      obtain ⟨hlo, hhi, -⟩ := IndexArray.adjust_of_empty hs hempty
      rw [hlo, hhi] at hlength
      have hone : p.elementSize * UInt32.ofInt (-1 - -1 + 1) = p.elementSize := by simp
      rw [hone] at hlength
      obtain ⟨addr, haddr⟩ := List.exists_mem_of_length_pos (hlength ▸ hpos)
      exact absurd hempty (hconfined addr haddr)
    · refine ⟨hne, fun lo' hlo' hi' hhi' => ?_⟩
      obtain ⟨lo, hi, hlo, hhi, -, himem, hall, hsent⟩ := IndexArray.adjust_spec hs hne
      rw [hsent, List.map_map, List.map_inj_left] at hvertices
      have hvertex := HostArray.le_of_vertex (hvertices hi himem) hpos
      rw [List.length_map, hlength] at hvertex
      have hdatalen := (p.elementSize *
        UInt32.ofInt (ia.adjust.2.1 - ia.adjust.1 + 1)).toNat_lt
      have h1 := hall lo' hlo'
      have h2 := hall hi' hhi'
      calc (hi' + 1 - lo') * p.elementSize.toNat
          ≤ (hi - lo + 1) * p.elementSize.toNat := Nat.mul_le_mul_right _ (by omega)
        _ < 2 ^ 32 := by
            dsimp only at hvertex
            omega

/-- Both encoders send the slices that an indexed draw call needs, and read nothing else,
exactly if there are indices and the slice of each client array takes less than 2^32 bytes. -/
theorem sendsSlices_iff (k : EncoderKind) (ctx : DrawEncoder) (mem : ClientMemory) (mode : GLenum)
    {count : Int} (hcount : 0 ≤ count) {type : GLenum}
    (htype : type = GL_UNSIGNED_BYTE ∨ type = GL_UNSIGNED_SHORT) (indices : UInt32)
    {ia : IndexArray} (hsource : ctx.indexArray mem count type indices = .ok ia)
    (hset : k.Specified ctx.state) :
    SendsSlices k ctx mem mode count type indices ia ↔
      ∀ i p, k.clientArray ctx.state i = some p → SliceFits ia p := by
  have hs : ia.Supported := by
    obtain ⟨bs, rfl, -⟩ := exists_ofBytes hsource
    exact IndexArray.supported_ofBytes htype bs
  by_cases hclient : ∃ i p, k.clientArray ctx.state i = some p
  · obtain ⟨front, hfront, hdraw⟩ := glDrawElements_client mode hcount hset hclient hsource
    have harrays : ∀ (sent : Output) i, hostArrays ((Output.send front).append (sent.append
        (.send [.glDrawElementsData mode count type ia.adjust.2.2]))).commands i =
          sent.commands.foldl storePointerData (fun _ => none) i := by
      intro sent i
      rw [hostArrays, keepsArrays_send_append hfront]
      exact congrFun (foldl_storePointerData_append sent.commands
        [.glDrawElementsData mode count type ia.adjust.2.2] _) i
    constructor
    · rintro ⟨ctx', out, hok, hvertices, hconfined⟩ i p hp
      rw [hdraw] at hok
      obtain ⟨⟨s', sent⟩, hsend, heq⟩ := Run.map_eq_ok.mp hok
      obtain ⟨-, rfl⟩ := Prod.mk.inj heq
      obtain ⟨reads, hpacked, hreads, hfold⟩ :=
        (EncoderKind.sendVertexData_spec hset hsend).1 i p hp
      obtain ⟨adjusted, a, hlast, ha, hdrawn⟩ := hvertices i p hp
      have hadjusted : ia.adjust.2.2 = adjusted := by
        simpa [Output.append, Output.send] using hlast
      obtain rfl := Option.some.inj ((hfold _).symm.trans ((harrays sent i).symm.trans ha))
      refine sliceFits_of_packed hs hpacked (hadjusted ▸ hdrawn) fun addr haddr hempty => ?_
      obtain ⟨-, -, -, lo, hlo, -⟩ := hconfined addr (by simp [Output.append, Output.send, hreads haddr])
      rw [hempty] at hlo
      cases hlo
    · intro hfits
      have hpacked := fun i p hp => @packed_of_sliceFits mem _ p hs (hfits i p hp)
      obtain ⟨sent, hsend⟩ := EncoderKind.sendVertexData_isOk mem hset
        fun i p hp => (hpacked i p hp).imp fun _ h => h.1
      obtain ⟨hclients, hreads⟩ := EncoderKind.sendVertexData_spec hset hsend
      refine ⟨_, _, by rw [hdraw, hsend]; rfl, fun i p hp => ?_, fun addr haddr => ?_⟩
      · obtain ⟨reads, hreads', hdrawn, -⟩ := hpacked i p hp
        obtain ⟨reads', hreads'', -, hfold⟩ := hclients i p hp
        obtain rfl := Option.some.inj (hreads'.symm.trans hreads'')
        refine ⟨ia.adjust.2.2, _, ?_, (harrays sent i).trans (hfold _), hdrawn⟩
        simp [Output.append, Output.send]
      · have haddr' : addr ∈ sent.reads := by simpa [Output.append, Output.send] using haddr
        obtain ⟨i, p, reads, hp, hreads', hmem⟩ := hreads addr haddr'
        obtain ⟨reads', hreads'', -, hread⟩ := hpacked i p hp
        obtain rfl := Option.some.inj (hreads'.symm.trans hreads'')
        exact ⟨i, p, hp, hread addr hmem⟩
  · have hnone : ∀ i, k.clientArray ctx.state i = none :=
      fun i => Option.eq_none_iff_forall_not_mem.mpr fun p hp => hclient ⟨i, p, hp⟩
    obtain ⟨ctx', out, hok, hreads⟩ := glDrawElements_noClient mode hcount hset hnone hsource
    refine ⟨fun _ i p hp => absurd ⟨i, p, hp⟩ hclient, fun _ => ⟨ctx', out, hok, ?_, ?_⟩⟩
    · exact fun i p hp => absurd ⟨i, p, hp⟩ hclient
    · intro addr haddr
      rw [hreads] at haddr
      cases haddr

/-- The context of `GL2Encoder` with an array of two bytes an element at the address 4096. -/
def byteArray : DrawEncoder :=
  { new 64 with
    state := ((GLClientState.new 64).setState 0 2 GL_UNSIGNED_BYTE false 0 4096).enable 0 true }

/-- The indices 3 and 5 select the elements 3 and 5. -/
theorem sendsSlices_byteArray :
    SendsSlices .gles2 byteArray (fun a => if a = 8192 then 3 else 5) 4 2 GL_UNSIGNED_BYTE 8192
      (.bytes [3, 5]) := by
  refine (sendsSlices_iff .gles2 byteArray _ 4 (by decide) (.inl rfl) 8192 (by decide +kernel)
    (by decide +kernel)).mpr fun i p hp => ?_
  have hall : ∀ i < 64, (EncoderKind.gles2.clientArray byteArray.state i).all
      (fun p => decide (SliceFits (.bytes [3, 5]) p)) = true := by
    decide +kernel
  have hfits := hall i (EncoderKind.clientArray_eq_some hp).1
  rw [hp] at hfits
  exact of_decide_eq_true hfits

/-- A call without indices reads the element in front of the array. -/
theorem emptyDraw_not_sendsSlices :
    ¬∀ (k : EncoderKind) (ctx : DrawEncoder) (mem : ClientMemory) (mode : GLenum) (count : Int)
      (type : GLenum) (indices : UInt32) (ia : IndexArray), 0 ≤ count →
      type = GL_UNSIGNED_BYTE ∨ type = GL_UNSIGNED_SHORT →
      ctx.indexArray mem count type indices = .ok ia → k.Specified ctx.state →
      SendsSlices k ctx mem mode count type indices ia := by
  intro h
  obtain ⟨ctx', out, hok, -, hconfined⟩ := h .gles2 byteArray (fun _ => 0) 4 0 GL_UNSIGNED_BYTE 8192
    (.bytes []) (by decide) (.inl rfl) (by decide +kernel) (by decide +kernel)
  have hreads : (byteArray.glDrawElements .gles2 (fun _ => 0) 4 0 GL_UNSIGNED_BYTE 8192).map
      (fun r => r.2.reads) = .ok [4094, 4095] := by
    decide +kernel
  rw [hok] at hreads
  have hout : out.reads = [4094, 4095] := Except.ok.inj hreads
  have hread : 4094 ∈ out.reads := by
    rw [hout]
    decide
  obtain ⟨-, -, -, lo, hlo, -⟩ := hconfined 4094 hread
  cases hlo

end DrawEncoder

end AndroidRenderer
