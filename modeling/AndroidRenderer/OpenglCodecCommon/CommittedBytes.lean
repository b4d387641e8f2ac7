import AndroidRenderer.OpenglCodecCommon.IOStream
import Mathlib.Data.BitVec

/-!
# Committed bytes

What a stream has sent and what it holds are the regions that were filled, in their order. The
regions lie inside the buffer, unless the size of a new buffer is less than the region when it has
gone through an `int`.
-/

namespace AndroidRenderer.OpenglCodecCommon

namespace Stream

variable {w : Nat} {s s' : Stream w} {filled : List UInt8} {len : BitVec w}

/-- What was committed, and behind it what is in the buffer, are the filled regions. -/
structure Holds (s : Stream w) (filled : List UInt8) : Prop where
  size : ∀ id bytes, s.m_buf = some (id, bytes) → s.m_bufsize.toNat ≤ bytes.length
  idle : s.base.m_buf = none → s.sent = filled
  busy : ∀ id, s.base.m_buf = some id → ∃ bytes, s.m_buf = some (id, bytes) ∧
    s.base.m_bufsize.toNat ≤ bytes.length ∧ s.base.m_free ≤ s.base.m_bufsize ∧
    s.sent ++ bytes.take (s.base.m_bufsize - s.base.m_free).toNat = filled

/-! ## Commits -/

variable {results : List WriteResult} {bytes : List UInt8} {block : Option Block}

theorem sendLoop_ok {sent : List UInt8}
    (h : sendLoop results bytes = .ok (true, sent)) : sent = bytes := by
  induction results generalizing bytes sent with
  | nil =>
      cases bytes with
      | nil =>
          cases h
          rfl
      | cons b bytes => cases h
  | cons result results ih =>
      cases bytes with
      | nil =>
          cases h
          rfl
      | cons b bytes =>
          cases result with
          | count stat =>
              obtain ⟨⟨ok, rest⟩, hrest, heq⟩ := Run.map_eq_ok.mp h
              cases heq
              rw [ih hrest, List.take_append_drop]
          | eintr => exact ih h
          | failed => cases h

theorem writeLoop_ok {sent : List UInt8}
    (h : writeLoop results bytes = .ok (true, sent)) : sent = bytes := by
  induction results generalizing bytes sent with
  | nil =>
      cases bytes with
      | nil =>
          cases h
          rfl
      | cons b bytes => cases h
  | cons result results ih =>
      cases bytes with
      | nil =>
          cases h
          rfl
      | cons b bytes =>
          cases result with
          | count stat =>
              unfold writeLoop at h
              split at h
              · obtain ⟨⟨ok, rest⟩, hrest, heq⟩ := Run.map_eq_ok.mp h
                cases heq
                rw [ih hrest, List.take_append_drop]
              · cases h
          | eintr => exact ih h
          | failed => cases h

/-- A commit that succeeds has written all bytes, in one piece or in many. -/
theorem writeFully_ok {sent : List UInt8}
    (h : s.writeFully bytes results = .ok (true, sent)) : sent = bytes := by
  unfold writeFully at h
  grind [sendLoop_ok, writeLoop_ok]

/-- A flush leaves nothing in the buffer. -/
theorem Holds.flush (h : s.Holds filled)
    (hflush : s.flush results = .ok (s', true)) :
    s'.Holds filled ∧ s'.sent = filled ∧ s'.base.m_bufsize = s.base.m_bufsize ∧
      (s'.base.m_buf = none ∨ s'.base.m_free = s.base.m_bufsize) := by
  unfold Stream.flush at hflush
  split at hflush
  · rename_i hnothing
    cases hflush
    refine ⟨h, ?_, rfl, hnothing⟩
    obtain hnone | hempty := hnothing
    · exact h.idle hnone
    · cases hbuf : s.base.m_buf with
      | none => exact h.idle hbuf
      | some id => grind [BitVec.sub_self, h.busy]
  · rename_i hpending
    rw [not_or] at hpending
    obtain ⟨⟨s₁, ok⟩, hcommit, heq⟩ := Run.map_eq_ok.mp hflush
    cases heq
    obtain ⟨id, hid⟩ := Option.ne_none_iff_exists'.mp hpending.1
    obtain ⟨bytes, hbytes, hsize, hfree, hfilled⟩ := h.busy id hid
    unfold commitBuffer at hcommit
    split at hcommit
    · cases hcommit
    · rename_i heq
      rw [hbytes] at heq
      cases heq
      split at hcommit
      · cases hcommit
      · obtain ⟨⟨ok, sent⟩, hwrite, heq⟩ := Run.map_eq_ok.mp hcommit
        cases heq
        obtain rfl := writeFully_ok hwrite
        exact ⟨⟨h.size, fun _ => hfilled, fun id hid => (nomatch hid)⟩, hfilled, rfl, .inl rfl⟩

/-! ## New buffers -/

@[simp, grind =] theorem contents_length (bytes : List UInt8) (junk : Nat → UInt8) (size : Nat) :
    (contents bytes junk size).length = size := by
  rw [contents, List.length_map, List.length_range]

/-- The larger of two sizes. -/
theorem le_larger (a b : BitVec w) :
    a.toNat ≤ (if a < b then b else a).toNat ∧ b.toNat ≤ (if a < b then b else a).toNat := by
  split
  · rename_i hlt
    exact ⟨Nat.le_of_lt hlt, Nat.le_refl _⟩
  · rename_i hge
    exact ⟨Nat.le_refl _, Nat.le_of_not_lt hge⟩

theorem allocBuffer_rest (s : Stream w) (minSize : BitVec w) (block : Option Block) :
    (s.allocBuffer minSize block).sent = s.sent ∧ (s.allocBuffer minSize block).base = s.base := by
  unfold allocBuffer
  dsimp only
  generalize (if s.m_bufsize < minSize then minSize else s.m_bufsize) = allocSize
  grind

/-- A buffer is as large as the stream keeps it to be, and as was asked for. -/
theorem allocBuffer_size (hsize : ∀ id bytes, s.m_buf = some (id, bytes) →
      s.m_bufsize.toNat ≤ bytes.length) (minSize : BitVec w) (block : Option Block)
    {id : BlockId}
    (h : (s.allocBuffer minSize block).m_buf = some (id, bytes)) :
    minSize.toNat ≤ bytes.length ∧
      (s.allocBuffer minSize block).m_bufsize.toNat ≤ bytes.length := by
  obtain ⟨hbufsize, hminSize⟩ := le_larger s.m_bufsize minSize
  unfold allocBuffer at h ⊢
  dsimp only at h ⊢
  generalize (if s.m_bufsize < minSize then minSize else s.m_bufsize) = allocSize
    at h hbufsize hminSize ⊢
  cases hbuf : s.m_buf with
  | none =>
      rw [hbuf] at h
      obtain ⟨b, -, heq⟩ := Option.map_eq_some_iff.mp h
      grind
  | some old =>
      rw [hbuf] at h
      dsimp only at h ⊢
      by_cases hrealloc : s.m_bufsize < allocSize
      · grind
      · rw [if_neg hrealloc] at h ⊢
        have hold := hsize id bytes h
        have hle : allocSize.toNat ≤ s.m_bufsize.toNat := Nat.le_of_not_lt hrealloc
        exact ⟨by omega, hold⟩

/-- The larger of the region and the buffer is not made smaller than the region by an `int`. -/
def FitsInt (s : Stream w) (len : BitVec w) : Prop :=
  len ≤ throughInt (if s.base.m_bufsize < len then len else s.base.m_bufsize)

instance (s : Stream w) (len : BitVec w) : Decidable (s.FitsInt len) :=
  inferInstanceAs (Decidable (_ ≤ _))

/-- Sizes that an `int` holds are kept. -/
theorem throughInt_small {n : BitVec w} (h : n.toNat < 2 ^ 31) : throughInt n = n := by
  have hsmall : (n.setWidth 32).toNat = n.toNat := by grind
  have hmsb : (n.setWidth 32).msb = false := by grind
  rw [throughInt, BitVec.signExtend_eq_setWidth_of_msb_false hmsb]
  apply BitVec.eq_of_toNat_eq
  simp [BitVec.toNat_setWidth, hsmall]

theorem fitsInt_small (hbufsize : s.base.m_bufsize.toNat < 2 ^ 31) (hlen : len.toNat < 2 ^ 31) :
    s.FitsInt len := by
  have hlarger : (if s.base.m_bufsize < len then len else s.base.m_bufsize).toNat < 2 ^ 31 := by
    grind
  rw [FitsInt, throughInt_small hlarger]
  exact (le_larger _ _).2

/-- A `size_t` of 32 bits fits always. -/
theorem fitsInt_32 (s : Stream 32) (len : BitVec 32) : s.FitsInt len := by
  rw [FitsInt, throughInt, BitVec.setWidth_eq, BitVec.signExtend_eq]
  exact (le_larger _ _).2

/-- Where a buffer is needed, nothing is held back and the conversion is harmless. -/
structure Ready (s : Stream w) (len : BitVec w) (filled : List UInt8) : Prop where
  committed : s.base.m_buf = none ∨ s.base.m_bufsize < len → s.sent = filled
  fits : s.base.m_buf = none ∨ s.base.m_bufsize < len → s.FitsInt len
  kept : s.base.m_buf ≠ none → len ≤ s.base.m_bufsize → len ≤ s.base.m_free

theorem Holds.makeRoom (h : s.Holds filled)
    (hfits : s.base.m_buf = none ∨ s.base.m_free < len → s.FitsInt len)
    (hroom : s.makeRoom len results = .ok (s', true)) :
    s'.Holds filled ∧ s'.Ready len filled := by
  unfold Stream.makeRoom at hroom
  split at hroom
  · rename_i hfull
    obtain ⟨hholds, hsent, hsize, hempty⟩ := h.flush hroom
    refine ⟨hholds, fun _ => hsent, fun _ => ?_, fun hbuf hle => ?_⟩
    · have := hfits (.inr hfull.2)
      rwa [FitsInt, hsize]
    · grind
  · rename_i hfull
    cases hroom
    rw [not_and] at hfull
    have hnone : s.base.m_buf = none ∨ s.base.m_bufsize < len → s.base.m_buf = none := by
      rintro (hnone | hlt)
      · exact hnone
      · by_contra hbuf
        obtain ⟨id, hid⟩ := Option.ne_none_iff_exists'.mp hbuf
        grind [h.busy]
    exact ⟨h, fun hnew => h.idle (hnone hnew), fun hnew => hfits (.inl (hnone hnew)),
      fun hbuf _ => BitVec.not_lt.mp (hfull hbuf)⟩

theorem Holds.getBuffer (h : s.Holds filled) (hready : s.Ready len filled)
    (hget : s.getBuffer len block = (s', true)) :
    s'.Holds filled ∧ s'.base.m_buf ≠ none ∧ len ≤ s'.base.m_free := by
  unfold Stream.getBuffer at hget
  split at hget
  · rename_i hnew
    have hfits := hready.fits hnew
    dsimp only at hget
    rw [FitsInt] at hfits
    generalize throughInt (if s.base.m_bufsize < len then len else s.base.m_bufsize) = allocLen
      at hget hfits
    obtain ⟨hsent, -⟩ := allocBuffer_rest s allocLen block
    split at hget
    · cases hget
    · rename_i id bytes hbuf
      cases hget
      obtain ⟨hlen, hsize⟩ := allocBuffer_size h.size allocLen block hbuf
      refine ⟨⟨fun id' bytes' hbuf' => ?_, fun hnone => (nomatch hnone), fun id' hid' => ?_⟩,
        fun hnone => (nomatch hnone), hfits⟩
      · grind
      · grind [BitVec.sub_self, hready.committed]
  · rename_i hold
    cases hget
    rw [not_or] at hold
    exact ⟨h, hold.1, hready.kept hold.1 (BitVec.not_lt.mp hold.2)⟩

/-- Where there is no memory, what was filled has been sent. -/
theorem Ready.getBuffer_failed (hready : s.Ready len filled)
    (hget : s.getBuffer len block = (s', false)) : s'.Holds filled := by
  unfold Stream.getBuffer at hget
  split at hget
  · rename_i hnew
    dsimp only at hget
    generalize throughInt (if s.base.m_bufsize < len then len else s.base.m_bufsize) = allocLen
      at hget
    obtain ⟨hsent, -⟩ := allocBuffer_rest s allocLen block
    split at hget
    · rename_i hbuf
      cases hget
      refine ⟨fun id bytes hbytes => ?_, fun _ => ?_, fun id hid => (nomatch hid)⟩
      · grind
      · grind [hready.committed]
    · cases hget
  · cases hget

/-! ## Regions -/

/-- A region that was taken: it lies in the buffer, behind what was filled before. -/
structure Taken (s : Stream w) (r : Region w) (bytes : List UInt8) (filled : List UInt8) :
    Prop where
  buf : s.m_buf = some (r.block, bytes)
  base : s.base.m_buf = some r.block
  size : s.m_bufsize.toNat ≤ bytes.length
  inside : r.off.toNat + r.len.toNat ≤ bytes.length
  bound : s.base.m_bufsize.toNat ≤ bytes.length
  free : s.base.m_free ≤ s.base.m_bufsize
  next : (s.base.m_bufsize - s.base.m_free).toNat = r.off.toNat + r.len.toNat
  before : s.sent ++ bytes.take r.off.toNat = filled

theorem Holds.takeRegion (h : s.Holds filled) (hlen : len ≤ s.base.m_free) {r : Region w}
    (htake : s.takeRegion len = (s', some r)) :
    r.len = len ∧ ∃ bytes, s'.Taken r bytes filled := by
  unfold Stream.takeRegion at htake
  split at htake
  · cases htake
  · rename_i id hid
    cases htake
    obtain ⟨bytes, hbytes, hbound, hfree, hfilled⟩ := h.busy id hid
    have hoff := BitVec.toNat_sub_of_le hfree
    have hrest := BitVec.toNat_sub_of_le hlen
    have hle : s.base.m_free - len ≤ s.base.m_bufsize := by
      rw [BitVec.le_def] at hfree hlen ⊢
      omega
    have hnext := BitVec.toNat_sub_of_le hle
    rw [BitVec.le_def] at hfree hlen
    refine ⟨rfl, bytes, hbytes, hid, h.size id bytes hbytes, ?_, hbound, hle, ?_, hfilled⟩
    · grind
    · grind

theorem Taken.fill {r : Region w} (h : s.Taken r bytes filled)
    (data : Nat → UInt8) :
    ∃ s', s.fill r data = .ok s' ∧ s'.Holds (filled ++ (List.range r.len.toNat).map data) := by
  have hlength : ((List.range r.len.toNat).map data).length = r.len.toNat := by simp
  have hinside : r.off.toNat + ((List.range r.len.toNat).map data).length ≤ bytes.length := by
    rw [hlength]
    exact h.inside
  obtain ⟨bytes', hstore⟩ := Option.isSome_iff_exists.mp (Buffer.store?_isSome_iff.mpr hinside)
  have hbytes := Buffer.store?_length hstore
  have hfront := Buffer.store?_take hstore
  refine ⟨{ s with m_buf := some (r.block, bytes') }, ?_, fun id bytes₁ hbuf => ?_,
    fun hnone => ?_, fun id hid => ?_⟩
  · simp [Stream.fill, h.buf, hstore]
  · grind [h.size]
  · grind [h.base]
  · have hid : s.base.m_buf = some id := hid
    rw [h.base] at hid
    cases hid
    refine ⟨bytes', rfl, hbytes ▸ h.bound, h.free, ?_⟩
    grind [h.next, h.before]

/-- That a commit does not fail. -/
def succeeds : Except StreamFault (Stream w × Bool) → Bool
  | .ok (_, false) => false
  | _ => true

/-- What `alloc` does: it finds no memory, or it takes a region. -/
theorem Holds.alloc_cases (h : s.Holds filled)
    (hcommits : succeeds (s.makeRoom len results) = true)
    (hfits : s.base.m_buf = none ∨ s.base.m_free < len → s.FitsInt len) {r : Option (Region w)}
    (halloc : s.alloc len block results = .ok (s', r)) :
    (r = none ∧ s'.Holds filled) ∨
      ∃ r', r = some r' ∧ r'.len = len ∧ ∃ bytes, s'.Taken r' bytes filled := by
  obtain ⟨⟨s₁, ok⟩, hroom, hrest⟩ := Run.bind_eq_ok.mp halloc
  cases ok with
  | false =>
      rw [hroom] at hcommits
      cases hcommits
  | true =>
      obtain ⟨hholds, hready⟩ := h.makeRoom hfits hroom
      dsimp only at hrest
      split at hrest
      · rename_i s₂ hget
        cases hrest
        exact .inl ⟨rfl, hready.getBuffer_failed hget⟩
      · rename_i s₂ hget
        obtain ⟨hholds, hbuf, hlen⟩ := hholds.getBuffer hready hget
        obtain hrest : s₂.takeRegion len = (s', r) := Except.ok.inj hrest
        cases r with
        | none =>
            unfold Stream.takeRegion at hrest
            grind
        | some r => exact .inr ⟨r, rfl, hholds.takeRegion hlen hrest⟩

/-! ## Faults -/

theorem sendLoop_faults (results : List WriteResult) (bytes : List UInt8) :
    Run.Faults (sendLoop results bytes) (· = .blocked) := by
  fun_induction sendLoop results bytes with
  | case1 => exact .pure _
  | case2 => exact .error rfl
  | case3 _ _ _ _ ih => exact ih.map
  | case4 _ _ _ ih => exact ih
  | case5 => exact .pure _

theorem writeLoop_faults (results : List WriteResult) (bytes : List UInt8) :
    Run.Faults (writeLoop results bytes) (· = .blocked) := by
  fun_induction writeLoop results bytes with
  | case1 => exact .pure _
  | case2 => exact .error rfl
  | case3 _ _ _ _ _ ih => exact ih.map
  | case4 => exact .pure _
  | case5 _ _ _ ih => exact ih
  | case6 => exact .pure _

/-- A flush reads only what is in the buffer. -/
theorem Holds.flush_faults (h : s.Holds filled) (results : List WriteResult) :
    Run.Faults (s.flush results) (· = .blocked) := by
  unfold Stream.flush
  split
  · exact .pure _
  · rename_i hpending
    rw [not_or] at hpending
    obtain ⟨id, hid⟩ := Option.ne_none_iff_exists'.mp hpending.1
    obtain ⟨bytes, hbytes, hbound, hfree, -⟩ := h.busy id hid
    have hsize := BitVec.toNat_sub_of_le hfree
    refine Run.Faults.map ?_
    rw [commitBuffer, hbytes]
    dsimp only
    rw [if_neg (by omega)]
    refine Run.Faults.map ?_
    unfold writeFully
    split
    · exact .pure _
    · split
      · exact sendLoop_faults results _
      · exact writeLoop_faults results _

theorem Holds.alloc_faults (h : s.Holds filled) (len : BitVec w) (block : Option Block)
    (results : List WriteResult) : Run.Faults (s.alloc len block results) (· = .blocked) := by
  refine .bind ?_ fun r _ => ?_
  · unfold Stream.makeRoom
    split
    · exact h.flush_faults results
    · exact .pure _
  · split
    · exact .pure _
    · split <;> exact .pure _

/-! ## Runs -/

/-- A caller fills the region it gets. -/
inductive Call (w : Nat)
  | alloc (len : BitVec w) (data : Nat → UInt8) (block : Option Block) (results : List WriteResult)
  | flush (results : List WriteResult)

/-- A stream, with what its regions were filled with. -/
def exec (t : Stream w × List UInt8) : Call w → Except StreamFault (Stream w × List UInt8)
  | .alloc len data block results => do
      match ← t.1.alloc len block results with
      | (s, none) => return (s, t.2)
      | (s, some r) => return (← s.fill r data, t.2 ++ (List.range r.len.toNat).map data)
  | .flush results => (t.1.flush results).map fun r => (r.1, t.2)

/-- Commits succeed, and no new buffer is made too small. -/
def Careful (t : Stream w × List UInt8) : Call w → Prop
  | .alloc len _ _ results => succeeds (t.1.makeRoom len results) = true ∧
      (t.1.base.m_buf = none ∨ t.1.base.m_free < len → t.1.FitsInt len)
  | .flush results => succeeds (t.1.flush results) = true

instance (t : Stream w × List UInt8) (call : Call w) : Decidable (Careful t call) :=
  match call with
  | .alloc .. => inferInstanceAs (Decidable (_ ∧ (_ → _)))
  | .flush _ => inferInstanceAs (Decidable (_ = _))

variable {t t' : Stream w × List UInt8}

theorem Holds.new (kind : StreamKind) (bufSize : BitVec w) : (new kind bufSize).Holds [] where
  size := fun _ _ hbuf => nomatch hbuf
  idle := fun _ => rfl
  busy := fun _ hid => nomatch hid

theorem Holds.exec (h : t.1.Holds t.2) {call : Call w} (hcareful : Careful t call)
    (hexec : exec t call = .ok t') : t'.1.Holds t'.2 := by
  cases call with
  | alloc len data block results =>
      obtain ⟨⟨s, r⟩, halloc, hrest⟩ := Run.bind_eq_ok.mp hexec
      obtain ⟨rfl, hholds⟩ | ⟨r, rfl, -, bytes, htaken⟩ :=
        h.alloc_cases hcareful.1 hcareful.2 halloc
      · cases hrest
        exact hholds
      · obtain ⟨s', hfill, hholds⟩ := htaken.fill data
        obtain ⟨s₂, hfill', hok⟩ := Run.bind_eq_ok.mp hrest
        cases hok
        grind
  | flush results =>
      obtain ⟨⟨s, ok⟩, hflush, heq⟩ := Run.map_eq_ok.mp hexec
      cases heq
      cases ok with
      | false =>
          have hcommits : succeeds (t.1.flush results) = true := hcareful
          rw [hflush] at hcommits
          cases hcommits
      | true => exact (h.flush hflush).1

theorem Holds.exec_faults (h : t.1.Holds t.2) {call : Call w} (hcareful : Careful t call) :
    Run.Faults (Stream.exec t call) (· = .blocked) := by
  cases call with
  | alloc len data block results =>
      refine .bind (h.alloc_faults len block results) fun r halloc => ?_
      obtain ⟨s, r⟩ := r
      obtain ⟨rfl, -⟩ | ⟨r, rfl, -, bytes, htaken⟩ := h.alloc_cases hcareful.1 hcareful.2 halloc
      · exact .pure _
      · obtain ⟨s', hfill, -⟩ := htaken.fill data
        exact .bind (by rw [hfill]; exact .pure _) fun _ _ => .pure _
  | flush results => exact (h.flush_faults results).map

/-- What was taken since the last commit. -/
def pending (s : Stream w) : List UInt8 :=
  match s.base.m_buf, s.m_buf with
  | some _, some (_, bytes) => bytes.take (s.base.m_bufsize - s.base.m_free).toNat
  | _, _ => []

theorem Holds.pending (h : s.Holds filled) : s.sent ++ s.pending = filled := by
  cases hbase : s.base.m_buf with
  | none =>
      rw [Stream.pending, hbase, List.append_nil]
      exact h.idle hbase
  | some id => grind [Stream.pending, h.busy]

/-- Whatever is allocated and flushed, what is committed is what was filled, every region lies in
the buffer of the stream, and no call leaves it. -/
theorem regions_committed (kind : StreamKind) (bufSize : BitVec w)
    (h : Run.Reach exec Careful (new kind bufSize, []) t) :
    t.1.sent ++ t.1.pending = t.2 ∧
      (∀ results s, t.1.flush results = .ok (s, true) → s.sent = t.2) ∧
      (∀ call, Careful t call → exec t call ≠ .error .outOfBounds) ∧
      ∀ len data block results s r, Careful t (.alloc len data block results) →
        t.1.alloc len block results = .ok (s, some r) →
          r.len = len ∧ ∃ bytes, s.m_buf = some (r.block, bytes) ∧
            r.off.toNat + len.toNat ≤ bytes.length := by
  have hholds : t.1.Holds t.2 :=
    h.invariant (I := fun t => t.1.Holds t.2) (.new kind bufSize) fun _ _ _ hinv hok hs =>
      hinv.exec hok hs
  refine ⟨hholds.pending, fun results s hflush => (hholds.flush hflush).2.1,
    fun call hcareful hfault => ?_, fun len data block results s r hcareful halloc => ?_⟩
  · cases hholds.exec_faults hcareful _ hfault
  · obtain ⟨hnone, -⟩ | ⟨r', hr, hlen, bytes, htaken⟩ :=
      hholds.alloc_cases hcareful.1 hcareful.2 halloc
    · cases hnone
    · cases hr
      exact ⟨hlen, bytes, htaken.buf, hlen ▸ htaken.inside⟩

/-- Two regions fill the buffer, and the third needs a commit and a larger one. -/
theorem regions_committed_larger : ∃ t : Stream 64 × List UInt8,
    Run.Reach exec Careful (new .QemuPipeStream 4, []) t ∧
      t.1.sent = [1, 1, 1, 2, 3, 3, 3, 3, 3, 3] ∧ t.1.sent ++ t.1.pending = t.2 := by
  have hcheck : Run.check exec (fun t call => decide (Careful t call))
      (fun t => decide (t.1.sent = [1, 1, 1, 2, 3, 3, 3, 3, 3, 3]))
      (new .QemuPipeStream (4 : BitVec 64), [])
      [.alloc 3 (fun _ => 1) (some ⟨0, fun _ => 0⟩) [],
        .alloc 1 (fun _ => 2) none [],
        .alloc 6 (fun _ => 3) (some ⟨1, fun _ => 0⟩) [.count 2, .eintr, .count 2],
        .flush [.count 6]] = true := by
    decide +kernel
  obtain ⟨t, ht, hsent⟩ := Run.exists_reach_of_check (fun _ _ h => of_decide_eq_true h) hcheck
  exact ⟨t, ht, of_decide_eq_true hsent, (regions_committed .QemuPipeStream 4 ht).1⟩

/-- Of `2 ^ 32 + 1` an `int` keeps 1, and the block has only the 16 bytes of the stream. -/
theorem alloc_past_int : ∃ (s : Stream 64) (r : Region 64) (bytes : List UInt8),
    (new .SocketStream (16 : BitVec 64)).alloc (2 ^ 32 + 1) (some ⟨0, fun _ => 0⟩) [] =
        .ok (s, some r) ∧
      s.m_buf = some (r.block, bytes) ∧ bytes.length < r.len.toNat :=
  ⟨_, _, _, rfl, rfl, by decide +kernel⟩

end Stream

end AndroidRenderer.OpenglCodecCommon
