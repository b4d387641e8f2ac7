import AndroidRenderer.Qtools.BlockEvents

/-!
# Events of a whole trace

A trace is a list of records, each of which says how far its block and its first execution are
from those of the record before it. Reading until the end of the file gives all executions once,
in time order, and all nodes of the reader are free again.
-/

namespace AndroidRenderer.Qtools

open NodeList Series

/-- What a record in the file holds; `interval` is there only where there are repeats. -/
structure Record (w : Nat) where
  bb_diff : BitVec 64
  time_diff : BitVec 64
  repeats : BitVec w
  interval : BitVec 64

/-- An object of a file has a value, and `rest'` is behind it. -/
def DecodesTo (is_signed : Bool) (rest : List UInt8) (val64 : BitVec 64) (rest' : List UInt8) :
    Prop :=
  (Call.Decode is_signed).expected rest = some (.value val64, rest')

instance (is_signed : Bool) (rest : List UInt8) (val64 : BitVec 64) (rest' : List UInt8) :
    Decidable (DecodesTo is_signed rest val64 rest') :=
  inferInstanceAs (Decidable (_ = _))

/-- A file holds records, behind which there is one without a time difference. -/
inductive Records {w : Nat} : List UInt8 → List (Record w) → Prop
  | done {rest rest₁ rest₂ rest₃ : List UInt8} {bb_diff repeats : BitVec 64} :
      DecodesTo true rest bb_diff rest₁ → DecodesTo false rest₁ 0 rest₂ →
        DecodesTo false rest₂ repeats rest₃ → Records rest []
  | once {rest rest₁ rest₂ rest₃ : List UInt8} {rec : Record w} {recs : List (Record w)} :
      DecodesTo true rest rec.bb_diff rest₁ → DecodesTo false rest₁ rec.time_diff rest₂ →
        DecodesTo false rest₂ 0 rest₃ → 0 < rec.time_diff → rec.repeats = 0 →
        Records rest₃ recs → Records rest (rec :: recs)
  | repeated {rest rest₁ rest₂ rest₃ rest₄ : List UInt8} {rec : Record w}
      {recs : List (Record w)} :
      DecodesTo true rest rec.bb_diff rest₁ → DecodesTo false rest₁ rec.time_diff rest₂ →
        DecodesTo false rest₂ (rec.repeats.setWidth 64) rest₃ →
        DecodesTo false rest₃ rec.interval rest₄ → 0 < rec.time_diff → 0 < rec.repeats →
        Records rest₄ recs → Records rest (rec :: recs)

/-- The executions that records stand for, behind a record with `start` and `bb_num`. -/
def executions {w : Nat} (start : Nat) (bb_num : BitVec 64) :
    List (Record w) → List (Series (BitVec 64))
  | [] => []
  | rec :: recs =>
      let start := start + rec.time_diff.toNat
      let bb_num := bb_num + rec.bb_diff
      ⟨bb_num, start, rec.repeats.toNat, rec.interval.toNat⟩ :: executions start bb_num recs

theorem executions_from {w : Nat} (start : Nat) (bb_num : BitVec 64) (recs : List (Record w)) :
    From start (executions start bb_num recs) := by
  induction recs generalizing start bb_num with
  | nil => exact fun s hs => (nomatch hs)
  | cons rec recs ih =>
      intro s hs
      obtain rfl | hs := List.mem_cons.mp hs
      · exact Nat.le_add_right _ _
      · exact Nat.le_trans (Nat.le_add_right _ _) (ih _ _ s hs)

theorem executions_pairwise {w : Nat} (start : Nat) (bb_num : BitVec 64)
    (recs : List (Record w)) : (executions start bb_num recs).Pairwise NoLater := by
  induction recs generalizing start bb_num with
  | nil => exact .nil
  | cons rec recs ih =>
      exact List.pairwise_cons.mpr ⟨executions_from _ _ recs, ih _ _⟩

def BBEvent.execution (event : BBEvent) : Nat × BitVec 64 := (event.time.toNat, event.bb_num)

namespace BBReader

variable {N w : Nat} {τ : Type} {r r' : BBReader N w τ} {rest rest' : List UInt8}
  {pending todo : List (Series (BitVec 64))}

/-! ## Records -/

/-- What the reader has decoded and what is left of the file stand for the series `todo`. -/
inductive Source (r : BBReader N w τ) : List (Series (BitVec 64)) → Prop
  | eof : r.is_eof_ = true → Source r []
  | next {s : Series (BitVec 64)} {rest : List UInt8} {recs : List (Record w)} :
      r.is_eof_ = false → s.label = r.nextrec_.bb_rec.bb_num →
        s.time = r.nextrec_.bb_rec.start_time.toNat →
        s.repeats = r.nextrec_.bb_rec.repeats.toNat →
        (0 < s.repeats → s.interval = r.nextrec_.bb_rec.time_diff.toNat) →
        r.decoder_.Reads rest → Records rest recs →
        Source r (s :: executions s.time s.label recs)

theorem Source.congr (h : r.Source todo) (hsame : r.SameSource r') : r'.Source todo := by
  cases h with
  | eof heof => exact .eof (hsame.is_eof.trans heof)
  | next heof hlabel htime hrepeats hinterval hreads hrecords =>
      rw [← hsame.nextrec] at hlabel htime hrepeats hinterval
      exact .next (hsame.is_eof.trans heof) hlabel htime hrepeats hinterval
        (hsame.decoder ▸ hreads) hrecords

variable {machine : Machine}

theorem decode_spec (hswaps : machine.Swaps) (order : ByteOrder) (h : r.decoder_.Reads rest)
    {is_signed : Bool} {val64 : BitVec 64} (hdecodes : DecodesTo is_signed rest val64 rest') :
    ∃ decoder_, r.decode order machine is_signed = .ok ({ r with decoder_ }, val64) ∧
      decoder_.Reads rest' := by
  obtain ⟨decoder_, hcall, hreads⟩ := Decoder.call_spec hswaps order h hdecodes
  obtain ⟨⟨d, v⟩, hdecode, heq⟩ := Run.map_eq_ok.mp hcall
  grind [decode]

/-- The three objects that every record begins with. -/
theorem decode_three (hswaps : machine.Swaps) (order : ByteOrder) (h : r.decoder_.Reads rest)
    {bb_diff time_diff repeats : BitVec 64} {rest₁ rest₂ rest₃ : List UInt8}
    (hbb : DecodesTo true rest bb_diff rest₁) (htime : DecodesTo false rest₁ time_diff rest₂)
    (hrepeats : DecodesTo false rest₂ repeats rest₃) :
    ∃ d₁ d₂ d₃, r.decode order machine true = .ok ({ r with decoder_ := d₁ }, bb_diff) ∧
      ({ r with decoder_ := d₁ } : BBReader N w τ).decode order machine false =
        .ok ({ r with decoder_ := d₂ }, time_diff) ∧
      ({ r with decoder_ := d₂ } : BBReader N w τ).decode order machine false =
        .ok ({ r with decoder_ := d₃ }, repeats) ∧
      d₃.Reads rest₃ := by
  obtain ⟨d₁, h₁, hreads₁⟩ := decode_spec hswaps order h hbb
  obtain ⟨d₂, h₂, hreads₂⟩ :=
    decode_spec (r := { r with decoder_ := d₁ }) hswaps order hreads₁ htime
  obtain ⟨d₃, h₃, hreads₃⟩ :=
    decode_spec (r := { r with decoder_ := d₂ }) hswaps order hreads₂ hrepeats
  exact ⟨d₁, d₂, d₃, h₁, h₂, h₃, hreads₃⟩

theorem start_time_add {start time_diff : BitVec 64} {s : Series (BitVec 64)}
    (htime : s.time = start.toNat + time_diff.toNat) (hfits : s.last < 2 ^ 64) :
    s.time = (start + time_diff).toNat := by
  have hle := s.time_le_last
  grind

/-- The next record, or the end of the file; the nodes stay as they are. -/
theorem decodeEof_spec (hw : w ≤ 64) (hswaps : machine.Swaps) (order : ByteOrder)
    (hreads : r.decoder_.Reads rest) {recs : List (Record w)} (hrecords : Records rest recs)
    (hfits : Fits (executions r.nextrec_.bb_rec.start_time.toNat r.nextrec_.bb_rec.bb_num recs)) :
    ∃ decoder_ nextrec_ is_eof_,
      r.decodeEof order machine = .ok { r with decoder_, nextrec_, is_eof_ } ∧
      Source { r with decoder_, nextrec_, is_eof_ }
        (executions r.nextrec_.bb_rec.start_time.toNat r.nextrec_.bb_rec.bb_num recs) := by
  cases hrecords with
  | done hbb htime hrepeats =>
      obtain ⟨d₁, d₂, d₃, h₁, h₂, h₃, -⟩ := decode_three hswaps order hreads hbb htime hrepeats
      refine ⟨d₃, _, true, Run.bind_eq_ok.mpr ⟨_, Run.bind_eq_ok.mpr ⟨_, h₁,
        Run.bind_eq_ok.mpr ⟨_, h₂, Run.bind_eq_ok.mpr ⟨_, h₃, if_pos rfl⟩⟩⟩, rfl⟩, ?_⟩
      exact .eof rfl
  | @once _ _ _ _ rec recs hbb htime hrepeats hpos hzero hrecords =>
      obtain ⟨d₁, d₂, d₃, h₁, h₂, h₃, hreads₃⟩ :=
        decode_three hswaps order hreads hbb htime hrepeats
      have hne : rec.time_diff ≠ 0 := by bv_omega
      have hnone : BitVec.setWidth w (0 : BitVec 64) = 0 := by simp
      refine ⟨d₃, _, false, Run.bind_eq_ok.mpr ⟨_, Run.bind_eq_ok.mpr ⟨_, h₁,
        Run.bind_eq_ok.mpr ⟨_, h₂, Run.bind_eq_ok.mpr ⟨_, h₃,
          (if_neg hne).trans (if_neg (not_not.mpr hnone))⟩⟩⟩, rfl⟩, ?_⟩
      refine Source.next rfl rfl (start_time_add rfl (hfits _ List.mem_cons_self)) ?_ ?_
        hreads₃ hrecords
      · show rec.repeats.toNat = (BitVec.setWidth w (0 : BitVec 64)).toNat
        rw [hnone, hzero]
      · simp [hzero]
  | @repeated _ _ _ _ _ rec recs hbb htime hrepeats hinterval hpos hsome hrecords =>
      obtain ⟨d₁, d₂, d₃, h₁, h₂, h₃, hreads₃⟩ :=
        decode_three hswaps order hreads hbb htime hrepeats
      have hne : rec.time_diff ≠ 0 := by bv_omega
      have hwidth : BitVec.setWidth w (rec.repeats.setWidth 64) = rec.repeats := by
        rw [BitVec.setWidth_setWidth_of_le _ hw, BitVec.setWidth_eq]
      have hnonzero : BitVec.setWidth w (rec.repeats.setWidth 64) ≠ 0 := by grind
      let r₃ : BBReader N w τ := ({ r with decoder_ := d₃ } : BBReader N w τ).setRec
        { r.nextrec_.bb_rec with repeats := (rec.repeats.setWidth 64).setWidth w }
      obtain ⟨d₄, h₄, hreads₄⟩ := decode_spec (r := r₃) hswaps order hreads₃ hinterval
      refine ⟨d₄, _, false, Run.bind_eq_ok.mpr ⟨_, Run.bind_eq_ok.mpr ⟨_, h₁,
        Run.bind_eq_ok.mpr ⟨_, h₂, Run.bind_eq_ok.mpr ⟨_, h₃,
          (if_neg hne).trans ((if_pos hnonzero).trans (Run.bind_eq_ok.mpr ⟨_, h₄, rfl⟩))⟩⟩⟩,
        rfl⟩, ?_⟩
      refine Source.next rfl rfl (start_time_add rfl (hfits _ List.mem_cons_self)) ?_
        (fun _ => rfl) hreads₄ hrecords
      show rec.repeats.toNat = (BitVec.setWidth w (rec.repeats.setWidth 64)).toNat
      rw [hwidth]

/-! ## One call -/

/-- The series under way are those of the nodes on the list, and the series to be taken those of
the records that are left. -/
structure Represents (r : BBReader N w τ) (pending todo : List (Series (BitVec 64))) : Prop where
  nodes : ∃ used unused, r.Lists [] used unused ∧ used.map r.seriesOf = pending
  source : r.Source todo
  pending_fits : Fits pending
  todo_fits : Fits todo
  ordered : Ordered pending todo
  room : Room N pending todo

theorem Lists.congr {held used unused : List (Fin N)} (h : r.Lists held used unused)
    (hfutures : r'.futures_ = r.futures_) (hhead : r'.head_ = r.head_)
    (hfree : r'.free_ = r.free_) : r'.Lists held used unused := by
  have hnext : r'.nextOf = r.nextOf := by grind [nextOf]
  refine ⟨?_, ?_, h.all⟩
  · rw [hnext, hhead]
    exact h.futures
  · rw [hnext, hfree]
    exact h.free

/-- The event of a record; what is left of its series is under way then. -/
theorem readRec_spec (hw : w ≤ 64) (hswaps : machine.Swaps) (order : ByteOrder)
    (trace : TraceReader τ) {s : Series (BitVec 64)} (h : r.Represents pending (s :: todo))
    (hfirst : ∀ p ∈ pending.head?, s.time ≤ p.time) :
    ∃ r' event, r.readRec order machine trace = .ok (r', event) ∧
      (event.time.toNat, event.bb_num) = s.first ∧
      r'.Represents (insert? pending s.rest?) todo := by
  have hnext : Next pending (s :: todo) s.first (insert? pending s.rest?) todo := .take hfirst
  obtain ⟨used, unused, hlists, hpending⟩ := h.nodes
  have htodo : Fits todo := fun a ha => h.todo_fits a (List.mem_cons_of_mem s ha)
  have hs : s.last < 2 ^ 64 := h.todo_fits s List.mem_cons_self
  have hordered := hnext.ordered h.ordered
  have hroom := hnext.room h.room
  let event := (r.fillEvent trace r.nextrec_.bb_rec.start_time r.nextrec_.bb_rec.bb_num).2
  let r₁ := (r.fillEvent trace r.nextrec_.bb_rec.start_time r.nextrec_.bb_rec.bb_num).1
  have h₁ : r₁.Lists [] used unused := hlists.congr rfl rfl rfl
  have hmap₁ : used.map r₁.seriesOf = pending := hpending
  cases h.source with
  | @next _ rest recs _ hlabel htime hrepeats hinterval hreads hrecords =>
      have hevent : (event.time.toNat, event.bb_num) = s.first := by
        rw [Series.first, hlabel, htime]
        rfl
      have hdecoded : ∀ {r₂ : BBReader N w τ} {used' unused' : List (Fin N)},
          r₂.Lists [] used' unused' → r.SameSource r₂ →
          used'.map r₂.seriesOf = insert? pending s.rest? →
          ∃ r', r₂.decodeEof order machine = .ok r' ∧
            r'.Represents (insert? pending s.rest?) (executions s.time s.label recs) := by
        intro r₂ used' unused' h₂ hsame hmap
        rw [htime, hlabel, ← hsame.nextrec] at htodo hordered hroom ⊢
        obtain ⟨decoder_, nextrec_, is_eof_, hdecode, hsource⟩ :=
          decodeEof_spec hw hswaps order (hsame.decoder ▸ hreads) hrecords htodo
        exact ⟨_, hdecode, ⟨used', unused', h₂.congr rfl rfl rfl, hmap⟩, hsource,
          h.pending_fits.insert? hs, htodo, hordered, hroom⟩
      by_cases hpos : 0 < r.nextrec_.bb_rec.repeats
      · have hpos' : 0 < s.repeats := by
          rw [hrepeats]
          exact hpos
        have hseries : (TimeRec.mk r.nextrec_.bb_rec r.nextrec_.bb_rec.start_time).series = s := by
          rw [TimeRec.series, ← hlabel, ← htime, ← hrepeats, ← hinterval hpos']
        have hfree := room_take h.ordered h.room hfirst hpos'
        rw [← hpending, List.length_map] at hfree
        rw [← hseries] at hs
        obtain ⟨r₂, future, r₃, used', unused', halloc, hinsert, h₃, hsame, hmap⟩ :=
          keepRec_spec h₁ ⟨r.nextrec_.bb_rec, r.nextrec_.bb_rec.start_time⟩ hpos hs hfree
        rw [hmap₁, hseries] at hmap
        obtain ⟨r', hdecode, h'⟩ := hdecoded h₃ ⟨hsame.nextrec, hsame.decoder, hsame.is_eof⟩ hmap
        refine ⟨r', event, ?_, hevent, h'⟩
        rw [readRec]
        refine (if_pos hpos).trans ?_
        exact Run.bind_eq_ok.mpr ⟨_, halloc, Run.bind_eq_ok.mpr ⟨_, hinsert,
          Run.bind_eq_ok.mpr ⟨_, hdecode, rfl⟩⟩⟩
      · have hzero : s.rest? = none := by
          rw [Series.rest?, hrepeats]
          exact if_neg hpos
        have hmap : used.map r₁.seriesOf = insert? pending s.rest? := by
          rw [hmap₁, hzero]
          rfl
        obtain ⟨r', hdecode, h'⟩ := hdecoded h₁ ⟨rfl, rfl, rfl⟩ hmap
        refine ⟨r', event, ?_, hevent, h'⟩
        rw [readRec]
        refine (if_neg hpos).trans ?_
        exact Run.bind_eq_ok.mpr ⟨_, hdecode, rfl⟩

theorem Source.record (h : r.Source todo) : (r.is_eof_ = true ∧ todo = []) ∨
    ∃ s todo', r.is_eof_ = false ∧ todo = s :: todo' ∧
      s.time = r.nextrec_.bb_rec.start_time.toNat := by
  cases h with
  | eof heof => exact .inl ⟨heof, rfl⟩
  | next heof _ htime => exact .inr ⟨_, _, heof, rfl, htime⟩

theorem Represents.head (h : r.Represents pending todo) :
    (r.head_ = none ∧ pending = []) ∨ ∃ future p ps, r.head_ = some future ∧
      pending = p :: ps ∧ p = r.seriesOf future := by
  obtain ⟨used, unused, hlists, rfl⟩ := h.nodes
  cases used with
  | nil => exact .inl ⟨hlists.futures, rfl⟩
  | cons future used => exact .inr ⟨future, _, _, (chain_cons.mp hlists.futures).1, rfl, rfl⟩

/-- The event of the head; what is left of its series is under way. -/
theorem fireHead_spec (trace : TraceReader τ) {p : Series (BitVec 64)}
    {ps : List (Series (BitVec 64))} (h : r.Represents (p :: ps) todo)
    (hfirst : ∀ s ∈ todo.head?, p.time < s.time) {future : Fin N} (hhead : r.head_ = some future) :
    ∃ r' event, r.readHead trace future = .ok (r', event) ∧
      (event.time.toNat, event.bb_num) = p.first ∧ r'.Represents (insert? ps p.rest?) todo := by
  have hnext : Next (p :: ps) todo p.first (insert? ps p.rest?) todo := .fire hfirst
  obtain ⟨used, unused, hlists, hpending⟩ := h.nodes
  obtain ⟨future', used, rfl, rfl, rfl⟩ := List.map_eq_cons_iff.mp hpending
  obtain rfl : future' = future :=
    Option.some.inj ((chain_cons.mp hlists.futures).1.symm.trans hhead)
  have hp : (r.seriesOf future').last < 2 ^ 64 := h.pending_fits _ List.mem_cons_self
  have hps : Fits (used.map r.seriesOf) := fun a ha =>
    h.pending_fits a (List.mem_cons_of_mem _ ha)
  obtain ⟨r', event, used', unused', hread, hevent, h', hsame, hmap⟩ :=
    readHead_spec trace hlists hp
  exact ⟨r', event, hread, hevent, ⟨used', unused', h', hmap⟩, h.source.congr hsame,
    hps.insert? hp, h.todo_fits, hnext.ordered h.ordered, hnext.room h.room⟩

/-- A call gives the next event, unless there is none left. -/
theorem readBB_spec (hw : w ≤ 64) (hswaps : machine.Swaps) (order : ByteOrder)
    (trace : TraceReader τ) (h : r.Represents pending todo) :
    (pending = [] ∧ todo = [] ∧ r.ReadBB order machine trace = .ok (r, none)) ∨
      ∃ r' event pending' todo', r.ReadBB order machine trace = .ok (r', some event) ∧
        Next pending todo (event.time.toNat, event.bb_num) pending' todo' ∧
        r'.Represents pending' todo' := by
  rw [ReadBB]
  obtain ⟨heof, rfl⟩ | ⟨s, todo, heof, rfl, htime⟩ := h.source.record
  · rw [if_pos heof]
    obtain ⟨hhead, rfl⟩ | ⟨future, p, ps, hhead, rfl, -⟩ := h.head
    · simp [hhead]
    · have hfirst : ∀ s ∈ ([] : List (Series (BitVec 64))).head?, p.time < s.time :=
        fun s hs => (nomatch hs)
      obtain ⟨r', event, hread, hevent, h'⟩ := fireHead_spec trace h hfirst hhead
      rw [hhead]
      dsimp only
      rw [hread]
      refine .inr ⟨r', event, _, _, rfl, ?_, h'⟩
      rw [hevent]
      exact .fire hfirst
  · rw [if_neg (by rw [heof]; decide)]
    right
    obtain ⟨hhead, rfl⟩ | ⟨future, p, ps, hhead, rfl, hp⟩ := h.head
    · have hfirst : ∀ p ∈ ([] : List (Series (BitVec 64))).head?, s.time ≤ p.time :=
        fun p hp => (nomatch hp)
      obtain ⟨r', event, hread, hevent, h'⟩ := readRec_spec hw hswaps order trace h hfirst
      rw [hhead]
      dsimp only
      rw [hread]
      refine ⟨r', event, _, _, rfl, ?_, h'⟩
      rw [hevent]
      exact .take hfirst
    · rw [hhead]
      dsimp only
      have hcompare : (r.futures_ future).bb.next_time < r.nextrec_.bb_rec.start_time ↔
          p.time < s.time := by
        rw [hp, htime]
        exact .rfl
      by_cases hearlier : p.time < s.time
      · have hfirst : ∀ a ∈ (s :: todo).head?, p.time < a.time := by
          intro a ha
          obtain rfl := Option.some.inj ha
          exact hearlier
        obtain ⟨r', event, hread, hevent, h'⟩ := fireHead_spec trace h hfirst hhead
        rw [if_pos (hcompare.mpr hearlier), hread]
        refine ⟨r', event, _, _, rfl, ?_, h'⟩
        rw [hevent]
        exact .fire hfirst
      · have hfirst : ∀ a ∈ (p :: ps).head?, s.time ≤ a.time := by
          intro a ha
          obtain rfl := Option.some.inj ha
          exact Nat.le_of_not_lt hearlier
        obtain ⟨r', event, hread, hevent, h'⟩ := readRec_spec hw hswaps order trace h hfirst
        rw [if_neg (fun hlt => hearlier (hcompare.mp hlt)), hread]
        refine ⟨r', event, _, _, rfl, ?_, h'⟩
        rw [hevent]
        exact .take hfirst

/-! ## Reading a trace -/

/-- `ReadBB` is called until it says that the file is at its end. -/
inductive ReadsAll (order : ByteOrder) (machine : Machine) (trace : TraceReader τ) :
    BBReader N w τ → List BBEvent → BBReader N w τ → Prop
  | eof {r r' : BBReader N w τ} : r.ReadBB order machine trace = .ok (r', none) →
      ReadsAll order machine trace r [] r'
  | event {r r' r'' : BBReader N w τ} {event : BBEvent} {events : List BBEvent} :
      r.ReadBB order machine trace = .ok (r', some event) →
      ReadsAll order machine trace r' events r'' →
      ReadsAll order machine trace r (event :: events) r''

/-- As many calls give an event as there are events left. -/
theorem readsAll_spec (hw : w ≤ 64) (hswaps : machine.Swaps) (order : ByteOrder)
    (trace : TraceReader τ) (h : r.Represents pending todo) :
    ∃ events r', ReadsAll order machine trace r events r' ∧
      Runs pending todo (events.map BBEvent.execution) ∧ r'.Represents [] [] := by
  generalize hcount : (allEvents pending ++ allEvents todo).length = count
  induction count generalizing r pending todo with
  | zero =>
      obtain ⟨rfl, rfl, hread⟩ | ⟨r', event, pending', todo', -, hnext, -⟩ :=
        readBB_spec hw hswaps order trace h
      · exact ⟨[], r, .eof hread, .done, h⟩
      · grind [hnext.perm.length_eq]
  | succ count ih =>
      obtain ⟨rfl, rfl, -⟩ | ⟨r', event, pending', todo', hread, hnext, h'⟩ :=
        readBB_spec hw hswaps order trace h
      · cases hcount
      · have hlength := hnext.perm.length_eq
        rw [hcount, List.length_cons] at hlength
        obtain ⟨events, r'', hreads, hruns, hend⟩ := ih h' (Nat.succ.inj hlength).symm
        exact ⟨event :: events, r'', .event hread hreads, .next hnext hruns, hend⟩

/-- The nodes of a reader that is opened are linked in their order. -/
theorem open_chain {next : Fin N → Option (Fin N)}
    (hnext : ∀ ii, next ii = if h : ii.val + 1 < N then some ⟨ii.val + 1, h⟩ else none)
    (k : Nat) :
    Chain next (if h : k < N then some ⟨k, h⟩ else none) ((List.finRange N).drop k) := by
  generalize hleft : N - k = left
  induction left generalizing k with
  | zero =>
      have hall : ¬k < N := by omega
      rw [dif_neg hall, List.drop_eq_nil_of_le (by rw [List.length_finRange]; omega)]
      rfl
  | succ left ih =>
      have hlt : k < N := by omega
      rw [dif_pos hlt, List.drop_eq_getElem_cons (by rwa [List.length_finRange]),
        List.getElem_finRange]
      refine chain_cons.mpr ⟨rfl, ?_⟩
      rw [hnext]
      exact ih (k + 1) (by omega)

theorem open_spec (hw : w ≤ 64) (hswaps : machine.Swaps) (order : ByteOrder)
    (m : LittleEndian.Mem) (trace_ : τ) {file : List UInt8} {recs : List (Record w)}
    (hrecords : Records file recs) (hfits : Fits (executions 0 0 recs))
    (hroom : AtMost N (executions 0 0 recs)) :
    ∃ r : BBReader N w τ, Open order machine m file trace_ = .ok r ∧
      r.Represents [] (executions 0 0 recs) := by
  let r₀ : BBReader N w τ :=
    { nextrec_ := zeroRec
      futures_ := fun ii => ⟨if h : ii.val + 1 < N then some ⟨ii.val + 1, h⟩ else none, zeroRec⟩
      head_ := none
      free_ := if h : 0 < N then some ⟨0, h⟩ else none
      decoder_ := .Open m file
      is_eof_ := false
      trace_ }
  have hlists : r₀.Lists [] [] (List.finRange N) := ⟨rfl, open_chain (fun _ => rfl) 0, .refl _⟩
  obtain ⟨decoder_, nextrec_, is_eof_, hdecode, hsource⟩ :=
    decodeEof_spec (r := r₀) hw hswaps order (Decoder.open_reads m file) hrecords hfits
  refine ⟨_, hdecode, ⟨[], List.finRange N, hlists.congr rfl rfl rfl, rfl⟩, hsource,
    fun s hs => (nomatch hs), hfits, ⟨.nil, executions_pairwise 0 0 recs⟩, room_nil hroom⟩

/-- The events of a trace are all executions that its records stand for, in time order, and all
nodes are free at the end. -/
theorem readBB_events (hw : w ≤ 64) (hswaps : machine.Swaps) (order : ByteOrder)
    (trace : TraceReader τ) (m : LittleEndian.Mem) (trace_ : τ) {file : List UInt8}
    {recs : List (Record w)} (hrecords : Records file recs) (hfits : Fits (executions 0 0 recs))
    (hroom : AtMost N (executions 0 0 recs)) :
    ∃ (r r' : BBReader N w τ) (events : List BBEvent) (unused : List (Fin N)),
      Open order machine m file trace_ = .ok r ∧
      ReadsAll order machine trace r events r' ∧
      (events.map BBEvent.execution).Perm (allEvents (executions 0 0 recs)) ∧
      events.Pairwise (fun a b => a.time ≤ b.time) ∧
      r'.head_ = none ∧ Chain r'.nextOf r'.free_ unused ∧ unused.Perm (List.finRange N) := by
  obtain ⟨r, hopen, h⟩ := open_spec hw hswaps order m trace_ hrecords hfits hroom
  obtain ⟨events, r', hreads, hruns, hend⟩ := readsAll_spec hw hswaps order trace h
  obtain ⟨used, unused, hlists, hempty⟩ := hend.nodes
  obtain rfl := List.map_eq_nil_iff.mp hempty
  have hsorted := List.pairwise_map.mp (hruns.sorted h.ordered)
  exact ⟨r, r', events, unused, hopen, hreads, hruns.perm, hsorted, hlists.futures,
    hlists.free, hlists.all⟩

end BBReader

def unknownBlocks : TraceReader Unit where
  GetBBAddr _ _ := 0
  GetInsns _ _ := 0
  FindNumInsns _ _ _ := (0, ())
  FindCurrentPid _ _ := (0, ())
  GetIsThumb _ _ := 0

/-- Block 1 at 5, 8 and 11, block 0 at 6, and block 2 at 8 and 11. -/
def overlapping : List (Record 16) := [⟨1, 5, 2, 3⟩, ⟨-1, 1, 0, 0⟩, ⟨2, 2, 1, 3⟩]

theorem overlapping_records :
    Records [0x01, 0x05, 0x02, 0x03, 0x7f, 0x01, 0x00, 0x02, 0x02, 0x01, 0x03, 0, 0, 0]
      overlapping :=
  .repeated rfl rfl rfl rfl (by decide) (by decide)
    (.once rfl rfl rfl (by decide) rfl
      (.repeated rfl rfl rfl rfl (by decide) (by decide)
        (.done rfl rfl rfl)))

theorem readBB_events_overlapping :
    ∃ (r r' : BBReader 2 16 Unit) (events : List BBEvent) (unused : List (Fin 2)),
      BBReader.Open .LITTLE_ENDIAN onesBehind (fun _ => 0)
        [0x01, 0x05, 0x02, 0x03, 0x7f, 0x01, 0x00, 0x02, 0x02, 0x01, 0x03, 0, 0, 0] () = .ok r ∧
      BBReader.ReadsAll .LITTLE_ENDIAN onesBehind unknownBlocks r events r' ∧
      (events.map BBEvent.execution).Perm
        [(5, 1), (8, 1), (11, 1), (6, 0), (8, 2), (11, 2)] ∧
      events.Pairwise (fun a b => a.time ≤ b.time) ∧
      r'.head_ = none ∧ Chain r'.nextOf r'.free_ unused ∧ unused.Perm (List.finRange 2) :=
  BBReader.readBB_events (by decide) onesBehind_swaps .LITTLE_ENDIAN unknownBlocks (fun _ => 0) ()
    overlapping_records (by decide) (atMost_of_repeating (by decide))

end AndroidRenderer.Qtools
