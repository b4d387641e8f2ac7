import AndroidRenderer.Lib.Replay
import AndroidRenderer.Qtools.ProcessFrames
import AndroidRenderer.Qtools.RegionLifetime

/-!
# The current pid by time

Two readers of the pid trace find the pid that is current at a time. `TraceReaderBase` keeps the
next context switch, and `TraceReader` the next event of any kind, and handles every event. Queries
in the order of their times get the pid of the last context switch from both.
-/

namespace AndroidRenderer.Qtools.Trace

open Run

def PidEvent.time? : PidEvent → Option (BitVec 64)
  | .kPidFork time _ _ => some time
  | .kPidClone time _ _ => some time
  | .kPidSwitch time _ => some time
  | .kPidName time _ _ => some time
  | .kPidKthreadName time _ _ _ => some time
  | _ => none

/-- An event as `ReadPidEvent` leaves it: all have a time, also those whose handlers read none. -/
structure TimedEvent where
  time : BitVec 64
  event : PidEvent
  same : event.time?.all (· = time) = true

namespace TimedEvent

/-- The event before the first one is read. -/
def noAction : TimedEvent := ⟨0, .kPidNoAction, rfl⟩

def endOfFile : TimedEvent := ⟨~~~0, .kPidNoAction, rfl⟩

end TimedEvent

/-! ## TraceReaderBase -/

structure PidState where
  current_pid_ : Int
  next_pid_ : Int
  next_pid_switch_time_ : BitVec 64
  internal_pid_reader_ : List TimedEvent

namespace PidState

/-- `TraceReaderBase::TraceReaderBase` -/
def new (trace : List TimedEvent) : PidState := ⟨0, 0, 0, trace⟩

/-- The loop of `TraceReaderBase::FindCurrentPid`. -/
def readSwitches (time : BitVec 64) : List TimedEvent → PidState → PidState
  | [], s => { s with next_pid_switch_time_ := ~~~0, internal_pid_reader_ := [] }
  | e :: es, s =>
      match e.event.switchPid with
      | none => readSwitches time es s
      | some pid =>
          if time < e.time then
            { s with
              next_pid_ := pid
              next_pid_switch_time_ := e.time
              internal_pid_reader_ := es }
          else readSwitches time es { s with current_pid_ := pid }

def FindCurrentPid (s : PidState) (time : BitVec 64) : PidState × Int :=
  let s :=
    if time < s.next_pid_switch_time_ then s
    else readSwitches time s.internal_pid_reader_ { s with current_pid_ := s.next_pid_ }
  (s, s.current_pid_)

/-- Queries one after another. -/
def pids (s : PidState) : List (BitVec 64) → List Int
  | [] => []
  | time :: times => (s.FindCurrentPid time).2 :: pids (s.FindCurrentPid time).1 times

end PidState

/-! ## TraceReader -/

/-- A reader with the members for its pid trace. -/
structure PidReplay where
  reader : TraceReader
  next_pid_event_ : TimedEvent
  internal_pid_reader_ : List TimedEvent

namespace PidReplay

def new (s : TraceReader) (trace : List TimedEvent) : PidReplay := ⟨s, .noAction, trace⟩

/-- `HandlePidEvent` for the event that was read. -/
def handle (f : TraceFiles) (s : TraceReader) (e : TimedEvent) : Except TraceFault TraceReader :=
  s.HandlePidEvent f e.event

/-- The loop of `TraceReader::FindCurrentPid`. -/
def replay (f : TraceFiles) (time : BitVec 64) :
    List TimedEvent → PidReplay → Except TraceFault PidReplay
  | [], s => (handle f s.reader s.next_pid_event_).map fun reader => ⟨reader, .endOfFile, []⟩
  | e :: es, s =>
      handle f s.reader s.next_pid_event_ >>= fun reader =>
        let s : PidReplay := ⟨reader, e, es⟩
        if time < e.time then .ok s else replay f time es s

def FindCurrentPid (f : TraceFiles) (s : PidReplay) (time : BitVec 64) :
    Except TraceFault (PidReplay × Int) :=
  (if time < s.next_pid_event_.time then .ok s
    else replay f time s.internal_pid_reader_ s).map fun s =>
      (s, (s.reader.states s.reader.current_).pid)

/-- Queries one after another. -/
def pids (f : TraceFiles) (s : PidReplay) : List (BitVec 64) → Except TraceFault (List Int)
  | [] => .ok []
  | time :: times =>
      s.FindCurrentPid f time >>= fun found =>
        (pids f found.1 times).map fun rest => found.2 :: rest

end PidReplay

/-! ## The pid at a time -/

/-- The pid of the last context switch up to a time. -/
def pidAt (trace : List TimedEvent) (time : BitVec 64) : Int :=
  ((trace.filter fun e => e.time ≤ time).filterMap fun e => e.event.switchPid).getLastD 0

/-- The events up to the last of some times. -/
def dueEvents (trace : List TimedEvent) (times : List (BitVec 64)) : List TimedEvent :=
  trace.filter fun e => times.any fun time => e.time ≤ time

/-- The time that stands for the end of the trace. -/
def lastTime : Nat := (~~~0 : BitVec 64).toNat

/-! ## TraceReaderBase finds it -/

namespace PidState

def switches (trace : List TimedEvent) : List (Nat × Int) :=
  trace.filterMap fun e => e.event.switchPid.map fun pid => (e.time.toNat, pid)

/-- A context switch takes the place of the current pid. -/
def take (_ : Int) (switch : Nat × Int) : Except TraceFault Int := .ok switch.2

theorem foldlM_take (l : List (Nat × Int)) (pid : Int) :
    l.foldlM take pid = .ok ((l.map Prod.snd).getLastD pid) := by
  induction l generalizing pid with
  | nil => rfl
  | cons switch l ih =>
      rw [List.foldlM_cons, take, List.map_cons, List.getLastD_cons]
      exact ih switch.2

/-- The loop takes the switches that are due and keeps the next one. -/
theorem readSwitches_eq (time : BitVec 64) (es : List TimedEvent) (s : PidState) :
    ∃ marked as, marked.1 = lastTime ∧
      Replay.advance take Prod.fst time.toNat (switches es) s.current_pid_ =
        .ok ((readSwitches time es s).current_pid_, as) ∧
      Replay.keep marked as =
        (((readSwitches time es s).next_pid_switch_time_.toNat,
          (readSwitches time es s).next_pid_),
          switches (readSwitches time es s).internal_pid_reader_) := by
  induction es generalizing s with
  | nil => exact ⟨(lastTime, s.next_pid_), [], rfl, rfl, rfl⟩
  | cons e es ih =>
      rw [readSwitches, switches, List.filterMap_cons]
      cases hswitch : e.event.switchPid with
      | none => exact ih s
      | some pid =>
          dsimp only [Option.map_some]
          rw [Replay.advance]
          by_cases hlater : time < e.time
          · have hnot : ¬e.time.toNat ≤ time.toNat := Nat.not_le.mpr (BitVec.lt_def.mp hlater)
            rw [if_pos hlater, if_neg hnot]
            exact ⟨(lastTime, 0), _, rfl, rfl, rfl⟩
          · have hle : e.time.toNat ≤ time.toNat :=
              Nat.not_lt.mp fun hlt => hlater (BitVec.lt_def.mpr hlt)
            rw [if_neg hlater, if_pos hle]
            exact ih { s with current_pid_ := pid }

theorem FindCurrentPid_eq {s : PidState} {time : BitVec 64} (htime : time < ~~~0)
    {marked : Nat × Int} (hmarked : marked.1 = lastTime) {as : List (Nat × Int)}
    (hkeep : Replay.keep marked as =
      ((s.next_pid_switch_time_.toNat, s.next_pid_), switches s.internal_pid_reader_)) :
    ∃ marked' as', marked'.1 = lastTime ∧
      Replay.advance take Prod.fst time.toNat as s.current_pid_ =
        .ok ((s.FindCurrentPid time).2, as') ∧
      Replay.keep marked' as' =
        (((s.FindCurrentPid time).1.next_pid_switch_time_.toNat,
          (s.FindCurrentPid time).1.next_pid_),
          switches (s.FindCurrentPid time).1.internal_pid_reader_) := by
  have hlt : time.toNat < lastTime := BitVec.lt_def.mp htime
  rw [FindCurrentPid]
  cases as with
  | nil =>
      obtain ⟨hnext, hrest⟩ := Prod.mk.inj hkeep
      have hlast : s.next_pid_switch_time_.toNat = lastTime := by
        rw [← hmarked, hnext]
      have hlater : time < s.next_pid_switch_time_ := by
        rw [BitVec.lt_def, hlast]
        exact hlt
      rw [if_pos hlater]
      exact ⟨marked, [], hmarked, rfl, hkeep⟩
  | cons a as =>
      obtain ⟨rfl, rfl⟩ := Prod.mk.inj hkeep
      rw [Replay.advance]
      by_cases hlater : time < s.next_pid_switch_time_
      · have hnot : ¬s.next_pid_switch_time_.toNat ≤ time.toNat :=
          Nat.not_le.mpr (BitVec.lt_def.mp hlater)
        grind
      · have hle : s.next_pid_switch_time_.toNat ≤ time.toNat :=
          Nat.not_lt.mp fun hlt => hlater (BitVec.lt_def.mpr hlt)
        rw [if_neg hlater, if_pos hle]
        exact readSwitches_eq time s.internal_pid_reader_ { s with current_pid_ := s.next_pid_ }

theorem pids_eq_answers {times : List (BitVec 64)} (htimes : ∀ time ∈ times, time < ~~~0)
    {s : PidState} {marked : Nat × Int} (hmarked : marked.1 = lastTime) {as : List (Nat × Int)}
    (hkeep : Replay.keep marked as =
      ((s.next_pid_switch_time_.toNat, s.next_pid_), switches s.internal_pid_reader_)) :
    Replay.answers take Prod.fst BitVec.toNat (fun pid _ => pid) times as s.current_pid_ =
      .ok (s.pids times) := by
  induction times generalizing s marked as with
  | nil => rfl
  | cons time times ih =>
      obtain ⟨marked', as', hmarked', hadvance, hkeep'⟩ :=
        FindCurrentPid_eq (htimes time List.mem_cons_self) hmarked hkeep
      have hrest := ih (fun time htime => htimes time (List.mem_cons_of_mem _ htime)) hmarked'
        hkeep'
      rw [Replay.answers, hadvance, pids]
      exact congrArg (Except.map _) hrest

theorem switches_due (trace : List TimedEvent) (time : BitVec 64) :
    ((Replay.due Prod.fst time.toNat (switches trace)).map Prod.snd) =
      (trace.filter fun e => e.time ≤ time).filterMap fun e => e.event.switchPid := by
  rw [Replay.due, switches, List.filter_filterMap, List.map_filterMap, List.filterMap_filter]
  refine congrArg (List.filterMap · trace) (funext fun e => ?_)
  cases e.event.switchPid with
  | none => exact (ite_self _).symm
  | some pid =>
      by_cases hle : e.time ≤ time
      · rw [if_pos (decide_eq_true hle)]
        exact congrArg (Option.map _) (if_pos (decide_eq_true (BitVec.le_def.mp hle)))
      · rw [if_neg (by simpa using hle)]
        refine congrArg (Option.map _) (if_neg ?_)
        rw [decide_eq_true_eq]
        exact fun h => hle (BitVec.le_def.mpr h)

/-- `TraceReaderBase` finds the pid of the last context switch. -/
theorem pids_eq {trace : List TimedEvent} (htrace : trace.Pairwise (·.time ≤ ·.time))
    {times : List (BitVec 64)} (hsorted : times.Pairwise (· ≤ ·))
    (htimes : ∀ time ∈ times, time < ~~~0) :
    (new trace).pids times = times.map (pidAt trace) := by
  have hswitches : ((0, 0) :: switches trace).Pairwise (Prod.fst · ≤ Prod.fst ·) := by
    refine List.pairwise_cons.mpr ⟨fun _ _ => Nat.zero_le _, List.pairwise_filterMap.mpr ?_⟩
    refine htrace.imp fun hle switch hswitch switch' hswitch' => ?_
    obtain ⟨pid, -, rfl⟩ := Option.map_eq_some_iff.mp hswitch
    obtain ⟨pid', -, rfl⟩ := Option.map_eq_some_iff.mp hswitch'
    exact BitVec.le_def.mp hle
  have hqs : times.Pairwise (BitVec.toNat · ≤ BitVec.toNat ·) :=
    hsorted.imp fun hle => BitVec.le_def.mp hle
  have hanswers : Replay.answers take Prod.fst BitVec.toNat (fun pid _ => pid) times
      ((0, 0) :: switches trace) 0 = _ :=
    Replay.answers_eq (fun l _ => (l.map Prod.snd).getLastD 0) hswitches hqs fun l pid hl _ => by
      rw [foldlM_take] at hl
      exact (Except.ok.inj hl).symm
  rw [foldlM_take] at hanswers
  have hstart : Replay.keep (lastTime, 0) ((0, 0) :: switches trace) =
      (((new trace).next_pid_switch_time_.toNat, (new trace).next_pid_),
        switches (new trace).internal_pid_reader_) := rfl
  have hpids := (pids_eq_answers htimes rfl hstart).symm.trans hanswers
  refine (Except.ok.inj hpids).trans (List.map_congr_left fun time _ => ?_)
  have hfirst : ((0, 0) : Nat × Int).1 ≤ time.toNat := Nat.zero_le _
  rw [Replay.due_cons hfirst, List.map_cons, List.getLastD_cons, switches_due, pidAt]

end PidState

/-! ## TraceReader finds it -/

namespace PidReplay

def time (e : TimedEvent) : Nat := e.time.toNat

def currentPid (s : TraceReader) (_ : BitVec 64) : Int := (s.states s.current_).pid

/-- `FindCurrentPid` as a query to the library's reader. -/
def asked (f : TraceFiles) (t : BitVec 64) (s : PidReplay) :
    Except TraceFault (TraceReader × TimedEvent × List TimedEvent) :=
  Replay.ask (handle f) time (fun _ => .endOfFile) t.toNat s.reader s.next_pid_event_
    s.internal_pid_reader_

theorem replay_eq (f : TraceFiles) (t : BitVec 64) (es : List TimedEvent) (s : PidReplay) :
    replay f t es s = (Replay.readOn (handle f) time (fun _ => .endOfFile) t.toNat es s.reader
      s.next_pid_event_).map fun r => ⟨r.1, r.2.1, r.2.2⟩ := by
  induction es generalizing s with
  | nil =>
      rw [replay, Replay.readOn]
      cases handle f s.reader s.next_pid_event_ with
      | error e => rfl
      | ok reader => rfl
  | cons e es ih =>
      rw [replay, Replay.readOn]
      cases handle f s.reader s.next_pid_event_ with
      | error e => rfl
      | ok reader =>
          change (if t < e.time then Except.ok (⟨reader, e, es⟩ : PidReplay)
            else replay f t es ⟨reader, e, es⟩) = Except.map _ (if t.toNat < time e then _ else _)
          by_cases hlater : t < e.time
          · rw [if_pos hlater, if_pos (show t.toNat < time e from BitVec.lt_def.mp hlater)]
            rfl
          · have hnot : ¬t.toNat < time e := fun hlt => hlater (BitVec.lt_def.mpr hlt)
            grind

theorem FindCurrentPid_eq (f : TraceFiles) (s : PidReplay) (t : BitVec 64) :
    s.FindCurrentPid f t = (s.asked f t).map fun r =>
      (⟨r.1, r.2.1, r.2.2⟩, currentPid r.1 t) := by
  rw [FindCurrentPid, asked, Replay.ask]
  by_cases hlater : t < s.next_pid_event_.time
  · rw [if_pos hlater,
      if_pos (show t.toNat < time s.next_pid_event_ from BitVec.lt_def.mp hlater)]
    rfl
  · have hnot : ¬t.toNat < time s.next_pid_event_ := fun hlt => hlater (BitVec.lt_def.mpr hlt)
    rw [if_neg hlater, if_neg hnot, replay_eq]
    cases Replay.readOn (handle f) time (fun _ => .endOfFile) t.toNat s.internal_pid_reader_
      s.reader s.next_pid_event_ with
    | error e => rfl
    | ok r => rfl

theorem pids_eq_asks (f : TraceFiles) (times : List (BitVec 64)) (s : PidReplay) :
    s.pids f times = Replay.asks (handle f) time (fun _ => .endOfFile) BitVec.toNat currentPid times
      s.reader s.next_pid_event_ s.internal_pid_reader_ := by
  induction times generalizing s with
  | nil => rfl
  | cons t times ih =>
      rw [pids, FindCurrentPid_eq, asked, Replay.asks]
      cases Replay.ask (handle f) time (fun _ => .endOfFile) t.toNat s.reader s.next_pid_event_
        s.internal_pid_reader_ with
      | error e => rfl
      | ok r => exact congrArg (Except.map _) (ih ⟨r.1, r.2.1, r.2.2⟩)

theorem currentPid_of_events {f : TraceFiles} (es : List TimedEvent) {s s' : TraceReader}
    (hinv : s.PidsInv) (h : es.foldlM (handle f) s = .ok s') (t : BitVec 64) :
    currentPid s' t =
      (es.filterMap fun e => e.event.switchPid).getLastD (s.states s.current_).pid := by
  induction es generalizing s with
  | nil =>
      obtain rfl := Except.ok.inj h
      rfl
  | cons e es ih =>
      rw [List.foldlM_cons] at h
      obtain ⟨s₁, hevent, hrest⟩ := bind_eq_ok.mp h
      have hstep := TraceReader.HandlePidEvent_step hinv hevent
      rw [ih (hstep.pids hinv) hrest, hstep.current_pid, List.filterMap_cons]
      cases e.event.switchPid with
      | none => rfl
      | some pid => exact List.getLastD_cons.symm

/-- `TraceReader` gives the same pids, where the events up to the last query go through. -/
theorem pids_eq (f : TraceFiles) {s : TraceReader} (hinv : s.PidsInv)
    (hzero : (s.states s.current_).pid = 0) {trace : List TimedEvent}
    (htrace : trace.Pairwise (·.time ≤ ·.time)) {times : List (BitVec 64)}
    (hsorted : times.Pairwise (· ≤ ·)) (htimes : ∀ t ∈ times, t < ~~~0) :
    (new s trace).pids f times =
      ((dueEvents trace times).foldlM (handle f) s).map fun _ => times.map (pidAt trace) := by
  have hevents : (TimedEvent.noAction :: trace).Pairwise (time · ≤ time ·) :=
    List.pairwise_cons.mpr ⟨fun _ _ => Nat.zero_le _, htrace.imp fun hle => BitVec.le_def.mp hle⟩
  have hqs : times.Pairwise (BitVec.toNat · ≤ BitVec.toNat ·) :=
    hsorted.imp fun hle => BitVec.le_def.mp hle
  have hanswers : Replay.answers (handle f) time BitVec.toNat currentPid times
      (TimedEvent.noAction :: trace) s = _ :=
    Replay.answers_eq (fun l _ => (l.filterMap fun e => e.event.switchPid).getLastD 0) hevents hqs
      fun l s' hl t => by rw [currentPid_of_events l hinv hl t, hzero]
  have hasks : Replay.asks (handle f) time (fun _ => .endOfFile) BitVec.toNat currentPid times s
      .noAction trace = Replay.answers (handle f) time BitVec.toNat currentPid times
        (TimedEvent.noAction :: trace) s :=
    Replay.asks_eq (handle f) _ (fun _ => (rfl : time .endOfFile = lastTime))
      (fun t ht => BitVec.lt_def.mp (htimes t ht)) (rfl : time .endOfFile = lastTime)
      (TimedEvent.noAction :: trace) s
  have hdue : (Replay.dueAny time BitVec.toNat times (TimedEvent.noAction :: trace)).foldlM
      (handle f) s = (dueEvents trace times).foldlM (handle f) s := by
    rw [Replay.dueAny, List.filter_cons, dueEvents]
    split
    · rfl
    · rfl
  rw [pids_eq_asks]
  refine (hasks.trans hanswers).trans ?_
  rw [hdue]
  rfl

/-! ## Events that go through -/

def AllMeet (f : TraceFiles) (P : TraceReader → PidEvent → Prop) :
    TraceReader → List TimedEvent → Prop
  | _, [] => True
  | s, e :: es => P s e.event ∧ ∀ s', handle f s e = .ok s' → AllMeet f P s' es

def Passes (s : TraceReader) (event : PidEvent) : Prop :=
  s.Admissible event ∧ ∀ fault, ¬s.Refuses event fault

theorem events_meets {f : TraceFiles} {es : List TimedEvent} {s : TraceReader} (hinv : s.Inv)
    (h : AllMeet f TraceReader.Admissible s es) :
    Meets (es.foldlM (handle f) s) TraceReader.Ends TraceReader.Inv := by
  induction es generalizing s with
  | nil => exact .pure hinv
  | cons e es ih =>
      have hevent : Meets (handle f s e) (s.Refuses e.event) TraceReader.Inv :=
        TraceReader.HandlePidEvent_meets hinv e.event h.1
      have hends := hevent.weaken fun fault hfault => hfault.ends
      rw [List.foldlM_cons]
      refine ⟨hends.faults.bind fun s' hs' => (ih (hevent.result s' hs') (h.2 s' hs')).faults,
        fun s'' hs'' => ?_⟩
      obtain ⟨s', hs', hrest⟩ := bind_eq_ok.mp hs''
      exact (ih (hevent.result s' hs') (h.2 s' hs')).result s'' hrest

theorem events_ok {f : TraceFiles} {es : List TimedEvent} {s : TraceReader} (hinv : s.Inv)
    (h : AllMeet f Passes s es) : ∃ s', es.foldlM (handle f) s = .ok s' := by
  induction es generalizing s with
  | nil => exact ⟨s, rfl⟩
  | cons e es ih =>
      have hevent : Meets (handle f s e) (s.Refuses e.event) TraceReader.Inv :=
        TraceReader.HandlePidEvent_meets hinv e.event h.1.1
      rw [List.foldlM_cons]
      cases hs' : handle f s e with
      | error fault => exact absurd (hevent.faults fault hs') (h.1.2 fault)
      | ok s' => exact ih (hevent.result s' hs') (h.2 s' hs')

/-- Both readers find the pid of the last context switch at every time, where the events up to the
last query go through `TraceReader`. They do unless one of them is refused, if the reader can take
them all. -/
theorem FindCurrentPid_agree (f : TraceFiles) (kernel_files : List String) :
    ∃ s₀, TraceReader.start f kernel_files = .ok s₀ ∧
      ∀ (trace : List TimedEvent) (times : List (BitVec 64)),
        trace.Pairwise (·.time ≤ ·.time) → times.Pairwise (· ≤ ·) → (∀ t ∈ times, t < ~~~0) →
        (PidState.new trace).pids times = times.map (pidAt trace) ∧
        (new s₀ trace).pids f times = ((dueEvents trace times).foldlM (handle f) s₀).map
          (fun _ => times.map (pidAt trace)) ∧
        (AllMeet f Passes s₀ (dueEvents trace times) →
          (new s₀ trace).pids f times = .ok (times.map (pidAt trace))) ∧
        (AllMeet f TraceReader.Admissible s₀ (dueEvents trace times) →
          Meets ((new s₀ trace).pids f times) TraceReader.Ends (· = times.map (pidAt trace))) := by
  obtain ⟨s₀, hstart, hs₀⟩ := TraceReader.start_ok f kernel_files
  have hprocesses := hs₀.inv.processes
  have hpids : s₀.PidsInv := ⟨hprocesses.process, hprocesses.current⟩
  have hzero : (s₀.states s₀.current_).pid = 0 := (hprocesses.process 0 _ hs₀.first).2
  refine ⟨s₀, hstart, fun trace times htrace hsorted htimes => ?_⟩
  have hreplay := pids_eq f hpids hzero htrace hsorted htimes
  refine ⟨PidState.pids_eq htrace hsorted htimes, hreplay, fun hpass => ?_, fun hok => ?_⟩
  · obtain ⟨s', hs'⟩ := events_ok hs₀.inv hpass
    rw [hreplay, hs']
    rfl
  · rw [hreplay]
    exact (events_meets hs₀.inv hok).map fun _ _ => rfl

/-- `TraceReader` has no process for such a pid, and ends the program. -/
theorem pid_too_large : ∃ s₀, TraceReader.start TraceReader.noFiles [] = .ok s₀ ∧
    (PidState.new [⟨1, .kPidSwitch 1 40000, rfl⟩]).pids [1] = [40000] ∧
    (new s₀ [⟨1, .kPidSwitch 1 40000, rfl⟩]).pids TraceReader.noFiles [1] = .error .exit := by
  obtain ⟨s₀, hstart, -⟩ := TraceReader.start_ok TraceReader.noFiles []
  exact ⟨s₀, hstart, rfl, rfl⟩

end PidReplay

end AndroidRenderer.Qtools.Trace
