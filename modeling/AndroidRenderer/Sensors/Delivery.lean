import AndroidRenderer.Sensors.SensorPoll

/-!
# Delivery of the readings

The ledger says what the readings stand for: at a sync each sensor that was reported since the
last one gives one event, with its last reading and the time of the sync, from the offset of the
first sync on. The device gives these events, in the same order, however many of them a call asks
for, as long as it receives neither a wake text nor a temperature, and readings before the first
sync.
-/

namespace AndroidRenderer.Sensors

variable {F : Type}

/-! ## What texts say -/

def colon (text : List UInt8) : Option (List UInt8) :=
  if text.head? = some 58 then some text.tail else none

/-- Three numbers with colons between them. -/
def threeNumbers (sc : Scan F) (text : List UInt8) : Option (F × F × F) := do
  let x ← sc.float text
  let y ← sc.float (← colon x.2)
  let z ← sc.float (← colon y.2)
  return (x.1, y.1, z.1)

/-- A text that begins with a name says what stands behind it. -/
def vectorOf (sc : Scan F) (name : String) (i : SensorId) (buff : List UInt8) :
    Option (Message F) :=
  (((CString.literal name).isPrefixOf? buff).bind (threeNumbers sc)).map fun v =>
    .vector i v.1 v.2.1 v.2.2

def scalarOf (sc : Scan F) (name : String) (i : SensorId) (buff : List UInt8) :
    Option (Message F) :=
  (((CString.literal name).isPrefixOf? buff).bind sc.float).map fun r => .scalar i r.1

def syncOf (sc : Scan F) (buff : List UInt8) : Option (Message F) :=
  (((CString.literal "sync:").isPrefixOf? buff).bind sc.integer).map fun r => .sync r.1

/-- What a text of the emulator says. -/
def messageOf (sc : Scan F) (buff : List UInt8) : Message F :=
  if buff = CString.literal "wake" then .wake
  else
    (vectorOf sc "acceleration:" idAcceleration buff
      <|> vectorOf sc "orientation:" idOrientation buff
      <|> vectorOf sc "magnetic-field:" idMagneticField buff
      <|> scalarOf sc "temperature:" idTemperature buff
      <|> scalarOf sc "proximity:" idProximity buff
      <|> syncOf sc buff).getD .unknown

/-- The text in the buffer, which ends at the first NUL. -/
def cstr (bytes : List UInt8) : List UInt8 := bytes.takeWhile (· ≠ 0)

/-- A text of a number that `sscanf` reads back, up to the colon behind it. -/
structure Numeral {α : Type} (read : List UInt8 → Option (α × List UInt8)) (text : List UInt8)
    (n : α) : Prop where
  noNul : 0 ∉ text
  last : read text = some (n, [])
  colon : ∀ rest, read (text ++ 58 :: rest) = some (n, 58 :: rest)

inductive Printed (sc : Scan F) : List UInt8 → Message F → Prop
  | vector {name i x y z tx ty tz} :
      (name, i) ∈ [("acceleration:", idAcceleration), ("orientation:", idOrientation),
        ("magnetic-field:", idMagneticField)] →
      Numeral sc.float tx x → Numeral sc.float ty y → Numeral sc.float tz z →
      Printed sc (CString.literal name ++ (tx ++ 58 :: (ty ++ 58 :: tz))) (.vector i x y z)
  | scalar {name i x tx} :
      (name, i) ∈ [("temperature:", idTemperature), ("proximity:", idProximity)] →
      Numeral sc.float tx x → Printed sc (CString.literal name ++ tx) (.scalar i x)
  | sync {time ttime} :
      Numeral sc.integer ttime time → Printed sc (CString.literal "sync:" ++ ttime) (.sync time)
  | wake : Printed sc (CString.literal "wake") .wake

/-! ## The ledger -/

structure Reading (F : Type) where
  sensor : SensorId
  data : F × F × F

/-- The offset of the time, from the first sync on, and the readings since the last sync. -/
structure Ledger (F : Type) where
  offset : Option Int64 := none
  since : List (Reading F) := []

def lastReading (since : List (Reading F)) (i : SensorId) : Option (Reading F) :=
  since.reverse.find? (·.sensor = i)

def eventsAt (t : Int64) (since : List (Reading F)) : List (SensorsEvent F) :=
  supportedSensors.filterMap fun i =>
    (lastReading since i).map fun r => { sensor := i, timestamp := t, data := r.data }

namespace Ledger

def read (l : Ledger F) (r : Reading F) : Ledger F := { l with since := l.since ++ [r] }

def next (sc : Scan F) (now : Int64) (l : Ledger F) : Message F → Ledger F × List (SensorsEvent F)
  | .vector i x y z => (l.read { sensor := i, data := (x, y, z) }, [])
  | .scalar i x => (l.read { sensor := i, data := (x, sc.zero, sc.zero) }, [])
  | .sync time =>
      let t := time * 1000
      let offset := l.offset.getD (now - t)
      ({ offset := some offset, since := [] }, eventsAt (t + offset) l.since)
  | .wake | .unknown => (l, [])

def receive (sc : Scan F) (l : Ledger F) : Recv → Ledger F × List (SensorsEvent F)
  | .message bytes now => l.next sc now (messageOf sc (cstr bytes))
  | .error _ => (l, [])

def run (sc : Scan F) (l : Ledger F) : List Recv → Ledger F × List (SensorsEvent F)
  | [] => (l, [])
  | m :: ms =>
      (((l.receive sc m).1.run sc ms).1, (l.receive sc m).2 ++ ((l.receive sc m).1.run sc ms).2)

theorem run_append (sc : Scan F) (l : Ledger F) (ms ms' : List Recv) :
    l.run sc (ms ++ ms') =
      (((l.run sc ms).1.run sc ms').1, (l.run sc ms).2 ++ ((l.run sc ms).1.run sc ms').2) := by
  induction ms generalizing l with
  | nil => rfl
  | cons m ms ih => rw [List.cons_append, run, ih, run, List.append_assoc]

end Ledger

/-- A text that is neither a wake nor a temperature, with readings before it if it is the first
sync, and a clock that has started. -/
def Ordinary (sc : Scan F) (l : Ledger F) : Recv → Prop
  | .message bytes now => now ≠ 0 ∧ (∀ x, messageOf sc (cstr bytes) ≠ .scalar idTemperature x) ∧
      cstr bytes ≠ CString.literal "wake" ∧
      ∀ time, messageOf sc (cstr bytes) = .sync time → l.since = [] → l.offset ≠ none
  | .error _ => False

/-- Each message is ordinary when it arrives. -/
def OrdinaryRun (sc : Scan F) (l : Ledger F) : List Recv → Prop
  | [] => True
  | m :: ms => Ordinary sc l m ∧ OrdinaryRun sc (l.receive sc m).1 ms

theorem OrdinaryRun.of_append {sc : Scan F} {l : Ledger F} {ms ms' : List Recv}
    (h : OrdinaryRun sc l (ms ++ ms')) : OrdinaryRun sc (l.run sc ms).1 ms' := by
  induction ms generalizing l with
  | nil => exact h
  | cons m ms ih => exact ih h.2

/-- The events that the messages received from the start on stand for. -/
def expected (sc : Scan F) (ms : List Recv) : List (SensorsEvent F) := (Ledger.run sc {} ms).2

/-! ## Texts -/

variable {sc : Scan F} {data : SensorPoll F} {buff : List UInt8} {i : SensorId}

/-- Characters of a format are matched, or nothing is converted. -/
theorem sscanf_chars (name : String) (format : List Directive) (buff : List UInt8) :
    sscanf sc (chars name ++ format) buff =
      ((CString.literal name).isPrefixOf? buff).elim [] (sscanf sc format) := by
  unfold chars
  induction CString.literal name generalizing buff with
  | nil => rfl
  | cons c cs ih =>
      cases buff with
      | nil => rfl
      | cons b buff =>
          rw [List.map_cons, List.cons_append, sscanf, List.isPrefixOf?, List.head?_cons,
            List.tail_cons, ih]
          by_cases h : b = c
          · simp [h]
          · simp [h, Ne.symm h]

@[simp] theorem sscanf_nil (text : List UInt8) : sscanf sc [] text = [] := rfl

@[simp] theorem sscanf_g (format : List Directive) (text : List UInt8) :
    sscanf sc (.g :: format) text =
    (sc.float text).elim [] fun r => .float r.1 :: sscanf sc format r.2 := by
  rw [sscanf]
  cases sc.float text <;> rfl

@[simp] theorem sscanf_colon (format : List Directive) (text : List UInt8) :
    sscanf sc (.char 58 :: format) text = (colon text).elim [] (sscanf sc format) := by
  rw [sscanf, colon]
  split <;> rfl

/-- Three conversions are three numbers with colons between them. -/
theorem scanVector_eq (name : String) :
    scanVector sc name i buff = vectorOf sc name i buff := by
  have hformat : vectorFormat name = chars name ++ [.g, .char 58, .g, .char 58, .g] := by
    have hcolon : chars ":" = [.char 58] := rfl
    simp [vectorFormat, hcolon]
  unfold scanVector vectorOf
  rw [hformat, sscanf_chars]
  cases (CString.literal name).isPrefixOf? buff with
  | none => rfl
  | some text =>
      simp only [Option.elim_some, Option.bind_some, threeNumbers]
      -- the scan stops where a number or a colon is missing
      obtain hx | ⟨x, hx⟩ := (sc.float text).eq_none_or_eq_some
      · simp [hx]
      obtain hc | ⟨text₂, hc⟩ := (colon x.2).eq_none_or_eq_some
      · simp [hx, hc]
      obtain hy | ⟨y, hy⟩ := (sc.float text₂).eq_none_or_eq_some
      · simp [hx, hc, hy]
      obtain hd | ⟨text₃, hd⟩ := (colon y.2).eq_none_or_eq_some
      · simp [hx, hc, hy, hd]
      obtain hz | ⟨z, hz⟩ := (sc.float text₃).eq_none_or_eq_some <;>
        simp [hx, hc, hy, hd, hz, param]

theorem scanScalar_eq (name : String) :
    scanScalar sc name i 1 buff = scalarOf sc name i buff := by
  unfold scanScalar scalarOf scalarFormat
  rw [sscanf_chars]
  cases (CString.literal name).isPrefixOf? buff with
  | none => rfl
  | some text =>
      dsimp only [Option.elim_some, Option.bind_some]
      rw [sscanf_g]
      cases sc.float text <;> rfl

theorem scanSync_eq : scanSync sc buff = syncOf sc buff := by
  unfold scanSync syncOf syncFormat
  rw [sscanf_chars]
  cases (CString.literal "sync:").isPrefixOf? buff with
  | none => rfl
  | some text =>
      simp only [Option.elim_some, Option.bind_some, sscanf]
      cases sc.integer text <;> rfl

def Directive.converts : Directive → Bool
  | .char _ => false
  | .g | .lld => true

theorem sscanf_length_le (format : List Directive) (text : List UInt8) :
    (sscanf sc format text).length ≤ format.countP Directive.converts := by
  induction format generalizing text with
  | nil => exact Nat.le_of_eq rfl
  | cons d format ih =>
      cases d with
      | char c => grind [sscanf]
      | g =>
          rw [List.countP_cons_of_pos (by rfl), sscanf]
          grind
      | lld =>
          rw [List.countP_cons_of_pos (by rfl), sscanf]
          split
          · exact Nat.succ_le_succ (ih _)
          · exact Nat.zero_le _

/-- One conversion never counts as two. -/
theorem scanScalar_two (name : String) : scanScalar sc name i 2 buff = none := by
  have hchars : (chars name).countP Directive.converts = 0 := by
    rw [chars, List.countP_map]
    exact List.countP_eq_zero.mpr fun _ _ => Bool.false_ne_true
  have hone : (scalarFormat name).countP Directive.converts = 1 := by
    rw [scalarFormat, List.countP_append, hchars]
    rfl
  have hle : (sscanf sc (scalarFormat name) buff).length ≤
      (scalarFormat name).countP Directive.converts := sscanf_length_le _ _
  refine if_neg ?_
  omega

/-- The texts that the emulator sends have these meanings. -/
theorem messageOf_cases (sc : Scan F) (buff : List UInt8) :
    buff = CString.literal "wake" ∨ messageOf sc buff = .unknown ∨
    (∃ time, messageOf sc buff = .sync time) ∨
    (∃ i x y z, i ≠ idTemperature ∧ i ≠ idProximity ∧ messageOf sc buff = .vector i x y z) ∨
    (∃ i x, (i = idTemperature ∨ i = idProximity) ∧ messageOf sc buff = .scalar i x) := by
  unfold messageOf
  split
  · grind
  · refine .inr ?_
    cases ha : vectorOf sc "acceleration:" idAcceleration buff with
    | some m =>
        obtain ⟨v, -, rfl⟩ := Option.map_eq_some_iff.mp ha
        exact .inr (.inr (.inl ⟨_, _, _, _, by decide, by decide, rfl⟩))
    | none =>
    cases ho : vectorOf sc "orientation:" idOrientation buff with
    | some m =>
        obtain ⟨v, -, rfl⟩ := Option.map_eq_some_iff.mp ho
        exact .inr (.inr (.inl ⟨_, _, _, _, by decide, by decide, rfl⟩))
    | none =>
    cases hm : vectorOf sc "magnetic-field:" idMagneticField buff with
    | some m =>
        obtain ⟨v, -, rfl⟩ := Option.map_eq_some_iff.mp hm
        exact .inr (.inr (.inl ⟨_, _, _, _, by decide, by decide, rfl⟩))
    | none =>
    cases ht : scalarOf sc "temperature:" idTemperature buff with
    | some m =>
        obtain ⟨r, -, rfl⟩ := Option.map_eq_some_iff.mp ht
        exact .inr (.inr (.inr ⟨_, _, .inl rfl, rfl⟩))
    | none =>
    cases hp : scalarOf sc "proximity:" idProximity buff with
    | some m =>
        obtain ⟨r, -, rfl⟩ := Option.map_eq_some_iff.mp hp
        exact .inr (.inr (.inr ⟨_, _, .inr rfl, rfl⟩))
    | none =>
    cases hs : syncOf sc buff with
    | some m =>
        obtain ⟨r, -, rfl⟩ := Option.map_eq_some_iff.mp hs
        exact .inr (.inl ⟨_, rfl⟩)
    | none => exact .inl rfl

/-- The device understands a text as it is meant, if it is no wake and no temperature. -/
theorem readMessage_eq (htag : data.tag = CString.literal "TDWH")
    (hwake : buff ≠ CString.literal "wake")
    (htemperature : ∀ x, messageOf sc buff ≠ .scalar idTemperature x) :
    data.readMessage sc buff = messageOf sc buff := by
  have hdevice : data.tag ≠ CString.literal "wake" := by
    rw [htag]
    decide
  unfold SensorPoll.readMessage
  unfold messageOf at htemperature ⊢
  rw [if_neg hdevice, if_neg hwake, scanScalar_two]
  simp only [scanVector_eq, scanScalar_eq, scanSync_eq]
  rw [if_neg hwake] at htemperature
  cases ha : vectorOf sc "acceleration:" idAcceleration buff with
  | some m => rfl
  | none =>
  cases ho : vectorOf sc "orientation:" idOrientation buff with
  | some m => rfl
  | none =>
  cases hm : vectorOf sc "magnetic-field:" idMagneticField buff with
  | some m => rfl
  | none =>
  cases ht : scalarOf sc "temperature:" idTemperature buff with
  | some m =>
      obtain ⟨r, -, rfl⟩ := Option.map_eq_some_iff.mp ht
      grind
  | none => rfl

/-! ## Bits -/

theorem getLsbD_or_bit (b : BitVec 32) (i : SensorId) (k : Nat) :
    (b ||| SensorPoll.bit i).getLsbD k = (b.getLsbD k || decide (i.val = k)) := by
  have hi : i.val < 32 := Nat.lt_trans i.isLt (by decide)
  rw [BitVec.getLsbD_or, SensorPoll.bit, BitVec.getLsbD_twoPow]
  simp [hi]

theorem getLsbD_and_not_bit (b : BitVec 32) (i : SensorId) (k : Nat) :
    (b &&& ~~~SensorPoll.bit i).getLsbD k = (b.getLsbD k && !decide (i.val = k)) := by
  have hi : i.val < 32 := Nat.lt_trans i.isLt (by decide)
  rw [BitVec.getLsbD_and, BitVec.getLsbD_not, SensorPoll.bit, BitVec.getLsbD_twoPow]
  grind

def OnlySensors (b : BitVec 32) : Prop := ∀ k, 5 ≤ k → b.getLsbD k = false

theorem eq_zero_iff {b : BitVec 32} (h : OnlySensors b) :
    b = 0 ↔ ∀ i : SensorId, b.getLsbD i = false := by
  constructor
  · grind
  · intro hbits
    refine BitVec.eq_of_getLsbD_eq fun k hk => Eq.trans ?_ BitVec.getLsbD_zero.symm
    by_cases hfive : k < 5
    · exact hbits ⟨k, hfive⟩
    · exact h k (Nat.le_of_not_lt hfive)

/-! ## Pending sensors -/

namespace SensorPoll

def pendingEvent (data : SensorPoll F) (i : SensorId) : Option (SensorsEvent F) :=
  if data.pendingSensors.getLsbD i then some { data.sensors i with sensor := i } else none

def pendingFrom (is : List SensorId) (data : SensorPoll F) : List (SensorsEvent F) :=
  is.filterMap data.pendingEvent

/-- The events that the next calls return without waiting. -/
def pendingEvents (data : SensorPoll F) : List (SensorsEvent F) :=
  pendingFrom supportedSensors data

def clear (data : SensorPoll F) (i : SensorId) : SensorPoll F :=
  { data with pendingSensors := data.pendingSensors &&& ~~~bit i }

theorem getLsbD_clear (k : Nat) : (data.clear i).pendingSensors.getLsbD k =
    (data.pendingSensors.getLsbD k && !decide (i.val = k)) :=
  getLsbD_and_not_bit _ i k

theorem pendingEvent_of_set (h : data.pendingSensors.getLsbD i = true) :
    data.pendingEvent i = some { data.sensors i with sensor := i } :=
  if_pos h

theorem pendingEvent_of_clear (h : data.pendingSensors.getLsbD i = false) :
    data.pendingEvent i = none :=
  if_neg (by rw [h]; exact Bool.false_ne_true)

theorem pendingFrom_clear_of_notMem {is : List SensorId} (h : i ∉ is) :
    pendingFrom is (data.clear i) = pendingFrom is data := by
  refine List.filterMap_congr fun j hj => ?_
  have hne : decide (i.val = j.val) = false :=
    decide_eq_false fun heq => h (Fin.ext heq ▸ hj)
  have hbit : (data.clear i).pendingSensors.getLsbD j = data.pendingSensors.getLsbD j := by
    rw [getLsbD_clear, hne, Bool.not_false, Bool.and_true]
  rw [pendingEvent, pendingEvent, hbit]
  rfl

theorem pendingFrom_cons_of_set {is : List SensorId}
    (h : data.pendingSensors.getLsbD i = true) : pendingFrom (i :: is) data =
      { data.sensors i with sensor := i } :: pendingFrom is data :=
  List.filterMap_cons_some (pendingEvent_of_set h)

theorem pendingFrom_cons_of_clear {is : List SensorId}
    (h : data.pendingSensors.getLsbD i = false) :
    pendingFrom (i :: is) data = pendingFrom is data :=
  List.filterMap_cons_none (pendingEvent_of_clear h)

/-- The pick takes the first pending event and leaves the others. -/
theorem pickFrom_eq {is : List SensorId} (hnodup : is.Nodup) {ev : SensorsEvent F}
    {evs : List (SensorsEvent F)} (h : pendingFrom is data = ev :: evs) :
    pickFrom is data = (((ev.sensor.val : Int), some ev), data.clear ev.sensor) ∧
      pendingFrom is (data.clear ev.sensor) = evs := by
  induction is with
  | nil => cases h
  | cons i is ih =>
      obtain ⟨hi, his⟩ := List.nodup_cons.mp hnodup
      cases hbit : data.pendingSensors.getLsbD i with
      | true =>
          rw [pendingFrom_cons_of_set hbit] at h
          obtain ⟨rfl, rfl⟩ := List.cons.inj h
          refine ⟨if_pos hbit, ?_⟩
          have hclear : (data.clear i).pendingSensors.getLsbD i = false := by
            rw [getLsbD_clear, decide_eq_true rfl, Bool.not_true, Bool.and_false]
          exact (pendingFrom_cons_of_clear hclear).trans (pendingFrom_clear_of_notMem hi)
      | false =>
          rw [pendingFrom_cons_of_clear hbit] at h
          obtain ⟨hpick, hrest⟩ := ih his h
          have hclear : (data.clear ev.sensor).pendingSensors.getLsbD i = false := by
            rw [getLsbD_clear, hbit, Bool.false_and]
          refine ⟨?_, (pendingFrom_cons_of_clear hclear).trans hrest⟩
          rw [← hpick]
          exact if_neg (by rw [hbit]; exact Bool.false_ne_true)

@[simp] theorem setSensor_self (ev : SensorsEvent F) : (data.setSensor i ev).sensors i = ev :=
  if_pos rfl

theorem setSensor_of_ne {j : SensorId} (h : j ≠ i) (ev : SensorsEvent F) :
    (data.setSensor i ev).sensors j = data.sensors j :=
  if_neg h

theorem supportedSensors_nodup : supportedSensors.Nodup := by decide

theorem mem_supportedSensors (i : SensorId) : i ∈ supportedSensors := by
  revert i
  decide

theorem pickSensor_eq {ev : SensorsEvent F} {evs : List (SensorsEvent F)}
    (h : data.pendingEvents = ev :: evs) :
    data.pickSensor = (((ev.sensor.val : Int), some ev), data.clear ev.sensor) ∧
      (data.clear ev.sensor).pendingEvents = evs :=
  pickFrom_eq supportedSensors_nodup h

theorem pendingEvents_eq_nil_iff (h : OnlySensors data.pendingSensors) :
    data.pendingEvents = [] ↔ data.pendingSensors = 0 := by
  rw [eq_zero_iff h, pendingEvents, pendingFrom, List.filterMap_eq_nil_iff]
  constructor
  · intro hnone i
    have hi := hnone i (mem_supportedSensors i)
    grind [pendingEvent_of_set]
  · exact fun hbits i _ => pendingEvent_of_clear (hbits i)

end SensorPoll

/-! ## The device and the ledger -/

/-- What the device has of the time and of the numbers that no reading sets. -/
structure Kept (sc : Scan F) (l : Ledger F) (data : SensorPoll F) : Prop where
  tag : data.tag = CString.literal "TDWH"
  rest : ∀ i, i = idTemperature ∨ i = idProximity → (data.sensors i).data.2 = (sc.zero, sc.zero)
  start : l.offset = none ↔ data.timeStart = 0
  offset : ∀ t, l.offset = some t → data.timeOffset = t

/-- While the device waits, the new sensors are those with a reading since the last sync. -/
structure Gathered (sc : Scan F) (l : Ledger F) (data : SensorPoll F) (new : BitVec 32) : Prop
    extends Kept sc l data where
  only : OnlySensors new
  reported : ∀ i, (lastReading l.since i).isSome = new.getLsbD i
  last : ∀ i r, lastReading l.since i = some r → (data.sensors i).data = r.data

/-- Between two waits there are no readings yet. -/
structure Settled (sc : Scan F) (l : Ledger F) (data : SensorPoll F) : Prop
    extends Kept sc l data where
  only : OnlySensors data.pendingSensors
  since : l.since = []

variable {l : Ledger F} {new : BitVec 32}

theorem lastReading_read (l : Ledger F) (r : Reading F) (i : SensorId) :
    lastReading (l.read r).since i = if r.sensor = i then some r else lastReading l.since i := by
  rw [Ledger.read, lastReading, List.reverse_append, List.reverse_singleton,
    List.singleton_append, List.find?_cons]
  by_cases h : r.sensor = i
  · grind
  · rw [decide_eq_false h, if_neg h]
    rfl

/-- A reading: the device stores what the ledger reads. -/
theorem Gathered.store (h : Gathered sc l data new) {values : F × F × F}
    (hrest : i = idTemperature ∨ i = idProximity → values.2 = (sc.zero, sc.zero)) :
    Gathered sc (l.read { sensor := i, data := values })
      (data.setSensor i { data.sensors i with data := values }) (new ||| SensorPoll.bit i) := by
  constructor
  case toKept =>
    refine ⟨h.tag, fun j hj => ?_, h.start, h.offset⟩
    by_cases hij : j = i
    · grind [SensorPoll.setSensor_self]
    · rw [SensorPoll.setSensor_of_ne hij]
      exact h.rest j hj
  case only =>
    intro k hk
    have hne : decide (i.val = k) = false := decide_eq_false (by have := i.isLt; omega)
    rw [getLsbD_or_bit, h.only k hk, hne]
    rfl
  case reported =>
    intro j
    rw [lastReading_read, getLsbD_or_bit, ← h.reported j]
    by_cases hij : i = j
    · simp [hij]
    · grind
  case last =>
    intro j r hr
    rw [lastReading_read] at hr
    by_cases hij : i = j
    · subst hij
      rw [if_pos rfl] at hr
      rw [SensorPoll.setSensor_self, ← Option.some.inj hr]
    · grind [SensorPoll.setSensor_of_ne, h.last]

theorem Gathered.new_eq_zero_iff (h : Gathered sc l data new) : new = 0 ↔ l.since = [] := by
  rw [eq_zero_iff h.only]
  constructor
  · intro hbits
    cases hlast : l.since.reverse with
    | nil => exact List.reverse_eq_nil_iff.mp hlast
    | cons r rs =>
        have hsome : (lastReading l.since r.sensor).isSome = true := by grind [lastReading]
        grind [h.reported]
  · intro hnil i
    rw [← h.reported i, hnil]
    rfl

namespace SensorPoll

variable {time now : Int64}

@[simp] theorem sync_pendingSensors : (data.sync new time now).pendingSensors = new := by
  unfold sync
  dsimp only
  split <;> rfl

@[simp] theorem sync_tag : (data.sync new time now).tag = data.tag := by
  unfold sync
  dsimp only
  split <;> rfl

theorem sync_timeOffset : (data.sync new time now).timeOffset =
    if data.timeStart = 0 then now - time * 1000 else data.timeOffset := by
  unfold sync
  dsimp only
  split <;> rfl

theorem sync_timeStart (hnow : now ≠ 0) : (data.sync new time now).timeStart ≠ 0 := by
  unfold sync
  grind

@[simp] theorem sync_data (i : SensorId) :
    ((data.sync new time now).sensors i).data = (data.sensors i).data := by
  unfold sync
  dsimp only
  split <;> split <;> rfl

theorem sync_pendingEvent (i : SensorId) : (data.sync new time now).pendingEvent i =
    if new.getLsbD i then
      some { sensor := i, timestamp := time * 1000 + (data.sync new time now).timeOffset,
             data := (data.sensors i).data }
    else none := by
  rw [pendingEvent, sync_pendingSensors]
  grind [sync]

end SensorPoll

/-- A sync: what the ledger delivers is pending. -/
theorem Gathered.sync (h : Gathered sc l data new) (time : Int64) {now : Int64} (hnow : now ≠ 0) :
    Settled sc (l.next sc now (.sync time)).1 (data.sync new time now) ∧
      (data.sync new time now).pendingEvents = (l.next sc now (.sync time)).2 := by
  have hoffset : (data.sync new time now).timeOffset = l.offset.getD (now - time * 1000) := by
    rw [SensorPoll.sync_timeOffset]
    cases hl : l.offset with
    | none => exact if_pos (h.start.mp hl)
    | some t => grind [h.start, h.offset]
  refine ⟨?_, ?_⟩
  · constructor
    case toKept =>
      refine ⟨SensorPoll.sync_tag.trans h.tag, fun i hi => ?_, ?_, fun t ht => ?_⟩
      · rw [SensorPoll.sync_data]
        exact h.rest i hi
      · grind [SensorPoll.sync_timeStart, Ledger.next]
      · exact hoffset.trans (Option.some.inj ht)
    case only =>
      rw [SensorPoll.sync_pendingSensors]
      exact h.only
    case since => rfl
  · rw [SensorPoll.pendingEvents, SensorPoll.pendingFrom, Ledger.next, eventsAt]
    dsimp only
    refine List.filterMap_congr fun i _ => ?_
    rw [SensorPoll.sync_pendingEvent, hoffset, ← h.reported i]
    cases hr : lastReading l.since i with
    | none => rfl
    | some r =>
        rw [h.last i r hr]
        rfl

/-! ## Calls -/

section Loop

variable {bytes : List UInt8} {now : Int64} {ms : List Recv}

theorem waitEvent_unknown (h : data.readMessage sc (cstr bytes) = .unknown) :
    data.waitEvent sc new (.message bytes now :: ms) = data.waitEvent sc new ms := by
  rw [cstr] at h
  rw [SensorPoll.waitEvent, h]

theorem waitEvent_vector {x y z : F} (h : data.readMessage sc (cstr bytes) = .vector i x y z) :
    data.waitEvent sc new (.message bytes now :: ms) =
      (data.storeVector i x y z).waitEvent sc (new ||| SensorPoll.bit i) ms := by
  rw [cstr] at h
  rw [SensorPoll.waitEvent, h]

theorem waitEvent_scalar {x : F} (h : data.readMessage sc (cstr bytes) = .scalar i x) :
    data.waitEvent sc new (.message bytes now :: ms) =
      (data.storeScalar i x).waitEvent sc (new ||| SensorPoll.bit i) ms := by
  rw [cstr] at h
  rw [SensorPoll.waitEvent, h]

theorem waitEvent_sync {time : Int64} (new : BitVec 32) (now : Int64) (ms : List Recv)
    (h : data.readMessage sc (cstr bytes) = .sync time) :
    data.waitEvent sc new (.message bytes now :: ms) =
      if new = 0 then data.waitEvent sc new ms
      else some ((data.sync new time now).pickSensor.1,
        (data.sync new time now).pickSensor.2, ms) := by
  rw [cstr] at h
  rw [SensorPoll.waitEvent, h]

end Loop

theorem receive_eq {bytes : List UInt8} {message : Message F} (now : Int64)
    (h : messageOf sc (cstr bytes) = message) :
    l.receive sc (.message bytes now) = l.next sc now message := by
  rw [Ledger.receive, h]

/-- A message that completes no event. -/
theorem Ledger.run_cons_of_nil {m : Recv} {l' : Ledger F} (h : l.receive sc m = (l', []))
    (ms : List Recv) : l.run sc (m :: ms) = l'.run sc ms := by
  rw [run, h]
  rfl

/-- What a wait for the next event comes to. -/
structure Waited (sc : Scan F) (l : Ledger F) (ms : List Recv)
    (r : (Int × Option (SensorsEvent F)) × SensorPoll F × List Recv) (received : List Recv)
    (ev : SensorsEvent F) : Prop where
  split : ms = received ++ r.2.2
  event : r.1 = ((ev.sensor.val : Int), some ev)
  settled : Settled sc (l.run sc received).1 r.2.1
  events : (l.run sc received).2 = ev :: r.2.1.pendingEvents

theorem Settled.clear (h : Settled sc l data) (i : SensorId) : Settled sc l (data.clear i) where
  tag := h.tag
  rest := h.rest
  start := h.start
  offset := h.offset
  only k hk := by rw [SensorPoll.getLsbD_clear, h.only k hk, Bool.false_and]
  since := h.since

/-- The device waits until a sync completes an event, and forever if there is none. -/
theorem waitEvent_spec {ms : List Recv} (h : Gathered sc l data new)
    (hms : OrdinaryRun sc l ms) :
    (data.waitEvent sc new ms = none → (l.run sc ms).2 = []) ∧
      ∀ r, data.waitEvent sc new ms = some r → ∃ received ev, Waited sc l ms r received ev := by
  induction ms generalizing l data new with
  | nil =>
      refine ⟨fun _ => rfl, fun r hr => ?_⟩
      cases hr
  | cons m ms ih =>
      obtain ⟨hm, hrest⟩ := hms
      -- a message that completes no event leaves the rest to the induction hypothesis
      have hskip : ∀ {l' : Ledger F} {data' : SensorPoll F} {new' : BitVec 32},
          l.receive sc m = (l', []) →
          data.waitEvent sc new (m :: ms) = data'.waitEvent sc new' ms →
          Gathered sc l' data' new' →
          (data.waitEvent sc new (m :: ms) = none → (l.run sc (m :: ms)).2 = []) ∧
            ∀ r, data.waitEvent sc new (m :: ms) = some r →
              ∃ received ev, Waited sc l (m :: ms) r received ev := by
        intro l' data' new' hreceive hwait hgathered
        rw [hreceive] at hrest
        obtain ⟨hnone, hsome⟩ := ih hgathered hrest
        rw [hwait, Ledger.run_cons_of_nil hreceive]
        refine ⟨hnone, fun r hr => ?_⟩
        obtain ⟨received, ev, hsplit, hevent, hsettled, hevents⟩ := hsome r hr
        refine ⟨m :: received, ev, ?_, hevent, ?_, ?_⟩
        · rw [hsplit, List.cons_append]
        · rw [Ledger.run_cons_of_nil hreceive]
          exact hsettled
        · rw [Ledger.run_cons_of_nil hreceive]
          exact hevents
      cases m with
      | error errno => exact absurd hm id
      | message bytes now =>
      obtain ⟨hnow, htemperature, hwake, hfirst⟩ := hm
      have hread : data.readMessage sc (cstr bytes) = messageOf sc (cstr bytes) :=
        readMessage_eq h.tag hwake htemperature
      obtain hmessage | hmessage | ⟨time, hmessage⟩ | ⟨i, x, y, z, ht, hp, hmessage⟩ |
        ⟨i, x, hi, hmessage⟩ := messageOf_cases sc (cstr bytes)
      · exact absurd hmessage hwake
      · exact hskip (receive_eq now hmessage) (waitEvent_unknown (hread.trans hmessage)) h
      · have hwait := waitEvent_sync new now ms (hread.trans hmessage)
        have hreceive := receive_eq (l := l) now hmessage
        by_cases hsince : l.since = []
        · obtain ⟨offset, hoffset⟩ := Option.ne_none_iff_exists'.mp (hfirst time hmessage hsince)
          have hempty : l.next sc now (.sync time) = (l, []) := by
            obtain ⟨_, _⟩ := l
            cases hsince
            cases hoffset
            rfl
          grind [h.new_eq_zero_iff]
        · have hnew : new ≠ 0 := fun hzero => hsince (h.new_eq_zero_iff.mp hzero)
          obtain ⟨hsettled, hevents⟩ := h.sync time hnow
          have hpending : (data.sync new time now).pendingEvents ≠ [] := fun hnil => by
            rw [SensorPoll.pendingEvents_eq_nil_iff hsettled.only,
              SensorPoll.sync_pendingSensors] at hnil
            exact hnew hnil
          obtain ⟨ev, evs, hcons⟩ := List.exists_cons_of_ne_nil hpending
          obtain ⟨hpick, hleft⟩ := SensorPoll.pickSensor_eq hcons
          rw [if_neg hnew, hpick] at hwait
          have hrun : l.run sc [.message bytes now] =
              ((l.next sc now (.sync time)).1, ev :: evs) := by
            rw [Ledger.run, Ledger.run, hreceive, ← hevents, hcons, List.append_nil]
          refine ⟨fun hnone => ?_, fun r hr => ⟨[.message bytes now], ev, ?_⟩⟩
          · rw [hwait] at hnone
            cases hnone
          · rw [hwait] at hr
            obtain rfl := Option.some.inj hr
            refine ⟨rfl, rfl, ?_, ?_⟩
            · simp [hsettled.clear, hrun]
            · rw [hrun, hleft]
      · refine hskip (receive_eq now hmessage) (waitEvent_vector (hread.trans hmessage)) ?_
        exact h.store fun hi => hi.elim (fun heq => absurd heq ht) fun heq => absurd heq hp
      · have hproximity : i = idProximity := by
          refine hi.resolve_left fun heq => htemperature x ?_
          rw [hmessage, heq]
        refine hskip (receive_eq now hmessage) (waitEvent_scalar (hread.trans hmessage)) ?_
        rw [SensorPoll.storeScalar, h.rest i hi]
        exact h.store fun _ => rfl

/-- Some calls: the events that were pending and those of the received messages are the events
that were returned and those that are pending still. -/
structure Polled (sc : Scan F) (l : Ledger F) (data : SensorPoll F) (ms : List Recv)
    (events : List (SensorsEvent F)) (data' : SensorPoll F) (rest received : List Recv) : Prop where
  split : ms = received ++ rest
  settled : Settled sc (l.run sc received).1 data'
  delivered : data.pendingEvents ++ (l.run sc received).2 = events ++ data'.pendingEvents

variable {data' data'' : SensorPoll F} {ms rest rest' received received' : List Recv}
  {events events' : List (SensorsEvent F)}

theorem Polled.refl (h : Settled sc l data) (ms : List Recv) :
    Polled sc l data ms [] data ms [] where
  split := rfl
  settled := h
  delivered := List.append_nil _

theorem Polled.trans (h : Polled sc l data ms events data' rest received)
    (h' : Polled sc (l.run sc received).1 data' rest events' data'' rest' received') :
    Polled sc l data ms (events ++ events') data'' rest' (received ++ received') where
  split := by rw [h.split, h'.split, List.append_assoc]
  settled := by
    rw [Ledger.run_append]
    exact h'.settled
  delivered := by
    rw [Ledger.run_append, ← List.append_assoc, h.delivered, List.append_assoc, h'.delivered,
      List.append_assoc]

theorem Polled.ordinary (h : Polled sc l data ms events data' rest received)
    (hms : OrdinaryRun sc l ms) : OrdinaryRun sc (l.run sc received).1 rest :=
  (h.split ▸ hms).of_append

theorem Settled.gathered (h : Settled sc l data) : Gathered sc l data 0 where
  toKept := h.toKept
  only _ _ := BitVec.getLsbD_zero
  reported i := by
    rw [h.since]
    exact BitVec.getLsbD_zero.symm
  last i r hr := by
    rw [h.since] at hr
    cases hr

/-- A call of `data__poll` gives one event, a pending one first. -/
theorem dataPoll_spec (h : Settled sc l data) (hms : OrdinaryRun sc l ms) :
    (data.dataPoll sc ms = none → data.pendingEvents = [] ∧ (l.run sc ms).2 = []) ∧
      ∀ r, data.dataPoll sc ms = some r → ∃ received ev,
        r.1 = ((ev.sensor.val : Int), some ev) ∧ Polled sc l data ms [ev] r.2.1 r.2.2 received := by
  by_cases hzero : data.pendingSensors = 0
  · have hpoll : data.dataPoll sc ms = data.waitEvent sc 0 ms := if_neg (fun hne => hne hzero)
    have hnil : data.pendingEvents = [] :=
      (SensorPoll.pendingEvents_eq_nil_iff h.only).mpr hzero
    obtain ⟨hnone, hsome⟩ := waitEvent_spec h.gathered hms
    rw [hpoll]
    refine ⟨fun hwait => ⟨hnil, hnone hwait⟩, fun r hr => ?_⟩
    obtain ⟨received, ev, hsplit, hevent, hsettled, hevents⟩ := hsome r hr
    refine ⟨received, ev, hevent, hsplit, hsettled, ?_⟩
    rw [hnil, hevents]
    rfl
  · have hpoll : data.dataPoll sc ms = some (data.pickSensor.1, data.pickSensor.2, ms) :=
      if_pos hzero
    have hpending : data.pendingEvents ≠ [] := fun hnil =>
      hzero ((SensorPoll.pendingEvents_eq_nil_iff h.only).mp hnil)
    obtain ⟨ev, evs, hcons⟩ := List.exists_cons_of_ne_nil hpending
    obtain ⟨hpick, hleft⟩ := SensorPoll.pickSensor_eq hcons
    rw [hpoll, hpick]
    refine ⟨fun hnone => ?_, fun r hr => ⟨[], ev, ?_⟩⟩
    · cases hnone
    · obtain rfl := Option.some.inj hr
      refine ⟨rfl, rfl, h.clear ev.sensor, ?_⟩
      rw [hcons, hleft]
      exact List.append_nil _

/-- A call that waits forever has no event to return. -/
theorem poll_spec (count : Nat) (h : Settled sc l data) (hms : OrdinaryRun sc l ms) :
    (data.poll sc count ms = none → data.pendingEvents = [] ∧ (l.run sc ms).2 = []) ∧
      ∀ r, data.poll sc count ms = some r →
        ∃ received, Polled sc l data ms r.1 r.2.1 r.2.2 received := by
  induction count generalizing l data ms with
  | zero =>
      refine ⟨fun hnone => ?_, fun r hr => ⟨[], ?_⟩⟩
      · cases hnone
      · obtain rfl := Option.some.inj hr
        exact .refl h ms
  | succ count ih =>
      obtain ⟨hnone, hsome⟩ := dataPoll_spec h hms
      rw [SensorPoll.poll]
      cases hpoll : data.dataPoll sc ms with
      | none => grind
      | some p =>
          obtain ⟨received, ev, hevent, hpolled⟩ := hsome p hpoll
          have hret : ¬ (5 < p.1.1 ∨ p.1.1 < 0) := by grind
          rw [Option.bind_some, if_neg hret]
          by_cases hzero : p.2.1.pendingSensors = 0
          · grind
          · rw [if_neg hzero]
            obtain ⟨hnone', hsome'⟩ := ih hpolled.settled (hpolled.ordinary hms)
            cases hcall : p.2.1.poll sc count p.2.2 with
            | none =>
                have hnil := (hnone' hcall).1
                rw [SensorPoll.pendingEvents_eq_nil_iff hpolled.settled.only] at hnil
                exact absurd hnil hzero
            | some q =>
                obtain ⟨received', hpolled'⟩ := hsome' q hcall
                refine ⟨fun hmap => ?_, fun r hr => ⟨received ++ received', ?_⟩⟩
                · cases hmap
                · obtain rfl := Option.some.inj hr
                  rw [hevent]
                  exact hpolled.trans hpolled'

theorem polls_spec {counts : List Nat} (h : Settled sc l data) (hms : OrdinaryRun sc l ms)
    {calls : List (List (SensorsEvent F))}
    (hpolls : data.polls sc counts ms = some (calls, data', rest)) :
    ∃ received, Polled sc l data ms calls.flatten data' rest received := by
  induction counts generalizing l data ms calls with
  | nil =>
      obtain ⟨rfl, rfl, rfl⟩ : calls = [] ∧ data' = data ∧ rest = ms := by
        simpa [SensorPoll.polls, eq_comm] using hpolls
      exact ⟨[], .refl h _⟩
  | cons count counts ih =>
      rw [SensorPoll.polls] at hpolls
      obtain ⟨p, hpoll, hrest⟩ := Option.bind_eq_some_iff.mp hpolls
      obtain ⟨q, hq, heq⟩ := Option.map_eq_some_iff.mp hrest
      obtain ⟨received, hpolled⟩ := (poll_spec count h hms).2 p hpoll
      obtain ⟨calls', data₁, rest₁⟩ := q
      obtain ⟨rfl, rfl, rfl⟩ : p.1 :: calls' = calls ∧ data₁ = data' ∧ rest₁ = rest := by
        simpa using heq
      obtain ⟨received', hpolled'⟩ := ih hpolled.settled (hpolled.ordinary hms) hq
      exact ⟨received ++ received', hpolled.trans hpolled'⟩

theorem dataOpen_settled (sc : Scan F) : Settled sc {} (SensorPoll.dataOpen sc) where
  tag := rfl
  rest _ _ := rfl
  start := ⟨fun _ => rfl, fun _ => rfl⟩
  offset _ h := by cases h
  only _ _ := BitVec.getLsbD_zero
  since := rfl

theorem threeNumbers_printed {x y z : F} {tx ty tz : List UInt8} (hx : Numeral sc.float tx x)
    (hy : Numeral sc.float ty y) (hz : Numeral sc.float tz z) :
    threeNumbers sc (tx ++ 58 :: (ty ++ 58 :: tz)) = some (x, y, z) := by
  simp [threeNumbers, colon, hx.colon, hy.colon, hz.last]

/-- A text without NUL is the text in the buffer. -/
theorem cstr_append {name text : List UInt8} (hname : 0 ∉ name) (htext : 0 ∉ text) :
    cstr (name ++ text) = name ++ text := by
  refine List.takeWhile_eq_self_iff.mpr fun c hc => decide_eq_true fun hzero => ?_
  rcases List.mem_append.mp hc with hmem | hmem
  · exact hname (hzero ▸ hmem)
  · exact htext (hzero ▸ hmem)

theorem append_ne_wake {name : List UInt8} (hnil : name ≠ []) (hhead : name.head? ≠ some 119)
    (text : List UInt8) : name ++ text ≠ CString.literal "wake" := by
  intro heq
  rw [← List.head?_append_of_ne_nil name hnil, heq] at hhead
  exact hhead rfl

/-- What the emulator prints is what the ledger takes it for. -/
theorem messageOf_printed {text : List UInt8} {m : Message F} (h : Printed sc text m) :
    messageOf sc (cstr text) = m := by
  -- the names differ in their first letters, so only its own name is a prefix of a text
  cases h with
  | @vector name i x y z tx ty tz hname hx hy hz =>
      have hnoNul : 0 ∉ tx ++ 58 :: (ty ++ 58 :: tz) := by
        simp [hx.noNul, hy.noNul, hz.noNul]
      have hnumbers := threeNumbers_printed hx hy hz
      generalize tx ++ 58 :: (ty ++ 58 :: tz) = numbers at hnoNul hnumbers ⊢
      simp only [List.mem_cons, Prod.mk.injEq, List.not_mem_nil, or_false] at hname
      rcases hname with ⟨rfl, rfl⟩ | ⟨rfl, rfl⟩ | ⟨rfl, rfl⟩ <;>
        rw [cstr_append (by decide) hnoNul, messageOf,
          if_neg (append_ne_wake (by decide) (by decide) _)]
      · have ha : vectorOf sc "acceleration:" idAcceleration
            (CString.literal "acceleration:" ++ numbers) =
              (threeNumbers sc numbers).map fun v => .vector idAcceleration v.1 v.2.1 v.2.2 := rfl
        rw [ha, hnumbers]
        rfl
      · have ha : vectorOf sc "acceleration:" idAcceleration
            (CString.literal "orientation:" ++ numbers) = none := rfl
        have ho : vectorOf sc "orientation:" idOrientation
            (CString.literal "orientation:" ++ numbers) =
              (threeNumbers sc numbers).map fun v => .vector idOrientation v.1 v.2.1 v.2.2 := rfl
        rw [ha, ho, hnumbers]
        rfl
      · have ha : vectorOf sc "acceleration:" idAcceleration
            (CString.literal "magnetic-field:" ++ numbers) = none := rfl
        have ho : vectorOf sc "orientation:" idOrientation
            (CString.literal "magnetic-field:" ++ numbers) = none := rfl
        have hm : vectorOf sc "magnetic-field:" idMagneticField
            (CString.literal "magnetic-field:" ++ numbers) =
              (threeNumbers sc numbers).map fun v => .vector idMagneticField v.1 v.2.1 v.2.2 := rfl
        rw [ha, ho, hm, hnumbers]
        rfl
  | @scalar name i x tx hname hx =>
      simp only [List.mem_cons, Prod.mk.injEq, List.not_mem_nil, or_false] at hname
      rcases hname with ⟨rfl, rfl⟩ | ⟨rfl, rfl⟩ <;>
        rw [cstr_append (by decide) hx.noNul, messageOf,
          if_neg (append_ne_wake (by decide) (by decide) _)]
      · have ht : scalarOf sc "temperature:" idTemperature (CString.literal "temperature:" ++ tx) =
            (sc.float tx).map fun r => .scalar idTemperature r.1 := rfl
        rw [ht, hx.last]
        rfl
      · have ht : scalarOf sc "temperature:" idTemperature (CString.literal "proximity:" ++ tx) =
            none := rfl
        have hp : scalarOf sc "proximity:" idProximity (CString.literal "proximity:" ++ tx) =
            (sc.float tx).map fun r => .scalar idProximity r.1 := rfl
        rw [ht, hp, hx.last]
        rfl
  | @sync time ttime htime =>
      rw [cstr_append (by decide) htime.noNul, messageOf,
        if_neg (append_ne_wake (by decide) (by decide) _)]
      have hs : syncOf sc (CString.literal "sync:" ++ ttime) =
          (sc.integer ttime).map fun r => .sync r.1 := rfl
      rw [hs, htime.last]
      rfl
  | wake => rfl

/-- Every call returns the next events of the messages received so far, and a further call waits
forever only if there are none and the messages behind complete none. What the emulator prints
is what `expected` takes it for. -/
theorem polls_delivered (sc : Scan F) {counts : List Nat} {messages : List Recv}
    {calls : List (List (SensorsEvent F))} {data : SensorPoll F} {rest : List Recv}
    (hordinary : OrdinaryRun sc {} messages)
    (h : (SensorPoll.dataOpen sc).polls sc counts messages = some (calls, data, rest)) :
    (∃ received, messages = received ++ rest ∧
      calls.flatten ++ data.pendingEvents = expected sc received ∧
      ∀ count, data.poll sc count rest = none →
        data.pendingEvents = [] ∧ expected sc messages = expected sc received) ∧
      ∀ text m, Printed sc text m → messageOf sc (cstr text) = m := by
  refine ⟨?_, fun text m hprinted => messageOf_printed hprinted⟩
  obtain ⟨received, hpolled⟩ := polls_spec (dataOpen_settled sc) hordinary h
  have hopen : (SensorPoll.dataOpen sc).pendingEvents = [] :=
    (SensorPoll.pendingEvents_eq_nil_iff (dataOpen_settled sc).only).mpr rfl
  have hdelivered := hpolled.delivered
  rw [hopen, List.nil_append] at hdelivered
  refine ⟨received, hpolled.split, hdelivered.symm, fun count hwait => ?_⟩
  obtain ⟨hnil, hnone⟩ :=
    (poll_spec count hpolled.settled (hpolled.ordinary hordinary)).1 hwait
  refine ⟨hnil, ?_⟩
  rw [hpolled.split, expected, Ledger.run_append, hnone, List.append_nil]
  rfl

def scanDigits (text : List UInt8) : Option (Int × List UInt8) :=
  if (text.takeWhile CString.isdigit).isEmpty then none
  else some ((text.takeWhile CString.isdigit).foldl (fun n c => n * 10 + (c.toNat - 48)) 0,
    text.dropWhile CString.isdigit)

/-- Numbers without a sign and a fraction. -/
def wholeScan : Scan Int where
  zero := 0
  float := scanDigits
  integer text := (scanDigits text).map fun r => (Int64.ofInt r.1, r.2)

/-- A text that is received one nanosecond after the start of the clock. -/
def text (s : String) : Recv := .message (CString.literal s) 1

def accelerationTexts : List Recv := [text "acceleration:1:2:3", text "sync:5"]

theorem messageOf_acceleration : messageOf wholeScan (cstr (CString.literal "acceleration:1:2:3")) =
    .vector idAcceleration 1 2 3 := rfl

theorem messageOf_sync : messageOf wholeScan (cstr (CString.literal "sync:5")) = .sync 5 := rfl

theorem acceleration_ordinary (l : Ledger Int) :
    Ordinary wholeScan l (text "acceleration:1:2:3") := by
  refine ⟨by decide, fun x heq => ?_, by decide, fun time heq => ?_⟩ <;>
    grind [messageOf_acceleration]

/-- The sync finds the reading before it. -/
theorem sync_ordinary {l : Ledger Int} (h : l.since ≠ []) :
    Ordinary wholeScan l (text "sync:5") := by
  refine ⟨by decide, fun x heq => ?_, by decide, fun time heq hnil => absurd hnil h⟩
  grind [messageOf_sync]

theorem accelerationTexts_ordinary : OrdinaryRun wholeScan {} accelerationTexts :=
  ⟨acceleration_ordinary _, sync_ordinary (List.cons_ne_nil _ _), trivial⟩

def afterAcceleration : SensorPoll Int :=
  (((SensorPoll.dataOpen wholeScan).storeVector idAcceleration 1 2 3).sync
    (0 ||| SensorPoll.bit idAcceleration) 5 1).clear idAcceleration

theorem polls_delivered_acceleration :
    (∃ received, accelerationTexts = received ++ [] ∧
      [[{ sensor := 0, timestamp := 1, data := (1, 2, 3) }]].flatten ++
        afterAcceleration.pendingEvents = expected wholeScan received ∧
      ∀ count, afterAcceleration.poll wholeScan count [] = none →
        afterAcceleration.pendingEvents = [] ∧
          expected wholeScan accelerationTexts = expected wholeScan received) ∧
      ∀ text m, Printed wholeScan text m → messageOf wholeScan (cstr text) = m :=
  have h : (SensorPoll.dataOpen wholeScan).polls wholeScan [2] accelerationTexts =
      some ([[{ sensor := 0, timestamp := 1, data := (1, 2, 3) }]], afterAcceleration, []) := rfl
  polls_delivered wholeScan accelerationTexts_ordinary h

/-- A temperature is not delivered, a first sync without readings sets no offset, and a wake does
not end the call. -/
theorem temperature_lost :
    ((SensorPoll.dataOpen wholeScan).polls wholeScan [2]
      (text "temperature:20" :: accelerationTexts)).map (·.1) =
        some [[{ sensor := 0, timestamp := 1, data := (1, 2, 3) }]] ∧
    expected wholeScan (text "temperature:20" :: accelerationTexts) =
      [{ sensor := 3, timestamp := 1, data := (20, 0, 0) },
        { sensor := 0, timestamp := 1, data := (1, 2, 3) }] ∧
    ((SensorPoll.dataOpen wholeScan).polls wholeScan [1]
      [text "sync:5", text "acceleration:1:2:3", text "sync:10"]).map (·.1) =
        some [[{ sensor := 0, timestamp := 1, data := (1, 2, 3) }]] ∧
    expected wholeScan [text "sync:5", text "acceleration:1:2:3", text "sync:10"] =
      [{ sensor := 0, timestamp := 5001, data := (1, 2, 3) }] ∧
    ((SensorPoll.dataOpen wholeScan).poll wholeScan 1 [text "wake"]).isNone = true := by
  decide +kernel

end AndroidRenderer.Sensors
