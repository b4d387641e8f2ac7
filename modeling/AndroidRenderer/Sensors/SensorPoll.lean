import AndroidRenderer.Lib.CString

/-!
# The poll device of the emulated sensors

`data__poll` reads texts of the emulator up to a sync that ends a series of readings, and then
gives the pending sensors one by one, the highest first. `poll__poll` collects them. A call waits
for the next text where none is left; then it has no result.

What `sscanf` makes of the characters of a number is a parameter, with the type of a `float`.
-/

namespace AndroidRenderer.Sensors

/-- A sensor: acceleration, magnetic field, orientation, temperature, proximity. -/
abbrev SensorId := Fin 5

def idAcceleration : SensorId := 0
def idMagneticField : SensorId := 1
def idOrientation : SensorId := 2
def idTemperature : SensorId := 3
def idProximity : SensorId := 4

/-- The bits of `SUPPORTED_SENSORS` from the highest one on. -/
def supportedSensors : List SensorId := [4, 3, 2, 1, 0]

/-- `sensors_event_t`; `data` is the union of the readings, where a temperature and a distance
are the first of three numbers. -/
structure SensorsEvent (F : Type) where
  sensor : SensorId
  timestamp : Int64
  data : F × F × F
  deriving DecidableEq

/-- `SensorPoll`; `tag` is the text at the address of the device. -/
structure SensorPoll (F : Type) where
  tag : List UInt8
  sensors : SensorId → SensorsEvent F
  pendingSensors : BitVec 32
  timeStart : Int64
  timeOffset : Int64

/-- What `qemud_channel_recv` gives, and the time of the monotonic clock then. -/
inductive Recv
  | message (bytes : List UInt8) (now : Int64)
  | error (errno : Int)

/-! ## Texts -/

/-- The number at the start of a text and what is behind it: a `%g` and a `%lld`. -/
structure Scan (F : Type) where
  zero : F
  float : List UInt8 → Option (F × List UInt8)
  integer : List UInt8 → Option (Int64 × List UInt8)

inductive Directive
  | char (c : UInt8)
  | g
  | lld

inductive Arg (F : Type)
  | float (x : F)
  | integer (n : Int64)

variable {F : Type}

/-- The converted arguments; their number is what `sscanf` returns, but for the end of the text
before the first of them. -/
def sscanf (sc : Scan F) : List Directive → List UInt8 → List (Arg F)
  | [], _ => []
  | .char c :: format, text => if text.head? = some c then sscanf sc format text.tail else []
  | .g :: format, text =>
      match sc.float text with
      | some (x, rest) => .float x :: sscanf sc format rest
      | none => []
  | .lld :: format, text =>
      match sc.integer text with
      | some (n, rest) => .integer n :: sscanf sc format rest
      | none => []

def chars (text : String) : List Directive := (CString.literal text).map .char

/-- `"<name>%g:%g:%g"` -/
def vectorFormat (name : String) : List Directive :=
  chars name ++ .g :: chars ":" ++ .g :: chars ":" ++ [.g]

/-- `"<name>%g"` -/
def scalarFormat (name : String) : List Directive := chars name ++ [.g]

/-- `"sync:%lld"` -/
def syncFormat : List Directive := chars "sync:" ++ [.lld]

/-- `params[k]` -/
def param (sc : Scan F) (args : List (Arg F)) (k : Nat) : F :=
  match args[k]? with
  | some (.float x) => x
  | _ => sc.zero

/-- What a text of the emulator is. -/
inductive Message (F : Type)
  | wake
  | vector (sensor : SensorId) (x y z : F)
  | scalar (sensor : SensorId) (x : F)
  | sync (time : Int64)
  | unknown

/-- A text with three numbers behind a name, where `sscanf` returns 3. -/
def scanVector (sc : Scan F) (name : String) (sensor : SensorId) (buff : List UInt8) :
    Option (Message F) :=
  let args := sscanf sc (vectorFormat name) buff
  if args.length = 3 then some (.vector sensor (param sc args 0) (param sc args 1) (param sc args 2))
  else none

/-- A text with one number behind a name, where `sscanf` returns `count`. -/
def scanScalar (sc : Scan F) (name : String) (sensor : SensorId) (count : Nat)
    (buff : List UInt8) : Option (Message F) :=
  let args := sscanf sc (scalarFormat name) buff
  if args.length = count then some (.scalar sensor (param sc args 0)) else none

def scanSync (sc : Scan F) (buff : List UInt8) : Option (Message F) :=
  match sscanf sc syncFormat buff with
  | [.integer time] => some (.sync time)
  | _ => none

namespace SensorPoll

/-- What the loop of `data__poll` takes a text for. The `strcmp` for the wake text has the device
as its first argument. -/
def readMessage (sc : Scan F) (data : SensorPoll F) (buff : List UInt8) : Message F :=
  if data.tag = CString.literal "wake" then .wake
  else
    (scanVector sc "acceleration:" idAcceleration buff
      <|> scanVector sc "orientation:" idOrientation buff
      <|> scanVector sc "magnetic-field:" idMagneticField buff
      <|> scanScalar sc "temperature:" idTemperature 2 buff
      <|> scanScalar sc "proximity:" idProximity 1 buff
      <|> scanSync sc buff).getD .unknown

/-! ## The device -/

/-- `1 << id` -/
def bit (i : SensorId) : BitVec 32 := BitVec.twoPow 32 i

def setSensor (data : SensorPoll F) (i : SensorId) (ev : SensorsEvent F) : SensorPoll F :=
  { data with sensors := fun j => if j = i then ev else data.sensors j }

def storeVector (data : SensorPoll F) (i : SensorId) (x y z : F) : SensorPoll F :=
  data.setSensor i { data.sensors i with data := (x, y, z) }

def storeScalar (data : SensorPoll F) (i : SensorId) (x : F) : SensorPoll F :=
  data.setSensor i { data.sensors i with data := (x, (data.sensors i).data.2) }

/-- The state after `data__data_open`, on a little-endian machine; `HARDWARE_DEVICE_TAG` is the
text `HWDT` in one word. -/
def dataOpen (sc : Scan F) : SensorPoll F where
  tag := CString.literal "TDWH"
  sensors _ := { sensor := 0, timestamp := 0, data := (sc.zero, sc.zero, sc.zero) }
  pendingSensors := 0
  timeStart := 0
  timeOffset := 0

/-- The `while` loop of `pick_sensor`. The result is negative where no sensor is pending. -/
def pickFrom : List SensorId → SensorPoll F → (Int × Option (SensorsEvent F)) × SensorPoll F
  | [], data => ((-22, none), data)
  | i :: is, data =>
      if data.pendingSensors.getLsbD i then
        ((i.val, some { data.sensors i with sensor := i }),
          { data with pendingSensors := data.pendingSensors &&& ~~~bit i })
      else pickFrom is data

def pickSensor (data : SensorPoll F) : (Int × Option (SensorsEvent F)) × SensorPoll F :=
  pickFrom supportedSensors data

/-- A sync makes the new sensors the pending ones; the first one sets the base of the time. -/
def sync (data : SensorPoll F) (newSensors : BitVec 32) (eventTime now : Int64) : SensorPoll F :=
  let t := eventTime * 1000
  let data := { data with pendingSensors := newSensors }
  let data := if data.timeStart = 0 then { data with timeStart := now, timeOffset := now - t }
    else data
  let t := t + data.timeOffset
  { data with
    sensors := fun i =>
      if newSensors.getLsbD i then { data.sensors i with timestamp := t } else data.sensors i }

/-- The `while` loop of `data__poll`, with the texts that are left behind its result. -/
def waitEvent (sc : Scan F) (data : SensorPoll F) (newSensors : BitVec 32) :
    List Recv → Option ((Int × Option (SensorsEvent F)) × SensorPoll F × List Recv)
  | [] => none
  | .error errno :: ms => some ((-errno, none), data, ms)
  | .message bytes now :: ms =>
      match data.readMessage sc (bytes.takeWhile (· ≠ 0)) with
      | .wake => some ((0x7FFFFFFF, none), data, ms)
      | .vector i x y z => waitEvent sc (data.storeVector i x y z) (newSensors ||| bit i) ms
      | .scalar i x => waitEvent sc (data.storeScalar i x) (newSensors ||| bit i) ms
      | .sync eventTime =>
          if newSensors = 0 then waitEvent sc data newSensors ms
          else
            let picked := pickSensor (data.sync newSensors eventTime now)
            some (picked.1, picked.2, ms)
      | .unknown => waitEvent sc data newSensors ms

def dataPoll (sc : Scan F) (data : SensorPoll F) (ms : List Recv) :
    Option ((Int × Option (SensorsEvent F)) × SensorPoll F × List Recv) :=
  if data.pendingSensors ≠ 0 then some ((pickSensor data).1, (pickSensor data).2, ms)
  else data.waitEvent sc 0 ms

/-- `poll__poll`: the events that the call returns, the device and the texts that are left. -/
def poll (sc : Scan F) : Nat → SensorPoll F → List Recv →
    Option (List (SensorsEvent F) × SensorPoll F × List Recv)
  | 0, data, ms => some ([], data, ms)
  | count + 1, data, ms =>
      (data.dataPoll sc ms).bind fun r =>
        if 5 < r.1.1 ∨ r.1.1 < 0 then some ([], r.2)
        else if r.2.1.pendingSensors = 0 then some (r.1.2.toList, r.2)
        else (poll sc count r.2.1 r.2.2).map fun rest => (r.1.2.toList ++ rest.1, rest.2)

/-- One call after the other. -/
def polls (sc : Scan F) : List Nat → SensorPoll F → List Recv →
    Option (List (List (SensorsEvent F)) × SensorPoll F × List Recv)
  | [], data, ms => some ([], data, ms)
  | count :: counts, data, ms =>
      (data.poll sc count ms).bind fun r =>
        (polls sc counts r.2.1 r.2.2).map fun rest => (r.1 :: rest.1, rest.2)

end SensorPoll

end AndroidRenderer.Sensors
