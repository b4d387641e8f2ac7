import AndroidRenderer.Gps.NmeaTokenizer
import Mathlib.Data.UInt

/-!
# The NMEA reader

`nmea_reader_addc` collects the bytes of a sentence up to the newline and `nmea_reader_parse` takes
a fix out of it. A step is given the time of the system clock and yields the sentences that were
parsed and the fixes that were handed to the callback. The C library is a parameter, with the type
of its floating point numbers.
-/

namespace AndroidRenderer.Gps

/-- `struct tm`, as far as the reader uses it. -/
structure Tm where
  sec : Int
  min : Int
  hour : Int
  mday : Int
  mon : Int
  year : Int
  yday : Int
  deriving DecidableEq

/-- What the reader uses of the C library and of the arithmetic of `double`. -/
structure Libc (F : Type) where
  gmtime : Int → Tm
  localtime : Int → Tm
  /-- `mktime` of a time with `tm_isdst = -1`; it does not look at `tm_yday`. -/
  mktime : Tm → Int
  strtod : List UInt8 → F
  floor : F → F
  ofInt : Int → F
  /-- `(int) x` -/
  toInt : F → Int
  /-- `(float) x` -/
  toFloat : F → F
  neg : F → F
  add : F → F → F
  sub : F → F → F
  mul : F → F → F
  div : F → F → F

variable {F : Type}

/-- The days from the start of 1970 to a date, with the years from March on. -/
def daysFrom1970 (year mon mday : Int) : Int :=
  let y := if mon < 2 then year - 1 else year
  let m := if mon < 2 then mon + 10 else mon - 2
  365 * y + y / 4 - y / 100 + y / 400 + (153 * m + 2) / 5 + mday - 719469

/-- The date of a day after the start of 1970. -/
def dateOf (days : Int) : Int × Int × Int :=
  let z := days + 719468
  let era := z / 146097
  let doe := z % 146097
  let yoe := (doe - doe / 1460 + doe / 36524 - doe / 146096) / 365
  let doy := doe - (365 * yoe + yoe / 4 - yoe / 100)
  let mp := (5 * doy + 2) / 153
  let mon := if mp < 10 then mp + 2 else mp - 10
  (yoe + era * 400 + (if mon < 2 then 1 else 0), mon, doy - (153 * mp + 2) / 5 + 1)

/-- `gmtime` -/
def utcTime (t : Int) : Tm :=
  let date := dateOf (t / 86400)
  { sec := t % 60, min := t / 60 % 60, hour := t / 3600 % 24, mday := date.2.2, mon := date.2.1,
    year := date.1 - 1900, yday := t / 86400 - daysFrom1970 date.1 0 1 }

/-- A C library in the time zone of UTC, with whole numbers for the floating point numbers. -/
def utcLibc : Libc Int where
  gmtime := utcTime
  localtime := utcTime
  mktime tm := tm.sec + 60 * (tm.min + 60 * (tm.hour +
    24 * daysFrom1970 (tm.year + 1900) tm.mon tm.mday))
  strtod text := (text.takeWhile CString.isdigit).foldl (fun x c => x * 10 + (c.toNat - 48)) 0
  floor := id
  ofInt := id
  toInt := id
  toFloat := id
  neg x := -x
  add x y := x + y
  sub x y := x - y
  mul x y := x * y
  div x y := x / y

example : utcTime 1293840245 =
    { sec := 5, min := 4, hour := 0, mday := 1, mon := 0, year := 111, yday := 0 } := by decide

example : utcLibc.mktime (utcTime 951868799) = 951868799 := by decide

/-- The text of a token as a number, `0.` where it does not fit into `temp`. -/
def Libc.str2float (libc : Libc F) (tok : Token) : F :=
  if 16 ≤ tok.length then libc.ofInt 0 else libc.strtod tok

def hasLatLong : UInt16 := 1
def hasAltitude : UInt16 := 2
def hasSpeed : UInt16 := 4
def hasBearing : UInt16 := 8

/-- `GpsLocation` without its size. -/
structure GpsLocation (F : Type) where
  flags : UInt16
  latitude : F
  longitude : F
  altitude : F
  speed : F
  bearing : F
  accuracy : F
  timestamp : Int
  deriving DecidableEq

/-- `NMEA_MAX_SIZE` -/
def nmeaMaxSize : Nat := 83

/-- `received` is what is in `in`, and `pos` its length. -/
structure NmeaReader (F : Type) where
  received : List UInt8
  overflow : Bool
  utcYear : Int
  utcMon : Int
  utcDay : Int
  utcDiff : Int
  fix : GpsLocation F
  callback : Option Nat
  room : received.length ≤ nmeaMaxSize

/-- What a step does besides changing the reader. -/
inductive Event (F : Type)
  | parse (sentence : List UInt8)
  | callback (cb : Nat) (fix : GpsLocation F)

namespace NmeaReader

/-- The reader with another text in `in`. -/
def setReceived (r : NmeaReader F) (text : List UInt8) (h : text.length ≤ nmeaMaxSize) :
    NmeaReader F :=
  { r with received := text, room := h }

/-- The seconds of a time, with all years as long as 365 days. -/
def seconds (tm : Tm) : Int :=
  tm.sec + 60 * (tm.min + 60 * (tm.hour + 24 * (tm.yday + 365 * tm.year)))

def updateUtcDiff (libc : Libc F) (now : Int) (r : NmeaReader F) : NmeaReader F :=
  { r with utcDiff := seconds (libc.gmtime now) - seconds (libc.localtime now) }

def init (libc : Libc F) (now : Int) : NmeaReader F :=
  let zero := libc.ofInt 0
  updateUtcDiff libc now
    { received := [], overflow := false, utcYear := -1, utcMon := -1, utcDay := -1, utcDiff := 0,
      fix := { flags := 0, latitude := zero, longitude := zero, altitude := zero, speed := zero,
               bearing := zero, accuracy := zero, timestamp := 0 },
      callback := none, room := Nat.zero_le nmeaMaxSize }

/-- The latest fix goes to a new callback. -/
def setCallback (r : NmeaReader F) (cb : Option Nat) : NmeaReader F × List (Event F) :=
  match cb with
  | none => ({ r with callback := none }, [])
  | some f =>
      if r.fix.flags ≠ 0 then
        ({ r with callback := some f, fix := { r.fix with flags := 0 } }, [.callback f r.fix])
      else ({ r with callback := some f }, [])

/-- The date is the current one where there is none yet. -/
def dateOrToday (libc : Libc F) (now : Int) (r : NmeaReader F) : NmeaReader F :=
  if r.utcYear < 0 then
    let tm := libc.gmtime now
    { r with utcYear := tm.year + 1900, utcMon := tm.mon + 1, utcDay := tm.mday }
  else r

/-- The fix time: `mktime` of the stored date and of the hour, minute and seconds of a token. -/
def fixTime (libc : Libc F) (r : NmeaReader F) (tok : Token) : Int :=
  let hour := str2int (tok.take 2)
  let minute := str2int ((tok.drop 2).take 2)
  let seconds := libc.str2float (tok.drop 4)
  libc.mktime
    { sec := libc.toInt seconds, min := minute, hour := hour, mday := r.utcDay,
      mon := r.utcMon - 1, year := r.utcYear - 1900, yday := 0 } + r.utcDiff

def updateTime (libc : Libc F) (now : Int) (r : NmeaReader F) (tok : Token) : NmeaReader F :=
  if tok.length < 6 then r
  else
    let r := r.dateOrToday libc now
    { r with fix := { r.fix with timestamp := r.fixTime libc tok * 1000 } }

/-- `(day|mon|year) < 0`: an `or` is negative where one of its operands is. -/
def anyNegative (day mon year : Int) : Bool := day < 0 || mon < 0 || year < 0

def updateDate (libc : Libc F) (now : Int) (r : NmeaReader F) (date time : Token) :
    NmeaReader F :=
  if date.length ≠ 6 then r
  else
    let day := str2int (date.take 2)
    let mon := str2int ((date.drop 2).take 2)
    let year := str2int ((date.drop 4).take 2) + 2000
    if anyNegative day mon year then r
    else updateTime libc now { r with utcYear := year, utcMon := mon, utcDay := day } time

end NmeaReader

def Libc.convertFromHhmm (libc : Libc F) (tok : Token) : F :=
  let val := libc.str2float tok
  let degrees := libc.toInt (libc.div (libc.floor val) (libc.ofInt 100))
  let minutes := libc.sub val (libc.mul (libc.ofInt degrees) (libc.ofInt 100))
  libc.add (libc.ofInt degrees) (libc.div minutes (libc.ofInt 60))

namespace NmeaReader

def updateLatlong (libc : Libc F) (r : NmeaReader F) (latitude : Token) (latitudeHemi : UInt8)
    (longitude : Token) (longitudeHemi : UInt8) : NmeaReader F :=
  if latitude.length < 6 then r
  else
    let lat := libc.convertFromHhmm latitude
    let lat := if latitudeHemi = 83 then libc.neg lat else lat
    if longitude.length < 6 then r
    else
      let lon := libc.convertFromHhmm longitude
      let lon := if longitudeHemi = 87 then libc.neg lon else lon
      { r with fix := { r.fix with flags := r.fix.flags ||| hasLatLong,
                                   latitude := lat, longitude := lon } }

def updateAltitude (libc : Libc F) (r : NmeaReader F) (altitude : Token) : NmeaReader F :=
  if altitude = [] then r
  else { r with fix := { r.fix with flags := r.fix.flags ||| hasAltitude,
                                    altitude := libc.str2float altitude } }

def updateBearing (libc : Libc F) (r : NmeaReader F) (bearing : Token) : NmeaReader F :=
  if bearing = [] then r
  else { r with fix := { r.fix with flags := r.fix.flags ||| hasBearing,
                                    bearing := libc.toFloat (libc.str2float bearing) } }

def updateSpeed (libc : Libc F) (r : NmeaReader F) (speed : Token) : NmeaReader F :=
  if speed = [] then r
  else { r with fix := { r.fix with flags := r.fix.flags ||| hasSpeed,
                                    speed := libc.toFloat (libc.str2float speed) } }

/-- The fields of a GGA sentence. -/
def parseGga (libc : Libc F) (now : Int) (r : NmeaReader F) (tzer : NmeaTokenizer) :
    NmeaReader F :=
  let r := updateTime libc now r (nmeaTokenizerGet tzer 1)
  let r := updateLatlong libc r (nmeaTokenizerGet tzer 2) (nmeaTokenizerGet tzer 3).first
    (nmeaTokenizerGet tzer 4) (nmeaTokenizerGet tzer 5).first
  updateAltitude libc r (nmeaTokenizerGet tzer 9)

/-- The fields of an RMC sentence whose status is `'A'`. -/
def parseRmc (libc : Libc F) (now : Int) (r : NmeaReader F) (tzer : NmeaTokenizer) :
    NmeaReader F :=
  if (nmeaTokenizerGet tzer 2).first = 65 then
    let r := updateDate libc now r (nmeaTokenizerGet tzer 9) (nmeaTokenizerGet tzer 1)
    let r := updateLatlong libc r (nmeaTokenizerGet tzer 3) (nmeaTokenizerGet tzer 4).first
      (nmeaTokenizerGet tzer 5) (nmeaTokenizerGet tzer 6).first
    let r := updateBearing libc r (nmeaTokenizerGet tzer 8)
    updateSpeed libc r (nmeaTokenizerGet tzer 7)
  else r

/-- The sentences that the reader knows. -/
inductive Kind
  | gga
  | gsa
  | rmc
  | unknown
  deriving DecidableEq

/-- The three characters behind the first two of a sentence id. -/
def kind (tok : Token) : Kind :=
  let id := (tok.drop 2).take 3
  if id = [71, 71, 65] then .gga
  else if id = [71, 83, 65] then .gsa
  else if id = [82, 77, 67] then .rmc
  else .unknown

/-- The part of `nmea_reader_parse` before the fix is handed on. -/
def parseFields (libc : Libc F) (now : Int) (r : NmeaReader F) (tzer : NmeaTokenizer) :
    NmeaReader F :=
  match kind (nmeaTokenizerGet tzer 0) with
  | .gga => parseGga libc now r tzer
  | .rmc => parseRmc libc now r tzer
  | .gsa | .unknown => r

/-- A fix with data goes to the callback; without a callback it is kept. -/
def deliver (r : NmeaReader F) : NmeaReader F × List (Event F) :=
  if r.fix.flags = 0 then (r, [])
  else
    match r.callback with
    | some cb => ({ r with fix := { r.fix with flags := 0 } }, [.callback cb r.fix])
    | none => (r, [])

/-- Whether a sentence is long enough for a parse, and its id too. -/
def accepts (sentence : List UInt8) : Bool :=
  !(sentence.length < 9) && !((nmeaTokenizerGet (nmeaTokenizerInit sentence) 0).length < 5)

def parse (libc : Libc F) (now : Int) (r : NmeaReader F) : NmeaReader F × List (Event F) :=
  if accepts r.received then
    deliver (parseFields libc now r (nmeaTokenizerInit r.received))
  else (r, [])

theorem push_length {text : List UInt8} (c : UInt8) (h : ¬ nmeaMaxSize ≤ text.length) :
    (text ++ [c]).length ≤ nmeaMaxSize := by
  rw [List.length_append, List.length_singleton]
  exact Nat.lt_of_not_le h

/-- `sizeof(r->in)-1` is `NMEA_MAX_SIZE`. -/
def addc (libc : Libc F) (now : Int) (r : NmeaReader F) (c : UInt8) :
    NmeaReader F × List (Event F) :=
  if r.overflow then ({ r with overflow := c ≠ newline }, [])
  else if h : nmeaMaxSize ≤ r.received.length then
    ({ (r.setReceived [] (Nat.zero_le nmeaMaxSize)) with overflow := true }, [])
  else
    let r := r.setReceived (r.received ++ [c]) (push_length c h)
    if c = newline then
      let parsed := parse libc now r
      (parsed.1.setReceived [] (Nat.zero_le nmeaMaxSize), .parse r.received :: parsed.2)
    else (r, [])

end NmeaReader

end AndroidRenderer.Gps
