import AndroidRenderer.Gps.NmeaReader

/-!
# Malformed fields

The reader has six parts: the UTC date, the time of the fix, and four groups of the fix with a
flag each. Every update changes its own part or, where its field is rejected, none.
-/

namespace AndroidRenderer.Gps

variable {F : Type} {libc : Libc F} {now : Int} {r : NmeaReader F}

/-- The parts of a reader that the fields of a sentence can change. -/
structure Parts (F : Type) where
  date : Int × Int × Int
  timestamp : Int
  position : F × F × UInt16
  height : F × UInt16
  speed : F × UInt16
  bearing : F × UInt16

namespace NmeaReader

def date (r : NmeaReader F) : Int × Int × Int := (r.utcYear, r.utcMon, r.utcDay)

def parts (r : NmeaReader F) : Parts F where
  date := r.date
  timestamp := r.fix.timestamp
  position := (r.fix.latitude, r.fix.longitude, r.fix.flags &&& hasLatLong)
  height := (r.fix.altitude, r.fix.flags &&& hasAltitude)
  speed := (r.fix.speed, r.fix.flags &&& hasSpeed)
  bearing := (r.fix.bearing, r.fix.flags &&& hasBearing)

/-- The date of the system clock. -/
def today (libc : Libc F) (now : Int) : Int × Int × Int :=
  ((libc.gmtime now).year + 1900, (libc.gmtime now).mon + 1, (libc.gmtime now).mday)

/-- The sentence is parsed, and its fix stays or is handed on, which takes its flags back. -/
def Handed (before : NmeaReader F) (out : NmeaReader F × List (Event F)) : Prop :=
  out = (before, []) ∨
    ∃ cb, out = ({ before with fix := { before.fix with flags := 0 } }, [.callback cb before.fix])

end NmeaReader

/-- The token that is read as the field of an index. -/
def tok (s : List UInt8) (k : Nat) : Token := nmeaTokenizerGet (nmeaTokenizerInit s) k

def Digits (text : Token) : Prop := ∀ c ∈ text, CString.isdigit c = true

/-- The sentence is a GGA sentence, long enough for a parse. -/
def Gga (s : List UInt8) : Prop :=
  NmeaReader.accepts s = true ∧ NmeaReader.kind (tok s 0) = .gga

/-- The sentence is an RMC sentence with the status `'A'`, long enough for a parse. -/
def ActiveRmc (s : List UInt8) : Prop :=
  NmeaReader.accepts s = true ∧ NmeaReader.kind (tok s 0) = .rmc ∧ (tok s 2).first = 65

def HasTime (s : List UInt8) : Prop := 6 ≤ (tok s 1).length

/-- The date has six characters, and those of the day and the month are decimal digits. -/
def HasDate (s : List UInt8) : Prop := (tok s 9).length = 6 ∧ Digits ((tok s 9).take 4)

/-- A latitude at an index and a longitude behind its hemisphere. -/
def HasPosition (s : List UInt8) (k : Nat) : Prop :=
  6 ≤ (tok s k).length ∧ 6 ≤ (tok s (k + 2)).length

/-! ## Digits -/

theorem isdigit_iff (c : UInt8) :
    CString.isdigit c = true ↔ ¬ ((c.toNat : Int) - 48 < 0 ∨ 10 ≤ (c.toNat : Int) - 48) := by
  simp only [CString.isdigit, Bool.and_eq_true, decide_eq_true_eq, UInt8.le_iff_toNat_le]
  grind

theorem str2intFrom_nonneg {result : Int} (hresult : 0 ≤ result) (text : Token) :
    0 ≤ str2intFrom result text ↔ Digits text := by
  induction text generalizing result with
  | nil => simp [str2intFrom, Digits, hresult]
  | cons c text ih =>
      rw [Digits, List.forall_mem_cons, isdigit_iff, str2intFrom]
      split
      · grind
      · rename_i hgood
        rw [ih (by omega)]
        exact ⟨fun h => ⟨hgood, h⟩, fun h => h.2⟩

theorem str2int_nonneg (text : Token) : 0 ≤ str2int text ↔ Digits text :=
  str2intFrom_nonneg (Int.le_refl 0) text

theorem neg_one_le_str2intFrom {result : Int} (hresult : 0 ≤ result) (text : Token) :
    -1 ≤ str2intFrom result text := by
  by_cases h : Digits text
  · have hpos := (str2intFrom_nonneg hresult text).mpr h
    omega
  · induction text generalizing result with
    | nil => exact absurd (fun c hc => absurd hc List.not_mem_nil) h
    | cons c text ih =>
        rw [str2intFrom]
        split
        · exact Int.le_refl _
        · rename_i hgood
          refine ih (by omega) fun hrest => h ?_
          rw [Digits, List.forall_mem_cons, isdigit_iff]
          exact ⟨hgood, hrest⟩

theorem str2int_of_not_digits {text : Token} (h : ¬Digits text) : str2int text = -1 := by
  have hge : -1 ≤ str2int text := neg_one_le_str2intFrom (Int.le_refl 0) text
  rw [← str2int_nonneg] at h
  omega

theorem digits_take_four (text : Token) :
    Digits (text.take 4) ↔ Digits (text.take 2) ∧ Digits ((text.drop 2).take 2) := by
  have hsplit : text.take 4 = text.take 2 ++ (text.drop 2).take 2 :=
    List.take_add (i := 2) (j := 2)
  rw [Digits, hsplit, List.forall_mem_append]
  rfl

/-! ## One update -/

theorem or_and (a b c : UInt16) : (a ||| b) &&& c = (a &&& c) ||| (b &&& c) :=
  UInt16.toBitVec_inj.mp BitVec.and_or_distrib_right

/-- Setting one flag leaves another as it was. -/
theorem or_and_of_disjoint (flags : UInt16) {f g : UInt16} (h : f &&& g = 0) :
    (flags ||| f) &&& g = flags &&& g := by
  rw [or_and, h, UInt16.or_zero]

namespace NmeaReader

theorem updateLatlong_parts (latitude longitude : Token) (latHemi lonHemi : UInt8) :
    (updateLatlong libc r latitude latHemi longitude lonHemi).parts =
      { r.parts with
        position := (updateLatlong libc r latitude latHemi longitude lonHemi).parts.position } := by
  unfold updateLatlong
  split
  · rfl
  · dsimp only
    split
    · rfl
    · simp (disch := decide) only [parts, or_and_of_disjoint]
      rfl

theorem updateLatlong_taken {latitude longitude : Token} {latHemi lonHemi : UInt8}
    (h : (updateLatlong libc r latitude latHemi longitude lonHemi).parts.position ≠
      r.parts.position) : 6 ≤ latitude.length ∧ 6 ≤ longitude.length := by
  refine Decidable.byContradiction fun hshort => h ?_
  grind [updateLatlong]

theorem updateAltitude_parts (altitude : Token) : (updateAltitude libc r altitude).parts =
    { r.parts with height := (updateAltitude libc r altitude).parts.height } := by
  unfold updateAltitude
  split
  · rfl
  · simp (disch := decide) only [parts, or_and_of_disjoint]
    rfl

theorem updateAltitude_taken {altitude : Token}
    (h : (updateAltitude libc r altitude).parts.height ≠ r.parts.height) : altitude ≠ [] :=
  fun hnone => h (by rw [updateAltitude, if_pos hnone])

theorem updateBearing_parts (bearing : Token) : (updateBearing libc r bearing).parts =
    { r.parts with bearing := (updateBearing libc r bearing).parts.bearing } := by
  unfold updateBearing
  split
  · rfl
  · simp (disch := decide) only [parts, or_and_of_disjoint]
    rfl

theorem updateBearing_taken {bearing : Token}
    (h : (updateBearing libc r bearing).parts.bearing ≠ r.parts.bearing) : bearing ≠ [] :=
  fun hnone => h (by rw [updateBearing, if_pos hnone])

theorem updateSpeed_parts (speed : Token) : (updateSpeed libc r speed).parts =
    { r.parts with speed := (updateSpeed libc r speed).parts.speed } := by
  unfold updateSpeed
  split
  · rfl
  · simp (disch := decide) only [parts, or_and_of_disjoint]
    rfl

theorem updateSpeed_taken {speed : Token}
    (h : (updateSpeed libc r speed).parts.speed ≠ r.parts.speed) : speed ≠ [] :=
  fun hnone => h (by rw [updateSpeed, if_pos hnone])

/-- A date is accepted if and only if it has six characters and those of the day and the month are
digits: the 2000 that is added to the year hides a failure there. -/
theorem updateDate_rejected {d : Token} (t : Token)
    (h : ¬ (d.length = 6 ∧ Digits (d.take 4))) : updateDate libc now r d t = r := by
  unfold updateDate
  split
  · rfl
  · rename_i hlength
    dsimp only
    refine if_pos ?_
    have hbad : ¬ (Digits (d.take 2) ∧ Digits ((d.drop 2).take 2)) := fun hgood =>
      h ⟨Decidable.not_not.mp hlength, (digits_take_four d).mpr hgood⟩
    rw [← str2int_nonneg, ← str2int_nonneg] at hbad
    simp only [anyNegative, Bool.or_eq_true, decide_eq_true_eq]
    omega

theorem updateDate_accepted {d : Token} (t : Token) (h : d.length = 6)
    (hd : Digits (d.take 4)) : updateDate libc now r d t =
      updateTime libc now
        { r with utcYear := str2int ((d.drop 4).take 2) + 2000,
                 utcMon := str2int ((d.drop 2).take 2), utcDay := str2int (d.take 2) } t := by
  unfold updateDate
  rw [if_neg (fun hne => hne h)]
  refine if_neg ?_
  obtain ⟨hday, hmon⟩ := (digits_take_four d).mp hd
  have hyear := neg_one_le_str2intFrom (Int.le_refl 0) ((d.drop 4).take 2)
  rw [← str2int_nonneg] at hday hmon
  rw [← str2int] at hyear
  simp only [anyNegative, Bool.or_eq_true, decide_eq_true_eq]
  omega

/-- Neither with a date nor without one does the time change any group of the fix. -/
theorem updateTime_frame (t : Token) : (updateTime libc now r t).parts =
    { r.parts with date := (updateTime libc now r t).date,
                   timestamp := (updateTime libc now r t).fix.timestamp } := by
  unfold updateTime
  split
  · rfl
  · dsimp only
    unfold dateOrToday
    split <;> rfl

theorem updateTime_date (t : Token) : (updateTime libc now r t).date =
    if 6 ≤ t.length ∧ r.utcYear < 0 then today libc now else r.date := by
  unfold updateTime dateOrToday
  by_cases hlength : t.length < 6
  · rw [if_pos hlength, if_neg (by omega)]
  · by_cases hyear : r.utcYear < 0
    · rw [if_neg hlength, if_pos hyear, if_pos ⟨by omega, hyear⟩]
      rfl
    · rw [if_neg hlength, if_neg hyear, if_neg (fun h => hyear h.2)]
      rfl

theorem updateTime_taken {t : Token}
    (h : (updateTime libc now r t).fix.timestamp ≠ r.fix.timestamp) : 6 ≤ t.length := by
  refine Decidable.byContradiction fun hshort => h ?_
  rw [updateTime, if_pos (by omega)]

theorem updateDate_frame (d t : Token) : (updateDate libc now r d t).parts =
    { r.parts with date := (updateDate libc now r d t).date,
                   timestamp := (updateDate libc now r d t).fix.timestamp } := by
  by_cases h : d.length = 6 ∧ Digits (d.take 4)
  · rw [updateDate_accepted t h.1 h.2, updateTime_frame]
    rfl
  · rw [updateDate_rejected t h]
    rfl

/-- The date that an accepted field stores; the current date is not needed then. -/
theorem updateDate_date {d : Token} (t : Token) (h : d.length = 6)
    (hd : Digits (d.take 4)) : (updateDate libc now r d t).date =
      (str2int ((d.drop 4).take 2) + 2000, str2int ((d.drop 2).take 2), str2int (d.take 2)) := by
  have hyear := neg_one_le_str2intFrom (Int.le_refl 0) ((d.drop 4).take 2)
  rw [← str2int] at hyear
  have hpast : ¬ (6 ≤ t.length ∧ str2int ((d.drop 4).take 2) + 2000 < 0) := by omega
  rw [updateDate_accepted t h hd, updateTime_date]
  exact if_neg hpast

/-- A year that is no number is stored as 1999. -/
theorem updateDate_of_no_year {d : Token} (t : Token) (h : d.length = 6) (hd : Digits (d.take 4))
    (hyear : ¬Digits ((d.drop 4).take 2)) : (updateDate libc now r d t).date =
      (1999, str2int ((d.drop 2).take 2), str2int (d.take 2)) := by
  rw [updateDate_date t h hd, str2int_of_not_digits hyear]
  rfl

/-- An hour and a minute that are no numbers are both -1 for `mktime`. -/
theorem updateTime_of_no_digits {t : Token} (h : 6 ≤ t.length) (hdate : 0 ≤ r.utcYear)
    (hhour : ¬Digits (t.take 2)) (hminute : ¬Digits ((t.drop 2).take 2)) :
    (updateTime libc now r t).fix.timestamp = (libc.mktime
      { sec := libc.toInt (libc.str2float (t.drop 4)), min := -1, hour := -1, mday := r.utcDay,
        mon := r.utcMon - 1, year := r.utcYear - 1900, yday := 0 } + r.utcDiff) * 1000 := by
  rw [updateTime, if_neg (Nat.not_lt.mpr h), dateOrToday, if_neg (Int.not_lt.mpr hdate)]
  dsimp only [fixTime]
  rw [str2int_of_not_digits hhour, str2int_of_not_digits hminute]

/-! ## A sentence -/

/-- What a sentence can change, and where it can: the date and the time only where they were
accepted, and every group of the fix, with its flag, only where its fields were. -/
structure Kept (libc : Libc F) (now : Int) (s : List UInt8) (r before : NmeaReader F) : Prop where
  date : before.date ≠ r.date → ActiveRmc s ∧ HasDate s ∨
    Gga s ∧ r.utcYear < 0 ∧ HasTime s ∧ before.date = today libc now
  stored : ActiveRmc s → HasDate s → Digits (tok s 9) → before.date =
    (str2int ((tok s 9).drop 4) + 2000, str2int (((tok s 9).drop 2).take 2),
      str2int ((tok s 9).take 2))
  timestamp : before.fix.timestamp ≠ r.fix.timestamp →
    (Gga s ∨ ActiveRmc s ∧ HasDate s) ∧ HasTime s
  position : before.parts.position ≠ r.parts.position →
    Gga s ∧ HasPosition s 2 ∨ ActiveRmc s ∧ HasPosition s 3
  height : before.parts.height ≠ r.parts.height → Gga s ∧ tok s 9 ≠ []
  speed : before.parts.speed ≠ r.parts.speed → ActiveRmc s ∧ tok s 7 ≠ []
  bearing : before.parts.bearing ≠ r.parts.bearing → ActiveRmc s ∧ tok s 8 ≠ []

theorem Kept.same {s : List UInt8} (h : ¬ ActiveRmc s) : Kept libc now s r r where
  date hne := absurd rfl hne
  stored hrmc := absurd hrmc h
  timestamp hne := absurd rfl hne
  position hne := absurd rfl hne
  height hne := absurd rfl hne
  speed hne := absurd rfl hne
  bearing hne := absurd rfl hne

/-- The fields of a GGA sentence change the date, the time, the position and the height. -/
theorem parseGga_kept {s : List UInt8} (h : Gga s) :
    Kept libc now s r (parseGga libc now r (nmeaTokenizerInit s)) := by
  have hnot : ¬ ActiveRmc s := fun hrmc => absurd (h.2.symm.trans hrmc.2.1) (by decide)
  let r₁ := updateTime libc now r (tok s 1)
  let r₂ := updateLatlong libc r₁ (tok s 2) (tok s 3).first (tok s 4) (tok s 5).first
  let r₃ := updateAltitude libc r₂ (tok s 9)
  change Kept libc now s r r₃
  have h₁ : r₁.parts = { r.parts with date := r₁.date, timestamp := r₁.fix.timestamp } :=
    updateTime_frame _
  have h₂ : r₂.parts = { r₁.parts with position := r₂.parts.position } :=
    updateLatlong_parts _ _ _ _
  have h₃ : r₃.parts = { r₂.parts with height := r₃.parts.height } := updateAltitude_parts _
  have hdate : r₃.parts.date = r₁.parts.date := by rw [h₃, h₂]
  have htime : r₃.parts.timestamp = r₁.parts.timestamp := by rw [h₃, h₂]
  have hposition : r₃.parts.position = r₂.parts.position := by rw [h₃]
  have hplace : r₁.parts.position = r.parts.position := by rw [h₁]
  have hheight : r₂.parts.height = r.parts.height := by rw [h₂, h₁]
  have hspeed : r₃.parts.speed = r.parts.speed := by rw [h₃, h₂, h₁]
  have hbearing : r₃.parts.bearing = r.parts.bearing := by rw [h₃, h₂, h₁]
  constructor
  case date =>
    intro hne
    have hnew : r₃.date = _ := hdate.trans (updateTime_date (tok s 1))
    split at hnew
    · rename_i hfirst
      exact .inr ⟨h, hfirst.2, hfirst.1, hnew⟩
    · exact absurd hnew hne
  case stored => exact fun hrmc => absurd hrmc hnot
  case timestamp => exact fun hne => ⟨.inl h, updateTime_taken fun heq => hne (htime.trans heq)⟩
  case position =>
    intro hne
    rw [hposition, ← hplace] at hne
    exact .inl ⟨h, updateLatlong_taken hne⟩
  case height =>
    intro hne
    rw [← hheight] at hne
    exact ⟨h, updateAltitude_taken hne⟩
  case speed => exact fun hne => absurd hspeed hne
  case bearing => exact fun hne => absurd hbearing hne

/-- The fields of an active RMC sentence change everything but the height. -/
theorem parseRmc_kept {s : List UInt8} (h : ActiveRmc s) :
    Kept libc now s r (parseRmc libc now r (nmeaTokenizerInit s)) := by
  let r₁ := updateDate libc now r (tok s 9) (tok s 1)
  let r₂ := updateLatlong libc r₁ (tok s 3) (tok s 4).first (tok s 5) (tok s 6).first
  let r₃ := updateBearing libc r₂ (tok s 8)
  let r₄ := updateSpeed libc r₃ (tok s 7)
  have hparse : parseRmc libc now r (nmeaTokenizerInit s) = r₄ := if_pos h.2.2
  rw [hparse]
  have h₁ : r₁.parts = { r.parts with date := r₁.date, timestamp := r₁.fix.timestamp } :=
    updateDate_frame _ _
  have h₂ : r₂.parts = { r₁.parts with position := r₂.parts.position } :=
    updateLatlong_parts _ _ _ _
  have h₃ : r₃.parts = { r₂.parts with bearing := r₃.parts.bearing } := updateBearing_parts _
  have h₄ : r₄.parts = { r₃.parts with speed := r₄.parts.speed } := updateSpeed_parts _
  have hdate : r₄.parts.date = r₁.parts.date := by rw [h₄, h₃, h₂]
  have htime : r₄.parts.timestamp = r₁.parts.timestamp := by rw [h₄, h₃, h₂]
  have hposition : r₄.parts.position = r₂.parts.position := by rw [h₄, h₃]
  have hplace : r₁.parts.position = r.parts.position := by rw [h₁]
  have hheight : r₄.parts.height = r.parts.height := by rw [h₄, h₃, h₂, h₁]
  have hspeed : r₃.parts.speed = r.parts.speed := by rw [h₃, h₂, h₁]
  have hbearing : r₂.parts.bearing = r.parts.bearing := by rw [h₂, h₁]
  have hcourse : r₄.parts.bearing = r₃.parts.bearing := by rw [h₄]
  -- without an accepted date the time is not looked at
  have hnone : ¬ HasDate s → r₁ = r := updateDate_rejected (tok s 1)
  constructor
  case date =>
    intro hne
    refine .inl ⟨h, Classical.byContradiction fun hbad => hne (hdate.trans ?_)⟩
    rw [hnone hbad]
    rfl
  case stored =>
    intro _ hd _
    have htake : ((tok s 9).drop 4).take 2 = (tok s 9).drop 4 :=
      List.take_of_length_le (by rw [List.length_drop, hd.1])
    rw [← htake]
    exact hdate.trans (updateDate_date (tok s 1) hd.1 hd.2)
  case timestamp =>
    intro hne
    have hchanged : r₁.fix.timestamp ≠ r.fix.timestamp := fun heq => hne (htime.trans heq)
    have hd : HasDate s := Classical.byContradiction fun hbad => hchanged (by rw [hnone hbad])
    have haccepted : r₁ = _ := updateDate_accepted (tok s 1) hd.1 hd.2
    rw [haccepted] at hchanged
    exact ⟨.inr ⟨h, hd⟩, updateTime_taken hchanged⟩
  case position =>
    intro hne
    rw [hposition, ← hplace] at hne
    exact .inr ⟨h, updateLatlong_taken hne⟩
  case height => exact fun hne => absurd hheight hne
  case speed =>
    intro hne
    rw [← hspeed] at hne
    exact ⟨h, updateSpeed_taken hne⟩
  grind [updateBearing_taken]

theorem parseFields_kept {s : List UInt8} (h : accepts s = true) :
    Kept libc now s r (parseFields libc now r (nmeaTokenizerInit s)) := by
  unfold parseFields
  split
  · rename_i hkind
    exact parseGga_kept ⟨h, hkind⟩
  · rename_i hkind
    by_cases hstatus : (tok s 2).first = 65
    · exact parseRmc_kept ⟨h, hkind, hstatus⟩
    · have hsame : parseRmc libc now r (nmeaTokenizerInit s) = r := if_neg hstatus
      rw [hsame]
      exact .same fun hrmc => hstatus hrmc.2.2
  · rename_i hkind
    exact .same fun hrmc => absurd (hkind.symm.trans hrmc.2.1) (by decide)
  · rename_i hkind
    exact .same fun hrmc => absurd (hkind.symm.trans hrmc.2.1) (by decide)

theorem deliver_handed (before : NmeaReader F) : Handed before before.deliver := by
  unfold deliver
  split
  · exact .inl rfl
  · split
    · exact .inr ⟨_, rfl⟩
    · exact .inl rfl

/-- A sentence changes a part of the reader only where it was accepted. -/
theorem parse_kept (libc : Libc F) (now : Int) (r : NmeaReader F) :
    ∃ before, Handed before (parse libc now r) ∧ Kept libc now r.received r before := by
  unfold parse
  split
  · rename_i haccepts
    exact ⟨_, deliver_handed _, parseFields_kept haccepts⟩
  · rename_i hignored
    exact ⟨r, .inl rfl, .same fun hrmc => hignored hrmc.1⟩

end NmeaReader

/-- A GGA sentence of the year 2011, whose date is not in it. -/
def firstGga : List UInt8 := CString.literal "$GPGGA,000405,4807,N,01131,E,1,8,1,545\n"

theorem firstGga_room : firstGga.length ≤ nmeaMaxSize := by decide

/-- A reader without a date that has received the sentence. -/
def firstReader : NmeaReader Int :=
  (NmeaReader.init utcLibc 1293840245).setReceived firstGga firstGga_room

/-- The first GGA sentence stores the current date. -/
theorem firstGga_stores :
    (NmeaReader.accepts firstReader.received = true ∧
      NmeaReader.kind (tok firstReader.received 0) = .gga) ∧
    firstReader.date = (-1, -1, -1) ∧
    (NmeaReader.parse utcLibc 1293840245 firstReader).1.date = (2011, 1, 1) := by
  decide +kernel

end AndroidRenderer.Gps
