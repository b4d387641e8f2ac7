import AndroidRenderer.Gps.NmeaReader

/-!
# Line framing

Of the reader only `in` and `overflow` decide which sentences are parsed: this is the framer. A
line of one byte more than fits ends with the byte that sets `overflow`, so the line behind it is
lost, whatever its length.
-/

namespace AndroidRenderer.Gps

variable {F : Type}

/-- What the thread of the driver does with the reader. -/
inductive Call
  | addc (now : Int) (c : UInt8)
  | setCallback (cb : Option Nat)

/-- The bytes that are fed to the reader. -/
def Call.bytes : Call → List UInt8
  | .addc _ c => [c]
  | .setCallback _ => []

def NmeaReader.step (libc : Libc F) (r : NmeaReader F) : Call → NmeaReader F × List (Event F)
  | .addc now c => r.addc libc now c
  | .setCallback cb => r.setCallback cb

def NmeaReader.run (libc : Libc F) (r : NmeaReader F) :
    List Call → NmeaReader F × List (Event F)
  | [] => (r, [])
  | call :: calls =>
      let stepped := r.step libc call
      let rest := NmeaReader.run libc stepped.1 calls
      (rest.1, stepped.2 ++ rest.2)

def Event.sentence : Event F → Option (List UInt8)
  | .parse sentence => some sentence
  | .callback _ _ => none

/-- The sentences that are passed to `nmea_reader_parse`. -/
def sentences (events : List (Event F)) : List (List UInt8) := events.filterMap Event.sentence

/-- The newline-terminated lines of a stream, with their newline. -/
def lines (stream : List UInt8) : List (List UInt8) :=
  (stream.splitOn newline).dropLast.map (· ++ [newline])

/-- How many lines of 84 bytes are the last lines of a list. -/
def limitRun (ls : List (List UInt8)) : Nat :=
  (ls.reverse.takeWhile (·.length = nmeaMaxSize + 1)).length

/-! ## The framer -/

/-- The part of the reader that frames lines. -/
structure Framer where
  received : List UInt8
  overflow : Bool
  deriving DecidableEq

namespace Framer

def addc (s : Framer) (c : UInt8) : Framer × List (List UInt8) :=
  if s.overflow then ({ s with overflow := c ≠ newline }, [])
  else if nmeaMaxSize ≤ s.received.length then ({ received := [], overflow := true }, [])
  else if c = newline then ({ s with received := [] }, [s.received ++ [c]])
  else ({ s with received := s.received ++ [c] }, [])

def feed (s : Framer) : List UInt8 → Framer × List (List UInt8)
  | [] => (s, [])
  | c :: cs => ((feed (s.addc c).1 cs).1, (s.addc c).2 ++ (feed (s.addc c).1 cs).2)

/-- Between two lines; `swallow` says that the next one is lost. -/
def start (swallow : Bool) : Framer := { received := [], overflow := swallow }

/-- After the bytes of a line that has not ended. -/
def within (p : List UInt8) : Framer :=
  if p.length ≤ nmeaMaxSize then { received := p, overflow := false } else start true

end Framer

def NmeaReader.framer (r : NmeaReader F) : Framer :=
  { received := r.received, overflow := r.overflow }

namespace NmeaReader

variable {libc : Libc F} {now : Int} {r : NmeaReader F}

@[simp] theorem dateOrToday_framer : (r.dateOrToday libc now).framer = r.framer := by
  unfold dateOrToday
  split <;> rfl

@[simp] theorem updateTime_framer (tok : Token) :
    (updateTime libc now r tok).framer = r.framer := by
  unfold updateTime
  split
  · rfl
  · exact dateOrToday_framer

@[simp] theorem updateDate_framer (date time : Token) :
    (updateDate libc now r date time).framer = r.framer := by
  unfold updateDate
  split
  · rfl
  · dsimp only
    split
    · rfl
    · exact updateTime_framer time

@[simp] theorem updateLatlong_framer (latitude longitude : Token) (latHemi lonHemi : UInt8) :
    (updateLatlong libc r latitude latHemi longitude lonHemi).framer = r.framer := by
  unfold updateLatlong
  split
  · rfl
  · dsimp only
    split <;> rfl

@[simp] theorem updateAltitude_framer (altitude : Token) :
    (updateAltitude libc r altitude).framer = r.framer := by
  unfold updateAltitude
  split <;> rfl

@[simp] theorem updateBearing_framer (bearing : Token) :
    (updateBearing libc r bearing).framer = r.framer := by
  unfold updateBearing
  split <;> rfl

@[simp] theorem updateSpeed_framer (speed : Token) :
    (updateSpeed libc r speed).framer = r.framer := by
  unfold updateSpeed
  split <;> rfl

@[simp] theorem parseFields_framer (tzer : NmeaTokenizer) :
    (parseFields libc now r tzer).framer = r.framer := by
  unfold parseFields
  split
  · simp [parseGga]
  · unfold parseRmc
    split
    · simp
    · rfl
  · rfl
  · rfl

@[simp] theorem deliver_framer : r.deliver.1.framer = r.framer := by
  unfold deliver
  split
  · rfl
  · split <;> rfl

@[simp] theorem deliver_sentences : sentences r.deliver.2 = [] := by
  unfold deliver
  split
  · rfl
  · split <;> rfl

theorem parse_framer (libc : Libc F) (now : Int) (r : NmeaReader F) :
    (parse libc now r).1.framer = r.framer := by
  unfold parse
  split
  · simp
  · rfl

theorem parse_sentences : sentences (parse libc now r).2 = [] := by
  unfold parse
  split
  · simp
  · rfl

theorem addc_framer (libc : Libc F) (now : Int) (r : NmeaReader F) (c : UInt8) :
    (r.addc libc now c).1.framer = (r.framer.addc c).1 ∧
    sentences (r.addc libc now c).2 = (r.framer.addc c).2 := by
  unfold addc Framer.addc
  by_cases hover : r.overflow = true
  · rw [if_pos hover, if_pos (show r.framer.overflow = true from hover)]
    exact ⟨rfl, rfl⟩
  · rw [if_neg hover, if_neg (show ¬ r.framer.overflow = true from hover)]
    by_cases hfull : nmeaMaxSize ≤ r.received.length
    · rw [dif_pos hfull, if_pos (show nmeaMaxSize ≤ r.framer.received.length from hfull)]
      exact ⟨rfl, rfl⟩
    · rw [dif_neg hfull, if_neg (show ¬ nmeaMaxSize ≤ r.framer.received.length from hfull)]
      dsimp only
      by_cases hc : c = newline
      · rw [if_pos hc, if_pos hc]
        refine ⟨?_, ?_⟩
        · have hsame := congrArg Framer.overflow (parse_framer libc now
            (r.setReceived (r.received ++ [c]) (push_length c hfull)))
          exact congrArg (Framer.mk []) hsame
        · exact congrArg (List.cons (r.received ++ [c])) parse_sentences
      · rw [if_neg hc, if_neg hc]
        exact ⟨rfl, rfl⟩

theorem setCallback_framer (cb : Option Nat) : (r.setCallback cb).1.framer = r.framer ∧
    sentences (r.setCallback cb).2 = [] := by
  unfold setCallback
  split
  · exact ⟨rfl, rfl⟩
  · split <;> exact ⟨rfl, rfl⟩

theorem sentences_append (es fs : List (Event F)) :
    sentences (es ++ fs) = sentences es ++ sentences fs :=
  List.filterMap_append

theorem run_sentences (r : NmeaReader F) (calls : List Call) :
    sentences (r.run libc calls).2 = (r.framer.feed (calls.flatMap Call.bytes)).2 := by
  induction calls generalizing r with
  | nil => rfl
  | cons call calls ih =>
      rw [run, sentences_append, ih, List.flatMap_cons]
      cases call with
      | addc now c =>
          obtain ⟨hstate, hout⟩ := addc_framer libc now r c
          rw [step, hstate, hout]
          rfl
      | setCallback cb =>
          obtain ⟨hstate, hout⟩ := setCallback_framer (r := r) cb
          rw [step, hstate, hout]
          rfl

end NmeaReader

/-! ## Lines -/

theorem lines_of_notMem {tail : List UInt8} (h : newline ∉ tail) : lines tail = [] := by
  rw [lines, List.splitOn_eq_singleton h]
  rfl

theorem lines_line {line rest : List UInt8} (h : newline ∉ line) :
    lines (line ++ newline :: rest) = (line ++ [newline]) :: lines rest := by
  rw [lines, List.splitOn_append_cons_self_of_not_mem h,
    List.dropLast_cons_of_ne_nil (List.splitOn_ne_nil _ _), List.map_cons]
  rfl

namespace Framer

/-- What is parsed of the lines; `swallow` says that the first one is lost. -/
def parsed : Bool → List (List UInt8) → List (List UInt8)
  | _, [] => []
  | true, _ :: ls => parsed false ls
  | false, l :: ls =>
      if l.length ≤ nmeaMaxSize then l :: parsed false ls
      else parsed (l.length = nmeaMaxSize + 1) ls

theorem within_nil : within [] = start false := rfl

theorem within_addc (p : List UInt8) {c : UInt8} (hc : c ≠ newline) :
    (within p).addc c = (within (p ++ [c]), []) := by
  have hlength : (p ++ [c]).length = p.length + 1 := by simp
  grind [within, addc, start]

theorem feed_within (p : List UInt8) {q : List UInt8} (hq : newline ∉ q) (rest : List UInt8) :
    (within p).feed (q ++ rest) = (within (p ++ q)).feed rest := by
  induction q generalizing p with
  | nil => rw [List.nil_append, List.append_nil]
  | cons c q ih =>
      have hc : c ≠ newline := fun heq => hq (heq ▸ List.mem_cons_self)
      have hrest : newline ∉ q := fun hmem => hq (List.mem_cons_of_mem c hmem)
      rw [List.cons_append, feed, within_addc p hc, ih _ hrest, List.append_assoc]
      rfl

theorem feed_swallow {q : List UInt8} (hq : newline ∉ q) (rest : List UInt8) :
    (start true).feed (q ++ rest) = (start true).feed rest := by
  induction q with
  | nil => rfl
  | cons c q ih =>
      have hc : c ≠ newline := fun heq => hq (heq ▸ List.mem_cons_self)
      have hrest : newline ∉ q := fun hmem => hq (List.mem_cons_of_mem c hmem)
      have hstep : (start true).addc c = (start true, []) := by
        simp [addc, start, hc]
      rw [List.cons_append, feed, hstep, ih hrest]
      rfl

theorem within_newline (line : List UInt8) : (within line).addc newline =
    if (line ++ [newline]).length ≤ nmeaMaxSize then (start false, [line ++ [newline]])
    else (start ((line ++ [newline]).length = nmeaMaxSize + 1), []) := by
  rw [List.length_append, List.length_singleton]
  obtain hlt | heq | hgt := Nat.lt_trichotomy line.length nmeaMaxSize
  · grind [within, addc, start]
  · simp [within, addc, start, heq]
  · have hnext : ¬ line.length + 1 ≤ nmeaMaxSize := by omega
    have hne : ¬ line.length = nmeaMaxSize := by omega
    grind [within, addc, start]

theorem feed_lines (stream : List UInt8) (swallow : Bool) :
    ((start swallow).feed stream).2 = parsed swallow (lines stream) := by
  induction stream using Separators.piece_induction newline generalizing swallow with
  | last tail htail =>
      rw [lines_of_notMem htail, ← List.append_nil tail]
      cases swallow with
      | true => rw [feed_swallow htail]; rfl
      | false => rw [← within_nil, feed_within [] htail]; rfl
  | more line rest hline ih =>
      rw [lines_line hline]
      cases swallow with
      | true =>
          rw [feed_swallow hline, feed]
          exact ih false
      | false =>
          rw [← within_nil, feed_within [] hline, List.nil_append, feed, within_newline, parsed]
          grind

/-! ## Lines that are lost -/

/-- Whether the line behind some lines is lost. -/
def swallows (swallow : Bool) (front : List (List UInt8)) : Bool :=
  front.foldl (fun s l => !s && l.length = nmeaMaxSize + 1) swallow

theorem parsed_length_le (swallow : Bool) (ls : List (List UInt8)) :
    (parsed swallow ls).length ≤ (ls.filter (·.length ≤ nmeaMaxSize)).length := by
  induction ls generalizing swallow with
  | nil => exact Nat.le_of_eq rfl
  | cons l ls ih =>
      cases swallow with
      | true => grind [parsed]
      | false => grind [parsed]

theorem split_cons_iff {l : List UInt8} {ls : List (List UInt8)}
    {P : List (List UInt8) → List UInt8 → Prop} :
    (∀ front line back, l :: ls = front ++ line :: back → P front line) ↔
      P [] l ∧ ∀ front line back, ls = front ++ line :: back → P (l :: front) line := by
  constructor
  · intro h
    exact ⟨h [] l ls rfl, fun front line back heq => h (l :: front) line back (heq ▸ rfl)⟩
  · rintro ⟨hfirst, hrest⟩ front line back heq
    cases front with
    | nil => grind
    | cons f front => grind

/-- All lines that fit are parsed if and only if none of them is lost. -/
theorem parsed_eq_iff (swallow : Bool) (ls : List (List UInt8)) :
    parsed swallow ls = ls.filter (·.length ≤ nmeaMaxSize) ↔
      ∀ front line back, ls = front ++ line :: back → line.length ≤ nmeaMaxSize →
        swallows swallow front = false := by
  induction ls generalizing swallow with
  | nil => simp [parsed]
  | cons l ls ih =>
      rw [split_cons_iff (P := fun front line => line.length ≤ nmeaMaxSize →
        swallows swallow front = false)]
      cases swallow with
      | true =>
          have hnext : ∀ front, swallows true (l :: front) = swallows false front := fun _ => rfl
          simp only [hnext, ← ih false]
          rw [parsed]
          by_cases hfits : l.length ≤ nmeaMaxSize
          · rw [List.filter_cons_of_pos (by simpa using hfits)]
            constructor
            · grind [parsed_length_le]
            · rintro ⟨hlost, -⟩
              exact absurd (hlost hfits) (by decide)
          · grind
      | false =>
          have hnext : ∀ front, swallows false (l :: front) =
              swallows (l.length = nmeaMaxSize + 1) front := fun _ => by
            simp [swallows]
          simp only [hnext, ← ih]
          have hfirst : l.length ≤ nmeaMaxSize → swallows false [] = false := fun _ => rfl
          rw [parsed]
          by_cases hfits : l.length ≤ nmeaMaxSize
          · have hne : decide (l.length = nmeaMaxSize + 1) = false :=
              decide_eq_false (by omega)
            grind
          · grind

/-- A line is lost behind an odd number of lines of 84 bytes. -/
theorem swallows_false (front : List (List UInt8)) :
    swallows false front = decide (limitRun front % 2 = 1) := by
  induction front using List.reverseRecOn with
  | nil => rfl
  | append_singleton front l ih =>
      have hsnoc : swallows false (front ++ [l]) =
          (!swallows false front && l.length = nmeaMaxSize + 1) := by
        rw [swallows, List.foldl_append]
        rfl
      rw [hsnoc, ih]
      unfold limitRun
      rw [List.reverse_append, List.reverse_singleton, List.singleton_append]
      grind [List.takeWhile_cons_of_pos, List.takeWhile_cons_of_neg]

end Framer

/-- Eighty-three bytes and a newline, and a short sentence behind them. -/
def limitStream : List UInt8 :=
  List.replicate nmeaMaxSize 65 ++ newline :: CString.literal "$GPGSA,A\n"

/-- The parsed sentences are the lines of at most 83 bytes if and only if none of these is
directly behind an odd number of lines of exactly 84 bytes. -/
theorem sentences_iff (libc : Libc F) (now : Int) (calls : List Call) :
    sentences ((NmeaReader.init libc now).run libc calls).2 =
        (lines (calls.flatMap Call.bytes)).filter (·.length ≤ nmeaMaxSize) ↔
      ∀ front line back, lines (calls.flatMap Call.bytes) = front ++ line :: back →
        line.length ≤ nmeaMaxSize → limitRun front % 2 = 0 := by
  have hstart : (NmeaReader.init libc now).framer = Framer.start false := rfl
  have heven : ∀ n : Nat, decide (n % 2 = 1) = false ↔ n % 2 = 0 := by
    intro n
    rw [decide_eq_false_iff_not]
    omega
  rw [NmeaReader.run_sentences, hstart, Framer.feed_lines, Framer.parsed_eq_iff]
  simp only [Framer.swallows_false, heven]

/-- The short sentence fits, and no sentence is parsed. -/
theorem limitLine_swallows :
    sentences ((NmeaReader.init utcLibc 0).run utcLibc (limitStream.map (Call.addc 0))).2 = [] ∧
      (lines limitStream).filter (·.length ≤ nmeaMaxSize) = [CString.literal "$GPGSA,A\n"] := by
  decide +kernel

end AndroidRenderer.Gps
