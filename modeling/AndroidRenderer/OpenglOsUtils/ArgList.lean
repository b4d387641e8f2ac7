import Mathlib.Data.List.Induction

/-!
# Splitting a command line

`buildArgList` cuts a copy of the command at the blanks outside of quotes, and collects where the
arguments start. At the end of a quoted section it lets the argument start at the quote, whatever
came before it in the same word; and it takes the start of the command for that of an argument,
even where there is a blank.
-/

namespace AndroidRenderer.OpenglOsUtils

/-- A single or double quote. -/
def isQuote (char : Char) : Bool := char.toNat == 39 || char.toNat == 34

def isBlank (char : Char) : Bool := char == ' ' || char == '\t'

/-! ## `buildArgList` -/

/-- The variables of the loop: `tmpcmd` is `done` up to `i`, with `none` for the cuts, and as it was
from there. -/
structure ArgScan where
  done : List (Option Char)
  t : Option Nat
  strStart : Option Nat
  argv : List (Option Nat)
  argvSize : Nat
  deriving DecidableEq, Repr

namespace ArgScan

def initial : ArgScan := ⟨[], some 0, none, [], 0⟩

/-- `ADD_ARG`; it has no result where it stores behind the array. -/
def ADD_ARG (s : ArgScan) : Option ArgScan :=
  let nArgs := s.argv.length + 1
  let argvSize := if s.argvSize = 0 then 12 else if s.argvSize < nArgs then s.argvSize + 12
    else s.argvSize
  if nArgs - 1 < argvSize then
    some { s with argv := s.argv ++ [s.t], argvSize := argvSize, t := none }
  else none

/-- A turn of the loop; `char` is `tmpcmd[i]`. -/
def turn (s : ArgScan) (char : Char) : Option ArgScan :=
  let i := s.done.length
  match s.strStart with
  | none =>
      if isQuote char then some { s with strStart := some i, done := s.done ++ [some char] }
      else if isBlank char then
        let s := { s with done := s.done ++ [none] }
        if s.t.isSome then s.ADD_ARG else some s
      else some { s with t := s.t.or (some i), done := s.done ++ [some char] }
  | some strStart =>
      if s.done[strStart]? = some (some char) then
        some { s with t := some strStart, strStart := none, done := s.done ++ [some char] }
      else some { s with done := s.done ++ [some char] }

/-- What follows the loop. -/
def finish (s : ArgScan) : Option ArgScan := do
  let s ← if s.t.isSome then s.ADD_ARG else some s
  if 0 < s.argv.length then s.ADD_ARG else some s

end ArgScan

/-- `buildArgList`, with the cut command that the arguments point into. -/
def buildArgList (command : List Char) : Option (List (Option Nat) × List (Option Char)) := do
  let s ← command.foldlM ArgScan.turn ArgScan.initial
  let s ← s.finish
  return (s.argv, s.done)

/-- The string at a position of the cut command. -/
def argText (done : List (Option Char)) (p : Nat) : List Char :=
  ((done.drop p).takeWhile Option.isSome).filterMap id

/-! ## Words of a command -/

inductive Kind
  | blank
  | opening
  | closing
  | content
  deriving DecidableEq, Repr

/-- A character of a command with what it is there. -/
structure Mark where
  char : Char
  kind : Kind
  pos : Nat
  deriving DecidableEq, Repr

/-- What a character is behind an opening quote, or outside of quotes. -/
def kindOf : Option Char → Char → Kind
  | none, char => if isQuote char then .opening else if isBlank char then .blank else .content
  | some quote, char => if char = quote then .closing else .content

def quoteAfter : Option Char → Char → Option Char
  | none, char => if isQuote char then some char else none
  | some quote, char => if char = quote then none else some quote

def marks : Option Char → Nat → List Char → List Mark
  | _, _, [] => []
  | quote, i, char :: rest =>
      ⟨char, kindOf quote char, i⟩ :: marks (quoteAfter quote char) (i + 1) rest

def Balanced (command : List Char) : Prop := command.foldl quoteAfter none = none

instance (command : List Char) : Decidable (Balanced command) := inferInstanceAs (Decidable (_ = _))

/-- The longest parts without blanks outside of quotes; `word` is the part before. -/
def wordsFrom (word : List Mark) : List Mark → List (List Mark)
  | [] => if word = [] then [] else [word]
  | m :: rest =>
      if m.kind = .blank then
        if word = [] then wordsFrom [] rest else word :: wordsFrom [] rest
      else wordsFrom (word ++ [m]) rest

def wordsOf (command : List Char) : List (List Mark) := wordsFrom [] (marks none 0 command)

/-- The characters that are not quotes. -/
def contentOf (ms : List Mark) : List Mark := ms.filter (·.kind = .content)

def argument (command : List Char) (done : List (Option Char)) (p : Nat) : List Mark :=
  ((marks none 0 command).drop p).take (argText done p).length

/-- The list has an argument for each word, which is not empty and has its content, and ends with
`NULL`. -/
def Splits (command : List Char) : Prop :=
  ∃ (starts : List Nat) (done : List (Option Char)),
    buildArgList command = some (starts.map some ++ [none], done) ∧
    (∀ p ∈ starts, argText done p ≠ [] ∧
      argText done p = (argument command done p).map Mark.char) ∧
    starts.map (fun p => contentOf (argument command done p)) = (wordsOf command).map contentOf

/-- What is left of a word from its last opening quote on. -/
def lastFrom (word : List Mark) : List Mark :=
  word.foldl (fun part m => if m.kind = .opening then [m] else part ++ [m]) []

def startOf (word : List Mark) : Option Nat := (lastFrom word).head?.map Mark.pos

def start (word : List Mark) : Nat := (startOf word).getD 0

/-- The text that is in no argument is not content. -/
def KeepsContent (word : List Mark) : Prop := contentOf (lastFrom word) = contentOf word

instance (word : List Mark) : Decidable (KeepsContent word) := inferInstanceAs (Decidable (_ = _))

/-! ## Parts of words -/

theorem lastFrom_concat (word : List Mark) (m : Mark) :
    lastFrom (word ++ [m]) = if m.kind = .opening then [m] else lastFrom word ++ [m] := by
  rw [lastFrom, List.foldl_append]
  rfl

theorem lastFrom_suffix (word : List Mark) : ∃ front, word = front ++ lastFrom word := by
  induction word using List.reverseRecOn with
  | nil => exact ⟨[], rfl⟩
  | append_singleton word m ih =>
      obtain ⟨front, hfront⟩ := ih
      rw [lastFrom_concat]
      split
      · exact ⟨word, rfl⟩
      · exact ⟨front, by rw [← List.append_assoc, ← hfront]⟩

theorem startOf_concat (word : List Mark) (m : Mark) :
    startOf (word ++ [m]) =
      if m.kind = .opening then some m.pos else (startOf word).or (some m.pos) := by
  rw [startOf, lastFrom_concat]
  split
  · rfl
  · rw [startOf, List.head?_append, List.head?_cons]
    cases (lastFrom word).head? <;> rfl

theorem startOf_eq_none {word : List Mark} : startOf word = none ↔ word = [] := by
  induction word using List.reverseRecOn with
  | nil => simp [startOf, lastFrom]
  | append_singleton word m _ =>
      rw [startOf_concat]
      split <;> cases startOf word <;> simp

/-- The blanks outside of quotes. -/
theorem kindOf_eq_blank {char : Char} :
    kindOf none char = .blank ↔ isQuote char = false ∧ isBlank char = true := by
  cases hquote : isQuote char <;> cases hblank : isBlank char <;> simp [kindOf, hquote, hblank]

/-! ## The loop -/

namespace ArgScan

variable {s : ArgScan}

theorem ADD_ARG_eq (h : s.argv.length ≤ s.argvSize) :
    ∃ argvSize,
      s.ADD_ARG = some { s with argv := s.argv ++ [s.t], argvSize := argvSize, t := none } ∧
      s.argv.length + 1 ≤ argvSize := by
  unfold ADD_ARG
  dsimp only
  rw [if_pos (by split_ifs <;> omega)]
  exact ⟨_, rfl, by split_ifs <;> omega⟩

/-- The variables agree with the word that has been read in part. -/
structure Agrees (s : ArgScan) (quote : Option Char) (word : List Mark) : Prop where
  room : s.argv.length ≤ s.argvSize
  outside : quote = none → s.strStart = none ∧ s.t = startOf word
  inside : ∀ char, quote = some char →
    ∃ p, s.strStart = some p ∧ s.done[p]? = some (some char) ∧ startOf word = some p

def cut (ms : List Mark) : List (Option Char) :=
  ms.map fun m => if m.kind = .blank then none else some m.char

variable {quote : Option Char}

theorem Agrees.turn {word : List Mark} (h : Agrees s quote word) (char : Char)
    (hchar : kindOf quote char ≠ .blank) :
    ∃ s', s.turn char = some s' ∧ s'.argv = s.argv ∧ s'.done = s.done ++ [some char] ∧
      Agrees s' (quoteAfter quote char)
        (word ++ [⟨char, kindOf quote char, s.done.length⟩]) := by
  obtain ⟨hroom, houtside, hinside⟩ := h
  cases quote with
  | none =>
      obtain ⟨hstr, ht⟩ := houtside rfl
      simp only [ArgScan.turn, hstr, kindOf, quoteAfter] at hchar ⊢
      split
      · refine ⟨_, rfl, rfl, rfl, hroom, by simp, fun _ hquote => ⟨_, rfl, ?_, ?_⟩⟩
        · simpa using hquote
        · rw [startOf_concat, if_pos rfl]
      · rename_i hquote
        rw [if_neg hquote] at hchar
        have hblank : isBlank char = false := by
          by_contra hblank
          exact hchar (if_pos (by simpa using hblank))
        rw [if_neg (by simp [hblank])]
        refine ⟨_, rfl, rfl, rfl, hroom, fun _ => ⟨rfl, ?_⟩, by simp⟩
        rw [startOf_concat, if_neg (by simp [hblank]), ht]
  | some quote =>
      obtain ⟨p, hstr, hget, hstart⟩ := hinside quote rfl
      have hlt : p < s.done.length := (List.getElem?_eq_some_iff.mp hget).1
      have hstart' : ∀ kind, kind ≠ .opening →
          startOf (word ++ [⟨char, kind, s.done.length⟩]) = some p := fun kind hkind => by
        rw [startOf_concat, if_neg hkind, hstart, Option.some_or]
      simp only [ArgScan.turn, hstr, hget, kindOf, quoteAfter, Option.some.injEq,
        eq_comm (a := quote)]
      split
      · exact ⟨_, rfl, rfl, rfl, hroom, fun _ => ⟨rfl, (hstart' _ (by decide)).symm⟩, by simp⟩
      · refine ⟨_, rfl, rfl, rfl, hroom, by simp, fun char' hchar' =>
          ⟨p, rfl, ?_, hstart' _ (by decide)⟩⟩
        rw [List.getElem?_append_left hlt, hget, hchar']

theorem Agrees.blank {word : List Mark} (h : Agrees s quote word)
    (char : Char) (hchar : kindOf quote char = .blank) :
    quoteAfter quote char = none ∧ ∃ s', s.turn char = some s' ∧
      s'.argv = s.argv ++ ((startOf word).map some).toList ∧ s'.done = s.done ++ [none] ∧
      Agrees s' none [] := by
  cases quote with
  | some quote =>
      rw [kindOf] at hchar
      split at hchar <;> cases hchar
  | none =>
      obtain ⟨hstr, ht⟩ := h.outside rfl
      obtain ⟨hquote, hblank⟩ := kindOf_eq_blank.mp hchar
      refine ⟨by simp [quoteAfter, hquote], ?_⟩
      simp only [ArgScan.turn, hstr, hquote, hblank, if_true, Bool.false_eq_true, if_false]
      cases hstart : startOf word with
      | none =>
          have hnone : s.t = none := ht.trans hstart
          simp only [hnone, Option.isSome_none, Bool.false_eq_true, if_false]
          exact ⟨_, rfl, by simp, rfl, h.room, fun _ => ⟨rfl, rfl⟩, by simp⟩
      | some p =>
          have hsome : s.t = some p := ht.trans hstart
          obtain ⟨argvSize, hadd, hroom⟩ :=
            ADD_ARG_eq (s := { s with done := s.done ++ [none] }) h.room
          simp only [hsome, hstr, Option.isSome_some, if_true] at hadd ⊢
          exact ⟨_, hadd, rfl, rfl, ⟨by simpa using hroom, fun _ => ⟨rfl, rfl⟩, by simp⟩⟩

theorem Agrees.loop {word : List Mark} (h : Agrees s quote word)
    (rest : List Char) (hbalanced : rest.foldl quoteAfter quote = none) :
    ∃ s', rest.foldlM ArgScan.turn s = some s' ∧
      s'.argv ++ (s'.t.map some).toList = s.argv ++
        (wordsFrom word (marks quote s.done.length rest)).map startOf ∧
      s'.done = s.done ++ cut (marks quote s.done.length rest) ∧
      s'.argv.length ≤ s'.argvSize := by
  induction rest generalizing s quote word with
  | nil =>
      obtain ⟨-, ht⟩ := h.outside hbalanced
      refine ⟨s, rfl, ?_, by simp [marks, cut], h.room⟩
      rw [ht, marks, wordsFrom]
      split
      · rename_i hnil
        simp [startOf_eq_none.mpr hnil]
      · rename_i hne
        cases hstart : startOf word with
        | none => exact absurd (startOf_eq_none.mp hstart) hne
        | some p => simp [hstart]
  | cons char rest ih =>
      rw [List.foldl_cons] at hbalanced
      rw [List.foldlM_cons, marks, wordsFrom]
      by_cases hchar : kindOf quote char = .blank
      · obtain ⟨hquote, s₁, hturn, hargv, hdone, hagrees⟩ := h.blank char hchar
        rw [hquote] at hbalanced
        obtain ⟨s', hloop, hstarts, hdone', hroom⟩ := ih hagrees hbalanced
        rw [hturn, hquote]
        refine ⟨s', hloop, ?_, ?_, hroom⟩
        · rw [hstarts, hargv, hdone, List.length_append, List.length_singleton, if_pos hchar]
          cases hstart : startOf word with
          | none => simp [startOf_eq_none.mp hstart]
          | some p =>
              have hne : word ≠ [] := fun hnil => by simp [startOf_eq_none.mpr hnil] at hstart
              simp [hne, hstart]
        · rw [hdone', hdone]
          simp [cut, hchar]
      · obtain ⟨s₁, hturn, hargv, hdone, hagrees⟩ := h.turn char hchar
        obtain ⟨s', hloop, hstarts, hdone', hroom⟩ := ih hagrees hbalanced
        rw [hturn]
        refine ⟨s', hloop, ?_, ?_, hroom⟩
        · rw [hstarts, hargv, hdone, List.length_append, List.length_singleton, if_neg hchar]
        · rw [hdone', hdone]
          simp [cut, hchar]

/-- What is added behind the loop. -/
theorem finish_eq (h : s.argv.length ≤ s.argvSize) (hne : s.argv ++ (s.t.map some).toList ≠ []) :
    ∃ s', s.finish = some s' ∧ s'.argv = s.argv ++ (s.t.map some).toList ++ [none] ∧
      s'.done = s.done := by
  unfold finish
  cases ht : s.t with
  | none =>
      obtain ⟨argvSize, hadd, -⟩ := ADD_ARG_eq h
      have hpos : 0 < s.argv.length := List.length_pos_iff.mpr (by simpa [ht] using hne)
      simp only [Option.isSome_none, Bool.false_eq_true, if_false, Option.bind_eq_bind,
        Option.bind_some, if_pos hpos, hadd, ht]
      exact ⟨_, rfl, by simp, rfl⟩
  | some p =>
      obtain ⟨argvSize, hadd, hroom⟩ := ADD_ARG_eq h
      obtain ⟨argvSize', hadd', -⟩ := ADD_ARG_eq
        (s := { s with argv := s.argv ++ [s.t], argvSize := argvSize, t := none })
        (by simpa using hroom)
      simp only [Option.isSome_some, if_true, hadd, Option.bind_eq_bind, Option.bind_some]
      rw [if_pos (by simp), hadd']
      exact ⟨_, rfl, by simp [ht], rfl⟩

end ArgScan

/-! ## The arguments -/

theorem wordsFrom_ne_nil {word : List Mark} (h : word ≠ []) (rest : List Mark) :
    wordsFrom word rest ≠ [] := by
  induction rest generalizing word with
  | nil => simp [wordsFrom, h]
  | cons m rest ih =>
      rw [wordsFrom]
      split_ifs
      · exact List.cons_ne_nil _ _
      · exact ih (by simp)

/-- A word lies between blanks or ends of the command. -/
theorem wordsFrom_spec {word : List Mark} (hword : ∀ m ∈ word, m.kind ≠ .blank) (rest : List Mark) :
    ∀ w ∈ wordsFrom word rest, ∃ front back, word ++ rest = front ++ (w ++ back) ∧ w ≠ [] ∧
      (∀ m ∈ w, m.kind ≠ .blank) ∧ ∀ m ∈ back.head?, m.kind = .blank := by
  induction rest generalizing word with
  | nil =>
      intro w hw
      rw [wordsFrom] at hw
      split at hw
      · cases hw
      · obtain rfl := List.mem_singleton.mp hw
        exact ⟨[], [], by simp, ‹_›, hword, by simp⟩
  | cons m rest ih =>
      intro w hw
      rw [wordsFrom] at hw
      have hafter : w ∈ wordsFrom [] rest → ∃ front back, word ++ m :: rest = front ++ (w ++ back) ∧
          w ≠ [] ∧ (∀ m ∈ w, m.kind ≠ .blank) ∧ ∀ m ∈ back.head?, m.kind = .blank := by
        intro hw
        obtain ⟨front, back, heq, hspec⟩ := @ih [] (by simp) w hw
        exact ⟨word ++ m :: front, back, by rw [List.nil_append] at heq; simp [heq], hspec⟩
      split at hw
      · rename_i hblank
        split at hw
        · exact hafter hw
        · rcases List.mem_cons.mp hw with rfl | hw
          · exact ⟨[], m :: rest, by simp, ‹_›, hword, by simpa using hblank⟩
          · exact hafter hw
      · rename_i hblank
        obtain ⟨front, back, heq, hspec⟩ := @ih (word ++ [m])
          (by simpa [or_imp, forall_and] using ⟨hword, hblank⟩) w hw
        exact ⟨front, back, by simpa using heq, hspec⟩

variable {command : List Char}

theorem marks_pos {quote : Option Char} {i k : Nat} {m : Mark}
    (h : (marks quote i command)[k]? = some m) : m.pos = i + k := by
  induction command generalizing quote i k with
  | nil => simp [marks] at h
  | cons char rest ih =>
      rw [marks] at h
      cases k with
      | zero =>
          cases h
          rfl
      | succ k =>
          have := ih h
          omega

/-- The argument for a word is its part from the last opening quote on. -/
theorem argument_word {w : List Mark} (hw : w ∈ wordsOf command) :
    startOf w = some (start w) ∧
      argText (ArgScan.cut (marks none 0 command)) (start w) = (lastFrom w).map Mark.char ∧
      argument command (ArgScan.cut (marks none 0 command)) (start w) = lastFrom w ∧
      lastFrom w ≠ [] := by
  obtain ⟨front, back, heq, hne, hkinds, hback⟩ := wordsFrom_spec (by simp) _ w hw
  obtain ⟨front', hfront⟩ := lastFrom_suffix w
  rw [List.nil_append] at heq
  cases hlast : lastFrom w with
  | nil => exact absurd (startOf_eq_none.mp (by simp [startOf, hlast])) hne
  | cons m part =>
      rw [hlast] at hfront
      have hms : marks none 0 command = (front ++ front') ++ ((m :: part) ++ back) := by
        rw [heq, hfront]
        simp
      have hpos : m.pos = (front ++ front').length := by
        have hget : (marks none 0 command)[(front ++ front').length]? = some m := by
          rw [hms, List.getElem?_append_right (Nat.le_refl _), Nat.sub_self]
          rfl
        simpa using marks_pos hget
      have hpart : ∀ m' ∈ m :: part, m'.kind ≠ .blank := fun m' hm' =>
        hkinds m' (hfront ▸ List.mem_append_right front' hm')
      have htext : argText (ArgScan.cut (marks none 0 command)) m.pos =
          (m :: part).map Mark.char := by
        have hsolid : ArgScan.cut (m :: part) = (m :: part).map fun m => some m.char :=
          List.map_congr_left fun m' hm' => if_neg (hpart m' hm')
        rw [argText, hpos, hms, ArgScan.cut, List.map_append, List.drop_left' (by simp),
          List.map_append, ← ArgScan.cut, hsolid, List.takeWhile_append_of_pos (by simp)]
        have hend : (ArgScan.cut back).takeWhile Option.isSome = [] := by
          cases back with
          | nil => rfl
          | cons m' back => simp [ArgScan.cut, hback m' rfl]
        rw [← ArgScan.cut, hend, List.append_nil, List.filterMap_map]
        simp
      have hstart : start w = m.pos := by simp [start, startOf, hlast]
      rw [hstart]
      refine ⟨by simp [startOf, hlast], htext, ?_, by simp⟩
      rw [argument, htext, hpos, hms, List.drop_left, List.length_map, List.take_left]

theorem isQuote_of_isBlank {char : Char} (h : isBlank char = true) : isQuote char = false := by
  simp only [isBlank, Bool.or_eq_true, beq_iff_eq] at h
  rcases h with rfl | rfl <;> decide

/-- The first turn takes the start of the command for that of an argument. -/
theorem ArgScan.turn_initial (char : Char) :
    ∃ s, initial.turn char = some s ∧ s.done.length = 1 ∧
      s.done = cut [⟨char, kindOf none char, 0⟩] ∧
      s.Agrees (quoteAfter none char)
        (if kindOf none char = .blank then [] else [⟨char, kindOf none char, 0⟩]) ∧
      s.argv = if isBlank char then [some 0] else [] := by
  cases hquote : isQuote char with
  | true =>
      have hblank : isBlank char = false := by
        cases hblank : isBlank char with
        | false => rfl
        | true => exact absurd hquote (by simp [isQuote_of_isBlank hblank])
      refine ⟨{ initial with strStart := some 0, done := [some char] },
        by simp [turn, initial, hquote], rfl, by simp [cut, kindOf, hquote], ?_,
        by simp [initial, hblank]⟩
      simp only [quoteAfter, kindOf, hquote, if_true]
      exact ⟨by simp [initial], by simp, fun _ hquote => ⟨0, rfl, by simpa using hquote, rfl⟩⟩
  | false =>
      cases hblank : isBlank char with
      | true =>
          refine ⟨⟨[none], none, none, [some 0], 12⟩,
            by simp [turn, initial, hquote, hblank, ADD_ARG], rfl,
            by simp [cut, kindOf, hquote, hblank], ?_, by simp⟩
          simp only [quoteAfter, kindOf, hquote, hblank, if_true, Bool.false_eq_true, if_false]
          exact ⟨by simp, fun _ => ⟨rfl, rfl⟩, by simp⟩
      | false =>
          refine ⟨{ initial with done := [some char] }, by simp [turn, initial, hquote, hblank],
            rfl, by simp [cut, kindOf, hquote, hblank], ?_, by simp [initial]⟩
          simp only [quoteAfter, kindOf, hquote, hblank, Bool.false_eq_true, if_false]
          exact ⟨by simp [initial], fun _ => ⟨rfl, rfl⟩, by simp⟩

/-- Where the arguments of a command start, the first of them at the start of a command that begins
with a blank or is empty. -/
theorem buildArgList_eq (hbalanced : Balanced command) :
    buildArgList command = some
      (((if (command.head?.any (!isBlank ·)) = true then [] else [0]) ++
          (wordsOf command).map start).map some ++ [none],
        ArgScan.cut (marks none 0 command)) := by
  cases command with
  | nil => rfl
  | cons char rest =>
      rw [Balanced, List.foldl_cons] at hbalanced
      obtain ⟨s, hturn, hlen, hdone, hagrees, hargv⟩ := ArgScan.turn_initial char
      obtain ⟨s', hloop, hpos, hcut, hroom⟩ := hagrees.loop rest hbalanced
      have hwords : wordsOf (char :: rest) =
          wordsFrom (if kindOf none char = .blank then [] else [⟨char, kindOf none char, 0⟩])
            (marks (quoteAfter none char) 1 rest) := by
        rw [wordsOf, marks, wordsFrom]
        split <;> simp
      rw [hlen, ← hwords] at hpos
      have hstarts : (wordsOf (char :: rest)).map startOf =
          ((wordsOf (char :: rest)).map start).map some := by
        rw [List.map_map]
        exact List.map_congr_left fun w hw => (argument_word hw).1
      have hne : s'.argv ++ (s'.t.map some).toList ≠ [] := by
        rw [hpos, hargv, hwords]
        cases hblank : isBlank char with
        | true => simp
        | false =>
            have hkind : kindOf none char ≠ .blank := fun h => by
              simp [(kindOf_eq_blank.mp h).2] at hblank
            rw [if_neg hkind]
            simp [wordsFrom_ne_nil]
      obtain ⟨s'', hfinish, hargv', hdone'⟩ := ArgScan.finish_eq hroom hne
      have hlist : s''.argv =
          ((if ((char :: rest).head?.any (!isBlank ·)) = true then [] else [0]) ++
          (wordsOf (char :: rest)).map start).map some ++ [none] := by
        rw [hargv', hpos, hargv, hstarts, List.map_append]
        cases hblank : isBlank char <;> simp [hblank]
      have hcut' : s''.done = ArgScan.cut (marks none 0 (char :: rest)) := by
        rw [hlen] at hcut
        rw [hdone', hcut, hdone]
        rfl
      rw [buildArgList, List.foldlM_cons, hturn, ← hlist, ← hcut']
      change (rest.foldlM ArgScan.turn s >>= _) = _
      rw [hloop]
      change (s'.finish >>= _) = _
      rw [hfinish]
      rfl

/-- A command is split as its quotes and blanks say where it begins with no blank, and no word has
content before its last quoted section. -/
theorem splits_iff {command : List Char} (hbalanced : Balanced command) :
    Splits command ↔ (command.head?.any (!isBlank ·)) = true ∧
      ∀ word ∈ wordsOf command, KeepsContent word := by
  have heq := buildArgList_eq hbalanced
  have hcontents : ((wordsOf command).map start).map (fun p => contentOf
      (argument command (ArgScan.cut (marks none 0 command)) p)) =
      (wordsOf command).map fun w => contentOf (lastFrom w) := by
    rw [List.map_map]
    exact List.map_congr_left fun w hw => congrArg contentOf (argument_word hw).2.2.1
  constructor
  · rintro ⟨starts, done, hlist, htexts, hcontent⟩
    rw [heq] at hlist
    obtain ⟨hargv, rfl⟩ := Prod.mk.inj (Option.some.inj hlist)
    obtain rfl := (List.map_inj_right fun _ _ => Option.some.inj).mp
      (List.append_cancel_right hargv)
    have hhead : (command.head?.any (!isBlank ·)) = true := by
      by_contra hhead
      rw [if_neg hhead] at htexts
      refine (htexts 0 (by simp)).1 ?_
      cases command with
      | nil => rfl
      | cons char rest =>
          have hblank : isBlank char = true := by simpa using hhead
          have hkind := kindOf_eq_blank.mpr ⟨isQuote_of_isBlank hblank, hblank⟩
          simp [argText, ArgScan.cut, marks, hkind]
    rw [if_pos hhead, List.nil_append, hcontents] at hcontent
    exact ⟨hhead, List.map_inj_left.mp hcontent⟩
  · rintro ⟨hhead, hkeeps⟩
    rw [if_pos hhead] at heq
    refine ⟨_, _, heq, fun p hp => ?_, ?_⟩
    · obtain ⟨w, hw, rfl⟩ := List.mem_map.mp hp
      obtain ⟨-, htext, hargument, hne⟩ := argument_word hw
      exact ⟨by simpa [htext] using hne, htext.trans (congrArg _ hargument.symm)⟩
    · rw [List.nil_append, hcontents]
      exact List.map_congr_left hkeeps

theorem splits_iff_quoted : Splits "echo \x22a b\x22c".toList :=
  (splits_iff (by decide)).mpr (by decide)

/-- Text right before a quoted section is dropped. -/
theorem drops_option :
    Balanced "run -n\x22a b\x22".toList ∧ ¬Splits "run -n\x22a b\x22".toList := by
  refine ⟨by decide, fun ⟨starts, done, hlist, _, hcontent⟩ => ?_⟩
  have heq : buildArgList "run -n\x22a b\x22".toList = some ([0, 6].map some ++ [none],
      ArgScan.cut (marks none 0 "run -n\x22a b\x22".toList)) := by decide
  rw [heq] at hlist
  obtain ⟨hargv, rfl⟩ := Prod.mk.inj (Option.some.inj hlist)
  obtain rfl := (List.map_inj_right fun _ _ => Option.some.inj).mp
    (List.append_cancel_right hargv)
  exact absurd hcontent (by decide)

end AndroidRenderer.OpenglOsUtils
