import AndroidRenderer.Translator.ShaderParser

/-!
# Precision statements of a shader source

`Statement` is what GLSL takes for a precision statement: tokens with white space and comments
between them. The scanner knows other words: they begin with a letter and go up to the next
delimiter, through comments and punctuation.
-/

namespace AndroidRenderer.Translator

open CString

variable {s u out : List UInt8} {a b c i j k n : Nat}

/-! ## Comments -/

/-- What a character is in: the second one of a pair that begins or ends a comment is marked. -/
inductive Place
  | code
  | opensBlock
  | block
  | closesBlock
  | opensLine
  | line
  deriving DecidableEq, Repr

def place (s : List UInt8) : Nat → Place
  | 0 => .code
  | j + 1 =>
      match place s j with
      | .code =>
          if isPair s j 47 47 then .opensLine
          else if isPair s j 47 42 then .opensBlock
          else .code
      | .opensBlock => .block
      | .block => if isPair s j 42 47 then .closesBlock else .block
      | .closesBlock => .code
      | .opensLine => .line
      | .line => if charAt s j = 10 then .code else .line

/-- A character outside of comments. -/
def codeAt (s : List UInt8) (j : Nat) : Prop :=
  place s j = .code ∧ ¬isPair s j 47 47 ∧ ¬isPair s j 47 42

instance (s : List UInt8) (j : Nat) : Decidable (codeAt s j) :=
  inferInstanceAs (Decidable (_ ∧ _ ∧ _))

/-- The text with spaces for the comments. -/
def codeText (s : List UInt8) : List UInt8 :=
  (List.range s.length).map fun j => if codeAt s j then charAt s j else 32

/-! ## Statements -/

def isWordChar (c : UInt8) : Bool := isalnum c || c == 95

def qualifiers : List (List UInt8) := [literal "lowp", literal "mediump", literal "highp"]

def qualifierStart (u : List UInt8) (a : Nat) : Nat := skip isspace u (a + 9)

def qualifierEnd (u : List UInt8) (a : Nat) : Nat := skip isWordChar u (qualifierStart u a)

def typeStart (u : List UInt8) (a : Nat) : Nat := skip isspace u (qualifierEnd u a)

def typeEnd (u : List UInt8) (a : Nat) : Nat := skip isWordChar u (typeStart u a)

/-- The semicolon of a statement that begins at `a`. -/
def semicolon (u : List UInt8) (a : Nat) : Nat := skip isspace u (typeEnd u a)

/-- A precision statement in a text without comments. -/
structure StatementIn (u : List UInt8) (a : Nat) : Prop where
  precision : At (literal "precision") u a
  before : a = 0 ∨ isWordChar (charAt u (a - 1)) = false
  gap : a + 9 < qualifierStart u a
  qualifier : slice u (qualifierStart u a) (qualifierEnd u a) ∈ qualifiers
  typeGap : qualifierEnd u a < typeStart u a
  type : isalpha (charAt u (typeStart u a)) = true
  ends : charAt u (semicolon u a) = 59

/-- A precision statement from `a` up to `b`. -/
def Statement (s : List UInt8) (a b : Nat) : Prop :=
  StatementIn (codeText s) a ∧ b = semicolon (codeText s) a

def Covered (regions : List (Nat × Nat)) (j : Nat) : Prop := ∃ r ∈ regions, r.1 ≤ j ∧ j ≤ r.2

instance (regions : List (Nat × Nat)) (j : Nat) : Decidable (Covered regions j) :=
  inferInstanceAs (Decidable (∃ r ∈ regions, r.1 ≤ j ∧ j ≤ r.2))

/-- The text with spaces for the regions. -/
def blankAll (s : List UInt8) (regions : List (Nat × Nat)) : List UInt8 :=
  (List.range s.length).map fun j => if Covered regions j then 32 else charAt s j

instance (u : List UInt8) (a : Nat) : Decidable (StatementIn u a) :=
  decidable_of_iff
    (At (literal "precision") u a ∧ (a = 0 ∨ isWordChar (charAt u (a - 1)) = false) ∧
      a + 9 < qualifierStart u a ∧
      slice u (qualifierStart u a) (qualifierEnd u a) ∈ qualifiers ∧
      qualifierEnd u a < typeStart u a ∧ isalpha (charAt u (typeStart u a)) = true ∧
      charAt u (semicolon u a) = 59)
    ⟨fun ⟨h₁, h₂, h₃, h₄, h₅, h₆, h₇⟩ => ⟨h₁, h₂, h₃, h₄, h₅, h₆, h₇⟩,
      fun ⟨h₁, h₂, h₃, h₄, h₅, h₆, h₇⟩ => ⟨h₁, h₂, h₃, h₄, h₅, h₆, h₇⟩⟩

/-- The precision statements of a source, where they begin and end. -/
def statements (s : List UInt8) : List (Nat × Nat) :=
  ((List.range s.length).filter fun a => StatementIn (codeText s) a).map fun a =>
    (a, semicolon (codeText s) a)

/-- What is asked of the rewriting. -/
structure Omits (s out : List UInt8) : Prop where
  length : out.length = s.length
  changes : ∀ j, charAt out j ≠ charAt s j → ∃ a b, Statement s a b ∧ a ≤ j ∧ j ≤ b
  omitted : ∀ a b, ¬Statement out a b

/-! ## Words -/

/-- The words from `j` on, with the start of one that is not ended yet. -/
def wordsFrom (s : List UInt8) : Nat → Option Nat → Nat → List (Nat × Nat)
  | 0, _, _ => []
  | n + 1, t, j =>
      if codeAt s j then
        match t with
        | some i =>
            if isTokenDelimiter (charAt s j) then (i, j) :: wordsFrom s n none (j + 1)
            else wordsFrom s n t (j + 1)
        | none => wordsFrom s n (if isalpha (charAt s j) then some j else none) (j + 1)
      else wordsFrom s n t (j + 1)

/-- The words of a source: from a letter up to the next delimiter. -/
def words (s : List UInt8) : List (Nat × Nat) := wordsFrom s s.length none 0

/-- What has been read of a statement. -/
inductive Stage
  | precision
  | qualifier (a : Nat)
  | semicolon (a : Nat)

/-- The statements that words spell, where they begin and end. -/
def spelled (s : List UInt8) : Stage → List (Nat × Nat) → List (Nat × Nat)
  | _, [] => []
  | .precision, (i, j) :: ws =>
      if isToken (literal "precision") s i j then spelled s (.qualifier i) ws
      else spelled s .precision ws
  | .qualifier a, (i, j) :: ws =>
      if isQualifier s i j then spelled s (.semicolon a) ws else spelled s .precision ws
  | .semicolon a, (_, j) :: ws =>
      if charAt s j = 59 then (a, j) :: spelled s .precision ws else spelled s .precision ws

/-! ## The scanner reads the words -/

/-- The words from `c` on. -/
def wordsAt (s : List UInt8) (t : Option Nat) (c : Nat) : List (Nat × Nat) :=
  wordsFrom s (s.length - c) t c

theorem wordsAt_end {t : Option Nat} (h : s.length ≤ c) : wordsAt s t c = [] := by
  rw [wordsAt, Nat.sub_eq_zero_of_le h]
  rfl

theorem wordsAt_succ (t : Option Nat) (h : c < s.length) : wordsAt s t c =
    if codeAt s c then
      match t with
      | some i =>
          if isTokenDelimiter (charAt s c) then (i, c) :: wordsAt s none (c + 1)
          else wordsAt s t (c + 1)
      | none => wordsAt s (if isalpha (charAt s c) then some c else none) (c + 1)
    else wordsAt s t (c + 1) := by
  have hturns : s.length - c = s.length - (c + 1) + 1 := by omega
  rw [wordsAt, hturns]
  rfl

theorem wordsAt_comment (t : Option Nat) (h : ¬codeAt s c) :
    wordsAt s t c = wordsAt s t (c + 1) := by
  by_cases hc : c < s.length
  · rw [wordsAt_succ t hc, if_neg h]
  · rw [wordsAt_end (Nat.le_of_not_lt hc), wordsAt_end (by omega)]

section Place

attribute [local simp] place

theorem place_code (h : codeAt s c) : place s (c + 1) = .code := by
  rw [place, h.1]
  dsimp only
  rw [if_neg h.2.1, if_neg h.2.2]

theorem place_opensLine (hp : place s c = .code) (h : isPair s c 47 47) :
    place s (c + 1) = .opensLine ∧ place s (c + 2) = .line := by
  have hfirst : place s (c + 1) = .opensLine := by
    rw [place, hp]
    exact if_pos h
  exact ⟨hfirst, by rw [place, hfirst]⟩

theorem place_opensBlock (hp : place s c = .code) (h : isPair s c 47 42) :
    place s (c + 1) = .opensBlock ∧ place s (c + 2) = .block := by
  have hline : ¬isPair s c 47 47 := fun h' => absurd (h.2.symm.trans h'.2) (by decide)
  grind [place]

theorem place_closesBlock (hp : place s c = .block) (h : isPair s c 42 47) :
    place s (c + 1) = .closesBlock ∧ place s (c + 2) = .code := by
  have hfirst : place s (c + 1) = .closesBlock := by
    rw [place, hp]
    exact if_pos h
  exact ⟨hfirst, by rw [place, hfirst]⟩

theorem place_block (hp : place s c = .block) (h : ¬isPair s c 42 47) :
    place s (c + 1) = .block := by
  rw [place, hp]
  exact if_neg h

theorem place_line (hp : place s c = .line) :
    place s (c + 1) = if charAt s c = 10 then .code else .line := by
  simp [hp]

end Place

theorem not_codeAt (h : place s c ≠ .code) : ¬codeAt s c := fun hcode => h hcode.1

/-- The states of the scanner and of the comments agree. -/
inductive Follows : ParseState → Place → Prop
  | none : Follows .PARSE_NONE .code
  | block : Follows .PARSE_IN_C_COMMENT .block
  | line : Follows .PARSE_IN_LINE_COMMENT .line

def OmitState.stage (st : OmitState) : Stage :=
  match st.statementState with
  | .PRECISION => .precision
  | .QUALIFIER => .qualifier st.precision
  | .SEMICOLON => .semicolon st.precision

/-- The state of the loop at `c`: what it still reads is as it was. -/
structure Scans (s src : List UInt8) (st : OmitState) (c : Nat) : Prop where
  length : src.length = s.length
  le : c ≤ s.length
  follows : Follows st.parseState (place s c)
  start_le : st.t.getD c ≤ c
  rest : ∀ j, st.t.getD c ≤ j → charAt src j = charAt s j
  precision_le : st.precision ≤ c

theorem Scans.move {src : List UInt8} {st : OmitState} {c' : Nat} {parse : ParseState}
    (h : Scans s src st c) (hle : c ≤ c') (hc' : c' ≤ s.length)
    (hfollows : Follows parse (place s c')) :
    Scans s src { st with parseState := parse } c' := by
  refine ⟨h.length, hc', hfollows, ?_, fun j hj => h.rest j ?_, Nat.le_trans h.precision_le hle⟩
  · have := h.start_le
    change st.t.getD c' ≤ c'
    cases ht : st.t with
    | none => exact Nat.le_refl c'
    | some t => grind
  · change st.t.getD c' ≤ j at hj
    cases ht : st.t with
    | none => grind
    | some t =>
        rw [ht] at hj
        exact hj

theorem covered_cons {r : Nat × Nat} {rs : List (Nat × Nat)} :
    Covered (r :: rs) j ↔ (r.1 ≤ j ∧ j ≤ r.2) ∨ Covered rs j := by
  rw [Covered, List.exists_mem_cons_iff]
  rfl

/-- What a run from `c` makes of the text. -/
def Leaves (s src : List UInt8) (st : OmitState) (c : Nat) (out : List UInt8) : Prop :=
  out.length = s.length ∧ ∀ j, charAt out j =
    if Covered (spelled s st.stage (wordsAt s st.t c)) j then 32 else charAt src j

theorem Leaves.move {src : List UInt8} {st : OmitState} {c' : Nat} {parse : ParseState}
    (h : Leaves s src { st with parseState := parse } c' out)
    (hwords : wordsAt s st.t c = wordsAt s st.t c') : Leaves s src st c out := by
  refine ⟨h.1, fun j => ?_⟩
  rw [hwords]
  exact h.2 j

theorem spelled_nil (g : Stage) : spelled s g [] = [] := by cases g <;> rfl

theorem not_covered_nil : ¬Covered [] j := fun ⟨_, hr, _⟩ => List.not_mem_nil hr

/-- A token has been read. -/
theorem Scans.endToken {src : List UInt8} {st : OmitState} {t : Nat} (h : Scans s src st c)
    (ht : st.t = some t) (hparse : st.parseState = .PARSE_NONE) (hc : c < s.length)
    (hcode : codeAt s c) (hplace : place s (c + 1) = .code)
    (hdelimiter : isTokenDelimiter (charAt s c) = true) :
    Scans s (endToken src st t c).1 (endToken src st t c).2 (c + 1) ∧
      ∀ out, Leaves s (endToken src st t c).1 (endToken src st t c).2 (c + 1) out →
        Leaves s src st c out := by
  have hwords : wordsAt s st.t c = (t, c) :: wordsAt s none (c + 1) := by grind [wordsAt_succ]
  have hrest : ∀ j, t ≤ j → charAt src j = charAt s j := by grind [h.rest]
  have hle : t ≤ c := by grind [h.start_le]
  have hfollows : Follows st.parseState (place s (c + 1)) := by
    rw [hparse, hplace]
    exact .none
  have hlength := h.length
  have hprecision := h.precision_le
  have hnone : ∀ stmt precision, precision ≤ c →
      Scans s src ⟨stmt, precision, st.parseState, none⟩ (c + 1) := fun stmt precision hp =>
    ⟨hlength, hc, hfollows, Nat.le_refl _, fun j hj => hrest j (Nat.le_trans hle
      (Nat.le_trans (Nat.le_succ c) hj)), Nat.le_succ_of_le hp⟩
  have hsame : ∀ word, isToken word src t c ↔ isToken word s t c := fun word =>
    and_congr_right' (At.congr fun k hk _ => hrest k hk)
  have hqualifier : isQualifier src t c ↔ isQualifier s t c :=
    or_congr (hsame _) (or_congr (hsame _) (hsame _))
  obtain ⟨stmt, precision, parse, t'⟩ := st
  unfold AndroidRenderer.Translator.endToken
  cases stmt with
  | PRECISION =>
      dsimp only
      split
      · rename_i htoken
        refine ⟨hnone _ _ hle, fun out hout => ⟨hout.1, fun j => (hout.2 j).trans ?_⟩⟩
        rw [hwords]
        change _ = if Covered (if isToken _ s t c then _ else _) j then _ else _
        rw [if_pos ((hsame _).mp htoken)]
        rfl
      · rename_i htoken
        refine ⟨hnone _ _ hprecision, fun out hout => ⟨hout.1, fun j => (hout.2 j).trans ?_⟩⟩
        rw [hwords]
        change _ = if Covered (if isToken _ s t c then _ else _) j then _ else _
        rw [if_neg fun h => htoken ((hsame _).mpr h)]
        rfl
  | QUALIFIER =>
      dsimp only
      split
      · rename_i htoken
        refine ⟨hnone _ _ hprecision, fun out hout => ⟨hout.1, fun j => (hout.2 j).trans ?_⟩⟩
        rw [hwords]
        change _ = if Covered (if isQualifier s t c then _ else _) j then _ else _
        rw [if_pos (hqualifier.mp htoken)]
        rfl
      · rename_i htoken
        refine ⟨hnone _ _ hprecision, fun out hout => ⟨hout.1, fun j => (hout.2 j).trans ?_⟩⟩
        rw [hwords]
        change _ = if Covered (if isQualifier s t c then _ else _) j then _ else _
        rw [if_neg fun h => htoken (hqualifier.mpr h)]
        rfl
  | SEMICOLON =>
      dsimp only
      have hchar : charAt src c = charAt s c := hrest c hle
      rw [hchar]
      by_cases hsemicolon : charAt s c = 59
      · rw [if_pos hsemicolon]
        dsimp only at hprecision
        have hblank : ∀ k, charAt (blank src precision (c + 1)) k =
            if precision ≤ k ∧ k < c + 1 then 32 else charAt src k := fun k =>
          charAt_blank (by omega) (by omega)
        have hblankLength := blank_length (t := src) (i := precision) (j := c + 1) (by omega)
          (by omega)
        refine ⟨⟨hblankLength.trans hlength, hc, hfollows, Nat.le_refl _, fun j hj => ?_, ?_⟩,
          fun out hout => ⟨hout.1, fun j => (hout.2 j).trans ?_⟩⟩
        · grind
        · exact Nat.le_succ_of_le hprecision
        · rw [hwords]
          change _ = if Covered (if charAt s c = 59 then _ else _) j then _ else _
          rw [if_pos hsemicolon, hblank]
          change (if Covered (spelled s .precision (wordsAt s none (c + 1))) j then _ else _) =
            if Covered ((precision, c) :: spelled s .precision (wordsAt s none (c + 1))) j then _
              else _
          by_cases hrest' : Covered (spelled s .precision (wordsAt s none (c + 1))) j
          · simp [covered_cons, hrest']
          · simp [covered_cons, or_iff_left, Nat.lt_succ_iff, hrest']
      · rw [if_neg hsemicolon]
        refine ⟨hnone _ _ hprecision, fun out hout => ⟨hout.1, fun j => (hout.2 j).trans ?_⟩⟩
        rw [hwords]
        change _ = if Covered (if charAt s c = 59 then _ else _) j then _ else _
        rw [if_neg hsemicolon]
        rfl

theorem not_isDelimiter_of_isalpha {c : UInt8} (h : isalpha c = true) : isDelimiter c = false := by
  simp only [isalpha, Bool.or_eq_true, Bool.and_eq_true, decide_eq_true_eq,
    UInt8.le_iff_toNat_le] at h
  simp only [isDelimiter, Bool.or_eq_false_iff, beq_eq_false_iff_ne, ne_eq, ← UInt8.toNat_inj]
  grind

theorem omitLoop_run (hs : 0 ∉ s) : ∀ n src st c, Scans s src st c → s.length < c + n →
    ∃ out, omitLoop n src st c = some out ∧ Leaves s src st c out := by
  intro n
  induction n with
  | zero =>
      intro src st c h hn
      have := h.le
      omega
  | succ n ih =>
      intro src st c h hn
      have hchar := h.rest c h.start_le
      have hnext := h.rest (c + 1) (Nat.le_succ_of_le h.start_le)
      have hpair : ∀ x y, isPair src c x y ↔ isPair s c x y := fun x y => by
        rw [isPair, isPair, hchar, hnext]
      rw [omitLoop, hchar]
      by_cases hend : charAt s c = 0
      · have hlength : s.length ≤ c := by
          by_contra hlt
          have hlt := Nat.lt_of_not_le hlt
          rw [charAt_eq_getElem hlt] at hend
          exact hs (hend ▸ List.getElem_mem hlt)
        rw [if_pos hend]
        refine ⟨src, rfl, h.length, fun j => ?_⟩
        rw [wordsAt_end hlength, spelled_nil, if_neg not_covered_nil]
      rw [if_neg hend]
      have hc := lt_of_charAt hend
      have hpairLt : ∀ x y, y ≠ 0 → isPair s c x y → c + 2 ≤ s.length := fun x y hy hxy =>
        lt_of_charAt (hxy.2 ▸ hy)
      have hfollows := h.follows
      generalize hparse : st.parseState = parse at hfollows ⊢
      generalize hp : place s c = pl at hfollows
      have hstay : { st with parseState := parse } = st := by rw [← hparse]
      cases hfollows with
      | block =>
          have hcomment := wordsAt_comment st.t (not_codeAt (s := s) (c := c) (by rw [hp]; decide))
          dsimp only
          by_cases hclose : isPair s c 42 47
          · rw [if_pos ((hpair _ _).mpr hclose)]
            obtain ⟨hsecond, hcode⟩ := place_closesBlock hp hclose
            obtain ⟨out, hrun, hleaves⟩ := ih src { st with parseState := .PARSE_NONE } (c + 2)
              (h.move (by omega) (hpairLt _ _ (by decide) hclose) (hcode ▸ .none)) (by omega)
            grind [wordsAt_comment, not_codeAt, hleaves.move]
          · rw [if_neg fun h => hclose ((hpair _ _).mp h)]
            obtain ⟨out, hrun, hleaves⟩ := ih src { st with parseState := .PARSE_IN_C_COMMENT }
              (c + 1) (h.move (by omega) hc (place_block hp hclose ▸ .block)) (by omega)
            exact ⟨out, hstay ▸ hrun, hleaves.move hcomment⟩
      | line =>
          have hcomment := wordsAt_comment st.t (not_codeAt (s := s) (c := c) (by rw [hp]; decide))
          have hplace := place_line hp
          dsimp only
          by_cases hnewline : charAt s c = 10
          · rw [if_pos hnewline]
            rw [if_pos hnewline] at hplace
            obtain ⟨out, hrun, hleaves⟩ := ih src { st with parseState := .PARSE_NONE } (c + 1)
              (h.move (by omega) hc (hplace ▸ .none)) (by omega)
            exact ⟨out, hrun, hleaves.move hcomment⟩
          · rw [if_neg hnewline]
            rw [if_neg hnewline] at hplace
            obtain ⟨out, hrun, hleaves⟩ := ih src { st with parseState := .PARSE_IN_LINE_COMMENT }
              (c + 1) (h.move (by omega) hc (hplace ▸ .line)) (by omega)
            exact ⟨out, hstay ▸ hrun, hleaves.move hcomment⟩
      | none =>
          dsimp only
          by_cases hline : isPair s c 47 47
          · rw [if_pos ((hpair _ _).mpr hline)]
            obtain ⟨hsecond, hplace⟩ := place_opensLine hp hline
            obtain ⟨out, hrun, hleaves⟩ := ih src { st with parseState := .PARSE_IN_LINE_COMMENT }
              (c + 2) (h.move (by omega) (hpairLt _ _ (by decide) hline) (hplace ▸ .line))
              (by omega)
            refine ⟨out, hrun, hleaves.move ((wordsAt_comment st.t fun h => h.2.1 hline).trans ?_)⟩
            exact wordsAt_comment st.t (not_codeAt (by rw [hsecond]; decide))
          rw [if_neg fun h => hline ((hpair _ _).mp h)]
          by_cases hblock : isPair s c 47 42
          · rw [if_pos ((hpair _ _).mpr hblock)]
            obtain ⟨hsecond, hplace⟩ := place_opensBlock hp hblock
            obtain ⟨out, hrun, hleaves⟩ := ih src { st with parseState := .PARSE_IN_C_COMMENT }
              (c + 2) (h.move (by omega) (hpairLt _ _ (by decide) hblock) (hplace ▸ .block))
              (by omega)
            refine ⟨out, hrun, hleaves.move ((wordsAt_comment st.t fun h => h.2.2 hblock).trans ?_)⟩
            exact wordsAt_comment st.t (not_codeAt (by rw [hsecond]; decide))
          rw [if_neg fun h => hblock ((hpair _ _).mp h)]
          have hcode : codeAt s c := ⟨hp, hline, hblock⟩
          have hplace := place_code hcode
          have hwords := wordsAt_succ st.t hc
          rw [if_pos hcode] at hwords
          cases ht : st.t with
          | some t =>
              rw [ht] at hwords
              dsimp only at hwords ⊢
              cases hdelimiter : isTokenDelimiter (charAt s c) with
              | true =>
                  dsimp only
                  obtain ⟨hscans, hleaves⟩ := h.endToken ht hparse hc hcode hplace hdelimiter
                  grind
              | false =>
                  dsimp only
                  rw [hdelimiter] at hwords
                  obtain ⟨out, hrun, hleaves⟩ := ih src { st with parseState := .PARSE_NONE }
                    (c + 1) (h.move (by omega) hc (hplace ▸ .none)) (by omega)
                  exact ⟨out, hstay ▸ hrun, hleaves.move (ht ▸ hwords)⟩
          | none =>
              rw [ht] at hwords
              dsimp only at hwords ⊢
              have hstart := h.start_le
              by_cases halpha : isalpha (charAt s c) = true
              · have hdelimiter : isDelimiter (charAt s c) = false := not_isDelimiter_of_isalpha halpha
                rw [if_pos ⟨hdelimiter, halpha⟩]
                rw [if_pos halpha] at hwords
                have hscans : Scans s src { st with t := some c } (c + 1) :=
                  ⟨h.length, hc, by rw [hplace]; exact hparse ▸ .none, Nat.le_succ c,
                    fun j hj => h.rest j (by rw [ht]; exact hj), Nat.le_succ_of_le h.precision_le⟩
                obtain ⟨out, hrun, hleaves⟩ := ih src _ (c + 1) hscans (by omega)
                refine ⟨out, ?_, hleaves.1, fun j => by rw [hleaves.2 j, ht, hwords]; rfl⟩
                grind
              · rw [if_neg fun h => halpha h.2]
                rw [if_neg halpha] at hwords
                obtain ⟨out, hrun, hleaves⟩ := ih src { st with parseState := .PARSE_NONE }
                  (c + 1) (h.move (by omega) hc (hplace ▸ .none)) (by omega)
                exact ⟨out, hstay ▸ hrun, hleaves.move (ht ▸ hwords)⟩

@[simp] theorem blankAll_length (s : List UInt8) (regions : List (Nat × Nat)) :
    (blankAll s regions).length = s.length := by
  rw [blankAll, List.length_map, List.length_range]

def spelledStatements (s : List UInt8) : List (Nat × Nat) := spelled s .precision (words s)

/-- The rewriting ends, and blanks what the words spell. -/
theorem parseOmitPrecision_eq (hs : 0 ∉ s) :
    parseOmitPrecision s = some (blankAll s (spelledStatements s)) := by
  obtain ⟨out, hrun, hlength, hout⟩ := omitLoop_run hs (s.length + 1) s
    ⟨.PRECISION, 0, .PARSE_NONE, none⟩ 0
    ⟨rfl, Nat.zero_le _, .none, Nat.le_refl _, fun _ _ => rfl, Nat.le_refl _⟩ (by omega)
  refine hrun.trans (congrArg some (ext_charAt (hlength.trans (blankAll_length s _).symm) fun j => ?_))
  rw [blankAll, charAt_map_range]
  by_cases hj : j < s.length
  · rw [if_pos hj, hout]
    rfl
  · grind [charAt_of_le]

/-! ## Words of a source -/

def CodeLetter (s : List UInt8) (j : Nat) : Prop := codeAt s j ∧ isalpha (charAt s j) = true

def CodeDelimiter (s : List UInt8) (j : Nat) : Prop :=
  codeAt s j ∧ isTokenDelimiter (charAt s j) = true

/-- Consecutive words from `c` on. -/
inductive Words (s : List UInt8) : Nat → List (Nat × Nat) → Prop
  | nil {c : Nat} : Words s c []
  | cons {c i j : Nat} {ws : List (Nat × Nat)} (le : c ≤ i)
      (before : ∀ k, c ≤ k → k < i → ¬CodeLetter s k) (starts : CodeLetter s i) (lt : i < j)
      (inside : ∀ k, i < k → k < j → ¬CodeDelimiter s k) (ends : CodeDelimiter s j)
      (rest : Words s (j + 1) ws) : Words s c ((i, j) :: ws)

/-- What has been read of a word that begins at `c'` or later. -/
def Pending (s : List UInt8) (c' c : Nat) : Option Nat → Prop
  | none => c' ≤ c ∧ ∀ k, c' ≤ k → k < c → ¬CodeLetter s k
  | some i => c' ≤ i ∧ (∀ k, c' ≤ k → k < i → ¬CodeLetter s k) ∧ CodeLetter s i ∧ i < c ∧
      ∀ k, i < k → k < c → ¬CodeDelimiter s k

theorem wordsAt_words : ∀ n t c c', s.length ≤ c + n → Pending s c' c t →
    Words s c' (wordsAt s t c) := by
  intro n
  induction n with
  | zero =>
      intro t c c' hn _
      rw [wordsAt_end (c := c) hn]
      exact .nil
  | succ n ih =>
      intro t c c' hn h
      by_cases hc : c < s.length
      · rw [wordsAt_succ t hc]
        by_cases hcode : codeAt s c
        · rw [if_pos hcode]
          cases t with
          | some i =>
              obtain ⟨hle, hbefore, hletter, hlt, hinside⟩ := h
              dsimp only
              by_cases hdelimiter : isTokenDelimiter (charAt s c) = true
              · rw [if_pos hdelimiter]
                exact .cons hle hbefore hletter hlt hinside ⟨hcode, hdelimiter⟩
                  (ih none (c + 1) (c + 1) (by omega) ⟨Nat.le_refl _, fun k hk hlt => by omega⟩)
              · rw [if_neg hdelimiter]
                refine ih (some i) (c + 1) c' (by omega)
                  ⟨hle, hbefore, hletter, by omega, fun k hik hk hd => ?_⟩
                obtain hlt | rfl := Nat.lt_or_eq_of_le (Nat.le_of_lt_succ hk)
                · exact hinside k hik hlt hd
                · exact hdelimiter hd.2
          | none =>
              obtain ⟨hle, hbefore⟩ := h
              dsimp only
              by_cases halpha : isalpha (charAt s c) = true
              · rw [if_pos halpha]
                exact ih (some c) (c + 1) c' (by omega)
                  ⟨hle, hbefore, ⟨hcode, halpha⟩, Nat.lt_succ_self c, fun k hk hlt => by omega⟩
              · rw [if_neg halpha]
                refine ih none (c + 1) c' (by omega) ⟨by omega, fun k hk hlt hd => ?_⟩
                obtain hlt | rfl := Nat.lt_or_eq_of_le (Nat.le_of_lt_succ hlt)
                · exact hbefore k hk hlt hd
                · exact halpha hd.2
        · rw [if_neg hcode]
          refine ih t (c + 1) c' (by omega) ?_
          cases t with
          | some i =>
              obtain ⟨hle, hbefore, hletter, hlt, hinside⟩ := h
              refine ⟨hle, hbefore, hletter, by omega, fun k hik hk hd => ?_⟩
              obtain hlt | rfl := Nat.lt_or_eq_of_le (Nat.le_of_lt_succ hk)
              · exact hinside k hik hlt hd
              · exact hcode hd.1
          | none =>
              obtain ⟨hle, hbefore⟩ := h
              refine ⟨by omega, fun k hk hlt hd => ?_⟩
              obtain hlt | rfl := Nat.lt_or_eq_of_le (Nat.le_of_lt_succ hlt)
              · exact hbefore k hk hlt hd
              · exact hcode hd.1
      · grind

/-- Three words that spell the statement `r`. -/
def Found (s : List UInt8) (r : Nat × Nat) : Prop :=
  ∃ c d₁ t₂ d₂ t₃ ws, Words s c ((r.1, d₁) :: (t₂, d₂) :: (t₃, r.2) :: ws) ∧
    isToken (literal "precision") s r.1 d₁ ∧ isQualifier s t₂ d₂ ∧ charAt s r.2 = 59

theorem found_of_mem {r : Nat × Nat} : ∀ ws c, Words s c ws →
    (r ∈ spelled s .precision ws → Found s r) ∧
      (∀ a, r ∈ spelled s (.qualifier a) ws → (∃ t₂ d₂ t₃ ws', ws = (t₂, d₂) :: (t₃, r.2) :: ws' ∧
        r.1 = a ∧ isQualifier s t₂ d₂ ∧ charAt s r.2 = 59) ∨ Found s r) ∧
      ∀ a, r ∈ spelled s (.semicolon a) ws → (∃ t₃ ws', ws = (t₃, r.2) :: ws' ∧ r.1 = a ∧
        charAt s r.2 = 59) ∨ Found s r := by
  intro ws
  induction ws with
  | nil =>
      intro c _
      refine ⟨fun h => ?_, fun a h => ?_, fun a h => ?_⟩ <;> exact absurd h List.not_mem_nil
  | cons w ws ih =>
      intro c hwords
      obtain ⟨i, j⟩ := w
      obtain ⟨hprecision, hqualifier, hsemicolon⟩ : _ ∧ _ ∧ _ := by
        cases hwords with
        | cons _ _ _ _ _ _ rest => exact ih _ rest
      refine ⟨fun h => ?_, fun a h => ?_, fun a h => ?_⟩
      · rw [spelled] at h
        split at h
        · rename_i htoken
          obtain ⟨t₂, d₂, t₃, ws', rfl, hstart, hq, hends⟩ | hfound := hqualifier i h
          · refine ⟨c, j, t₂, d₂, t₃, ws', ?_, ?_, hq, hends⟩
            · rwa [hstart]
            · rwa [hstart]
          · exact hfound
        · exact hprecision h
      · grind [spelled]
      · grind [spelled]

theorem found_of_spelled {r : Nat × Nat} (h : r ∈ spelledStatements s) : Found s r :=
  (found_of_mem _ 0 (wordsAt_words s.length none 0 0 (by omega)
    ⟨Nat.le_refl _, fun k hk hlt => by omega⟩)).1 h

end AndroidRenderer.Translator
