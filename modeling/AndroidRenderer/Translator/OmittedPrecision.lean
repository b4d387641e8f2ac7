import AndroidRenderer.Translator.PrecisionStatements

/-!
# The precision statements that are omitted

The words of the scanner are compared with the tokens of GLSL. Statements do not overlap, and a
blanked region begins and ends outside of comments, so the comments around it stay what they are.
-/

namespace AndroidRenderer.Translator

open CString

variable {s u out : List UInt8} {a b i j k : Nat}

/-! ## Characters of the text without comments -/

@[simp] theorem codeText_length (s : List UInt8) : (codeText s).length = s.length := by
  rw [codeText, List.length_map, List.length_range]

theorem charAt_codeText (h : codeAt s j) : charAt (codeText s) j = charAt s j := by
  rw [codeText, charAt_map_range]
  grind [charAt_of_le]

theorem charAt_codeText_comment (h : ¬codeAt s j) :
    charAt (codeText s) j = 32 ∨ charAt (codeText s) j = 0 := by
  rw [codeText, charAt_map_range]
  grind

theorem codeAt_of_codeText (h : charAt (codeText s) j ≠ 32) (h' : charAt (codeText s) j ≠ 0) :
    codeAt s j := by
  by_contra hno
  exact (charAt_codeText_comment hno).elim h h'

theorem isWordChar_of_isalpha {c : UInt8} (h : isalpha c = true) : isWordChar c = true := by
  rw [isWordChar, isalnum, h]
  rfl

theorem isspace_of_isWordChar {c : UInt8} (h : isWordChar c = true) : isspace c = false := by
  rw [isWordChar, Bool.or_eq_true, beq_iff_eq] at h
  obtain h | rfl := h
  · exact isspace_of_isalnum h
  · rfl

theorem isWordChar_of_isTokenDelimiter {c : UInt8} (h : isTokenDelimiter c = true) :
    isWordChar c = false := by
  simp only [isTokenDelimiter, isDelimiter, Bool.or_eq_true, beq_iff_eq] at h
  obtain (((rfl | rfl) | rfl) | rfl) | rfl := h <;> rfl

theorem codeLetter_iff : CodeLetter s j ↔ isalpha (charAt (codeText s) j) = true := by
  constructor
  · rintro ⟨hcode, halpha⟩
    rwa [charAt_codeText hcode]
  · intro halpha
    have hcode : codeAt s j := by
      refine codeAt_of_codeText (fun h => ?_) fun h => ?_ <;>
      · rw [h] at halpha
        cases halpha
    exact ⟨hcode, by rwa [← charAt_codeText hcode]⟩

/-! ## Statements in a text without comments -/

theorem le_qualifierEnd (u : List UInt8) (a : Nat) : qualifierStart u a ≤ qualifierEnd u a :=
  le_skip rfl _ _

theorem le_semicolon (u : List UInt8) (a : Nat) : typeEnd u a ≤ semicolon u a := le_skip rfl _ _

namespace StatementIn

variable (h : StatementIn u a)
include h

theorem starts : charAt u a = 112 := h.precision 0 (by decide)

theorem type_lt : typeStart u a < typeEnd u a := by
  refine Nat.lt_of_le_of_ne (le_skip rfl _ _) fun heq => ?_
  have hstop := skip_stop (p := isWordChar) rfl u (typeStart u a)
  rw [← typeEnd, ← heq, isWordChar_of_isalpha h.type] at hstop
  cases hstop

theorem qualifier_isalpha : isalpha (charAt u (qualifierStart u a)) = true := by
  have hfirst : ∀ q ∈ qualifiers, isalpha (charAt q 0) = true := by decide
  have hqualifier := hfirst _ h.qualifier
  rw [slice, charAt_map_range] at hqualifier
  split at hqualifier
  · exact hqualifier
  · cases hqualifier

/-- The word `precision` begins in a statement only where it begins, or it is the type. -/
theorem precision_inside (hle : a ≤ j) (hj : j ≤ semicolon u a)
    (hat : At (literal "precision") u j) (hend : isWordChar (charAt u (j + 9)) = false) :
    j = a ∨ typeStart u a ≤ j ∧ j + 9 = typeEnd u a := by
  have hp : charAt u j = 112 := hat 0 (by decide)
  have hspace : isspace (charAt u j) = false := by
    rw [hp]
    rfl
  have hgap := h.gap
  have hqualifier := le_qualifierEnd u a
  have htypeGap := h.typeGap
  have htype := h.type_lt
  have hlength : (literal "precision").length = 9 := by decide
  have hfirst : ∀ k < 9, charAt (literal "precision") k = 112 → k = 0 := by decide
  have hword : ∀ k < 9, isWordChar (charAt (literal "precision") k) = true := by decide
  by_cases hprecision : j < a + 9
  · have hchar := h.precision (j - a) (by omega)
    grind
  by_cases hin : j < qualifierStart u a
  · rw [skip_run (p := isspace) (i := a + 9) rfl (by omega) hin] at hspace
    cases hspace
  by_cases hq : j < qualifierEnd u a
  · have hlast : ∀ q ∈ qualifiers, ∀ k < q.length, charAt q k = 112 → k + 1 = q.length := by decide
    have hslice := hlast _ h.qualifier (j - qualifierStart u a) (by
      rw [slice, List.length_map, List.length_range]
      omega)
    rw [slice, charAt_map_range, if_pos (by omega), Nat.add_sub_cancel' (by omega)] at hslice
    have hsize := hslice hp
    rw [List.length_map, List.length_range] at hsize
    have hstop := skip_stop (p := isWordChar) rfl u (qualifierStart u a)
    rw [← qualifierEnd, show qualifierEnd u a = j + 1 by omega, hat 1 (by decide)] at hstop
    cases hstop
  by_cases hin' : j < typeStart u a
  · rw [skip_run (p := isspace) (i := qualifierEnd u a) rfl (by omega) hin'] at hspace
    cases hspace
  by_cases ht : j < typeEnd u a
  · refine .inr ⟨by omega, (skip_unique rfl (by omega) (fun k hk hlt => ?_) hend).symm⟩
    by_cases hkj : k < j
    · exact skip_run (p := isWordChar) (i := typeStart u a) rfl hk (by rw [← typeEnd]; omega)
    · have hchar := hat (k - j) (by omega)
      grind
  by_cases hin'' : j < semicolon u a
  · rw [skip_run (p := isspace) (i := typeEnd u a) rfl (by omega) hin''] at hspace
    cases hspace
  · have hends := h.ends
    rw [show semicolon u a = j by omega, hp] at hends
    cases hends

theorem lt_of_lt (h' : StatementIn u b) (hlt : a < b) : semicolon u a < b := by
  by_contra hle
  have hspace : isspace (charAt u (b + 9)) = true :=
    skip_run (p := isspace) rfl (Nat.le_refl _) h'.gap
  have hend : isWordChar (charAt u (b + 9)) = false := by
    by_contra hword
    grind [isspace_of_isWordChar]
  obtain heq | ⟨-, htype⟩ := h.precision_inside (by omega) (Nat.le_of_not_lt hle) h'.precision hend
  · omega
  -- The type is followed by the semicolon, which is no qualifier.
  have hstart : qualifierStart u b = semicolon u a := by rw [qualifierStart, htype, semicolon]
  have hempty : qualifierEnd u b = qualifierStart u b := by
    refine skip_unique rfl (Nat.le_refl _) (fun k hk hlt => by omega) ?_
    rw [hstart, h.ends]
    rfl
  have hqualifier := h'.qualifier
  rw [slice, hempty, Nat.sub_self] at hqualifier
  exact absurd hqualifier (show [] ∉ qualifiers by decide)

/-- A statement stays if nothing is changed in it. -/
theorem congr (u' : List UInt8) (hsame : ∀ j, a ≤ j → j ≤ semicolon u a →
    charAt u' j = charAt u j) (hbefore : a = 0 ∨ isWordChar (charAt u' (a - 1)) = false) :
    StatementIn u' a ∧ semicolon u' a = semicolon u a := by
  have hgap := h.gap
  have hqualifier := le_qualifierEnd u a
  have htypeGap := h.typeGap
  have htypeLt := h.type_lt
  have htypeLe := le_semicolon u a
  have hstart : qualifierStart u' a = qualifierStart u a :=
    skip_congr_of_le rfl fun j hj hle => hsame j (by omega) (by rw [← qualifierStart] at hle; omega)
  have hend : qualifierEnd u' a = qualifierEnd u a := by
    rw [qualifierEnd, hstart]
    exact skip_congr_of_le rfl fun j hj hle =>
      hsame j (by omega) (by rw [← qualifierEnd] at hle; omega)
  have htypeStart : typeStart u' a = typeStart u a := by
    rw [typeStart, hend]
    exact skip_congr_of_le rfl fun j hj hle =>
      hsame j (by omega) (by rw [← typeStart] at hle; omega)
  have htypeEnd : typeEnd u' a = typeEnd u a := by
    rw [typeEnd, htypeStart]
    exact skip_congr_of_le rfl fun j hj hle =>
      hsame j (by omega) (by rw [← typeEnd] at hle; omega)
  have hsemicolon : semicolon u' a = semicolon u a := by
    rw [semicolon, htypeEnd]
    exact skip_congr_of_le rfl fun j hj hle =>
      hsame j (by omega) (by rw [← semicolon] at hle; omega)
  have hlength : (literal "precision").length = 9 := by decide
  have hslice : slice u' (qualifierStart u a) (qualifierEnd u a) =
      slice u (qualifierStart u a) (qualifierEnd u a) :=
    List.map_congr_left fun k hk => hsame _ (by omega) (by rw [List.mem_range] at hk; omega)
  refine ⟨⟨(At.congr fun k hk hlt => hsame k hk (by omega)).mpr h.precision, hbefore, ?_, ?_, ?_, ?_,
    ?_⟩, hsemicolon⟩
  · rw [hstart]
    exact h.gap
  · grind [h.qualifier]
  · grind
  · grind [h.type]
  · grind [h.ends]

end StatementIn

/-! ## What the words spell -/

/-- A word without a slash has no comment in it. -/
theorem at_codeText {word : List UInt8} (hcode : codeAt s i) (hat : At word s i)
    (hslash : ∀ k < word.length, charAt word k ≠ 47) : At word (codeText s) i := by
  have hcodes : ∀ k < word.length, codeAt s (i + k) := by
    intro k
    induction k with
    | zero => exact fun _ => hcode
    | succ k ih =>
        intro hk
        have hchar : charAt s (i + (k + 1)) ≠ 47 := fun h => hslash _ hk ((hat _ hk).symm.trans h)
        exact ⟨place_code (ih (by omega)), fun h => hchar h.1, fun h => hchar h.1⟩
  intro k hk
  rw [charAt_codeText (hcodes k hk), hat k hk]

theorem exists_qualifier {t c : Nat} (h : isQualifier s t c) :
    ∃ q ∈ qualifiers, isToken q s t c := by
  obtain h | h | h := h
  · exact ⟨_, by decide, h⟩
  · exact ⟨_, by decide, h⟩
  · exact ⟨_, by decide, h⟩

/-- The first letter behind a word, if there is only white space before it. -/
theorem nextWord_eq {d t n : Nat} (hdt : d < t) (hbefore : ∀ k, d + 1 ≤ k → k < t → ¬CodeLetter s k)
    (hletter : CodeLetter s t) (hdn : d < n) (hgap : ∀ k, d < k → k < n →
      isspace (charAt (codeText s) k) = true) (hn : isalpha (charAt (codeText s) n) = true) :
    t = n := by
  obtain hlt | heq | hlt := Nat.lt_trichotomy t n
  · grind [isspace_of_isWordChar, isWordChar_of_isalpha, codeLetter_iff]
  · exact heq
  · exact absurd (codeLetter_iff.mpr hn) (hbefore n hdn hlt)

theorem first_isalpha : ∀ q ∈ qualifiers, isalpha (charAt q 0) = true ∧ charAt q 0 ≠ 112 ∧
    q ≠ [] ∧ (∀ k < q.length, charAt q k ≠ 47) ∧ ∀ k < q.length, isWordChar (charAt q k) = true := by
  decide

theorem isWordChar_of_delimiter {d : Nat} (h : CodeDelimiter s d) :
    isWordChar (charAt (codeText s) d) = false := by
  rw [charAt_codeText h.1]
  exact isWordChar_of_isTokenDelimiter h.2

theorem Found.statement {r : Nat × Nat} (h : Found s r)
    (hinside : ∀ j, r.1 ≤ j → j ≤ r.2 → charAt s j ≠ 32 → ∃ a b, Statement s a b ∧ a ≤ j ∧ j ≤ b) :
    Statement s r.1 r.2 := by
  obtain ⟨c, d₁, t₂, d₂, t₃, ws, hwords, hprecision, hqualifier, hsemicolon⟩ := h
  obtain ⟨a', b'⟩ := r
  dsimp only at hwords hprecision hsemicolon hinside ⊢
  cases hwords with
  | cons _ _ hletter hlt _ hdelimiter rest =>
  cases rest with
  | cons hle₂ hbefore₂ hletter₂ hlt₂ _ hdelimiter₂ rest =>
  cases rest with
  | cons hle₃ hbefore₃ hletter₃ hlt₃ hinside₃ hdelimiter₃ _ =>
  have hlength : (literal "precision").length = 9 := by decide
  have hd₁ : d₁ = a' + 9 := by
    have := hprecision.1
    omega
  have hat := at_codeText hletter.1 hprecision.2 (by decide)
  have hend := isWordChar_of_delimiter hdelimiter
  rw [hd₁] at hend
  obtain ⟨q, hq, hq₂⟩ := exists_qualifier hqualifier
  obtain ⟨hqletter, hqfirst, hqne, hqslash, hqword⟩ := first_isalpha q hq
  have hfirst : charAt s a' = 112 := hprecision.2 0 (by decide)
  obtain ⟨a, b, ⟨hst, rfl⟩, hle, hle'⟩ := hinside a' (Nat.le_refl _) (by omega) (by
    rw [hfirst]
    decide)
  obtain rfl | ⟨-, htypeEnd⟩ := hst.precision_inside hle hle' hat hend
  · have hgap := hst.gap
    have hstart : t₂ = qualifierStart (codeText s) a' :=
      nextWord_eq hle₂ hbefore₂ hletter₂ (by omega)
        (fun k hk hlt => skip_run (p := isspace) rfl (by omega) hlt) hst.qualifier_isalpha
    have hq₂' := hq₂.1
    have hqat := at_codeText hletter₂.1 hq₂.2 hqslash
    have hqEnd : qualifierEnd (codeText s) a' = d₂ := by
      refine skip_unique rfl (by omega) (fun k hk hlt => ?_) (isWordChar_of_delimiter hdelimiter₂)
      have hchar := hqat (k - t₂) (by omega)
      grind [Nat.add_sub_cancel']
    have htypeGap := hst.typeGap
    have htype : t₃ = typeStart (codeText s) a' :=
      nextWord_eq hle₃ hbefore₃ hletter₃ (by omega)
        (fun k hk hlt => skip_run (p := isspace) rfl (by omega) hlt) hst.type
    have htypeLt := hst.type_lt
    have htypeLe := le_semicolon (codeText s) a'
    have hcode : codeAt s (semicolon (codeText s) a') := by simp [hst.ends, codeAt_of_codeText]
    have hends : CodeDelimiter s (semicolon (codeText s) a') :=
      ⟨hcode, by rw [← charAt_codeText hcode, hst.ends]; rfl⟩
    have hsemicolon' : charAt (codeText s) b' = 59 := by rwa [charAt_codeText hdelimiter₃.1]
    refine ⟨hst, ?_⟩
    obtain hlt' | heq | hlt' := Nat.lt_trichotomy b' (semicolon (codeText s) a')
    · by_cases hword : b' < typeEnd (codeText s) a'
      · have hrun := skip_run (p := isWordChar) (i := typeStart (codeText s) a') rfl (by omega) hword
        rw [hsemicolon'] at hrun
        cases hrun
      · have hrun := skip_run (p := isspace) rfl (Nat.le_of_not_lt hword) hlt'
        rw [hsemicolon'] at hrun
        cases hrun
    · exact heq
    · exact absurd hends (hinside₃ _ (by omega) hlt')
  · -- The type is a word of its own, and the next word would have to begin a statement.
    have hletter' := isWordChar_of_isalpha (codeLetter_iff.mp hletter₂)
    have hbehind : semicolon (codeText s) a < t₂ := by
      by_contra hno
      obtain hlt' | heq := Nat.lt_or_eq_of_le (Nat.le_of_not_lt hno)
      · have hspace := skip_run (p := isspace) (i := typeEnd (codeText s) a) rfl (by omega) hlt'
        grind [isspace_of_isWordChar]
      · rw [heq, hst.ends] at hletter'
        cases hletter'
    have hspace : charAt s t₂ ≠ 32 := fun h => by
      have := hletter₂.2
      rw [h] at this
      cases this
    obtain ⟨a₂, b₂, ⟨hst₂, rfl⟩, hle₂', hle₂''⟩ := hinside t₂ (by omega) (by omega) hspace
    have hlater : semicolon (codeText s) a < a₂ := by
      obtain hlt' | rfl | hlt' := Nat.lt_trichotomy a a₂
      · exact hst.lt_of_lt hst₂ hlt'
      · omega
      · have := hst₂.lt_of_lt hst hlt'
        omega
    have htypeLe := le_semicolon (codeText s) a
    have hletter₂' : CodeLetter s a₂ := codeLetter_iff.mpr (by rw [hst₂.starts]; rfl)
    have heq : a₂ = t₂ := by
      by_contra hne
      exact hbefore₂ a₂ (by omega) (by omega) hletter₂'
    have hchar := hq₂.2 0 (List.length_pos_iff.mpr hqne)
    rw [Nat.add_zero, ← charAt_codeText hletter₂.1, ← heq, hst₂.starts] at hchar
    exact absurd hchar.symm hqfirst

/-! ## Comments around blanked regions -/

/-- A region that begins with `precision` and ends with a semicolon, outside of comments. -/
structure Region (s : List UInt8) (r : Nat × Nat) : Prop where
  le : r.1 ≤ r.2
  first : codeAt s r.1
  firstChar : charAt s r.1 = 112
  last : codeAt s r.2
  lastChar : charAt s r.2 = 59

theorem Found.region {r : Nat × Nat} (h : Found s r) : Region s r := by
  obtain ⟨c, d₁, t₂, d₂, t₃, ws, hwords, hprecision, -, hsemicolon⟩ := h
  cases hwords with
  | cons _ _ hletter hlt _ _ rest =>
  cases rest with
  | cons hle₂ _ _ hlt₂ _ _ rest =>
  cases rest with
  | cons hle₃ _ _ hlt₃ _ hdelimiter₃ _ =>
  exact ⟨by omega, hletter.1, hprecision.2 0 (by decide), hdelimiter₃.1, hsemicolon⟩

theorem Statement.region (h : Statement s a b) : Region s (a, b) := by
  obtain ⟨hst, rfl⟩ := h
  have hgap := hst.gap
  have hqualifier := le_qualifierEnd (codeText s) a
  have htypeGap := hst.typeGap
  have htypeLt := hst.type_lt
  have htypeLe := le_semicolon (codeText s) a
  have hfirst : codeAt s a := by simp [hst.starts, codeAt_of_codeText]
  have hlast : codeAt s (semicolon (codeText s) a) := by simp [hst.ends, codeAt_of_codeText]
  exact ⟨by dsimp only; omega, hfirst, (charAt_codeText hfirst).symm.trans hst.starts, hlast,
    (charAt_codeText hlast).symm.trans hst.ends⟩

section BlankAll

variable {regions : List (Nat × Nat)} (hregions : ∀ r ∈ regions, Region s r)
include hregions

theorem charAt_blankAll (j : Nat) : charAt (blankAll s regions) j =
    if Covered regions j then 32 else charAt s j := by
  rw [blankAll, charAt_map_range]
  by_cases hj : j < s.length
  · rw [if_pos hj]
  · have hout : ¬Covered regions j := by
      rintro ⟨r, hr, -, hle⟩
      have := lt_of_charAt (t := s) (i := r.2) (by rw [(hregions r hr).lastChar]; decide)
      omega
    grind [charAt_of_le]

theorem isPair_blankAll {x y : UInt8} (hj : ¬Covered regions j) (hy : y = 47 ∨ y = 42) :
    isPair (blankAll s regions) j x y ↔ isPair s j x y := by
  rw [isPair, isPair, charAt_blankAll hregions, charAt_blankAll hregions, if_neg hj]
  by_cases hnext : Covered regions (j + 1)
  · obtain ⟨r, hr, hle, hle'⟩ := hnext
    have hfirst : j + 1 = r.1 := by
      by_contra hne
      exact hj ⟨r, hr, by omega, by omega⟩
    have hchar := (hregions r hr).firstChar
    grind
  · rw [if_neg hnext]

theorem place_blankAll : ∀ j, place (blankAll s regions) j =
    if Covered regions j then .code else place s j := by
  intro j
  induction j with
  | zero => exact (ite_self _).symm
  | succ j ih =>
      by_cases hj : Covered regions j
      · rw [if_pos hj] at ih
        have hblank : charAt (blankAll s regions) j = 32 := by
          rw [charAt_blankAll hregions, if_pos hj]
        have hcode : codeAt (blankAll s regions) j := by
          refine ⟨ih, fun h => ?_, fun h => ?_⟩ <;>
          · have := hblank.symm.trans h.1
            revert this
            decide
        rw [place_code hcode]
        by_cases hnext : Covered regions (j + 1)
        · rw [if_pos hnext]
        · obtain ⟨r, hr, hle, hle'⟩ := hj
          have hlast : j = r.2 := by
            by_contra hne
            exact hnext ⟨r, hr, by omega, by omega⟩
          rw [if_neg hnext, hlast, place_code (hregions r hr).last]
      · rw [if_neg hj] at ih
        have hsame : place (blankAll s regions) (j + 1) = place s (j + 1) := by
          have hchar : charAt (blankAll s regions) j = charAt s j := by
            rw [charAt_blankAll hregions, if_neg hj]
          rw [place, place, ih, hchar]
          simp only [isPair_blankAll hregions hj (.inl rfl), isPair_blankAll hregions hj (.inr rfl)]
        rw [hsame]
        by_cases hnext : Covered regions (j + 1)
        · obtain ⟨r, hr, hle, hle'⟩ := hnext
          have hfirst : j + 1 = r.1 := by
            by_contra hne
            exact hj ⟨r, hr, by omega, by omega⟩
          rw [if_pos ⟨r, hr, hle, hle'⟩, hfirst, (hregions r hr).first.1]
        · rw [if_neg hnext]

theorem charAt_codeText_blankAll (j : Nat) : charAt (codeText (blankAll s regions)) j =
    if Covered regions j then 32 else charAt (codeText s) j := by
  by_cases hj : Covered regions j
  · have hblank : charAt (blankAll s regions) j = 32 := by
      rw [charAt_blankAll hregions, if_pos hj]
    have hcode : codeAt (blankAll s regions) j := by
      refine ⟨?_, fun h => ?_, fun h => ?_⟩
      · rw [place_blankAll hregions, if_pos hj]
      all_goals
        have := hblank.symm.trans h.1
        revert this
        decide
    rw [charAt_codeText hcode, hblank, if_pos hj]
  · have hcode : codeAt (blankAll s regions) j ↔ codeAt s j := by
      rw [codeAt, codeAt, place_blankAll hregions, if_neg hj,
        isPair_blankAll hregions hj (.inl rfl), isPair_blankAll hregions hj (.inr rfl)]
    grind [codeText, blankAll_length, charAt_blankAll]

end BlankAll

/-! ## The rewriting -/

theorem mem_statements {r : Nat × Nat} : r ∈ statements s ↔ Statement s r.1 r.2 := by
  obtain ⟨a, b⟩ := r
  rw [statements, List.mem_map]
  constructor
  · rintro ⟨a', ha', heq⟩
    obtain ⟨rfl, rfl⟩ := Prod.mk.inj heq
    rw [List.mem_filter, decide_eq_true_eq] at ha'
    exact ⟨ha'.2, rfl⟩
  · rintro ⟨hst, hb⟩
    grind [hst.starts, codeText_length, lt_of_charAt]

theorem Statement.left {regions : List (Nat × Nat)}
    (hregions : ∀ r ∈ regions, Statement s r.1 r.2) (h : Statement s a b)
    (hout : (a, b) ∉ regions) : Statement (blankAll s regions) a b := by
  have hregion : ∀ r ∈ regions, Region s r := fun r hr => (hregions r hr).region
  obtain ⟨hst, rfl⟩ := h
  have huncovered : ∀ j, a ≤ j → j ≤ semicolon (codeText s) a → ¬Covered regions j := by
    rintro j hj hj' ⟨r, hr, hle, hle'⟩
    obtain ⟨hr', hend⟩ := hregions r hr
    obtain hlt | heq | hlt := Nat.lt_trichotomy a r.1
    · have := hst.lt_of_lt hr' hlt
      omega
    · grind
    · have := hr'.lt_of_lt hst hlt
      omega
  have hchar := charAt_codeText_blankAll hregion
  obtain ⟨hst', hsemicolon⟩ := hst.congr (codeText (blankAll s regions))
    (fun j hj hj' => by rw [hchar, if_neg (huncovered j hj hj')]) (hst.before.imp_right fun hb => by
      rw [hchar]
      split
      · rfl
      · exact hb)
  exact ⟨hst', hsemicolon.symm⟩

/-- The words of the scanner spell the statements, and none comes about by blanking them. -/
structure Separated (s : List UInt8) : Prop where
  spelled : ∀ r ∈ spelledStatements s, r ∈ statements s
  statements : ∀ r ∈ AndroidRenderer.Translator.statements s, r ∈ spelledStatements s
  blanked : AndroidRenderer.Translator.statements
    (blankAll s (AndroidRenderer.Translator.statements s)) = []

theorem statements_eq_nil : statements s = [] ↔ ∀ a b, ¬Statement s a b := by
  rw [List.eq_nil_iff_forall_not_mem]
  exact ⟨fun h a b hst => h (a, b) (mem_statements.mpr hst), fun h r hr => h _ _ (mem_statements.mp hr)⟩

theorem blankAll_congr {regions regions' : List (Nat × Nat)}
    (h : ∀ r, r ∈ regions ↔ r ∈ regions') : blankAll s regions = blankAll s regions' := by
  refine List.map_congr_left fun j _ => if_congr ?_ rfl rfl
  exact exists_congr fun r => and_congr_left' (h r)

/-- The rewriting ends, and omits the precision statements and nothing else if and only if the
scanner's words separate them. -/
theorem parseOmitPrecision_iff (s : List UInt8) (hs : 0 ∉ s) :
    ∃ out, parseOmitPrecision s = some out ∧ (Omits s out ↔ Separated s) := by
  refine ⟨_, parseOmitPrecision_eq hs, fun h => ?_, fun h => ?_⟩
  · have hregion : ∀ r ∈ spelledStatements s, Region s r := fun r hr => (found_of_spelled hr).region
    have hspelled : ∀ r ∈ spelledStatements s, Statement s r.1 r.2 := by
      intro r hr
      refine (found_of_spelled hr).statement fun j hj hj' hspace => h.changes j ?_
      rw [charAt_blankAll hregion, if_pos ⟨r, hr, hj, hj'⟩]
      exact hspace.symm
    have hall : ∀ r ∈ statements s, r ∈ spelledStatements s := by
      intro r hr
      by_contra hout
      exact h.omitted _ _ ((mem_statements.mp hr).left hspelled hout)
    have hspelled' : ∀ r ∈ spelledStatements s, r ∈ statements s := fun r hr =>
      mem_statements.mpr (hspelled r hr)
    refine ⟨hspelled', hall, statements_eq_nil.mpr ?_⟩
    rw [blankAll_congr fun r => ⟨hall r, hspelled' r⟩]
    exact h.omitted
  · have hsame : blankAll s (spelledStatements s) = blankAll s (statements s) :=
      blankAll_congr fun r => ⟨h.spelled r, h.statements r⟩
    have hregion : ∀ r ∈ statements s, Region s r := fun r hr => (mem_statements.mp hr).region
    rw [hsame]
    refine ⟨blankAll_length s _, fun j hj => ?_, statements_eq_nil.mp h.blanked⟩
    rw [charAt_blankAll hregion] at hj
    by_cases hcovered : Covered (statements s) j
    · obtain ⟨r, hr, hle, hle'⟩ := hcovered
      exact ⟨r.1, r.2, mem_statements.mp hr, hle, hle'⟩
    · exact absurd (if_neg hcovered) hj

/-- A statement with a comment in it. -/
theorem parseOmitPrecision_comment :
    ∃ out, parseOmitPrecision (literal "x; precision /*;*/ highp float;") = some out ∧
      Omits (literal "x; precision /*;*/ highp float;") out := by
  obtain ⟨out, hrun, hiff⟩ :=
    parseOmitPrecision_iff (literal "x; precision /*;*/ highp float;") (by decide)
  exact ⟨out, hrun, hiff.mpr ⟨by decide +kernel, by decide +kernel, by decide +kernel⟩⟩

/-- A statement with a space before its semicolon is left, and what is none is blanked. -/
theorem precision_misread :
    parseOmitPrecision (literal "precision lowp float ;") =
        some (literal "precision lowp float ;") ∧
      (0, 21) ∈ statements (literal "precision lowp float ;") ∧
      parseOmitPrecision (literal "precision; lowp float;") = some (List.replicate 22 32) ∧
      statements (literal "precision; lowp float;") = [] := by
  refine ⟨by decide +kernel, by decide +kernel, by decide +kernel, by decide +kernel⟩

end AndroidRenderer.Translator
