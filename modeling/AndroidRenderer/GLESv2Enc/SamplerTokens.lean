import AndroidRenderer.GLESv2Enc.SamplerExternal
import Mathlib.Data.List.Pairwise

/-!
# Tokens and declarations of rewritten shader sources

A source is taken as preprocessed, so a comment that looks like a declaration is one. The encoder
takes white space around `samplerExternalOES` for the only sign of a token, and records one name
behind each; any `#extension` followed by the start of a name is a statement for it.
-/

namespace AndroidRenderer

open CString

variable {s t str out : List UInt8} {data data' : ShaderData} {c d i j k n p q : Nat}

/-! ## What the sources say -/

def isBlank (c : UInt8) : Bool := isspace c && isLine c

/-- An `#extension` statement for `GL_OES_EGL_image_external`, with nothing before it on its line. -/
def Directive (s : List UInt8) (d : Nat) : Prop :=
  At STR_HASH_EXTENSION s d ∧
    (∃ b < d + 1, (b = 0 ∨ isLine (charAt s (b - 1)) = false) ∧
      ∀ j < d, b ≤ j → isspace (charAt s j) = true) ∧
    d + 10 < skip isBlank s (d + 10) ∧
    At STR_GL_OES_EGL_IMAGE_EXTERNAL s (skip isBlank s (d + 10)) ∧
    isIdentifier (charAt s (skip isBlank s (d + 10) + 25)) = false

instance (s : List UInt8) (d : Nat) : Decidable (Directive s d) :=
  inferInstanceAs (Decidable (_ ∧ _ ∧ _ ∧ _ ∧ _))

/-- A position from a start that `P` marks up to the end of its line. -/
def InLine (P : Nat → Prop) (s : List UInt8) (j : Nat) : Prop :=
  ∃ d < j + 1, P d ∧ j < skip isLine s d

instance (P : Nat → Prop) [DecidablePred P] (s : List UInt8) (j : Nat) : Decidable (InLine P s j) :=
  inferInstanceAs (Decidable (∃ d < j + 1, P d ∧ j < skip isLine s d))

/-- The text with spaces for what `P` marks. -/
def blankLines (P : Nat → Prop) [DecidablePred P] (s : List UInt8) : List UInt8 :=
  (List.range s.length).map fun j => if InLine P s j then 32 else charAt s j

def withoutExtensions (s : List UInt8) : List UInt8 := blankLines (Directive s) s

/-- `samplerExternalOES` as a token of its own. -/
def Standalone (t : List UInt8) (i : Nat) : Prop :=
  At STR_SAMPLER_EXTERNAL_OES t i ∧ (i = 0 ∨ isIdentifier (charAt t (i - 1)) = false) ∧
    isIdentifier (charAt t (i + 18)) = false

instance (t : List UInt8) (i : Nat) : Decidable (Standalone t i) :=
  inferInstanceAs (Decidable (_ ∧ _ ∧ _))

def tokens (t : List UInt8) : List Nat := (List.range t.length).filter fun i => Standalone t i

/-- The identifier at a position, behind white space. -/
def identifierAt (t : List UInt8) (i : Nat) : Option (List UInt8) :=
  let n := skip isspace t i
  if isalpha (charAt t n) = true ∨ charAt t n = 95 then
    some (slice t n (skip isIdentifier t (n + 1)))
  else none

/-- Whether more parentheses are opened than closed before a position. -/
def inParentheses (t : List UInt8) (i : Nat) : Bool := (t.take i).count 41 < (t.take i).count 40

/-- The names that a token declares: one in a list of parameters, and otherwise one at the start of
the declaration and one behind each comma up to its semicolon. -/
def declarators (t : List UInt8) (i : Nat) : List (List UInt8) :=
  let declaration := (t.drop (i + 18)).takeWhile (· != 59)
  let parts := declaration.splitOn 44
  (if inParentheses t i then parts.take 1 else parts).filterMap fun part => identifierAt part 0

/-- What is left of a source: the text that the host gets, and the names of its samplers. -/
structure Rewritten (s out : List UInt8) (data' : ShaderData) : Prop where
  length : out.length = s.length
  tokens : ∀ i, ¬Standalone out i
  differs : ∀ j, charAt out j ≠ charAt s j →
    (∃ i, Standalone s i ∧ i ≤ j ∧ j < i + 18) ∨ InLine (Directive s) s j
  names : data'.samplerExternalNames =
    (AndroidRenderer.tokens (withoutExtensions s)).flatMap (declarators (withoutExtensions s))

/-! ## Extensions -/

/-- What the code takes for a statement for the extension. -/
def Removes (s : List UInt8) (i : Nat) : Prop :=
  At STR_HASH_EXTENSION s i ∧
    At STR_GL_OES_EGL_IMAGE_EXTERNAL s (skip isspace s (i + STR_HASH_EXTENSION.length))

instance (s : List UInt8) (i : Nat) : Decidable (Removes s i) :=
  inferInstanceAs (Decidable (_ ∧ _))

@[grind =] theorem charAt_blankLines (P : Nat → Prop) [DecidablePred P] (s : List UInt8) (j : Nat) :
    charAt (blankLines P s) j = if InLine P s j then 32 else charAt s j := by
  rw [blankLines, charAt_map_range]
  by_cases hj : j < s.length
  · rw [if_pos hj]
  · have hout : ¬InLine P s j := by
      rintro ⟨d, hd, -, hlt⟩
      have hrun := skip_run (p := isLine) rfl (Nat.le_of_lt_succ hd) hlt
      rw [charAt_of_le (Nat.le_of_not_lt hj)] at hrun
      cases hrun
    grind [charAt_of_le]

theorem hash_at (h : At STR_HASH_EXTENSION s i) : charAt s i = 35 := h 0 (by decide)

/-- The pattern begins nowhere inside of itself. -/
theorem hash_inside : ∀ k < 10, 0 < k → charAt STR_HASH_EXTENSION k ≠ 35 := by decide

@[simp] theorem blankLines_length (P : Nat → Prop) [DecidablePred P] (s : List UInt8) :
    (blankLines P s).length = s.length := by
  rw [blankLines, List.length_map, List.length_range]

/-- The state of the loop: what lies before `c` is done. -/
structure Blanked (s str : List UInt8) (c : Nat) : Prop where
  length : str.length = s.length
  le : c ≤ s.length
  done : ∀ j < c, charAt str j = charAt (blankLines (Removes s) s) j
  rest : ∀ j, c ≤ j → charAt str j = charAt s j
  ended : ∀ i < c, Removes s i → skip isLine s i ≤ c

theorem Blanked.not_inLine (h : Blanked s str c) (hcj : c ≤ j)
    (hno : ∀ i, c ≤ i → i ≤ j → ¬Removes s i) : ¬InLine (Removes s) s j := by
  rintro ⟨i, hi, hremoves, hlt⟩
  by_cases hic : i < c
  · have := h.ended i hic hremoves
    omega
  · exact hno i (by omega) (by omega) hremoves

/-- Nothing up to `c'` is a statement for the extension. -/
theorem Blanked.pass {c' : Nat} (h : Blanked s str c) (hle : c ≤ c') (hc' : c' ≤ s.length)
    (hno : ∀ i, c ≤ i → i < c' → ¬Removes s i) : Blanked s str c' := by
  refine ⟨h.length, hc', fun j hj => ?_, fun j hj => h.rest j (by omega), fun i hi hremoves => ?_⟩
  · grind [h.rest, h.done, h.not_inLine]
  · by_cases hic : i < c
    · exact Nat.le_trans (h.ended i hic hremoves) hle
    · exact absurd hremoves (hno i (by omega) hi)

theorem lineEnd_eq (hle : i ≤ j) (hlt : j < skip isLine s i) : skip isLine s j = skip isLine s i :=
  skip_unique rfl (Nat.le_of_lt hlt)
    (fun _ hjk hk => skip_run rfl (Nat.le_trans hle hjk) hk) (skip_stop rfl s i)

/-- A statement at `c` is overwritten. -/
theorem Blanked.blank (h : Blanked s str c) (hremoves : Removes s c) :
    Blanked s (blank str c (skip isLine s c)) (skip isLine s c) := by
  have hle := le_skip (p := isLine) rfl s c
  have hend := skip_le (p := isLine) rfl h.le
  have hlength := h.length
  refine ⟨(blank_length (by omega) hle).trans hlength, hend, fun j hj => ?_, fun j hj => ?_,
    fun i hi hi' => ?_⟩
  · rw [charAt_blank (by omega) hle, charAt_blankLines]
    by_cases hcj : c ≤ j
    · rw [if_pos ⟨hcj, hj⟩, if_pos ⟨c, by omega, hremoves, hj⟩]
    · grind [h.done]
  · grind [h.rest]
  · grind [lineEnd_eq]

theorem overwriteExtensions_eq : ∀ n str c, Blanked s str c → s.length < c + n →
    overwriteExtensions n str c = some (blankLines (Removes s) s) := by
  intro n
  induction n with
  | zero =>
      intro str c h hn
      have := h.le
      omega
  | succ n ih =>
      intro str c h hn
      rw [overwriteExtensions]
      cases hfind : strstr STR_HASH_EXTENSION str c with
      | none =>
          have hno := strstr_none (by decide) (by decide) hfind
          have hpass := h.pass h.le (Nat.le_refl _) fun i hi _ hremoves =>
            hno i hi ((At.congr fun k hk _ => h.rest k (by omega)).mpr hremoves.1)
          grind [charAt_of_le, blankLines_length, ext_charAt, h.length, hpass.done]
      | some start =>
          obtain ⟨hle, hat, hfirst⟩ := strstr_some hfind
          have hcongr : ∀ i, c ≤ i → ∀ pat, At pat str i ↔ At pat s i := fun i hi pat =>
            At.congr fun k hk _ => h.rest k (by omega)
          have hend := ((hcongr start hle _).mp hat).le_length (by decide) (by decide)
          have hlength : STR_HASH_EXTENSION.length = 10 := by decide
          have hstart := h.pass hle (by omega) fun i hi hlt hremoves =>
            hfirst i hi hlt ((hcongr i hi _).mpr hremoves.1)
          dsimp only
          have hspace : skip isspace str (start + STR_HASH_EXTENSION.length) =
              skip isspace s (start + STR_HASH_EXTENSION.length) :=
            skip_congr rfl fun j hj => h.rest j (by omega)
          have hline : skip isLine str start = skip isLine s start :=
            skip_congr rfl fun j hj => h.rest j (by omega)
          have hskip := le_skip (p := isspace) rfl s (start + STR_HASH_EXTENSION.length)
          rw [hspace, hline]
          split
          · rename_i hname
            have hremoves : Removes s start :=
              ⟨(hcongr start hle _).mp hat, (hcongr _ (by omega) _).mp hname⟩
            have hnext := hstart.blank hremoves
            have hhash : isLine (charAt s start) = true := by
              rw [hash_at hremoves.1]
              rfl
            have hlt : start < skip isLine s start := by
              refine Nat.lt_of_le_of_ne (le_skip rfl s start) fun heq => ?_
              have hstop := skip_stop (p := isLine) rfl s start
              grind
            exact ih _ _ hnext (by omega)
          · rename_i hname
            refine ih _ _ (hstart.pass (by omega) (skip_le rfl hend) fun i hi hlt hremoves => ?_)
              (by omega)
            have hhash := hash_at hremoves.1
            obtain rfl | hgt := Nat.eq_or_lt_of_le hi
            · exact hname ((hcongr _ (by omega) _).mpr hremoves.2)
            · by_cases hin : i < start + 10
              · have hchar := (hcongr start hle _).mp hat (i - start) (by omega)
                rw [Nat.add_sub_cancel' hi, hhash] at hchar
                exact hash_inside (i - start) (by omega) (by omega) hchar.symm
              · have hrun := skip_run (p := isspace) rfl (by omega) hlt
                rw [hhash] at hrun
                cases hrun

/-! ## Samplers -/

/-- A token with white space around it, which is what the code takes for a token. -/
def Spaced (t : List UInt8) (i : Nat) : Prop :=
  At STR_SAMPLER_EXTERNAL_OES t i ∧ i ≠ 0 ∧ isspace (charAt t (i - 1)) = true ∧
    isspace (charAt t (i + 18)) = true

instance (t : List UInt8) (i : Nat) : Decidable (Spaced t i) :=
  inferInstanceAs (Decidable (_ ∧ _ ∧ _ ∧ _))

def nameStart (t : List UInt8) (i : Nat) : Nat := skip isspace t (i + 18)

def nameEnd (t : List UInt8) (i : Nat) : Nat := skip isIdentifier t (nameStart t i + 1)

/-- The name that is recorded for a token. -/
def firstName (t : List UInt8) (i : Nat) : List UInt8 := slice t (nameStart t i) (nameEnd t i)

theorem isspace_of_isIdentifier {c : UInt8} (h : isIdentifier c = true) : isspace c = false := by
  rw [isIdentifier, Bool.or_eq_true, beq_iff_eq] at h
  obtain h | rfl := h
  · exact isspace_of_isalnum h
  · rfl

theorem isIdentifier_of_start {c : UInt8} (h : isalpha c = true ∨ c = 95) :
    isIdentifier c = true := by
  rw [isIdentifier, isalnum]
  grind

theorem token_at (h : At STR_SAMPLER_EXTERNAL_OES t i) : charAt t i = 115 := h 0 (by decide)

/-- The token begins nowhere inside of itself. -/
theorem token_inside : ∀ k < 18, 0 < k → charAt STR_SAMPLER_EXTERNAL_OES k ≠ 115 := by decide

theorem token_identifier :
    ∀ k < 18, isIdentifier (charAt STR_SAMPLER_EXTERNAL_OES k) = true := by decide

theorem not_at_inside (h : At STR_SAMPLER_EXTERNAL_OES t i) (hi : i < j) (hj : j < i + 18) :
    ¬At STR_SAMPLER_EXTERNAL_OES t j := by
  intro hat
  have hchar := h (j - i) (by change j - i < 18; omega)
  grind [token_at, token_inside]

theorem le_nameStart (t : List UInt8) (i : Nat) : i + 18 ≤ nameStart t i := le_skip rfl _ _

theorem lt_nameEnd (t : List UInt8) (i : Nat) : nameStart t i < nameEnd t i := le_skip rfl _ _

/-- The tokens that are replaced from `c` on. -/
structure Marks (t : List UInt8) (c : Nat) (ps : List Nat) : Prop where
  spaced : ∀ p ∈ ps, c ≤ p ∧ Spaced t p
  apart : ps.Pairwise fun p q => nameEnd t p ≤ q
  all : ∀ i, c ≤ i → Spaced t i → i ∈ ps ∨ ∃ p ∈ ps, i = nameStart t p

variable {ps : List Nat}

theorem Marks.pass {c' : Nat} (h : Marks t c' ps) (hle : c ≤ c')
    (hno : ∀ i, c ≤ i → i < c' → ¬Spaced t i) : Marks t c ps := by
  refine ⟨fun p hp => ⟨Nat.le_trans hle (h.spaced p hp).1, (h.spaced p hp).2⟩, h.apart,
    fun i hi hspaced => ?_⟩
  grind [h.all]

theorem Marks.cons (h : Marks t (nameEnd t c) ps) (hspaced : Spaced t c)
    (hname : isIdentifier (charAt t (nameStart t c)) = true) : Marks t c (c :: ps) := by
  have hstart := le_nameStart t c
  have hend := lt_nameEnd t c
  refine ⟨fun p hp => ?_, List.pairwise_cons.mpr ⟨fun q hq => (h.spaced q hq).1, h.apart⟩,
    fun i hi hi' => ?_⟩
  · obtain rfl | hp := List.mem_cons.mp hp
    · exact ⟨Nat.le_refl p, hspaced⟩
    · obtain ⟨hle, hp⟩ := h.spaced p hp
      exact ⟨by omega, hp⟩
  obtain rfl | hgt := Nat.eq_or_lt_of_le hi
  · exact .inl List.mem_cons_self
  by_cases hin : i < c + 18
  · exact absurd hi'.1 (not_at_inside hspaced.1 hgt hin)
  by_cases hgap : i < nameStart t c
  · have hrun := skip_run (p := isspace) rfl (Nat.le_of_not_lt hin) hgap
    rw [token_at hi'.1] at hrun
    cases hrun
  by_cases heq : i = nameStart t c
  · exact .inr ⟨c, List.mem_cons_self, heq⟩
  by_cases hword : i < nameEnd t c
  · have hprev : isIdentifier (charAt t (i - 1)) = true := by
      by_cases hfirst : i - 1 = nameStart t c
      · grind
      · exact skip_run (p := isIdentifier) (i := nameStart t c + 1) rfl (by omega)
          (by rw [nameEnd] at hword; omega)
    have hspace := hi'.2.2.1
    rw [isspace_of_isIdentifier hprev] at hspace
    cases hspace
  · grind [h.all]

/-- What the loop leaves of a text `str` if it replaces the tokens `ps`. -/
structure Replaced (str : List UInt8) (ps : List Nat) (out : List UInt8) : Prop where
  length : out.length = str.length
  inside : ∀ p ∈ ps, ∀ k < 18, charAt out (p + k) = charAt STR_SAMPLER2D_SPACE k
  outside : ∀ j, (∀ p ∈ ps, p ≤ j → p + 18 ≤ j) → charAt out j = charAt str j

theorem Replaced.cons (h : Replaced (overwrite str c STR_SAMPLER2D_SPACE) ps out)
    (hc : c + 18 ≤ str.length) (hps : ∀ p ∈ ps, c + 18 ≤ p) : Replaced str (c :: ps) out := by
  have hspace : STR_SAMPLER2D_SPACE.length = 18 := by decide
  refine ⟨h.length.trans (overwrite_length (by omega)), fun p hp k hk => ?_, fun j hj => ?_⟩
  · grind [h.outside, h.inside]
  · grind [h.outside]

theorem replaceSamplers_run : ∀ n str (data : ShaderData) c, str.length = t.length →
    (∀ j, c ≤ j + 1 → charAt str j = charAt t j) →
    replaceSamplers n str data c = some (true, out, data') →
    ∃ ps, Marks t c ps ∧ Replaced str ps out ∧
      data'.samplerExternalNames = data.samplerExternalNames ++ ps.map (firstName t) := by
  intro n
  induction n with
  | zero =>
      intro str data c _ _ h
      cases h
  | succ n ih =>
      intro str data c hlength hrest h
      rw [replaceSamplers] at h
      have hcongr : ∀ i, c ≤ i + 1 →
          (At STR_SAMPLER_EXTERNAL_OES str i ↔ At STR_SAMPLER_EXTERNAL_OES t i) :=
        fun i hi => At.congr fun k hk _ => hrest k (by omega)
      cases hfind : strstr STR_SAMPLER_EXTERNAL_OES str c with
      | none =>
          rw [hfind] at h
          cases h
          have hno := strstr_none (by decide) (by decide) hfind
          refine ⟨[], ⟨fun p hp => (List.not_mem_nil hp).elim, .nil, fun i hi hspaced => ?_⟩,
            ⟨rfl, fun p hp => (List.not_mem_nil hp).elim, fun j _ => rfl⟩,
            (List.append_nil _).symm⟩
          exact absurd ((hcongr i (by omega)).mpr hspaced.1) (hno i hi)
      | some i =>
          rw [hfind] at h
          dsimp only at h
          obtain ⟨hle, hat, hfirst⟩ := strstr_some hfind
          have hbefore : ∀ j, c ≤ j → j < i → ¬Spaced t j := fun j hj hlt hspaced =>
            hfirst j hj hlt ((hcongr j (by omega)).mpr hspaced.1)
          have htoken := (hcongr i (by omega)).mp hat
          have hpattern : STR_SAMPLER_EXTERNAL_OES.length = 18 := by decide
          have hin := htoken.le_length (by decide) (by decide)
          rw [hpattern, hrest (i + 18) (by omega)] at h
          split at h
          · rename_i hspace
            obtain ⟨ps, hmarks, hreplaced, hnames⟩ :=
              ih str data (i + 1) hlength (fun j hj => hrest j (by omega)) h
            refine ⟨ps, hmarks.pass (by omega) fun j hj hlt hspaced => ?_, hreplaced, hnames⟩
            obtain rfl | hlt := Nat.eq_or_lt_of_le (Nat.le_of_lt_succ hlt)
            · obtain hzero | hspace := hspace
              · exact hspaced.2.1 hzero
              · rw [hrest _ (by omega), hspaced.2.2.1] at hspace
                cases hspace
            · exact hbefore j hj hlt hspaced
          rename_i hspace
          rw [not_or] at hspace
          split at h
          · rename_i hnext
            obtain ⟨ps, hmarks, hreplaced, hnames⟩ :=
              ih str data (i + 18) hlength (fun j hj => hrest j (by omega)) h
            refine ⟨ps, hmarks.pass (by omega) fun j hj hlt hspaced => ?_, hreplaced, hnames⟩
            obtain hlt' | rfl | hgt := Nat.lt_trichotomy j i
            · exact hbefore j hj hlt' hspaced
            · rw [hspaced.2.2.2] at hnext
              exact Bool.false_ne_true hnext.1.symm
            · exact not_at_inside htoken hgt hlt hspaced.1
          rename_i hnext
          have hstart : skip isspace str (i + 18) = nameStart t i :=
            skip_congr rfl fun j hj => hrest j (by omega)
          have hle' := le_nameStart t i
          have hend : skip isIdentifier str (nameStart t i + 1) = nameEnd t i :=
            skip_congr rfl fun j hj => hrest j (by omega)
          have hword : slice str (nameStart t i) (nameEnd t i) = firstName t i :=
            List.map_congr_left fun k _ => hrest _ (by omega)
          rw [hstart, hend, hword, hrest _ (by omega)] at h
          split at h
          · cases h
          rename_i hname
          have hword : isIdentifier (charAt t (nameStart t i)) = true := by
            refine isIdentifier_of_start ?_
            rwa [not_and_or, Bool.not_eq_false, not_not] at hname
          have hgap : isspace (charAt t (i + 18)) = true := by
            by_contra hno
            have hno := Bool.eq_false_of_not_eq_true hno
            have hend : charAt t (i + 18) = 0 := by
              by_contra hne
              exact hnext ⟨hno, hne⟩
            have hnone : nameStart t i = i + 18 :=
              skip_unique rfl (Nat.le_refl _) (fun j hj hlt => absurd hj (Nat.not_le.mpr hlt)) hno
            rw [hnone, hend] at hword
            cases hword
          have hspaced : Spaced t i := by
            refine ⟨htoken, hspace.1, ?_, hgap⟩
            rw [← hrest _ (by omega)]
            exact Bool.eq_true_of_not_eq_false hspace.2
          have hlt := lt_nameEnd t i
          have hsize : STR_SAMPLER2D_SPACE.length = 18 := by decide
          obtain ⟨ps, hmarks, hreplaced, hnames⟩ := ih _ _ _
            ((overwrite_length (by omega)).trans hlength) (fun j hj => by
              rw [charAt_overwrite (by omega), if_neg (by omega), hrest j (by omega)]) h
          refine ⟨i :: ps, (hmarks.cons hspaced hword).pass hle hbefore,
            hreplaced.cons (by omega) fun p hp => ?_, ?_⟩
          · have := (hmarks.spaced p hp).1
            omega
          · rw [hnames, List.map_cons, List.append_assoc]
            rfl

theorem replaceSamplers_terminates : ∀ n str (data : ShaderData) c, c ≤ str.length →
    str.length < c + n → ∃ r, replaceSamplers n str data c = some r := by
  intro n
  induction n with
  | zero => omega
  | succ n ih =>
      intro str data c hle hn
      rw [replaceSamplers]
      cases hfind : strstr STR_SAMPLER_EXTERNAL_OES str c with
      | none => exact ⟨_, rfl⟩
      | some i =>
          obtain ⟨hci, hat, -⟩ := strstr_some hfind
          have hin := hat.le_length (by decide) (by decide)
          have hpattern : STR_SAMPLER_EXTERNAL_OES.length = 18 := by decide
          dsimp only
          rw [hpattern] at hin ⊢
          split
          · exact ih _ _ _ (by omega) (by omega)
          split
          · exact ih _ _ _ hin (by omega)
          split
          · exact ⟨_, rfl⟩
          rename_i hname
          have hsize : STR_SAMPLER2D_SPACE.length = 18 := by decide
          have hgap := le_skip (p := isspace) rfl str (i + 18)
          have hword := le_skip (p := isIdentifier) rfl str (skip isspace str (i + 18) + 1)
          have hlt : skip isspace str (i + 18) < str.length := by
            refine lt_of_charAt fun hzero => ?_
            rw [hzero] at hname
            exact hname ⟨rfl, by decide⟩
          have hend := skip_le (p := isIdentifier) rfl hlt
          exact ih _ _ _ (by rwa [overwrite_length (by omega)])
            (by rw [overwrite_length (by omega)]; omega)

/-! ## Names -/

theorem Spaced.standalone (h : Spaced t i) : Standalone t i := by
  obtain ⟨hat, -, hbefore, hbehind⟩ := h
  refine ⟨hat, .inr ?_, ?_⟩
  · by_contra hword
    grind [isspace_of_isIdentifier]
  · by_contra hword
    grind [isspace_of_isIdentifier]

@[simp] theorem slice_length : (slice t i j).length = j - i := by
  rw [slice, List.length_map, List.length_range]

theorem charAt_slice (h : i + k < j) : charAt (slice t i j) k = charAt t (i + k) := by
  rw [slice, charAt_map_range, if_pos (by omega)]

/-- The token is its own name where it stands alone. -/
theorem firstName_eq_iff (h : Spaced t i) :
    firstName t i = STR_SAMPLER_EXTERNAL_OES ↔ Standalone t (nameStart t i) := by
  have hlength : STR_SAMPLER_EXTERNAL_OES.length = 18 := by decide
  have hlt := lt_nameEnd t i
  constructor
  · intro hname
    have hsize := congrArg List.length hname
    rw [firstName, slice_length, hlength] at hsize
    have hend : nameEnd t i = nameStart t i + 18 := by omega
    have hgap : i + 18 < nameStart t i := by
      refine Nat.lt_of_le_of_ne (le_nameStart t i) fun heq => ?_
      have hstop := skip_stop (p := isspace) rfl t (i + 18)
      rw [← nameStart, ← heq, h.2.2.2] at hstop
      cases hstop
    refine ⟨fun k hk => ?_, .inr ?_, ?_⟩
    · rw [← hname, firstName, charAt_slice (by omega)]
    · by_contra hword
      have hspace := isspace_of_isIdentifier (Bool.eq_true_of_not_eq_false hword)
      rw [skip_run (p := isspace) (i := i + 18) rfl (by omega)
        (by rw [← nameStart]; omega)] at hspace
      cases hspace
    · rw [← hend]
      exact skip_stop rfl t _
  · rintro ⟨hat, -, hbehind⟩
    have hend : nameEnd t i = nameStart t i + 18 := by
      refine skip_unique rfl (by omega) (fun j hj hlt => ?_) hbehind
      have hchar := hat (j - nameStart t i) (by omega)
      grind [token_identifier]
    refine ext_charAt (by rw [firstName, slice_length, hend, hlength]; omega) fun k => ?_
    by_cases hk : k < 18
    · rw [firstName, charAt_slice (by omega), hat k (by omega)]
    · rw [charAt_of_le (by rw [firstName, slice_length]; omega), charAt_of_le (by omega)]

/-! ## The tokens that are left -/

section Left

variable (hmarks : Marks t 0 ps)
include hmarks

/-- There is a character between two tokens if one of them is replaced. -/
theorem outside_of_at (hat : At STR_SAMPLER_EXTERNAL_OES t i) (hi : i ∉ ps) (hp : p ∈ ps) :
    i + 18 < p ∨ p + 18 < i := by
  obtain ⟨-, htoken, -, hbefore, hbehind⟩ := hmarks.spaced p hp
  obtain hlt | heq | hlt := Nat.lt_trichotomy i p
  · refine .inl (Nat.lt_of_le_of_ne (Nat.le_of_not_lt fun h => ?_) fun heq => ?_)
    · exact not_at_inside hat hlt h htoken
    · have hlast := hat 17 (by decide)
      rw [← heq] at hbefore
      rw [show i + 18 - 1 = i + 17 by omega, hlast] at hbefore
      cases hbefore
  · exact absurd (heq ▸ hp) hi
  · refine .inr (Nat.lt_of_le_of_ne (Nat.le_of_not_lt fun h => ?_) fun heq => ?_)
    · exact not_at_inside htoken hlt h hat
    · rw [heq, token_at hat] at hbehind
      cases hbehind

variable (hreplaced : Replaced t ps out)
include hreplaced

theorem at_out_iff : At STR_SAMPLER_EXTERNAL_OES out i ↔
    At STR_SAMPLER_EXTERNAL_OES t i ∧ i ∉ ps := by
  constructor
  · intro hat
    have hspace : ∀ k < 18, 0 < k → charAt STR_SAMPLER2D_SPACE k ≠ 115 := by decide
    have hchar : ∀ k < 18, charAt out (i + k) = charAt STR_SAMPLER_EXTERNAL_OES k := hat
    have hapart : ∀ p ∈ ps, i + 18 ≤ p ∨ p + 18 ≤ i := by
      intro p hp
      have hinside := hreplaced.inside p hp
      by_contra hno
      obtain hlt | rfl | hlt := Nat.lt_trichotomy i p
      · have h := hchar (p - i) (by omega)
        rw [Nat.add_sub_cancel' (by omega)] at h
        exact token_inside (p - i) (by omega) (by omega) (h.symm.trans (hinside 0 (by decide)))
      · have h := (hchar 7 (by decide)).symm.trans (hinside 7 (by decide))
        exact absurd h (by decide)
      · have h := hinside (i - p) (by omega)
        rw [Nat.add_sub_cancel' (by omega), token_at hat] at h
        exact hspace (i - p) (by omega) (by omega) h.symm
    refine ⟨fun k hk => ?_, fun hi => ?_⟩
    · rw [← hat k hk]
      have hk : k < 18 := hk
      grind [hreplaced.outside]
    · have := hapart i hi
      omega
  · rintro ⟨hat, hi⟩ k hk
    have hk' : k < 18 := hk
    rw [← hat k hk]
    refine hreplaced.outside _ fun p hp hle => ?_
    have := outside_of_at hmarks hat hi hp
    omega

/-- The characters around a token that is left. -/
theorem around_out (hat : At STR_SAMPLER_EXTERNAL_OES t i) (hi : i ∉ ps)
    (hj : j + 1 = i ∨ j = i + 18) : charAt out j = charAt t j :=
  hreplaced.outside j fun p hp hle => by
    have := outside_of_at hmarks hat hi hp
    omega

theorem standalone_out_iff : Standalone out i ↔ Standalone t i ∧ i ∉ ps := by
  have hsame : At STR_SAMPLER_EXTERNAL_OES t i → i ∉ ps →
      ((i = 0 ∨ isIdentifier (charAt out (i - 1)) = false) ∧
          isIdentifier (charAt out (i + 18)) = false ↔
        (i = 0 ∨ isIdentifier (charAt t (i - 1)) = false) ∧
          isIdentifier (charAt t (i + 18)) = false) := by grind [around_out]
  constructor
  · rintro ⟨hat, haround⟩
    obtain ⟨hat, hi⟩ := (at_out_iff hmarks hreplaced).mp hat
    exact ⟨⟨hat, (hsame hat hi).mp haround⟩, hi⟩
  · rintro ⟨⟨hat, haround⟩, hi⟩
    exact ⟨(at_out_iff hmarks hreplaced).mpr ⟨hat, hi⟩, (hsame hat hi).mpr haround⟩

/-- No token is left if each has white space around it and none is the name of another. -/
theorem all_replaced_iff : (∀ i, ¬Standalone out i) ↔
    ∀ i, Standalone t i → Spaced t i ∧ firstName t i ≠ STR_SAMPLER_EXTERNAL_OES := by
  constructor
  · intro hnone i hi
    have hmem : ∀ j, Standalone t j → j ∈ ps := fun j hj => by
      by_contra hout
      exact hnone j ((standalone_out_iff hmarks hreplaced).mpr ⟨hj, hout⟩)
    have hspaced := (hmarks.spaced i (hmem i hi)).2
    refine ⟨hspaced, fun hname => ?_⟩
    have hnext := hmem _ ((firstName_eq_iff hspaced).mp hname)
    have hstart := le_nameStart t i
    have hend := lt_nameEnd t i
    have hend' := lt_nameEnd t (nameStart t i)
    have hstart' := le_nameStart t (nameStart t i)
    have : Std.Symm fun p q => nameEnd t p ≤ q ∨ nameEnd t q ≤ p := ⟨fun _ _ => Or.symm⟩
    have hapart : ps.Pairwise fun p q => nameEnd t p ≤ q ∨ nameEnd t q ≤ p :=
      hmarks.apart.imp Or.inl
    have := hapart.forall (hmem i hi) hnext (by omega)
    omega
  · intro hall i hi
    obtain ⟨hi, hout⟩ := (standalone_out_iff hmarks hreplaced).mp hi
    obtain ⟨hspaced, -⟩ := hall i hi
    obtain hmem | ⟨p, hp, rfl⟩ := hmarks.all i (Nat.zero_le i) hspaced
    · exact hout hmem
    · have hp := (hmarks.spaced p hp).2
      exact (hall p hp.standalone).2 ((firstName_eq_iff hp).mpr hi)

/-- All tokens are replaced, in their order. -/
theorem eq_tokens (hall : ∀ i, ¬Standalone out i) : ps = tokens t := by
  have hincreasing : ps.Pairwise (· < ·) := hmarks.apart.imp fun {p q} hpq => by
    have hstart := le_nameStart t p
    have hend := lt_nameEnd t p
    omega
  refine hincreasing.eq_of_mem_iff (List.pairwise_lt_range.filter _) fun i => ?_
  rw [tokens, List.mem_filter, List.mem_range, decide_eq_true_eq]
  constructor
  · intro hi
    have hspaced := (hmarks.spaced i hi).2
    have hend := hspaced.1.le_length (by decide) (by decide)
    have hlength : STR_SAMPLER_EXTERNAL_OES.length = 18 := by decide
    exact ⟨by omega, hspaced.standalone⟩
  · rintro ⟨-, hi⟩
    by_contra hout
    exact hall i ((standalone_out_iff hmarks hreplaced).mpr ⟨hi, hout⟩)

end Left

/-! ## Sources -/

theorem Directive.removes (h : Directive s d) : Removes s d := by
  obtain ⟨hhash, -, -, hname, -⟩ := h
  refine ⟨hhash, ?_⟩
  have hskip : skip isspace s (d + STR_HASH_EXTENSION.length) = skip isBlank s (d + 10) := by
    refine skip_unique rfl (le_skip rfl s _) (fun j hj hlt => ?_) ?_
    · exact (Bool.and_eq_true_iff.mp (skip_run (p := isBlank) rfl hj hlt)).1
    · have hfirst := hname 0 (by decide)
      rw [Nat.add_zero] at hfirst
      rw [hfirst]
      rfl
  rw [hskip]
  exact hname

/-- Only statements for the extension are taken for such. -/
def RemovesDirectives (s : List UInt8) : Prop :=
  ∀ i < s.length, Removes s i → InLine (Directive s) s i

instance (s : List UInt8) : Decidable (RemovesDirectives s) :=
  inferInstanceAs (Decidable (∀ i < s.length, Removes s i → InLine (Directive s) s i))

theorem Removes.lt_length (h : Removes s i) : i < s.length :=
  lt_of_charAt (by rw [hash_at h.1]; decide)

theorem RemovesDirectives.inLine_iff (h : RemovesDirectives s) :
    InLine (Removes s) s j ↔ InLine (Directive s) s j := by
  constructor
  · rintro ⟨i, hi, hremoves, hlt⟩
    obtain ⟨d, hd, hdirective, hlt'⟩ := h i hremoves.lt_length hremoves
    rw [lineEnd_eq (by omega) hlt'] at hlt
    exact ⟨d, by omega, hdirective, hlt⟩
  · rintro ⟨d, hd, hdirective, hlt⟩
    exact ⟨d, hd, hdirective.removes, hlt⟩

theorem RemovesDirectives.blankLines_eq (h : RemovesDirectives s) :
    blankLines (Removes s) s = withoutExtensions s := by
  refine ext_charAt ((blankLines_length _ s).trans (blankLines_length _ s).symm) fun j => ?_
  simp [withoutExtensions, charAt_blankLines, h.inLine_iff]

/-- A token outside of the statements is one of the source. -/
theorem standalone_of_withoutExtensions (h : Standalone (withoutExtensions s) i) :
    Standalone s i := by
  have hblank := charAt_blankLines (Directive s) s
  rw [← withoutExtensions] at hblank
  obtain ⟨hat, hbefore, hbehind⟩ := h
  have hout : ∀ k < 18, ¬InLine (Directive s) s (i + k) := by
    intro k hk hin
    have hchar := hat k hk
    rw [hblank, if_pos hin] at hchar
    have hspace : ∀ k < 18, charAt STR_SAMPLER_EXTERNAL_OES k ≠ 32 := by decide
    exact hspace k hk hchar.symm
  have hat' : At STR_SAMPLER_EXTERNAL_OES s i := fun k hk => by
    rw [← hat k hk, hblank, if_neg (hout k hk)]
  refine ⟨hat', ?_, ?_⟩
  · by_cases hzero : i = 0
    · exact .inl hzero
    have hprev : ¬InLine (Directive s) s (i - 1) := by
      rintro ⟨d, hd, hdirective, hlt⟩
      have hend : skip isLine s d = i := by
        have hnot : ¬i < skip isLine s d := fun h => hout 0 (by decide) ⟨d, by omega, hdirective, h⟩
        omega
      have hstop := skip_stop (p := isLine) rfl s d
      rw [hend, token_at hat'] at hstop
      cases hstop
    rw [hblank, if_neg hprev] at hbefore
    exact hbefore
  · by_cases hnext : InLine (Directive s) s (i + 18)
    · obtain ⟨d, hd, hdirective, hlt⟩ := hnext
      have hfirst : d = i + 18 := by
        by_contra hne
        exact hout 17 (by decide) ⟨d, by omega, hdirective, by omega⟩
      rw [← hfirst, hash_at hdirective.1]
      rfl
    · grind

/-- The sources of which the code makes what they say. -/
structure Replaceable (s : List UInt8) (data : ShaderData) : Prop where
  removes : RemovesDirectives s
  tokens : ∀ i < s.length, Standalone (withoutExtensions s) i →
    Spaced (withoutExtensions s) i ∧
      firstName (withoutExtensions s) i ≠ STR_SAMPLER_EXTERNAL_OES
  names : data.samplerExternalNames ++
      (AndroidRenderer.tokens (withoutExtensions s)).map (firstName (withoutExtensions s)) =
    (AndroidRenderer.tokens (withoutExtensions s)).flatMap (declarators (withoutExtensions s))

/-- What is left of an extension that is not one. -/
theorem not_rewritten (hno : ¬RemovesDirectives s) (hmarks : Marks (blankLines (Removes s) s) 0 ps)
    (hreplaced : Replaced (blankLines (Removes s) s) ps out) : ¬Rewritten s out data' := by
  intro h
  obtain ⟨i, hi⟩ := not_forall.mp hno
  rw [Classical.not_imp, Classical.not_imp] at hi
  obtain ⟨hlt, hremoves, hout⟩ := hi
  have hhash := hash_at hremoves.1
  have hline : i < skip isLine s i := by
    refine Nat.lt_of_le_of_ne (le_skip rfl s i) fun heq => ?_
    have hstop := skip_stop (p := isLine) rfl s i
    rw [← heq, hhash] at hstop
    cases hstop
  have hblank : charAt (blankLines (Removes s) s) i = 32 := by
    rw [charAt_blankLines, if_pos ⟨i, Nat.lt_succ_self i, hremoves, hline⟩]
  have hspace : ∀ k < 18, charAt STR_SAMPLER_EXTERNAL_OES k ≠ 32 := by decide
  have hhashed : ∀ k < 18, charAt STR_SAMPLER_EXTERNAL_OES k ≠ 35 := by decide
  have hleft : charAt out i = 32 := by
    rw [hreplaced.outside i fun p hp hle => ?_, hblank]
    by_contra hlt'
    have hchar := (hmarks.spaced p hp).2.1 (i - p) (by change i - p < 18; omega)
    grind
  obtain ⟨p, hp, hle, hlt'⟩ | hin := h.differs i (by rw [hleft, hhash]; decide)
  · have hchar := hp.1 (i - p) (by change i - p < 18; omega)
    grind
  · exact hout hin

/-- The rewriting ends, and where it succeeds it makes of the source what it says if and only if the
source is replaceable. -/
theorem replaceSamplerExternalWith2D_iff (s : List UInt8) (data : ShaderData) :
    (∃ r, replaceSamplerExternalWith2D s data = some r) ∧
      ∀ out data', replaceSamplerExternalWith2D s data = some (true, out, data') →
        (Rewritten s out data' ↔ Replaceable s data) := by
  have hfirst := overwriteExtensions_eq (s.length + 1) s 0
    ⟨rfl, Nat.zero_le _, fun j hj => absurd hj (Nat.not_lt_zero j), fun j _ => rfl,
      fun i hi => absurd hi (Nat.not_lt_zero i)⟩ (by omega)
  have hlength := blankLines_length (Removes s) s
  rw [replaceSamplerExternalWith2D, hfirst, Option.bind_some]
  refine ⟨replaceSamplers_terminates _ _ data 0 (Nat.zero_le _) (by omega), fun out data' h => ?_⟩
  obtain ⟨ps, hmarks, hreplaced, hnames⟩ := replaceSamplers_run _ _ data 0 rfl (fun _ _ => rfl) h
  by_cases hremoves : RemovesDirectives s
  · rw [hremoves.blankLines_eq] at hmarks hreplaced hnames hlength
    have htokens := all_replaced_iff hmarks hreplaced
    constructor
    · intro hrewritten
      refine ⟨hremoves, fun i _ hi => htokens.mp hrewritten.tokens i hi, ?_⟩
      rw [← hrewritten.names, hnames, eq_tokens hmarks hreplaced hrewritten.tokens]
    · intro hreplaceable
      have hall := htokens.mpr fun i hi =>
        hreplaceable.tokens i (hlength ▸ lt_of_charAt (by rw [token_at hi.1]; decide)) hi
      refine ⟨hreplaced.length.trans hlength, hall, fun j hj => ?_, ?_⟩
      · by_contra hno
        rw [not_or] at hno
        refine hj ((hreplaced.outside j fun p hp hle => ?_).trans ?_)
        · by_contra hlt
          exact hno.1 ⟨p, standalone_of_withoutExtensions (hmarks.spaced p hp).2.standalone, hle,
            by omega⟩
        · rw [withoutExtensions, charAt_blankLines, if_neg hno.2]
      · rw [hnames, eq_tokens hmarks hreplaced hall, hreplaceable.names]
  · exact iff_of_false (not_rewritten hremoves hmarks hreplaced) fun h => hremoves h.removes

def externalSource : List UInt8 :=
  literal "#extension GL_OES_EGL_image_external : require\n" ++
    literal "uniform samplerExternalOES a;\nuniform samplerExternalOES\tb_2 ;\n"

theorem externalSource_rewritten :
    ∃ out data', replaceSamplerExternalWith2D externalSource ⟨[], 1⟩ = some (true, out, data') ∧
      Rewritten externalSource out data' := by
  have hrun : replaceSamplerExternalWith2D externalSource ⟨[], 1⟩ =
      some (true, literal "                                              \n" ++
        literal "uniform sampler2D          a;\nuniform sampler2D         \tb_2 ;\n",
        ⟨[literal "a", literal "b_2"], 1⟩) := by
    decide +kernel
  exact ⟨_, _, hrun, ((replaceSamplerExternalWith2D_iff _ _).2 _ _ hrun).mpr
    ⟨by decide +kernel, by decide +kernel, by decide +kernel⟩⟩

/-- A parameter behind its parenthesis is left as it is, and of two names one is recorded. -/
theorem samplers_missed :
    (∃ out, replaceSamplerExternalWith2D (literal "vec4 f(samplerExternalOES s);") ⟨[], 1⟩ =
        some (true, out, ⟨[], 1⟩) ∧ Standalone out 7) ∧
      ∃ out, replaceSamplerExternalWith2D (literal "uniform samplerExternalOES a, b;") ⟨[], 1⟩ =
          some (true, out, ⟨[literal "a"], 1⟩) ∧
        declarators (withoutExtensions (literal "uniform samplerExternalOES a, b;")) 8 =
          [literal "a", literal "b"] :=
  ⟨⟨literal "vec4 f(samplerExternalOES s);", by decide +kernel, by decide +kernel⟩,
    literal "uniform sampler2D          a, b;", by decide +kernel, by decide +kernel⟩

end AndroidRenderer
