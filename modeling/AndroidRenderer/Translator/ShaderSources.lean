import AndroidRenderer.Translator.OmittedPrecision
import Mathlib.Algebra.Order.BigOperators.Group.List

/-!
# Sources that replace each other

`setSrc` appends to what is left of the earlier sources, which keeps its length when it is parsed, and
takes every string up to its NUL. So a source is the one of the last call if all the earlier ones were
empty and the given lengths are those that the strings have anyway.
-/

namespace AndroidRenderer.Translator

open CString

variable {src rest parsed : List UInt8} {force : Option (List UInt8)} {c n : Nat}

/-! ## Parsing -/

variable (src) in
theorem skipComments_some : ∀ n parse c, c ≤ src.length → src.length < c + n →
    ∃ c', skipComments n src parse c = some c' ∧ c' ≤ src.length := by
  intro n
  induction n with
  | zero =>
      intro parse c hle hn
      omega
  | succ n ih =>
      intro parse c hle hn
      unfold skipComments
      by_cases hend : charAt src c = 0
      · exact ⟨c, if_pos hend, hle⟩
      rw [if_neg hend]
      have hlt := lt_of_charAt hend
      have hpair : ∀ {x y}, y ≠ 0 → isPair src c x y → c + 2 ≤ src.length := fun hy hxy =>
        lt_of_charAt (hxy.2 ▸ hy)
      cases parse with
      | PARSE_IN_C_COMMENT =>
          dsimp only
          split
          · rename_i hclose
            exact ih _ _ (hpair (by decide) hclose) (by omega)
          · exact ih _ _ hlt (by omega)
      | PARSE_IN_LINE_COMMENT => exact ih _ _ hlt (by omega)
      | PARSE_NONE =>
          dsimp only
          split
          · rename_i hline
            exact ih _ _ (hpair (by decide) hline) (by omega)
          split
          · rename_i hblock
            exact ih _ _ (hpair (by decide) hblock) (by omega)
          split
          · exact ih _ _ hlt (by omega)
          · exact ⟨c, rfl, hle⟩

theorem not_mem_iff : 0 ∉ src ↔ ∀ i < src.length, charAt src i ≠ 0 := by
  constructor
  · grind [charAt_eq_getElem]
  · intro h hmem
    obtain ⟨i, hi, hzero⟩ := List.getElem_of_mem hmem
    exact h i hi ((charAt_eq_getElem hi).trans hzero)

theorem blankVersion_spec (hsrc : 0 ∉ src) :
    ∃ rest ver, blankVersion src = some (rest, ver) ∧ rest.length = src.length ∧ 0 ∉ rest := by
  obtain ⟨c, hskip, hle⟩ := skipComments_some src (src.length + 1)
    .PARSE_NONE 0 (Nat.zero_le _) (by omega)
  rw [blankVersion, hskip, Option.map_some]
  split
  · rename_i hat
    have hversion := hat.le_length (by decide) (by decide)
    have hlength : (literal "#version").length = 8 := by decide
    cases sscanfInt src (c + 8) with
    | none => exact ⟨_, _, rfl, rfl, hsrc⟩
    | some ver =>
        have hdigits := le_skip (p := fun ch => !isdigit ch && ch != 0) rfl src (c + 8)
        have hdigits' : skip (fun ch => !isdigit ch && ch != 0) src (c + 8) ≤ src.length :=
          skip_le rfl (by omega)
        have hstop := Nat.le_trans hdigits (le_skip (p := isdigit) rfl src _)
        have hstop' := skip_le (p := isdigit) rfl hdigits'
        grind [blank_length, not_mem_iff]
  · exact ⟨_, _, rfl, rfl, hsrc⟩

theorem blankAll_not_mem (hsrc : 0 ∉ src) (regions : List (Nat × Nat)) :
    0 ∉ blankAll src regions := by
  rw [not_mem_iff, blankAll_length]
  grind [blankAll, not_mem_iff]

namespace ShaderParser

/-- Parsing ends, and keeps the length of the source. -/
theorem parse_spec (force : Option (List UInt8)) (hsrc : 0 ∉ src) :
    ∃ rest parsed, parse force src = some (rest, parsed) ∧ rest.length = src.length ∧ 0 ∉ rest := by
  obtain ⟨rest, ver, hversion, hlength, hrest⟩ := blankVersion_spec hsrc
  rw [parse, parseGLSLversion, hversion, Option.map_some, Option.bind_some]
  dsimp only
  rw [parseOmitPrecision_eq hrest, Option.map_some]
  exact ⟨_, _, rfl, (blankAll_length rest _).trans hlength, blankAll_not_mem hrest _⟩

/-! ## Sources of a call -/

/-- The characters of a string before its NUL. -/
def text (chars : List UInt8) : List UInt8 := chars.takeWhile (· != 0)

theorem not_mem_text (chars : List UInt8) : 0 ∉ text chars := fun h => by
  have := List.mem_takeWhile_imp h
  cases this

theorem mapM_cstr {strings texts : List (List UInt8)} : strings.mapM cstr = .ok texts ↔
    (∀ chars ∈ strings, 0 ∈ chars) ∧ texts = strings.map text := by
  induction strings generalizing texts with
  | nil =>
      rw [List.mapM_nil]
      exact ⟨fun h => ⟨fun _ hc => absurd hc List.not_mem_nil, (Except.ok.inj h).symm⟩,
        fun h => h.2 ▸ rfl⟩
  | cons chars strings ih =>
      rw [List.mapM_cons, Run.bind_eq_ok, List.forall_mem_cons]
      by_cases hchars : 0 ∈ chars
      · have hcstr : cstr chars = .ok (text chars) := if_pos hchars
        simp only [hcstr, Run.bind_eq_ok, ih]
        constructor
        · rintro ⟨x, hx, xs, ⟨hall, rfl⟩, hok⟩
          obtain rfl := Except.ok.inj hx
          exact ⟨⟨hchars, hall⟩, (Except.ok.inj hok).symm⟩
        · rintro ⟨⟨-, hall⟩, rfl⟩
          exact ⟨_, rfl, _, ⟨hall, rfl⟩, rfl⟩
      · have hcstr : cstr chars = .error .outOfBounds := if_neg hchars
        grind

theorem not_mem_flatten (strings : List (List UInt8)) : 0 ∉ (strings.map text).flatten := by
  rw [List.mem_flatten]
  simp [not_mem_text]

variable {s s' : ShaderParser} {strings : List (List UInt8)}

/-- What a call makes of the parser. -/
theorem setSrc_ok (h : 0 ∉ s.m_src) : s.setSrc force strings = .ok s' ↔
    (∀ chars ∈ strings, 0 ∈ chars) ∧ ∃ rest parsed,
      parse force (s.m_src ++ (strings.map text).flatten) = some (rest, parsed) ∧
      s' = ⟨some (s.m_src ++ (strings.map text).flatten), rest, parsed⟩ := by
  have hsrc : 0 ∉ s.m_src ++ (strings.map text).flatten := fun hmem =>
    (List.mem_append.mp hmem).elim h (not_mem_flatten strings)
  obtain ⟨rest, parsed, hparse, -⟩ := parse_spec force hsrc
  grind [setSrc, Run.bind_eq_ok, mapM_cstr]

end ShaderParser

namespace SourceCall

open ShaderParser (text)

/-- The source that a call stands for: each string up to its length, or else up to its NUL. -/
def source (call : SourceCall) : List UInt8 :=
  (call.strings.zipIdx.map fun (chars, i) =>
    (givenLength call.lengths i).elim (text chars) chars.take).flatten

def Empty (call : SourceCall) : Prop :=
  call.count < 0 ∨ ∀ chars ∈ call.strings, chars.head? = some 0

instance (call : SourceCall) : Decidable call.Empty :=
  inferInstanceAs (Decidable (_ ∨ _))

/-- Each string ends with a NUL, behind as many characters as its length says, if one is given. -/
def Exact (call : SourceCall) : Prop :=
  ∀ p ∈ call.strings.zipIdx, 0 ∈ p.1 ∧
    ∀ n ∈ givenLength call.lengths p.2, n = (text p.1).length

instance (call : SourceCall) : Decidable call.Exact :=
  inferInstanceAs (Decidable (∀ _ ∈ _, _ ∧ _))

end SourceCall

/-! ## Sequences of calls -/

def runSources (force : Option (List UInt8)) (s : ShaderParser) (calls : List SourceCall) :
    Except SourceFault ShaderParser :=
  calls.foldlM (glShaderSource force) s

section Runs

open ShaderParser (text)

variable {s s' : ShaderParser} {call : SourceCall} {calls : List SourceCall}

theorem text_eq_nil {chars : List UInt8} (h : 0 ∈ chars) :
    text chars = [] ↔ chars.head? = some 0 := by
  cases chars with
  | nil => cases h
  | cons x chars => simp [text, List.takeWhile_cons, List.head?_cons, Option.some.injEq]

theorem flatten_eq_nil {strings : List (List UInt8)} (h : ∀ chars ∈ strings, 0 ∈ chars) :
    (strings.map text).flatten = [] ↔ ∀ chars ∈ strings, chars.head? = some 0 := by
  rw [List.flatten_eq_nil_iff, List.forall_mem_map]
  exact forall₂_congr fun chars hc => text_eq_nil (h chars hc)

/-- What a call leaves in `m_src`: all that was there, and its own characters. -/
theorem glShaderSource_length (h : 0 ∉ s.m_src) (hok : glShaderSource force s call = .ok s') :
    0 ∉ s'.m_src ∧ s.m_src.length ≤ s'.m_src.length ∧
      (s'.m_src.length = s.m_src.length → call.Empty) := by
  rw [glShaderSource] at hok
  split at hok
  · rename_i hcount
    obtain rfl := Except.ok.inj hok
    exact ⟨h, Nat.le_refl _, fun _ => .inl hcount⟩
  · obtain ⟨hall, rest, parsed, hparse, rfl⟩ := (ShaderParser.setSrc_ok h).mp hok
    have hsrc : 0 ∉ s.m_src ++ (call.strings.map text).flatten := fun hmem =>
      (List.mem_append.mp hmem).elim h (ShaderParser.not_mem_flatten call.strings)
    obtain ⟨rest', parsed', hparse', hlength, hrest⟩ := ShaderParser.parse_spec force hsrc
    obtain ⟨rfl, rfl⟩ := Prod.mk.inj (Option.some.inj (hparse.symm.trans hparse'))
    dsimp only
    rw [hlength, List.length_append]
    refine ⟨hrest, Nat.le_add_right _ _, fun heq => .inr ((flatten_eq_nil hall).mp ?_)⟩
    exact List.eq_nil_of_length_eq_zero (by omega)

theorem runSources_nil (h : 0 ∉ s.m_src) (hok : runSources force s calls = .ok s') :
    0 ∉ s'.m_src ∧ s.m_src.length ≤ s'.m_src.length ∧
      (s'.m_src.length = s.m_src.length → ∀ call ∈ calls, call.Empty) := by
  induction calls generalizing s with
  | nil =>
      obtain rfl := Except.ok.inj hok
      exact ⟨h, Nat.le_refl _, fun _ _ hc => absurd hc List.not_mem_nil⟩
  | cons call calls ih =>
      rw [runSources, List.foldlM_cons] at hok
      obtain ⟨t, ht, hrest⟩ := Run.bind_eq_ok.mp hok
      obtain ⟨hmem, hle, hempty⟩ := glShaderSource_length h ht
      obtain ⟨hmem', hle', hempties⟩ := ih hmem hrest
      grind

variable (force) in
theorem runSources_empty (h : s.m_src = []) (hempty : ∀ call ∈ calls, call.Empty) :
    ∃ s', runSources force s calls = .ok s' ∧ s'.m_src = [] := by
  induction calls generalizing s with
  | nil => exact ⟨s, rfl, h⟩
  | cons call calls ih =>
      rw [List.forall_mem_cons] at hempty
      have hsrc : 0 ∉ s.m_src := h ▸ List.not_mem_nil
      obtain ⟨t, ht, hnil⟩ : ∃ t, glShaderSource force s call = .ok t ∧ t.m_src = [] := by
        rw [glShaderSource]
        obtain hcount | hstrings := hempty.1
        · exact ⟨s, if_pos hcount, h⟩
        split
        · exact ⟨s, rfl, h⟩
        have hall : ∀ chars ∈ call.strings, 0 ∈ chars := fun chars hc =>
          List.mem_of_mem_head? (hstrings chars hc)
        have hflat := (flatten_eq_nil hall).mpr hstrings
        obtain ⟨rest, parsed, hparse, hlength, -⟩ := ShaderParser.parse_spec force
          (show 0 ∉ ([] : List UInt8) from List.not_mem_nil)
        refine ⟨_, (ShaderParser.setSrc_ok hsrc).mpr ⟨hall, rest, parsed, ?_, rfl⟩,
          List.eq_nil_of_length_eq_zero hlength⟩
        rw [h, hflat]
        exact hparse
      obtain ⟨s', hs', hnil'⟩ := ih hnil hempty.2
      refine ⟨s', ?_, hnil'⟩
      rw [runSources, List.foldlM_cons]
      exact Run.bind_eq_ok.mpr ⟨t, ht, hs'⟩

theorem runSources_refused (h : ∀ call ∈ calls, call.count < 0) :
    runSources force s calls = .ok s := by
  induction calls with
  | nil => rfl
  | cons call calls ih =>
      rw [List.forall_mem_cons] at h
      rw [runSources, List.foldlM_cons, glShaderSource, if_pos h.1]
      exact ih h.2

/-- The parts of a source have the lengths of its strings if they have them in all. -/
theorem lengths_eq {α : Type} {f g : α → List UInt8} : ∀ {xs : List α},
    (∀ x ∈ xs, (f x).length ≤ (g x).length) →
    (xs.map f).flatten.length = (xs.map g).flatten.length →
    ∀ x ∈ xs, (f x).length = (g x).length := by
  intro xs
  induction xs with
  | nil => exact fun _ _ x hx => absurd hx List.not_mem_nil
  | cons x xs ih =>
      intro hle heq
      rw [List.forall_mem_cons] at hle
      rw [List.map_cons, List.map_cons, List.flatten_cons, List.flatten_cons, List.length_append,
        List.length_append] at heq
      have hrest : (xs.map f).flatten.length ≤ (xs.map g).flatten.length := by
        rw [List.length_flatten, List.length_flatten, List.map_map, List.map_map]
        exact List.sum_le_sum hle.2
      grind

/-- Characters without a NUL are before it. -/
theorem take_length_le {chars : List UInt8} (h : 0 ∉ chars.take n) :
    (chars.take n).length ≤ (text chars).length := by
  have hsplit : text chars = chars.take n ++ (chars.drop n).takeWhile (· != 0) := by
    conv_lhs => rw [text, ← List.take_append_drop n chars]
    refine List.takeWhile_append_of_pos fun x hx => ?_
    grind
  grind

/-- The code reads the source of a call if the lengths are exact. -/
theorem source_eq_iff (hall : ∀ chars ∈ call.strings, 0 ∈ chars) :
    (call.strings.map text).flatten = call.source ↔ call.Exact := by
  have hread : (call.strings.map text).flatten =
      (call.strings.zipIdx.map fun p => text p.1).flatten := by
    conv_lhs => rw [← List.zipIdx_map_fst 0 call.strings, List.map_map]
    rfl
  have hmem : ∀ p ∈ call.strings.zipIdx, 0 ∈ p.1 := fun p hp =>
    hall _ (List.fst_mem_of_mem_zipIdx hp)
  have hreadable : ∀ p ∈ call.strings.zipIdx, ∀ n ∈ givenLength call.lengths p.2,
      n ≤ p.1.length := by
    intro p hp n hn
    have := call.readable p.2 p.1 (List.mem_zipIdx_iff_getElem?.mp hp)
    rw [Option.mem_def.mp hn] at this
    exact this
  rw [hread, SourceCall.source]
  constructor
  · intro heq p hp
    refine ⟨hmem p hp, fun n hn => ?_⟩
    have hle : ∀ q ∈ call.strings.zipIdx,
        ((givenLength call.lengths q.2).elim (text q.1) q.1.take).length ≤ (text q.1).length := by
      intro q hq
      have hin : (givenLength call.lengths q.2).elim (text q.1) q.1.take ∈
          call.strings.zipIdx.map fun p =>
            (givenLength call.lengths p.2).elim (text p.1) p.1.take :=
        List.mem_map_of_mem hq
      have hzero : 0 ∉ (givenLength call.lengths q.2).elim (text q.1) q.1.take := fun h0 => by
        have hflat := List.mem_flatten.mpr ⟨_, hin, h0⟩
        rw [← heq, ← hread] at hflat
        exact ShaderParser.not_mem_flatten _ hflat
      cases hgiven : givenLength call.lengths q.2 with
      | none => exact Nat.le_refl _
      | some m =>
          rw [hgiven] at hzero
          exact take_length_le hzero
    have hlength := lengths_eq hle (congrArg List.length heq.symm) p hp
    rw [Option.mem_def.mp hn, Option.elim_some, List.length_take,
      Nat.min_eq_left (hreadable p hp n hn)] at hlength
    exact hlength
  · intro hexact
    refine congrArg List.flatten (List.map_congr_left fun p hp => ?_)
    change text p.1 = (givenLength call.lengths p.2).elim (text p.1) p.1.take
    cases hgiven : givenLength call.lengths p.2 with
    | none => rfl
    | some n =>
        rw [Option.elim_some, (hexact p hp).2 n hgiven]
        exact List.prefix_iff_eq_take.mp (List.takeWhile_prefix _)

/-- After the calls the parser has the source of `last`, as if that had been the only call. -/
def Replaces (force : Option (List UInt8)) (before : List SourceCall) (last : SourceCall)
    (after : List SourceCall) : Prop :=
  ∃ s alone, runSources force .new (before ++ last :: after) = .ok s ∧
    glShaderSource force .new last = .ok alone ∧ s.m_originalSrc = alone.m_originalSrc ∧
    s.m_parsedSrc = alone.m_parsedSrc ∧ s.m_originalSrc = some last.source

/-- A source replaces those before it if and only if they are empty and its lengths are exact. -/
theorem replaces_iff (force : Option (List UInt8)) (before : List SourceCall) (last : SourceCall)
    (after : List SourceCall) (hlast : 0 ≤ last.count) (hafter : ∀ call ∈ after, call.count < 0) :
    Replaces force before last after ↔ (∀ call ∈ before, call.Empty) ∧ last.Exact := by
  have hnew : 0 ∉ ShaderParser.new.m_src := List.not_mem_nil
  have hcall : ∀ s, glShaderSource force s last = s.setSrc force last.strings := fun s =>
    if_neg (Int.not_lt.mpr hlast)
  constructor
  · rintro ⟨s, alone, hrun, halone, horiginal, -, hsource⟩
    rw [runSources, List.foldlM_append] at hrun
    obtain ⟨t, ht, hrest⟩ := Run.bind_eq_ok.mp hrun
    rw [List.foldlM_cons] at hrest
    obtain ⟨s', hs', hrefused⟩ := Run.bind_eq_ok.mp hrest
    obtain rfl := Except.ok.inj ((runSources_refused hafter).symm.trans hrefused)
    obtain ⟨hmem, -, hempty⟩ := runSources_nil hnew ht
    rw [hcall] at hs' halone
    obtain ⟨hall, _, _, -, rfl⟩ := (ShaderParser.setSrc_ok hmem).mp hs'
    obtain ⟨-, _, _, -, rfl⟩ := (ShaderParser.setSrc_ok hnew).mp halone
    have hlength := congrArg List.length (Option.some.inj horiginal)
    rw [List.length_append, List.length_append] at hlength
    refine ⟨hempty (by omega), (source_eq_iff hall).mp ?_⟩
    exact Option.some.inj (horiginal.symm.trans hsource)
  · rintro ⟨hempty, hexact⟩
    have hall : ∀ chars ∈ last.strings, 0 ∈ chars := fun chars hc => by
      obtain ⟨i, hi, rfl⟩ := List.getElem_of_mem hc
      exact (hexact (_, i) (List.mem_zipIdx_iff_getElem?.mpr (List.getElem?_eq_getElem hi))).1
    obtain ⟨t, ht, hnil⟩ := runSources_empty force (s := .new) rfl hempty
    obtain ⟨rest, parsed, hparse, -⟩ :=
      ShaderParser.parse_spec force (ShaderParser.not_mem_flatten last.strings)
    have hrun : ∀ u : ShaderParser, u.m_src = [] → u.setSrc force last.strings =
        .ok ⟨some (last.strings.map text).flatten, rest, parsed⟩ := by
      intro u hu
      refine (ShaderParser.setSrc_ok (hu ▸ List.not_mem_nil)).mpr ⟨hall, rest, parsed, ?_, ?_⟩
      · rw [hu]
        exact hparse
      · rw [hu]
        rfl
    refine ⟨_, _, ?_, (hcall .new).trans (hrun .new rfl), rfl, rfl,
      congrArg some ((source_eq_iff hall).mpr hexact)⟩
    rw [runSources, List.foldlM_append]
    refine Run.bind_eq_ok.mpr ⟨t, ht, ?_⟩
    rw [List.foldlM_cons]
    exact Run.bind_eq_ok.mpr ⟨_, (hcall t).trans (hrun t hnil), runSources_refused hafter⟩

theorem one_le_chars {chars : List UInt8} : ∀ n ∈ some 1, n ≤ chars.length + 1 := by
  rintro n hn
  obtain rfl := Option.some.inj hn
  exact Nat.le_add_left 1 _

/-- One string that ends with a NUL, and perhaps its length. -/
def oneSource (chars : List UInt8) (length : Option Nat) (h : ∀ n ∈ length, n ≤ chars.length + 1) :
    SourceCall where
  count := 1
  strings := [chars ++ [0]]
  lengths := length.map fun n => [(n : Int)]
  strings_length := rfl
  lengths_length ns hns := by
    obtain ⟨n, -, rfl⟩ := Option.map_eq_some_iff.mp hns
    rfl
  readable i s hs := by
    cases i with
    | succ i => cases hs
    | zero =>
        obtain rfl := Option.some.inj hs
        cases length with
        | none => exact List.mem_append_right _ List.mem_cons_self
        | some n =>
            have hle := h n rfl
            have hgiven : givenLength (some [(n : Int)]) 0 = some n := by
              change (if (n : Int) < 0 then none else some n) = some n
              exact if_neg (by omega)
            change (givenLength (some [(n : Int)]) 0).elim _ _
            rw [hgiven]
            change n ≤ (chars ++ [0]).length
            rw [List.length_append]
            exact hle

def refusedSource : SourceCall where
  count := -1
  strings := []
  lengths := none
  strings_length := rfl
  lengths_length _ h := nomatch h
  readable _ _ h := nomatch h

/-- The source of `b` behind an empty one, with its length. -/
theorem sources_replaced :
    Replaces none [oneSource [] none nofun] (oneSource [98] (some 1) one_le_chars) [refusedSource] :=
  (replaces_iff none _ _ _ (by decide) (by decide)).mpr ⟨by decide, by decide⟩

/-- The source of a second call stands behind that of the first one, and a length is not read. -/
theorem sources_appended :
    ¬ Replaces none [oneSource [97] none nofun] (oneSource [98] none nofun) [] ∧
      ¬ Replaces none [] (oneSource [97, 98] (some 1) one_le_chars) [] := by
  have happended : (runSources none .new [oneSource [97] none nofun, oneSource [98] none nofun]).map
      (·.m_originalSrc) = .ok (some [97, 98]) := by
    decide +kernel
  have hlength : (runSources none .new [oneSource [97, 98] (some 1) one_le_chars]).map
      (·.m_originalSrc) = .ok (some [97, 98]) := by
    decide +kernel
  constructor
  · rintro ⟨s, alone, hrun, -, -, -, hsource⟩
    change runSources none .new [oneSource [97] none nofun, oneSource [98] none nofun] = _ at hrun
    rw [hrun] at happended
    cases hsource.symm.trans (Except.ok.inj happended)
  · rintro ⟨s, alone, hrun, -, -, -, hsource⟩
    change runSources none .new [oneSource [97, 98] (some 1) _] = _ at hrun
    rw [hrun] at hlength
    cases hsource.symm.trans (Except.ok.inj hlength)

end Runs

end AndroidRenderer.Translator
