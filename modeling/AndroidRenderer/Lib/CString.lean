import Mathlib.Data.List.Basic
import Mathlib.Data.List.GetD
import Mathlib.Data.List.TakeWhile
import Mathlib.Algebra.Order.Ring.Nat

/-!
# Texts that end with a NUL

A text is a list of bytes, and every position behind it reads as the NUL. The functions that look
for something in a text see no more of it than `charAt`, so two texts with the same characters from
a position on give the same from there.
-/

namespace CString

def literal (text : String) : List UInt8 := text.toUTF8.data.toList

/-- The character at a position, the NUL behind the text. -/
def charAt (t : List UInt8) (i : Nat) : UInt8 := t.getD i 0

def isspace (c : UInt8) : Bool := c == 32 || 9 ≤ c && c ≤ 13

def isdigit (c : UInt8) : Bool := 48 ≤ c && c ≤ 57

def isalpha (c : UInt8) : Bool := 65 ≤ c && c ≤ 90 || 97 ≤ c && c ≤ 122

def isalnum (c : UInt8) : Bool := isalpha c || isdigit c

/-- At most `n` characters are skipped. -/
def skipAtMost (p : UInt8 → Bool) (t : List UInt8) : Nat → Nat → Nat
  | 0, i => i
  | n + 1, i => if p (charAt t i) then skipAtMost p t n (i + 1) else i

/-- The first position from `i` on where `p` does not hold. -/
def skip (p : UInt8 → Bool) (t : List UInt8) (i : Nat) : Nat := skipAtMost p t (t.length - i) i

/-- `pat` is at position `i`: what `strncmp` finds out. -/
def At (pat t : List UInt8) (i : Nat) : Prop := ∀ k < pat.length, charAt t (i + k) = charAt pat k

instance (pat t : List UInt8) (i : Nat) : Decidable (At pat t i) :=
  inferInstanceAs (Decidable (∀ k < pat.length, charAt t (i + k) = charAt pat k))

def findAtMost (pat t : List UInt8) : Nat → Nat → Option Nat
  | 0, _ => none
  | n + 1, i => if At pat t i then some i else findAtMost pat t n (i + 1)

/-- The first position from `i` on where `pat` is. -/
def strstr (pat t : List UInt8) (i : Nat) : Option Nat := findAtMost pat t (t.length - i) i

/-- The characters from `i` up to `j`. -/
def slice (t : List UInt8) (i j : Nat) : List UInt8 :=
  (List.range (j - i)).map fun k => charAt t (i + k)

/-- `new` is stored at position `i`. -/
def overwrite (t : List UInt8) (i : Nat) (new : List UInt8) : List UInt8 :=
  t.take i ++ new ++ t.drop (i + new.length)

/-- Spaces are stored from `i` up to `j`. -/
def blank (t : List UInt8) (i j : Nat) : List UInt8 := overwrite t i (List.replicate (j - i) 32)

variable {p : UInt8 → Bool} {t t' pat new : List UInt8} {i j k n : Nat}

/-! ## Characters -/

theorem charAt_of_le (h : t.length ≤ i) : charAt t i = 0 := List.getD_eq_default _ _ h

theorem lt_of_charAt (h : charAt t i ≠ 0) : i < t.length :=
  Nat.lt_of_not_le fun hle => h (charAt_of_le hle)

theorem charAt_eq_getElem (h : i < t.length) : charAt t i = t[i] := List.getD_eq_getElem _ _ h

theorem isspace_of_isalnum {c : UInt8} (h : isalnum c = true) : isspace c = false := by
  simp only [isalnum, isalpha, isdigit, Bool.or_eq_true, Bool.and_eq_true, decide_eq_true_eq,
    UInt8.le_iff_toNat_le] at h
  simp only [isspace, Bool.or_eq_false_iff, Bool.and_eq_false_iff, decide_eq_false_iff_not,
    beq_eq_false_iff_ne, UInt8.le_iff_toNat_le, ne_eq, ← UInt8.toNat_inj] at h ⊢
  grind

theorem ext_charAt (hlength : t.length = t'.length) (h : ∀ i, charAt t i = charAt t' i) :
    t = t' := by
  refine List.ext_getElem hlength fun i hi hi' => ?_
  rw [← charAt_eq_getElem hi, ← charAt_eq_getElem hi', h]

@[grind =] theorem charAt_map_range {f : Nat → UInt8} :
    charAt ((List.range n).map f) i = if i < n then f i else 0 := by
  split
  · rename_i h
    rw [charAt_eq_getElem (by simpa using h), List.getElem_map, List.getElem_range]
  · grind [charAt_of_le]

theorem charAt_replicate {c : UInt8} (h : i < n) : charAt (List.replicate n c) i = c := by
  rw [charAt_eq_getElem (by simpa using h), List.getElem_replicate]

theorem overwrite_length (h : i + new.length ≤ t.length) :
    (overwrite t i new).length = t.length := by
  simp only [overwrite, List.length_append, List.length_take, List.length_drop]
  omega

@[grind =] theorem charAt_overwrite (h : i + new.length ≤ t.length) :
    charAt (overwrite t i new) j =
      if i ≤ j ∧ j < i + new.length then charAt new (j - i) else charAt t j := by
  have htake : (t.take i).length = i := by grind
  simp only [charAt, List.getD_eq_getElem?_getD, overwrite, List.getElem?_append,
    List.length_append, htake, List.getElem?_take, List.getElem?_drop]
  grind

theorem blank_length (h : j ≤ t.length) (hij : i ≤ j) : (blank t i j).length = t.length :=
  overwrite_length (by rw [List.length_replicate]; omega)

@[grind =] theorem charAt_blank (h : j ≤ t.length) (hij : i ≤ j) :
    charAt (blank t i j) k = if i ≤ k ∧ k < j then 32 else charAt t k := by
  have hlength : i + (List.replicate (j - i) (32 : UInt8)).length = j := by grind
  rw [blank, charAt_overwrite (hlength.trans_le h), hlength]
  grind [charAt_replicate]

/-! ## Runs -/

theorem skipAtMost_spec (hp : p 0 = false) : ∀ n i, t.length ≤ i + n →
    i ≤ skipAtMost p t n i ∧ (∀ j, i ≤ j → j < skipAtMost p t n i → p (charAt t j) = true) ∧
      p (charAt t (skipAtMost p t n i)) = false := by
  intro n
  induction n with
  | zero => grind [skipAtMost, charAt_of_le]
  | succ n ih =>
      intro i hle
      rw [skipAtMost]
      split
      · grind
      · grind

section Skip

variable (hp : p 0 = false)
include hp

theorem le_skip (t : List UInt8) (i : Nat) : i ≤ skip p t i :=
  (skipAtMost_spec hp _ i (by omega)).1

theorem skip_run (hle : i ≤ j) (hlt : j < skip p t i) : p (charAt t j) = true :=
  (skipAtMost_spec hp _ i (by omega)).2.1 j hle hlt

theorem skip_stop (t : List UInt8) (i : Nat) : p (charAt t (skip p t i)) = false :=
  (skipAtMost_spec hp _ i (by omega)).2.2

theorem skip_unique (hle : i ≤ k) (hrun : ∀ j, i ≤ j → j < k → p (charAt t j) = true)
    (hstop : p (charAt t k) = false) : skip p t i = k := by
  obtain hlt | heq | hlt := Nat.lt_trichotomy (skip p t i) k
  · grind [skip_stop, le_skip]
  · exact heq
  · grind [skip_run]

theorem skip_congr_of_le (h : ∀ j, i ≤ j → j ≤ skip p t' i → charAt t j = charAt t' j) :
    skip p t i = skip p t' i := by
  refine skip_unique hp (le_skip hp t' i) (fun j hle hlt => ?_) ?_
  · grind [skip_run]
  · grind [le_skip, skip_stop]

theorem skip_congr (h : ∀ j, i ≤ j → charAt t j = charAt t' j) : skip p t i = skip p t' i :=
  skip_congr_of_le hp fun j hle _ => h j hle

theorem skip_le (h : i ≤ t.length) : skip p t i ≤ t.length := by
  by_contra hlt
  have hrun := skip_run hp h (Nat.lt_of_not_le hlt)
  grind [charAt_of_le]

end Skip

/-! ## Occurrences -/

theorem At.congr (h : ∀ k, i ≤ k → k < i + pat.length → charAt t k = charAt t' k) :
    At pat t i ↔ At pat t' i :=
  forall₂_congr fun k hk => by rw [h (i + k) (by omega) (by omega)]

/-- A pattern without a NUL ends in the text. -/
theorem At.le_length (h : At pat t i) (hpat : 0 ∉ pat) (hne : pat ≠ []) :
    i + pat.length ≤ t.length := by
  have hpos := List.length_pos_iff.mpr hne
  have hlast := h (pat.length - 1) (by omega)
  have hin : charAt t (i + (pat.length - 1)) ≠ 0 := by grind [charAt_eq_getElem]
  have := lt_of_charAt hin
  omega

theorem findAtMost_some : ∀ n i, findAtMost pat t n i = some j →
    i ≤ j ∧ At pat t j ∧ ∀ k, i ≤ k → k < j → ¬At pat t k := by
  intro n
  induction n with
  | zero =>
      intro i h
      cases h
  | succ n ih =>
      intro i h
      rw [findAtMost] at h
      split at h
      · grind
      · rename_i hnot
        obtain ⟨hle, hat, hfirst⟩ := ih (i + 1) h
        grind

theorem findAtMost_none : ∀ n i, findAtMost pat t n i = none →
    ∀ k, i ≤ k → k < i + n → ¬At pat t k := by
  intro n
  induction n with
  | zero =>
      intro i _ k hi hk
      omega
  | succ n ih => grind [findAtMost]

theorem strstr_some (h : strstr pat t i = some j) :
    i ≤ j ∧ At pat t j ∧ ∀ k, i ≤ k → k < j → ¬At pat t k :=
  findAtMost_some _ i h

theorem strstr_none (hpat : 0 ∉ pat) (hne : pat ≠ []) (h : strstr pat t i = none) :
    ∀ k, i ≤ k → ¬At pat t k := by
  intro k hi hat
  have hle := hat.le_length hpat hne
  have hpos := List.length_pos_iff.mpr hne
  exact findAtMost_none _ i h k hi (by omega) hat

/-! ## Strings in buffers -/

/-- The characters in front of the first NUL. -/
def ofBuffer (b : List UInt8) : List UInt8 := b.takeWhile (· ≠ 0)

/-- The position of the first `c`. -/
def strchr (t : List UInt8) (c : UInt8) : Option Nat := t.findIdx? (· = c)

/-- The position of the last `c`. -/
def strrchr (t : List UInt8) (c : UInt8) : Option Nat :=
  (t.reverse.findIdx? (· = c)).map fun k => t.length - 1 - k

theorem split_at {c : UInt8} (h : t[i]? = some c) :
    t = t.take i ++ c :: t.drop (i + 1) ∧ i < t.length := by
  obtain ⟨hlt, rfl⟩ := List.getElem?_eq_some_iff.mp h
  rw [← List.drop_eq_getElem_cons hlt, List.take_append_drop]
  exact ⟨rfl, hlt⟩

theorem strchr_some {c : UInt8} (h : strchr t c = some i) : t[i]? = some c ∧ c ∉ t.take i := by
  obtain ⟨hlt, hat, hfirst⟩ := List.findIdx?_eq_some_iff_getElem.mp h
  refine ⟨by rw [List.getElem?_eq_getElem hlt, of_decide_eq_true hat], fun hmem => ?_⟩
  obtain ⟨k, hk, heq⟩ := List.getElem_of_mem hmem
  grind

theorem strchr_none {c : UInt8} (h : strchr t c = none) : c ∉ t := fun hmem =>
  absurd (decide_eq_true rfl) (List.findIdx?_eq_none_iff.mp h c hmem ▸ Bool.false_ne_true)

theorem strrchr_some {c : UInt8} (h : strrchr t c = some i) :
    t[i]? = some c ∧ c ∉ t.drop (i + 1) := by
  obtain ⟨k, hk, rfl⟩ := Option.map_eq_some_iff.mp h
  obtain ⟨hlt, hat, hfirst⟩ := List.findIdx?_eq_some_iff_getElem.mp hk
  rw [List.length_reverse] at hlt
  have hi : t.length - 1 - k < t.length := by omega
  rw [List.getElem_reverse] at hat
  refine ⟨by rw [List.getElem?_eq_getElem hi, of_decide_eq_true hat], fun hmem => ?_⟩
  obtain ⟨j, hj, heq⟩ := List.getElem_of_mem hmem
  rw [List.length_drop] at hj
  refine hfirst (t.length - 1 - (t.length - 1 - k + 1 + j)) (by omega) (decide_eq_true ?_)
  grind

theorem strrchr_none {c : UInt8} (h : strrchr t c = none) : c ∉ t := fun hmem => by
  have hnone := List.findIdx?_eq_none_iff.mp (Option.map_eq_none_iff.mp h) c
    (List.mem_reverse.mpr hmem)
  rw [decide_eq_true rfl] at hnone
  cases hnone

theorem zero_notMem_ofBuffer (b : List UInt8) : 0 ∉ ofBuffer b := by
  intro hmem
  have hne := List.mem_takeWhile_imp hmem
  grind

theorem ofBuffer_eq_self {b : List UInt8} (h : 0 ∉ b) : ofBuffer b = b :=
  List.takeWhile_eq_self_iff.mpr fun _ hc => decide_eq_true fun heq => h (heq ▸ hc)

/-- A NUL cuts the string. -/
theorem ofBuffer_set_zero (b : List UInt8) (i : Nat) :
    ofBuffer (b.set i 0) = (ofBuffer b).take i := by
  unfold ofBuffer
  induction b generalizing i with
  | nil => rw [List.set_nil, List.takeWhile_nil, List.take_nil]
  | cons c b ih =>
      cases i with
      | zero => rfl
      | succ i =>
          rw [List.set_cons_succ, List.takeWhile_cons, List.takeWhile_cons, ih]
          grind

theorem ofBuffer_drop {b : List UInt8} (h : i ≤ (ofBuffer b).length) :
    ofBuffer (b.drop i) = (ofBuffer b).drop i := by
  unfold ofBuffer at *
  induction b generalizing i with
  | nil => rw [List.drop_nil, List.takeWhile_nil, List.drop_nil]
  | cons c b ih =>
      cases i with
      | zero => rfl
      | succ i =>
          rw [List.takeWhile_cons] at h ⊢
          grind

/-- A character that is stored where it is changes nothing. -/
theorem set_ofBuffer {b : List UInt8} {c : UInt8} (h : (ofBuffer b)[i]? = some c) :
    b.set i c = b := by
  obtain ⟨hi, rfl⟩ := List.getElem?_eq_some_iff.mp h
  have hpre : ofBuffer b <+: b := List.takeWhile_prefix _
  simp [hpre.getElem]

end CString
