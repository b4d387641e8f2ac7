import AndroidRenderer.Lib.Scans
import AndroidRenderer.Translator.Etc1
import Mathlib.Algebra.Order.BigOperators.Group.List
import Mathlib.Algebra.Order.Ring.Nat
import Mathlib.Data.Nat.Bitwise

/-!
# What the encoder of ETC1 blocks minimizes

The encoder tries both orientations and all tables, and picks a modifier for each valid pixel. What
it writes is decoded to the candidate that it has chosen, and no choice has a smaller error.
-/

namespace AndroidRenderer.Translator.Etc1

open Candidates

/-! ## Errors -/

/-- `3 * dR^2 + 6 * dG^2 + dB^2` -/
def pixelError (pixel decoded : RGB UInt8) : Nat :=
  3 * square (decoded.r.toNat - pixel.r.toNat) + 6 * square (decoded.g.toNat - pixel.g.toNat) +
    square (decoded.b.toNat - pixel.b.toNat)

/-- The error of a block over the valid pixels. -/
def blockError (pIn : Nat → UInt8) (inMask : BitVec 32) (texels : Nat → RGB UInt8) : Nat :=
  ((List.range 16).map fun i =>
    if inMask.getLsbD i then pixelError (texelAt pIn i) (texels i) else 0).sum

/-- The base colors that the encoder derives for an orientation. -/
def baseColors (pIn : Nat → UInt8) (inMask : BitVec 32) (flipped : Bool) : RGB Nat × RGB Nat :=
  (etc_encodeBaseColors (averageColors pIn inMask flipped)).1

/-- The pixel is in the second half. -/
def InSecond (flipped : Bool) (i : Nat) : Prop := if flipped then 2 ≤ i / 4 else 2 ≤ i % 4

instance (flipped : Bool) (i : Nat) : Decidable (InSecond flipped i) :=
  inferInstanceAs (Decidable (ite _ _ _))

/-- The block of a choice: a table for each half, and a selector for each pixel. -/
def choice (base : RGB Nat × RGB Nat) (flipped : Bool) (tableA tableB : Nat)
    (selector : Nat → Nat) (i : Nat) : RGB UInt8 :=
  if InSecond flipped i then shade base.2 (modifier tableB (selector i))
  else shade base.1 (modifier tableA (selector i))

theorem square_le (a b : UInt8) : square (a.toNat - b.toNat) ≤ 65025 := by
  have ha := a.toNat_lt
  have hb := b.toNat_lt
  have habs : ((a.toNat : Int) - b.toNat).natAbs ≤ 255 := by omega
  rw [square, ← Int.natAbs_mul_self]
  exact Nat.mul_le_mul habs habs

theorem pixelError_le (pixel decoded : RGB UInt8) : pixelError pixel decoded ≤ 650250 := by
  have hr := square_le decoded.r pixel.r
  have hg := square_le decoded.g pixel.g
  have hb := square_le decoded.b pixel.b
  rw [pixelError]
  omega

/-! ## The modifier of a pixel -/

theorem chooseTurn_eq (base : RGB Nat) (pixel : RGB UInt8) (table : Nat) (best : Nat × Nat)
    (i : Nat) :
    chooseTurn base pixel table best i =
      better Prod.fst best (pixelError pixel (shade base (modifier table i)), i) := by
  rw [chooseTurn, better, pixelError]
  grind

/-- The best index is one of the four, and has the best score. -/
theorem bestModifier_spec (base : RGB Nat) (pixel : RGB UInt8) (table : Nat) :
    (bestModifier base pixel table).2 < 4 ∧
      (bestModifier base pixel table).1 =
        pixelError pixel (shade base (modifier table (bestModifier base pixel table).2)) ∧
      ∀ i < 4, (bestModifier base pixel table).1 ≤
        pixelError pixel (shade base (modifier table i)) := by
  let scored := fun i => (pixelError pixel (shade base (modifier table i)), i)
  have hfold : bestModifier base pixel table =
      ((List.range 4).map scored).foldl (better Prod.fst) (maxScore, 0) := by
    rw [bestModifier, List.foldl_map]
    congr 1
    grind [chooseTurn_eq]
  have hscored : ∀ i < 4, scored i ∈ (List.range 4).map scored := by grind
  have hmem : bestModifier base pixel table ∈ (List.range 4).map scored := by
    rw [hfold]
    apply foldl_better_mem_of_lt _ (hscored 0 (by decide))
    exact Nat.lt_of_le_of_lt (pixelError_le _ _) (by decide)
  obtain ⟨i, hi, heq⟩ := List.mem_map.mp hmem
  refine ⟨?_, ?_, ?_⟩
  · grind
  · rw [← heq]
  · intro j hj
    have hle := foldl_better_le Prod.fst ((List.range 4).map scored) (maxScore, 0)
      (scored j) (List.mem_cons_of_mem _ (hscored j hj))
    rwa [← hfold] at hle

/-! ## The two bits of a pixel -/

theorem decodedOffset_or (a b k : Nat) :
    decodedOffset (a ||| b) k = decodedOffset a k ||| decodedOffset b k := by
  simp only [decodedOffset, Nat.shiftRight_or_distrib, Nat.and_or_distrib_right]
  ac_rfl

theorem decodedOffset_zero (k : Nat) : decodedOffset 0 k = 0 := by
  simp [decodedOffset]

theorem decodedOffset_lowMask :
    ∀ b < 4, ∀ k' < 16, ∀ k < 16, decodedOffset (lowMask b k') k = if k' = k then b else 0 := by
  decide +kernel

section Half

variable (pIn : Nat → UInt8) (inMask : BitVec 32) (base : RGB Nat) (table : Nat)

def bestError (i : Nat) : Nat :=
  if inMask.getLsbD i then (bestModifier base (texelAt pIn i) table).1 else 0

/-- The selector of a pixel: of an invalid one nothing is stored. -/
def bestSelector (i : Nat) : Nat :=
  if inMask.getLsbD i then (bestModifier base (texelAt pIn i) table).2 else 0

def halfError (flipped second : Bool) : Nat :=
  ((subblockPixels flipped second).map fun p =>
    bestError pIn inMask base table (p.1 + 4 * p.2)).sum

variable {pIn inMask base table}

/-- A turn adds an error, and stores a selector. -/
theorem encodePixel_eq (c : EtcCompressed) (p : Nat × Nat) :
    encodePixel pIn inMask base table c p =
      { c with
        low := c.low |||
          lowMask (bestSelector pIn inMask base table (p.1 + 4 * p.2)) (p.2 + p.1 * 4)
        score := c.score + bestError pIn inMask base table (p.1 + 4 * p.2) } := by
  rw [encodePixel, bestSelector, bestError]
  dsimp only
  split
  · rfl
  · simp [lowMask]

theorem encodePixels_high_score (ps : List (Nat × Nat)) (c : EtcCompressed) :
    (ps.foldl (encodePixel pIn inMask base table) c).high = c.high ∧
      (ps.foldl (encodePixel pIn inMask base table) c).score =
        c.score + (ps.map fun p => bestError pIn inMask base table (p.1 + 4 * p.2)).sum := by
  induction ps generalizing c with
  | nil => exact ⟨rfl, rfl⟩
  | cons p ps ih =>
      obtain ⟨hhigh, hscore⟩ := ih (encodePixel pIn inMask base table c p)
      rw [List.foldl_cons, hhigh, hscore, encodePixel_eq, List.map_cons, List.sum_cons]
      exact ⟨rfl, Nat.add_assoc _ _ _⟩

theorem bestSelector_lt (i : Nat) : bestSelector pIn inMask base table i < 4 := by
  rw [bestSelector]
  split
  · exact (bestModifier_spec _ _ _).1
  · decide

/-- The selectors of the pixels are found at their bits, and other bits stay. -/
theorem encodePixels_low {ps : List (Nat × Nat)} (hps : ∀ p ∈ ps, p.1 < 4 ∧ p.2 < 4)
    (c : EtcCompressed) {p : Nat × Nat} (hx : p.1 < 4) (hy : p.2 < 4) :
    decodedOffset (ps.foldl (encodePixel pIn inMask base table) c).low (p.2 + p.1 * 4) =
      decodedOffset c.low (p.2 + p.1 * 4) |||
        if p ∈ ps then bestSelector pIn inMask base table (p.1 + 4 * p.2) else 0 := by
  induction ps generalizing c with
  | nil => simp
  | cons q ps ih =>
      obtain ⟨hqx, hqy⟩ := hps q List.mem_cons_self
      rw [List.foldl_cons, ih fun p hp => hps p (List.mem_cons_of_mem _ hp), encodePixel_eq]
      dsimp only
      rw [decodedOffset_or, decodedOffset_lowMask _ (bestSelector_lt _) _ (by omega) _ (by omega),
        Nat.or_assoc]
      congr 1
      grind

theorem subblockPixels_lt (flipped second : Bool) :
    ∀ p ∈ subblockPixels flipped second, p.1 < 4 ∧ p.2 < 4 := by
  cases flipped <;> cases second <;> decide

theorem mem_subblockPixels (flipped second : Bool) :
    ∀ x < 4, ∀ y < 4, (x, y) ∈ subblockPixels flipped second ↔
      (second = true ↔ InSecond flipped (x + 4 * y)) := by
  cases flipped <;> cases second <;> decide

theorem halfError_le (flipped second : Bool) :
    halfError pIn inMask base table flipped second ≤ 8 * 650250 := by
  have hlength : (subblockPixels flipped second).length = 8 := by
    cases flipped <;> cases second <;> rfl
  have herror : ∀ i, bestError pIn inMask base table i ≤ 650250 := by
    grind [bestError, bestModifier_spec, pixelError_le]
  have hsum := List.sum_le_card_nsmul ((subblockPixels flipped second).map fun p =>
    bestError pIn inMask base table (p.1 + 4 * p.2)) 650250 (by
      intro e he
      obtain ⟨p, -, rfl⟩ := List.mem_map.mp he
      exact herror _)
  rwa [List.length_map, hlength] at hsum

end Half

/-! ## The fields of a word -/

theorem shiftLeft_or {a b n : Nat} (h : b < 2 ^ n) : a <<< n ||| b = a * 2 ^ n + b := by
  rw [← Nat.shiftLeft_add_eq_or_of_lt h, Nat.shiftLeft_eq]

theorem and_two_ne_zero (n : Nat) : n &&& 2 ≠ 0 ↔ n / 2 % 2 = 1 := by
  have hbit : n &&& 2 ^ 1 = (n.testBit 1).toNat * 2 ^ 1 := Nat.and_two_pow n 1
  grind

theorem seven_and (n : Nat) : 7 &&& n = n % 8 := by
  rw [Nat.and_comm]
  exact Nat.and_two_pow_sub_one_eq_mod n 3

theorem wordAt_eq (p : Nat → UInt8) (i : Nat) :
    wordAt p i = (p i).toNat * 2 ^ 24 + ((p (i + 1)).toNat * 2 ^ 16 + ((p (i + 2)).toNat * 2 ^ 8 +
      (p (i + 3)).toNat)) := by
  have h₁ := (p (i + 1)).toNat_lt
  have h₂ := (p (i + 2)).toNat_lt
  have h₃ := (p (i + 3)).toNat_lt
  rw [wordAt, Nat.or_assoc, Nat.or_assoc, shiftLeft_or (n := 8) (by omega),
    shiftLeft_or (n := 16) (by omega), shiftLeft_or (n := 24) (by omega)]

theorem wordAt_writeBigEndian {p : Nat → UInt8} {i d : Nat} (hd : d < 2 ^ 32)
    (hp : ∀ k < 4, p (i + k) = (writeBigEndian d).getD k 0) : wordAt p i = d := by
  have h₀ : p i = UInt8.ofNat (d >>> 24) := hp 0 (by decide)
  have h₁ : p (i + 1) = UInt8.ofNat (d >>> 16) := hp 1 (by decide)
  have h₂ : p (i + 2) = UInt8.ofNat (d >>> 8) := hp 2 (by decide)
  have h₃ : p (i + 3) = UInt8.ofNat d := hp 3 (by decide)
  grind [wordAt_eq, UInt8.toNat_ofNat', Nat.shiftRight_eq_div_pow]

theorem wordAt_encoded {high low : Nat} (hhigh : high < 2 ^ 32) (hlow : low < 2 ^ 32) :
    wordAt (fun i => (writeBigEndian high ++ writeBigEndian low).getD i 0) 0 = high ∧
      wordAt (fun i => (writeBigEndian high ++ writeBigEndian low).getD i 0) 4 = low := by
  have hlength : ∀ d, (writeBigEndian d).length = 4 := fun d => rfl
  constructor
  · grind [wordAt_writeBigEndian]
  · apply wordAt_writeBigEndian hlow
    grind

theorem convert4To8_eq {n c : Nat} (h : n % 16 = c) : convert4To8 n = convert4To8 c := by
  have hmod : (n : Int) % 16 = c % 16 := by omega
  rw [convert4To8, convert4To8, hmod]

theorem convert5To8_eq {n c : Nat} (h : n % 32 = c) : convert5To8 n = convert5To8 c := by
  have hmod : (n : Int) % 32 = c % 32 := by omega
  rw [convert5To8, convert5To8, hmod]

theorem convert8To4_lt (b : UInt8) : convert8To4 b < 16 := by
  have hb := b.toNat_lt
  simp only [convert8To4, divideBy255, Nat.shiftRight_eq_div_pow]
  omega

theorem convert8To5_lt (b : UInt8) : convert8To5 b < 32 := by
  have hb := b.toNat_lt
  simp only [convert8To5, divideBy255, Nat.shiftRight_eq_div_pow]
  omega

theorem threeBits_lt (d : Int) : threeBits d < 8 := by
  rw [threeBits]
  omega

theorem kLookup_threeBits {d : Int} (h : inRange4bitSigned d = true) :
    kLookup.getD (threeBits d) 0 = d := by
  rw [inRange4bitSigned, Bool.and_eq_true, decide_eq_true_eq, decide_eq_true_eq] at h
  obtain ⟨hlow, hhigh⟩ := h
  obtain rfl | rfl | rfl | rfl | rfl | rfl | rfl | rfl :
    d = -4 ∨ d = -3 ∨ d = -2 ∨ d = -1 ∨ d = 0 ∨ d = 1 ∨ d = 2 ∨ d = 3 := by omega
  all_goals rfl

/-- The difference to the base color of the first half is looked up again. -/
theorem convertDiff_eq {base diff c : Nat} {d : Int} (hbase : base % 32 = c)
    (hdiff : diff % 8 = threeBits d) (hd : inRange4bitSigned d = true) :
    convertDiff base diff = convert5To8 (c + d) := by
  have hmod : 0x1f &&& base = base % 32 := by
    rw [Nat.and_comm]
    exact Nat.and_two_pow_sub_one_eq_mod base 5
  rw [convertDiff, hmod, seven_and, hbase, hdiff, kLookup_threeBits hd]

/-- `high` of a candidate. -/
def packed (flipped : Bool) (bits tableA tableB : Nat) : Nat :=
  (if flipped then 1 else 0) ||| bits ||| tableA <<< 5 ||| tableB <<< 2

variable {tableA tableB : Nat}

/-- The tables and the orientation stand below the bits of the colors. -/
theorem packed_low {mode : Nat} (hA : tableA < 8) (hB : tableB < 8)
    (hmode : mode = 0 ∨ mode = 2) (flipped : Bool) :
    tableA <<< 5 ||| (tableB <<< 2 ||| (mode ||| if flipped then 1 else 0)) =
        tableA * 2 ^ 5 + (tableB * 2 ^ 2 + (mode + if flipped then 1 else 0)) ∧
      tableA * 2 ^ 5 + (tableB * 2 ^ 2 + (mode + if flipped then 1 else 0)) < 2 ^ 8 := by
  have hlow : (mode ||| if flipped then 1 else 0) = mode + if flipped then 1 else 0 := by
    obtain rfl | rfl := hmode <;> cases flipped <;> rfl
  have hbit : (mode + if flipped then 1 else 0) < 2 ^ 2 := by
    obtain rfl | rfl := hmode <;> cases flipped <;> decide
  rw [hlow, shiftLeft_or hbit, shiftLeft_or (by omega)]
  omega

/-- Of the low byte, the decoder finds the tables, the mode and the orientation. -/
theorem low_fields {mode colors : Nat} (hA : tableA < 8) (hB : tableB < 8)
    (hmode : mode = 0 ∨ mode = 2) (flipped : Bool) {high : Nat}
    (hhigh : high = colors * 2 ^ 8 +
      (tableA * 2 ^ 5 + (tableB * 2 ^ 2 + (mode + if flipped then 1 else 0)))) :
    7 &&& high >>> 5 = tableA ∧ 7 &&& high >>> 2 = tableB ∧ (high &&& 2 ≠ 0 ↔ mode = 2) ∧
      decide (high &&& 1 ≠ 0) = flipped := by
  have hbit : (if flipped then 1 else 0) < 2 := by
    cases flipped <;> decide
  rw [seven_and, seven_and, and_two_ne_zero, Nat.and_one_is_mod, Nat.shiftRight_eq_div_pow,
    Nat.shiftRight_eq_div_pow]
  generalize hflip : (if flipped then 1 else 0) = flip at hhigh hbit
  grind

/-- The fields of a word in the order of their bits. -/
theorem or_fields (flip r₁ r₂ g₁ g₂ b₁ b₂ mode tableA tableB : Nat) :
    flip ||| (r₁ ||| r₂ ||| g₁ ||| g₂ ||| b₁ ||| b₂ ||| mode) ||| tableA ||| tableB =
      r₁ ||| (r₂ ||| (g₁ ||| (g₂ ||| (b₁ ||| (b₂ ||| (tableA ||| (tableB ||| (mode |||
        flip)))))))) := by
  ac_rfl

/-- The word of two colors that are stored with their difference. -/
theorem packed_differential {c d : RGB Nat} (hc : c.g < 32 ∧ c.b < 32)
    (hd : d.r < 8 ∧ d.g < 8 ∧ d.b < 8) (hA : tableA < 8) (hB : tableB < 8)
    (flipped : Bool) :
    packed flipped (c.r <<< 27 ||| d.r <<< 24 ||| c.g <<< 19 ||| d.g <<< 16 ||| c.b <<< 11 |||
        d.b <<< 8 ||| 2) tableA tableB =
      (c.r * 2 ^ 19 + (d.r * 2 ^ 16 + (c.g * 2 ^ 11 + (d.g * 2 ^ 8 + (c.b * 2 ^ 3 + d.b))))) *
          2 ^ 8 +
        (tableA * 2 ^ 5 + (tableB * 2 ^ 2 + (2 + if flipped then 1 else 0))) := by
  obtain ⟨hlow, hlt⟩ := packed_low hA hB (.inr rfl) flipped
  rw [packed, or_fields, hlow, shiftLeft_or hlt, shiftLeft_or (n := 11) (by omega),
    shiftLeft_or (n := 16) (by omega), shiftLeft_or (n := 19) (by omega),
    shiftLeft_or (n := 24) (by omega), shiftLeft_or (n := 27) (by omega)]
  omega

/-- The word of two colors that are stored side by side. -/
theorem packed_individual {c d : RGB Nat} (hc : c.g < 16 ∧ c.b < 16)
    (hd : d.r < 16 ∧ d.g < 16 ∧ d.b < 16) (hA : tableA < 8) (hB : tableB < 8)
    (flipped : Bool) :
    packed flipped (c.r <<< 28 ||| d.r <<< 24 ||| c.g <<< 20 ||| d.g <<< 16 ||| c.b <<< 12 |||
        d.b <<< 8) tableA tableB =
      (c.r * 2 ^ 20 + (d.r * 2 ^ 16 + (c.g * 2 ^ 12 + (d.g * 2 ^ 8 + (c.b * 2 ^ 4 + d.b))))) *
          2 ^ 8 +
        (tableA * 2 ^ 5 + (tableB * 2 ^ 2 + (0 + if flipped then 1 else 0))) := by
  obtain ⟨hlow, hlt⟩ := packed_low hA hB (.inl rfl) flipped
  rw [packed, ← Nat.or_zero (_ ||| d.b <<< 8), or_fields, hlow, shiftLeft_or hlt,
    shiftLeft_or (n := 12) (by omega),
    shiftLeft_or (n := 16) (by omega), shiftLeft_or (n := 20) (by omega),
    shiftLeft_or (n := 24) (by omega), shiftLeft_or (n := 28) (by omega)]
  omega

theorem color_fields {high low colors : Nat} (hhigh : high = colors * 2 ^ 8 + low)
    (hlow : low < 2 ^ 8) (k : Nat) : high >>> (8 + k) = colors / 2 ^ k := by
  rw [hhigh, Nat.shiftRight_add, Nat.shiftRight_eq_div_pow, Nat.shiftRight_eq_div_pow]
  congr 1
  omega

/-- What the decoder finds in the word of a candidate. -/
structure Unpacks (high : Nat) (base : RGB Nat × RGB Nat) (flipped : Bool) (tableA tableB : Nat) :
    Prop where
  lt : high < 2 ^ 32
  colors : decodedColors high = base
  tableA : 7 &&& high >>> 5 = tableA
  tableB : 7 &&& high >>> 2 = tableB
  flipped : decide (high &&& 1 ≠ 0) = flipped

theorem unpacks_differential {c : RGB Nat} {d : RGB Int} (hc : c.r < 32 ∧ c.g < 32 ∧ c.b < 32)
    (hr : inRange4bitSigned d.r = true) (hg : inRange4bitSigned d.g = true)
    (hb : inRange4bitSigned d.b = true) (hA : tableA < 8) (hB : tableB < 8)
    (flipped : Bool) :
    Unpacks (packed flipped (c.r <<< 27 ||| threeBits d.r <<< 24 ||| c.g <<< 19 |||
        threeBits d.g <<< 16 ||| c.b <<< 11 ||| threeBits d.b <<< 8 ||| 2) tableA tableB)
      (c.map fun (c : Nat) => convert5To8 c,
        ⟨convert5To8 (c.r + d.r), convert5To8 (c.g + d.g), convert5To8 (c.b + d.b)⟩)
      flipped tableA tableB := by
  have hdr := threeBits_lt d.r
  have hdg := threeBits_lt d.g
  have hdb := threeBits_lt d.b
  obtain ⟨-, hlow⟩ := packed_low hA hB (show 2 = 0 ∨ 2 = 2 from .inr rfl) flipped
  have hhigh := packed_differential (d := ⟨threeBits d.r, threeBits d.g, threeBits d.b⟩) hc.2
    ⟨hdr, hdg, hdb⟩ hA hB flipped
  obtain ⟨htableA, htableB, hmode, hflipped⟩ := low_fields hA hB (.inr rfl) flipped hhigh
  dsimp only at hhigh htableA htableB hmode hflipped
  generalize packed _ _ _ _ = high at hhigh htableA htableB hmode hflipped ⊢
  refine ⟨by omega, ?_, htableA, htableB, hflipped⟩
  have hfields : high >>> 27 % 32 = c.r ∧ high >>> 24 % 8 = threeBits d.r ∧
      high >>> 19 % 32 = c.g ∧ high >>> 16 % 8 = threeBits d.g ∧ high >>> 11 % 32 = c.b ∧
      high >>> 8 % 8 = threeBits d.b := by omega
  obtain ⟨hcr, hdr, hcg, hdg, hcb, hdb⟩ := hfields
  rw [decodedColors, if_pos (hmode.mpr rfl)]
  dsimp only
  rw [convertDiff_eq hcr hdr hr, convertDiff_eq hcg hdg hg, convertDiff_eq hcb hdb hb,
    convert5To8_eq hcr, convert5To8_eq hcg, convert5To8_eq hcb]
  rfl

theorem unpacks_individual {c d : RGB Nat} (hc : c.r < 16 ∧ c.g < 16 ∧ c.b < 16)
    (hd : d.r < 16 ∧ d.g < 16 ∧ d.b < 16) (hA : tableA < 8) (hB : tableB < 8)
    (flipped : Bool) :
    Unpacks (packed flipped (c.r <<< 28 ||| d.r <<< 24 ||| c.g <<< 20 ||| d.g <<< 16 |||
        c.b <<< 12 ||| d.b <<< 8) tableA tableB)
      (c.map fun (c : Nat) => convert4To8 c, d.map fun (c : Nat) => convert4To8 c)
      flipped tableA tableB := by
  obtain ⟨-, hlow⟩ := packed_low hA hB (show 0 = 0 ∨ 0 = 2 from .inl rfl) flipped
  have hhigh := packed_individual hc.2 hd hA hB flipped
  obtain ⟨htableA, htableB, hmode, hflipped⟩ := low_fields hA hB (.inl rfl) flipped hhigh
  generalize packed _ _ _ _ = high at hhigh htableA htableB hmode hflipped ⊢
  refine ⟨by omega, ?_, htableA, htableB, hflipped⟩
  have hfields : high >>> 28 % 16 = c.r ∧ high >>> 24 % 16 = d.r ∧ high >>> 20 % 16 = c.g ∧
      high >>> 16 % 16 = d.g ∧ high >>> 12 % 16 = c.b ∧ high >>> 8 % 16 = d.b := by
    have hshift := color_fields hhigh hlow
    rw [hshift 20, hshift 16, hshift 12, hshift 8, hshift 4, hshift 0]
    clear hhigh hlow hshift htableA htableB hmode hflipped
    omega
  obtain ⟨hcr, hdr, hcg, hdg, hcb, hdb⟩ := hfields
  rw [decodedColors, if_neg fun h => absurd (hmode.mp h) (by decide),
    convert4To8_eq hcr, convert4To8_eq hdr, convert4To8_eq hcg, convert4To8_eq hdg,
    convert4To8_eq hcb, convert4To8_eq hdb]
  rfl

/-- The decoder finds what the encoder has packed, in both modes. -/
theorem unpacks_packed (colors : RGB UInt8 × RGB UInt8) (hA : tableA < 8)
    (hB : tableB < 8) (flipped : Bool) :
    Unpacks (packed flipped (etc_encodeBaseColors colors).2 tableA tableB)
      (etc_encodeBaseColors colors).1 flipped tableA tableB := by
  have hc : ∀ c : RGB UInt8, (c.map convert8To5).r < 32 ∧ (c.map convert8To5).g < 32 ∧
      (c.map convert8To5).b < 32 := by
    intro c
    exact ⟨convert8To5_lt _, convert8To5_lt _, convert8To5_lt _⟩
  have hd : ∀ c : RGB UInt8, (c.map convert8To4).r < 16 ∧ (c.map convert8To4).g < 16 ∧
      (c.map convert8To4).b < 16 := by
    intro c
    exact ⟨convert8To4_lt _, convert8To4_lt _, convert8To4_lt _⟩
  rw [etc_encodeBaseColors]
  dsimp only
  split
  · rename_i hdiff
    rw [Bool.and_eq_true, Bool.and_eq_true] at hdiff
    obtain ⟨⟨hr, hg⟩, hb⟩ := hdiff
    exact unpacks_differential (hc colors.1) (d := ⟨_, _, _⟩) hr hg hb hA hB flipped
  · exact unpacks_individual (hd colors.1) (hd colors.2) hA hB flipped

/-! ## The loops over the tables -/

section Helper

variable (pIn : Nat → UInt8) (inMask : BitVec 32) (flipped : Bool)

/-- A candidate of the first loop. -/
def firstHalf (base : RGB Nat) (originalHigh tableA : Nat) : EtcCompressed :=
  etc_encode_subblock_helper pIn inMask ⟨originalHigh ||| tableA <<< 5, 0, 0⟩ flipped false base
    tableA

/-- A candidate of the second loop. -/
def secondHalf (base : RGB Nat) (first : EtcCompressed) (tableB : Nat) : EtcCompressed :=
  etc_encode_subblock_helper pIn inMask { first with high := first.high ||| tableB <<< 2 } flipped
    true base tableB

variable {pIn inMask flipped}

theorem take_best_eq (a b : EtcCompressed) : take_best a b = better EtcCompressed.score a b := rfl

theorem firstHalf_score (base : RGB Nat) (originalHigh tableA : Nat) :
    (firstHalf pIn inMask flipped base originalHigh tableA).score =
      halfError pIn inMask base tableA flipped false :=
  (encodePixels_high_score _ _).2.trans (Nat.zero_add _)

theorem secondHalf_score (base : RGB Nat) (first : EtcCompressed) (tableB : Nat) :
    (secondHalf pIn inMask flipped base first tableB).score =
      first.score + halfError pIn inMask base tableB flipped true :=
  (encodePixels_high_score _ _).2

/-- No score leaves an `int`. -/
theorem score_lt (base first : RGB Nat) (originalHigh tableA tableB : Nat) :
    (secondHalf pIn inMask flipped base (firstHalf pIn inMask flipped first originalHigh tableA)
      tableB).score < 2 ^ 31 := by
  have hfirst : halfError pIn inMask first tableA flipped false ≤ 8 * 650250 := halfError_le _ _
  have hsecond : halfError pIn inMask base tableB flipped true ≤ 8 * 650250 := halfError_le _ _
  rw [secondHalf_score, firstHalf_score]
  omega

/-- The first loop ends with the best table of the first half. -/
theorem encodeFirst_spec (base : RGB Nat) (originalHigh : Nat) :
    ∃ tableA < 8,
      encodeFirst pIn inMask flipped base originalHigh =
        firstHalf pIn inMask flipped base originalHigh tableA ∧
      ∀ table < 8, halfError pIn inMask base tableA flipped false ≤
        halfError pIn inMask base table flipped false := by
  let candidates := (List.range 8).map (firstHalf pIn inMask flipped base originalHigh)
  have hfold : encodeFirst pIn inMask flipped base originalHigh =
      candidates.foldl (better EtcCompressed.score) ⟨originalHigh, 0, maxScore⟩ := by
    rw [List.foldl_map]
    rfl
  have hcandidate : ∀ table < 8,
      firstHalf pIn inMask flipped base originalHigh table ∈ candidates := by grind
  have hmem : encodeFirst pIn inMask flipped base originalHigh ∈ candidates := by
    rw [hfold]
    apply foldl_better_mem_of_lt _ (hcandidate 0 (by decide))
    rw [firstHalf_score]
    exact Nat.lt_of_le_of_lt (halfError_le _ _) (show 8 * 650250 < maxScore by decide)
  obtain ⟨tableA, htableA, heq⟩ := List.mem_map.mp hmem
  refine ⟨tableA, List.mem_range.mp htableA, heq.symm, ?_⟩
  intro table htable
  have hle := foldl_better_le EtcCompressed.score candidates ⟨originalHigh, 0, maxScore⟩ _
    (List.mem_cons_of_mem _ (hcandidate table htable))
  rwa [← hfold, ← heq, firstHalf_score, firstHalf_score] at hle

/-- The second loop begins with the first table, whatever its score is. -/
theorem encodeSecond_spec (base : RGB Nat) (first : EtcCompressed) :
    ∃ tableB < 8,
      encodeSecond pIn inMask flipped base first =
        secondHalf pIn inMask flipped base first tableB ∧
      ∀ table < 8, halfError pIn inMask base tableB flipped true ≤
        halfError pIn inMask base table flipped true := by
  let candidate := secondHalf pIn inMask flipped base first
  let others := (List.range' 1 7).map candidate
  have hfold : encodeSecond pIn inMask flipped base first =
      others.foldl (better EtcCompressed.score) (candidate 0) :=
    foldl_first _ candidate 7 first
  have hcandidates : candidate 0 :: others = (List.range 8).map candidate := rfl
  have hmem := foldl_better_mem EtcCompressed.score others (candidate 0)
  have hle := foldl_better_le EtcCompressed.score others (candidate 0)
  rw [hcandidates, ← hfold] at hmem hle
  obtain ⟨tableB, htableB, heq⟩ := List.mem_map.mp hmem
  refine ⟨tableB, List.mem_range.mp htableB, heq.symm, ?_⟩
  intro table htable
  have hscore := hle _ (List.mem_map.mpr ⟨table, List.mem_range.mpr htable, rfl⟩)
  rw [← heq, secondHalf_score, secondHalf_score] at hscore
  exact Nat.le_of_add_le_add_left hscore

end Helper

/-! ## What is decoded -/

theorem texelAt_storeTexel (pOut : Nat → UInt8) (j : Nat) (c : RGB UInt8) (i : Nat) :
    texelAt (storeTexel pOut (3 * j) c) i = if i = j then c else texelAt pOut i := by
  by_cases h : i = j
  · subst h
    rw [if_pos rfl]
    simp [texelAt, storeTexel]
  · grind [texelAt, storeTexel]

def bitIndex (i : Nat) : Nat := i / 4 + i % 4 * 4

theorem bitIndex_pixel {x y : Nat} (hx : x < 4) : bitIndex (x + 4 * y) = y + x * 4 := by
  rw [bitIndex]
  omega

theorem decodedPixel_lt (second flipped : Bool) :
    ∀ j < 8, (decodedPixel second flipped j).1 < 4 := by
  cases second <;> cases flipped <;> decide

theorem decodedPixel_half (second flipped : Bool) : ∀ i < 16,
    (i ∈ (List.range 8).map fun j =>
      (decodedPixel second flipped j).1 + 4 * (decodedPixel second flipped j).2) ↔
      (second = true ↔ InSecond flipped i) := by
  cases second <;> cases flipped <;> decide

theorem texelAt_decode_subblock (pOut : Nat → UInt8) (c : RGB Nat) (table low : Nat)
    (second flipped : Bool) {i : Nat} (hi : i < 16) :
    texelAt (decode_subblock pOut c table low second flipped) i =
      if second = true ↔ InSecond flipped i then
        shade c (modifier table (decodedOffset low (bitIndex i)))
      else texelAt pOut i := by
  let pixel := fun j => (decodedPixel second flipped j).1 + 4 * (decodedPixel second flipped j).2
  -- Each turn stores what belongs to its pixel.
  have hturns : ∀ (js : List Nat) (pOut : Nat → UInt8), (∀ j ∈ js, j < 8) →
      texelAt (js.foldl (fun pOut j =>
        storeTexel pOut (3 * pixel j) (shade c (modifier table (decodedOffset low
          ((decodedPixel second flipped j).2 + (decodedPixel second flipped j).1 * 4))))) pOut) i =
        if i ∈ js.map pixel then shade c (modifier table (decodedOffset low (bitIndex i)))
        else texelAt pOut i := by
    intro js
    induction js with
    | nil => simp
    | cons j js ih =>
        intro pOut hjs
        have hbit := bitIndex_pixel (y := (decodedPixel second flipped j).2)
          (decodedPixel_lt second flipped j (hjs j List.mem_cons_self))
        rw [List.foldl_cons, ih _ fun j hj => hjs j (List.mem_cons_of_mem _ hj), List.map_cons,
          texelAt_storeTexel, ← hbit]
        grind
  apply (hturns (List.range 8) pOut fun j hj => List.mem_range.mp hj).trans
  have hhalf := decodedPixel_half second flipped i hi
  by_cases h : second = true ↔ InSecond flipped i
  · rw [if_pos h, if_pos (hhalf.mpr h)]
  · rw [if_neg h, if_neg fun hmem => h (hhalf.mp hmem)]

theorem texelAt_etc1_decode_block (pIn pOut : Nat → UInt8) {base : RGB Nat × RGB Nat}
    {flipped : Bool}
    (h : Unpacks (wordAt pIn 0) base flipped tableA tableB) {i : Nat} (hi : i < 16) :
    texelAt (etc1_decode_block pIn pOut) i =
      choice base flipped tableA tableB (fun i => decodedOffset (wordAt pIn 4) (bitIndex i)) i := by
  rw [etc1_decode_block, h.colors, h.tableA, h.tableB, h.flipped,
    texelAt_decode_subblock _ _ _ _ _ _ hi, texelAt_decode_subblock _ _ _ _ _ _ hi, choice]
  grind

/-! ## The error of a candidate -/

/-- Every pixel is in one of the halves. -/
theorem sum_halves (flipped : Bool) (f : Nat → Nat) :
    ((List.range 16).map f).sum =
      ((subblockPixels flipped false).map fun p => f (p.1 + 4 * p.2)).sum +
        ((subblockPixels flipped true).map fun p => f (p.1 + 4 * p.2)).sum := by
  have hperm : ∀ flipped, List.Perm ((List.range 16))
      ((subblockPixels flipped false ++ subblockPixels flipped true).map
        fun p => p.1 + 4 * p.2) := by
    decide
  have hsum := ((hperm flipped).map f).sum_nat
  rwa [List.map_map, List.map_append, List.sum_append] at hsum

section Choice

variable {pIn : Nat → UInt8} {inMask : BitVec 32}

def selectedError (pIn : Nat → UInt8) (inMask : BitVec 32) (base : RGB Nat) (table : Nat)
    (flipped second : Bool) (selector : Nat → Nat) : Nat :=
  ((subblockPixels flipped second).map fun p =>
    if inMask.getLsbD (p.1 + 4 * p.2) then
      pixelError (texelAt pIn (p.1 + 4 * p.2))
        (shade base (modifier table (selector (p.1 + 4 * p.2))))
    else 0).sum

theorem blockError_choice (base : RGB Nat × RGB Nat) (flipped : Bool) (tableA tableB : Nat)
    (selector : Nat → Nat) :
    blockError pIn inMask (choice base flipped tableA tableB selector) =
      selectedError pIn inMask base.1 tableA flipped false selector +
        selectedError pIn inMask base.2 tableB flipped true selector := by
  rw [blockError, sum_halves flipped]
  congr 1
  · rw [selectedError]
    congr 1
    apply List.map_congr_left
    rintro ⟨x, y⟩ hp
    obtain ⟨hx, hy⟩ := subblockPixels_lt flipped false _ hp
    grind [choice, mem_subblockPixels]
  · rw [selectedError]
    congr 1
    apply List.map_congr_left
    rintro ⟨x, y⟩ hp
    obtain ⟨hx, hy⟩ := subblockPixels_lt flipped true _ hp
    grind [choice, mem_subblockPixels]

/-- No selectors are better than the best ones. -/
theorem halfError_le_selected (base : RGB Nat) (table : Nat) (flipped second : Bool)
    {selector : Nat → Nat} (hselector : ∀ i, selector i < 4) :
    halfError pIn inMask base table flipped second ≤
      selectedError pIn inMask base table flipped second selector := by
  apply List.sum_le_sum
  grind [bestError, bestModifier_spec]

theorem selectedError_best (base : RGB Nat) (table : Nat) (flipped second : Bool)
    {selector : Nat → Nat}
    (hselector : ∀ p ∈ subblockPixels flipped second,
      selector (p.1 + 4 * p.2) = bestSelector pIn inMask base table (p.1 + 4 * p.2)) :
    selectedError pIn inMask base table flipped second selector =
      halfError pIn inMask base table flipped second := by
  rw [selectedError, halfError]
  congr 1
  apply List.map_congr_left
  grind [bestError, bestSelector, bestModifier_spec]

/-- What a candidate of an orientation holds. -/
structure IsCandidate (pIn : Nat → UInt8) (inMask : BitVec 32) (flipped : Bool)
    (tableA tableB : Nat) (c : EtcCompressed) : Prop where
  high : c.high =
    packed flipped (etc_encodeBaseColors (averageColors pIn inMask flipped)).2 tableA tableB
  low_lt : c.low < 2 ^ 32
  selectorA : ∀ p ∈ subblockPixels flipped false, decodedOffset c.low (p.2 + p.1 * 4) =
    bestSelector pIn inMask (baseColors pIn inMask flipped).1 tableA (p.1 + 4 * p.2)
  selectorB : ∀ p ∈ subblockPixels flipped true, decodedOffset c.low (p.2 + p.1 * 4) =
    bestSelector pIn inMask (baseColors pIn inMask flipped).2 tableB (p.1 + 4 * p.2)
  score : c.score = halfError pIn inMask (baseColors pIn inMask flipped).1 tableA flipped false +
    halfError pIn inMask (baseColors pIn inMask flipped).2 tableB flipped true

theorem encodePixels_low_lt {base : RGB Nat} {table : Nat} {ps : List (Nat × Nat)}
    (hps : ∀ p ∈ ps, p.1 < 4 ∧ p.2 < 4) {c : EtcCompressed} (hc : c.low < 2 ^ 32) :
    (ps.foldl (encodePixel pIn inMask base table) c).low < 2 ^ 32 := by
  have hmask : ∀ b < 4, ∀ k < 16, lowMask b k < 2 ^ 32 := by
    decide +kernel
  induction ps generalizing c with
  | nil => exact hc
  | cons p ps ih =>
      obtain ⟨hx, hy⟩ := hps p List.mem_cons_self
      apply ih fun p hp => hps p (List.mem_cons_of_mem _ hp)
      rw [encodePixel_eq]
      exact Nat.or_lt_two_pow hc (hmask _ (bestSelector_lt _) _ (by omega))

theorem not_mem_both {flipped : Bool} {p : Nat × Nat} (hp : p ∈ subblockPixels flipped false) :
    p ∉ subblockPixels flipped true := by
  obtain ⟨hx, hy⟩ := subblockPixels_lt flipped false p hp
  grind [mem_subblockPixels]

theorem isCandidate_secondHalf (flipped : Bool) (tableA tableB : Nat) :
    IsCandidate pIn inMask flipped tableA tableB
      (secondHalf pIn inMask flipped (baseColors pIn inMask flipped).2
        (firstHalf pIn inMask flipped (baseColors pIn inMask flipped).1
          ((if flipped then 1 else 0) |||
            (etc_encodeBaseColors (averageColors pIn inMask flipped)).2) tableA) tableB) := by
  have hfirst := subblockPixels_lt flipped false
  have hsecond := subblockPixels_lt flipped true
  constructor
  · apply (encodePixels_high_score _ _).1.trans
    dsimp only
    rw [firstHalf, etc_encode_subblock_helper, (encodePixels_high_score _ _).1]
    rfl
  · apply encodePixels_low_lt hsecond
    apply encodePixels_low_lt hfirst
    exact Nat.two_pow_pos 32
  · intro p hp
    obtain ⟨hx, hy⟩ := hfirst p hp
    apply (encodePixels_low hsecond _ hx hy).trans
    apply (congrArg (· ||| _) (encodePixels_low hfirst _ hx hy)).trans
    rw [if_neg (not_mem_both hp), if_pos hp, decodedOffset_zero, Nat.zero_or, Nat.or_zero]
  · intro p hp
    obtain ⟨hx, hy⟩ := hsecond p hp
    apply (encodePixels_low hsecond _ hx hy).trans
    apply (congrArg (· ||| _) (encodePixels_low hfirst _ hx hy)).trans
    rw [if_pos hp, if_neg fun h => not_mem_both h hp, decodedOffset_zero, Nat.zero_or, Nat.zero_or]
  · rw [secondHalf_score, firstHalf_score]

/-- The encoder ends with the best candidate of an orientation. -/
theorem etc_encode_block_helper_spec (pIn : Nat → UInt8) (inMask : BitVec 32) (flipped : Bool) :
    ∃ tableA < 8, ∃ tableB < 8,
      IsCandidate pIn inMask flipped tableA tableB
        (etc_encode_block_helper pIn inMask (averageColors pIn inMask flipped) flipped) ∧
      ∀ a < 8, ∀ b < 8,
        (etc_encode_block_helper pIn inMask (averageColors pIn inMask flipped) flipped).score ≤
          halfError pIn inMask (baseColors pIn inMask flipped).1 a flipped false +
            halfError pIn inMask (baseColors pIn inMask flipped).2 b flipped true := by
  obtain ⟨tableA, hA, hfirst, hminA⟩ := @encodeFirst_spec pIn inMask flipped
    (baseColors pIn inMask flipped).1 ((if flipped then 1 else 0) |||
      (etc_encodeBaseColors (averageColors pIn inMask flipped)).2)
  obtain ⟨tableB, hB, hsecond, hminB⟩ := @encodeSecond_spec pIn inMask flipped
    (baseColors pIn inMask flipped).2 (firstHalf pIn inMask flipped
      (baseColors pIn inMask flipped).1 ((if flipped then 1 else 0) |||
        (etc_encodeBaseColors (averageColors pIn inMask flipped)).2) tableA)
  have hhelper : etc_encode_block_helper pIn inMask (averageColors pIn inMask flipped) flipped =
      _ := (congrArg (encodeSecond pIn inMask flipped _) hfirst).trans hsecond
  have hcandidate := @isCandidate_secondHalf pIn inMask flipped tableA tableB
  grind [hcandidate.score]

/-- What is written for a candidate is decoded to a block with its score. -/
theorem blockError_decode {flipped : Bool} (hA : tableA < 8)
    (hB : tableB < 8) {c : EtcCompressed} (hc : IsCandidate pIn inMask flipped tableA tableB c)
    (pOut : Nat → UInt8) :
    blockError pIn inMask (texelAt (etc1_decode_block
      (fun i => (writeBigEndian c.high ++ writeBigEndian c.low).getD i 0) pOut)) = c.score := by
  have hunpacks := unpacks_packed (averageColors pIn inMask flipped) hA hB flipped
  rw [← hc.high] at hunpacks
  obtain ⟨hhigh, hlow⟩ := wordAt_encoded hunpacks.lt hc.low_lt
  generalize (fun i => (writeBigEndian c.high ++ writeBigEndian c.low).getD i 0) = pIn'
    at hhigh hlow ⊢
  rw [← hhigh] at hunpacks
  have hchoice : blockError pIn inMask (texelAt (etc1_decode_block pIn' pOut)) =
      blockError pIn inMask (choice (baseColors pIn inMask flipped) flipped tableA tableB
        fun i => decodedOffset c.low (bitIndex i)) := by
    apply congrArg List.sum
    apply List.map_congr_left
    grind [texelAt_etc1_decode_block, baseColors]
  have hselectors : ∀ p ∈ subblockPixels flipped false ++ subblockPixels flipped true,
      decodedOffset c.low (bitIndex (p.1 + 4 * p.2)) = decodedOffset c.low (p.2 + p.1 * 4) := by
    intro p hp
    grind [bitIndex_pixel, subblockPixels_lt]
  rw [hchoice, blockError_choice, hc.score]
  apply congrArg₂
  · apply selectedError_best
    intro p hp
    grind [hc.selectorA]
  · apply selectedError_best
    intro p hp
    grind [hc.selectorB]

end Choice

/-- What the encoder writes is decoded to a block with the score of the chosen candidate, and no
orientation, tables and selectors give a smaller error with the base colors of the encoder. -/
theorem etc1_encode_block_best (pIn : Nat → UInt8) (inMask : BitVec 32) (pOut : Nat → UInt8) :
    blockError pIn inMask (texelAt (etc1_decode_block
        (fun i => (etc1_encode_block pIn inMask).getD i 0) pOut)) = (chosen pIn inMask).score ∧
      ∀ (flipped : Bool) (tableA tableB : Fin 8) (selector : Nat → Fin 4),
        (chosen pIn inMask).score ≤ blockError pIn inMask
          (choice (baseColors pIn inMask flipped) flipped tableA tableB fun i => selector i) := by
  obtain ⟨a₁, ha₁, b₁, hb₁, hfalse, hminFalse⟩ := etc_encode_block_helper_spec pIn inMask false
  obtain ⟨a₂, ha₂, b₂, hb₂, htrue, hminTrue⟩ := etc_encode_block_helper_spec pIn inMask true
  obtain ⟨hleFalse, hleTrue⟩ := key_better_le EtcCompressed.score
    (etc_encode_block_helper pIn inMask (averageColors pIn inMask false) false)
    (etc_encode_block_helper pIn inMask (averageColors pIn inMask true) true)
  constructor
  · rw [etc1_encode_block, chosen, take_best_eq]
    obtain h | h := better_cases EtcCompressed.score
      (etc_encode_block_helper pIn inMask (averageColors pIn inMask false) false)
      (etc_encode_block_helper pIn inMask (averageColors pIn inMask true) true)
    · rw [h]
      exact blockError_decode ha₁ hb₁ hfalse pOut
    · rw [h]
      exact blockError_decode ha₂ hb₂ htrue pOut
  · intro flipped tableA tableB selector
    rw [blockError_choice]
    have hA := @halfError_le_selected pIn inMask
      (baseColors pIn inMask flipped).1 tableA flipped false _ (fun i => (selector i).isLt)
    have hB := @halfError_le_selected pIn inMask
      (baseColors pIn inMask flipped).2 tableB flipped true _ (fun i => (selector i).isLt)
    apply Nat.le_trans _ (Nat.add_le_add hA hB)
    cases flipped
    · exact Nat.le_trans hleFalse (hminFalse tableA tableA.isLt tableB tableB.isLt)
    · exact Nat.le_trans hleTrue (hminTrue tableA tableA.isLt tableB tableB.isLt)

end AndroidRenderer.Translator.Etc1
