import AndroidRenderer.Translator.UnpackAlignment
import Mathlib.Algebra.BigOperators.Ring.Finset
import Mathlib.Algebra.Order.BigOperators.Group.Finset
import Mathlib.Tactic.Ring

/-!
# Texels of paletted images

What the paletted formats mean: the indices of all levels follow each other behind the palette, an
index selects an entry, and the fields of an entry are scaled to bytes. `uncompressTexture` makes
the texels of a level from that, with three exceptions: a level of an odd number of 4-bit indices
does not end with a byte, sizes wrap, and the red of `R5_G6_B5` is negative from 16 on.
-/

namespace AndroidRenderer.Translator

open Finset

/-! ## What the formats mean -/

/-- A field of an entry as a byte. -/
def scaled (v bits : Nat) : UInt8 := UInt8.ofNat (v * 255 / (2 ^ bits - 1))

namespace PaletteFormat

def paletteSizeBytes (frmt : PaletteFormat) : Nat := 2 ^ frmt.indexSizeBits * frmt.colorSizeBytes

def indexAt (frmt : PaletteFormat) (data : Nat → UInt8) (n : Nat) : Nat :=
  if frmt.wide then (data (frmt.paletteSizeBytes + n)).toNat
  else if n % 2 = 0 then (data (frmt.paletteSizeBytes + n / 2)).toNat / 16
  else (data (frmt.paletteSizeBytes + n / 2)).toNat % 16

/-- The two bytes of an entry of fields. -/
def entryBits (data : Nat → UInt8) (entry : Nat) : Nat :=
  (data (entry * 2)).toNat + 256 * (data (entry * 2 + 1)).toNat

/-- The red, green, blue and alpha that an entry has. -/
def entryColor (frmt : PaletteFormat) (data : Nat → UInt8) (entry : Nat) : List UInt8 :=
  let s := entryBits data entry
  match frmt.color with
  | .RGB8 => (List.range 3).map fun i => data (entry * 3 + i)
  | .RGBA8 => (List.range 4).map fun i => data (entry * 4 + i)
  | .R5_G6_B5 => [scaled (s / 2 ^ 11) 5, scaled (s / 2 ^ 5 % 2 ^ 6) 6, scaled (s % 2 ^ 5) 5]
  | .RGBA4 =>
      [scaled (s / 2 ^ 12) 4, scaled (s / 2 ^ 8 % 2 ^ 4) 4, scaled (s / 2 ^ 4 % 2 ^ 4) 4,
        scaled (s % 2 ^ 4) 4]
  | .RGB5_A1 =>
      [scaled (s / 2 ^ 11) 5, scaled (s / 2 ^ 6 % 2 ^ 5) 5, scaled (s / 2 % 2 ^ 5) 5,
        scaled (s % 2) 1]

end PaletteFormat

def levelPixels (width height : GLsizei) (level : Nat) : Nat :=
  width.toNat / 2 ^ level * (height.toNat / 2 ^ level)

/-- The number of the first index of a level, behind those of all larger levels. -/
def firstIndex (width height : GLsizei) (level : Nat) : Nat :=
  ∑ j ∈ range level, levelPixels width height j

/-! ## Colors -/

theorem entryBits_lt (data : Nat → UInt8) (entry : Nat) :
    PaletteFormat.entryBits data entry < 2 ^ 16 := by
  have hlow := (data (entry * 2)).toNat_lt
  have hhigh := (data (entry * 2 + 1)).toNat_lt
  rw [PaletteFormat.entryBits]
  omega

theorem shortAt_eq (data : Nat → UInt8) (entry : Nat) :
    shortAt data (entry * 2) = PaletteFormat.entryBits data entry -
      if PaletteFormat.entryBits data entry < 2 ^ 15 then 0 else 2 ^ 16 := by
  have hlt := entryBits_lt data entry
  change (BitVec.ofNat 16 (PaletteFormat.entryBits data entry)).toInt = _
  rw [BitVec.toInt_eq_toNat_cond, BitVec.toNat_ofNat, Nat.mod_eq_of_lt hlt]
  split <;> split <;> omega

/-- A mask takes the sign away. -/
theorem channel_eq (data : Nat → UInt8) (entry shift bits : Nat)
    (hfield : shift + bits ≤ 16) :
    channel (shortAt data (entry * 2)) shift bits =
      scaled (PaletteFormat.entryBits data entry / 2 ^ shift % 2 ^ bits) bits := by
  obtain ⟨rest, hrest⟩ := Nat.exists_eq_add_of_le hfield
  have hpow : (65536 : Int) = 2 ^ shift * (2 ^ bits * 2 ^ rest) := by
    rw [← mul_assoc, ← pow_add, ← pow_add, ← hrest]
    rfl
  have hmasked : (shortAt data (entry * 2) >>> shift % 2 ^ bits : Int) =
      (PaletteFormat.entryBits data entry / 2 ^ shift % 2 ^ bits : Nat) := by
    rw [shortAt_eq, Int.shiftRight_eq_div_pow]
    push_cast
    split
    · rw [sub_zero]
    · rw [hpow, Int.sub_mul_ediv_left _ _ (by positivity), Int.sub_mul_emod_self_left]
  rw [channel, hmasked, Int.toNat_natCast, scaled]

/-- The red of `R5_G6_B5` is right below 16. -/
theorem red_eq_iff (data : Nat → UInt8) (entry : Nat) :
    UInt8.ofInt ((shortAt data (entry * 2) >>> (11 : Nat) * 255).tdiv 31) =
        scaled (PaletteFormat.entryBits data entry / 2 ^ 11) 5 ↔
      PaletteFormat.entryBits data entry / 2 ^ 11 < 16 := by
  have hlt := entryBits_lt data entry
  have hwrong : ∀ red < 32, (UInt8.ofInt ((((red : Nat) : Int) - if red < 16 then 0 else 32) * 255
      |>.tdiv 31) = scaled red 5 ↔ red < 16) := by
    decide
  have hshift : shortAt data (entry * 2) >>> (11 : Nat) =
      ((PaletteFormat.entryBits data entry / 2 ^ 11 : Nat) : Int) -
        if PaletteFormat.entryBits data entry / 2 ^ 11 < 16 then 0 else 32 := by
    rw [shortAt_eq, Int.shiftRight_eq_div_pow]
    split <;> split <;> omega
  rw [hshift]
  exact hwrong _ (by omega)

/-- The color that is made of an entry is its color, but for large reds of `R5_G6_B5`. -/
theorem paletteColor_eq_iff (frmt : PaletteFormat) (data : Nat → UInt8) (entry : Nat) :
    (∀ i < frmt.colorFrmt.size,
        (paletteColor data (entry * frmt.colorSizeBytes) frmt.color).getD i 0 =
          (frmt.entryColor data entry).getD i 0) ↔
      (frmt.color = .R5_G6_B5 → PaletteFormat.entryBits data entry / 2 ^ 11 < 16) := by
  obtain ⟨wide, color⟩ := frmt
  have hlt := entryBits_lt data entry
  have hred : PaletteFormat.entryBits data entry / 2 ^ 11 % 2 ^ 5 =
      PaletteFormat.entryBits data entry / 2 ^ 11 := Nat.mod_eq_of_lt (by omega)
  have hred4 : PaletteFormat.entryBits data entry / 2 ^ 12 % 2 ^ 4 =
      PaletteFormat.entryBits data entry / 2 ^ 12 := Nat.mod_eq_of_lt (by omega)
  cases color with
  | RGB8 =>
      refine iff_of_true (fun i (hi : i < 3) => ?_) nofun
      interval_cases i <;> rfl
  | RGBA8 =>
      refine iff_of_true (fun i (hi : i < 4) => ?_) nofun
      interval_cases i <;> rfl
  | R5_G6_B5 =>
      have hgreen := channel_eq data entry 5 6 (by decide)
      have hblue := channel_eq data entry 0 5 (by decide)
      rw [Nat.pow_zero, Nat.div_one] at hblue
      constructor
      · intro hcolor _
        exact (red_eq_iff data entry).mp (hcolor 0 (show 0 < 3 by decide))
      · intro hsmall i (hi : i < 3)
        interval_cases i
        · exact (red_eq_iff data entry).mpr (hsmall rfl)
        · exact hgreen
        · exact hblue
  | RGBA4 =>
      have hblue := channel_eq data entry 4 4 (by decide)
      have hgreen := channel_eq data entry 8 4 (by decide)
      have hr := channel_eq data entry 12 4 (by decide)
      have halpha := channel_eq data entry 0 4 (by decide)
      rw [Nat.pow_zero, Nat.div_one] at halpha
      rw [hred4] at hr
      refine iff_of_true (fun i (hi : i < 4) => ?_) nofun
      interval_cases i
      · exact hr
      · exact hgreen
      · exact hblue
      · exact halpha
  | RGB5_A1 =>
      have hblue := channel_eq data entry 1 5 (by decide)
      have hgreen := channel_eq data entry 6 5 (by decide)
      have hr := channel_eq data entry 11 5 (by decide)
      have halpha := channel_eq data entry 0 1 (by decide)
      rw [Nat.pow_zero, Nat.div_one, Nat.pow_one] at halpha
      rw [Nat.pow_one] at hblue
      rw [hred] at hr
      refine iff_of_true (fun i (hi : i < 4) => ?_) nofun
      interval_cases i
      · exact hr
      · exact hgreen
      · exact hblue
      · exact halpha

/-! ## The place of a level -/

theorem bits_cases (frmt : PaletteFormat) :
    frmt.wide = true ∧ frmt.indexSizeBits = 8 ∨ frmt.wide = false ∧ frmt.indexSizeBits = 4 := by
  obtain ⟨wide, color⟩ := frmt
  cases wide
  · exact .inr ⟨rfl, rfl⟩
  · exact .inl ⟨rfl, rfl⟩

theorem levelPixels_halve {width height : GLsizei} (hw : width.toNat < 2 ^ 31)
    (hh : height.toNat < 2 ^ 31) (j : Nat) :
    levelPixels (width.sshiftRight 1) (height.sshiftRight 1) j =
      levelPixels width height (j + 1) := by
  rw [levelPixels, levelPixels, (halve_toNat hw).1, (halve_toNat hh).1, Nat.div_div_eq_div_mul,
    Nat.div_div_eq_div_mul, Nat.pow_succ']

/-- Each larger level takes the bytes of its indices, as a 32-bit number of bits. -/
theorem jump_imageIndices (frmt : PaletteFormat) (level start : Nat) {width height : GLsizei}
    (hw : width.toNat < 2 ^ 31) (hh : height.toNat < 2 ^ 31) :
    (PaletteLevel.jump frmt level ⟨start, width, height⟩).imageIndices =
      start + ∑ j ∈ range level, levelPixels width height j * frmt.indexSizeBits % 2 ^ 32 / 8 := by
  induction level generalizing start width height with
  | zero => rfl
  | succ level ih =>
      have hwidth := (halve_toNat hw).1
      have hheight := (halve_toNat hh).1
      have hbits : (BitVec.ofNat 32 frmt.indexSizeBits).toNat = frmt.indexSizeBits := by
        obtain ⟨-, h⟩ | ⟨-, h⟩ := bits_cases frmt <;> rw [h] <;> rfl
      have hfirst : (width * height * BitVec.ofNat 32 frmt.indexSizeBits).toNat =
          levelPixels width height 0 * frmt.indexSizeBits % 2 ^ 32 := by
        simp [BitVec.toNat_mul, Nat.mod_mul_mod, levelPixels, Nat.div_one, hbits]
      rw [PaletteLevel.jump, ih _ (by rw [hwidth]; omega) (by rw [hheight]; omega),
        sum_range_succ', hfirst]
      simp only [levelPixels_halve hw hh]
      omega

/-- Each larger level ends with a byte, and its size in bits does not wrap. -/
def WholeBytes (frmt : PaletteFormat) (width height : GLsizei) (level : Nat) : Prop :=
  ∀ j < level, levelPixels width height j * frmt.indexSizeBits < 2 ^ 32 ∧
    8 ∣ levelPixels width height j * frmt.indexSizeBits

/-- The indices of a level begin where the larger levels end if and only if those are whole
bytes. -/
theorem position_iff (frmt : PaletteFormat) (level : Nat) {width height : GLsizei}
    (hw : width.toNat < 2 ^ 31) (hh : height.toNat < 2 ^ 31) :
    8 * (PaletteLevel.jump frmt level ⟨frmt.paletteSizeBytes, width, height⟩).imageIndices =
        8 * frmt.paletteSizeBytes + firstIndex width height level * frmt.indexSizeBits ↔
      WholeBytes frmt width height level := by
  have hterm (x : Nat) : 8 * (x % 2 ^ 32 / 8) = x ↔ x < 2 ^ 32 ∧ 8 ∣ x := by omega
  rw [jump_imageIndices frmt level _ hw hh, firstIndex, Nat.mul_add, Nat.add_left_cancel_iff,
    mul_sum, sum_mul, sum_eq_sum_iff_of_le fun j _ => by omega]
  simp only [mem_range, hterm]
  rfl

/-- Pixels take their indices in turn, the upper half of a byte first. -/
theorem pixelColor_eq (frmt : PaletteFormat) (data : Nat → UInt8) {imageIndices first : Nat}
    (hplace : 8 * imageIndices = 8 * frmt.paletteSizeBytes + first * frmt.indexSizeBits) (n : Nat) :
    pixelColor frmt data imageIndices n =
      paletteColor data (frmt.indexAt data (first + n) * frmt.colorSizeBytes) frmt.color := by
  rw [pixelColor, PaletteFormat.indexAt]
  grind [bits_cases]

/-- The pixels that are left behind the place of a level; 8 times the bytes is a 32-bit number. -/
def leftPixels (frmt : PaletteFormat) (imageSize : GLsizei) (imageIndices : Nat) : Nat :=
  (8 * (imageSize.toInt - imageIndices) % 2 ^ 32).toNat / frmt.indexSizeBits

theorem maxIndices_eq (frmt : PaletteFormat) (imageSize : GLsizei) (imageIndices : Nat)
    (nPixels : GLsizei) (hn : nPixels.toNat < 2 ^ 31) :
    maxIndices frmt imageSize imageIndices nPixels =
      min (leftPixels frmt imageSize imageIndices) nPixels.toNat := by
  have hint := BitVec.toInt_eq_toNat_of_lt (x := nPixels) (by omega)
  have hdiv : (BitVec.ofInt 32 (imageSize.toInt - imageIndices) * 8 /
      BitVec.ofNat 32 frmt.indexSizeBits).toNat = leftPixels frmt imageSize imageIndices := by
    have height : (8 : BitVec 32) = BitVec.ofInt 32 8 := rfl
    have hbits : (BitVec.ofNat 32 frmt.indexSizeBits).toNat = frmt.indexSizeBits := by
      obtain ⟨-, h⟩ | ⟨-, h⟩ := bits_cases frmt <;> rw [h] <;> rfl
    rw [BitVec.toNat_udiv, hbits, height, ← BitVec.ofInt_mul, BitVec.toNat_ofInt, leftPixels,
      Int.mul_comm]
    rfl
  have hlt : leftPixels frmt imageSize imageIndices < 2 ^ 31 := by
    have hmod := Int.emod_lt_of_pos (8 * (imageSize.toInt - imageIndices)) (show 0 < 2 ^ 32 by decide)
    rw [leftPixels]
    obtain ⟨-, h⟩ | ⟨-, h⟩ := bits_cases frmt <;> rw [h] <;> omega
  grind [maxIndices, BitVec.slt_iff_toInt_lt]

/-! ## Levels -/

section Level

variable (frmt : PaletteFormat) (data : Nat → UInt8) (width height imageSize : GLsizei)
  (level : Nat)

/-- The first index of a level is the one after all larger levels, and its texels are those of the
entries that the indices select. -/
structure Expands : Prop where
  place : levelPixels width height level ≠ 0 →
    8 * (PaletteLevel.jump frmt level ⟨frmt.paletteSizeBytes, width, height⟩).imageIndices =
      8 * frmt.paletteSizeBytes + firstIndex width height level * frmt.indexSizeBits
  texels : ∀ junk, ∃ pixels,
    uncompressTexture frmt junk width height imageSize (some data) level = .ok (some pixels) ∧
    ∀ x < width.toNat / 2 ^ level, ∀ y < height.toNat / 2 ^ level, ∀ i < frmt.colorFrmt.size,
      pixels[(width.toNat / 2 ^ level * y + x) * frmt.colorFrmt.size + i]? =
        some ((frmt.entryColor data (frmt.indexAt data
          (firstIndex width height level + (width.toNat / 2 ^ level * y + x)))).getD i 0)

/-- The larger levels are whole bytes, no size wraps, and no red of `R5_G6_B5` is 16 or more. -/
structure Expandable : Prop where
  bytes : WholeBytes frmt width height level
  memory : levelPixels width height level * frmt.colorFrmt.size < 2 ^ 31
  left : levelPixels width height level ≤ leftPixels frmt imageSize
    (frmt.paletteSizeBytes + firstIndex width height level * frmt.indexSizeBits / 8)
  red : frmt.color = .R5_G6_B5 → ∀ n < levelPixels width height level,
    PaletteFormat.entryBits data (frmt.indexAt data (firstIndex width height level + n)) / 2 ^ 11 <
      16

variable {frmt data width height imageSize level}

theorem length_of_newBytes {junk : Nat → UInt8} {size : GLsizei} {bytes : List UInt8}
    (h : newBytes junk size = .ok bytes) : bytes.length < 2 ^ 31 := by
  by_cases hsize : 2 ^ 31 ≤ size.toNat
  · rw [newBytes_bad junk hsize] at h
    cases h
  · grind [newBytes_ok]

theorem length_of_storeRows {pixels pixels' : List UInt8} {rows : List (Nat × List UInt8)}
    (h : storeRows pixels rows = .ok pixels') : pixels'.length = pixels.length := by
  rw [storeRows] at h
  split at h
  · rename_i hstore
    obtain ⟨_, hsome, hlength⟩ := Buffer.storeAll?_isSome (Buffer.storeAll?_inside hstore)
    grind
  · cases h

/-- There is no image of 2^31 bytes. -/
theorem length_of_uncompressTexture {junk : Nat → UInt8} {pixels : List UInt8}
    (h : uncompressTexture frmt junk width height imageSize (some data) level =
      .ok (some pixels)) : pixels.length < 2 ^ 31 := by
  obtain ⟨bytes, hnew, h⟩ := Run.bind_eq_ok.mp h
  obtain ⟨stored, hstore, h⟩ := Run.bind_eq_ok.mp h
  rw [← Option.some.inj (Except.ok.inj h), length_of_storeRows hstore]
  exact length_of_newBytes hnew

/-- The last byte of a level is there. -/
theorem Expands.memory (h : Expands frmt data width height imageSize level) :
    levelPixels width height level * frmt.colorFrmt.size < 2 ^ 31 := by
  obtain ⟨pixels, hok, htexels⟩ := h.texels fun _ => 0
  have hlength := length_of_uncompressTexture hok
  by_contra hge
  have hpixels : levelPixels width height level ≠ 0 := fun hzero => by
    rw [hzero, Nat.zero_mul] at hge
    exact hge (by decide)
  have hpos : 0 < frmt.colorFrmt.size := by
    obtain h | h := size_cases frmt.colorFrmt <;> omega
  obtain ⟨w, hw⟩ := Nat.exists_eq_succ_of_ne_zero (Nat.ne_zero_of_mul_ne_zero_left hpixels)
  obtain ⟨h, hh⟩ := Nat.exists_eq_succ_of_ne_zero (Nat.ne_zero_of_mul_ne_zero_right hpixels)
  have hlast := htexels w (by omega) h (by omega) (frmt.colorFrmt.size - 1) (by omega)
  obtain ⟨hin, -⟩ := List.getElem?_eq_some_iff.mp hlast
  have hsum : (width.toNat / 2 ^ level * h + w) * frmt.colorFrmt.size + frmt.colorFrmt.size =
      levelPixels width height level * frmt.colorFrmt.size := by
    rw [levelPixels, hw, hh, Nat.succ_eq_add_one, Nat.succ_eq_add_one]
    ring
  omega

/-- A level that there is memory for has the colors of the indices that are left, and what was in
the memory behind them. -/
theorem uncompressTexture_texels (hw : width.toNat < 2 ^ 31) (hh : height.toNat < 2 ^ 31)
    (hbytes : WholeBytes frmt width height level)
    (hmemory : levelPixels width height level * frmt.colorFrmt.size < 2 ^ 31)
    (data junk : Nat → UInt8) :
    ∃ pixels,
      uncompressTexture frmt junk width height imageSize (some data) level = .ok (some pixels) ∧
      ∀ x < width.toNat / 2 ^ level, ∀ y < height.toNat / 2 ^ level, ∀ i < frmt.colorFrmt.size,
        pixels[(width.toNat / 2 ^ level * y + x) * frmt.colorFrmt.size + i]? =
          some (if width.toNat / 2 ^ level * y + x < leftPixels frmt imageSize
              (frmt.paletteSizeBytes + firstIndex width height level * frmt.indexSizeBits / 8) then
            (paletteColor data (frmt.indexAt data (firstIndex width height level +
              (width.toNat / 2 ^ level * y + x)) * frmt.colorSizeBytes) frmt.color).getD i 0
          else junk ((width.toNat / 2 ^ level * y + x) * frmt.colorFrmt.size + i)) := by
  obtain ⟨pixels, hok, -, htexels⟩ :=
    uncompressTexture_level frmt data junk imageSize hw hh level hmemory
  refine ⟨pixels, hok, fun x hx y hy i hi => ?_⟩
  rw [htexels x hx y hy i hi]
  have hplace := (position_iff frmt level hw hh).mpr hbytes
  obtain ⟨hjw, hjh⟩ := jump_size frmt level (l := ⟨frmt.paletteSizeBytes, width, height⟩) hw hh
  change some (paletteTexel frmt data junk imageSize
    (PaletteLevel.jump frmt level ⟨frmt.paletteSizeBytes, width, height⟩) x y i) = _
  generalize PaletteLevel.jump frmt level ⟨frmt.paletteSizeBytes, width, height⟩ = l at *
  dsimp only at hjw hjh
  have hrow := row_le (width.toNat / 2 ^ level) hy
  have hpixels : levelPixels width height level < 2 ^ 31 := by
    obtain h | h := size_cases frmt.colorFrmt <;> rw [h] at hmemory <;> omega
  have hwidth : l.width.toInt.toNat = width.toNat / 2 ^ level := by
    have hlt : width.toNat / 2 ^ level < 2 ^ 31 := Nat.lt_of_le_of_lt (Nat.div_le_self _ _) hw
    rw [BitVec.toInt_eq_toNat_of_lt (by omega), hjw, Int.toNat_natCast]
  have hn : (l.width * l.height).toNat = levelPixels width height level := by
    rw [BitVec.toNat_mul, hjw, hjh, ← levelPixels]
    exact Nat.mod_eq_of_lt (by omega)
  have hindices : l.imageIndices =
      frmt.paletteSizeBytes + firstIndex width height level * frmt.indexSizeBits / 8 := by
    omega
  rw [paletteTexel, hwidth, maxIndices_eq frmt imageSize _ _ (by rw [hn]; exact hpixels),
    pixelColor_eq frmt data hplace, hn, ← hindices]
  congr 1
  have hless : width.toNat / 2 ^ level * y + x < levelPixels width height level := by
    rw [levelPixels]
    omega
  simp only [lt_min_iff, hless, and_true]

theorem exists_pixel {n : Nat} (hn : n < levelPixels width height level) :
    ∃ x < width.toNat / 2 ^ level, ∃ y < height.toNat / 2 ^ level,
      width.toNat / 2 ^ level * y + x = n := by
  rw [levelPixels] at hn
  have hpos : 0 < width.toNat / 2 ^ level := Nat.pos_of_mul_pos_right (Nat.zero_lt_of_lt hn)
  exact ⟨n % (width.toNat / 2 ^ level), Nat.mod_lt _ hpos, n / (width.toNat / 2 ^ level),
    Nat.div_lt_of_lt_mul hn, Nat.div_add_mod n _⟩

/-- A level expands to its texels if and only if it is empty, or the larger levels are whole bytes,
enough bytes are left for it, no size wraps, and no red of `R5_G6_B5` is large. -/
theorem expands_iff (hw : 0 ≤ width.toInt) (hh : 0 ≤ height.toInt) :
    Expands frmt data width height imageSize level ↔
      levelPixels width height level = 0 ∨
        Expandable frmt data width height imageSize level := by
  replace hw := (toNat_of_nonneg hw).1
  replace hh := (toNat_of_nonneg hh).1
  by_cases hempty : levelPixels width height level = 0
  · refine iff_of_true ⟨fun hne => absurd hempty hne, fun junk => ?_⟩ (.inl hempty)
    obtain ⟨pixels, hok, -, -⟩ := uncompressTexture_level frmt data junk imageSize hw hh level (by
      rw [← levelPixels, hempty, Nat.zero_mul]
      decide)
    refine ⟨pixels, hok, fun x hx y hy => ?_⟩
    have := Nat.mul_pos (Nat.zero_lt_of_lt hx) (Nat.zero_lt_of_lt hy)
    rw [levelPixels] at hempty
    omega
  rw [or_iff_right hempty]
  constructor
  · intro hexpands
    have hbytes := (position_iff frmt level hw hh).mp (hexpands.place hempty)
    have hsame (junk : Nat → UInt8) {n i : Nat} (hn : n < levelPixels width height level)
        (hi : i < frmt.colorFrmt.size) :
        (if n < leftPixels frmt imageSize
            (frmt.paletteSizeBytes + firstIndex width height level * frmt.indexSizeBits / 8) then
          (paletteColor data (frmt.indexAt data (firstIndex width height level + n) *
            frmt.colorSizeBytes) frmt.color).getD i 0
        else junk (n * frmt.colorFrmt.size + i)) =
          (frmt.entryColor data
            (frmt.indexAt data (firstIndex width height level + n))).getD i 0 := by
      obtain ⟨x, hx, y, hy, rfl⟩ := exists_pixel hn
      obtain ⟨_, hok, htexels⟩ := uncompressTexture_texels hw hh hbytes hexpands.memory data junk
      obtain ⟨_, hok', hwanted⟩ := hexpands.texels junk
      rw [hok] at hok'
      cases hok'
      exact Option.some.inj ((htexels x hx y hy i hi).symm.trans (hwanted x hx y hy i hi))
    have hpos : 0 < frmt.colorFrmt.size := by
      obtain h | h := size_cases frmt.colorFrmt <;> omega
    have hleft : levelPixels width height level ≤ leftPixels frmt imageSize
        (frmt.paletteSizeBytes + firstIndex width height level * frmt.indexSizeBits / 8) := by
      -- The first pixel without an index is whatever was in the memory.
      by_contra hless
      have hjunk (b : UInt8) := hsame (fun _ => b) (Nat.lt_of_not_le hless) hpos
      simp only [Nat.lt_irrefl, if_false] at hjunk
      exact absurd ((hjunk 0).trans (hjunk 1).symm) (by decide)
    refine ⟨hbytes, hexpands.memory, hleft, fun hcolor n hn => ?_⟩
    refine (paletteColor_eq_iff frmt data _).mp (fun i hi => ?_) hcolor
    have hpixel := hsame (fun _ => 0) hn hi
    rwa [if_pos (Nat.lt_of_lt_of_le hn hleft)] at hpixel
  · intro hexpandable
    refine ⟨fun _ => (position_iff frmt level hw hh).mpr hexpandable.bytes, fun junk => ?_⟩
    obtain ⟨pixels, hok, htexels⟩ := uncompressTexture_texels hw hh hexpandable.bytes
      hexpandable.memory data junk
    refine ⟨pixels, hok, fun x hx y hy i hi => ?_⟩
    have hrow := row_le (width.toNat / 2 ^ level) hy
    have hless : width.toNat / 2 ^ level * y + x < levelPixels width height level := by
      rw [levelPixels]
      omega
    rw [htexels x hx y hy i hi, if_pos (Nat.lt_of_lt_of_le hless hexpandable.left),
      (paletteColor_eq_iff frmt data _).mpr (fun hcolor => hexpandable.red hcolor _ hless) i hi]

end Level

/-- Two levels of two 4-bit indices and of one. -/
theorem expands_two :
    Expands ⟨false, .RGB8⟩ (fun i => UInt8.ofNat i) 2 2 51 1 :=
  (expands_iff (by decide) (by decide)).mpr
    (.inr ⟨by unfold WholeBytes; decide, by decide, by decide, nofun⟩)

/-- A red of 16 becomes 125, and the index of a level behind nine others is taken from the ninth. -/
theorem palette_misread :
    ¬ Expands ⟨false, .R5_G6_B5⟩ (fun i => if i = 1 then 0x80 else 0) 1 1 33 0 ∧
      ¬ Expands ⟨false, .RGB8⟩ (fun _ => 0) 3 3 53 1 := by
  refine ⟨fun h => ?_, fun h => ?_⟩
  · obtain ⟨pixels, hok, htexels⟩ := h.texels fun _ => 0
    have hmade : uncompressTexture ⟨false, .R5_G6_B5⟩ (fun _ => 0) 1 1 33
        (some fun i => if i = 1 then 0x80 else 0) 0 = .ok (some [125, 0, 0]) := by
      decide
    rw [hmade] at hok
    cases hok
    exact absurd (htexels 0 (by decide) 0 (by decide) 0 (by decide)) (by decide)
  · exact absurd (h.place (by decide)) (by decide)

end AndroidRenderer.Translator
