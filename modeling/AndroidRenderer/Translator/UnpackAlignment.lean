import AndroidRenderer.Lib.Run
import AndroidRenderer.Translator.CompressedTextures
import Mathlib.Tactic.IntervalCases

/-!
# Unpack alignment

The driver finds the texels of an image by its own unpack alignment. ETC1 images are laid out by
the alignment that the translator has for the driver's, paletted ones without any padding.
-/

namespace AndroidRenderer.Translator

/-- The driver's distance of two rows. -/
def driverStride (alignment : Nat) (format : TexFormat) (width : Nat) : Nat :=
  (width * format.size + (alignment - 1)) / alignment * alignment

/-- The bytes that the driver reads of an image. -/
def driverLength (alignment : Nat) (format : TexFormat) (width height : Nat) : Nat :=
  if width = 0 ∨ height = 0 then 0
  else driverStride alignment format width * (height - 1) + width * format.size

/-- An image holds the texels where the driver reads them, and all that it reads. -/
structure Matches (alignment : Nat) (texel : Nat → Nat → Nat → UInt8) (img : TexImage)
    (pixels : List UInt8) : Prop where
  length : driverLength alignment img.format img.width.toInt.toNat img.height.toInt.toNat ≤
    pixels.length
  texels : ∀ x < img.width.toInt.toNat, ∀ y < img.height.toInt.toNat, ∀ i < img.format.size,
    pixels[driverStride alignment img.format img.width.toInt.toNat * y +
      (x * img.format.size + i)]? = some (texel x y i)

def etc1Texel (decode : DecodeBlock) (data : Nat → UInt8) (width : GLsizei) (x y i : Nat) : UInt8 :=
  decode (blockAt data width (y / 4) (x / 4)) (12 * (y % 4) + (3 * (x % 4) + i))

/-- The texels of a level of a paletted image. Those without an index are not set. -/
def paletteTexel (frmt : PaletteFormat) (data junk : Nat → UInt8) (imageSize : GLsizei)
    (l : PaletteLevel) (x y i : Nat) : UInt8 :=
  let n := l.width.toInt.toNat * y + x
  if n < maxIndices frmt imageSize l.imageIndices (l.width * l.height) then
    (pixelColor frmt data l.imageIndices n).getD i 0
  else junk (n * frmt.colorFrmt.size + i)

/-! ## Alignments -/

theorem and_not_mask (x : BitVec 32) (k : Nat) :
    x &&& ~~~(BitVec.ofNat 32 (2 ^ k - 1)) = (x >>> k) <<< k := by
  ext i hi
  have hmask : (BitVec.ofNat 32 (2 ^ k - 1)).getLsbD i = decide (i < k) := by
    rw [BitVec.getLsbD_ofNat, Nat.testBit_two_pow_sub_one]
    simp [hi]
  grind

theorem isAlignment_cases {alignment : GLsizei} (ha : PixelStore.isAlignment alignment = true) :
    ∃ k < 4, alignment.toNat = 2 ^ k ∧ alignment - 1 = BitVec.ofNat 32 (2 ^ k - 1) := by
  simp only [PixelStore.isAlignment, Bool.or_eq_true, beq_iff_eq] at ha
  obtain ((rfl | rfl) | rfl) | rfl := ha
  · exact ⟨0, by decide, by decide, by decide⟩
  · exact ⟨1, by decide, by decide, by decide⟩
  · exact ⟨2, by decide, by decide, by decide⟩
  · exact ⟨3, by decide, by decide, by decide⟩

variable {width height : GLsizei}

/-- A size is rounded up to the alignment. -/
theorem bytesPerRow_toNat {alignment : GLsizei}
    (ha : PixelStore.isAlignment alignment = true)
    (hwidth : width.toNat * 3 + (alignment.toNat - 1) < 2 ^ 31) :
    (bytesPerRow alignment width).toNat = driverStride alignment.toNat .RGB width.toNat := by
  obtain ⟨k, hk, hnat, hmask⟩ := isAlignment_cases ha
  have hpow : 2 ^ k ≤ 8 := Nat.pow_le_pow_right (by decide) (Nat.le_of_lt_succ hk)
  have hpos : 0 < 2 ^ k := Nat.two_pow_pos k
  rw [hnat] at hwidth
  have hsum : (width * 3 + BitVec.ofNat 32 (2 ^ k - 1)).toNat = width.toNat * 3 + (2 ^ k - 1) := by
    have hthree : (3 : BitVec 32).toNat = 3 := rfl
    rw [BitVec.toNat_add, BitVec.toNat_mul, BitVec.toNat_ofNat, hthree]
    omega
  have hdiv := Nat.div_mul_le_self (width.toNat * 3 + (2 ^ k - 1)) (2 ^ k)
  rw [bytesPerRow, hmask, and_not_mask, BitVec.toNat_shiftLeft, BitVec.toNat_ushiftRight, hsum,
    Nat.shiftLeft_eq, Nat.shiftRight_eq_div_pow, driverStride, hnat]
  exact Nat.mod_eq_of_lt (by omega)

theorem le_driverStride {alignment : Nat} (ha : 0 < alignment) (format : TexFormat) (width : Nat) :
    width * format.size ≤ driverStride alignment format width := by
  have hmod := Nat.mod_lt (width * format.size + (alignment - 1)) ha
  have hdiv := Nat.div_add_mod' (width * format.size + (alignment - 1)) alignment
  rw [driverStride]
  omega

/-- The last texel ends the image. -/
theorem driverLength_le {alignment : Nat} (ha : 0 < alignment) (format : TexFormat)
    (width height : Nat) :
    driverLength alignment format width height ≤ driverStride alignment format width * height := by
  unfold driverLength
  split
  · exact Nat.zero_le _
  · rename_i hsize
    obtain ⟨h, rfl⟩ : ∃ h, height = h + 1 := ⟨height - 1, by omega⟩
    grind [le_driverStride]

/-! ## ETC1 -/

theorem roundToBlock_toNat {n : GLsizei} (hn : n.toNat < 2 ^ 31) :
    (roundToBlock n).toNat / 4 = (n.toNat + 3) / 4 := by
  have hmask : (3 : BitVec 32) = BitVec.ofNat 32 (2 ^ 2 - 1) := rfl
  have hsum : (n + 3).toNat = n.toNat + 3 := by grind
  have hround : roundToBlock n = ((n + 3) >>> 2) <<< 2 := by
    rw [roundToBlock, ← and_not_mask]
    rfl
  rw [hround, BitVec.toNat_shiftLeft, BitVec.toNat_ushiftRight, hsum, Nat.shiftLeft_eq,
    Nat.shiftRight_eq_div_pow]
  omega

/-- The rows of an image: for each row of each block that lies inside. -/
theorem mem_etc1Rows {decode : DecodeBlock} {data : Nat → UInt8} {stride : GLsizei}
    (hw : width.toNat < 2 ^ 31) (hh : height.toNat < 2 ^ 31) {row : Nat × List UInt8} :
    row ∈ etc1Rows decode data width height stride ↔
      ∃ y < height.toNat, ∃ bx < (width.toNat + 3) / 4,
        row = (3 * (4 * bx) % 2 ^ 32 + stride.toNat * y % 2 ^ 32,
          (List.range (3 * min (width.toNat - 4 * bx) 4)).map fun i =>
            decode (blockAt data width (y / 4) bx) (12 * (y % 4) + i)) := by
  simp only [etc1Rows, blockRows, List.mem_flatMap, List.mem_map, List.mem_range,
    roundToBlock_toNat hw, roundToBlock_toNat hh]
  constructor
  · rintro ⟨by_, hby, bx, hbx, cy, hcy, rfl⟩
    have hdiv : (4 * by_ + cy) / 4 = by_ := by omega
    have hmod : (4 * by_ + cy) % 4 = cy := by omega
    refine ⟨4 * by_ + cy, by omega, bx, hbx, ?_⟩
    rw [hdiv, hmod]
  · rintro ⟨y, hy, bx, hbx, rfl⟩
    have hsplit : 4 * (y / 4) + y % 4 = y := by omega
    refine ⟨y / 4, by omega, bx, hbx, y % 4, by omega, ?_⟩
    rw [hsplit]

/-- The place of a texel in rows of `stride` bytes. -/
theorem div_mod_row {stride y k : Nat} (hk : k < stride) :
    (stride * y + k) / stride = y ∧ (stride * y + k) % stride = k :=
  ⟨by rw [Nat.mul_add_div (by omega), Nat.div_eq_of_lt hk, Nat.add_zero],
    by rw [Nat.mul_add_mod, Nat.mod_eq_of_lt hk]⟩

theorem row_le (stride : Nat) {y height : Nat} (hy : y < height) :
    stride * y + stride ≤ stride * height :=
  Nat.mul_le_mul_left stride hy

theorem etc1_decode_image_spec (decode : DecodeBlock) (data : Nat → UInt8)
    {stride : GLsizei} (hw : width.toNat < 2 ^ 31) (hh : height.toNat < 2 ^ 31)
    (hfit : width.toNat * 3 ≤ stride.toNat) (hsize : stride.toNat * height.toNat < 2 ^ 31)
    {pOut : List UInt8} (hlength : pOut.length = stride.toNat * height.toNat) :
    ∃ pixels, etc1_decode_image decode (some data) pOut width height stride = .ok pixels ∧
      pixels.length = pOut.length ∧
      ∀ x < width.toNat, ∀ y < height.toNat, ∀ i < 3,
        pixels[stride.toNat * y + (x * 3 + i)]? = some (etc1Texel decode data width x y i) := by
  have hoffset : ∀ y < height.toNat, ∀ bx < (width.toNat + 3) / 4,
      3 * (4 * bx) % 2 ^ 32 + stride.toNat * y % 2 ^ 32 = stride.toNat * y + 12 * bx := by
    intro y hy bx hbx
    have := row_le stride.toNat hy
    omega
  have hinside : ∀ row ∈ etc1Rows decode data width height stride,
      row.1 + row.2.length ≤ pOut.length := by
    intro row hrow
    obtain ⟨y, hy, bx, hbx, rfl⟩ := (mem_etc1Rows hw hh).mp hrow
    have := row_le stride.toNat hy
    rw [hoffset y hy bx hbx, List.length_map, List.length_range, hlength]
    omega
  obtain ⟨pixels, hstore, hpixels⟩ := Buffer.storeAll?_isSome hinside
  refine ⟨pixels, ?_, hpixels, fun x hx y hy i hi => ?_⟩
  · rw [etc1_decode_image, storeRows, hstore]
  · let wanted (j : Nat) : UInt8 :=
      etc1Texel decode data width (j % stride.toNat / 3) (j / stride.toNat) (j % stride.toNat % 3)
    have hwanted : ∀ row ∈ etc1Rows decode data width height stride, ∀ k < row.2.length,
        row.2[k]? = some (wanted (row.1 + k)) := by
      intro row hrow k hk
      obtain ⟨y, hy, bx, hbx, rfl⟩ := (mem_etc1Rows hw hh).mp hrow
      rw [List.length_map, List.length_range] at hk
      have hin : 12 * bx + k < stride.toNat := by omega
      obtain ⟨hdiv, hmod⟩ := div_mod_row (y := y) hin
      rw [List.getElem?_map, List.getElem?_range hk, hoffset y hy bx hbx, Nat.add_assoc]
      show some _ = some (etc1Texel _ _ _ _ _ _)
      rw [hdiv, hmod, etc1Texel]
      have hblock : (12 * bx + k) / 3 / 4 = bx := by omega
      grind
    have hin : x * 3 + i < stride.toNat := by omega
    obtain ⟨hdiv, hmod⟩ := div_mod_row (y := y) hin
    have hread := Buffer.storeAll?_getElem? _ (i := stride.toNat * y + (x * 3 + i)) hstore hwanted
      (.inr ⟨_, (mem_etc1Rows hw hh).mpr ⟨y, hy, x / 4, by omega, rfl⟩, ?_, ?_⟩)
    · rw [hread]
      show some (etc1Texel _ _ _ _ _ _) = _
      have hx : (x * 3 + i) / 3 = x := by omega
      have hi : (x * 3 + i) % 3 = i := by omega
      rw [hdiv, hmod, hx, hi]
    · omega
    · show _ < 3 * (4 * (x / 4)) % 2 ^ 32 + stride.toNat * y % 2 ^ 32 + _
      rw [hoffset y hy (x / 4) (by omega), List.length_map, List.length_range]
      omega

theorem newBytes_ok (junk : Nat → UInt8) {size : GLsizei} (hsize : size.toNat < 2 ^ 31) :
    newBytes junk size = .ok ((List.range size.toNat).map junk) := by
  have hpos : ¬size.slt 0 = true := by grind [BitVec.slt_iff_toInt_lt]
  rw [newBytes, if_neg hpos]

theorem newBytes_bad (junk : Nat → UInt8) {size : GLsizei} (hsize : 2 ^ 31 ≤ size.toNat) :
    newBytes junk size = .error .badAlloc := by
  have hneg : size.slt 0 = true := by
    rw [BitVec.slt_iff_toInt_lt, BitVec.toInt_eq_toNat_cond, if_neg (by omega)]
    have := size.isLt
    change _ < (0 : Int)
    omega
  rw [newBytes, if_pos hneg]

theorem toNat_of_nonneg {n : GLsizei} (hn : 0 ≤ n.toInt) :
    n.toNat < 2 ^ 31 ∧ n.toInt.toNat = n.toNat := by
  have hlt : n.toNat < 2 ^ 31 := by
    by_contra hge
    rw [BitVec.toInt_eq_toNat_cond, if_neg (by omega)] at hn
    have := n.isLt
    omega
  grind

/-! ## Palettes -/

theorem paletteColor_length (pallete : Nat → UInt8) (index : Nat) (color : PaletteColor) :
    (paletteColor pallete index color).length = 4 := by
  cases color <;> rfl

theorem size_cases (format : TexFormat) : format.size = 3 ∨ format.size = 4 := by
  cases format
  · exact .inl rfl
  · exact .inr rfl

theorem maxIndices_le (frmt : PaletteFormat) (imageSize : GLsizei) (imageIndices : Nat)
    {nPixels : GLsizei} (hn : nPixels.toNat < 2 ^ 31) :
    maxIndices frmt imageSize imageIndices nPixels ≤ nPixels.toNat := by
  have hint := BitVec.toInt_eq_toNat_of_lt (x := nPixels) (by omega)
  grind [maxIndices, BitVec.slt_iff_toInt_lt]

theorem levelRow_length (frmt : PaletteFormat) (data : Nat → UInt8) (imageIndices n : Nat) :
    ((pixelColor frmt data imageIndices n).take frmt.colorFrmt.size).length =
      frmt.colorFrmt.size := by
  rw [List.length_take, pixelColor, paletteColor_length]
  obtain h | h := size_cases frmt.colorFrmt <;> omega

/-- The pixels of a level follow each other without padding. -/
theorem levelRows_spec (frmt : PaletteFormat) (data junk : Nat → UInt8) (imageSize : GLsizei)
    {l : PaletteLevel} {nPixels : Nat} (hn : (l.width * l.height).toNat = nPixels)
    (hlt : nPixels < 2 ^ 31) :
    ∃ pixels, storeRows ((List.range (nPixels * frmt.colorFrmt.size)).map junk)
        (levelRows frmt data imageSize l) = .ok pixels ∧
      pixels.length = nPixels * frmt.colorFrmt.size ∧
      ∀ n < nPixels, ∀ i < frmt.colorFrmt.size, pixels[n * frmt.colorFrmt.size + i]? =
        some (if n < maxIndices frmt imageSize l.imageIndices (l.width * l.height) then
          (pixelColor frmt data l.imageIndices n).getD i 0
        else junk (n * frmt.colorFrmt.size + i)) := by
  have hmax := maxIndices_le frmt imageSize l.imageIndices (hn ▸ hlt)
  rw [hn] at hmax
  have hpos : 0 < frmt.colorFrmt.size := by
    obtain h | h := size_cases frmt.colorFrmt <;> omega
  have hlength : ((List.range (nPixels * frmt.colorFrmt.size)).map junk).length =
      nPixels * frmt.colorFrmt.size := by
    rw [List.length_map, List.length_range]
  have hinside : ∀ row ∈ levelRows frmt data imageSize l, row.1 + row.2.length ≤
      ((List.range (nPixels * frmt.colorFrmt.size)).map junk).length := by
    intro row hrow
    obtain ⟨n, hrange, rfl⟩ := List.mem_map.mp hrow
    have hle : n + 1 ≤ nPixels := Nat.le_trans (List.mem_range.mp hrange) hmax
    have hmul := Nat.mul_le_mul_right frmt.colorFrmt.size hle
    rw [Nat.succ_mul] at hmul
    rw [levelRow_length, hlength]
    exact hmul
  obtain ⟨pixels, hstore, hpixels⟩ := Buffer.storeAll?_isSome hinside
  refine ⟨pixels, by rw [storeRows, hstore], hpixels.trans hlength, fun n hnlt i hi => ?_⟩
  let wanted (j : Nat) : UInt8 :=
    if j / frmt.colorFrmt.size <
        maxIndices frmt imageSize l.imageIndices (l.width * l.height) then
      (pixelColor frmt data l.imageIndices (j / frmt.colorFrmt.size)).getD
        (j % frmt.colorFrmt.size) 0
    else junk j
  have hplace (n : Nat) {i : Nat} (hi : i < frmt.colorFrmt.size) :
      wanted (n * frmt.colorFrmt.size + i) =
        if n < maxIndices frmt imageSize l.imageIndices (l.width * l.height) then
          (pixelColor frmt data l.imageIndices n).getD i 0
        else junk (n * frmt.colorFrmt.size + i) := by
    obtain ⟨hdiv, hmod⟩ := div_mod_row (y := n) hi
    rw [Nat.mul_comm] at hdiv hmod
    show (if _ / _ < _ then _ else _) = _
    rw [hdiv, hmod]
  have hwanted : ∀ row ∈ levelRows frmt data imageSize l, ∀ k < row.2.length,
      row.2[k]? = some (wanted (row.1 + k)) := by
    intro row hrow k hk
    obtain ⟨n, hrange, rfl⟩ := List.mem_map.mp hrow
    rw [levelRow_length] at hk
    have hcolor : k < (pixelColor frmt data l.imageIndices n).length := by
      rw [pixelColor, paletteColor_length]
      obtain h | h := size_cases frmt.colorFrmt <;> omega
    rw [hplace n hk, if_pos (List.mem_range.mp hrange), List.getElem?_take_of_lt hk,
      List.getD_eq_getElem?_getD, List.getElem?_eq_getElem hcolor]
    rfl
  have hread := Buffer.storeAll?_getElem? _ (i := n * frmt.colorFrmt.size + i) hstore hwanted ?_
  · rw [hread, hplace n hi]
  · by_cases hset : n < maxIndices frmt imageSize l.imageIndices (l.width * l.height)
    · right
      refine ⟨_, List.mem_map.mpr ⟨n, List.mem_range.mpr hset, rfl⟩, Nat.le_add_right _ _, ?_⟩
      rw [levelRow_length]
      exact Nat.add_lt_add_left hi _
    · left
      have hmul := Nat.mul_le_mul_right frmt.colorFrmt.size (Nat.succ_le_of_lt hnlt)
      rw [Nat.succ_mul] at hmul
      rw [hplace n hi, if_neg hset, List.getElem?_map, List.getElem?_range (by omega)]
      rfl

/-! ### Levels -/

theorem halve_toNat {n : GLsizei} (hn : n.toNat < 2 ^ 31) :
    (n.sshiftRight 1).toNat = n.toNat / 2 ∧ (n.sdiv 2).toNat = n.toNat / 2 := by
  have hmsb : n.msb = false := by grind
  constructor
  · rw [BitVec.sshiftRight_eq_of_msb_false hmsb, BitVec.toNat_ushiftRight,
      Nat.shiftRight_eq_div_pow, Nat.pow_one]
  · have htwo : (2 : BitVec 32).msb = false := by decide
    rw [BitVec.sdiv_eq, hmsb, htwo]
    exact BitVec.toNat_udiv

theorem jump_size (frmt : PaletteFormat) (level : Nat) {l : PaletteLevel}
    (hw : l.width.toNat < 2 ^ 31) (hh : l.height.toNat < 2 ^ 31) :
    (PaletteLevel.jump frmt level l).width.toNat = l.width.toNat / 2 ^ level ∧
      (PaletteLevel.jump frmt level l).height.toNat = l.height.toNat / 2 ^ level := by
  induction level generalizing l with
  | zero => simp [PaletteLevel.jump]
  | succ level ih =>
      have hwidth := (halve_toNat hw).1
      have hheight := (halve_toNat hh).1
      grind [PaletteLevel.jump, Nat.div_div_eq_div_mul]

/-- A level of a paletted image is made inside its memory. -/
theorem uncompressTexture_level (frmt : PaletteFormat) (data junk : Nat → UInt8)
    (imageSize : GLsizei) (hw : width.toNat < 2 ^ 31)
    (hh : height.toNat < 2 ^ 31) (level : Nat)
    (hbytes : width.toNat / 2 ^ level * (height.toNat / 2 ^ level) * frmt.colorFrmt.size <
      2 ^ 31) :
    ∃ pixels,
      uncompressTexture frmt junk width height imageSize (some data) level = .ok (some pixels) ∧
      pixels.length =
        width.toNat / 2 ^ level * (height.toNat / 2 ^ level) * frmt.colorFrmt.size ∧
      ∀ x < width.toNat / 2 ^ level, ∀ y < height.toNat / 2 ^ level, ∀ i < frmt.colorFrmt.size,
        pixels[(width.toNat / 2 ^ level * y + x) * frmt.colorFrmt.size + i]? =
          some (paletteTexel frmt data junk imageSize (PaletteLevel.jump frmt level
            ⟨2 ^ frmt.indexSizeBits * frmt.colorSizeBytes, width, height⟩) x y i) := by
  obtain ⟨hjw, hjh⟩ := jump_size frmt level
    (l := ⟨2 ^ frmt.indexSizeBits * frmt.colorSizeBytes, width, height⟩) hw hh
  unfold uncompressTexture
  dsimp only
  generalize PaletteLevel.jump frmt level
    ⟨2 ^ frmt.indexSizeBits * frmt.colorSizeBytes, width, height⟩ = l at hjw hjh ⊢
  dsimp only at hjw hjh
  have hpixels : width.toNat / 2 ^ level * (height.toNat / 2 ^ level) < 2 ^ 31 := by
    obtain h | h := size_cases frmt.colorFrmt <;> rw [h] at hbytes <;> omega
  have hn : (l.width * l.height).toNat =
      width.toNat / 2 ^ level * (height.toNat / 2 ^ level) := by
    rw [BitVec.toNat_mul, hjw, hjh]
    exact Nat.mod_eq_of_lt (by omega)
  have hmul : (l.width * l.height * BitVec.ofNat 32 frmt.colorFrmt.size).toNat =
      width.toNat / 2 ^ level * (height.toNat / 2 ^ level) * frmt.colorFrmt.size := by
    have hnat : (BitVec.ofNat 32 frmt.colorFrmt.size).toNat = frmt.colorFrmt.size := by
      obtain h | h := size_cases frmt.colorFrmt <;> rw [h] <;> rfl
    rw [BitVec.toNat_mul, hn, hnat]
    exact Nat.mod_eq_of_lt (by omega)
  obtain ⟨pixels, hstore, hlength, htexels⟩ :=
    levelRows_spec frmt data junk imageSize hn hpixels
  refine ⟨pixels, ?_, hlength, fun x hx y hy i hi => ?_⟩
  · refine Run.bind_eq_ok.mpr ⟨_, newBytes_ok junk (hmul ▸ hbytes),
      Run.bind_eq_ok.mpr ⟨pixels, ?_, rfl⟩⟩
    rw [hmul]
    exact hstore
  · have hrow := row_le (width.toNat / 2 ^ level) hy
    have hwidth : l.width.toInt.toNat = width.toNat / 2 ^ level := by grind
    grind [paletteTexel]

/-- The loop hands one image for each level. -/
theorem uploadLevels_spec {frmt : PaletteFormat} {junk : Nat → UInt8}
    {imageSize : GLsizei} {data : Option (Nat → UInt8)}
    {P : Nat → List UInt8 → Prop}
    (hlevels : ∀ level, ∃ pixels, uncompressTexture frmt junk width height imageSize data level =
      .ok (some pixels) ∧ P level pixels) (n i : Nat) {tmpWidth tmpHeight : GLsizei}
    (hw : tmpWidth.toNat < 2 ^ 31) (hh : tmpHeight.toNat < 2 ^ 31) :
    ∃ images, uploadLevels frmt junk width height imageSize data n i tmpWidth tmpHeight =
        .ok images ∧
      ∀ img ∈ images, ∃ k < n, ∃ pixels, img.level = (i + k : Nat) ∧ img.format = frmt.colorFrmt ∧
        img.width.toNat = tmpWidth.toNat / 2 ^ k ∧ img.height.toNat = tmpHeight.toNat / 2 ^ k ∧
        img.pixels = some pixels ∧ P (i + k) pixels := by
  induction n generalizing i tmpWidth tmpHeight with
  | zero => exact ⟨[], rfl, fun img himg => nomatch himg⟩
  | succ n ih =>
      obtain ⟨pixels, huncompress, hpixels⟩ := hlevels i
      have hwidth := (halve_toNat hw).2
      have hheight := (halve_toNat hh).2
      obtain ⟨images, hrest, himages⟩ :=
        ih (i + 1) (by rw [hwidth]; omega) (by rw [hheight]; omega)
      refine ⟨⟨i, tmpWidth, tmpHeight, frmt.colorFrmt, some pixels⟩ :: images, ?_,
        fun img himg => ?_⟩
      · exact Run.bind_eq_ok.mpr ⟨_, huncompress, Run.bind_eq_ok.mpr ⟨_, hrest, rfl⟩⟩
      · obtain rfl | himg := List.mem_cons.mp himg
        · exact ⟨0, Nat.succ_pos n, pixels, rfl, rfl, by simp, by simp, rfl, hpixels⟩
        · obtain ⟨k, hk, pixels', hlevel, hformat, hiw, hih, hsome, hP⟩ := himages img himg
          refine ⟨k + 1, Nat.succ_lt_succ hk, pixels', ?_, hformat, ?_, ?_, hsome, ?_⟩
          · rw [hlevel, Nat.add_assoc, Nat.add_comm 1]
          · rw [hiw, hwidth, Nat.div_div_eq_div_mul, Nat.pow_succ']
          · rw [hih, hheight, Nat.div_div_eq_div_mul, Nat.pow_succ']
          · rw [← Nat.add_assoc, Nat.add_right_comm]
            exact hP

/-! ## Uploads -/

def Upload.list : Upload → List TexImage
  | .error _ => []
  | .images l => l

namespace CompressedCall

def texel (c : CompressedCall) (decode : DecodeBlock) (data junk : Nat → UInt8) (level : Int) :
    Nat → Nat → Nat → UInt8 :=
  match PaletteFormat.ofGLenum? c.internalformat with
  | some frmt =>
      paletteTexel frmt data junk c.imageSize (PaletteLevel.jump frmt level.toNat
        ⟨2 ^ frmt.indexSizeBits * frmt.colorSizeBytes, c.width, c.height⟩)
  | none => etc1Texel decode data c.width

/-- The call goes through, and the driver reads the texels of the images that it is given. -/
def Delivers (c : CompressedCall) (s : PixelStore) (maxTexSize : Nat) (decode : DecodeBlock)
    (data junk : Nat → UInt8) : Prop :=
  ∃ r, doCompressedTexImage2D s maxTexSize decode junk c = .ok r ∧
    ∀ img ∈ r.list, ∃ pixels, img.pixels = some pixels ∧
      Matches s.driverUnpack.toNat (c.texel decode data junk img.level) img pixels

/-- An ETC1 image is refused or its size is no more than an `int` holds. -/
def Etc1Fits (c : CompressedCall) (alignment : Nat) : Prop :=
  c.imageSize.slt (etc1_get_encoded_data_size c.width c.height) = true ∨ c.height = 0 ∨
    (0 ≤ c.width.toInt ∧ 0 ≤ c.height.toInt ∧
      driverStride alignment .RGB c.width.toInt.toNat * c.height.toInt.toNat < 2 ^ 31)

/-- A paletted image is refused, or its size is no more than an `int` holds and no level with
several rows has rows that the driver expects to be padded. -/
def PaletteFits (c : CompressedCall) (maxTexSize alignment : Nat) (frmt : PaletteFormat) : Prop :=
  refusesPalette maxTexSize c.level c.width c.height c.border = true ∨
    (c.width.toInt.toNat * c.height.toInt.toNat * frmt.colorFrmt.size < 2 ^ 31 ∧
      ∀ i < (-c.level + 1).toInt.toNat,
        c.width.toInt.toNat / 2 ^ i * frmt.colorFrmt.size % alignment = 0 ∨
          c.width.toInt.toNat / 2 ^ i = 0 ∨ c.height.toInt.toNat / 2 ^ i ≤ 1)

variable {c : CompressedCall} {s : PixelStore}

/-- A stride that an `int` holds is computed without an overflow. -/
theorem rounds_of_stride {alignment : GLsizei} (ha : PixelStore.isAlignment alignment = true)
    {width : Nat} (hstride : driverStride alignment.toNat .RGB width < 2 ^ 31) :
    width * 3 + (alignment.toNat - 1) < 2 ^ 31 := by
  obtain ⟨k, hk, hnat, -⟩ := isAlignment_cases ha
  rw [driverStride, TexFormat.size] at hstride
  rw [hnat] at hstride ⊢
  interval_cases k <;> omega

theorem etc1_delivers (ha : PixelStore.isAlignment s.m_unpackAlignment = true)
    (hsame : s.m_unpackAlignment = s.driverUnpack) (hetc1 : c.internalformat = GL_ETC1_RGB8_OES)
    {data : Nat → UInt8} (hdata : c.data = some data)
    (hfits : c.Etc1Fits s.m_unpackAlignment.toNat) (maxTexSize : Nat) (decode : DecodeBlock)
    (junk : Nat → UInt8) : c.Delivers s maxTexSize decode data junk := by
  have htexel (level : Int) : c.texel decode data junk level = etc1Texel decode data c.width := by
    rw [texel, hetc1]
    rfl
  unfold Delivers doCompressedTexImage2D
  rw [if_pos hetc1]
  by_cases hrefused : c.imageSize.slt (etc1_get_encoded_data_size c.width c.height) = true
  · rw [if_pos hrefused]
    exact ⟨_, rfl, fun img himg => (nomatch (himg : img ∈ []))⟩
  rw [if_neg hrefused]
  by_cases hheight : c.height = 0
  · refine ⟨.images [⟨c.level.toInt, c.width, c.height, .RGB, some []⟩], ?_, fun img himg => ?_⟩
    · refine Run.bind_eq_ok.mpr ⟨[], ?_, Run.bind_eq_ok.mpr ⟨[], ?_, rfl⟩⟩
      · rw [hheight, mul_zero]
        rfl
      · rw [hheight, hdata]
        rfl
    · obtain rfl := List.mem_singleton.mp (himg : img ∈ [_])
      refine ⟨[], rfl, ?_, fun x _ y hy => ?_⟩
      · simp [driverLength, hheight]
      · grind
  · obtain ⟨hw, hh, hsize⟩ := (hfits.resolve_left hrefused).resolve_left hheight
    obtain ⟨hwlt, hwnat⟩ := toNat_of_nonneg hw
    obtain ⟨hhlt, hhnat⟩ := toNat_of_nonneg hh
    rw [hwnat, hhnat] at hsize
    have hpos : 0 < c.height.toNat :=
      Nat.pos_of_ne_zero fun h => hheight (BitVec.eq_of_toNat_eq h)
    have hapos : 0 < s.m_unpackAlignment.toNat := by
      obtain ⟨k, -, hnat, -⟩ := isAlignment_cases ha
      simp [hnat]
    have hstride := Nat.lt_of_le_of_lt (Nat.le_mul_of_pos_right _ hpos) hsize
    have hbpr := bytesPerRow_toNat ha (rounds_of_stride ha hstride)
    have hle := le_driverStride hapos .RGB c.width.toNat
    have hmul : (bytesPerRow s.m_unpackAlignment c.width * c.height).toNat =
        driverStride s.m_unpackAlignment.toNat .RGB c.width.toNat * c.height.toNat := by
      rw [BitVec.toNat_mul, hbpr]
      exact Nat.mod_eq_of_lt (by omega)
    rw [← hbpr] at hle hsize
    have hnew : ((List.range (bytesPerRow s.m_unpackAlignment c.width * c.height).toNat).map
        junk).length = (bytesPerRow s.m_unpackAlignment c.width).toNat * c.height.toNat := by grind
    obtain ⟨pixels, hdecode, hlength, htexels⟩ :=
      etc1_decode_image_spec decode data hwlt hhlt hle hsize hnew
    refine ⟨.images [⟨c.level.toInt, c.width, c.height, .RGB, some pixels⟩], ?_,
      fun img himg => ?_⟩
    · refine Run.bind_eq_ok.mpr ⟨_, newBytes_ok junk (by rw [hmul, ← hbpr]; exact hsize),
        Run.bind_eq_ok.mpr ⟨pixels, ?_, rfl⟩⟩
      rw [hdata]
      exact hdecode
    · obtain rfl := List.mem_singleton.mp (himg : img ∈ [_])
      refine ⟨pixels, rfl, ?_, ?_⟩
      · grind [driverLength_le]
      · show ∀ x < c.width.toInt.toNat, ∀ y < c.height.toInt.toNat, ∀ i < 3,
          pixels[driverStride _ .RGB c.width.toInt.toNat * y + (x * 3 + i)]? = some _
        rw [hwnat, hhnat, ← hsame, ← hbpr, htexel]
        exact htexels

theorem driverStride_tight {alignment width : Nat} {format : TexFormat}
    (h : width * format.size % alignment = 0) (ha : 0 < alignment) :
    driverStride alignment format width = width * format.size := by
  obtain ⟨q, hq⟩ := Nat.dvd_of_mod_eq_zero h
  rw [driverStride, hq, Nat.mul_add_div ha, Nat.div_eq_of_lt (by omega), Nat.add_zero,
    Nat.mul_comm]

theorem size_of_accepted {maxTexSize : Nat} {level border : GLsizei}
    (h : ¬refusesPalette maxTexSize level width height border = true) :
    0 ≤ width.toInt ∧ 0 ≤ height.toInt := by
  simp only [refusesPalette, texImgDim, Bool.or_eq_true, Bool.not_eq_true', not_or,
    Bool.and_eq_false_iff, Bool.not_eq_false', Bool.not_eq_true, decide_eq_true_eq] at h
  omega

theorem matches_tight {alignment : Nat} (ha : 0 < alignment) {img : TexImage} {pixels : List UInt8}
    {texel : Nat → Nat → Nat → UInt8} {width height : Nat} (hw : img.width.toInt.toNat = width)
    (hh : img.height.toInt.toNat = height)
    (htight : width * img.format.size % alignment = 0 ∨ width = 0 ∨ height ≤ 1)
    (hlength : pixels.length = width * height * img.format.size)
    (htexels : ∀ x < width, ∀ y < height, ∀ i < img.format.size,
      pixels[(width * y + x) * img.format.size + i]? = some (texel x y i)) :
    Matches alignment texel img pixels := by
  have hrows : ∀ y < height, 0 < width →
      driverStride alignment img.format width * y = width * img.format.size * y := by
    grind [driverStride_tight]
  constructor
  · rw [hw, hh, driverLength, hlength]
    split
    · exact Nat.zero_le _
    · rename_i hsize
      obtain ⟨h, rfl⟩ : ∃ h, height = h + 1 := ⟨height - 1, by omega⟩
      rw [Nat.add_sub_cancel, hrows h (Nat.lt_succ_self h) (by omega), ← Nat.mul_succ,
        Nat.mul_right_comm]
  · rw [hw, hh]
    intro x hx y hy i hi
    rw [hrows y hy (by omega), ← htexels x hx y hy i hi, Nat.add_mul, Nat.mul_right_comm,
      Nat.add_assoc]

theorem palette_delivers {frmt : PaletteFormat}
    (ha : PixelStore.isAlignment s.driverUnpack = true)
    (hfrmt : PaletteFormat.ofGLenum? c.internalformat = some frmt)
    {data : Nat → UInt8} (hdata : c.data = some data) {maxTexSize : Nat}
    (hfits : c.PaletteFits maxTexSize s.driverUnpack.toNat frmt) (decode : DecodeBlock)
    (junk : Nat → UInt8) : c.Delivers s maxTexSize decode data junk := by
  have hetc1 : c.internalformat ≠ GL_ETC1_RGB8_OES := by
    intro heq
    rw [heq] at hfrmt
    cases hfrmt
  have hapos : 0 < s.driverUnpack.toNat := by grind [isAlignment_cases]
  unfold Delivers doCompressedTexImage2D
  rw [if_neg hetc1, hfrmt]
  dsimp only
  by_cases hrefused : refusesPalette maxTexSize c.level c.width c.height c.border = true
  · rw [if_pos hrefused]
    exact ⟨_, rfl, fun img himg => (nomatch (himg : img ∈ []))⟩
  obtain ⟨hw, hh⟩ := size_of_accepted hrefused
  obtain ⟨hwlt, hwnat⟩ := toNat_of_nonneg hw
  obtain ⟨hhlt, hhnat⟩ := toNat_of_nonneg hh
  obtain ⟨hsize, htight⟩ := hfits.resolve_left hrefused
  rw [hwnat, hhnat] at hsize
  rw [hwnat, hhnat] at htight
  rw [if_neg hrefused, hdata]
  -- where the largest level fits, all do
  have hbytes (level : Nat) :
      c.width.toNat / 2 ^ level * (c.height.toNat / 2 ^ level) * frmt.colorFrmt.size < 2 ^ 31 :=
    Nat.lt_of_le_of_lt (Nat.mul_le_mul_right _
      (Nat.mul_le_mul (Nat.div_le_self _ _) (Nat.div_le_self _ _))) hsize
  obtain ⟨images, hupload, himages⟩ := uploadLevels_spec (fun level =>
    uncompressTexture_level frmt data junk c.imageSize hwlt hhlt level (hbytes level))
    (-c.level + 1).toInt.toNat 0 hwlt hhlt
  refine ⟨.images images, by rw [hupload]; rfl, fun img himg => ?_⟩
  obtain ⟨k, hk, pixels, hlevel, hformat, hiw, hih, hsome, hlength, htexels⟩ := himages img himg
  rw [Nat.zero_add] at hlevel hlength htexels
  have hsmall {n m : GLsizei} (hm : m.toNat < 2 ^ 31) (hn : n.toNat = m.toNat / 2 ^ k) :
      n.toInt.toNat = m.toNat / 2 ^ k := by
    have hlt : n.toNat < 2 ^ 31 := by
      rw [hn]
      exact Nat.lt_of_le_of_lt (Nat.div_le_self _ _) hm
    rw [BitVec.toInt_eq_toNat_of_lt (by omega), Int.toNat_natCast, hn]
  refine ⟨pixels, hsome, matches_tight hapos (hsmall hwlt hiw) (hsmall hhlt hih) ?_ ?_ ?_⟩
  · rw [hformat]
    exact htight k hk
  · rw [hformat]
    exact hlength
  · rw [hformat, texel, hfrmt, hlevel, Int.toNat_natCast]
    exact htexels

/-- Whether a temporary image of the call is what the driver expects, or there is none. -/
def Fits (c : CompressedCall) (maxTexSize alignment : Nat) : Prop :=
  (c.internalformat = GL_ETC1_RGB8_OES → c.Etc1Fits alignment) ∧
    ∀ frmt, PaletteFormat.ofGLenum? c.internalformat = some frmt →
      c.PaletteFits maxTexSize alignment frmt

end CompressedCall

/-! ## Runs -/

namespace PixelStore

variable {s : PixelStore}

/-- A call of `glPixelStorei` -/
def step (s : PixelStore) (call : GLenum × GLsizei) : PixelStore :=
  s.glPixelStorei call.1 call.2

/-- A pack alignment is only set to the value that the unpack alignment has. -/
def Careful (s : PixelStore) (call : GLenum × GLsizei) : Prop :=
  call.1 = GL_PACK_ALIGNMENT → isAlignment call.2 = true → call.2 = s.m_unpackAlignment

instance (s : PixelStore) (call : GLenum × GLsizei) : Decidable (s.Careful call) :=
  inferInstanceAs (Decidable (_ → _ → _))

/-- The translator knows the driver's alignment. -/
structure Tracks (s : PixelStore) : Prop where
  same : s.m_unpackAlignment = s.driverUnpack
  valid : isAlignment s.m_unpackAlignment = true

theorem Tracks.step (h : s.Tracks) {call : GLenum × GLsizei} (hcareful : s.Careful call) :
    (s.step call).Tracks := by
  obtain ⟨pname, param⟩ := call
  unfold PixelStore.step glPixelStorei
  split
  · exact ⟨h.same, h.valid⟩
  · rename_i hpname
    split
    · exact ⟨h.same, h.valid⟩
    · rename_i hparam
      have hvalid : isAlignment param = true := by simpa using hparam
      unfold driverPixelStorei
      split
      · rename_i hpack
        have hsame : param = s.m_unpackAlignment := hcareful hpack hvalid
        exact ⟨hsame.trans h.same, hvalid⟩
      · rename_i hpack
        have hunpack : pname = GL_UNPACK_ALIGNMENT := by
          simpa [pixelStoreParam, hpack] using hpname
        dsimp only
        rw [if_pos hunpack]
        exact ⟨rfl, hvalid⟩

/-- Where pack alignments leave the unpack alignment, the translator knows the driver's, and every
image that fits is handed over as the driver reads it. -/
theorem unpack_alignment (h : Run.Reach (Run.total step) Careful initial s) :
    s.m_unpackAlignment = s.driverUnpack ∧
      ∀ (c : CompressedCall) (data : Nat → UInt8) (maxTexSize : Nat) (decode : DecodeBlock)
        (junk : Nat → UInt8), c.data = some data → c.Fits maxTexSize s.driverUnpack.toNat →
          c.Delivers s maxTexSize decode data junk := by
  have htracks : s.Tracks :=
    h.invariant_total (I := Tracks) ⟨rfl, rfl⟩ fun _ _ hinv hcareful => hinv.step hcareful
  refine ⟨htracks.same, fun c data maxTexSize decode junk hdata hfits => ?_⟩
  by_cases hetc1 : c.internalformat = GL_ETC1_RGB8_OES
  · exact c.etc1_delivers htracks.valid htracks.same hetc1 hdata (htracks.same ▸ hfits.1 hetc1)
      maxTexSize decode junk
  · cases hfrmt : PaletteFormat.ofGLenum? c.internalformat with
    | some frmt =>
        exact c.palette_delivers (htracks.same ▸ htracks.valid) hfrmt hdata (hfits.2 frmt hfrmt)
          decode junk
    | none =>
        refine ⟨.error GL_INVALID_ENUM, ?_, fun img himg => nomatch himg⟩
        rw [doCompressedTexImage2D, if_neg hetc1, hfrmt]

/-- Four texels with `GL_PALETTE8_RGB8_OES`, all of the first color. -/
def fourTexels : CompressedCall where
  level := 0
  internalformat := 0x8B95
  width := 2
  height := 2
  border := 0
  imageSize := 772
  data := some fun _ => 7

theorem unpack_alignment_two :
    ∃ s, Run.Reach (Run.total step) Careful initial s ∧ s.driverUnpack = 2 ∧
      fourTexels.Delivers s 64 (fun _ _ => 0) (fun _ => 7) (fun _ => 0) := by
  have hcheck : Run.check (Run.total step) (fun s call => decide (s.Careful call))
      (fun s => decide (s.driverUnpack = 2)) initial
      [(GL_PACK_ALIGNMENT, 4), (GL_UNPACK_ALIGNMENT, 2), (GL_PACK_ALIGNMENT, 2), (GL_RGB, 1),
        (GL_PACK_ALIGNMENT, 3)] = true := by
    decide +kernel
  obtain ⟨s, hreach, hs⟩ := Run.exists_reach_of_check (fun _ _ h => of_decide_eq_true h) hcheck
  have htwo : s.driverUnpack = 2 := of_decide_eq_true hs
  refine ⟨s, hreach, htwo, (unpack_alignment hreach).2 fourTexels _ 64 _ _ rfl ⟨?_, ?_⟩⟩
  · intro hetc1
    exact absurd hetc1 (by decide)
  · intro frmt hfrmt
    obtain rfl := Option.some.inj (hfrmt.symm.trans
      (show PaletteFormat.ofGLenum? fourTexels.internalformat = some ⟨true, .RGB8⟩ from rfl))
    rw [htwo]
    exact .inr ⟨by decide, by decide⟩

/-- A pack alignment becomes the unpack alignment of the translator, and four texels without
padding are read past their end with the alignment that a context begins with. -/
theorem pack_alignment_unpacks :
    (∃ s, Run.Reach (Run.total step) (fun _ _ => True) initial s ∧
      s.m_unpackAlignment ≠ s.driverUnpack) ∧
    ¬fourTexels.Delivers initial 64 (fun _ _ => 0) (fun _ => 7) (fun _ => 0) := by
  refine ⟨⟨_, .step .refl trivial (a := (GL_PACK_ALIGNMENT, 1)) rfl, by decide⟩, ?_⟩
  rintro ⟨r, hr, himages⟩
  have hcall : doCompressedTexImage2D initial 64 (fun _ _ => 0) (fun _ => 0) fourTexels =
      .ok (.images [⟨0, 2, 2, .RGB, some (List.replicate 12 7)⟩]) := by
    decide +kernel
  rw [hcall] at hr
  cases hr
  obtain ⟨pixels, hpixels, hmatches⟩ := himages _ List.mem_cons_self
  cases hpixels
  exact absurd hmatches.length (by decide)

end PixelStore

end AndroidRenderer.Translator
