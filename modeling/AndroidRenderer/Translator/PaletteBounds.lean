import AndroidRenderer.Translator.PaletteColors

/-!
# Bounds of paletted images

`uncompressTexture` reads indices as long as there are pixels left, and the entries that they
select. The number of pixels that are left is that of the bytes behind the level's place: if that
lies behind the data, it wraps to a large number, and so does the memory for 2^30 texels of four
bytes.
-/

namespace AndroidRenderer.Translator

open Finset

/-! ## What is read -/

def pixelIndex (frmt : PaletteFormat) (data : Nat → UInt8) (imageIndices i : Nat) : Nat :=
  if frmt.wide then (data (imageIndices + i)).toNat
  else if i % 2 = 0 then (data (imageIndices + i / 2)).toNat / 16
  else (data (imageIndices + i / 2)).toNat % 16

def pixelReads (frmt : PaletteFormat) (data : Nat → UInt8) (imageIndices i : Nat) : List Nat :=
  (if frmt.wide then imageIndices + i else imageIndices + i / 2) ::
    (List.range frmt.colorSizeBytes).map fun k =>
      pixelIndex frmt data imageIndices i * frmt.colorSizeBytes + k

/-- The bytes that `uncompressTexture` reads for a level. -/
def levelReads (frmt : PaletteFormat) (data : Nat → UInt8) (imageSize : GLsizei)
    (l : PaletteLevel) : List Nat :=
  (List.range (maxIndices frmt imageSize l.imageIndices (l.width * l.height))).flatMap
    (pixelReads frmt data l.imageIndices)

/-- A pixel depends on nothing else. -/
theorem pixelColor_congr {frmt : PaletteFormat} {data data' : Nat → UInt8} {imageIndices i : Nat}
    (h : ∀ a ∈ pixelReads frmt data imageIndices i, data' a = data a) :
    pixelColor frmt data' imageIndices i = pixelColor frmt data imageIndices i := by
  obtain ⟨hplace, hentry⟩ := List.forall_mem_cons.mp h
  have hindex : pixelIndex frmt data' imageIndices i = pixelIndex frmt data imageIndices i := by
    unfold pixelIndex
    split at hplace <;> simp_all
  have hbyte : ∀ k < frmt.colorSizeBytes,
      data' (pixelIndex frmt data imageIndices i * frmt.colorSizeBytes + k) =
        data (pixelIndex frmt data imageIndices i * frmt.colorSizeBytes + k) := fun k hk =>
    hentry _ (List.mem_map_of_mem (List.mem_range.mpr hk))
  change paletteColor data' (pixelIndex frmt data' imageIndices i * frmt.colorSizeBytes) frmt.color =
    paletteColor data (pixelIndex frmt data imageIndices i * frmt.colorSizeBytes) frmt.color
  rw [hindex]
  have hfirst := hbyte 0 (by unfold PaletteFormat.colorSizeBytes; split <;> decide)
  have hsecond := hbyte 1 (by unfold PaletteFormat.colorSizeBytes; split <;> decide)
  generalize pixelIndex frmt data imageIndices i * frmt.colorSizeBytes = entry at *
  unfold PaletteFormat.colorSizeBytes at hbyte
  unfold paletteColor shortAt
  cases hcolor : frmt.color <;> simp_all

theorem levelRows_congr {frmt : PaletteFormat} {data data' : Nat → UInt8} {imageSize : GLsizei}
    {l : PaletteLevel} (h : ∀ a ∈ levelReads frmt data imageSize l, data' a = data a) :
    levelRows frmt data' imageSize l = levelRows frmt data imageSize l :=
  List.map_congr_left fun i hi => by
    rw [pixelColor_congr fun a ha => h a (List.mem_flatMap.mpr ⟨i, hi, ha⟩)]

theorem pixelIndex_lt (frmt : PaletteFormat) (data : Nat → UInt8) (imageIndices i : Nat) :
    pixelIndex frmt data imageIndices i < 2 ^ frmt.indexSizeBits := by
  have hbyte (a : Nat) := (data a).toNat_lt
  grind [pixelIndex, bits_cases]

theorem leftPixels_le (frmt : PaletteFormat) {imageSize : GLsizei} {imageIndices : Nat}
    (hin : (imageIndices : Int) ≤ imageSize.toInt) :
    (leftPixels frmt imageSize imageIndices * frmt.indexSizeBits : Nat) ≤
      8 * (imageSize.toInt - imageIndices) := by
  have hdiv := Nat.div_mul_le_self (8 * (imageSize.toInt - imageIndices) % 2 ^ 32).toNat
    frmt.indexSizeBits
  rw [leftPixels]
  omega

/-- Nothing is left if the bytes behind the place, or before it, are a multiple of 2^29. -/
theorem leftPixels_eq_zero_iff (frmt : PaletteFormat) (imageSize : GLsizei)
    (imageIndices : Nat) :
    leftPixels frmt imageSize imageIndices = 0 ↔
      (2 ^ 29 : Int) ∣ imageSize.toInt - imageIndices := by
  rw [leftPixels]
  obtain ⟨-, h⟩ | ⟨-, h⟩ := bits_cases frmt <;> rw [h] <;> omega

/-- What is read stays in the data if nothing is read, or the indices begin in the data or at its
end. -/
theorem levelReads_iff (frmt : PaletteFormat) (data : Nat → UInt8) (imageSize : GLsizei)
    (l : PaletteLevel) (hpalette : frmt.paletteSizeBytes ≤ l.imageIndices)
    (hn : (l.width * l.height).toNat < 2 ^ 31) :
    (∀ a ∈ levelReads frmt data imageSize l, (a : Int) < imageSize.toInt) ↔
      maxIndices frmt imageSize l.imageIndices (l.width * l.height) = 0 ∨
        (l.imageIndices : Int) ≤ imageSize.toInt := by
  constructor
  · intro h
    by_cases hnone : maxIndices frmt imageSize l.imageIndices (l.width * l.height) = 0
    · exact .inl hnone
    · right
      have hfirst := h l.imageIndices (List.mem_flatMap.mpr
        ⟨0, List.mem_range.mpr (Nat.pos_of_ne_zero hnone), by simp [pixelReads]⟩)
      omega
  · rintro (hnone | hin) a ha
    · simp [levelReads, hnone] at ha
    · obtain ⟨i, hi, ha⟩ := List.mem_flatMap.mp ha
      have hleft := leftPixels_le frmt hin
      have hi := List.mem_range.mp hi
      rw [maxIndices_eq frmt imageSize _ _ hn, lt_min_iff] at hi
      obtain rfl | ha := List.mem_cons.mp ha
      · grind [bits_cases]
      · obtain ⟨k, hk, rfl⟩ := List.mem_map.mp ha
        have hk := List.mem_range.mp hk
        have hentry := Nat.mul_le_mul_right frmt.colorSizeBytes
          (Nat.succ_le_of_lt (pixelIndex_lt frmt data l.imageIndices i))
        rw [Nat.succ_mul, ← PaletteFormat.paletteSizeBytes] at hentry
        omega

/-! ## Sizes that are accepted -/

theorem isPowerOf2_toNat {n : GLsizei} (h : isPowerOf2 n = true) :
    n.toNat = 0 ∨ ∃ k, n.toNat = 2 ^ k := by
  by_cases hzero : n.toNat = 0
  · exact .inl hzero
  · have hone : (n - 1).toNat = n.toNat - 1 := by
      have hlt := n.isLt
      have h1 : (1 : BitVec 32).toNat = 1 := rfl
      rw [BitVec.toNat_sub, h1]
      omega
    have hand : n.toNat &&& (n.toNat - 1) = 0 := by
      rw [← hone, ← BitVec.toNat_and, beq_iff_eq.mp h]
      rfl
    exact .inr ((Nat.and_sub_one_eq_zero_iff_isPowerOfTwo hzero).mp hand)

theorem pow_div_pow (k level : Nat) : 2 ^ k / 2 ^ level = 0 ∨ ∃ e, 2 ^ k / 2 ^ level = 2 ^ e := by
  by_cases h : level ≤ k
  · exact .inr ⟨k - level, Nat.pow_div h (by decide)⟩
  · exact .inl (Nat.div_eq_of_lt (Nat.pow_lt_pow_right (by decide) (by omega)))

theorem levelPixels_cases {width height : GLsizei} (hw : isPowerOf2 width = true)
    (hh : isPowerOf2 height = true) (level : Nat) :
    levelPixels width height level = 0 ∨ ∃ e, levelPixels width height level = 2 ^ e := by
  rw [levelPixels]
  obtain hw | ⟨a, hw⟩ := isPowerOf2_toNat hw
  · simp [hw]
  obtain hh | ⟨b, hh⟩ := isPowerOf2_toNat hh
  · simp [hh]
  rw [hw, hh]
  obtain ha | ⟨a', ha⟩ := pow_div_pow a level
  · simp [ha]
  obtain hb | ⟨b', hb⟩ := pow_div_pow b level
  · simp [hb]
  exact .inr ⟨a' + b', by rw [ha, hb, pow_add]⟩

theorem power_cases {e : Nat} (he : 2 ^ e < 2 ^ 31) :
    2 ^ e ≤ 2 ^ 28 ∨ 2 ^ e = 2 ^ 29 ∨ 2 ^ e = 2 ^ 30 := by
  have hlt : e < 31 := (Nat.pow_lt_pow_iff_right (by decide)).mp he
  by_cases hsmall : e ≤ 28
  · exact .inl (Nat.pow_le_pow_right (by decide) hsmall)
  · obtain rfl | rfl : e = 29 ∨ e = 30 := by omega
    · exact .inr (.inl rfl)
    · exact .inr (.inr rfl)

/-! ## One level -/

section Level

variable (frmt : PaletteFormat) (data : Nat → UInt8) (width height imageSize : GLsizei)
  (level : Nat)

/-- Where the indices of a level are read: each larger level takes a 32-bit number of bits. -/
def levelPlace : Nat :=
  frmt.paletteSizeBytes +
    ∑ j ∈ range level, levelPixels width height j * frmt.indexSizeBits % 2 ^ 32 / 8

/-- The level after the jump. -/
def levelAt : PaletteLevel :=
  PaletteLevel.jump frmt level ⟨frmt.paletteSizeBytes, width, height⟩

/-- There is memory for the texels: the `int` is not negative. -/
def HasMemory : Prop := levelPixels width height level * frmt.colorFrmt.size % 2 ^ 32 < 2 ^ 31

/-- The level has no pixels as an `int`, or no memory, or nothing is left for it as a 32-bit number;
or its place is in the data and the size of its texels does not wrap. -/
def LevelInBounds : Prop :=
  levelPixels width height level = 0 ∨ 2 ^ 31 ≤ levelPixels width height level ∨
    2 ^ 31 ≤ levelPixels width height level * frmt.colorFrmt.size ∧
      levelPixels width height level * frmt.colorFrmt.size < 2 ^ 32 ∨
    (2 ^ 29 : Int) ∣ imageSize.toInt - levelPlace frmt width height level ∨
    (levelPlace frmt width height level : Int) ≤ imageSize.toInt ∧
      levelPixels width height level * frmt.colorFrmt.size < 2 ^ 31

variable {frmt data width height imageSize level}

variable (frmt level) in
theorem levelAt_spec (hw : width.toNat < 2 ^ 31) (hh : height.toNat < 2 ^ 31) :
    (levelAt frmt width height level).imageIndices = levelPlace frmt width height level ∧
      ((levelAt frmt width height level).width * (levelAt frmt width height level).height).toNat =
        levelPixels width height level % 2 ^ 32 := by
  obtain ⟨hjw, hjh⟩ := jump_size frmt level (l := ⟨frmt.paletteSizeBytes, width, height⟩) hw hh
  refine ⟨jump_imageIndices frmt level _ hw hh, ?_⟩
  rw [levelAt, BitVec.toNat_mul, hjw, hjh, levelPixels]

theorem maxIndices_le_toInt (frmt : PaletteFormat) (imageSize : GLsizei) (imageIndices : Nat)
    (nPixels : GLsizei) : maxIndices frmt imageSize imageIndices nPixels ≤ nPixels.toInt.toNat := by
  rw [maxIndices]
  grind [BitVec.slt_iff_toInt_lt]

theorem texelBytes_toNat (hw : width.toNat < 2 ^ 31) (hh : height.toNat < 2 ^ 31) :
    ((levelAt frmt width height level).width * (levelAt frmt width height level).height *
        BitVec.ofNat 32 frmt.colorFrmt.size).toNat =
      levelPixels width height level * frmt.colorFrmt.size % 2 ^ 32 := by
  have hnat : (BitVec.ofNat 32 frmt.colorFrmt.size).toNat = frmt.colorFrmt.size := by
    obtain h | h := size_cases frmt.colorFrmt <;> rw [h] <;> rfl
  rw [BitVec.toNat_mul, (levelAt_spec frmt level hw hh).2, hnat, Nat.mod_mul_mod]

/-- The rows of a level lie in the memory if and only if its last byte does. -/
theorem storeRows_levelRows (frmt : PaletteFormat) (data : Nat → UInt8) (imageSize : GLsizei)
    (l : PaletteLevel) (pixels : List UInt8) :
    (∃ pixels', storeRows pixels (levelRows frmt data imageSize l) = .ok pixels') ↔
      maxIndices frmt imageSize l.imageIndices (l.width * l.height) * frmt.colorFrmt.size ≤
        pixels.length := by
  constructor
  · rintro ⟨pixels', hstore⟩
    rw [storeRows] at hstore
    split at hstore
    · rename_i hall
      cases hmax : maxIndices frmt imageSize l.imageIndices (l.width * l.height) with
      | zero => rw [Nat.zero_mul]; exact Nat.zero_le _
      | succ n =>
          have hlast := Buffer.storeAll?_inside hall _ (List.mem_map.mpr
            ⟨n, List.mem_range.mpr (hmax ▸ Nat.lt_succ_self n), rfl⟩)
          rw [levelRow_length] at hlast
          rwa [Nat.succ_mul]
    · cases hstore
  · intro hle
    have hinside : ∀ row ∈ levelRows frmt data imageSize l,
        row.1 + row.2.length ≤ pixels.length := by
      intro row hrow
      obtain ⟨n, hrange, rfl⟩ := List.mem_map.mp hrow
      have hmul := Nat.mul_le_mul_right frmt.colorFrmt.size
        (Nat.succ_le_of_lt (List.mem_range.mp hrange))
      grind
    obtain ⟨pixels', hstore, -⟩ := Buffer.storeAll?_isSome hinside
    exact ⟨pixels', by rw [storeRows, hstore]⟩

theorem uncompressTexture_some (junk : Nat → UInt8) :
    uncompressTexture frmt junk width height imageSize (some data) level = (do
      let pixelsOut ← newBytes junk ((levelAt frmt width height level).width *
        (levelAt frmt width height level).height * BitVec.ofNat 32 frmt.colorFrmt.size)
      let pixelsOut ← storeRows pixelsOut
        (levelRows frmt data imageSize (levelAt frmt width height level))
      return some pixelsOut) := rfl

theorem uncompressTexture_badAlloc (hw : width.toNat < 2 ^ 31) (hh : height.toNat < 2 ^ 31)
    (hmemory : ¬ HasMemory frmt width height level) (junk : Nat → UInt8) :
    uncompressTexture frmt junk width height imageSize (some data) level = .error .badAlloc := by
  rw [uncompressTexture_some,
    newBytes_bad junk (by rw [texelBytes_toNat hw hh]; exact Nat.le_of_not_lt hmemory)]
  rfl

variable (data imageSize) in
/-- With memory, a level is made if its last byte is in it, and else written past the end. -/
theorem uncompressTexture_memory (hw : width.toNat < 2 ^ 31) (hh : height.toNat < 2 ^ 31)
    (hmemory : HasMemory frmt width height level) (junk : Nat → UInt8) :
    (maxIndices frmt imageSize (levelPlace frmt width height level)
          ((levelAt frmt width height level).width * (levelAt frmt width height level).height) *
        frmt.colorFrmt.size ≤ levelPixels width height level * frmt.colorFrmt.size % 2 ^ 32 ∧
      ∃ pixels, uncompressTexture frmt junk width height imageSize (some data) level =
        .ok (some pixels)) ∨
    (levelPixels width height level * frmt.colorFrmt.size % 2 ^ 32 <
        maxIndices frmt imageSize (levelPlace frmt width height level)
          ((levelAt frmt width height level).width * (levelAt frmt width height level).height) *
        frmt.colorFrmt.size ∧
      uncompressTexture frmt junk width height imageSize (some data) level =
        .error .outOfBounds) := by
  have heq : uncompressTexture frmt junk width height imageSize (some data) level = (do
      let pixelsOut ← storeRows
        ((List.range (levelPixels width height level * frmt.colorFrmt.size % 2 ^ 32)).map junk)
        (levelRows frmt data imageSize (levelAt frmt width height level))
      return some pixelsOut) := by
    rw [uncompressTexture_some, newBytes_ok junk (by rw [texelBytes_toNat hw hh]; exact hmemory),
      texelBytes_toNat hw hh]
    rfl
  have hrows := storeRows_levelRows frmt data imageSize (levelAt frmt width height level)
    ((List.range (levelPixels width height level * frmt.colorFrmt.size % 2 ^ 32)).map junk)
  rw [(levelAt_spec frmt level hw hh).1, List.length_map, List.length_range] at hrows
  rw [heq]
  cases hstore : storeRows
      ((List.range (levelPixels width height level * frmt.colorFrmt.size % 2 ^ 32)).map junk)
      (levelRows frmt data imageSize (levelAt frmt width height level)) with
  | ok pixels => exact .inl ⟨hrows.mp ⟨pixels, hstore⟩, pixels, rfl⟩
  | error fault =>
      refine .inr ⟨?_, ?_⟩
      · by_contra hle
        obtain ⟨pixels, hok⟩ := hrows.mpr (Nat.le_of_not_lt hle)
        rw [hok] at hstore
        cases hstore
      · rw [storeRows] at hstore
        split at hstore
        · cases hstore
        · rw [← Except.error.inj hstore]
          rfl

variable (frmt data width height imageSize level) in
/-- A level is written inside its memory, and read inside the data if there is memory for it. -/
structure LevelSafe (junk : Nat → UInt8) : Prop where
  writes : uncompressTexture frmt junk width height imageSize (some data) level ≠
    .error .outOfBounds
  reads : HasMemory frmt width height level →
    ∀ a ∈ levelReads frmt data imageSize (levelAt frmt width height level),
      (a : Int) < imageSize.toInt

theorem LevelSafe.of_empty (hw : width.toNat < 2 ^ 31) (hh : height.toNat < 2 ^ 31)
    (hempty : maxIndices frmt imageSize (levelPlace frmt width height level)
      ((levelAt frmt width height level).width * (levelAt frmt width height level).height) = 0)
    (junk : Nat → UInt8) : LevelSafe frmt data width height imageSize level junk := by
  constructor
  · by_cases hmemory : HasMemory frmt width height level
    · obtain ⟨-, pixels, hok⟩ | ⟨hlt, -⟩ :=
          uncompressTexture_memory data imageSize hw hh hmemory junk
      · rw [hok]
        exact nofun
      · grind
    · rw [uncompressTexture_badAlloc hw hh hmemory]
      exact nofun
  · grind [levelReads, levelAt_spec]

theorem palette_le_levelPlace :
    frmt.paletteSizeBytes ≤ levelPlace frmt width height level :=
  Nat.le_add_right _ _

theorem maxIndices_of_wrapped {N : Nat} {nPixels : GLsizei} (hn : nPixels.toNat = N % 2 ^ 32)
    (hpow : N = 0 ∨ ∃ e, N = 2 ^ e) (hwrap : N = 0 ∨ 2 ^ 31 ≤ N) (imageIndices : Nat) :
    maxIndices frmt imageSize imageIndices nPixels = 0 := by
  have hle := maxIndices_le_toInt frmt imageSize imageIndices nPixels
  have hmod : nPixels.toNat = 0 ∨ 2 ^ 31 ≤ nPixels.toNat := by
    rw [hn]
    obtain rfl | ⟨e, rfl⟩ := hpow
    · exact .inl rfl
    · obtain h | h := hwrap
      · exact absurd h (Nat.pos_iff_ne_zero.mp (Nat.two_pow_pos e))
      · have he : 31 ≤ e := (Nat.pow_le_pow_iff_right (by decide)).mp h
        obtain rfl | he := Nat.eq_or_lt_of_le he
        · exact .inr (by decide)
        · exact .inl (Nat.mod_eq_zero_of_dvd (Nat.pow_dvd_pow 2 he))
  grind

/-- A level whose texels fit stays in bounds if and only if nothing is left for it, or its place is
in the data. -/
theorem levelSafe_of_small (hw : width.toNat < 2 ^ 31) (hh : height.toNat < 2 ^ 31)
    (hpos : 0 < levelPixels width height level)
    (hsmall : levelPixels width height level * frmt.colorFrmt.size < 2 ^ 31)
    (junk : Nat → UInt8) :
    LevelSafe frmt data width height imageSize level junk ↔
      (2 ^ 29 : Int) ∣ imageSize.toInt - levelPlace frmt width height level ∨
        (levelPlace frmt width height level : Int) ≤ imageSize.toInt := by
  obtain ⟨hplace, hpixels⟩ := levelAt_spec frmt level hw hh
  have hN : levelPixels width height level < 2 ^ 31 := by
    obtain h | h := size_cases frmt.colorFrmt <;> rw [h] at hsmall <;> omega
  rw [Nat.mod_eq_of_lt (by omega)] at hpixels
  have hmemory : HasMemory frmt width height level := by
    rw [HasMemory]
    omega
  have hmax := maxIndices_eq frmt imageSize (levelPlace frmt width height level)
    ((levelAt frmt width height level).width * (levelAt frmt width height level).height) (by omega)
  have hreads := levelReads_iff frmt data imageSize
    (levelAt frmt width height level) (by rw [hplace]; exact palette_le_levelPlace) (by omega)
  rw [hplace, hmax, hpixels, Nat.min_eq_zero_iff, or_iff_left (Nat.pos_iff_ne_zero.mp hpos),
    leftPixels_eq_zero_iff] at hreads
  rw [← hreads]
  refine ⟨fun h => h.reads hmemory, fun h => ⟨?_, fun _ => h⟩⟩
  obtain ⟨-, pixels, hok⟩ | ⟨hlt, -⟩ :=
          uncompressTexture_memory data imageSize hw hh hmemory junk
  · rw [hok]
    exact nofun
  · have hle := Nat.mul_le_mul_right frmt.colorFrmt.size
      (Nat.min_le_right (leftPixels frmt imageSize (levelPlace frmt width height level))
        (levelPixels width height level))
    rw [hmax, hpixels] at hlt
    omega

/-- A level of an accepted image stays in bounds if and only if it has nothing to make, or its place
is in the data and its size does not wrap. -/
theorem levelSafe_iff (frmt : PaletteFormat) (data : Nat → UInt8) (imageSize : GLsizei)
    (hw : width.toNat < 2 ^ 31) (hh : height.toNat < 2 ^ 31)
    (hpow : levelPixels width height level = 0 ∨ ∃ e, levelPixels width height level = 2 ^ e)
    (junk : Nat → UInt8) :
    LevelSafe frmt data width height imageSize level junk ↔
      LevelInBounds frmt width height imageSize level := by
  obtain ⟨hplace, hpixels⟩ := levelAt_spec frmt level hw hh
  by_cases hwrap : levelPixels width height level = 0 ∨ 2 ^ 31 ≤ levelPixels width height level
  · refine iff_of_true (LevelSafe.of_empty hw hh
      (maxIndices_of_wrapped hpixels hpow hwrap _) junk) ?_
    obtain h | h := hwrap
    · exact .inl h
    · exact .inr (.inl h)
  obtain ⟨hpos, hlt⟩ := not_or.mp hwrap
  have hcases : levelPixels width height level ≤ 2 ^ 28 ∨ levelPixels width height level = 2 ^ 29 ∨
      levelPixels width height level = 2 ^ 30 := by grind [power_cases]
  rw [LevelInBounds, or_iff_right hpos, or_iff_right hlt]
  by_cases hsmall : levelPixels width height level * frmt.colorFrmt.size < 2 ^ 31
  · have hbytes : ¬(2 ^ 31 ≤ levelPixels width height level * frmt.colorFrmt.size ∧
        levelPixels width height level * frmt.colorFrmt.size < 2 ^ 32) := fun h => by omega
    rw [levelSafe_of_small hw hh (by omega) hsmall, or_iff_right hbytes, and_iff_left hsmall]
  by_cases hmemory : HasMemory frmt width height level
  · -- 2^30 texels of four bytes: there is memory for none.
    have hnone : levelPixels width height level * frmt.colorFrmt.size % 2 ^ 32 = 0 := by
      rw [HasMemory] at hmemory
      obtain h | h := size_cases frmt.colorFrmt <;> rw [h] at hmemory hsmall ⊢ <;> omega
    have hbytes : ¬(2 ^ 31 ≤ levelPixels width height level * frmt.colorFrmt.size ∧
        levelPixels width height level * frmt.colorFrmt.size < 2 ^ 32) := fun h => by omega
    rw [or_iff_right hbytes, or_iff_left fun h => hsmall h.2]
    rw [Nat.mod_eq_of_lt (by omega)] at hpixels
    have hmax := maxIndices_eq frmt imageSize (levelPlace frmt width height level)
      ((levelAt frmt width height level).width * (levelAt frmt width height level).height)
      (by omega)
    have hzero : maxIndices frmt imageSize (levelPlace frmt width height level)
          ((levelAt frmt width height level).width * (levelAt frmt width height level).height) = 0 ↔
        (2 ^ 29 : Int) ∣ imageSize.toInt - levelPlace frmt width height level := by
      rw [hmax, hpixels, Nat.min_eq_zero_iff, or_iff_left hpos, leftPixels_eq_zero_iff]
    rw [← hzero]
    refine ⟨fun h => ?_, fun h => LevelSafe.of_empty hw hh h junk⟩
    obtain ⟨hle, -⟩ | ⟨-, herror⟩ :=
          uncompressTexture_memory data imageSize hw hh hmemory junk
    · rw [hnone] at hle
      have hsize : 0 < frmt.colorFrmt.size := by
        obtain h | h := size_cases frmt.colorFrmt <;> omega
      exact (Nat.mul_eq_zero.mp (Nat.le_zero.mp hle)).resolve_right (by omega)
    · exact absurd herror h.writes
  · refine iff_of_true ⟨?_, fun h => absurd h hmemory⟩ (.inl ?_)
    · rw [uncompressTexture_badAlloc hw hh hmemory]
      exact nofun
    · rw [HasMemory] at hmemory
      obtain h | h := size_cases frmt.colorFrmt <;> rw [h] at hmemory hsmall ⊢ <;> omega

end Level

/-! ## Uploads -/

section Upload

variable (frmt : PaletteFormat) (junk : Nat → UInt8) (width height imageSize : GLsizei)
  (data : Option (Nat → UInt8))

/-- A turn of the loop writes past the end itself, or makes its level and leaves it to the rest. -/
theorem uploadLevels_succ_overruns (n i : Nat) (tmpWidth tmpHeight : GLsizei) :
    uploadLevels frmt junk width height imageSize data (n + 1) i tmpWidth tmpHeight =
        .error .outOfBounds ↔
      uncompressTexture frmt junk width height imageSize data i = .error .outOfBounds ∨
        (∃ pixels, uncompressTexture frmt junk width height imageSize data i = .ok pixels) ∧
          uploadLevels frmt junk width height imageSize data n (i + 1) (tmpWidth.sdiv 2)
            (tmpHeight.sdiv 2) = .error .outOfBounds := by
  rw [uploadLevels]
  cases uncompressTexture frmt junk width height imageSize data i with
  | error fault =>
      have hbind (f : Option (List UInt8) → Except TexFault (List TexImage)) :
          (Except.error fault >>= f) = .error fault := rfl
      rw [hbind]
      simp
  | ok pixels =>
      cases uploadLevels frmt junk width height imageSize data n (i + 1) (tmpWidth.sdiv 2)
        (tmpHeight.sdiv 2) with
      | error fault =>
          change Except.error fault = _ ↔ _
          simp
      | ok images =>
          change Except.ok _ = _ ↔ _
          simp

/-- The loop writes past the end in a level that does, if the levels before it are made. -/
theorem uploadLevels_overruns (n i : Nat) (tmpWidth tmpHeight : GLsizei) :
    uploadLevels frmt junk width height imageSize data n i tmpWidth tmpHeight =
        .error .outOfBounds ↔
      ∃ k < n, (∀ j < k, ∃ pixels,
          uncompressTexture frmt junk width height imageSize data (i + j) = .ok pixels) ∧
        uncompressTexture frmt junk width height imageSize data (i + k) =
          .error .outOfBounds := by
  induction n generalizing i tmpWidth tmpHeight with
  | zero =>
      refine iff_of_false nofun ?_
      simp
  | succ n ih =>
      have hshift (j : Nat) : i + (j + 1) = i + 1 + j := by omega
      rw [uploadLevels_succ_overruns, ih]
      constructor
      · rintro (hfault | ⟨hfirst, k, hk, hmade, hfault⟩)
        · exact ⟨0, Nat.succ_pos n, nofun, hfault⟩
        · refine ⟨k + 1, Nat.succ_lt_succ hk, fun j hj => ?_, by rwa [hshift]⟩
          cases j with
          | zero => exact hfirst
          | succ j => grind
      · rintro ⟨k, hk, hmade, hfault⟩
        cases k with
        | zero => exact .inl hfault
        | succ k =>
            refine .inr ⟨hmade 0 (Nat.succ_pos k), k, Nat.lt_of_succ_lt_succ hk, fun j hj => ?_, ?_⟩
            · grind
            · rwa [← hshift]

end Upload

theorem power_of_accepted {maxTexSize : Nat} {level width height border : GLsizei}
    (h : ¬refusesPalette maxTexSize level width height border = true) :
    isPowerOf2 width = true ∧ isPowerOf2 height = true := by
  simp only [refusesPalette, texImgDim, Bool.or_eq_true, Bool.not_eq_true', not_or,
    Bool.and_eq_false_iff, Bool.not_eq_false', Bool.not_eq_true, decide_eq_true_eq] at h
  grind

namespace CompressedCall

/-- The number of levels that a call makes, `nMipmaps`. -/
def levels (c : CompressedCall) : Nat := (-c.level + 1).toInt.toNat

/-- Nothing is written past the end of an image, and what is read for a level that there is memory
for, when the levels before it are made, lies in the data. -/
structure PaletteSafe (c : CompressedCall) (s : PixelStore) (maxTexSize : Nat)
    (decode : DecodeBlock) (junk : Nat → UInt8) (frmt : PaletteFormat) (data : Nat → UInt8) :
    Prop where
  writes : doCompressedTexImage2D s maxTexSize decode junk c ≠ .error .outOfBounds
  reads : ∀ i < c.levels, (∀ j < i, ∃ pixels,
      uncompressTexture frmt junk c.width c.height c.imageSize (some data) j = .ok pixels) →
    HasMemory frmt c.width c.height i →
      ∀ a ∈ levelReads frmt data c.imageSize (levelAt frmt c.width c.height i),
        (a : Int) < c.imageSize.toInt

/-- Each level that is reached stays in bounds. -/
def PaletteInBounds (c : CompressedCall) (frmt : PaletteFormat) : Prop :=
  ∀ i < c.levels, (∀ j < i, HasMemory frmt c.width c.height j) →
    LevelInBounds frmt c.width c.height c.imageSize i

variable {c : CompressedCall} {s : PixelStore} {maxTexSize : Nat} {frmt : PaletteFormat}
  {data : Nat → UInt8}

theorem palette_eq (hfrmt : PaletteFormat.ofGLenum? c.internalformat = some frmt)
    (hdata : c.data = some data)
    (hpassed : ¬refusesPalette maxTexSize c.level c.width c.height c.border = true)
    (decode : DecodeBlock) (junk : Nat → UInt8) :
    doCompressedTexImage2D s maxTexSize decode junk c =
      (uploadLevels frmt junk c.width c.height c.imageSize (some data) c.levels 0
        c.width c.height).map .images := by
  have hetc1 : c.internalformat ≠ GL_ETC1_RGB8_OES := by
    intro heq
    rw [heq] at hfrmt
    cases hfrmt
  grind [doCompressedTexImage2D, levels]

/-- The whole upload writes in bounds if and only if each level that is reached does. -/
theorem palette_writes (hfrmt : PaletteFormat.ofGLenum? c.internalformat = some frmt)
    (hdata : c.data = some data)
    (hpassed : ¬refusesPalette maxTexSize c.level c.width c.height c.border = true)
    (decode : DecodeBlock) (junk : Nat → UInt8) :
    doCompressedTexImage2D s maxTexSize decode junk c ≠ .error .outOfBounds ↔
      ∀ i < c.levels, (∀ j < i, ∃ pixels,
          uncompressTexture frmt junk c.width c.height c.imageSize (some data) j = .ok pixels) →
        uncompressTexture frmt junk c.width c.height c.imageSize (some data) i ≠
          .error .outOfBounds := by
  have hmap : doCompressedTexImage2D s maxTexSize decode junk c = .error .outOfBounds ↔
      uploadLevels frmt junk c.width c.height c.imageSize (some data) c.levels 0 c.width c.height =
        .error .outOfBounds := by
    rw [palette_eq hfrmt hdata hpassed]
    cases uploadLevels frmt junk c.width c.height c.imageSize (some data) c.levels 0 c.width
      c.height with
    | error fault => simp [Except.map]
    | ok images => exact iff_of_false nofun nofun
  rw [Ne, hmap, uploadLevels_overruns]
  simp only [Nat.zero_add, not_exists, not_and]

/-- A paletted image that is passed on is read and written in bounds if and only if each level that
is reached is. -/
theorem palette_bounds (hfrmt : PaletteFormat.ofGLenum? c.internalformat = some frmt)
    (hdata : c.data = some data)
    (hpassed : ¬refusesPalette maxTexSize c.level c.width c.height c.border = true)
    (decode : DecodeBlock) (junk : Nat → UInt8) :
    c.PaletteSafe s maxTexSize decode junk frmt data ↔ c.PaletteInBounds frmt := by
  obtain ⟨hw, hh⟩ := size_of_accepted hpassed
  replace hw := (toNat_of_nonneg hw).1
  replace hh := (toNat_of_nonneg hh).1
  obtain ⟨hwpow, hhpow⟩ := power_of_accepted hpassed
  have hlevel (i : Nat) :=
    levelSafe_iff frmt data c.imageSize hw hh (levelPixels_cases hwpow hhpow i) junk
  have hmade (i : Nat) (hmemory : HasMemory frmt c.width c.height i)
      (hsafe : LevelSafe frmt data c.width c.height c.imageSize i junk) : ∃ pixels,
        uncompressTexture frmt junk c.width c.height c.imageSize (some data) i = .ok pixels := by
    obtain ⟨-, pixels, hok⟩ | ⟨-, hfault⟩ :=
          uncompressTexture_memory data c.imageSize hw hh hmemory junk
    · exact ⟨_, hok⟩
    · exact absurd hfault hsafe.writes
  have hmemory (i : Nat) (hok : ∃ pixels,
      uncompressTexture frmt junk c.width c.height c.imageSize (some data) i = .ok pixels) :
      HasMemory frmt c.width c.height i := by
    by_contra hnone
    obtain ⟨pixels, hok⟩ := hok
    rw [uncompressTexture_badAlloc hw hh hnone] at hok
    cases hok
  constructor
  · intro hsafe i
    induction i using Nat.strong_induction_on with
    | _ i ih =>
        intro hi hreached
        have hbefore : ∀ j < i, ∃ pixels,
            uncompressTexture frmt junk c.width c.height c.imageSize (some data) j =
              .ok pixels := fun j hj =>
          hmade j (hreached j hj) ((hlevel j).mpr (ih j hj (Nat.lt_trans hj hi) fun m hm =>
            hreached m (Nat.lt_trans hm hj)))
        exact (hlevel i).mp ⟨(palette_writes hfrmt hdata hpassed decode junk).mp hsafe.writes i hi
          hbefore, hsafe.reads i hi hbefore⟩
  · intro hbounds
    have hsafe (i : Nat) (hi : i < c.levels) (hbefore : ∀ j < i, ∃ pixels,
        uncompressTexture frmt junk c.width c.height c.imageSize (some data) j = .ok pixels) :
        LevelSafe frmt data c.width c.height c.imageSize i junk :=
      (hlevel i).mpr (hbounds i hi fun j hj => hmemory j (hbefore j hj))
    exact ⟨(palette_writes hfrmt hdata hpassed decode junk).mpr fun i hi hbefore =>
      (hsafe i hi hbefore).writes, fun i hi hbefore => (hsafe i hi hbefore).reads⟩

/-- A 2x2 image with `GL_PALETTE4_RGB8_OES`. -/
def palette4 (level imageSize : GLsizei) : CompressedCall where
  level := level
  internalformat := 0x8B90
  width := 2
  height := 2
  border := 0
  imageSize := imageSize
  data := some fun _ => 0

/-- Two levels of two bytes and of one, behind a palette of 48. -/
theorem palette_bounds_two :
    (palette4 (-1) 51).PaletteSafe .initial 64 (fun _ _ => 0) (fun _ => 0) ⟨false, .RGB8⟩
      fun _ => 0 := by
  refine (palette_bounds rfl rfl (by decide) _ _).mpr fun i hi _ => ?_
  have hlevels : (palette4 (-1) 51).levels = 2 := by decide
  rw [hlevels] at hi
  interval_cases i
  · exact .inr (.inr (.inr (.inr (by decide))))
  · exact .inr (.inr (.inr (.inr (by decide))))

/-- With no data at all, the indices behind the palette are read. -/
theorem palette_overread :
    refusesPalette 64 0 2 2 0 = false ∧
      ¬ (palette4 0 0).PaletteSafe .initial 64 (fun _ _ => 0) (fun _ => 0) ⟨false, .RGB8⟩
        fun _ => 0 := by
  refine ⟨by decide, fun h => ?_⟩
  have hread := h.reads 0 (by decide) nofun (by unfold HasMemory; decide) 48 (by decide)
  exact absurd hread (by decide)

end CompressedCall

end AndroidRenderer.Translator
