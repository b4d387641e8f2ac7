import AndroidRenderer.Translator.UnpackAlignment
import Mathlib.Tactic.Ring

/-!
# Bounds of ETC1 images

An ETC1 image is accepted if its encoded size, an `etc1_uint32`, is at most the size of the data.
The decoder goes over all blocks of the true size. What it reads and writes stays in bounds if
neither the encoded size nor the size of the memory for the texels wraps.
-/

namespace AndroidRenderer.Translator

/-! ## What is read -/

/-- The bytes that `etc1_decode_block` reads. -/
def blockReads (width : GLsizei) (by_ bx : Nat) : List Nat :=
  (List.range 8).map fun i => 8 * (by_ * ((roundToBlock width).toNat / 4) + bx) + i

/-- The bytes that `etc1_decode_image` reads. -/
def etc1Reads (width height : GLsizei) : List Nat :=
  (List.range ((roundToBlock height).toNat / 4)).flatMap fun by_ =>
    (List.range ((roundToBlock width).toNat / 4)).flatMap fun bx => blockReads width by_ bx

/-- The bytes of all blocks, as a whole number. -/
def encodedSize (width height : GLsizei) : Nat :=
  (roundToBlock width).toNat * (roundToBlock height).toNat / 2

theorem four_dvd_roundToBlock (n : GLsizei) : 4 ∣ (roundToBlock n).toNat := by
  have hround : roundToBlock n = ((n + 3) >>> 2) <<< 2 := by
    rw [roundToBlock, ← and_not_mask]
    rfl
  rw [hround, BitVec.toNat_shiftLeft, Nat.shiftLeft_eq]
  omega

theorem encodedSize_eq (width height : GLsizei) :
    encodedSize width height =
      8 * ((roundToBlock height).toNat / 4 * ((roundToBlock width).toNat / 4)) := by
  obtain ⟨w, hw⟩ := four_dvd_roundToBlock width
  obtain ⟨h, hh⟩ := four_dvd_roundToBlock height
  have hprod : 4 * w * (4 * h) = 2 * (8 * (h * w)) := by ring
  simp [encodedSize, hw, hh, hprod]

/-- The decoder reads each byte of the encoded image. -/
theorem mem_etc1Reads {width height : GLsizei} {a : Nat} :
    a ∈ etc1Reads width height ↔ a < encodedSize width height := by
  rw [encodedSize_eq]
  simp only [etc1Reads, blockReads, List.mem_flatMap, List.mem_map, List.mem_range]
  generalize (roundToBlock height).toNat / 4 = rows
  generalize (roundToBlock width).toNat / 4 = columns
  constructor
  · rintro ⟨by_, hby, bx, hbx, i, hi, rfl⟩
    have hrow : by_ * columns + columns ≤ rows * columns := by
      rw [← Nat.succ_mul]
      exact Nat.mul_le_mul_right columns hby
    omega
  · intro ha
    have hblock : a / 8 < rows * columns := by omega
    have hcolumns : 0 < columns := Nat.pos_of_mul_pos_left (Nat.zero_lt_of_lt hblock)
    refine ⟨a / 8 / columns, Nat.div_lt_of_lt_mul (by rwa [Nat.mul_comm]), a / 8 % columns,
      Nat.mod_lt _ hcolumns, a % 8, Nat.mod_lt _ (by decide), ?_⟩
    have hdiv := Nat.div_add_mod' (a / 8) columns
    omega

/-! ## Sizes -/

theorem roundToBlock_mod (n : GLsizei) :
    (roundToBlock n).toNat = (n.toNat + 3) % 2 ^ 32 / 4 * 4 := by
  have hround : roundToBlock n = ((n + 3) >>> 2) <<< 2 := by
    rw [roundToBlock, ← and_not_mask]
    rfl
  have hthree : (3 : BitVec 32).toNat = 3 := rfl
  rw [hround, BitVec.toNat_shiftLeft, BitVec.toNat_ushiftRight, BitVec.toNat_add, hthree,
    Nat.shiftLeft_eq, Nat.shiftRight_eq_div_pow]
  omega

/-- A row as an `int32_t` is a row up to multiples of 2^32. -/
theorem bytesPerRow_mod {alignment : GLsizei} (ha : PixelStore.isAlignment alignment = true)
    (width : GLsizei) :
    (bytesPerRow alignment width).toNat =
      driverStride alignment.toNat .RGB width.toNat % 2 ^ 32 := by
  obtain ⟨k, hk, hnat, hmask⟩ := isAlignment_cases ha
  have hsum : (width * 3 + BitVec.ofNat 32 (2 ^ k - 1)).toNat =
      (width.toNat * 3 + (2 ^ k - 1)) % 2 ^ 32 := by simp
  rw [bytesPerRow, hmask, and_not_mask, BitVec.toNat_shiftLeft, BitVec.toNat_ushiftRight, hsum,
    Nat.shiftLeft_eq, Nat.shiftRight_eq_div_pow, driverStride, hnat]
  change _ = (width.toNat * 3 + (2 ^ k - 1)) / 2 ^ k * 2 ^ k % 2 ^ 32
  generalize width.toNat * 3 + (2 ^ k - 1) = x
  interval_cases k <;> omega

/-- The memory for the texels. -/
theorem pixelBytes_mod {alignment : GLsizei} (ha : PixelStore.isAlignment alignment = true)
    (width height : GLsizei) :
    (bytesPerRow alignment width * height).toNat =
      driverStride alignment.toNat .RGB width.toNat * height.toNat % 2 ^ 32 := by
  rw [BitVec.toNat_mul, bytesPerRow_mod ha, Nat.mod_mul_mod]

theorem encoded_data_size_toInt (width height : GLsizei) :
    (etc1_get_encoded_data_size width height).toInt =
      ((roundToBlock width).toNat * (roundToBlock height).toNat % 2 ^ 32 / 2 : Nat) := by
  have hlt := Nat.mod_lt ((roundToBlock width).toNat * (roundToBlock height).toNat)
    (Nat.two_pow_pos 32)
  have hnat : (etc1_get_encoded_data_size width height).toNat =
      (roundToBlock width).toNat * (roundToBlock height).toNat % 2 ^ 32 / 2 := by
    rw [etc1_get_encoded_data_size, BitVec.toNat_ushiftRight, BitVec.toNat_mul,
      Nat.shiftRight_eq_div_pow, pow_one]
  grind

theorem size_lt_of_encoded {width height : GLsizei} (hw : (roundToBlock width).toNat ≠ 0)
    (hh : (roundToBlock height).toNat ≠ 0)
    (hencoded : (roundToBlock width).toNat * (roundToBlock height).toNat < 2 ^ 32) :
    width.toNat < 2 ^ 30 ∧ height.toNat < 2 ^ 30 ∧ 0 < width.toNat ∧ 0 < height.toNat := by
  obtain ⟨w, hwidth⟩ := four_dvd_roundToBlock width
  obtain ⟨h, hheight⟩ := four_dvd_roundToBlock height
  have hwmod := roundToBlock_mod width
  have hhmod := roundToBlock_mod height
  have hprod : 16 * (w * h) < 2 ^ 32 := by
    calc 16 * (w * h) = 4 * w * (4 * h) := by ring
      _ < 2 ^ 32 := by rwa [← hwidth, ← hheight]
  have hwle : w * 1 ≤ w * h := Nat.mul_le_mul_left w (by omega)
  have hhle : 1 * h ≤ w * h := Nat.mul_le_mul_right h (by omega)
  have := width.isLt
  have := height.isLt
  omega

/-! ## What is written -/

section Decode

variable (decode : DecodeBlock) (data : Nat → UInt8) {width height stride : GLsizei}
  {pOut : List UInt8}

theorem etc1_decode_image_empty
    (hblocks : (roundToBlock width).toNat = 0 ∨ (roundToBlock height).toNat = 0) :
    etc1_decode_image decode (some data) pOut width height stride = .ok pOut := by
  have hrows : etc1Rows decode data width height stride = [] := by
    rw [etc1Rows]
    obtain h | h := hblocks
    · simp [h]
    · simp [h]
  rw [etc1_decode_image, storeRows, hrows]
  rfl

/-- Where the rows go past the end of a 32-bit address, the last one before it is written behind
the memory. -/
theorem etc1_decode_image_wraps (hw : width.toNat < 2 ^ 30) (hpos : 0 < width.toNat)
    (hh : height.toNat < 2 ^ 30) (hstride : stride.toNat ≤ width.toNat * 3 + 7)
    (hwraps : 2 ^ 32 ≤ stride.toNat * height.toNat) (hlength : pOut.length < 2 ^ 31) :
    etc1_decode_image decode (some data) pOut width height stride = .error .outOfBounds := by
  have hzero : 0 < stride.toNat := Nat.pos_of_ne_zero fun h => by
    rw [h, Nat.zero_mul] at hwraps
    omega
  obtain ⟨y, hlast⟩ : ∃ y, stride.toNat * y < 2 ^ 32 ∧
      2 ^ 32 ≤ stride.toNat * y + stride.toNat := by
    have hdiv := Nat.div_add_mod (2 ^ 32 - 1) stride.toNat
    have hmod := Nat.mod_lt (2 ^ 32 - 1) hzero
    exact ⟨(2 ^ 32 - 1) / stride.toNat, by omega, by omega⟩
  have hy : y < height.toNat := by
    by_contra hge
    have := Nat.mul_le_mul_left stride.toNat (Nat.le_of_not_lt hge)
    omega
  let bx := (width.toNat - 1) / 4
  rw [etc1_decode_image, storeRows]
  cases hstore : Buffer.storeAll? pOut (etc1Rows decode data width height stride) with
  | none => rfl
  | some pixels =>
      -- The row ends behind 2^31.
      have hinside := Buffer.storeAll?_inside hstore _
        ((mem_etc1Rows (by omega) (by omega)).mpr ⟨y, hy, bx, by omega, rfl⟩)
      omega

end Decode

/-! ## Uploads -/

namespace CompressedCall

/-- What is read lies in the data, and what is written in the memory for the texels. -/
structure Etc1Safe (c : CompressedCall) (s : PixelStore) (maxTexSize : Nat) (decode : DecodeBlock)
    (junk : Nat → UInt8) : Prop where
  writes : doCompressedTexImage2D s maxTexSize decode junk c ≠ .error .outOfBounds
  reads : ∀ images, doCompressedTexImage2D s maxTexSize decode junk c = .ok (.images images) →
    ∀ a ∈ etc1Reads c.width c.height, (a : Int) < c.imageSize.toInt

/-- There are no blocks, or neither the encoded size nor the size of the rows wraps, or the latter
wraps to a size that is negative, for which there is no memory. -/
def Etc1Sized (c : CompressedCall) (alignment : Nat) : Prop :=
  (roundToBlock c.width).toNat = 0 ∨ (roundToBlock c.height).toNat = 0 ∨
    (roundToBlock c.width).toNat * (roundToBlock c.height).toNat < 2 ^ 32 ∧
      driverStride alignment .RGB c.width.toNat * c.height.toNat < 2 ^ 32 ∨
    2 ^ 31 ≤ driverStride alignment .RGB c.width.toNat * c.height.toNat % 2 ^ 32

variable {c : CompressedCall} {s : PixelStore} {data : Nat → UInt8} {decode : DecodeBlock}
  {junk : Nat → UInt8} {maxTexSize : Nat}

/-- An accepted ETC1 image is decoded if there is memory for it. -/
theorem etc1_eq (maxTexSize : Nat) (decode : DecodeBlock) (junk : Nat → UInt8)
    (hetc1 : c.internalformat = GL_ETC1_RGB8_OES) (hdata : c.data = some data)
    (haccepted : c.imageSize.slt (etc1_get_encoded_data_size c.width c.height) = false) :
    doCompressedTexImage2D s maxTexSize decode junk c = (do
      let bpr := bytesPerRow s.m_unpackAlignment c.width
      let pOut ← newBytes junk (bpr * c.height)
      let pOut ← etc1_decode_image decode (some data) pOut c.width c.height bpr
      return .images [⟨c.level.toInt, c.width, c.height, .RGB, some pOut⟩]) := by
  rw [doCompressedTexImage2D, if_pos hetc1, haccepted, hdata]
  rfl

theorem etc1_badAlloc (maxTexSize : Nat) (decode : DecodeBlock) (junk : Nat → UInt8)
    (ha : PixelStore.isAlignment s.m_unpackAlignment = true)
    (hetc1 : c.internalformat = GL_ETC1_RGB8_OES) (hdata : c.data = some data)
    (haccepted : c.imageSize.slt (etc1_get_encoded_data_size c.width c.height) = false)
    (hbad : 2 ^ 31 ≤
      driverStride s.m_unpackAlignment.toNat .RGB c.width.toNat * c.height.toNat % 2 ^ 32) :
    doCompressedTexImage2D s maxTexSize decode junk c = .error .badAlloc := by
  rw [etc1_eq maxTexSize decode junk hetc1 hdata haccepted]
  dsimp only
  rw [newBytes_bad junk (by rwa [pixelBytes_mod ha])]
  rfl

theorem etc1_decoded (maxTexSize : Nat) (decode : DecodeBlock) (junk : Nat → UInt8)
    (ha : PixelStore.isAlignment s.m_unpackAlignment = true)
    (hetc1 : c.internalformat = GL_ETC1_RGB8_OES) (hdata : c.data = some data)
    (haccepted : c.imageSize.slt (etc1_get_encoded_data_size c.width c.height) = false)
    (hbytes : driverStride s.m_unpackAlignment.toNat .RGB c.width.toNat * c.height.toNat % 2 ^ 32 <
      2 ^ 31) :
    ∃ pOut : List UInt8, pOut.length =
        driverStride s.m_unpackAlignment.toNat .RGB c.width.toNat * c.height.toNat % 2 ^ 32 ∧
      doCompressedTexImage2D s maxTexSize decode junk c =
        (etc1_decode_image decode (some data) pOut c.width c.height
          (bytesPerRow s.m_unpackAlignment c.width)).map fun pOut =>
            .images [⟨c.level.toInt, c.width, c.height, .RGB, some pOut⟩] := by
  rw [etc1_eq maxTexSize decode junk hetc1 hdata haccepted]
  dsimp only
  rw [newBytes_ok junk (by rwa [pixelBytes_mod ha])]
  refine ⟨_, ?_, rfl⟩
  rw [List.length_map, List.length_range, pixelBytes_mod ha]

/-- The decoder's fault is that of the image. -/
theorem etc1Safe_of_decode {pOut pixels : List UInt8} {bpr : GLsizei} {level : Int}
    (hcall : doCompressedTexImage2D s maxTexSize decode junk c =
      (etc1_decode_image decode (some data) pOut c.width c.height bpr).map fun pOut =>
        .images [⟨level, c.width, c.height, .RGB, some pOut⟩])
    (hdecode : etc1_decode_image decode (some data) pOut c.width c.height bpr = .ok pixels)
    (hreads : encodedSize c.width c.height ≤ c.imageSize.toInt) :
    c.Etc1Safe s maxTexSize decode junk := by
  rw [hdecode] at hcall
  refine ⟨?_, fun images _ a ha => ?_⟩
  · rw [hcall]
    exact nofun
  · have := mem_etc1Reads.mp ha
    omega

/-- Data that is accepted with a size that wraps is shorter than what is read. -/
theorem not_etc1Safe_of_encoded {pOut : List UInt8} {bpr : GLsizei} {level : Int}
    (hcall : doCompressedTexImage2D s maxTexSize decode junk c =
      (etc1_decode_image decode (some data) pOut c.width c.height bpr).map fun pOut =>
        .images [⟨level, c.width, c.height, .RGB, some pOut⟩])
    (hencoded : 2 ^ 32 ≤ (roundToBlock c.width).toNat * (roundToBlock c.height).toNat) :
    ¬ c.Etc1Safe s maxTexSize decode junk := by
  intro hsafe
  cases hdecode : etc1_decode_image decode (some data) pOut c.width c.height bpr with
  | error fault =>
      have hfault : fault = .outOfBounds := by
        rw [etc1_decode_image, storeRows] at hdecode
        grind
      rw [hdecode, hfault] at hcall
      exact hsafe.writes hcall
  | ok pixels =>
      rw [hdecode] at hcall
      have hlast : 2 ^ 31 ≤ encodedSize c.width c.height := by
        rw [encodedSize]
        omega
      have hread := hsafe.reads _ hcall (encodedSize c.width c.height - 1)
        (mem_etc1Reads.mpr (by omega))
      grind

/-- A row has its texels, and less than 8 bytes of padding. -/
theorem driverStride_bounds {alignment : GLsizei}
    (ha : PixelStore.isAlignment alignment = true) (width : Nat) :
    width * 3 ≤ driverStride alignment.toNat .RGB width ∧
      driverStride alignment.toNat .RGB width ≤ width * 3 + 7 := by
  obtain ⟨k, hk, hnat, -⟩ := isAlignment_cases ha
  have hpow : 2 ^ k ≤ 2 ^ 3 := Nat.pow_le_pow_right (by decide) (Nat.le_of_lt_succ hk)
  have hpos : 0 < alignment.toNat := by simp [hnat]
  refine ⟨le_driverStride hpos .RGB width, ?_⟩
  calc driverStride alignment.toNat .RGB width
      ≤ width * TexFormat.RGB.size + (alignment.toNat - 1) := Nat.div_mul_le_self _ _
    _ ≤ width * 3 + 7 := by
        rw [hnat]
        exact Nat.add_le_add_left (by omega) _

/-- `glPixelStorei` stores no other alignment. -/
theorem isAlignment_of_reach
    (h : Run.Reach (Run.total PixelStore.step) (fun _ _ => True) .initial s) :
    PixelStore.isAlignment s.m_unpackAlignment = true := by
  refine h.invariant_total (I := fun s => PixelStore.isAlignment s.m_unpackAlignment = true) rfl
    fun s call hinv _ => ?_
  change PixelStore.isAlignment (s.glPixelStorei call.1 call.2).m_unpackAlignment = true
  unfold PixelStore.glPixelStorei
  split
  · exact hinv
  · split
    · exact hinv
    · grind [PixelStore.driverPixelStorei]

/-- What an accepted image reads and writes is in bounds if and only if no size wraps, or there is
nothing to decode or no memory for it. -/
theorem etc1_bounds (h : Run.Reach (Run.total PixelStore.step) (fun _ _ => True) .initial s)
    (hetc1 : c.internalformat = GL_ETC1_RGB8_OES) (hdata : c.data = some data)
    (haccepted : c.imageSize.slt (etc1_get_encoded_data_size c.width c.height) = false) :
    c.Etc1Safe s maxTexSize decode junk ↔ c.Etc1Sized s.m_unpackAlignment.toNat := by
  have ha := isAlignment_of_reach h
  have hsize : ((roundToBlock c.width).toNat * (roundToBlock c.height).toNat % 2 ^ 32 / 2 : Nat) ≤
      c.imageSize.toInt := by
    rw [← encoded_data_size_toInt]
    by_contra hlt
    rw [BitVec.slt_iff_toInt_lt.mpr (by omega)] at haccepted
    cases haccepted
  by_cases hbad : 2 ^ 31 ≤
      driverStride s.m_unpackAlignment.toNat .RGB c.width.toNat * c.height.toNat % 2 ^ 32
  · have hcall := etc1_badAlloc maxTexSize decode junk ha hetc1 hdata haccepted hbad
    refine iff_of_true ⟨?_, fun images himages => ?_⟩ (.inr (.inr (.inr hbad)))
    · rw [hcall]
      simp
    · rw [hcall] at himages
      cases himages
  obtain ⟨pOut, hlength, hcall⟩ := etc1_decoded maxTexSize decode junk ha hetc1 hdata haccepted
    (by omega)
  by_cases hblocks : (roundToBlock c.width).toNat = 0 ∨ (roundToBlock c.height).toNat = 0
  · refine iff_of_true (etc1Safe_of_decode hcall (etc1_decode_image_empty decode data hblocks) ?_)
      (or_assoc.mp (.inl hblocks))
    have hzero : encodedSize c.width c.height = 0 := by
      rw [encodedSize]
      obtain h | h := hblocks <;> simp [h]
    omega
  obtain ⟨hwblocks, hhblocks⟩ := not_or.mp hblocks
  by_cases hencoded : (roundToBlock c.width).toNat * (roundToBlock c.height).toNat < 2 ^ 32
  · obtain ⟨hw, hh, hwpos, -⟩ := size_lt_of_encoded hwblocks hhblocks hencoded
    obtain ⟨hfit, hle⟩ := driverStride_bounds ha c.width.toNat
    have hrow : (bytesPerRow s.m_unpackAlignment c.width).toNat =
        driverStride s.m_unpackAlignment.toNat .RGB c.width.toNat := by
      rw [bytesPerRow_mod ha]
      omega
    by_cases hrows :
        driverStride s.m_unpackAlignment.toNat .RGB c.width.toNat * c.height.toNat < 2 ^ 32
    · rw [Nat.mod_eq_of_lt hrows] at hbad hlength
      rw [← hrow] at hfit hlength
      obtain ⟨pixels, hdecode, -⟩ := etc1_decode_image_spec decode data (by omega) (by omega) hfit
        (by rw [hrow]; omega) hlength
      refine iff_of_true (etc1Safe_of_decode hcall hdecode ?_)
        (.inr (.inr (.inl ⟨hencoded, hrows⟩)))
      rwa [Nat.mod_eq_of_lt hencoded] at hsize
    · refine iff_of_false (fun hsafe => ?_) ?_
      · rw [etc1_decode_image_wraps decode data hw hwpos hh (by omega) (by rw [hrow]; omega)
          (by omega)] at hcall
        exact hsafe.writes hcall
      · rintro (h | h | h | h)
        · exact hwblocks h
        · exact hhblocks h
        · exact hrows h.2
        · exact hbad h
  · refine iff_of_false (not_etc1Safe_of_encoded hcall (by omega)) ?_
    rintro (h | h | h | h)
    · exact hwblocks h
    · exact hhblocks h
    · exact hencoded h.1
    · exact hbad h

def etc1Image (width height imageSize : GLsizei) : CompressedCall where
  level := 0
  internalformat := GL_ETC1_RGB8_OES
  width := width
  height := height
  border := 0
  imageSize := imageSize
  data := some fun _ => 7

/-- Five texels take two blocks. -/
theorem etc1_bounds_five :
    (etc1Image 5 1 16).Etc1Safe .initial 64 (fun _ _ => 0) fun _ => 0 :=
  (etc1_bounds .refl rfl (show (etc1Image 5 1 16).data = some fun _ => 7 from rfl)
    (by decide)).mpr (.inr (.inr (.inl (by decide))))

/-- The blocks of 65536 rows of 65536 texels have 2^31 bytes, and no data is enough for them. -/
theorem etc1_size_wraps :
    (etc1Image 65536 65536 0).imageSize.slt (etc1_get_encoded_data_size 65536 65536) = false ∧
      ¬ (etc1Image 65536 65536 0).Etc1Safe .initial 64 (fun _ _ => 0) fun _ => 0 := by
  refine ⟨by decide, ?_⟩
  obtain ⟨pOut, -, hcall⟩ := etc1_decoded 64 (fun _ _ => 0) (fun _ => 0)
    (isAlignment_of_reach .refl) rfl
    (show (etc1Image 65536 65536 0).data = some fun _ => 7 from rfl) (by decide) (by decide)
  exact not_etc1Safe_of_encoded hcall (by decide)

end CompressedCall

end AndroidRenderer.Translator
