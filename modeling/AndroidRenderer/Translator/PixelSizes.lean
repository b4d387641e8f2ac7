import AndroidRenderer.OpenglCodecCommon.PixelData
import AndroidRenderer.Translator.Textures
import AndroidRenderer.Translator.UnpackAlignment

/-!
# Sizes of images on the host

`glTexImage2D` of the translator takes more pairs of a format and a type than the guest has pixel
sizes for: the guest counts one component of `GL_FLOAT` pixels, and none of `GL_HALF_FLOAT_OES`
ones. The driver reads whole rows, as many bytes as 32 bits may not hold.
-/

namespace AndroidRenderer.Translator

/-! ## Validation -/

/-- What `GLSupport` says of formats and types. -/
structure PixelCaps where
  GL_EXT_TEXTURE_FORMAT_BGRA8888 : Bool
  GL_EXT_PACKED_DEPTH_STENCIL : Bool
  GL_ARB_HALF_FLOAT_PIXEL : Bool
  GL_NV_HALF_FLOAT : Bool
  deriving DecidableEq, Repr

/-- `GLESvalidate::pixelType` -/
def basePixelType (caps : PixelCaps) (type : GLenum) : Bool :=
  caps.GL_EXT_PACKED_DEPTH_STENCIL && type = GL_UNSIGNED_INT_24_8_OES ||
    (caps.GL_ARB_HALF_FLOAT_PIXEL || caps.GL_NV_HALF_FLOAT) && type = GL_HALF_FLOAT_OES ||
    type ∈ [GL_UNSIGNED_BYTE, GL_UNSIGNED_SHORT_5_6_5, GL_UNSIGNED_SHORT_4_4_4_4,
      GL_UNSIGNED_SHORT_5_5_5_1, GL_FLOAT]

/-- `GLESvalidate::pixelFrmt` -/
def basePixelFrmt (caps : PixelCaps) (format : GLenum) : Bool :=
  caps.GL_EXT_TEXTURE_FORMAT_BGRA8888 && format = GL_BGRA_EXT ||
    caps.GL_EXT_PACKED_DEPTH_STENCIL && format = GL_DEPTH_STENCIL_OES ||
    format ∈ [GL_ALPHA, GL_RGB, GL_RGBA, GL_LUMINANCE, GL_LUMINANCE_ALPHA]

def pixelOp (format type : GLenum) : Bool :=
  if type ∈ [GL_UNSIGNED_SHORT_4_4_4_4, GL_UNSIGNED_SHORT_5_5_5_1] then format = GL_RGBA
  else if type = GL_UNSIGNED_SHORT_5_6_5 then format = GL_RGB
  else true

/-- `pixelType`, of `GLESv2Validate` as well -/
def pixelType (version : GLESVersion) (caps : PixelCaps) (type : GLenum) : Bool :=
  version = .GLES_V2 && (type = GL_UNSIGNED_SHORT || type = GL_UNSIGNED_INT) ||
    basePixelType caps type

/-- `pixelFrmt`, of `GLESv2Validate` as well -/
def pixelFrmt (version : GLESVersion) (caps : PixelCaps) (format : GLenum) : Bool :=
  version = .GLES_V2 && format = GL_DEPTH_COMPONENT || basePixelFrmt caps format

/-- The error that the checks of `glTexImage2D` set. -/
def texImage2DError (version : GLESVersion) (caps : PixelCaps) (target internalformat : GLenum)
    (border : GLsizei) (format type : GLenum) : GLenum :=
  if !(textureTargetEx target && pixelFrmt version caps internalformat &&
      pixelFrmt version caps format && pixelType version caps type) then GL_INVALID_ENUM
  else if version = .GLES_V2 ∧ (format = GL_DEPTH_COMPONENT ∨ internalformat = GL_DEPTH_COMPONENT) ∧
      (type ≠ GL_UNSIGNED_SHORT ∧ type ≠ GL_UNSIGNED_INT) then GL_INVALID_OPERATION
  else if version = .GLES_V2 ∧ (type = GL_UNSIGNED_SHORT ∨ type = GL_UNSIGNED_INT) ∧
      (format ≠ GL_DEPTH_COMPONENT ∨ internalformat ≠ GL_DEPTH_COMPONENT) then GL_INVALID_OPERATION
  else if !(pixelOp format type && internalformat = format) then GL_INVALID_OPERATION
  else if version = .GLES_V2 ∧ border ≠ 0 then GL_INVALID_VALUE
  else GL_NO_ERROR

/-! ## The driver -/

def pixelComponents (format : GLenum) : Nat :=
  if format ∈ [GL_ALPHA, GL_LUMINANCE, GL_DEPTH_COMPONENT] then 1
  else if format ∈ [GL_LUMINANCE_ALPHA, GL_DEPTH_STENCIL_OES] then 2
  else if format = GL_RGB then 3
  else 4

def componentBytes (type : GLenum) : Nat :=
  if type = GL_UNSIGNED_BYTE then 1
  else if type ∈ [GL_UNSIGNED_SHORT, GL_HALF_FLOAT_OES] then 2
  else 4

def bytesPerPixel (format type : GLenum) : Nat :=
  if type ∈ [GL_UNSIGNED_SHORT_5_6_5, GL_UNSIGNED_SHORT_4_4_4_4, GL_UNSIGNED_SHORT_5_5_5_1] then 2
  else if type = GL_UNSIGNED_INT_24_8_OES then 4
  else pixelComponents format * componentBytes type

def imageBytes (alignment : Nat) (format type : GLenum) (width height : Nat) : Nat :=
  roundUp (width * bytesPerPixel format type) alignment * height

/-! ## Pairs of a format and a type -/

/-- Whether the guest counts all components of a pixel. -/
def Counted (format type : GLenum) : Prop :=
  type ≠ GL_HALF_FLOAT_OES ∧ (type = GL_FLOAT → pixelComponents format = 1) ∧
    (type = GL_UNSIGNED_BYTE → format ≠ GL_DEPTH_STENCIL_OES)

instance (format type : GLenum) : Decidable (Counted format type) :=
  inferInstanceAs (Decidable (_ ∧ _ ∧ _))

/-- The pairs that the checks let through. -/
def Pair (format type : GLenum) : Prop :=
  pixelOp format type = true ∧
    (type = GL_UNSIGNED_SHORT ∨ type = GL_UNSIGNED_INT → format = GL_DEPTH_COMPONENT) ∧
    (format = GL_DEPTH_COMPONENT → type = GL_UNSIGNED_SHORT ∨ type = GL_UNSIGNED_INT)

instance (format type : GLenum) : Decidable (Pair format type) :=
  inferInstanceAs (Decidable (_ ∧ _ ∧ _))

def formats : List GLenum :=
  [GL_BGRA_EXT, GL_DEPTH_STENCIL_OES, GL_ALPHA, GL_RGB, GL_RGBA, GL_LUMINANCE, GL_LUMINANCE_ALPHA,
    GL_DEPTH_COMPONENT]

def types : List GLenum :=
  [GL_UNSIGNED_INT_24_8_OES, GL_HALF_FLOAT_OES, GL_UNSIGNED_BYTE, GL_UNSIGNED_SHORT_5_6_5,
    GL_UNSIGNED_SHORT_4_4_4_4, GL_UNSIGNED_SHORT_5_5_5_1, GL_FLOAT, GL_UNSIGNED_SHORT,
    GL_UNSIGNED_INT]

theorem pixelBits_cases : ∀ format ∈ formats, ∀ type ∈ types, Pair format type →
    0 < bytesPerPixel format type ∧
      (Counted format type → glUtilsPixelBitSize format type / 8 = bytesPerPixel format type) ∧
      (type = GL_HALF_FLOAT_OES → glUtilsPixelBitSize format type / 8 = 0) ∧
      (¬Counted format type → type ≠ GL_HALF_FLOAT_OES →
        0 < glUtilsPixelBitSize format type / 8 ∧
          2 * (glUtilsPixelBitSize format type / 8) ≤ bytesPerPixel format type) :=
  -- Decided along the lists, not over all words of 32 bits.
  @of_decide_eq_true _
    (@List.decidableBAll _ _ (fun _ => @List.decidableBAll _ _ (fun _ => inferInstance) types)
      formats)
    (by decide +kernel)

section Accepted

variable {version : GLESVersion} {caps : PixelCaps} {target internalformat format type : GLenum}
  {border : GLsizei}

theorem mem_formats (h : pixelFrmt version caps format = true) : format ∈ formats := by
  simp only [pixelFrmt, basePixelFrmt, Bool.or_eq_true, Bool.and_eq_true, decide_eq_true_eq] at h
  obtain ⟨-, rfl⟩ | (⟨-, rfl⟩ | ⟨-, rfl⟩) | hbase := h
  · decide
  · decide
  · decide
  · exact List.mem_append_left [GL_DEPTH_COMPONENT]
      (List.mem_append_right [GL_BGRA_EXT, GL_DEPTH_STENCIL_OES] hbase)

theorem mem_types (h : pixelType version caps type = true) : type ∈ types := by
  simp only [pixelType, basePixelType, Bool.or_eq_true, Bool.and_eq_true, decide_eq_true_eq] at h
  obtain ⟨-, rfl | rfl⟩ | (⟨-, rfl⟩ | ⟨-, rfl⟩) | hbase := h
  · decide
  · decide
  · decide
  · decide
  · exact List.mem_append_left [GL_UNSIGNED_SHORT, GL_UNSIGNED_INT]
      (List.mem_append_right [GL_UNSIGNED_INT_24_8_OES, GL_HALF_FLOAT_OES] hbase)

theorem basePixelFrmt_depth (caps : PixelCaps) :
    basePixelFrmt caps GL_DEPTH_COMPONENT = false := by
  obtain ⟨bgra, stencil, arb, nv⟩ := caps
  revert bgra stencil arb nv
  decide

theorem basePixelType_depth (caps : PixelCaps) :
    basePixelType caps GL_UNSIGNED_SHORT = false ∧ basePixelType caps GL_UNSIGNED_INT = false := by
  obtain ⟨bgra, stencil, arb, nv⟩ := caps
  revert bgra stencil arb nv
  decide

theorem version_of_depth (hfrmt : pixelFrmt version caps format = true)
    (htype : pixelType version caps type = true)
    (h : format = GL_DEPTH_COMPONENT ∨ type = GL_UNSIGNED_SHORT ∨ type = GL_UNSIGNED_INT) :
    version = .GLES_V2 := by
  by_contra hversion
  have hno : decide (version = .GLES_V2) = false := decide_eq_false hversion
  rw [pixelFrmt, hno, Bool.false_and, Bool.false_or] at hfrmt
  rw [pixelType, hno, Bool.false_and, Bool.false_or] at htype
  obtain rfl | rfl | rfl := h
  · exact Bool.false_ne_true ((basePixelFrmt_depth caps).symm.trans hfrmt)
  · exact Bool.false_ne_true ((basePixelType_depth caps).1.symm.trans htype)
  · exact Bool.false_ne_true ((basePixelType_depth caps).2.symm.trans htype)

theorem pair_of_accepted
    (h : texImage2DError version caps target internalformat border format type = GL_NO_ERROR) :
    format ∈ formats ∧ type ∈ types ∧ Pair format type := by
  unfold texImage2DError at h
  split at h
  · cases h
  rename_i henum
  split at h
  · cases h
  rename_i hdepth
  split at h
  · cases h
  rename_i htyped
  split at h
  · cases h
  rename_i hop
  simp only [Bool.not_eq_true', Bool.not_eq_false, Bool.and_eq_true] at henum hop
  obtain ⟨⟨⟨-, -⟩, hfrmt⟩, htype⟩ := henum
  have hversion := version_of_depth hfrmt htype
  refine ⟨mem_formats hfrmt, mem_types htype, hop.1, fun h => ?_, fun h => ?_⟩
  · by_contra hne
    exact htyped ⟨hversion (.inr h), h, .inl hne⟩
  · by_contra hne
    exact hdepth ⟨hversion (.inl h), .inl h, not_or.mp hne⟩

end Accepted

/-! ## Images of the guest -/

/-- The bytes fit in 32 bits, and the image is empty, or the guest counts its pixels right, or a row
is so short that it is padded to the same length. -/
def SizeFits (alignment : Nat) (format type : GLenum) (width height : Nat) : Prop :=
  imageBytes alignment format type width height < 2 ^ 32 ∧
    (width = 0 ∨ height = 0 ∨ Counted format type ∨
      type ≠ GL_HALF_FLOAT_OES ∧ width * bytesPerPixel format type ≤ alignment)

/-- The guest sends what the driver reads if and only if the size fits. -/
theorem pixelDataSize_iff (s : PixelStoreState) (version : GLESVersion) (caps : PixelCaps)
    (target internalformat format type : GLenum) (border width height : GLsizei)
    (hwidth : 0 ≤ width.toInt) (hheight : 0 ≤ height.toInt)
    (h : texImage2DError version caps target internalformat border format type = GL_NO_ERROR) :
    (s.pixelDataSize width height format type false).toNat =
        imageBytes s.unpack_alignment.toNat format type width.toInt.toNat height.toInt.toNat ↔
      SizeFits s.unpack_alignment.toNat format type width.toInt.toNat height.toInt.toNat := by
  obtain ⟨hformat, htype, hpair⟩ := pair_of_accepted h
  obtain ⟨hpos, hcounted, hhalf, hshort⟩ := pixelBits_cases format hformat type htype hpair
  have ha := (PixelStoreState.dvd_of_isPixelAlignment s.unpack_ok).1
  rw [(toNat_of_nonneg hwidth).2, (toNat_of_nonneg hheight).2, PixelStoreState.pixelDataSize_toNat,
    if_neg Bool.false_ne_true, SizeFits]
  unfold imageBytes
  rw [Nat.mul_comm _ width.toNat]
  by_cases hc : Counted format type
  · rw [hcounted hc]
    exact ⟨fun heq => ⟨heq ▸ Nat.mod_lt _ (by decide), .inr (.inr (.inl hc))⟩,
      fun hfits => Nat.mod_eq_of_lt hfits.1⟩
  have hempty : width.toNat = 0 ∨ height.toNat = 0 → ∀ bytes,
      roundUp (width.toNat * bytes) s.unpack_alignment.toNat * height.toNat = 0 := by
    rintro (hzero | hzero) bytes
    · rw [hzero, Nat.zero_mul, roundUp_zero ha, Nat.zero_mul]
    · rw [hzero, Nat.mul_zero]
  by_cases hzero : width.toNat = 0 ∨ height.toNat = 0
  · rw [hempty hzero, hempty hzero]
    exact ⟨fun _ => ⟨by decide, hzero.imp_right .inl⟩, fun _ => rfl⟩
  rw [not_or] at hzero
  have hread := Nat.mul_pos (Nat.pos_of_ne_zero hzero.1) hpos
  by_cases hfloat : type = GL_HALF_FLOAT_OES
  · have hrows := Nat.mul_pos (Nat.lt_of_lt_of_le hread (le_roundUp ha _))
      (Nat.pos_of_ne_zero hzero.2)
    rw [hhalf hfloat, Nat.mul_zero, roundUp_zero ha, Nat.zero_mul]
    refine iff_of_false (by rw [Nat.zero_mod]; omega) ?_
    rintro ⟨-, hw | hh | hcount | hother⟩
    · exact hzero.1 hw
    · exact hzero.2 hh
    · exact hc hcount
    · exact hother.1 hfloat
  obtain ⟨hbytes, htwice⟩ := hshort hc hfloat
  have hrow := roundUp_eq_roundUp_iff ha (Nat.mul_pos (Nat.pos_of_ne_zero hzero.1) hbytes)
    (n := width.toNat * bytesPerPixel format type)
    (by rw [Nat.mul_left_comm]; exact Nat.mul_le_mul_left _ htwice)
  have hle : roundUp (width.toNat * (glUtilsPixelBitSize format type / 8)) s.unpack_alignment.toNat *
      height.toNat ≤ roundUp (width.toNat * bytesPerPixel format type) s.unpack_alignment.toNat *
        height.toNat :=
    Nat.mul_le_mul_right _ (roundUp_mono (Nat.mul_le_mul_left _ (by omega)))
  simp only [hzero.1, hzero.2, hc, hfloat, ne_eq, not_false_eq_true, true_and, false_or]
  constructor
  · intro heq
    have hlt : roundUp (width.toNat * bytesPerPixel format type) s.unpack_alignment.toNat *
        height.toNat < 2 ^ 32 := heq ▸ Nat.mod_lt _ (by decide)
    rw [Nat.mod_eq_of_lt (by omega)] at heq
    exact ⟨hlt, hrow.mp (Nat.eq_of_mul_eq_mul_right (Nat.pos_of_ne_zero hzero.2) heq)⟩
  · rintro ⟨hlt, hshort⟩
    rw [hrow.mpr hshort, Nat.mod_eq_of_lt hlt]

/-- Two rows of three pixels of three bytes. -/
theorem pixelDataSize_rows :
    (PixelStoreState.initial.pixelDataSize 3 2 GL_RGB GL_UNSIGNED_BYTE false).toNat =
      imageBytes 4 GL_RGB GL_UNSIGNED_BYTE 3 2 :=
  (pixelDataSize_iff .initial .GLES_CM ⟨false, false, false, false⟩ GL_TEXTURE_2D GL_RGB GL_RGB
    GL_UNSIGNED_BYTE 0 3 2 (by decide) (by decide) (by decide)).mpr
    ⟨by decide, .inr (.inr (.inl (by decide)))⟩

/-- A pixel of four floats is sent as four bytes of sixteen. -/
theorem float_sent_short :
    texImage2DError .GLES_V2 ⟨false, false, false, false⟩ GL_TEXTURE_2D GL_RGBA 0 GL_RGBA GL_FLOAT =
        GL_NO_ERROR ∧
      (PixelStoreState.initial.pixelDataSize 1 1 GL_RGBA GL_FLOAT false).toNat = 4 ∧
      imageBytes 4 GL_RGBA GL_FLOAT 1 1 = 16 := by
  decide

end AndroidRenderer.Translator
