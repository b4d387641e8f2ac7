import AndroidRenderer.Lib.RoundUp
import AndroidRenderer.OpenglCodecCommon.GLClientState

/-!
# Sizes of images on the guest

The encoder sends as much of an image as `GLClientState::pixelDataSize` says. An `int` and a
`size_t` of the guest are 32 bits wide.
-/

namespace AndroidRenderer

def GL_ALPHA : GLenum := 0x1906
def GL_LUMINANCE_ALPHA : GLenum := 0x190A
def GL_DEPTH_COMPONENT : GLenum := 0x1902
def GL_DEPTH_STENCIL_OES : GLenum := 0x84F9
def GL_BGRA_EXT : GLenum := 0x80E1
def GL_UNSIGNED_INT_24_8_OES : GLenum := 0x84FA

/-- `components` of a format -/
def formatComponents (format : GLenum) : Nat :=
  if format ∈ [GL_ALPHA, GL_LUMINANCE, GL_DEPTH_COMPONENT, GL_DEPTH_STENCIL_OES] then 1
  else if format = GL_LUMINANCE_ALPHA then 2
  else if format = GL_RGB then 3
  else if format ∈ [GL_RGBA, GL_BGRA_EXT] then 4
  else 0

def glUtilsPixelBitSize (format type : GLenum) : Nat :=
  let componentsize := if type ∈ [GL_BYTE, GL_UNSIGNED_BYTE] then 8 else 0
  let pixelsize :=
    if type ∈ [GL_SHORT, GL_UNSIGNED_SHORT, GL_UNSIGNED_SHORT_5_6_5, GL_UNSIGNED_SHORT_4_4_4_4,
        GL_UNSIGNED_SHORT_5_5_5_1, GL_RGB565_OES, GL_RGB5_A1_OES, GL_RGBA4_OES] then 16
    else if type ∈ [GL_INT, GL_UNSIGNED_INT, GL_FLOAT, GL_FIXED, GL_UNSIGNED_INT_24_8_OES] then 32
    else 0
  if pixelsize = 0 then formatComponents format * componentsize else pixelsize

/-- The alignments that `setPixelStore` takes. -/
def isPixelAlignment (value : GLsizei) : Bool :=
  value == 1 || value == 2 || value == 4 || value == 8

/-- `m_pixelStore` -/
structure PixelStoreState where
  unpack_alignment : GLsizei
  pack_alignment : GLsizei
  unpack_ok : isPixelAlignment unpack_alignment = true
  pack_ok : isPixelAlignment pack_alignment = true

namespace PixelStoreState

/-- The constructor of `GLClientState`. -/
def initial : PixelStoreState := ⟨4, 4, rfl, rfl⟩

/-- With the error that is returned. -/
def setPixelStore (s : PixelStoreState) (param : GLenum) (value : GLsizei) :
    PixelStoreState × GLenum :=
  if param = GL_UNPACK_ALIGNMENT then
    if h : isPixelAlignment value = true then
      ({ s with unpack_alignment := value, unpack_ok := h }, GL_NO_ERROR)
    else (s, GL_INVALID_VALUE)
  else if param = GL_PACK_ALIGNMENT then
    if h : isPixelAlignment value = true then
      ({ s with pack_alignment := value, pack_ok := h }, GL_NO_ERROR)
    else (s, GL_INVALID_VALUE)
  else (s, GL_INVALID_ENUM)

def pixelDataSize (s : PixelStoreState) (width height : GLsizei) (format type : GLenum)
    (pack : Bool) : BitVec 32 :=
  let pixelsize := BitVec.ofNat 32 (glUtilsPixelBitSize format type >>> 3)
  let alignment := if pack then s.pack_alignment else s.unpack_alignment
  let linesize := pixelsize * width
  let aligned_linesize := linesize / alignment * alignment
  (if aligned_linesize < linesize then aligned_linesize + alignment else aligned_linesize) * height

/-! ## The size as a number -/

variable {s : PixelStoreState} {width height : GLsizei} {format type : GLenum} {pack : Bool}

theorem dvd_of_isPixelAlignment {value : GLsizei} (h : isPixelAlignment value = true) :
    0 < value.toNat ∧ value.toNat ∣ 8 := by
  simp only [isPixelAlignment, Bool.or_eq_true, beq_iff_eq] at h
  obtain ((rfl | rfl) | rfl) | rfl := h <;> decide

theorem alignedLine_toNat {linesize alignment : BitVec 32} (hpos : 0 < alignment.toNat) :
    (if linesize / alignment * alignment < linesize then linesize / alignment * alignment + alignment
      else linesize / alignment * alignment).toNat =
      roundUp linesize.toNat alignment.toNat % 2 ^ 32 := by
  have hle := Nat.div_mul_le_self linesize.toNat alignment.toNat
  have hlt := linesize.isLt
  have hdown : (linesize / alignment * alignment).toNat =
      linesize.toNat / alignment.toNat * alignment.toNat := by
    rw [BitVec.toNat_mul, BitVec.toNat_udiv, Nat.mod_eq_of_lt (by omega)]
  rw [← roundUp_eq_ite hpos, apply_ite BitVec.toNat, BitVec.toNat_add, hdown]
  simp only [BitVec.lt_def, hdown]
  grind

theorem pixelDataSize_toNat :
    (s.pixelDataSize width height format type pack).toNat =
      roundUp (glUtilsPixelBitSize format type / 8 * width.toNat)
        (if pack then s.pack_alignment else s.unpack_alignment).toNat * height.toNat % 2 ^ 32 := by
  have hok : isPixelAlignment (if pack then s.pack_alignment else s.unpack_alignment) = true := by
    cases pack
    · exact s.unpack_ok
    · exact s.pack_ok
  obtain ⟨hpos, height⟩ := dvd_of_isPixelAlignment hok
  have hdvd := Nat.dvd_trans height (show 8 ∣ 2 ^ 32 by decide)
  have hline : (BitVec.ofNat 32 (glUtilsPixelBitSize format type >>> 3) * width).toNat =
      glUtilsPixelBitSize format type / 8 * width.toNat % 2 ^ 32 := by
    rw [BitVec.toNat_mul, BitVec.toNat_ofNat, Nat.mod_mul_mod, Nat.shiftRight_eq_div_pow]
  rw [pixelDataSize, BitVec.toNat_mul, alignedLine_toNat hpos, Nat.mod_mul_mod, hline,
    Nat.mul_mod, roundUp_mod hpos hdvd, ← Nat.mul_mod]

end PixelStoreState

end AndroidRenderer
