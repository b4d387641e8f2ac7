import Mathlib.Data.BitVec

/-!
# GL types and constants

The integer types of GL are 32 bits wide. Only the constants that the modelled functions
compare with or return are defined.
-/

namespace AndroidRenderer

abbrev GLenum := UInt32
abbrev GLuint := UInt32

/-- Also `GLint`, `int` and `etc1_uint32`. -/
abbrev GLsizei := BitVec 32

def GL_NO_ERROR : GLenum := 0
def GL_INVALID_ENUM : GLenum := 0x0500
def GL_INVALID_VALUE : GLenum := 0x0501
def GL_INVALID_OPERATION : GLenum := 0x0502
def GL_OUT_OF_MEMORY : GLenum := 0x0505

def GL_TEXTURE_2D : GLenum := 0x0DE1
def GL_TEXTURE_EXTERNAL_OES : GLenum := 0x8D65
def GL_TEXTURE_CUBE_MAP : GLenum := 0x8513
def GL_TEXTURE_CUBE_MAP_POSITIVE_X : GLenum := 0x8515
def GL_TEXTURE_CUBE_MAP_NEGATIVE_X : GLenum := 0x8516
def GL_TEXTURE_CUBE_MAP_POSITIVE_Y : GLenum := 0x8517
def GL_TEXTURE_CUBE_MAP_NEGATIVE_Y : GLenum := 0x8518
def GL_TEXTURE_CUBE_MAP_POSITIVE_Z : GLenum := 0x8519
def GL_TEXTURE_CUBE_MAP_NEGATIVE_Z : GLenum := 0x851A
def GL_TEXTURE0 : GLenum := 0x84C0

def GL_SAMPLER_2D : GLenum := 0x8B5E

def GL_BYTE : GLenum := 0x1400
def GL_UNSIGNED_BYTE : GLenum := 0x1401
def GL_SHORT : GLenum := 0x1402
def GL_UNSIGNED_SHORT : GLenum := 0x1403
def GL_UNSIGNED_SHORT_4_4_4_4 : GLenum := 0x8033
def GL_UNSIGNED_SHORT_5_5_5_1 : GLenum := 0x8034
def GL_UNSIGNED_SHORT_5_6_5 : GLenum := 0x8363

def GL_PACK_ALIGNMENT : GLenum := 0x0D05
def GL_UNPACK_ALIGNMENT : GLenum := 0x0CF5

def GL_RGB : GLenum := 0x1907
def GL_RGBA : GLenum := 0x1908
def GL_RGB565_OES : GLenum := 0x8D62
def GL_RGB5_A1_OES : GLenum := 0x8057
def GL_RGBA4_OES : GLenum := 0x8056
def GL_LUMINANCE : GLenum := 0x1909

def GL_TEXTURE_MAG_FILTER : GLenum := 0x2800
def GL_TEXTURE_MIN_FILTER : GLenum := 0x2801
def GL_TEXTURE_WRAP_S : GLenum := 0x2802
def GL_TEXTURE_WRAP_T : GLenum := 0x2803
def GL_GENERATE_MIPMAP : GLenum := 0x8191
def GL_REQUIRED_TEXTURE_IMAGE_UNITS_OES : GLenum := 0x8D68
def GL_FALSE : GLenum := 0
def GL_NEAREST : GLenum := 0x2600
def GL_LINEAR : GLenum := 0x2601
def GL_CLAMP_TO_EDGE : GLenum := 0x812F

/-- The value of an `int` that holds `i` up to multiples of 2^32: a `GLuint` cast to `GLint`,
or the difference of two `GLint`s on a machine where it wraps. -/
def GLint (i : Int) : Int := Int.bmod i (2 ^ 32)

theorem GLint_of_range {i : Int} (hlo : -2 ^ 31 ≤ i) (hhi : i < 2 ^ 31) : GLint i = i := by
  rw [GLint, Int.bmod_def]
  omega

theorem GLint_bounds (i : Int) : -2 ^ 31 ≤ GLint i ∧ GLint i < 2 ^ 31 := by
  rw [GLint, Int.bmod_def]
  omega

/-- Only 0 is an `int` difference that wraps to 0. -/
theorem GLint_eq_zero {i : Int} (hlo : -2 ^ 32 < i) (hhi : i < 2 ^ 32) : GLint i = 0 ↔ i = 0 := by
  rw [GLint, Int.bmod_def]
  omega

theorem ofInt_natCast (n : Nat) : UInt32.ofInt n = UInt32.ofNat n := by
  have hmod : ((n : Int) % 2 ^ 32).toNat = n % 2 ^ 32 := by omega
  rw [UInt32.ofInt, hmod]
  apply UInt32.toNat_inj.mp
  simp

/-- What the code must not do with memory. -/
inductive MemoryFault
  | useAfterFree
  | nullPointer
  | outOfBounds
  deriving DecidableEq, Repr

end AndroidRenderer
