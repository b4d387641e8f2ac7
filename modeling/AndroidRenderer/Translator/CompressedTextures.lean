import AndroidRenderer.Lib.Buffer
import AndroidRenderer.OpenglCodecCommon.GL

/-!
# Compressed textures

`doCompressedTexImage2D` of the translator decodes ETC1 and paletted images into a temporary image,
which goes to `glTexImage2D`. The driver reads that image with its own unpack alignment.

The texels of an ETC1 block are a parameter. So is what new memory holds.
-/

namespace AndroidRenderer.Translator

/-! ## Pixel storage -/

/-- The unpack alignment of a context, and what the driver's context has for both. -/
structure PixelStore where
  m_unpackAlignment : GLsizei
  m_glError : GLenum
  driverPack : GLsizei
  driverUnpack : GLsizei
  deriving DecidableEq, Repr

namespace PixelStore

/-- A new context. -/
def initial : PixelStore := ⟨4, GL_NO_ERROR, 4, 4⟩

def setGLerror (s : PixelStore) (err : GLenum) : PixelStore := { s with m_glError := err }

/-- `glPixelStorei` of the driver -/
def driverPixelStorei (s : PixelStore) (pname : GLenum) (param : GLsizei) : PixelStore :=
  if pname = GL_PACK_ALIGNMENT then { s with driverPack := param }
  else if pname = GL_UNPACK_ALIGNMENT then { s with driverUnpack := param }
  else s

/-- `GLESv2Validate::pixelStoreParam`, which `GLES_CM` has in place -/
def pixelStoreParam (pname : GLenum) : Bool :=
  pname == GL_PACK_ALIGNMENT || pname == GL_UNPACK_ALIGNMENT

def isAlignment (param : GLsizei) : Bool :=
  param == 1 || param == 2 || param == 4 || param == 8

/-- `glPixelStorei` of `GLES_CM` and of `GLES_V2` -/
def glPixelStorei (s : PixelStore) (pname : GLenum) (param : GLsizei) : PixelStore :=
  if !pixelStoreParam pname then s.setGLerror GL_INVALID_ENUM
  else if !isAlignment param then s.setGLerror GL_INVALID_VALUE
  else { s with m_unpackAlignment := param }.driverPixelStorei pname param

end PixelStore

/-! ## Images -/

inductive TexFault
  | outOfBounds
  | badAlloc
  | nullPointer
  deriving DecidableEq, Repr

/-- `GL_RGB` and `GL_RGBA`, with `GL_UNSIGNED_BYTE`. -/
inductive TexFormat
  | RGB
  | RGBA
  deriving DecidableEq, Repr

def TexFormat.size : TexFormat → Nat
  | .RGB => 3
  | .RGBA => 4

/-- An image that is handed to `glTexImage2D`. -/
structure TexImage where
  level : Int
  width : GLsizei
  height : GLsizei
  format : TexFormat
  pixels : Option (List UInt8)
  deriving DecidableEq, Repr

/-- `new etc1_byte[size]` and `new unsigned char[size]` -/
def newBytes (junk : Nat → UInt8) (size : GLsizei) : Except TexFault (List UInt8) :=
  if size.slt 0 then .error .badAlloc else .ok ((List.range size.toNat).map junk)

def storeRows (pixels : List UInt8) (rows : List (Nat × List UInt8)) :
    Except TexFault (List UInt8) :=
  match Buffer.storeAll? pixels rows with
  | some pixels => .ok pixels
  | none => .error .outOfBounds

/-! ## ETC1 -/

/-- The 48 bytes of the texels of an encoded block. -/
abbrev DecodeBlock := (Nat → UInt8) → Nat → UInt8

/-- `(n + 3) & ~3` -/
def roundToBlock (n : GLsizei) : GLsizei := (n + 3) &&& ~~~3

def etc1_get_encoded_data_size (width height : GLsizei) : GLsizei :=
  (roundToBlock width * roundToBlock height) >>> 1

/-- Where `pIn` is for a block. -/
def blockAt (data : Nat → UInt8) (width : GLsizei) (by_ bx : Nat) : Nat → UInt8 :=
  fun i => data (8 * (by_ * ((roundToBlock width).toNat / 4) + bx) + i)

/-- The rows that `etc1_decode_image` copies from one block. -/
def blockRows (decode : DecodeBlock) (data : Nat → UInt8) (width height stride : GLsizei)
    (by_ bx : Nat) : List (Nat × List UInt8) :=
  let block := decode (blockAt data width by_ bx)
  let yEnd := min (height.toNat - 4 * by_) 4
  let xEnd := min (width.toNat - 4 * bx) 4
  (List.range yEnd).map fun cy =>
    (3 * (4 * bx) % 2 ^ 32 + stride.toNat * (4 * by_ + cy) % 2 ^ 32,
      (List.range (3 * xEnd)).map fun i => block (12 * cy + i))

/-- The rows that `etc1_decode_image` copies. -/
def etc1Rows (decode : DecodeBlock) (data : Nat → UInt8) (width height stride : GLsizei) :
    List (Nat × List UInt8) :=
  (List.range ((roundToBlock height).toNat / 4)).flatMap fun by_ =>
    (List.range ((roundToBlock width).toNat / 4)).flatMap fun bx =>
      blockRows decode data width height stride by_ bx

/-- `etc1_decode_image` with a pixel size of 3 -/
def etc1_decode_image (decode : DecodeBlock) (data : Option (Nat → UInt8)) (pOut : List UInt8)
    (width height stride : GLsizei) : Except TexFault (List UInt8) :=
  match data with
  | some data => storeRows pOut (etc1Rows decode data width height stride)
  | none =>
      if (roundToBlock height).toNat / 4 = 0 ∨ (roundToBlock width).toNat / 4 = 0 then .ok pOut
      else .error .nullPointer

/-! ## Palettes -/

/-- `GL_PALETTE4_RGB8_OES` to `GL_PALETTE8_RGB5_A1_OES`: the bits of an index, and the colors. -/
inductive PaletteColor
  | RGB8
  | RGBA8
  | R5_G6_B5
  | RGBA4
  | RGB5_A1
  deriving DecidableEq, Repr

structure PaletteFormat where
  wide : Bool
  color : PaletteColor
  deriving DecidableEq, Repr

namespace PaletteFormat

/-- The formats that `doCompressedTexImage2D` knows. -/
def ofGLenum? (internalformat : GLenum) : Option PaletteFormat :=
  if internalformat = 0x8B90 then some ⟨false, .RGB8⟩
  else if internalformat = 0x8B91 then some ⟨false, .RGBA8⟩
  else if internalformat = 0x8B92 then some ⟨false, .R5_G6_B5⟩
  else if internalformat = 0x8B93 then some ⟨false, .RGBA4⟩
  else if internalformat = 0x8B94 then some ⟨false, .RGB5_A1⟩
  else if internalformat = 0x8B95 then some ⟨true, .RGB8⟩
  else if internalformat = 0x8B96 then some ⟨true, .RGBA8⟩
  else if internalformat = 0x8B97 then some ⟨true, .R5_G6_B5⟩
  else if internalformat = 0x8B98 then some ⟨true, .RGBA4⟩
  else if internalformat = 0x8B99 then some ⟨true, .RGB5_A1⟩
  else none

/-- `getPaletteInfo` -/
def indexSizeBits (frmt : PaletteFormat) : Nat := if frmt.wide then 8 else 4

def colorSizeBytes (frmt : PaletteFormat) : Nat :=
  match frmt.color with
  | .RGB8 => 3
  | .RGBA8 => 4
  | .R5_G6_B5 | .RGBA4 | .RGB5_A1 => 2

def colorFrmt (frmt : PaletteFormat) : TexFormat :=
  match frmt.color with
  | .RGB8 | .R5_G6_B5 => .RGB
  | .RGBA8 | .RGBA4 | .RGB5_A1 => .RGBA

end PaletteFormat

/-- `*((short *)(pallete+index))` -/
def shortAt (pallete : Nat → UInt8) (index : Nat) : Int :=
  (BitVec.ofNat 16 ((pallete index).toNat + 256 * (pallete (index + 1)).toNat)).toInt

/-- `((s >> shift) & (2^bits - 1)) * 255 / (2^bits - 1)` -/
def channel (s : Int) (shift bits : Nat) : UInt8 :=
  UInt8.ofNat ((s >>> shift % 2 ^ bits).toNat * 255 / (2 ^ bits - 1))

/-- `paletteColor`: red, green, blue and alpha. The red of `R5_G6_B5` is not masked. -/
def paletteColor (pallete : Nat → UInt8) (index : Nat) (color : PaletteColor) : List UInt8 :=
  let s := shortAt pallete index
  match color with
  | .RGB8 => [pallete index, pallete (index + 1), pallete (index + 2), 0]
  | .R5_G6_B5 =>
      [UInt8.ofInt ((s >>> (11 : Nat) * 255).tdiv 31), channel s 5 6, channel s 0 5, 0]
  | .RGBA8 => [pallete index, pallete (index + 1), pallete (index + 2), pallete (index + 3)]
  | .RGBA4 => [channel s 12 4, channel s 8 4, channel s 4 4, channel s 0 4]
  | .RGB5_A1 => [channel s 11 5, channel s 6 5, channel s 1 5, channel s 0 1]

/-- Where the indices of a level begin, and its size. -/
structure PaletteLevel where
  imageIndices : Nat
  width : GLsizei
  height : GLsizei

def PaletteLevel.jump (frmt : PaletteFormat) : Nat → PaletteLevel → PaletteLevel
  | 0, l => l
  | level + 1, l =>
      jump frmt level {
        imageIndices := l.imageIndices +
          (l.width * l.height * BitVec.ofNat 32 frmt.indexSizeBits).toNat / 8
        width := l.width.sshiftRight 1
        height := l.height.sshiftRight 1 }

def pixelColor (frmt : PaletteFormat) (data : Nat → UInt8) (imageIndices i : Nat) : List UInt8 :=
  let paletteIndex :=
    if frmt.wide then (data (imageIndices + i)).toNat
    else if i % 2 = 0 then (data (imageIndices + i / 2)).toNat / 16
    else (data (imageIndices + i / 2)).toNat % 16
  paletteColor data (paletteIndex * frmt.colorSizeBytes) frmt.color

/-- The number of pixels that have an index. -/
def maxIndices (frmt : PaletteFormat) (imageSize : GLsizei) (imageIndices : Nat)
    (nPixels : GLsizei) : Nat :=
  let leftBytes := BitVec.ofInt 32 (imageSize.toInt - imageIndices)
  let leftPixels := leftBytes * 8 / BitVec.ofNat 32 frmt.indexSizeBits
  (if leftPixels.slt nPixels then leftPixels else nPixels).toInt.toNat

/-- The pixels of a level that `uncompressTexture` fills. -/
def levelRows (frmt : PaletteFormat) (data : Nat → UInt8) (imageSize : GLsizei)
    (l : PaletteLevel) : List (Nat × List UInt8) :=
  (List.range (maxIndices frmt imageSize l.imageIndices (l.width * l.height))).map fun i =>
    (i * frmt.colorFrmt.size, (pixelColor frmt data l.imageIndices i).take frmt.colorFrmt.size)

def uncompressTexture (frmt : PaletteFormat) (junk : Nat → UInt8) (width height imageSize : GLsizei)
    (data : Option (Nat → UInt8)) (level : Nat) : Except TexFault (Option (List UInt8)) :=
  match data with
  | none => .ok none
  | some data => do
      let paletteSizeBytes := 2 ^ frmt.indexSizeBits * frmt.colorSizeBytes
      let l := PaletteLevel.jump frmt level ⟨paletteSizeBytes, width, height⟩
      let pixelsOut ← newBytes junk
        (l.width * l.height * BitVec.ofNat 32 frmt.colorFrmt.size)
      let pixelsOut ← storeRows pixelsOut (levelRows frmt data imageSize l)
      return some pixelsOut

/-! ## Uploads -/

def isPowerOf2 (num : GLsizei) : Bool := num &&& (num - 1) == 0

def texImgDim (width height : GLsizei) (maxTexSize : Int) : Bool :=
  !(decide (width.toInt < 0) || decide (height.toInt < 0) || decide (maxTexSize < width.toInt) ||
      decide (maxTexSize < height.toInt)) &&
    isPowerOf2 width && isPowerOf2 height

/-- The test of a paletted image. -/
def refusesPalette (maxTexSize : Nat) (level width height border : GLsizei) : Bool :=
  decide (maxTexSize = 0 ∨ (Nat.log2 maxTexSize : Int) < level.toInt) || border != 0 ||
    decide (0 < level.toInt) || !texImgDim width height (maxTexSize + 2)

/-- The loop over the levels; `n` of them are left. -/
def uploadLevels (frmt : PaletteFormat) (junk : Nat → UInt8) (width height imageSize : GLsizei)
    (data : Option (Nat → UInt8)) : Nat → Nat → GLsizei → GLsizei → Except TexFault (List TexImage)
  | 0, _, _, _ => .ok []
  | n + 1, i, tmpWidth, tmpHeight => do
      let uncompressed ← uncompressTexture frmt junk width height imageSize data i
      let images ← uploadLevels frmt junk width height imageSize data n (i + 1)
        (tmpWidth.sdiv 2) (tmpHeight.sdiv 2)
      return ⟨i, tmpWidth, tmpHeight, frmt.colorFrmt, uncompressed⟩ :: images

/-- The row size of an ETC1 image, in the arithmetic of `int32_t`. -/
def bytesPerRow (unpackAlignment width : GLsizei) : GLsizei :=
  let align := unpackAlignment - 1
  (width * 3 + align) &&& ~~~align

/-- What `doCompressedTexImage2D` does: it sets an error, or it hands images to `glTexImage2D`. -/
inductive Upload
  | error (err : GLenum)
  | images (images : List TexImage)
  deriving DecidableEq, Repr

def GL_ETC1_RGB8_OES : GLenum := 0x8D64

/-- A call of `glCompressedTexImage2D`, past the test of its target. -/
structure CompressedCall where
  level : GLsizei
  internalformat : GLenum
  width : GLsizei
  height : GLsizei
  border : GLsizei
  imageSize : GLsizei
  data : Option (Nat → UInt8)

def doCompressedTexImage2D (s : PixelStore) (maxTexSize : Nat) (decode : DecodeBlock)
    (junk : Nat → UInt8) (c : CompressedCall) : Except TexFault Upload :=
  if c.internalformat = GL_ETC1_RGB8_OES then
    if c.imageSize.slt (etc1_get_encoded_data_size c.width c.height) then
      .ok (.error GL_INVALID_VALUE)
    else do
      let bpr := bytesPerRow s.m_unpackAlignment c.width
      let pOut ← newBytes junk (bpr * c.height)
      let pOut ← etc1_decode_image decode c.data pOut c.width c.height bpr
      return .images [⟨c.level.toInt, c.width, c.height, .RGB, some pOut⟩]
  else
    match PaletteFormat.ofGLenum? c.internalformat with
    | none => .ok (.error GL_INVALID_ENUM)
    | some frmt =>
        if refusesPalette maxTexSize c.level c.width c.height c.border then
          .ok (.error GL_INVALID_VALUE)
        else
          (uploadLevels frmt junk c.width c.height c.imageSize c.data (-c.level + 1).toInt.toNat 0
            c.width c.height).map .images

end AndroidRenderer.Translator
