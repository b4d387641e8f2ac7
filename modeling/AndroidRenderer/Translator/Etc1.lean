import Mathlib.Algebra.Group.Nat.Defs

/-!
# ETC1 blocks

An ETC1 block is a word with two base colors and two tables, one for each half of the block, and a
word with two bits for each pixel, which select a modifier of the table. Pixel `(x, y)` has index
`x + 4 * y`.
-/

namespace AndroidRenderer.Translator.Etc1

/-- The channels of a color, on which most functions do the same. -/
structure RGB (α : Type) where
  r : α
  g : α
  b : α
  deriving DecidableEq, Repr

def RGB.map {α β : Type} (f : α → β) (c : RGB α) : RGB β := ⟨f c.r, f c.g, f c.b⟩

def kModifierTable : List Int :=
  [2, 8, -2, -8,
   5, 17, -5, -17,
   9, 29, -9, -29,
   13, 42, -13, -42,
   18, 60, -18, -60,
   24, 80, -24, -80,
   33, 106, -33, -106,
   47, 183, -47, -183]

def kLookup : List Int := [0, 1, 2, 3, -4, -3, -2, -1]

def clamp (x : Int) : UInt8 :=
  if 0 ≤ x then if x < 255 then UInt8.ofNat x.toNat else 255 else 0

/-- `b & 0xf` is the remainder, also of a negative number. -/
def convert4To8 (b : Int) : Nat :=
  let c := (b % 16).toNat
  c <<< 4 ||| c

def convert5To8 (b : Int) : Nat :=
  let c := (b % 32).toNat
  c <<< 3 ||| c >>> 2

def divideBy255 (d : Nat) : Nat := (d + 128 + d >>> 8) >>> 8

def convert8To4 (b : UInt8) : Nat := divideBy255 (b.toNat * 15)

def convert8To5 (b : UInt8) : Nat := divideBy255 (b.toNat * 31)

def convertDiff (base diff : Nat) : Nat :=
  convert5To8 ((0x1f &&& base : Nat) + kLookup.getD (7 &&& diff) 0)

/-- `kModifierTable[4 * table + offset]` -/
def modifier (table offset : Nat) : Int := kModifierTable.getD (table * 4 + offset) 0

/-- A base color with a modifier. -/
def shade (c : RGB Nat) (delta : Int) : RGB UInt8 :=
  c.map fun (channel : Nat) => clamp (channel + delta)

def texelAt (p : Nat → UInt8) (i : Nat) : RGB UInt8 := ⟨p (3 * i), p (3 * i + 1), p (3 * i + 2)⟩

/-! ## The decoder -/

/-- The three stores at `q`. -/
def storeTexel (pOut : Nat → UInt8) (q : Nat) (c : RGB UInt8) : Nat → UInt8 :=
  fun n => if n = q then c.r else if n = q + 1 then c.g else if n = q + 2 then c.b else pOut n

/-- `x` and `y` in a turn of `decode_subblock`. -/
def decodedPixel (second flipped : Bool) (i : Nat) : Nat × Nat :=
  let baseX := if second && !flipped then 2 else 0
  let baseY := if second && flipped then 2 else 0
  if flipped then (baseX + i >>> 1, baseY + (i &&& 1)) else (baseX + i >>> 2, baseY + (i &&& 3))

/-- `offset`, the two bits of a pixel. -/
def decodedOffset (low k : Nat) : Nat := low >>> k &&& 1 ||| low >>> (k + 15) &&& 2

def decode_subblock (pOut : Nat → UInt8) (c : RGB Nat) (table low : Nat) (second flipped : Bool) :
    Nat → UInt8 :=
  (List.range 8).foldl (fun pOut i =>
    let x := (decodedPixel second flipped i).1
    let y := (decodedPixel second flipped i).2
    let k := y + x * 4
    storeTexel pOut (3 * (x + 4 * y)) (shade c (modifier table (decodedOffset low k)))) pOut

/-- The base colors of both halves. -/
def decodedColors (high : Nat) : RGB Nat × RGB Nat :=
  if high &&& 2 ≠ 0 then
    let rBase := high >>> 27
    let gBase := high >>> 19
    let bBase := high >>> 11
    (⟨convert5To8 rBase, convert5To8 gBase, convert5To8 bBase⟩,
      ⟨convertDiff rBase (high >>> 24), convertDiff gBase (high >>> 16),
        convertDiff bBase (high >>> 8)⟩)
  else
    (⟨convert4To8 ↑(high >>> 28), convert4To8 ↑(high >>> 20), convert4To8 ↑(high >>> 12)⟩,
      ⟨convert4To8 ↑(high >>> 24), convert4To8 ↑(high >>> 16), convert4To8 ↑(high >>> 8)⟩)

/-- Four bytes as a word. -/
def wordAt (p : Nat → UInt8) (i : Nat) : Nat :=
  (p i).toNat <<< 24 ||| (p (i + 1)).toNat <<< 16 ||| (p (i + 2)).toNat <<< 8 ||| (p (i + 3)).toNat

/-- `pOut` holds what it held before. -/
def etc1_decode_block (pIn pOut : Nat → UInt8) : Nat → UInt8 :=
  let high := wordAt pIn 0
  let low := wordAt pIn 4
  let colors := decodedColors high
  let tableIndexA := 7 &&& high >>> 5
  let tableIndexB := 7 &&& high >>> 2
  let flipped := decide (high &&& 1 ≠ 0)
  let pOut := decode_subblock pOut colors.1 tableIndexA low false flipped
  decode_subblock pOut colors.2 tableIndexB low true flipped

/-! ## The encoder -/

/-- A candidate; a lower score is better. -/
structure EtcCompressed where
  high : Nat
  low : Nat
  score : Nat
  deriving DecidableEq, Repr

/-- `~0` as an `etc1_uint32` -/
def maxScore : Nat := 2 ^ 32 - 1

def take_best (a b : EtcCompressed) : EtcCompressed := if a.score > b.score then b else a

/-- `x` and `y` in the turns of the two loops over a half. -/
def subblockPixels (flipped second : Bool) : List (Nat × Nat) :=
  if flipped then
    let by_ := if second then 2 else 0
    (List.range 2).flatMap fun y => (List.range 4).map fun x => (x, by_ + y)
  else
    let bx := if second then 2 else 0
    (List.range 4).flatMap fun y => (List.range 2).map fun x => (bx + x, y)

def etc_average_colors_subblock (pIn : Nat → UInt8) (inMask : BitVec 32) (flipped second : Bool) :
    RGB UInt8 :=
  let sum := (subblockPixels flipped second).foldl (fun (sum : RGB Nat) p =>
    let i := p.1 + 4 * p.2
    let texel := texelAt pIn i
    if inMask.getLsbD i then
      ⟨sum.r + texel.r.toNat, sum.g + texel.g.toNat, sum.b + texel.b.toNat⟩
    else sum) ⟨0, 0, 0⟩
  sum.map fun s => UInt8.ofNat ((s + 4) >>> 3)

def square (x : Int) : Nat := (x * x).toNat

/-- A turn of the loop of `chooseModifier`, on the best score and its index. -/
def chooseTurn (base : RGB Nat) (pixel : RGB UInt8) (table : Nat) (best : Nat × Nat) (i : Nat) :
    Nat × Nat :=
  let decoded := shade base (modifier table i)
  let score := 6 * square (decoded.g.toNat - pixel.g.toNat)
  if score ≥ best.1 then best
  else
    let score := score + 3 * square (decoded.r.toNat - pixel.r.toNat)
    if score ≥ best.1 then best
    else
      let score := score + square (decoded.b.toNat - pixel.b.toNat)
      if score < best.1 then (score, i) else best

/-- `bestScore` and `bestIndex` -/
def bestModifier (base : RGB Nat) (pixel : RGB UInt8) (table : Nat) : Nat × Nat :=
  (List.range 4).foldl (chooseTurn base pixel table) (maxScore, 0)

def lowMask (bestIndex bitIndex : Nat) : Nat :=
  (bestIndex >>> 1 <<< 16 ||| bestIndex &&& 1) <<< bitIndex

/-- The score, and `*pLow`. -/
def chooseModifier (base : RGB Nat) (pixel : RGB UInt8) (low bitIndex table : Nat) : Nat × Nat :=
  let best := bestModifier base pixel table
  (best.1, low ||| lowMask best.2 bitIndex)

/-- A turn of the loops of `etc_encode_subblock_helper`. -/
def encodePixel (pIn : Nat → UInt8) (inMask : BitVec 32) (base : RGB Nat) (table : Nat)
    (c : EtcCompressed) (p : Nat × Nat) : EtcCompressed :=
  let i := p.1 + 4 * p.2
  if inMask.getLsbD i then
    let r := chooseModifier base (texelAt pIn i) c.low (p.2 + p.1 * 4) table
    { c with low := r.2, score := c.score + r.1 }
  else c

def etc_encode_subblock_helper (pIn : Nat → UInt8) (inMask : BitVec 32) (c : EtcCompressed)
    (flipped second : Bool) (base : RGB Nat) (table : Nat) : EtcCompressed :=
  (subblockPixels flipped second).foldl (encodePixel pIn inMask base table) c

def inRange4bitSigned (color : Int) : Bool := -4 ≤ color && color ≤ 3

/-- `7 & d` -/
def threeBits (d : Int) : Nat := (d % 8).toNat

/-- The base colors of both halves, and the bits for them in `high`. -/
def etc_encodeBaseColors (colors : RGB UInt8 × RGB UInt8) : (RGB Nat × RGB Nat) × Nat :=
  let c51 := colors.1.map convert8To5
  let c52 := colors.2.map convert8To5
  let d : RGB Int := ⟨c52.r - c51.r, c52.g - c51.g, c52.b - c51.b⟩
  if inRange4bitSigned d.r && inRange4bitSigned d.g && inRange4bitSigned d.b then
    ((c51.map fun (c : Nat) => convert5To8 c,
      ⟨convert5To8 (c51.r + d.r), convert5To8 (c51.g + d.g), convert5To8 (c51.b + d.b)⟩),
      c51.r <<< 27 ||| threeBits d.r <<< 24 ||| c51.g <<< 19 ||| threeBits d.g <<< 16 |||
        c51.b <<< 11 ||| threeBits d.b <<< 8 ||| 2)
  else
    let c41 := colors.1.map convert8To4
    let c42 := colors.2.map convert8To4
    ((c41.map fun (c : Nat) => convert4To8 c, c42.map fun (c : Nat) => convert4To8 c),
      c41.r <<< 28 ||| c42.r <<< 24 ||| c41.g <<< 20 ||| c42.g <<< 16 ||| c41.b <<< 12 |||
        c42.b <<< 8)

/-- The first loop of `etc_encode_block_helper`. -/
def encodeFirst (pIn : Nat → UInt8) (inMask : BitVec 32) (flipped : Bool) (base : RGB Nat)
    (originalHigh : Nat) : EtcCompressed :=
  (List.range 8).foldl (fun best i =>
    take_best best (etc_encode_subblock_helper pIn inMask ⟨originalHigh ||| i <<< 5, 0, 0⟩ flipped
      false base i)) ⟨originalHigh, 0, maxScore⟩

def encodeSecond (pIn : Nat → UInt8) (inMask : BitVec 32) (flipped : Bool) (base : RGB Nat)
    (firstHalf : EtcCompressed) : EtcCompressed :=
  (List.range 8).foldl (fun best i =>
    let temp := etc_encode_subblock_helper pIn inMask
      { firstHalf with high := firstHalf.high ||| i <<< 2 } flipped true base i
    if i = 0 then temp else take_best best temp) firstHalf

def etc_encode_block_helper (pIn : Nat → UInt8) (inMask : BitVec 32)
    (colors : RGB UInt8 × RGB UInt8) (flipped : Bool) : EtcCompressed :=
  let encoded := etc_encodeBaseColors colors
  let originalHigh := (if flipped then 1 else 0) ||| encoded.2
  encodeSecond pIn inMask flipped encoded.1.2
    (encodeFirst pIn inMask flipped encoded.1.1 originalHigh)

def averageColors (pIn : Nat → UInt8) (inMask : BitVec 32) (flipped : Bool) :
    RGB UInt8 × RGB UInt8 :=
  (etc_average_colors_subblock pIn inMask flipped false,
    etc_average_colors_subblock pIn inMask flipped true)

/-- The candidate that `etc1_encode_block` chooses. -/
def chosen (pIn : Nat → UInt8) (inMask : BitVec 32) : EtcCompressed :=
  take_best (etc_encode_block_helper pIn inMask (averageColors pIn inMask false) false)
    (etc_encode_block_helper pIn inMask (averageColors pIn inMask true) true)

def writeBigEndian (d : Nat) : List UInt8 :=
  [UInt8.ofNat (d >>> 24), UInt8.ofNat (d >>> 16), UInt8.ofNat (d >>> 8), UInt8.ofNat d]

def etc1_encode_block (pIn : Nat → UInt8) (inMask : BitVec 32) : List UInt8 :=
  writeBigEndian (chosen pIn inMask).high ++ writeBigEndian (chosen pIn inMask).low

end AndroidRenderer.Translator.Etc1
