import AndroidRenderer.Translator.Etc1Bounds
import AndroidRenderer.Translator.Etc1Blocks

/-!
# Images of ETC1 blocks

The blocks of an image are decoded one after the other, each into the same memory, from which the
rows inside the image are copied. With a pixel size of 2 the colors are packed.
-/

namespace AndroidRenderer.Translator.Etc1

def pixelBytes (pixelSize : GLsizei) (c : RGB UInt8) : List UInt8 :=
  if pixelSize = 3 then [c.r, c.g, c.b]
  else
    let pixel := c.r.toNat >>> 3 <<< 11 ||| c.g.toNat >>> 2 <<< 5 ||| c.b.toNat >>> 3
    [UInt8.ofNat pixel, UInt8.ofNat (pixel >>> 8)]

/-- What is stored for row `cy` of a block: a `memcpy`, or a loop over the pixels. -/
def rowBytes (pixelSize : GLsizei) (block : Nat → UInt8) (cy xEnd : Nat) : List UInt8 :=
  let q := cy * 4 * 3
  if pixelSize = 3 then (List.range (xEnd * 3)).map fun i => block (q + i)
  else (List.range xEnd).flatMap fun cx =>
    pixelBytes pixelSize ⟨block (q + 3 * cx), block (q + 3 * cx + 1), block (q + 3 * cx + 2)⟩

/-- The bytes that were read, the memory of the block, and the stores to the image. -/
structure DecodeState where
  pIn : Nat
  block : Nat → UInt8
  stores : List (Nat × List UInt8)

section Decode

variable (data : Nat → UInt8) (width height pixelSize stride : GLsizei)

/-- Where row `cy` of a block begins in the image. -/
def rowOffset (by_ bx cy : Nat) : Nat :=
  pixelSize.toNat * (4 * bx) % 2 ^ 32 + stride.toNat * (4 * by_ + cy) % 2 ^ 32

/-- A turn of both loops, for `x = 4 * bx` and `y = 4 * by_`. -/
def decodeTurn (by_ : Nat) (s : DecodeState) (bx : Nat) : DecodeState :=
  let yEnd := min (height.toNat - 4 * by_) 4
  let xEnd := min (width.toNat - 4 * bx) 4
  let block := etc1_decode_block (fun i => data (s.pIn + i)) s.block
  { pIn := s.pIn + 8
    block
    stores := s.stores ++ (List.range yEnd).map fun cy =>
      (rowOffset pixelSize stride by_ bx cy, rowBytes pixelSize block cy xEnd) }

/-- The result, with what was read and stored; `block` is the memory of the block at the start. -/
def etc1_decode_image (block : Nat → UInt8) : Int × DecodeState :=
  if pixelSize < 2 ∨ pixelSize > 3 then (-1, ⟨0, block, []⟩)
  else
    (0, (List.range ((roundToBlock height).toNat / 4)).foldl (fun s by_ =>
      (List.range ((roundToBlock width).toNat / 4)).foldl
        (decodeTurn data width height pixelSize stride by_) s) ⟨0, block, []⟩)

end Decode

/-! ## What is stored -/

/-- The stored bytes with their offsets. -/
def DecodeState.bytes (s : DecodeState) : List (UInt8 × Nat) :=
  s.stores.flatMap fun store => store.2.zipIdx store.1

def blockTexel (data : Nat → UInt8) (pIn i : Nat) : RGB UInt8 :=
  texelAt (etc1_decode_block (fun k => data (pIn + k)) fun _ => 0) i

/-- The texel of a pixel, in its block; the blocks are in row order. -/
def imageTexel (data : Nat → UInt8) (width : GLsizei) (x y : Nat) : RGB UInt8 :=
  blockTexel data (8 * (y / 4 * ((roundToBlock width).toNat / 4) + x / 4)) (x % 4 + 4 * (y % 4))

theorem wordAt_lt (p : Nat → UInt8) (i : Nat) : wordAt p i < 2 ^ 32 := by
  have h₀ := (p i).toNat_lt
  have h₁ := (p (i + 1)).toNat_lt
  have h₂ := (p (i + 2)).toNat_lt
  have h₃ := (p (i + 3)).toNat_lt
  rw [wordAt_eq]
  omega

/-- A decoded block does not depend on what its memory held. -/
theorem texelAt_decode_congr (pIn pOut pOut' : Nat → UInt8) {i : Nat} (hi : i < 16) :
    texelAt (etc1_decode_block pIn pOut) i = texelAt (etc1_decode_block pIn pOut') i := by
  have hunpacks : Unpacks (wordAt pIn 0) _ _ _ _ := ⟨wordAt_lt pIn 0, rfl, rfl, rfl, rfl⟩
  rw [texelAt_etc1_decode_block pIn pOut hunpacks hi,
    texelAt_etc1_decode_block pIn pOut' hunpacks hi]

theorem length_pixelBytes {pixelSize : GLsizei} (hsize : pixelSize = 2 ∨ pixelSize = 3)
    (c : RGB UInt8) : (pixelBytes pixelSize c).length = pixelSize.toNat := by
  obtain rfl | rfl := hsize <;> rfl

theorem rowBytes_eq (pixelSize : GLsizei) (block : Nat → UInt8) (cy xEnd : Nat) :
    rowBytes pixelSize block cy xEnd =
      (List.range xEnd).flatMap fun cx => pixelBytes pixelSize (texelAt block (cx + 4 * cy)) := by
  have hplace : ∀ cx, cy * 4 * 3 + 3 * cx = 3 * (cx + 4 * cy) := by omega
  rw [rowBytes]
  by_cases hsize : pixelSize = 3
  · rw [if_pos hsize]
    induction xEnd with
    | zero => rfl
    | succ xEnd ih =>
        have hrange : List.range ((xEnd + 1) * 3) =
            List.range (xEnd * 3) ++ [xEnd * 3, xEnd * 3 + 1, xEnd * 3 + 2] := by
          rw [Nat.succ_mul, List.range_add]
          rfl
        rw [hrange, List.map_append, ih, List.range_succ, List.flatMap_append,
          List.flatMap_singleton, pixelBytes, if_pos hsize, texelAt, ← hplace, Nat.mul_comm xEnd 3]
        rfl
  · rw [if_neg hsize]
    congr 1
    funext cx
    rw [hplace]
    rfl

section Stores

variable (data : Nat → UInt8) (width height pixelSize stride : GLsizei)

def blockStores (by_ bx : Nat) : List (Nat × List UInt8) :=
  (List.range (min (height.toNat - 4 * by_) 4)).map fun cy =>
    (rowOffset pixelSize stride by_ bx cy,
      (List.range (min (width.toNat - 4 * bx) 4)).flatMap fun cx =>
        pixelBytes pixelSize (imageTexel data width (4 * bx + cx) (4 * by_ + cy)))

variable {data width height pixelSize stride}

theorem decodeTurn_pIn (by_ bx : Nat) (s : DecodeState) :
    (decodeTurn data width height pixelSize stride by_ s bx).pIn = s.pIn + 8 := by
  rw [decodeTurn]

theorem decodeTurn_stores {by_ bx : Nat} {s : DecodeState}
    (hpIn : s.pIn = 8 * (by_ * ((roundToBlock width).toNat / 4) + bx)) :
    (decodeTurn data width height pixelSize stride by_ s bx).stores =
      s.stores ++ blockStores data width height pixelSize stride by_ bx := by
  rw [decodeTurn, blockStores]
  apply congrArg (s.stores ++ ·)
  apply List.map_congr_left
  intro cy hcy
  rw [rowBytes_eq]
  apply congrArg (Prod.mk _)
  apply List.flatMap_congr
  intro cx hcx
  rw [List.mem_range] at hcy hcx
  have hx : (4 * bx + cx) / 4 = bx ∧ (4 * bx + cx) % 4 = cx := by omega
  have hy : (4 * by_ + cy) / 4 = by_ ∧ (4 * by_ + cy) % 4 = cy := by omega
  rw [imageTexel, hx.1, hx.2, hy.1, hy.2, ← hpIn, blockTexel,
    texelAt_decode_congr _ s.block (fun _ => 0) (by omega)]

/-- The blocks of a row of blocks. -/
theorem decodeRow_spec (by_ n : Nat) {s : DecodeState}
    (hpIn : s.pIn = 8 * (by_ * ((roundToBlock width).toNat / 4))) :
    ((List.range n).foldl (decodeTurn data width height pixelSize stride by_) s).pIn =
        s.pIn + 8 * n ∧
      ((List.range n).foldl (decodeTurn data width height pixelSize stride by_) s).stores =
        s.stores ++ (List.range n).flatMap
          (blockStores data width height pixelSize stride by_) := by
  induction n with
  | zero => simp
  | succ n ih =>
      obtain ⟨hread, hstores⟩ := ih
      rw [List.range_succ, List.foldl_append, List.foldl_cons, List.foldl_nil, decodeTurn_pIn,
        decodeTurn_stores (by omega), hread, hstores, List.flatMap_append, List.flatMap_singleton,
        List.append_assoc]
      exact ⟨by omega, rfl⟩

theorem decodeRows_spec (n : Nat) (block : Nat → UInt8) :
    ((List.range n).foldl (fun s by_ => (List.range ((roundToBlock width).toNat / 4)).foldl
        (decodeTurn data width height pixelSize stride by_) s) ⟨0, block, []⟩).pIn =
        8 * (n * ((roundToBlock width).toNat / 4)) ∧
      ((List.range n).foldl (fun s by_ => (List.range ((roundToBlock width).toNat / 4)).foldl
        (decodeTurn data width height pixelSize stride by_) s) ⟨0, block, []⟩).stores =
        (List.range n).flatMap fun by_ => (List.range ((roundToBlock width).toNat / 4)).flatMap
          (blockStores data width height pixelSize stride by_) := by
  induction n with
  | zero => simp
  | succ n ih =>
      obtain ⟨hread, hstores⟩ := ih
      have hrow := @decodeRow_spec data width height pixelSize stride n
        ((roundToBlock width).toNat / 4) _ hread
      rw [List.range_succ, List.foldl_append, List.foldl_cons, List.foldl_nil, hrow.1, hrow.2,
        hread, hstores, List.flatMap_append, List.flatMap_singleton,
        show (n + 1) * _ = n * _ + _ from Nat.succ_mul n _]
      exact ⟨by omega, rfl⟩

/-- With three bytes a pixel, these are the rows that a compressed texture is stored with. -/
theorem stores_eq_etc1Rows (block : Nat → UInt8) :
    (etc1_decode_image data width height 3 stride block).2.stores =
      etc1Rows (fun pIn => etc1_decode_block pIn fun _ => 0) data width height stride := by
  rw [etc1_decode_image, if_neg (by decide)]
  apply (decodeRows_spec _ block).2.trans
  apply List.flatMap_congr
  intro by_ _
  apply List.flatMap_congr
  intro bx _
  apply List.map_congr_left
  intro cy hcy
  rw [List.mem_range] at hcy
  apply congrArg (Prod.mk _)
  have hrow := rowBytes_eq 3
    (etc1_decode_block (blockAt data width by_ bx) fun _ => 0) cy (min (width.toNat - 4 * bx) 4)
  rw [rowBytes, if_pos rfl, Nat.mul_assoc cy, Nat.mul_comm cy, Nat.mul_comm (min _ _)] at hrow
  apply Eq.trans _ hrow.symm
  apply List.flatMap_congr
  intro cx hcx
  rw [List.mem_range] at hcx
  have hx : (4 * bx + cx) / 4 = bx ∧ (4 * bx + cx) % 4 = cx := by omega
  have hy : (4 * by_ + cy) / 4 = by_ ∧ (4 * by_ + cy) % 4 = cy := by omega
  rw [imageTexel, hx.1, hx.2, hy.1, hy.2]
  rfl

end Stores

/-! ## The bytes of the image -/

/-- A list of parts has no duplicates if each element says to which part it belongs. -/
theorem nodup_flatMap_of_key {α β : Type} {l : List α} {f : α → List β} (key : β → α)
    (hl : l.Nodup) (hf : ∀ a ∈ l, (f a).Nodup) (hkey : ∀ a ∈ l, ∀ b ∈ f a, key b = a) :
    (l.flatMap f).Nodup := by
  apply List.nodup_flatMap.mpr ⟨hf, ?_⟩
  apply List.Pairwise.imp_of_mem _ hl
  intro a a' ha ha' hne b hb hb'
  grind

/-- No size of the image leaves an `etc1_uint32`. -/
structure NoWrap (width height stride : GLsizei) : Prop where
  columns : width.toNat + 3 < 2 ^ 32
  lines : height.toNat + 3 < 2 ^ 32
  encoded : (roundToBlock width).toNat * (roundToBlock height).toNat < 2 ^ 32
  rows : ∀ y < height.toNat, stride.toNat * y < 2 ^ 32

section Bytes

variable {data : Nat → UInt8} {width height pixelSize stride : GLsizei}

theorem roundToBlock_div {n : GLsizei} (hn : n.toNat + 3 < 2 ^ 32) :
    (roundToBlock n).toNat / 4 = (n.toNat + 3) / 4 := by
  rw [roundToBlock_mod, Nat.mod_eq_of_lt hn]
  omega

theorem length_rowPixels (hsize : pixelSize = 2 ∨ pixelSize = 3) (c : Nat → RGB UInt8) (n : Nat) :
    ((List.range n).flatMap fun cx => pixelBytes pixelSize (c cx)).length =
      pixelSize.toNat * n := by
  induction n with
  | zero => rfl
  | succ n ih =>
      rw [List.range_succ, List.flatMap_append, List.length_append, ih, List.flatMap_singleton,
        length_pixelBytes hsize, Nat.mul_succ]

theorem rowPixels_getElem? (hsize : pixelSize = 2 ∨ pixelSize = 3) (c : Nat → RGB UInt8)
    {n cx k : Nat} (hcx : cx < n) (hk : k < pixelSize.toNat) :
    ((List.range n).flatMap fun cx => pixelBytes pixelSize (c cx))[pixelSize.toNat * cx + k]? =
      (pixelBytes pixelSize (c cx))[k]? := by
  induction n with
  | zero => exact absurd hcx (Nat.not_lt_zero cx)
  | succ n ih =>
      have hlength := length_rowPixels hsize c n
      rw [List.range_succ, List.flatMap_append, List.flatMap_singleton]
      by_cases hlast : cx = n
      · subst hlast
        rw [List.getElem?_append_right (by omega), hlength, Nat.add_sub_cancel_left]
      · grind

/-- Blocks lie inside the rows of the image. -/
theorem rowOffset_eq (hstride : pixelSize.toNat * width.toNat ≤ stride.toNat)
    (h : NoWrap width height stride) {by_ bx cy : Nat} (hbx : 4 * bx < width.toNat)
    (hy : 4 * by_ + cy < height.toNat) :
    rowOffset pixelSize stride by_ bx cy =
      stride.toNat * (4 * by_ + cy) + pixelSize.toNat * (4 * bx) := by
  have hx : pixelSize.toNat * (4 * bx) ≤ pixelSize.toNat * width.toNat :=
    Nat.mul_le_mul_left _ (Nat.le_of_lt hbx)
  have hlt := stride.isLt
  rw [rowOffset, Nat.mod_eq_of_lt (by omega), Nat.mod_eq_of_lt (h.rows _ hy), Nat.add_comm]

structure DecodesImage (data : Nat → UInt8) (width height pixelSize stride : GLsizei)
    (s : DecodeState) : Prop where
  consumed : s.pIn = (etc1_get_encoded_data_size width height).toNat
  once : (s.bytes.map Prod.snd).Nodup
  pixel : ∀ x < width.toNat, ∀ y < height.toNat, ∀ k < pixelSize.toNat, ∀ b,
    (pixelBytes pixelSize (imageTexel data width x y))[k]? = some b →
      (b, stride.toNat * y + pixelSize.toNat * x + k) ∈ s.bytes
  inside : ∀ w ∈ s.bytes, ∃ y < height.toNat, ∃ i < pixelSize.toNat * width.toNat,
    w.2 = stride.toNat * y + i

def imageBytes (data : Nat → UInt8) (width height pixelSize stride : GLsizei) :
    List (UInt8 × Nat) :=
  (List.range ((height.toNat + 3) / 4)).flatMap fun by_ =>
    (List.range ((width.toNat + 3) / 4)).flatMap fun bx =>
      (List.range (min (height.toNat - 4 * by_) 4)).flatMap fun cy =>
        ((List.range (min (width.toNat - 4 * bx) 4)).flatMap fun cx =>
          pixelBytes pixelSize (imageTexel data width (4 * bx + cx) (4 * by_ + cy))).zipIdx
            (stride.toNat * (4 * by_ + cy) + pixelSize.toNat * (4 * bx))

theorem bytes_eq (hstride : pixelSize.toNat * width.toNat ≤ stride.toNat)
    (h : NoWrap width height stride) {s : DecodeState}
    (hstores : s.stores = (List.range ((roundToBlock height).toNat / 4)).flatMap fun by_ =>
      (List.range ((roundToBlock width).toNat / 4)).flatMap
        (blockStores data width height pixelSize stride by_)) :
    s.bytes = imageBytes data width height pixelSize stride := by
  rw [DecodeState.bytes, hstores, imageBytes, roundToBlock_div h.columns,
    roundToBlock_div h.lines]
  simp only [List.flatMap_assoc, blockStores, List.flatMap_map]
  apply List.flatMap_congr
  intro by_ hby
  apply List.flatMap_congr
  intro bx hbx
  apply List.flatMap_congr
  intro cy hcy
  rw [List.mem_range] at hby hbx hcy
  rw [rowOffset_eq hstride h (by omega) (by omega)]

/-- A stored byte, with the block, the row and the place in the row of the block. -/
theorem mem_imageBytes (hsize : pixelSize = 2 ∨ pixelSize = 3) {w : UInt8 × Nat} :
    w ∈ imageBytes data width height pixelSize stride ↔
      ∃ by_ < (height.toNat + 3) / 4, ∃ bx < (width.toNat + 3) / 4,
        ∃ cy < min (height.toNat - 4 * by_) 4,
        ∃ i < pixelSize.toNat * min (width.toNat - 4 * bx) 4,
          w.2 = stride.toNat * (4 * by_ + cy) + pixelSize.toNat * (4 * bx) + i ∧
          ((List.range (min (width.toNat - 4 * bx) 4)).flatMap fun cx =>
            pixelBytes pixelSize (imageTexel data width (4 * bx + cx) (4 * by_ + cy)))[i]? =
              some w.1 := by
  simp only [imageBytes, List.mem_flatMap, List.mem_range, List.mem_zipIdx_iff_le_and_getElem?_sub]
  constructor
  · rintro ⟨by_, hby, bx, hbx, cy, hcy, hle, hget⟩
    obtain ⟨hlt, -⟩ := List.getElem?_eq_some_iff.mp hget
    rw [length_rowPixels hsize] at hlt
    exact ⟨by_, hby, bx, hbx, cy, hcy, _, hlt, by omega, hget⟩
  · rintro ⟨by_, hby, bx, hbx, cy, hcy, i, hi, hoffset, hget⟩
    refine ⟨by_, hby, bx, hbx, cy, hcy, by omega, ?_⟩
    rw [hoffset, Nat.add_sub_cancel_left]
    exact hget

/-- A place in a row of a block lies in the row of the image. -/
theorem place_lt {bx i : Nat} (hi : i < pixelSize.toNat * min (width.toNat - 4 * bx) 4) :
    pixelSize.toNat * (4 * bx) + i < pixelSize.toNat * width.toNat := by
  have hpos : 0 < min (width.toNat - 4 * bx) 4 := by grind
  have hle : pixelSize.toNat * (4 * bx + min (width.toNat - 4 * bx) 4) ≤
      pixelSize.toNat * width.toNat := Nat.mul_le_mul_left _ (by omega)
  rw [Nat.mul_add] at hle
  omega

theorem once_imageBytes (hsize : pixelSize = 2 ∨ pixelSize = 3)
    (hstride : pixelSize.toNat * width.toNat ≤ stride.toNat) :
    ((imageBytes data width height pixelSize stride).map Prod.snd).Nodup := by
  have hpos : 0 < pixelSize.toNat := by
    obtain rfl | rfl := hsize <;> decide
  -- A stored offset says which row and which column it belongs to.
  have hplace : ∀ by_ bx cy o, o ∈ (((List.range (min (width.toNat - 4 * bx) 4)).flatMap fun cx =>
      pixelBytes pixelSize (imageTexel data width (4 * bx + cx) (4 * by_ + cy))).zipIdx
        (stride.toNat * (4 * by_ + cy) + pixelSize.toNat * (4 * bx))).map Prod.snd →
      o / stride.toNat = 4 * by_ + cy ∧ o % stride.toNat / pixelSize.toNat / 4 = bx := by
    intro by_ bx cy o ho
    rw [List.zipIdx_map_snd, length_rowPixels hsize, List.mem_range'_1] at ho
    obtain ⟨i, rfl⟩ := Nat.exists_eq_add_of_le ho.1
    have hi : i < pixelSize.toNat * min (width.toNat - 4 * bx) 4 := by omega
    have hrow := place_lt hi
    obtain ⟨hdiv, hmod⟩ := div_mod_row (y := 4 * by_ + cy) (Nat.lt_of_lt_of_le hrow hstride)
    rw [Nat.add_assoc, hdiv, hmod]
    have hcolumn : i < pixelSize.toNat * 4 :=
      Nat.lt_of_lt_of_le hi (Nat.mul_le_mul_left _ (Nat.min_le_right _ _))
    grind [Nat.mul_add_div]
  simp only [imageBytes, List.map_flatMap]
  apply nodup_flatMap_of_key (fun o => o / stride.toNat / 4) List.nodup_range
  · intro by_ _
    apply nodup_flatMap_of_key (fun o => o % stride.toNat / pixelSize.toNat / 4) List.nodup_range
    · intro bx _
      apply nodup_flatMap_of_key (fun o => o / stride.toNat - 4 * by_) List.nodup_range
      · intro cy _
        rw [List.zipIdx_map_snd]
        exact List.nodup_range'
      · intro cy _ o ho
        have := hplace by_ bx cy o ho
        omega
    · grind
  · intro by_ _ o ho
    obtain ⟨bx, -, ho⟩ := List.mem_flatMap.mp ho
    obtain ⟨cy, hcy, ho⟩ := List.mem_flatMap.mp ho
    rw [List.mem_range] at hcy
    have := hplace by_ bx cy o ho
    omega

theorem pixel_imageBytes (hsize : pixelSize = 2 ∨ pixelSize = 3) {x y k : Nat}
    (hx : x < width.toNat) (hy : y < height.toNat) (hk : k < pixelSize.toNat) {b : UInt8}
    (hb : (pixelBytes pixelSize (imageTexel data width x y))[k]? = some b) :
    (b, stride.toNat * y + pixelSize.toNat * x + k) ∈
      imageBytes data width height pixelSize stride := by
  have hxsplit : 4 * (x / 4) + x % 4 = x := Nat.div_add_mod x 4
  have hysplit : 4 * (y / 4) + y % 4 = y := Nat.div_add_mod y 4
  have hcx : x % 4 < min (width.toNat - 4 * (x / 4)) 4 := by omega
  have hnext : pixelSize.toNat * (x % 4 + 1) ≤
      pixelSize.toNat * min (width.toNat - 4 * (x / 4)) 4 := Nat.mul_le_mul_left _ hcx
  apply (mem_imageBytes hsize).mpr ⟨y / 4, by omega, x / 4, by omega, y % 4, by omega,
    pixelSize.toNat * (x % 4) + k, ?_, ?_, ?_⟩
  · grind
  · grind
  · rw [rowPixels_getElem? hsize _ hcx hk, hxsplit, hysplit]
    exact hb

/-- Every image is decoded block by block: all its bytes are read, and all its pixels stored. -/
theorem etc1_decode_image_decodes (data : Nat → UInt8) (block : Nat → UInt8)
    (hsize : pixelSize = 2 ∨ pixelSize = 3)
    (hstride : pixelSize.toNat * width.toNat ≤ stride.toNat) (h : NoWrap width height stride) :
    (etc1_decode_image data width height pixelSize stride block).1 = 0 ∧
      DecodesImage data width height pixelSize stride
        (etc1_decode_image data width height pixelSize stride block).2 := by
  have hvalid : ¬(pixelSize < 2 ∨ pixelSize > 3) := by
    obtain rfl | rfl := hsize <;> decide
  obtain ⟨hread, hstores⟩ := @decodeRows_spec data width height pixelSize stride
    ((roundToBlock height).toNat / 4) block
  have hbytes := bytes_eq hstride h hstores
  rw [etc1_decode_image, if_neg hvalid]
  refine ⟨rfl, ?_, ?_, ?_, ?_⟩
  · have hencoded := encodedSize_eq width height
    rw [encodedSize] at hencoded
    rw [etc1_get_encoded_data_size, BitVec.toNat_ushiftRight, BitVec.toNat_mul,
      Nat.mod_eq_of_lt h.encoded, Nat.shiftRight_eq_div_pow, Nat.pow_one, hencoded]
    exact hread
  · rw [hbytes]
    exact once_imageBytes hsize hstride
  · intro x hx y hy k hk b hb
    rw [hbytes]
    exact pixel_imageBytes hsize hx hy hk hb
  · intro w hw
    rw [hbytes] at hw
    obtain ⟨by_, hby, bx, hbx, cy, hcy, i, hi, hoffset, -⟩ := (mem_imageBytes hsize).mp hw
    refine ⟨4 * by_ + cy, by omega, pixelSize.toNat * (4 * bx) + i, place_lt hi, ?_⟩
    rw [hoffset, Nat.add_assoc]

/-- An image of two blocks, both cut off, with packed pixels and a gap behind each row. -/
theorem decodes_packed :
    (etc1_decode_image UInt8.ofNat 5 3 2 12 fun _ => 0).1 = 0 ∧
      DecodesImage UInt8.ofNat 5 3 2 12 (etc1_decode_image UInt8.ofNat 5 3 2 12 fun _ => 0).2 := by
  apply etc1_decode_image_decodes _ _ (.inl rfl) (by decide)
  constructor
  · decide
  · decide
  · decide
  · decide

end Bytes

end AndroidRenderer.Translator.Etc1
