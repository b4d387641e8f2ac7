import AndroidRenderer.Gralloc.Calls
import AndroidRenderer.OpenglCodecCommon.PixelData
import Mathlib.Tactic.Linarith
import Mathlib.Tactic.Positivity
import Mathlib.Tactic.Ring

/-!
# Images in the memory of the guest

A buffer with software access has its image in an ashmem region, behind the post counter if it
can be posted. `gralloc_alloc` computes the size of the region in 32 bits, and `gralloc_unlock`
computes the rows of the locked rectangle again, from the width of the buffer.
-/

namespace AndroidRenderer.Gralloc

/-! ## The handle that is made -/

/-- What a handle has from its constructor and keeps in `gralloc_alloc`. -/
def cb_handle_t.made (cb : cb_handle_t) : cb_handle_t :=
  { cb with ashmemBase := 0, ashmemBasePid := 0, hostHandle := 0, numFds := 0, numInts := 0 }

/-- The bytes of the region that `ashmem_create_region` has been asked for, a `size_t`. -/
def cb_handle_t.regionBytes (cb : cb_handle_t) : Int :=
  if cb.fd < 0 then 0 else cb.ashmemSize % 2 ^ 32

namespace Process

variable {p : Process} {w h format : Int} {usage : Usage} {l : PixelLayout}
  {ashmem mmap : Except Errno Nat} {host : Option UInt32}

def made (p : Process) : List cb_handle_t := p.handles.map cb_handle_t.made

@[simp] theorem made_modifyHandle {f : cb_handle_t → cb_handle_t} (p : Process) (h : HandleId)
    (hf : ∀ cb, (f cb).made = cb.made) : (p.modifyHandle h f).made = p.made := by
  apply List.ext_getElem?
  intro i
  rw [made, made, List.getElem?_map, modifyHandle_getElem?, Option.map_map, List.getElem?_map]
  grind

theorem made_allocColorBuffer (p : Process) (h : HandleId) (fd : Int) :
    (p.allocColorBuffer h fd usage host).1.made = p.made := by
  unfold allocColorBuffer
  split
  · split
    · rfl
    · split
      · rfl
      · exact made_modifyHandle _ _ fun _ => rfl
  · rfl

theorem made_allocHandle (p : Process) (cb : cb_handle_t) :
    (p.allocHandle cb mmap host).1.made = p.made ++ [cb.made] := by
  have hnew : (p.newHandle cb).made = p.made ++ [cb.made] := by simp [made, newHandle]
  unfold allocHandle
  dsimp only
  split
  · rcases (p.newHandle cb).map_buffer_cases p.handles.length cb mmap with
      ⟨err, hmap, -, -⟩ | ⟨addr, -, -, -, hmap⟩
    · rw [hmap]
      exact hnew
    · rw [hmap]
      refine (made_allocColorBuffer _ _ _).trans ?_
      refine Eq.trans (made_modifyHandle _ _ ?_) (Eq.trans (made_modifyHandle _ _ ?_) hnew)
      · exact fun _ => rfl
      · exact fun _ => rfl
  · rw [made_allocColorBuffer]
    exact hnew

/-- The handle of a successful `gralloc_alloc`; it has a descriptor where it has a region. -/
theorem gralloc_alloc_makes (hl : pixelLayout format usage = some l)
    (hr : (p.gralloc_alloc true w h format usage ashmem mmap host).2 = 0) :
    ∃ cb fd, (p.gralloc_alloc true w h format usage ashmem mmap host).1.handles[p.handles.length]? =
        some cb ∧ (fd < 0 ↔ ¬0 < ashmemSize l w h usage) ∧ cb.made = (cb_handle_t.new fd
          (regionSize w h format usage) usage w h l.glFormat l.glType).made := by
  have hlast : ∀ (q : Process) (cb : cb_handle_t), q.handles = p.handles →
      ∃ cb', (q.allocHandle cb mmap host).1.handles[p.handles.length]? = some cb' ∧
        cb'.made = cb.made := by
    intro q cb hq
    have hget := congrArg (·[p.handles.length]?) (@made_allocHandle mmap host q cb)
    simp only [made, hq, List.getElem?_map] at hget
    rw [List.getElem?_append_right (by simp)] at hget
    simpa using hget
  have hregion : regionSize w h format usage = if 0 < ashmemSize l w h usage then
      roundToPage (ashmemSize l w h usage) else ashmemSize l w h usage := by
    rw [regionSize, hl]
    rfl
  revert hr
  unfold gralloc_alloc
  rw [hl, hregion]
  dsimp only
  split
  · rintro ⟨⟩
  · split
    · intro hr
      exact absurd hr (Int.ne_of_lt neg_EINVAL)
    · by_cases hpos : 0 < ashmemSize l w h usage
      · simp only [if_pos hpos]
        cases ashmem with
        | error errno =>
            intro hr
            exact absurd hr (Int.ne_of_lt (neg_errno errno))
        | ok fd =>
            intro _
            obtain ⟨cb, hcb, hmade⟩ := hlast (p.openFd fd) _ rfl
            exact ⟨cb, fd, hcb, iff_of_false (by omega) (by simpa using hpos), hmade⟩
      · simp only [if_neg hpos]
        intro _
        obtain ⟨cb, hcb, hmade⟩ := hlast p _ rfl
        exact ⟨cb, -1, hcb, iff_of_true (by decide) hpos, hmade⟩

/-! ## The size of the region -/

/-- The bytes before the image. -/
def postCounter (usage : Usage) : Int := if usage.HW_FB then 4 else 0

/-- The bytes of the post counter and the image, with the stride that is returned. -/
def imageBytes (l : PixelLayout) (w h : Int) (usage : Usage) : Int :=
  postCounter usage + stride l w usage * l.bpp * h

theorem layout_cases (hl : pixelLayout format usage = some l) :
    (l.align = 1 ∧ (l.bpp = 2 ∨ l.bpp = 3 ∨ l.bpp = 4) ∨ l.align = 32 ∧ l.bpp = 2) ∧
      (glUtilsPixelBitSize l.glFormat l.glType : Int) = 8 * l.bpp := by
  unfold pixelLayout at hl
  split_ifs at hl <;> cases Option.some.inj hl <;> decide

theorem bytesPerRow_bounds (l : PixelLayout) (w : Int) :
    0 ≤ bytesPerRow l w ∧ bytesPerRow l w < 2 ^ 32 := by
  unfold bytesPerRow
  dsimp only
  omega

/-- The bytes of a row are whole pixels, but where those of three bytes have wrapped. -/
theorem stride_mul {format : Int} {usage : Usage} {l : PixelLayout} {w : Int}
    (hl : pixelLayout format usage = some l) (hsw : (usage.SW_READ || usage.SW_WRITE) = true) :
    ∃ r, stride l w usage * l.bpp = bytesPerRow l w - r ∧ 0 ≤ stride l w usage ∧
      0 ≤ r ∧ r ≤ 2 ∧ (r ≠ 0 → l.bpp = 3) := by
  have hB := bytesPerRow_bounds l w
  have hbytes : bytesPerRow l w = (GLint (w * l.bpp + (l.align - 1)) -
      GLint (w * l.bpp + (l.align - 1)) % l.align) % 2 ^ 32 := rfl
  rw [stride, if_pos hsw]
  obtain ⟨⟨halign, hbpp⟩ | ⟨halign, hbpp⟩, -⟩ := layout_cases hl
  · rcases hbpp with hbpp | hbpp | hbpp <;>
      rw [halign, hbpp, GLint, Int.bmod_def] at hbytes <;>
      rw [hbpp, GLint_of_range (by omega) (by omega)]
    · exact ⟨0, by omega⟩
    · exact ⟨bytesPerRow l w % 3, by omega⟩
    · exact ⟨0, by omega⟩
  · rw [halign, hbpp, GLint, Int.bmod_def] at hbytes
    rw [hbpp, GLint_of_range (by omega) (by omega)]
    exact ⟨0, by omega⟩

/-- Where there is a region, it is the rounded size. -/
theorem roundToPage_mod {a : Int} (hpos : 0 < a) (hlt : a < 2 ^ 31) :
    a ≤ roundToPage a % 2 ^ 32 ∧ 4096 ≤ roundToPage a % 2 ^ 32 ∧ roundToPage a % 2 ^ 32 ≤ 2 ^ 31 ∧
      roundToPage a % 2 ^ 32 < a + 4096 := by
  simp only [roundToPage, PAGE_SIZE, GLint, Int.bmod_def]
  omega

/-- The region of a new buffer holds its image where the image is below 2 GiB and the size that
has been computed for it has not wrapped to 0 or less. -/
theorem region_holds_image_iff (hh : -2 ^ 31 ≤ h ∧ h < 2 ^ 31)
    (hl : pixelLayout format usage = some l) (hsw : (usage.SW_READ || usage.SW_WRITE) = true)
    (hr : (p.gralloc_alloc true w h format usage ashmem mmap host).2 = 0) :
    (∃ cb, (p.gralloc_alloc true w h format usage ashmem mmap host).1.handles[p.handles.length]? =
        some cb ∧ imageBytes l w h usage ≤ cb.regionBytes) ↔
      imageBytes l w h usage ≤ 0 ∨ imageBytes l w h usage < 2 ^ 31 ∧
        0 < GLint (postCounter usage + bytesPerRow l w * h) := by
  obtain ⟨cb, fd, hcb, hfd, hmade⟩ := gralloc_alloc_makes hl hr
  have hsize : ashmemSize l w h usage = GLint (postCounter usage + bytesPerRow l w * h) := by
    rw [ashmemSize, if_pos hsw]
    rfl
  have hregion : cb.regionBytes = if 0 < ashmemSize l w h usage then
      roundToPage (ashmemSize l w h usage) % 2 ^ 32 else 0 := by
    have hcbfd : cb.fd = fd := congrArg cb_handle_t.fd hmade
    have hcbsize : cb.ashmemSize = regionSize w h format usage :=
      congrArg cb_handle_t.ashmemSize hmade
    rw [cb_handle_t.regionBytes, hcbfd, hcbsize, regionSize, hl]
    grind
  obtain ⟨r, hmul, hstride, hr0, hr2, hbpp⟩ := stride_mul (w := w) hl hsw
  have hc : postCounter usage = 0 ∨ postCounter usage = 4 := by grind [postCounter]
  have hneed : imageBytes l w h usage = postCounter usage + (bytesPerRow l w - r) * h := by
    rw [imageBytes, hmul]
  have hsplit : bytesPerRow l w * h = (bytesPerRow l w - r) * h + r * h := by
    rw [← Int.add_mul, Int.sub_add_cancel]
  -- an image needs rows, and rows that have wrapped have a pixel of three bytes at least
  have hrows : 0 < (bytesPerRow l w - r) * h →
      0 < h ∧ (r ≠ 0 → 3 * h ≤ (bytesPerRow l w - r) * h) := by
    intro hX
    rw [← hmul] at hX ⊢
    have hbpp' : 0 ≤ l.bpp := by
      obtain ⟨⟨-, h⟩ | ⟨-, h⟩, -⟩ := layout_cases hl <;> omega
    have hpos : 0 < h := pos_of_mul_pos_right hX (mul_nonneg hstride hbpp')
    refine ⟨hpos, fun hne => ?_⟩
    rw [hbpp hne] at hX ⊢
    have hone : 0 < stride l w usage * 3 := pos_of_mul_pos_left hX hpos.le
    exact Int.mul_le_mul_of_nonneg_right (by omega) hpos.le
  have hR : 0 < h → 0 ≤ r * h ∧ r * h ≤ 2 * h := fun hpos =>
    ⟨by positivity, by nlinarith⟩
  have hR0 : r = 0 → r * h = 0 := by rintro rfl; simp
  have hbounds := GLint_bounds (postCounter usage + bytesPerRow l w * h)
  generalize ha : GLint (postCounter usage + bytesPerRow l w * h) = a at hsize hbounds ⊢
  rw [GLint, Int.bmod_def, hsplit] at ha
  constructor
  · rintro ⟨cb', hcb', hle⟩
    cases hcb.symm.trans hcb'
    rw [hregion, hsize] at hle
    rw [hneed] at hle ⊢
    split at hle
    · rename_i hpos
      have hround := roundToPage_mod hpos hbounds.2
      generalize roundToPage _ % 2 ^ 32 = round at hle hround
      generalize (bytesPerRow l w - r) * h = X at *
      generalize r * h = R at *
      omega
    · exact .inl hle
  · intro hcond
    refine ⟨cb, hcb, ?_⟩
    rw [hregion, hsize]
    rw [hneed] at hcond ⊢
    split
    · rename_i hpos
      have hround := roundToPage_mod hpos hbounds.2
      generalize roundToPage _ % 2 ^ 32 = round at hround
      generalize (bytesPerRow l w - r) * h = X at *
      generalize r * h = R at *
      omega
    · omega

theorem region_holds_image_small :
    ∃ cb, ((initial 1).gralloc_alloc true 2 3 HAL_PIXEL_FORMAT_RGB_888
        ⟨true, true, false, false, false, false⟩ (.ok 5) (.ok 4096) none).1.handles[0]? = some cb ∧
      imageBytes ⟨3, 1, GL_RGB, GL_UNSIGNED_BYTE⟩ 2 3 ⟨true, true, false, false, false, false⟩ ≤
        cb.regionBytes :=
  (region_holds_image_iff (p := initial 1) (by decide) rfl rfl rfl).mpr (by decide)

/-- An image of 4 GiB gets no region at all. -/
theorem region_without_image :
    ((initial 1).gralloc_alloc true 65536 16384 HAL_PIXEL_FORMAT_RGBA_8888
        ⟨true, true, false, false, false, false⟩ (.ok 5) (.ok 4096) none).2 = 0 ∧
      ¬∃ cb, ((initial 1).gralloc_alloc true 65536 16384 HAL_PIXEL_FORMAT_RGBA_8888
          ⟨true, true, false, false, false, false⟩ (.ok 5) (.ok 4096) none).1.handles[0]? =
            some cb ∧
        imageBytes ⟨4, 1, GL_RGBA, GL_UNSIGNED_BYTE⟩ 65536 16384
          ⟨true, true, false, false, false, false⟩ ≤ cb.regionBytes := by
  refine ⟨by decide, ?_⟩
  rintro ⟨cb, hcb, hle⟩
  cases hcb
  exact absurd hle (by decide)

/-! ## Uploads -/

/-- What `rcUpdateColorBuffer` sends. -/
structure ColorBufferUpdate where
  hostHandle : UInt32
  x : Int
  y : Int
  width : Int
  height : Int
  glFormat : GLenum
  glType : GLenum
  pixels : List UInt8
  deriving DecidableEq, Repr

/-- `n` bytes from an offset on. -/
def readBytes (mem : List UInt8) (off n : Int) : Except MemoryFault (List UInt8) :=
  if 0 ≤ off ∧ 0 ≤ n ∧ off + n ≤ mem.length then .ok ((mem.drop off.toNat).take n.toNat)
  else .error .outOfBounds

/-- The loop over the lines that copies them behind each other. -/
def copyLines (mem : List UInt8) (dst_line_len src_line_len : Int) :
    Nat → Int → Except MemoryFault (List UInt8)
  | 0, _ => .ok []
  | n + 1, src => do
      let line ← readBytes mem src dst_line_len
      return line ++ (← copyLines mem dst_line_len src_line_len n (src + src_line_len))

/-- The length of the pixels that the encoder sends, an `unsigned int`. -/
def updateLength (width height : Int) (format type : GLenum) : Int :=
  GLint (glUtilsPixelBitSize format type * width) / 8 * height % 2 ^ 32

/-- The bytes of the locked region that go to the host; `image` is the memory from `cpu_addr` on. -/
def lockedPixels (cb : cb_handle_t) (image : List UInt8) : Except MemoryFault ColorBufferUpdate :=
  if cb.lockedWidth < cb.width ∨ cb.lockedHeight < cb.height then do
    let bpp : Int := glUtilsPixelBitSize cb.glFormat cb.glType / 8
    let dst_line_len := GLint (cb.lockedWidth * bpp)
    let src_line_len := GLint (cb.width * bpp)
    let tmpBuf ← copyLines image dst_line_len src_line_len cb.lockedHeight.toNat
      (GLint (cb.lockedTop * src_line_len) + GLint (cb.lockedLeft * bpp))
    if tmpBuf.length ≤ GLint (cb.lockedWidth * cb.lockedHeight * bpp) then
      return ⟨cb.hostHandle, cb.lockedLeft, cb.lockedTop, cb.lockedWidth, cb.lockedHeight,
        cb.glFormat, cb.glType, ← readBytes tmpBuf 0
          (updateLength cb.lockedWidth cb.lockedHeight cb.glFormat cb.glType)⟩
    else .error .outOfBounds
  else
    return ⟨cb.hostHandle, 0, 0, cb.width, cb.height, cb.glFormat, cb.glType,
      ← readBytes image 0 (updateLength cb.width cb.height cb.glFormat cb.glType)⟩

/-- `gralloc_unlock` of a handle that is valid, with what it sends. -/
def unlock (cb : cb_handle_t) (connected : Bool) (image : List UInt8) :
    Except MemoryFault (cb_handle_t × Option ColorBufferUpdate × Int) :=
  if 0 < cb.lockedWidth ∧ 0 < cb.lockedHeight ∧ cb.hostHandle ≠ 0 then
    if !connected then .ok (cb, none, - EIO)
    else do
      let update ← lockedPixels cb image
      return ({ cb with lockedWidth := 0, lockedHeight := 0 }, some update, 0)
  else .ok ({ cb with lockedWidth := 0, lockedHeight := 0 }, none, 0)

theorem gralloc_unlock_of_unlock {i : HandleId} {cb cb' : cb_handle_t} {connected : Bool}
    {image : List UInt8} {sent : Option ColorBufferUpdate} {result : Int}
    (hcb : p.handle i = .ok cb) (hvalid : cb.validate = true)
    (haccess : p.access cb.ashmemBase = .ok ())
    (h : unlock cb connected image = .ok (cb', sent, result)) :
    ∃ p', p.gralloc_unlock (some i) connected = .ok (p', result) ∧ p'.handles[i]? = some cb' := by
  have hget := (handle_ok.mp hcb).1
  rw [gralloc_unlock, withHandle_some hcb hvalid]
  unfold unlock at h
  split at h
  · rw [if_pos ‹_›]
    split at h
    · cases h
      rw [if_pos ‹_›]
      exact ⟨p, rfl, hget⟩
    · obtain ⟨update, -, h⟩ := Run.bind_eq_ok.mp h
      cases h
      rw [if_neg ‹_›, haccess]
      exact ⟨_, rfl, by rw [dropLocked, modifyHandle_getElem?]; simp [send, hget]⟩
  · cases h
    rw [if_neg ‹_›]
    exact ⟨_, rfl, by rw [dropLocked, modifyHandle_getElem?, hget]; simp⟩

def rectanglePixels (image : List UInt8) (stride bpp : Int) (cb : cb_handle_t) :
    Except MemoryFault (List UInt8) :=
  copyLines image (cb.lockedWidth * bpp) (stride * bpp) cb.lockedHeight.toNat
    ((cb.lockedTop * stride + cb.lockedLeft) * bpp)

/-- The rectangle is sent, if it has pixels and the buffer is on the host, and no longer locked. -/
def Uploads (cb : cb_handle_t) (stride bpp : Int) (connected : Bool) (image : List UInt8) : Prop :=
  ∃ cb' sent, unlock cb connected image = .ok (cb', sent, 0) ∧
    cb'.lockedWidth = 0 ∧ cb'.lockedHeight = 0 ∧
    if 0 < cb.lockedWidth ∧ 0 < cb.lockedHeight ∧ cb.hostHandle ≠ 0 then
      ∃ pixels, rectanglePixels image stride bpp cb = .ok pixels ∧
        sent = some ⟨cb.hostHandle, cb.lockedLeft, cb.lockedTop, cb.lockedWidth, cb.lockedHeight,
          cb.glFormat, cb.glType, pixels⟩
    else sent = none

section Lines

variable {mem line : List UInt8} {off n d s o : Int}

theorem readBytes_ok : readBytes mem off n = .ok line ↔
    (0 ≤ off ∧ 0 ≤ n ∧ off + n ≤ mem.length) ∧ line = (mem.drop off.toNat).take n.toNat := by
  unfold readBytes
  split
  · rename_i h
    exact ⟨fun heq => ⟨h, (Except.ok.inj heq).symm⟩, fun heq => congrArg _ heq.2.symm⟩
  · rename_i h
    exact ⟨nofun, fun heq => absurd heq.1 h⟩

theorem readBytes_length (h : readBytes mem off n = .ok line) : (line.length : Int) = n := by
  obtain ⟨hin, rfl⟩ := readBytes_ok.mp h
  rw [List.length_take, List.length_drop]
  omega

theorem copyLines_succ_ok {k : Nat} {bytes : List UInt8} :
    copyLines mem d s (k + 1) o = .ok bytes ↔ ∃ line rest, readBytes mem o d = .ok line ∧
      copyLines mem d s k (o + s) = .ok rest ∧ bytes = line ++ rest := by
  rw [copyLines]
  constructor
  · intro h
    obtain ⟨line, hline, h⟩ := Run.bind_eq_ok.mp h
    obtain ⟨rest, hrest, h⟩ := Run.bind_eq_ok.mp h
    exact ⟨line, rest, hline, hrest, (Except.ok.inj h).symm⟩
  · rintro ⟨line, rest, hline, hrest, rfl⟩
    rw [hline]
    change (copyLines mem d s k (o + s)).bind _ = _
    rw [hrest]
    rfl

theorem copyLines_defined (hd : 0 ≤ d) (hs : 0 ≤ s) (k : Nat) (ho : 0 ≤ o)
    (hend : o + k * s + d ≤ mem.length) : ∃ bytes, copyLines mem d s (k + 1) o = .ok bytes := by
  have hks : 0 ≤ k * s := by positivity
  have hline := (@readBytes_ok mem _ o d).mpr ⟨⟨ho, hd, by omega⟩, rfl⟩
  induction k generalizing o with
  | zero => exact ⟨_, copyLines_succ_ok.mpr ⟨_, [], hline, rfl, rfl⟩⟩
  | succ k ih =>
      have hstep : ((k + 1 : Nat) : Int) * s = k * s + s := by
        rw [Int.natCast_add, Int.add_mul, Int.natCast_one, Int.one_mul]
      have hks' : 0 ≤ k * s := by positivity
      obtain ⟨rest, hrest⟩ := ih (o := o + s) (by omega) (by omega) hks'
        (readBytes_ok.mpr ⟨⟨by omega, hd, by omega⟩, rfl⟩)
      exact ⟨_, copyLines_succ_ok.mpr ⟨_, rest, hline, hrest, rfl⟩⟩

theorem copyLines_spec (hd : 0 < d) {k : Nat} {bytes : List UInt8}
    (h : copyLines mem d s k o = .ok bytes) :
    (bytes.length : Int) = d * k ∧ ∀ i < k, 0 ≤ o + i * s ∧ o + i * s + d ≤ mem.length ∧
      bytes[i * d.toNat]? = mem[(o + i * s).toNat]? := by
  induction k generalizing o bytes with
  | zero =>
      cases h
      simp
  | succ k ih =>
      obtain ⟨line, rest, hline, hrest, rfl⟩ := copyLines_succ_ok.mp h
      obtain ⟨hlen, hget⟩ := ih hrest
      obtain ⟨hin, rfl⟩ := readBytes_ok.mp hline
      have hlinelen : ((mem.drop o.toNat).take d.toNat).length = d.toNat := by
        rw [List.length_take, List.length_drop]
        omega
      refine ⟨?_, fun i hi => ?_⟩
      · rw [List.length_append, hlinelen, Int.natCast_add, hlen, Int.natCast_add, Int.mul_add]
        omega
      · cases i with
        | zero =>
            simp only [Nat.cast_zero, Int.zero_mul, Int.add_zero, Nat.zero_mul]
            refine ⟨hin.1, hin.2.2, ?_⟩
            rw [List.getElem?_append_left (by omega), List.getElem?_take_of_lt (by omega),
              List.getElem?_drop, Nat.add_zero]
        | succ i =>
            have hoff : o + ((i + 1 : Nat) : Int) * s = o + s + i * s := by
              rw [Int.natCast_add, Int.add_mul, Int.natCast_one, Int.one_mul]
              omega
            rw [hoff, Nat.succ_mul, List.getElem?_append_right (by omega), hlinelen,
              Nat.add_sub_cancel]
            exact hget i (by omega)

/-- Lines without gaps are a block. -/
theorem copyLines_tight (hd : 0 ≤ d) (ho : 0 ≤ o) (k : Nat) (hend : o + d * k ≤ mem.length) :
    copyLines mem d d k o = .ok ((mem.drop o.toNat).take (d * k).toNat) := by
  induction k generalizing o with
  | zero => simp [copyLines]
  | succ k ih =>
      rw [Int.natCast_add, Int.mul_add, Int.natCast_one, Int.mul_one] at hend ⊢
      have hdk : 0 ≤ d * k := by positivity
      refine copyLines_succ_ok.mpr ⟨_, _, readBytes_ok.mpr ⟨⟨ho, hd, by omega⟩, rfl⟩,
        ih (by omega) (by omega), ?_⟩
      rw [Int.add_comm (d * k), Int.toNat_add hd hdk, List.take_add, List.drop_drop,
        Int.toNat_add ho hd]

/-- Lines that have the same bytes whatever the memory holds are the same. -/
theorem copyLines_unique {N k : Nat} {s' o' : Int} (hd : 0 < d)
    (h : ∀ mem : List UInt8, mem.length = N → ∃ bytes,
      copyLines mem d s (k + 1) o = .ok bytes ∧ copyLines mem d s' (k + 1) o' = .ok bytes) :
    ∀ i < k + 1, o' + i * s' = o + i * s := by
  intro i hi
  obtain ⟨_, hzero, -⟩ := h (.replicate N 0) List.length_replicate
  obtain ⟨hlo, hhi, -⟩ := (copyLines_spec hd hzero).2 i hi
  rw [List.length_replicate] at hhi
  -- a memory with a mark where the line starts
  obtain ⟨bytes, hbytes, hbytes'⟩ :=
    h ((List.replicate N 0).set (o + i * s).toNat 1) (by simp)
  obtain ⟨-, -, hget⟩ := (copyLines_spec hd hbytes).2 i hi
  obtain ⟨hlo', -, hget'⟩ := (copyLines_spec hd hbytes').2 i hi
  have hmark : ((List.replicate N (0 : UInt8)).set (o + i * s).toNat 1)[(o' + i * s').toNat]? =
      some 1 := by
    rw [← hget', hget, List.getElem?_set_self (by simp; omega)]
  rw [List.getElem?_set] at hmark
  split at hmark
  · omega
  · rw [List.getElem?_replicate] at hmark
    split at hmark <;> simp at hmark

end Lines

/-- The encoder sends the bytes of the pixels where the bits of a line fit an `int`. -/
theorem updateLength_eq_iff {A n : Int} (hA : 0 < A) (hn : 0 < n) (hlt : A * n < 2 ^ 31) :
    GLint (8 * A) / 8 * n % 2 ^ 32 = A * n ↔ 8 * A < 2 ^ 31 := by
  constructor
  · intro h
    by_contra hwraps
    -- `k` is how often the bits of a line have wrapped
    obtain ⟨k, hk, hone, hle⟩ : ∃ k, GLint (8 * A) = 8 * A - 2 ^ 32 * k ∧ 1 ≤ k ∧ 2 ^ 28 * k ≤ A :=
      ⟨(8 * A + 2 ^ 31) / 2 ^ 32, by rw [GLint, Int.bmod_def]; omega⟩
    have hdiv : (8 * A - 2 ^ 32 * k) / 8 = A - 2 ^ 29 * k := by omega
    rw [hk, hdiv, Int.sub_mul, Int.mul_assoc] at h
    have hkn : 1 * 1 ≤ k * n := Int.mul_le_mul hone hn (by decide) (by omega)
    have hmul := Int.mul_le_mul_of_nonneg_right hle hn.le
    rw [Int.mul_assoc] at hmul
    generalize k * n = K at *
    generalize A * n = total at *
    omega
  · intro hbits
    have hdiv : 8 * A / 8 = A := by omega
    have hpos := Int.mul_pos hA hn
    rw [GLint_of_range (by omega) hbits, hdiv]
    exact Int.emod_eq_of_lt hpos.le (by omega)

/-- The bytes that hold the image, after the post counter. -/
def imageRoom (cb : cb_handle_t) (usage : Usage) : Nat :=
  (cb.ashmemSize - postCounter usage).toNat

def withLocked (cb : cb_handle_t) (left top width height : Int) : cb_handle_t :=
  { cb with lockedLeft := left, lockedTop := top, lockedWidth := width, lockedHeight := height }

/-- A locked rectangle of which `gralloc_unlock` finds the bytes: it lies in memory and its sizes
are not too large, and its lines are as far apart as the width makes them, or it is one line
for which this is no matter. -/
structure Findable (l : PixelLayout) (stride room w left top width height : Int) : Prop where
  inRoom : ((top + height - 1) * stride + left + width) * l.bpp ≤ room
  bits : 8 * (width * l.bpp) < 2 ^ 31
  bytes : width * l.bpp * height < 2 ^ 31
  lines : GLint (w * l.bpp) = stride * l.bpp ∨
    height = 1 ∧ (2 ^ 32 : Int) ∣ top * (GLint (w * l.bpp) - stride * l.bpp)

section Unlock

variable {cb : cb_handle_t} {image : List UInt8} {stride : Int}

/-- The locked rectangle is not empty and lies in the buffer of the handle. -/
structure InBuffer (cb : cb_handle_t) (l : PixelLayout) : Prop where
  left : 0 ≤ cb.lockedLeft
  top : 0 ≤ cb.lockedTop
  width : 0 < cb.lockedWidth
  height : 0 < cb.lockedHeight
  right : cb.lockedLeft + cb.lockedWidth ≤ cb.width
  bottom : cb.lockedTop + cb.lockedHeight ≤ cb.height
  bits : (glUtilsPixelBitSize cb.glFormat cb.glType : Int) = 8 * l.bpp

theorem InBuffer.updateLength (hin : InBuffer cb l) :
    updateLength cb.lockedWidth cb.lockedHeight cb.glFormat cb.glType =
      GLint (8 * (cb.lockedWidth * l.bpp)) / 8 * cb.lockedHeight % 2 ^ 32 := by
  rw [Process.updateLength, hin.bits, Int.mul_assoc, Int.mul_comm l.bpp]

theorem InBuffer.whole (hin : InBuffer cb l)
    (h : ¬(cb.lockedWidth < cb.width ∨ cb.lockedHeight < cb.height)) :
    cb.lockedLeft = 0 ∧ cb.lockedTop = 0 ∧ cb.width = cb.lockedWidth ∧
      cb.height = cb.lockedHeight := by
  obtain ⟨hleft, htop, -, -, hright, hbottom, -⟩ := hin
  omega

/-- As many bytes are sent as the rectangle has only where its sizes are not too large. -/
theorem lockedPixels_sizes (hin : InBuffer cb l) (hbpp : 0 < l.bpp)
    (hA : cb.lockedWidth * l.bpp < 2 ^ 31) (himage : (image.length : Int) < 2 ^ 31)
    {update : ColorBufferUpdate} (h : lockedPixels cb image = .ok update)
    (hlength : (update.pixels.length : Int) = cb.lockedWidth * l.bpp * cb.lockedHeight) :
    8 * (cb.lockedWidth * l.bpp) < 2 ^ 31 ∧ cb.lockedWidth * l.bpp * cb.lockedHeight < 2 ^ 31 := by
  have hpos : 0 < cb.lockedWidth * l.bpp := Int.mul_pos hin.width hbpp
  suffices hsent : cb.lockedWidth * l.bpp * cb.lockedHeight < 2 ^ 31 ∧
      (update.pixels.length : Int) =
        GLint (8 * (cb.lockedWidth * l.bpp)) / 8 * cb.lockedHeight % 2 ^ 32 from
    ⟨(updateLength_eq_iff hpos hin.height hsent.1).mp (hsent.2.symm.trans hlength), hsent.1⟩
  have hbits : (glUtilsPixelBitSize cb.glFormat cb.glType : Int) / 8 = l.bpp := by
    have := hin.bits
    omega
  unfold lockedPixels at h
  rw [← hin.updateLength]
  split at h
  · have hline := GLint_of_range (i := cb.lockedWidth * l.bpp) (by omega) hA
    simp only [hbits, hline] at h
    obtain ⟨tmpBuf, htmp, h⟩ := Run.bind_eq_ok.mp h
    split at h
    · obtain ⟨pixels, hpixels, h⟩ := Run.bind_eq_ok.mp h
      cases h
      obtain ⟨hlen, -⟩ := copyLines_spec hpos htmp
      have hbound := (GLint_bounds (cb.lockedWidth * cb.lockedHeight * l.bpp)).2
      have hheight := hin.height
      refine ⟨?_, readBytes_length hpixels⟩
      rw [Int.toNat_of_nonneg hheight.le] at hlen
      omega
    · cases h
  · obtain ⟨-, -, hwidth, hheight⟩ := hin.whole ‹_›
    obtain ⟨pixels, hpixels, h⟩ := Run.bind_eq_ok.mp h
    cases h
    rw [hwidth, hheight] at hpixels
    have hlen := readBytes_length hpixels
    have hle := (readBytes_ok.mp hpixels).1
    dsimp only at hlength ⊢
    omega

/-- The pixels that are sent, where the sizes of the rectangle are not too large. -/
theorem lockedPixels_eq (hin : InBuffer cb l) (hbpp : 0 < l.bpp)
    (hbits : 8 * (cb.lockedWidth * l.bpp) < 2 ^ 31)
    (hbytes : cb.lockedWidth * l.bpp * cb.lockedHeight < 2 ^ 31) (pixels : List UInt8) :
    lockedPixels cb image = .ok ⟨cb.hostHandle, cb.lockedLeft, cb.lockedTop, cb.lockedWidth,
      cb.lockedHeight, cb.glFormat, cb.glType, pixels⟩ ↔
      copyLines image (cb.lockedWidth * l.bpp) (GLint (cb.width * l.bpp)) cb.lockedHeight.toNat
        (GLint (cb.lockedTop * GLint (cb.width * l.bpp)) + GLint (cb.lockedLeft * l.bpp)) =
        .ok pixels := by
  have hpos : 0 < cb.lockedWidth * l.bpp := Int.mul_pos hin.width hbpp
  have htotal := Int.mul_pos hpos hin.height
  have hheight := Int.toNat_of_nonneg hin.height.le
  have hlength := hin.updateLength
  rw [(updateLength_eq_iff hpos hin.height hbytes).mpr hbits] at hlength
  have hbits' : (glUtilsPixelBitSize cb.glFormat cb.glType : Int) / 8 = l.bpp := by
    have := hin.bits
    omega
  have hA := GLint_of_range (i := cb.lockedWidth * l.bpp) (by omega) (by omega)
  unfold lockedPixels
  split
  · have htmpLength : GLint (cb.lockedWidth * cb.lockedHeight * l.bpp) =
        cb.lockedWidth * l.bpp * cb.lockedHeight := by
      rw [Int.mul_right_comm, GLint_of_range (by omega) hbytes]
    simp only [hbits', hA, hlength, htmpLength]
    constructor
    · intro h
      obtain ⟨tmpBuf, htmp, h⟩ := Run.bind_eq_ok.mp h
      have hlen := (copyLines_spec hpos htmp).1
      rw [hheight] at hlen
      rw [if_pos hlen.le] at h
      obtain ⟨pixels', hpixels, h⟩ := Run.bind_eq_ok.mp h
      cases h
      rw [htmp, (readBytes_ok.mp hpixels).2, ← hlen]
      simp
    · intro htmp
      have hlen := (copyLines_spec hpos htmp).1
      rw [hheight] at hlen
      have hwhole : readBytes pixels 0 (cb.lockedWidth * l.bpp * cb.lockedHeight) = .ok pixels :=
        readBytes_ok.mpr ⟨by omega, by rw [← hlen]; simp⟩
      rw [htmp]
      change (if _ then _ else _) = _
      rw [if_pos hlen.le, hwhole]
      rfl
  · obtain ⟨hleft, htop, hwidth, hheight'⟩ := hin.whole ‹_›
    have htight : copyLines image (cb.lockedWidth * l.bpp) (cb.lockedWidth * l.bpp)
        cb.lockedHeight.toNat 0 = .ok pixels ↔
        readBytes image 0 (cb.lockedWidth * l.bpp * cb.lockedHeight) = .ok pixels := by
      constructor
      · intro h
        have hlines := hin.height
        obtain ⟨hlen, hget⟩ := copyLines_spec hpos h
        have hlast := hget (cb.lockedHeight.toNat - 1) (by omega)
        have hend : cb.lockedWidth * l.bpp * cb.lockedHeight.toNat ≤ image.length := by
          obtain ⟨n, hn⟩ : ∃ n, cb.lockedHeight.toNat = n + 1 :=
            Nat.exists_eq_succ_of_ne_zero (by omega)
          rw [hn] at hlast ⊢
          rw [Int.natCast_add, Int.natCast_one, Int.mul_add, Int.mul_one, Int.mul_comm _ (n : Int)]
          simp only [Nat.add_sub_cancel] at hlast
          omega
        rw [copyLines_tight hpos.le le_rfl _ (by omega)] at h
        rw [hheight] at h hend
        exact readBytes_ok.mpr ⟨by omega, (Except.ok.inj h).symm⟩
      · intro h
        obtain ⟨hin', rfl⟩ := readBytes_ok.mp h
        rw [copyLines_tight hpos.le le_rfl _ (by rw [hheight]; omega), hheight]
    rw [hwidth, hheight', hleft, htop, hlength, hA, Int.zero_mul, Int.zero_mul, GLint_of_range
      (by decide) (by decide), Int.add_zero, htight]
    constructor
    · intro h
      obtain ⟨pixels', hpixels, h⟩ := Run.bind_eq_ok.mp h
      cases h
      exact hpixels
    · intro h
      rw [h]
      rfl

theorem uploads_iff (hpixels : 0 < cb.lockedWidth ∧ 0 < cb.lockedHeight ∧ cb.hostHandle ≠ 0) :
    Uploads cb stride l.bpp true image ↔ ∃ pixels,
      lockedPixels cb image = .ok ⟨cb.hostHandle, cb.lockedLeft, cb.lockedTop, cb.lockedWidth,
        cb.lockedHeight, cb.glFormat, cb.glType, pixels⟩ ∧
      rectanglePixels image stride l.bpp cb = .ok pixels := by
  simp only [Uploads, unlock, if_pos hpixels]
  constructor
  · rintro ⟨cb', sent, h, -, -, pixels, hpixels, rfl⟩
    obtain ⟨update, hupdate, h⟩ := Run.bind_eq_ok.mp h
    cases h
    exact ⟨pixels, hupdate, hpixels⟩
  · rintro ⟨pixels, hupdate, hpixels⟩
    refine ⟨{ cb with lockedWidth := 0, lockedHeight := 0 }, _, ?_, rfl, rfl, pixels, hpixels, rfl⟩
    rw [hupdate]
    rfl

end Unlock

/-- `gralloc_unlock` sends the locked rectangle of a new buffer, whatever the memory holds, where
there is nothing to send, or where it is connected and finds the bytes. -/
theorem unlock_uploads_iff {cb : cb_handle_t} {left top width height : Int} {connected : Bool}
    (hl : pixelLayout format usage = some l) (hsw : usage.SW_WRITE = true)
    (hr : (p.gralloc_alloc true w h format usage ashmem mmap host).2 = 0)
    (hcb : (p.gralloc_alloc true w h format usage ashmem mmap host).1.handles[p.handles.length]? =
      some cb) (hleft : 0 ≤ left) (htop : 0 ≤ top) (hright : left + width ≤ w)
    (hbottom : top + height ≤ h) :
    (∀ image : List UInt8, image.length = imageRoom cb usage →
      Uploads (withLocked cb left top width height) (stride l w usage) l.bpp connected image) ↔
      cb.hostHandle = 0 ∨ width ≤ 0 ∨ height ≤ 0 ∨ connected = true ∧
        Findable l (stride l w usage) (imageRoom cb usage) w left top width height := by
  by_cases hgo : 0 < width ∧ 0 < height ∧ cb.hostHandle ≠ 0
  case neg =>
    refine iff_of_true (fun image _ => ⟨_, none, if_neg hgo, rfl, rfl, ?_⟩) (by grind)
    exact (if_neg (c := 0 < width ∧ 0 < height ∧ cb.hostHandle ≠ 0) hgo).mpr rfl
  obtain ⟨hwidth, hheight, hhost⟩ := hgo
  have hno : ¬(cb.hostHandle = 0 ∨ width ≤ 0 ∨ height ≤ 0) := by grind
  rw [← or_assoc, ← or_assoc, or_assoc (a := cb.hostHandle = 0), or_iff_right hno]
  have hzeros : (List.replicate (imageRoom cb usage) (0 : UInt8)).length = imageRoom cb usage :=
    List.length_replicate
  cases connected with
  | false =>
      refine iff_of_false (fun hall => ?_) (by simp)
      obtain ⟨cb', sent, h, -⟩ := hall _ hzeros
      rw [unlock, if_pos ⟨hwidth, hheight, hhost⟩] at h
      exact absurd (congrArg (fun r => r.toOption.map (·.2.2)) h) (by simp [Except.toOption, EIO])
  | true => ?_
  obtain ⟨cb', fd, hcb', -, hmade⟩ := gralloc_alloc_makes hl hr
  cases hcb.symm.trans hcb'
  obtain ⟨hlayout, hbits⟩ := layout_cases hl
  have hbpp : 0 < l.bpp := by omega
  have hroom : (imageRoom cb usage : Int) < 2 ^ 31 := by
    have hsize : cb.ashmemSize = regionSize w h format usage :=
      congrArg cb_handle_t.ashmemSize hmade
    have hround := GLint_bounds (ashmemSize l w h usage + (PAGE_SIZE - 1))
    have hashmem := GLint_bounds (postCounter usage + bytesPerRow l w * h)
    have heq : ashmemSize l w h usage = GLint (postCounter usage + bytesPerRow l w * h) := by
      rw [ashmemSize, if_pos (by simp [hsw])]
      rfl
    have hcounter : 0 ≤ postCounter usage := by
      unfold postCounter
      split <;> decide
    simp only [regionSize, hl, Option.elim_some, roundToPage, PAGE_SIZE] at hsize hround
    rw [imageRoom, hsize]
    split <;> omega
  obtain ⟨r, -, hstride, -⟩ := @stride_mul format usage l w hl (by simp [hsw])
  generalize stride l w usage = stride at hstride ⊢
  have hcbwidth : cb.width = w := congrArg cb_handle_t.width hmade
  have hcbheight : cb.height = h := congrArg cb_handle_t.height hmade
  have hformat : cb.glFormat = l.glFormat := congrArg cb_handle_t.glFormat hmade
  have htype : cb.glType = l.glType := congrArg cb_handle_t.glType hmade
  have hin : InBuffer (withLocked cb left top width height) l :=
    ⟨hleft, htop, hwidth, hheight, hcbwidth ▸ hright, hcbheight ▸ hbottom,
      by rw [← hbits, ← hformat, ← htype]; rfl⟩
  have hS : 0 ≤ stride * l.bpp := mul_nonneg hstride hbpp.le
  have hA : 0 < width * l.bpp := Int.mul_pos hwidth hbpp
  have hL : 0 ≤ left * l.bpp := mul_nonneg hleft hbpp.le
  have hT : 0 ≤ top * (stride * l.bpp) := mul_nonneg htop hS
  have hoff : (top * stride + left) * l.bpp = top * (stride * l.bpp) + left * l.bpp := by ring
  obtain ⟨k, rfl⟩ : ∃ k : Nat, height = (k + 1 : Nat) := ⟨height.toNat - 1, by omega⟩
  have hk : 0 ≤ k * (stride * l.bpp) := by positivity
  have hend : ((top + (k + 1 : Nat) - 1) * stride + left + width) * l.bpp =
      top * (stride * l.bpp) + left * l.bpp + k * (stride * l.bpp) + width * l.bpp := by
    push_cast
    ring
  simp only [@uploads_iff _ (withLocked cb left top width (k + 1 : Nat)) _ _
    ⟨hwidth, hheight, hhost⟩, true_and]
  constructor
  · intro hall
    -- the sizes, from any memory
    obtain ⟨pixels, hsent, hrect⟩ := hall _ hzeros
    rw [rectanglePixels] at hrect
    obtain ⟨hlen, hget⟩ := copyLines_spec hA hrect
    have hlast := (hget k (by simp [withLocked])).2.1
    simp only [withLocked, hoff, hzeros] at hlast
    have hsizes := lockedPixels_sizes hin hbpp (by simp only [withLocked]; omega) (by omega) hsent
      (by simpa [withLocked] using hlen)
    have hlines := copyLines_unique (N := imageRoom cb usage) (k := k) (d := width * l.bpp) hA
      (fun image himage => by
        obtain ⟨pixels, hsent, hrect⟩ := hall image himage
        have hsent := (lockedPixels_eq hin hbpp hsizes.1 hsizes.2 pixels).mp hsent
        exact ⟨pixels, hrect, hsent⟩)
    simp only [withLocked, hoff, hcbwidth] at hlines
    refine ⟨by omega, hsizes.1, hsizes.2, ?_⟩
    have hfirst := hlines 0 (by omega)
    rw [GLint_of_range (i := left * l.bpp) (by omega) (by omega)] at hfirst
    cases k with
    | zero =>
        refine .inr ⟨rfl, ?_⟩
        rw [Int.mul_sub]
        have hmod := Int.bmod_def (top * GLint (w * l.bpp)) (2 ^ 32)
        change GLint _ = _ at hmod
        generalize top * GLint (w * l.bpp) = x at *
        generalize top * (stride * l.bpp) = y at *
        omega
    | succ k =>
        have hsecond := hlines 1 (by omega)
        left
        simp only [Nat.cast_zero, Nat.cast_one, Int.zero_mul, Int.one_mul] at hfirst hsecond
        rw [GLint_of_range (i := left * l.bpp) (by omega) (by omega)] at hsecond
        omega
  · intro hfind image himage
    obtain ⟨hinRoom, hbits, hbytes, hlines⟩ := hfind
    rw [hend] at hinRoom
    obtain ⟨pixels, hrect⟩ := @copyLines_defined image (width * l.bpp) (stride * l.bpp)
      (top * (stride * l.bpp) + left * l.bpp) hA.le hS k (by omega) (by omega)
    refine ⟨pixels, (lockedPixels_eq hin hbpp hbits hbytes pixels).mpr ?_, ?_⟩
    · simp only [withLocked, hcbwidth]
      rw [GLint_of_range (i := left * l.bpp) (by omega) (by omega)]
      rcases hlines with hsame | ⟨hone, hdvd⟩
      · rw [hsame, GLint_of_range (i := top * (stride * l.bpp)) (by omega) (by omega)]
        exact hrect
      · obtain rfl : k = 0 := by omega
        have hT' : GLint (top * GLint (w * l.bpp)) = top * (stride * l.bpp) := by
          rw [Int.mul_sub] at hdvd
          generalize top * GLint (w * l.bpp) = x at *
          rw [GLint, Int.bmod_def]
          omega
        rw [hT']
        obtain ⟨line, rest, hline, hrest, rfl⟩ := copyLines_succ_ok.mp hrect
        exact copyLines_succ_ok.mpr ⟨line, rest, hline, hrest, rfl⟩
    · simpa only [rectanglePixels, withLocked, hoff, Int.toNat_natCast] using hrect

/-- A buffer that the host textures from, as it is made. -/
def texturedBuffer (ashmemSize w h : Int) : cb_handle_t :=
  { cb_handle_t.new 5 ashmemSize ⟨true, true, true, false, false, true⟩ w h GL_RGBA GL_UNSIGNED_BYTE
    with numFds := 1, numInts := 18, ashmemBase := 8192, ashmemBasePid := 1, hostHandle := 7 }

theorem unlock_uploads_column :
    Uploads (withLocked (texturedBuffer 4096 2 2) 1 0 1 2) 2 4 true (List.replicate 4096 0) := by
  have hroom : imageRoom (texturedBuffer 4096 2 2) ⟨true, true, true, false, false, true⟩ = 4096 := by
    decide
  apply (@unlock_uploads_iff (initial 1) 2 2 HAL_PIXEL_FORMAT_RGBA_8888
    ⟨true, true, true, false, false, true⟩ ⟨4, 1, GL_RGBA, GL_UNSIGNED_BYTE⟩ (.ok 5) (.ok 8192)
    (some 7) (texturedBuffer 4096 2 2) 1 0 1 2 true rfl rfl (by decide)
    (by decide) (by decide) (by decide) (by decide) (by decide)).mpr
    (.inr (.inr (.inr ⟨rfl, by decide, by decide, by decide, .inl (by decide)⟩)))
  rw [hroom, List.length_replicate]

/-- A line of 2^26 pixels has 2^31 bits, which is no `int`. -/
theorem unlock_wraps_line :
    ((initial 1).gralloc_alloc true (2 ^ 26) 1 HAL_PIXEL_FORMAT_RGBA_8888
        ⟨true, true, true, false, false, true⟩ (.ok 5) (.ok 8192) (some 7)).1.handles[0]? =
        some (texturedBuffer (2 ^ 28) (2 ^ 26) 1) ∧
      stride ⟨4, 1, GL_RGBA, GL_UNSIGNED_BYTE⟩ (2 ^ 26) ⟨true, true, true, false, false, true⟩ =
        2 ^ 26 ∧
      ¬∀ image : List UInt8, image.length = 2 ^ 28 →
        Uploads (withLocked (texturedBuffer (2 ^ 28) (2 ^ 26) 1) 0 0 (2 ^ 26) 1) (2 ^ 26) 4 true
          image := by
  refine ⟨by decide, by decide, fun hall => ?_⟩
  have hin : InBuffer (withLocked (texturedBuffer (2 ^ 28) (2 ^ 26) 1) 0 0 (2 ^ 26) 1)
      ⟨4, 1, GL_RGBA, GL_UNSIGNED_BYTE⟩ :=
    ⟨by decide, by decide, by decide, by decide, by decide, by decide, by decide⟩
  obtain ⟨pixels, hsent, hrect⟩ := (uploads_iff (l := ⟨4, 1, GL_RGBA, GL_UNSIGNED_BYTE⟩)
    (by decide)).mp (hall (List.replicate (2 ^ 28) 0) List.length_replicate)
  have hlength := (copyLines_spec (by decide) hrect).1
  have hsizes := lockedPixels_sizes hin (by decide) (by decide)
    (by rw [List.length_replicate]; decide) hsent hlength
  exact absurd hsizes.1 (by decide)

end Process

end AndroidRenderer.Gralloc
