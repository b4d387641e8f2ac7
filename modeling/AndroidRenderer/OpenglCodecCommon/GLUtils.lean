import AndroidRenderer.OpenglCodecCommon.GLClientState

/-!
# Index arrays and packed vertex data

`minmax` and `shiftIndices` work on the index array of a draw call. The data of a vertex
array is packed behind each other by `glUtilsPackPointerData`; the model follows the
addresses from which it copies.
-/

namespace AndroidRenderer

namespace GLUtils

variable {T : Type}

/-- One turn of the loop of `minmax`, where `-1` stands for no index yet. -/
def minmaxStep (toInt : T → Int) (m : Int × Int) (x : T) : Int × Int :=
  (if m.1 = -1 ∨ toInt x < m.1 then toInt x else m.1,
    if m.2 = -1 ∨ m.2 < toInt x then toInt x else m.2)

def minmax (toInt : T → Int) (indices : List T) : Int × Int :=
  indices.foldl (minmaxStep toInt) (-1, -1)

/-- `shiftIndices` from one array to another. -/
def shiftIndices (toInt : T → Int) (ofInt : Int → T) (indices : List T) (offset : Int) : List T :=
  indices.map fun x => ofInt (toInt x + offset)

theorem foldl_minmaxStep {toInt : T → Int} (hnonneg : ∀ x, 0 ≤ toInt x) (xs : List T)
    {m : Int × Int} (hlo : 0 ≤ m.1) (hhi : 0 ≤ m.2) :
    let r := xs.foldl (minmaxStep toInt) m
    r.1 ≤ m.1 ∧ m.2 ≤ r.2 ∧ (∀ x ∈ xs, r.1 ≤ toInt x ∧ toInt x ≤ r.2) ∧
      (r.1 = m.1 ∨ ∃ x ∈ xs, toInt x = r.1) ∧ (r.2 = m.2 ∨ ∃ x ∈ xs, toInt x = r.2) := by
  induction xs generalizing m with
  | nil => simp
  | cons x xs ih =>
      have hx := hnonneg x
      have hlo' : (minmaxStep toInt m x).1 = min m.1 (toInt x) := by
        simp only [minmaxStep]
        split <;> omega
      have hhi' : (minmaxStep toInt m x).2 = max m.2 (toInt x) := by
        simp only [minmaxStep]
        split <;> omega
      have hrest := ih (m := minmaxStep toInt m x) (by omega) (by omega)
      simp only [List.foldl_cons, List.mem_cons, forall_eq_or_imp, exists_eq_or_imp]
      dsimp only at hrest
      generalize xs.foldl (minmaxStep toInt) (minmaxStep toInt m x) = r at hrest
      obtain ⟨h1, h2, hall, hmin, hmax⟩ := hrest
      have hr1 : r.1 ≤ m.1 ∧ r.1 ≤ toInt x := Int.le_min.mp (hlo' ▸ h1)
      have hr2 : m.2 ≤ r.2 ∧ toInt x ≤ r.2 := Int.max_le.mp (hhi' ▸ h2)
      refine ⟨hr1.1, hr2.1, ⟨⟨hr1.2, hr2.2⟩, hall⟩, ?_, ?_⟩
      · rcases hmin with hmin | hmin
        · omega
        · exact .inr (.inr hmin)
      · rcases hmax with hmax | hmax
        · omega
        · exact .inr (.inr hmax)

/-- The least and the greatest index of an array that is not empty. -/
theorem minmax_spec {toInt : T → Int} (hnonneg : ∀ x, 0 ≤ toInt x) {xs : List T} (h : xs ≠ []) :
    (∀ x ∈ xs, (minmax toInt xs).1 ≤ toInt x ∧ toInt x ≤ (minmax toInt xs).2) ∧
      (∃ x ∈ xs, toInt x = (minmax toInt xs).1) ∧ ∃ x ∈ xs, toInt x = (minmax toInt xs).2 := by
  cases xs with
  | nil => exact absurd rfl h
  | cons x xs =>
      have hx := hnonneg x
      have hfirst : minmaxStep toInt (-1, -1) x = (toInt x, toInt x) := by
        simp [minmaxStep]
      have hrest := foldl_minmaxStep hnonneg xs (m := (toInt x, toInt x)) hx hx
      unfold minmax
      rw [List.foldl_cons, hfirst]
      dsimp only at hrest
      generalize xs.foldl (minmaxStep toInt) (toInt x, toInt x) = r at hrest
      grind

/-- What the `switch` over the type of the indices does with an array of unsigned indices that
is not empty: the bounds are indices of the array, and the shifted indices count from the
lower one. -/
theorem shiftIndices_minmax {toNat : T → Nat} {ofInt : Int → T}
    (hofInt : ∀ (x : T) (k : Nat), k ≤ toNat x → toNat (ofInt k) = k) {xs : List T} (h : xs ≠ []) :
    let m := minmax (fun x => (toNat x : Int)) xs
    ∃ lo hi : Nat, m.1 = lo ∧ m.2 = hi ∧ lo ∈ xs.map toNat ∧ hi ∈ xs.map toNat ∧
      (∀ j ∈ xs.map toNat, lo ≤ j ∧ j ≤ hi) ∧
      (if m.1 ≠ 0 then shiftIndices (fun x => (toNat x : Int)) ofInt xs (-m.1) else xs).map toNat =
        (xs.map toNat).map fun j => j - lo := by
  intro m
  obtain ⟨hall, ⟨x, hx, hlo⟩, ⟨y, hy, hhi⟩⟩ :=
    minmax_spec (fun x => Int.natCast_nonneg (toNat x)) h
  refine ⟨toNat x, toNat y, hlo.symm, hhi.symm, List.mem_map_of_mem hx, List.mem_map_of_mem hy,
    ?_, ?_⟩
  · intro j hj
    obtain ⟨z, hz, rfl⟩ := List.mem_map.mp hj
    have := hall z hz
    omega
  · have hm : m.1 = toNat x := hlo.symm
    rw [hm]
    split
    · simp only [shiftIndices, List.map_map]
      refine List.map_congr_left fun z hz => ?_
      grind
    · rename_i hzero
      have hzero' : toNat x = 0 := by simpa using hzero
      simp [hzero']

end GLUtils

/-! ## Index arrays -/

/-- The index array of a draw call, as the type of the call makes it read. -/
inductive IndexArray
  | bytes (indices : List UInt8)
  | shorts (indices : List UInt16)
  | other (data : List UInt8)
  deriving DecidableEq, Repr

namespace IndexArray

def values : IndexArray → List Nat
  | bytes l => l.map UInt8.toNat
  | shorts l => l.map UInt16.toNat
  | other _ => []

/-- The `switch` over the type of the indices: `minIndex`, `maxIndex` and the adjusted
array. -/
def adjust : IndexArray → Int × Int × IndexArray
  | bytes l =>
      let m := GLUtils.minmax (fun x : UInt8 => (x.toNat : Int)) l
      (m.1, m.2, .bytes (if m.1 ≠ 0 then
        GLUtils.shiftIndices (fun x : UInt8 => (x.toNat : Int)) UInt8.ofInt l (-m.1) else l))
  | shorts l =>
      let m := GLUtils.minmax (fun x : UInt16 => (x.toNat : Int)) l
      (m.1, m.2, .shorts (if m.1 ≠ 0 then
        GLUtils.shiftIndices (fun x : UInt16 => (x.toNat : Int)) UInt16.ofInt l (-m.1) else l))
  | other l => (0, 0, .other l)

def Supported : IndexArray → Prop
  | other _ => False
  | _ => True

instance (ia : IndexArray) : Decidable ia.Supported := by
  cases ia <;> unfold Supported <;> infer_instance

/-- An empty array leaves both bounds at `-1`. -/
theorem adjust_of_empty {ia : IndexArray} (hs : ia.Supported) (h : ia.values = []) :
    ia.adjust.1 = -1 ∧ ia.adjust.2.1 = -1 ∧ ia.adjust.2.2.values = [] := by
  cases ia with
  | bytes l =>
      obtain rfl := List.map_eq_nil_iff.mp h
      exact ⟨rfl, rfl, rfl⟩
  | shorts l =>
      obtain rfl := List.map_eq_nil_iff.mp h
      exact ⟨rfl, rfl, rfl⟩
  | other l => cases hs

/-- The bounds are indices of the array, and the sent indices count from the lower one. -/
theorem adjust_spec {ia : IndexArray} (hs : ia.Supported) (h : ia.values ≠ []) :
    ∃ lo hi : Nat, ia.adjust.1 = lo ∧ ia.adjust.2.1 = hi ∧ lo ∈ ia.values ∧ hi ∈ ia.values ∧
      (∀ j ∈ ia.values, lo ≤ j ∧ j ≤ hi) ∧
      ia.adjust.2.2.values = ia.values.map fun j => j - lo := by
  cases ia with
  | bytes l =>
      have hne : l ≠ [] := by simpa [values] using h
      have hofInt : ∀ (x : UInt8) (k : Nat), k ≤ x.toNat → (UInt8.ofInt k).toNat = k := by
        intro x k hk
        have hlt := x.toNat_lt
        grind [UInt8.ofInt, UInt8.toNat_ofNat']
      have hspec := GLUtils.shiftIndices_minmax hofInt hne
      exact hspec
  | shorts l =>
      have hne : l ≠ [] := by simpa [values] using h
      have hofInt : ∀ (x : UInt16) (k : Nat), k ≤ x.toNat → (UInt16.ofInt k).toNat = k := by
        intro x k hk
        have hlt := x.toNat_lt
        grind [UInt16.ofInt, UInt16.toNat_ofNat']
      have hspec := GLUtils.shiftIndices_minmax hofInt hne
      exact hspec
  | other l => cases hs

end IndexArray

/-! ## Packing -/

def addresses (a n : UInt32) : List UInt32 := (List.range n.toNat).map fun i => a + UInt32.ofNat i

/-- The `for` loop of `glUtilsPackPointerData`. It has no result where `memcpy` would leave
the `datalen` bytes at `dst`, or where it never ends. -/
def packLoop (vsize stride datalen : UInt32) : Nat → UInt32 → UInt32 → Option (List UInt32)
  | 0, _, _ => none
  | fuel + 1, i, src =>
      if datalen ≤ i then some []
      else if datalen.toNat < i.toNat + vsize.toNat then none
      else (packLoop vsize stride datalen fuel (i + vsize) (src + stride)).map (addresses src vsize ++ ·)

/-- `glUtilsPackPointerData`: the addresses that are copied from, in the order of `dst`. -/
def glUtilsPackPointerData (src : UInt32) (size : Int) (type : GLenum) (stride : Int)
    (datalen : UInt32) : Option (List UInt32) :=
  let vsize := UInt32.ofInt size * glSizeof type
  let stride := if stride = 0 then vsize else UInt32.ofInt stride
  if stride = vsize then some (addresses src datalen)
  else packLoop vsize stride datalen (datalen.toNat + 1) 0 src

/-- The `n` elements from `src` on. -/
def elements (src stride vsize : UInt32) (n : Nat) : List UInt32 :=
  (List.range n).flatMap fun k => addresses (src + stride * UInt32.ofNat k) vsize

@[simp] theorem addresses_length (a n : UInt32) : (addresses a n).length = n.toNat := by
  simp [addresses]

theorem mem_addresses {a n b : UInt32} :
    b ∈ addresses a n ↔ ∃ i < n.toNat, b = a + UInt32.ofNat i := by
  simp only [addresses, List.mem_map, List.mem_range]
  exact exists_congr fun i => and_congr_right fun _ => eq_comm

theorem elements_succ (src stride vsize : UInt32) (n : Nat) :
    elements src stride vsize (n + 1) =
      addresses src vsize ++ elements (src + stride) stride vsize n := by
  unfold elements
  rw [List.range_succ_eq_map, List.flatMap_cons, List.flatMap_map]
  simp [UInt32.ofNat_add, UInt32.mul_add, UInt32.add_comm, UInt32.add_assoc]

/-- The elements of a tight array lie one behind the other. -/
theorem elements_tight (src vsize : UInt32) {n : Nat} (h : n * vsize.toNat < 2 ^ 32) :
    elements src vsize vsize n = addresses src (UInt32.ofNat n * vsize) := by
  have hlength : (UInt32.ofNat n * vsize).toNat = n * vsize.toNat := by
    rw [UInt32.toNat_mul, UInt32.toNat_ofNat', Nat.mod_mul_mod]
    exact Nat.mod_eq_of_lt h
  unfold addresses
  rw [hlength]
  clear h hlength
  induction n generalizing src with
  | zero => simp [elements]
  | succ n ih =>
      rw [elements_succ, ih, Nat.succ_mul, Nat.add_comm, List.range_add, List.map_append,
        List.map_map]
      congr 1
      simp [Function.comp_apply, UInt32.ofNat_add, UInt32.ofNat_toNat, UInt32.add_assoc]

theorem packLoop_eq {vsize stride datalen : UInt32} (hpos : 0 < vsize.toNat) {n fuel : Nat}
    {i src : UInt32} (hn : i.toNat + n * vsize.toNat = datalen.toNat) (hfuel : n < fuel) :
    packLoop vsize stride datalen fuel i src = some (elements src stride vsize n) := by
  induction n generalizing fuel i src with
  | zero =>
      obtain ⟨fuel, rfl⟩ := Nat.exists_eq_succ_of_ne_zero (Nat.ne_of_gt hfuel)
      have hle : datalen ≤ i := by
        rw [UInt32.le_iff_toNat_le]
        omega
      rw [packLoop, if_pos hle]
      rfl
  | succ n ih =>
      obtain ⟨fuel, rfl⟩ := Nat.exists_eq_succ_of_ne_zero (Nat.ne_of_gt (Nat.zero_lt_of_lt hfuel))
      rw [Nat.succ_mul] at hn
      have hlt := datalen.toNat_lt
      have hnle : ¬datalen ≤ i := by
        rw [UInt32.le_iff_toNat_le]
        omega
      have hnext : (i + vsize).toNat = i.toNat + vsize.toNat := by
        rw [UInt32.toNat_add]
        exact Nat.mod_eq_of_lt (by omega)
      rw [packLoop, if_neg hnle, if_neg (by omega), ih (by omega) (by omega), Option.map_some,
        elements_succ]

/-- Whatever is packed fills the `datalen` bytes. -/
theorem packLoop_length {vsize stride datalen : UInt32} {fuel : Nat} {i src : UInt32}
    {l : List UInt32} (h : packLoop vsize stride datalen fuel i src = some l)
    (hi : i ≤ datalen) : i.toNat + l.length = datalen.toNat := by
  rw [UInt32.le_iff_toNat_le] at hi
  induction fuel generalizing i src l with
  | zero => cases h
  | succ fuel ih =>
      rw [packLoop] at h
      split at h
      · grind [UInt32.le_iff_toNat_le]
      · split at h
        · cases h
        · rename_i hfits
          obtain ⟨l', hl', rfl⟩ := Option.map_eq_some_iff.mp h
          have hlt := datalen.toNat_lt
          grind [UInt32.toNat_add, addresses_length]

theorem glUtilsPackPointerData_length {src : UInt32} {size : Int} {type : GLenum} {stride : Int}
    {datalen : UInt32} {l : List UInt32}
    (h : glUtilsPackPointerData src size type stride datalen = some l) :
    l.length = datalen.toNat := by
  simp only [glUtilsPackPointerData] at h
  generalize UInt32.ofInt size * glSizeof type = vsize at h
  generalize (if stride = 0 then vsize else UInt32.ofInt stride) = step at h
  split at h
  · obtain rfl := Option.some.inj h
    exact addresses_length _ _
  · have hlength := packLoop_length h (UInt32.zero_le)
    simpa using hlength

theorem glUtilsPackPointerData_eq (src : UInt32) (size : Int) (type : GLenum) (stride : Int)
    {n : Nat} (h : n * (glSizeof type * UInt32.ofInt size).toNat < 2 ^ 32) :
    glUtilsPackPointerData src size type stride
        (glSizeof type * UInt32.ofInt size * UInt32.ofNat n) =
      some (elements src (if stride = 0 then glSizeof type * UInt32.ofInt size
        else UInt32.ofInt stride) (glSizeof type * UInt32.ofInt size) n) := by
  have hlength : (glSizeof type * UInt32.ofInt size * UInt32.ofNat n).toNat =
      n * (glSizeof type * UInt32.ofInt size).toNat := by
    rw [UInt32.toNat_mul, UInt32.toNat_ofNat', Nat.mul_mod_mod, Nat.mul_comm]
    exact Nat.mod_eq_of_lt h
  simp only [glUtilsPackPointerData, UInt32.mul_comm (UInt32.ofInt size)]
  generalize glSizeof type * UInt32.ofInt size = vsize at h hlength ⊢
  generalize (if stride = 0 then vsize else UInt32.ofInt stride) = step
  split
  · grind [elements_tight, UInt32.mul_comm]
  · rcases Nat.eq_zero_or_pos vsize.toNat with hzero | hpos
    · -- elements without bytes
      have hvzero : vsize = 0 := UInt32.toNat_inj.mp hzero
      subst hvzero
      simp [packLoop, elements, addresses]
    · refine packLoop_eq hpos (by simp [hlength]) ?_
      have := Nat.le_mul_of_pos_right n hpos
      omega

end AndroidRenderer
