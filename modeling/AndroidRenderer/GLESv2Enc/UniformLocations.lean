import AndroidRenderer.GLESv2Enc.Samplers
import AndroidRenderer.GLESv2Enc.Shaders
import AndroidRenderer.Translator.ShaderParser

/-!
# Locations of uniforms

When the host's locations are too far apart for the application, `glGetUniformLocation` numbers the
elements of all uniforms without gaps, and what is set at such a location is sent for the location
of the host. The host's stride within a uniform is learned from the elements that are asked for.
-/

namespace AndroidRenderer

open CString

/-- The array index that `s_glGetUniformLocation` reads in a name, if it reads one. -/
def arrayIndex (name : List UInt8) : Except MemoryFault (Option Int) :=
  match name.getLast? with
  | some last =>
      if last = 93 then
        .ok ((strrchr name 91).bind fun brace => Translator.sscanfInt name (brace + 1))
      else .ok (some 0)
  | none => .error .outOfBounds

/-- `s_glGetUniformLocation`; `hostLoc` is the answer of the host. -/
def GLSharedGroup.glGetUniformLocation (g : GLSharedGroup) (program : GLuint)
    (name : Option (List UInt8)) (hostLoc : Int) : Except MemoryFault (GLSharedGroup × Int) :=
  match name with
  | none => .ok (g, -1)
  | some name =>
      if g.needUniformLocationWAR program then
        (arrayIndex name).map fun arrIndex =>
          match arrIndex with
          | none => (g, -1)
          | some arrIndex =>
              if 0 ≤ hostLoc then g.locationWARHostToApp program hostLoc arrIndex else (g, hostLoc)
      else .ok (g, hostLoc)

/-! ## Names of elements -/

/-- `name` is element `e` of a uniform, its number in decimal digits. -/
def Spells (ident name : List UInt8) (e : Nat) : Prop :=
  (e = 0 ∧ name = ident) ∨
    ∃ digits, digits ≠ [] ∧ (∀ c ∈ digits, isdigit c = true) ∧ Translator.ofDigits digits = e ∧
      name = ident ++ 91 :: (digits ++ [93])

theorem charAt_append_right (s t : List UInt8) (k : Nat) :
    charAt (s ++ t) (s.length + k) = charAt t k := by
  rw [charAt, charAt, List.getD_append_right _ _ _ _ (Nat.le_add_right _ _),
    Nat.add_sub_cancel_left]

theorem isdigit_notMem {c : UInt8} (h : isdigit c = true) :
    c ≠ 91 ∧ c ≠ 93 ∧ c ≠ 43 ∧ c ≠ 45 ∧ isspace c = false := by
  have hspace := isspace_of_isalnum (c := c) (by rw [isalnum, h, Bool.or_true])
  refine ⟨?_, ?_, ?_, ?_, hspace⟩ <;> rintro rfl <;> revert h <;> decide

/-- Digits behind a position are read to their end. -/
theorem sscanfInt_digits (pre : List UInt8) {digits : List UInt8} (hne : digits ≠ [])
    (hdigits : ∀ c ∈ digits, isdigit c = true) (hlt : Translator.ofDigits digits < 2 ^ 31)
    (rest : List UInt8) (hrest : isdigit (charAt rest 0) = false) :
    Translator.sscanfInt (pre ++ (digits ++ rest)) pre.length =
      some (Translator.ofDigits digits : Int) := by
  have hpos := List.length_pos_iff.mpr hne
  have hat : ∀ k (hk : k < digits.length), charAt (pre ++ (digits ++ rest)) (pre.length + k) =
      digits[k] := by
    intro k hk
    rw [charAt_append_right, charAt, List.getD_append _ _ _ _ hk, List.getD_eq_getElem]
  have hfirst := isdigit_notMem (hdigits _ (List.getElem_mem hpos))
  have hspace : skip isspace (pre ++ (digits ++ rest)) pre.length = pre.length := by
    refine skip_unique rfl (Nat.le_refl _) (fun j hj hj' => by omega) ?_
    have := hat 0 hpos
    grind
  have hchar : charAt (pre ++ (digits ++ rest)) pre.length = digits[0] := hat 0 hpos
  have hstop : skip isdigit (pre ++ (digits ++ rest)) pre.length =
      pre.length + digits.length := by
    refine skip_unique rfl (Nat.le_add_right _ _) (fun j hj hj' => ?_) ?_
    · obtain ⟨k, rfl⟩ := Nat.exists_eq_add_of_le hj
      grind
    · rw [charAt_append_right, ← Nat.add_zero digits.length, charAt_append_right]
      exact hrest
  have hslice : slice (pre ++ (digits ++ rest)) pre.length (pre.length + digits.length) =
      digits := by
    refine List.ext_getElem (by simp [slice]) fun k _ hk => ?_
    simp only [slice, List.getElem_map, List.getElem_range, hat k hk]
  simp only [Translator.sscanfInt, hspace, hchar, hfirst.2.2.1, hfirst.2.2.2.1, or_self, if_false,
    hstop, hslice]
  grind

theorem getLast?_bracket (s t : List UInt8) : (s ++ 91 :: (t ++ [93])).getLast? = some 93 := by
  rw [← List.cons_append, ← List.append_assoc, List.getLast?_concat]

/-- The last bracket opens the number. -/
theorem strrchr_bracket {s t : List UInt8} (ht : 91 ∉ t) :
    strrchr (s ++ 91 :: t) 91 = some s.length := by
  have hmem : (91 : UInt8) ∈ s ++ 91 :: t := List.mem_append_right _ List.mem_cons_self
  cases hfound : strrchr (s ++ 91 :: t) 91 with
  | none => exact absurd hmem (strrchr_none hfound)
  | some i =>
      obtain ⟨hat, hrest⟩ := strrchr_some hfound
      grind

/-- The index that is read is the number of the element. -/
theorem arrayIndex_of_spells {ident name : List UInt8} {e : Nat} (h : Spells ident name e)
    (hne : ident ≠ []) (hlast : ident.getLast? ≠ some 93) (hlt : e < 2 ^ 31) :
    arrayIndex name = .ok (some (e : Int)) := by
  obtain ⟨rfl, rfl⟩ | ⟨digits, hdigits, hall, rfl, rfl⟩ := h
  · grind [arrayIndex, List.getLast?_eq_some_getLast]
  · have hbracket : (91 : UInt8) ∉ digits ++ [93] := by
      rw [List.mem_append, not_or]
      exact ⟨fun hmem => (isdigit_notMem (hall _ hmem)).1 rfl, by decide⟩
    have hread := sscanfInt_digits (ident ++ [91]) hdigits hall hlt [93] rfl
    rw [List.length_append, List.length_singleton, List.append_assoc, List.singleton_append]
      at hread
    rw [arrayIndex, getLast?_bracket]
    grind [strrchr_bracket]

/-! ## Programs on the host -/

/-- A uniform on the host: its name without a number, and the distance of its elements. -/
structure HostUniform where
  active : ActiveUniform
  ident : List UInt8
  stride : Int
  ident_ne : ident ≠ []
  ident_last : ident.getLast? ≠ some 93
  base_nonneg : 0 ≤ active.base
  base_aligned : active.base % 0x10000 = 0
  size_pos : 1 ≤ active.size
  size_lt : active.size < 2 ^ 31
  stride_pos : 1 ≤ stride

def HostUniform.location (u : HostUniform) (e : Nat) : Int := u.active.base + e * u.stride

/-- The locations of one uniform are all before those of the other. -/
def HostUniform.Apart (u v : HostUniform) : Prop :=
  u.active.base + (u.active.size - 1) * u.stride < v.active.base ∨
    v.active.base + (v.active.size - 1) * v.stride < u.active.base

def IsElement (uniforms : List HostUniform) (loc : List UInt8 → Int) (name : List UInt8)
    (i e : Nat) : Prop :=
  ∃ u : HostUniform, uniforms[i]? = some u ∧ (e : Int) < u.active.size ∧ Spells u.ident name e ∧
    loc name = u.location e

/-- A linked program on the host. `loc` is its answer for a name: what it finds is an element. -/
structure HostProgram where
  uniforms : List HostUniform
  loc : List UInt8 → Int
  two_le : 2 ≤ uniforms.length
  apart : uniforms.Pairwise HostUniform.Apart
  found : ∀ name, 0 ≤ loc name → ∃ i e, IsElement uniforms loc name i e

namespace HostUniform

theorem Apart.symm {u v : HostUniform} (h : Apart u v) : Apart v u := Or.symm h

theorem base_le_location (u : HostUniform) (e : Nat) : u.active.base ≤ u.location e := by
  have : 0 ≤ (e : Int) * u.stride :=
    Int.mul_nonneg (Int.natCast_nonneg e) (Int.le_trans (by decide) u.stride_pos)
  rw [location]
  omega

theorem location_le (u : HostUniform) {e : Nat} (he : (e : Int) < u.active.size) :
    u.location e ≤ u.active.base + (u.active.size - 1) * u.stride := by
  have := Int.mul_le_mul_of_nonneg_right (show (e : Int) ≤ u.active.size - 1 by omega)
    (Int.le_trans (by decide) u.stride_pos)
  rw [location]
  omega

theorem Apart.base {u v : HostUniform} (h : Apart u v) {e : Nat} (he : (e : Int) < u.active.size)
    (hbelow : u.active.base ≤ v.active.base) : u.location e < v.active.base := by
  have hlast := u.location_le he
  obtain hlt | hlt := h
  · omega
  · have hfirst := v.location_le (e := 0) v.size_pos
    have := v.base_le_location 0
    omega

end HostUniform

variable {u : HostUniform}

/-- Two uniforms of a program. -/
theorem apart_of_ne {uniforms : List HostUniform} (h : uniforms.Pairwise HostUniform.Apart)
    {i j : Nat} {v : HostUniform} (hu : uniforms[i]? = some u) (hv : uniforms[j]? = some v)
    (hne : i ≠ j) : u.Apart v := by
  obtain ⟨hi, rfl⟩ := List.getElem?_eq_some_iff.mp hu
  obtain ⟨hj, rfl⟩ := List.getElem?_eq_some_iff.mp hv
  rcases Nat.lt_or_gt_of_ne hne with hlt | hlt
  · exact List.pairwise_iff_getElem.mp h i j hi hj hlt
  · exact (List.pairwise_iff_getElem.mp h j i hj hi hlt).symm

theorem element_unique {uniforms : List HostUniform} (h : uniforms.Pairwise HostUniform.Apart)
    {i j e f : Nat} {v : HostUniform} (hu : uniforms[i]? = some u) (hv : uniforms[j]? = some v)
    (he : (e : Int) < u.active.size) (hf : (f : Int) < v.active.size)
    (heq : u.location e = v.location f) : i = j ∧ e = f := by
  have hij : i = j := by
    by_contra hne
    have hue := u.base_le_location e
    have hvf := v.base_le_location f
    rcases Int.le_total u.active.base v.active.base with hle | hle
    · have := (apart_of_ne h hu hv hne).base he hle
      omega
    · have := (apart_of_ne h hv hu (Ne.symm hne)).base hf hle
      omega
  subst hij
  rw [hu] at hv
  obtain rfl := Option.some.inj hv
  rw [HostUniform.location, HostUniform.location, Int.add_right_inj] at heq
  have hpos := u.stride_pos
  exact ⟨rfl, Int.ofNat_inj.mp (Int.eq_of_mul_eq_mul_right (by omega) heq)⟩

/-! ## The table of a program -/

def appBase (uniforms : List HostUniform) (i : Nat) : Int :=
  ((uniforms.take i).map fun u => u.active.size).sum

theorem appBase_succ {uniforms : List HostUniform} {i : Nat}
    (hu : uniforms[i]? = some u) :
    appBase uniforms (i + 1) = appBase uniforms i + u.active.size := by
  obtain ⟨hlt, rfl⟩ := List.getElem?_eq_some_iff.mp hu
  rw [appBase, List.take_succ_eq_append_getElem hlt, List.map_append, List.sum_append]
  simp [appBase]

/-- Behind a uniform come only elements of later ones. -/
theorem appBase_le {uniforms : List HostUniform} {i j : Nat}
    (hu : uniforms[i]? = some u) (hij : i < j) :
    appBase uniforms i + u.active.size ≤ appBase uniforms j := by
  induction j, hij using Nat.le_induction with
  | base => exact Int.le_of_eq (appBase_succ hu).symm
  | succ j hij ih =>
      cases hv : uniforms[j]? with
      | some v =>
          rw [appBase_succ hv]
          have := v.size_pos
          omega
      | none =>
          have hlen := List.getElem?_eq_none_iff.mp hv
          have hsame : appBase uniforms (j + 1) = appBase uniforms j := by
            grind [appBase, List.take_of_length_le]
          rw [hsame]
          exact ih

structure EntryOf (uniforms : List HostUniform) (i : Nat) (u : HostUniform) (info : IndexInfo) :
    Prop where
  base : info.base = u.active.base
  size : info.size = u.active.size
  appBase : info.appBase = appBase uniforms i
  stride : info.hostLocsPerElement = 1 ∨ info.hostLocsPerElement = u.stride

structure TableOf (uniforms : List HostUniform) (p : ProgramData) : Prop where
  locShiftWAR : p.locShiftWAR = true
  length : p.indexes.length = uniforms.length
  entry : ∀ i u, uniforms[i]? = some u → ∃ info, p.indexes[i]? = some info ∧
    EntryOf uniforms i u info

def Stands (uniforms : List HostUniform) (p : ProgramData) (appLoc hostLoc : Int) : Prop :=
  ∃ (i : Nat) (u : HostUniform) (e : Nat) (info : IndexInfo), uniforms[i]? = some u ∧
    p.indexes[i]? = some info ∧ (e : Int) < u.active.size ∧
    appLoc = appBase uniforms i + e ∧ hostLoc = u.location e ∧
    (e = 0 ∨ info.hostLocsPerElement = u.stride)

namespace TableOf

variable {uniforms : List HostUniform} {p : ProgramData}

theorem entry_of_get (h : TableOf uniforms p) {i : Nat} {info : IndexInfo}
    (hget : p.indexes[i]? = some info) :
    ∃ u, uniforms[i]? = some u ∧ EntryOf uniforms i u info := by
  have hlt : i < uniforms.length := h.length ▸ (List.getElem?_eq_some_iff.mp hget).1
  obtain ⟨info', hget', hentry⟩ := h.entry i _ (List.getElem?_eq_getElem hlt)
  grind

theorem appToHost (h : TableOf uniforms p) {appLoc hostLoc : Int}
    (hstands : Stands uniforms p appLoc hostLoc) : p.locationWARAppToHost appLoc = hostLoc := by
  obtain ⟨i, u, e, info, hu, hinfo, he, rfl, rfl, hstride⟩ := hstands
  obtain ⟨u', hu', hentry⟩ := h.entry_of_get hinfo
  rw [hu] at hu'
  obtain rfl := Option.some.inj hu'
  have hfind : p.indexes.find? (fun info =>
      decide (0 ≤ appBase uniforms i + e - info.appBase ∧
        appBase uniforms i + e - info.appBase < info.size)) = some info := by
    obtain ⟨hlt, hat⟩ := List.getElem?_eq_some_iff.mp hinfo
    refine List.find?_eq_some_iff_getElem.mpr ⟨?_, i, hlt, hat, fun j hj => ?_⟩
    · grind [hentry.appBase, hentry.size]
    · obtain ⟨v, hv, hentry'⟩ := h.entry_of_get (List.getElem?_eq_getElem (Nat.lt_trans hj hlt))
      have := appBase_le hv hj
      rw [Bool.not_eq_true', decide_eq_false_iff_not, hentry'.appBase, hentry'.size]
      omega
  rw [ProgramData.locationWARAppToHost, if_pos h.locShiftWAR, hfind]
  dsimp only
  rw [hentry.base, hentry.appBase, add_sub_cancel_left, HostUniform.location]
  grind

theorem foldl_nearer (location : Int) (infos : List IndexInfo) (n : Nat) :
    let r := infos.zipIdx.foldl (ProgramData.nearer location) (n, -1)
    (r.2 < 0 ∧ ∀ info ∈ infos, location < info.base) ∨
      0 ≤ r.2 ∧ ∃ info, infos[r.1]? = some info ∧ r.2 = location - info.base ∧
        ∀ info' ∈ infos, info'.base ≤ location → info'.base ≤ info.base := by
  induction infos using List.reverseRecOn with
  | nil => exact .inl ⟨by simp, fun _ h => by cases h⟩
  | append_singleton infos last ih =>
      rw [List.zipIdx_append, List.foldl_append]
      generalize infos.zipIdx.foldl (ProgramData.nearer location) (n, -1) = r at ih
      simp only [List.zipIdx_singleton, List.foldl_cons, List.foldl_nil, Nat.zero_add,
        ProgramData.nearer, List.mem_append, List.mem_singleton]
      obtain ⟨hneg, hall⟩ | ⟨hnonneg, info, hget, hdist, hall⟩ := ih
      · grind
      · have hlt := (List.getElem?_eq_some_iff.mp hget).1
        by_cases hnear : last.base ≤ location ∧ info.base < last.base
        · rw [if_pos ⟨by omega, .inr (by omega)⟩]
          grind
        · grind

variable {u : HostUniform}

theorem getIndexForLocation_element (h : TableOf uniforms p)
    (hapart : uniforms.Pairwise HostUniform.Apart) {i e : Nat}
    (hu : uniforms[i]? = some u) (he : (e : Int) < u.active.size) :
    p.getIndexForLocation (u.location e) = i := by
  obtain ⟨info, hinfo, hentry⟩ := h.entry i u hu
  have hbelow : info.base ≤ u.location e := hentry.base ▸ u.base_le_location e
  have hnear := foldl_nearer (u.location e) p.indexes p.indexes.length
  dsimp only at hnear
  obtain ⟨-, hall⟩ | ⟨hnonneg, near, hget, hdist, hall⟩ := hnear
  · exact absurd hbelow (Int.not_le.mpr (hall info (List.mem_of_getElem? hinfo)))
  · obtain ⟨v, hv, hentry'⟩ := h.entry_of_get hget
    have hge := hall info (List.mem_of_getElem? hinfo) hbelow
    rw [hentry.base, hentry'.base] at hge
    by_contra hne
    have hafter := (apart_of_ne hapart hu hv (Ne.symm hne)).base he hge
    rw [hdist, hentry'.base] at hnonneg
    omega

theorem learn (h : TableOf uniforms p) {i : Nat} {info : IndexInfo}
    (hu : uniforms[i]? = some u) (hinfo : p.indexes[i]? = some info) :
    TableOf uniforms
      { p with indexes := p.indexes.set i { info with hostLocsPerElement := u.stride } } := by
  have hlt := (List.getElem?_eq_some_iff.mp hinfo).1
  obtain ⟨info', hinfo', hentry⟩ := h.entry i u hu
  rw [hinfo] at hinfo'
  obtain rfl := Option.some.inj hinfo'
  refine ⟨h.locShiftWAR, by rw [List.length_set, h.length], fun j v hv => ?_⟩
  by_cases heq : i = j
  · subst heq
    rw [hu] at hv
    obtain rfl := Option.some.inj hv
    exact ⟨_, List.getElem?_set_self hlt, hentry.base, hentry.size, hentry.appBase, .inr rfl⟩
  · rw [List.getElem?_set_ne heq]
    exact h.entry j v hv

theorem stands_learn {i : Nat} {info : IndexInfo} (hu : uniforms[i]? = some u)
    (hinfo : p.indexes[i]? = some info) {appLoc hostLoc : Int}
    (hstands : Stands uniforms p appLoc hostLoc) :
    Stands uniforms
      { p with indexes := p.indexes.set i { info with hostLocsPerElement := u.stride } }
      appLoc hostLoc := by
  have hlt := (List.getElem?_eq_some_iff.mp hinfo).1
  obtain ⟨j, v, f, info', hv, hget, hf, rfl, rfl, hlearned⟩ := hstands
  by_cases heq : i = j
  · subst heq
    rw [hu] at hv
    obtain rfl := Option.some.inj hv
    exact ⟨i, u, f, _, hu, List.getElem?_set_self hlt, hf, rfl, rfl, .inr rfl⟩
  · exact ⟨j, v, f, info', hv, by rw [List.getElem?_set_ne heq, hget], hf, rfl, rfl, hlearned⟩

/-- What a query for an element records, and the location it gives. -/
theorem hostToApp (h : TableOf uniforms p) (hapart : uniforms.Pairwise HostUniform.Apart)
    {i e : Nat} (hu : uniforms[i]? = some u) (he : (e : Int) < u.active.size) :
    let r := p.locationWARHostToApp (u.location e) e
    TableOf uniforms r.1 ∧ Stands uniforms r.1 r.2 (u.location e) ∧
      ∀ appLoc hostLoc, Stands uniforms p appLoc hostLoc → Stands uniforms r.1 appLoc hostLoc := by
  obtain ⟨info, hinfo, hentry⟩ := h.entry i u hu
  have hr : p.locationWARHostToApp (u.location e) e =
      ({ p with
          indexes :=
            (if (0 : Int) < e then
              p.indexes.set i
                { info with hostLocsPerElement := Int.tdiv (u.location e - info.base) e }
            else p.indexes) },
        info.appBase + e) := by
    rw [ProgramData.locationWARHostToApp, if_pos h.locShiftWAR]
    dsimp only
    rw [h.getIndexForLocation_element hapart hu he, hinfo]
  rw [hr]
  dsimp only
  have hloc : info.appBase + (e : Int) = appBase uniforms i + e := by rw [hentry.appBase]
  by_cases hpos : (0 : Int) < e
  · have hdiv : Int.tdiv (u.location e - info.base) e = u.stride := by
      rw [hentry.base, HostUniform.location, add_sub_cancel_left,
        Int.mul_tdiv_cancel_left _ (by omega)]
    rw [if_pos hpos, hdiv]
    have hlt := (List.getElem?_eq_some_iff.mp hinfo).1
    exact ⟨h.learn hu hinfo, ⟨i, u, e, _, hu, List.getElem?_set_self hlt, he, hloc, rfl, .inr rfl⟩,
      fun _ _ => stands_learn hu hinfo⟩
  · rw [if_neg hpos]
    have hzero : e = 0 := by omega
    exact ⟨⟨h.locShiftWAR, h.length, h.entry⟩,
      ⟨i, u, e, info, hu, hinfo, he, hloc, rfl, .inl hzero⟩, fun _ _ hstands => hstands⟩

end TableOf

/-- A table that is kept, with the locations that stand for those of the host. -/
structure Keeps (uniforms : List HostUniform) (p p' : ProgramData) : Prop where
  table : TableOf uniforms p → TableOf uniforms p'
  stands : ∀ appLoc hostLoc, Stands uniforms p appLoc hostLoc → Stands uniforms p' appLoc hostLoc

theorem Keeps.refl (uniforms : List HostUniform) (p : ProgramData) : Keeps uniforms p p :=
  ⟨id, fun _ _ => id⟩

/-- Shaders do not matter, nor what an entry has beside locations. -/
theorem Keeps.modify (uniforms : List HostUniform) (p : ProgramData) (i : Nat)
    {f : IndexInfo → IndexInfo}
    (hf : ∀ info, (f info).base = info.base ∧ (f info).size = info.size ∧
      (f info).appBase = info.appBase ∧ (f info).hostLocsPerElement = info.hostLocsPerElement) :
    Keeps uniforms p { p with indexes := p.indexes.modify i f } := by
  have hget : ∀ (j : Nat) (info : IndexInfo), p.indexes[j]? = some info →
      ∃ info', (p.indexes.modify i f)[j]? = some info' ∧ (info' = info ∨ info' = f info) := by grind
  refine ⟨fun h => ⟨h.locShiftWAR, by rw [List.length_modify, h.length], fun j u hu => ?_⟩, ?_⟩
  · obtain ⟨info, hj, hentry⟩ := h.entry j u hu
    obtain ⟨info', hj', rfl | rfl⟩ := hget j info hj
    · exact ⟨_, hj', hentry⟩
    · obtain ⟨hbase, hsize, happ, hhost⟩ := hf info
      exact ⟨_, hj', hbase.trans hentry.base, hsize.trans hentry.size, happ.trans hentry.appBase,
        hhost ▸ hentry.stride⟩
  · rintro _ _ ⟨j, u, e, info, hu, hj, he, rfl, rfl, hlearned⟩
    obtain ⟨info', hj', rfl | rfl⟩ := hget j info hj
    · exact ⟨j, u, e, _, hu, hj', he, rfl, rfl, hlearned⟩
    · exact ⟨j, u, e, _, hu, hj', he, rfl, rfl, (hf info).2.2.2 ▸ hlearned⟩

theorem Keeps.setSamplerUniform (uniforms : List HostUniform) (p : ProgramData)
    (appLoc val : Int) : Keeps uniforms p (p.setSamplerUniform appLoc val).1 := by
  unfold ProgramData.setSamplerUniform
  split
  · exact .modify uniforms p _ fun _ => ⟨rfl, rfl, rfl, rfl⟩
  · exact .refl uniforms p

theorem Keeps.shaders (uniforms : List HostUniform) (p : ProgramData) (shaders : List GLuint) :
    Keeps uniforms p { p with shaders } :=
  ⟨fun h => ⟨h.locShiftWAR, h.length, h.entry⟩, fun _ _ h => h⟩

theorem Keeps.attachShader (uniforms : List HostUniform) (p : ProgramData) (shader : GLuint) :
    Keeps uniforms p (p.attachShader shader).1 := by
  unfold ProgramData.attachShader
  split
  · exact .refl uniforms p
  · exact .shaders uniforms p _

theorem Keeps.detachShader (uniforms : List HostUniform) (p : ProgramData) (shader : GLuint) :
    Keeps uniforms p (p.detachShader shader).1 := by
  unfold ProgramData.detachShader
  split
  · exact .shaders uniforms p _
  · exact .refl uniforms p

/-! ## Linking -/

/-- The entries of the first `m` uniforms are filled in. -/
structure FilledTo (uniforms : List HostUniform) (m : Nat) (p : ProgramData) : Prop where
  length : p.indexes.length = uniforms.length
  entry : ∀ i u, i < m → uniforms[i]? = some u → ∃ info, p.indexes[i]? = some info ∧
    EntryOf uniforms i u info

namespace FilledTo

variable {uniforms : List HostUniform} {p : ProgramData} {m : Nat}

theorem setIndexInfo (h : FilledTo uniforms m p) (hu : uniforms[m]? = some u) :
    FilledTo uniforms (m + 1)
      (p.setIndexInfo m u.active.base u.active.size u.active.type) := by
  have hlt : m < p.indexes.length := h.length ▸ (List.getElem?_eq_some_iff.mp hu).1
  refine ⟨by rw [ProgramData.setIndexInfo, List.length_set, h.length], fun i v hi hv => ?_⟩
  rw [ProgramData.setIndexInfo]
  by_cases heq : m = i
  · subst heq
    rw [hu] at hv
    obtain rfl := Option.some.inj hv
    refine ⟨_, List.getElem?_set_self hlt, rfl, rfl, ?_, .inl rfl⟩
    cases m with
    | zero => rfl
    | succ m =>
        have hprev : m < uniforms.length := by grind
        obtain ⟨info, hget, hentry⟩ := h.entry m _ (Nat.lt_succ_self m)
          (List.getElem?_eq_getElem hprev)
        grind [appBase_succ, hentry.appBase, hentry.size]
  · dsimp only
    rw [List.getElem?_set_ne heq]
    exact h.entry i v (by omega) hv

theorem setIndexFlags (h : FilledTo uniforms m p) (i : Nat) (flags : GLuint) :
    FilledTo uniforms m (p.setIndexFlags i flags) := by
  refine ⟨by rw [ProgramData.setIndexFlags, List.length_modify, h.length], fun j u hj hu => ?_⟩
  obtain ⟨info, hget, hentry⟩ := h.entry j u hj hu
  rw [ProgramData.setIndexFlags, List.getElem?_modify, hget]
  split
  · exact ⟨_, rfl, hentry.base, hentry.size, hentry.appBase, hentry.stride⟩
  · exact ⟨_, rfl, hentry⟩

end FilledTo

namespace GLSharedGroup

variable {g : GLSharedGroup} {uniforms : List HostUniform} {program : GLuint}

theorem setProgramIndexInfo_filled {p : ProgramData} (hget : g.programs.get? program = some p)
    {m : Nat} (h : FilledTo uniforms m p) (hu : uniforms[m]? = some u) :
    ∃ p', (g.setProgramIndexInfo program m u.active.base u.active.size u.active.type
        u.active.name).programs.get? program = some p' ∧ FilledTo uniforms (m + 1) p' := by
  unfold GLSharedGroup.setProgramIndexInfo
  simp only [hget, KeyedVector.get?_add, if_true]
  refine ⟨_, rfl, ?_⟩
  split
  · exact (h.setIndexInfo hu).setIndexFlags m _
  · exact h.setIndexInfo hu

/-- The loop of `s_glLinkProgram` from uniform `m` on. -/
theorem foldl_setProgramIndexInfo_filled (program : GLuint) (rest : List HostUniform) :
    ∀ (m : Nat) (g : GLSharedGroup) (p : ProgramData), uniforms.drop m = rest →
      g.programs.get? program = some p → FilledTo uniforms m p →
      ∃ p', ((((rest.map HostUniform.active).zipIdx m).foldl
          (fun g (u, i) => g.setProgramIndexInfo program i u.base u.size u.type u.name)
          g).programs.get? program = some p') ∧ FilledTo uniforms uniforms.length p' := by
  induction rest with
  | nil =>
      intro m g p hdrop hget h
      have hlen := List.drop_eq_nil_iff.mp hdrop
      exact ⟨p, hget, h.length, fun i u hi hu => h.entry i u (by omega) hu⟩
  | cons u rest ih =>
      intro m g p hdrop hget h
      have hu : uniforms[m]? = some u := by
        rw [← List.head?_drop, hdrop, List.head?_cons]
      obtain ⟨p', hget', h'⟩ := setProgramIndexInfo_filled hget h hu
      refine ih (m + 1) _ p' ?_ hget' h'
      rw [← List.drop_drop, hdrop, List.drop_one, List.tail_cons]

/-- The workaround is used for such a program. -/
theorem linkProgram_table {p : ProgramData} (hget : g.programs.get? program = some p)
    (htwo : 2 ≤ uniforms.length) :
    ∃ p', (g.linkProgram program (uniforms.map HostUniform.active)).programs.get? program =
      some p' ∧ TableOf uniforms p' := by
  have hinit : (g.initProgramData program (uniforms.map HostUniform.active).length).programs.get?
      program = some (p.initProgramData uniforms.length) := by
    simp [initProgramData, List.length_map, KeyedVector.get?_add, hget]
  obtain ⟨p', hget', h⟩ := foldl_setProgramIndexInfo_filled program uniforms 0 _ _ rfl
    hinit ⟨by rw [ProgramData.initProgramData, List.length_replicate], fun i u hi => by omega⟩
  refine ⟨p'.setupLocationShiftWAR, ?_, ?_, h.length, fun i u hu => ?_⟩
  · grind [linkProgram, setupLocationShiftWAR]
  · rw [ProgramData.setupLocationShiftWAR]
    dsimp only
    rw [Bool.and_eq_true, decide_eq_true_eq, h.length, List.all_eq_true]
    refine ⟨fun info hmem => ?_, by omega⟩
    obtain ⟨i, hi⟩ := List.mem_iff_getElem?.mp hmem
    have hlt : i < uniforms.length := h.length ▸ (List.getElem?_eq_some_iff.mp hi).1
    obtain ⟨info', hget, hentry⟩ := h.entry i _ hlt (List.getElem?_eq_getElem hlt)
    rw [hi] at hget
    obtain rfl := Option.some.inj hget
    simp [hentry.base, HostUniform.base_aligned]
  · exact h.entry i u (List.getElem?_eq_some_iff.mp hu).1 hu

variable {program' : GLuint}

/-- Linking another program changes nothing. -/
theorem linkProgram_other (hne : program ≠ program')
    (actives : List ActiveUniform) :
    (g.linkProgram program' actives).programs.get? program = g.programs.get? program := by
  have hinit : ∀ (g : GLSharedGroup) n, (g.initProgramData program' n).programs.get? program =
      g.programs.get? program := by grind [initProgramData]
  have hset : ∀ (us : List (ActiveUniform × Nat)) (g : GLSharedGroup),
      (us.foldl (fun g (u, i) => g.setProgramIndexInfo program' i u.base u.size u.type u.name)
        g).programs.get? program = g.programs.get? program := by
    intro us
    induction us with
    | nil => exact fun _ => rfl
    | cons u us ih =>
        intro g
        obtain ⟨u, i⟩ := u
        rw [List.foldl_cons, ih]
        grind [setProgramIndexInfo]
  have hsetup : ∀ g : GLSharedGroup, (g.setupLocationShiftWAR program').programs.get? program =
      g.programs.get? program := by grind [setupLocationShiftWAR]
  grind [linkProgram]

theorem linkProgram_unknown (hget : g.programs.get? program = none)
    (actives : List ActiveUniform) : g.linkProgram program actives = g := by
  have hset : ∀ us : List (ActiveUniform × Nat),
      us.foldl (fun g (u, i) => g.setProgramIndexInfo program i u.base u.size u.type u.name) g =
        g := by
    intro us
    induction us with
    | nil => rfl
    | cons u us ih =>
        obtain ⟨u, i⟩ := u
        grind [setProgramIndexInfo]
  have hinit : g.initProgramData program actives.length = g := by
    rw [initProgramData, hget]
  grind [linkProgram, setupLocationShiftWAR]

/-! ## Other calls -/

/-- The data of one program is replaced by what keeps its table. -/
theorem rel_add {p p' : ProgramData}
    (hget : g.programs.get? program' = some p) (h : Keeps uniforms p p') :
    Option.Rel (Keeps uniforms) (g.programs.get? program)
      ((g.programs.add program' p').get? program) := by
  rw [KeyedVector.get?_add]
  split
  · rename_i heq
    rw [heq, hget]
    exact .some h
  · cases g.programs.get? program with
    | none => exact .none
    | some q => exact .some (.refl uniforms q)

theorem rel_of_eq {o o' : Option ProgramData} (h : o' = o) : Option.Rel (Keeps uniforms) o o' := by
  subst h
  cases o' with
  | none => exact .none
  | some q => exact .some (.refl uniforms q)

theorem refShaderDataLocked_programs {data : ShaderHandle} {g' : GLSharedGroup}
    (h : g.refShaderDataLocked data = .ok g') : g'.programs = g.programs := by
  obtain ⟨d, -, heq⟩ := Run.bind_eq_ok.mp h
  rw [← Except.ok.inj heq]

theorem unrefShaderDataLocked_programs {shader : GLuint} {data : ShaderHandle}
    {g' : GLSharedGroup} (h : g.unrefShaderDataLocked shader data = .ok g') :
    g'.programs = g.programs := by
  obtain ⟨d, -, heq⟩ := Run.bind_eq_ok.mp h
  split at heq
  · rw [← Except.ok.inj heq]
  · rw [← Except.ok.inj heq]

theorem shaderCall_rel (uniforms : List HostUniform) {c : ShaderCall} {g' : GLSharedGroup}
    (hcreate : c ≠ .glCreateProgram program) (hdelete : c ≠ .glDeleteProgram program)
    (h : g.shaderCall c = .ok g') :
    Option.Rel (Keeps uniforms) (g.programs.get? program) (g'.programs.get? program) := by
  cases c with
  | glCreateShader answer =>
      rw [← Except.ok.inj h]
      refine rel_of_eq ?_
      split <;> rfl
  | glDeleteShader shader =>
      have hcall : g.unrefShaderData shader = .ok g' := h
      unfold unrefShaderData at hcall
      split at hcall
      · exact rel_of_eq (by rw [unrefShaderDataLocked_programs hcall])
      · rw [← Except.ok.inj hcall]
        exact rel_of_eq rfl
  | glCreateProgram answer =>
      rw [← Except.ok.inj h]
      refine rel_of_eq ?_
      split
      · rw [addProgramData, KeyedVector.get?_add,
          if_neg fun heq => hcreate (congrArg ShaderCall.glCreateProgram heq.symm)]
      · rfl
  | glDeleteProgram program' =>
      rw [← Except.ok.inj h]
      refine rel_of_eq ?_
      rw [deleteProgramData, KeyedVector.get?_remove,
        if_neg fun heq => hdelete (congrArg ShaderCall.glDeleteProgram heq.symm)]
  | glAttachShader program' shader =>
      have hcall : g.attachShader program' shader = .ok g' := h
      unfold attachShader at hcall
      split at hcall
      · rename_i p data hget _
        dsimp only at hcall
        split at hcall
        · rw [refShaderDataLocked_programs hcall]
          exact rel_add hget (.attachShader uniforms p shader)
        · rw [← Except.ok.inj hcall]
          exact rel_of_eq rfl
      · rw [← Except.ok.inj hcall]
        exact rel_of_eq rfl
  | glDetachShader program' shader =>
      have hcall : g.detachShader program' shader = .ok g' := h
      unfold detachShader at hcall
      split at hcall
      · rename_i p data hget _
        dsimp only at hcall
        split at hcall
        · rw [unrefShaderDataLocked_programs hcall]
          exact rel_add hget (.detachShader uniforms p shader)
        · rw [← Except.ok.inj hcall]
          exact rel_of_eq rfl
      · rw [← Except.ok.inj hcall]
        exact rel_of_eq rfl

theorem setSamplerUniform_rel (uniforms : List HostUniform) (program' : GLuint)
    (location value : Int) :
    Option.Rel (Keeps uniforms) (g.programs.get? program)
      ((g.setSamplerUniform program' location value).1.programs.get? program) := by
  unfold setSamplerUniform
  split
  · rename_i p hget
    exact rel_add hget (.setSamplerUniform uniforms p location value)
  · exact rel_of_eq rfl

/-- Asking for a location of another program changes nothing. -/
theorem glGetUniformLocation_other (hne : program ≠ program')
    {name : Option (List UInt8)} {hostLoc : Int} {r : GLSharedGroup × Int}
    (h : g.glGetUniformLocation program' name hostLoc = .ok r) :
    r.1.programs.get? program = g.programs.get? program := by
  unfold glGetUniformLocation at h
  split at h
  · rw [← Except.ok.inj h]
  · split at h
    · obtain ⟨arrIndex, -, rfl⟩ := Run.map_eq_ok.mp h
      grind [locationWARHostToApp]
    · rw [← Except.ok.inj h]

end GLSharedGroup

/-! ## Runs -/

inductive UniformCall
  | shader (c : ShaderCall)
  | glLinkProgram (program : GLuint) (uniforms : List ActiveUniform)
  | glUniform1i (program : GLuint) (location value : Int)
  | glGetUniformLocation (program : GLuint) (name : List UInt8) (hostLoc : Int)

/-- The share group, and the names asked for in one program with the locations given. -/
structure UniformSystem where
  shared : GLSharedGroup
  answers : List (List UInt8 × Int)

namespace UniformSystem

def step (program : GLuint) (x : UniformSystem) : UniformCall → Except MemoryFault UniformSystem
  | .shader c => (x.shared.shaderCall c).map fun shared => { x with shared }
  | .glLinkProgram program' uniforms =>
      .ok { x with shared := x.shared.linkProgram program' uniforms }
  | .glUniform1i program' location value =>
      .ok { x with shared := (x.shared.setSamplerUniform program' location value).1 }
  | .glGetUniformLocation program' name hostLoc =>
      (x.shared.glGetUniformLocation program' (some name) hostLoc).map fun r =>
        ⟨r.1, if program' = program then (name, r.2) :: x.answers else x.answers⟩

/-- The program is not linked again, and its name not given anew; the host answers for it as it
was linked. -/
def KeepsLink (h : HostProgram) (program : GLuint) (_ : UniformSystem) : UniformCall → Prop
  | .shader c => c ≠ .glCreateProgram program ∧ c ≠ .glDeleteProgram program
  | .glLinkProgram program' _ => program' ≠ program
  | .glUniform1i _ _ _ => True
  | .glGetUniformLocation program' name hostLoc => program' = program → hostLoc = h.loc name

instance (h : HostProgram) (program : GLuint) (x : UniformSystem) (c : UniformCall) :
    Decidable (KeepsLink h program x c) :=
  match c with
  | .shader _ => inferInstanceAs (Decidable (_ ∧ _))
  | .glLinkProgram _ _ => inferInstanceAs (Decidable (_ ≠ _))
  | .glUniform1i _ _ _ => inferInstanceAs (Decidable True)
  | .glGetUniformLocation _ _ _ => inferInstanceAs (Decidable (_ → _))

def start (g : GLSharedGroup) (h : HostProgram) (program : GLuint) : UniformSystem :=
  ⟨g.linkProgram program (h.uniforms.map HostUniform.active), []⟩

/-- Every location given for an element is mapped to that of the host, and no two elements have
one location. -/
structure RoundTrips (h : HostProgram) (program : GLuint) (x : UniformSystem) : Prop where
  mapped : ∀ name appLoc, (name, appLoc) ∈ x.answers → 0 ≤ h.loc name →
    x.shared.locationWARAppToHost program appLoc = h.loc name
  distinct : ∀ name appLoc i e name' appLoc' i' e', (name, appLoc) ∈ x.answers →
    (name', appLoc') ∈ x.answers → IsElement h.uniforms h.loc name i e →
    IsElement h.uniforms h.loc name' i' e' → (i, e) ≠ (i', e') → appLoc ≠ appLoc'

/-- The invariant; without data of the program the locations are those of the host. -/
structure Invariant (h : HostProgram) (program : GLuint) (x : UniformSystem) : Prop where
  table : ∀ p, x.shared.programs.get? program = some p → TableOf h.uniforms p
  stands : ∀ name appLoc, (name, appLoc) ∈ x.answers → 0 ≤ h.loc name →
    ∀ p, x.shared.programs.get? program = some p → Stands h.uniforms p appLoc (h.loc name)
  same : ∀ name appLoc, (name, appLoc) ∈ x.answers → x.shared.programs.get? program = none →
    appLoc = h.loc name

variable {h : HostProgram} {program : GLuint} {x : UniformSystem}

theorem Invariant.roundTrips (hinv : x.Invariant h program) : x.RoundTrips h program := by
  have hmapped : ∀ name appLoc, (name, appLoc) ∈ x.answers → 0 ≤ h.loc name →
      x.shared.locationWARAppToHost program appLoc = h.loc name := by
    intro name appLoc hmem hloc
    unfold GLSharedGroup.locationWARAppToHost
    split
    · rename_i p hget
      exact (hinv.table p hget).appToHost (hinv.stands name appLoc hmem hloc p hget)
    · grind [hinv.same]
  refine ⟨hmapped, ?_⟩
  rintro name appLoc i e name' appLoc' i' e' hmem hmem' ⟨u, hu, he, -, hloc⟩
    ⟨u', hu', he', -, hloc'⟩ hne rfl
  have hnonneg := Int.le_trans u.base_nonneg (u.base_le_location e)
  have hnonneg' := Int.le_trans u'.base_nonneg (u'.base_le_location e')
  grind [element_unique, h.apart]

/-- A call that gives no location of the program, and keeps its table. -/
theorem Invariant.of_rel (hinv : x.Invariant h program) {shared : GLSharedGroup}
    (hrel : Option.Rel (Keeps h.uniforms) (x.shared.programs.get? program)
      (shared.programs.get? program)) :
    (UniformSystem.mk shared x.answers).Invariant h program := by
  refine ⟨fun p hget => ?_, fun name appLoc hmem hloc p hget => ?_, fun name appLoc hmem hget => ?_⟩
  all_goals
    dsimp only at hget
    rw [hget] at hrel
    generalize hold : x.shared.programs.get? program = o at hrel
  · cases hrel with
    | some hkeeps => exact hkeeps.table (hinv.table _ hold)
  · cases hrel with
    | some hkeeps => exact hkeeps.stands _ _ (hinv.stands name appLoc hmem hloc _ hold)
  · cases hrel
    exact hinv.same name appLoc hmem hold

/-- A name that the host does not know is asked for; the table stays as it is. -/
theorem Invariant.notFound (hinv : x.Invariant h program) {p : ProgramData}
    (hget : x.shared.programs.get? program = some p) {name : List UInt8}
    (hloc : ¬0 ≤ h.loc name) (answer : Int) :
    (UniformSystem.mk x.shared ((name, answer) :: x.answers)).Invariant h program := by
  refine ⟨hinv.table, fun name' appLoc hmem hloc' => ?_, fun _ _ _ hnone => ?_⟩
  · grind [hinv.stands]
  · grind

/-- A location of the program is asked for. -/
theorem Invariant.query (hinv : x.Invariant h program) {name : List UInt8}
    {r : GLSharedGroup × Int}
    (hcall : x.shared.glGetUniformLocation program (some name) (h.loc name) = .ok r) :
    (UniformSystem.mk r.1 ((name, r.2) :: x.answers)).Invariant h program := by
  unfold GLSharedGroup.glGetUniformLocation GLSharedGroup.needUniformLocationWAR at hcall
  cases hget : x.shared.programs.get? program with
  | none =>
      simp only [hget, Bool.false_eq_true, if_false] at hcall
      obtain rfl := Except.ok.inj hcall
      refine ⟨hinv.table, fun name' appLoc _ _ p hp => ?_, fun name' appLoc hmem hnone => ?_⟩
      · rw [hget] at hp
        cases hp
      · grind [hinv.same]
  | some p =>
      have htable := hinv.table p hget
      simp only [hget, htable.locShiftWAR, if_true] at hcall
      by_cases hloc : 0 ≤ h.loc name
      · obtain ⟨i, e, u, hu, he, hspells, hat⟩ := h.found name hloc
        rw [arrayIndex_of_spells hspells u.ident_ne u.ident_last (by have := u.size_lt; omega)]
          at hcall
        simp only [Except.map, if_pos hloc] at hcall
        obtain rfl := Except.ok.inj hcall
        obtain ⟨htable', hstands, hkeeps⟩ := htable.hostToApp h.apart hu he
        rw [← hat] at htable' hstands hkeeps
        simp only [GLSharedGroup.locationWARHostToApp, hget]
        refine ⟨fun q hq => ?_, fun name' appLoc hmem hloc' q hq => ?_,
          fun name' appLoc _ hnone => ?_⟩
        · rw [KeyedVector.get?_add, if_pos rfl] at hq
          exact Option.some.inj hq ▸ htable'
        · rw [KeyedVector.get?_add, if_pos rfl] at hq
          obtain rfl := Option.some.inj hq
          grind [hinv.stands]
        · grind
      · grind [Run.map_eq_ok, hinv.notFound]

theorem Invariant.step (hinv : x.Invariant h program) {c : UniformCall} {x' : UniformSystem}
    (hkeeps : KeepsLink h program x c) (hstep : step program x c = .ok x') :
    x'.Invariant h program := by
  cases c with
  | shader c =>
      obtain ⟨shared, hcall, rfl⟩ := Run.map_eq_ok.mp hstep
      exact hinv.of_rel (GLSharedGroup.shaderCall_rel h.uniforms hkeeps.1 hkeeps.2 hcall)
  | glLinkProgram program' uniforms =>
      rw [← Except.ok.inj hstep]
      exact hinv.of_rel (GLSharedGroup.rel_of_eq
        (GLSharedGroup.linkProgram_other (Ne.symm hkeeps) uniforms))
  | glUniform1i program' location value =>
      rw [← Except.ok.inj hstep]
      exact hinv.of_rel (GLSharedGroup.setSamplerUniform_rel h.uniforms program' location value)
  | glGetUniformLocation program' name hostLoc =>
      obtain ⟨r, hcall, rfl⟩ := Run.map_eq_ok.mp hstep
      by_cases heq : program' = program
      · obtain rfl := hkeeps heq
        subst heq
        rw [if_pos rfl]
        exact hinv.query hcall
      · grind [GLSharedGroup.rel_of_eq, GLSharedGroup.glGetUniformLocation_other, hinv.of_rel]

theorem invariant_start (g : GLSharedGroup) (h : HostProgram) (program : GLuint) :
    (start g h program).Invariant h program := by
  refine ⟨fun p hget => ?_, fun _ _ hmem => (by cases hmem), fun _ _ hmem => (by cases hmem)⟩
  change (g.linkProgram program _).programs.get? program = some p at hget
  cases hold : g.programs.get? program with
  | none => grind [GLSharedGroup.linkProgram_unknown]
  | some q => grind [GLSharedGroup.linkProgram_table, h.two_le]

/-- In every run from the link of a program, as long as it is not linked again, each location given
for an element of a uniform is mapped to the location of the element on the host, whatever was
asked for in between, and different elements have different locations. -/
theorem locations_round_trip (g : GLSharedGroup) (h : HostProgram) (program : GLuint)
    (x : UniformSystem)
    (hreach : Run.Reach (step program) (KeepsLink h program) (start g h program) x) :
    x.RoundTrips h program := by
  have hinv : x.Invariant h program :=
    hreach.invariant (invariant_start g h program) fun _ _ _ hinv hok hstep => hinv.step hok hstep
  exact hinv.roundTrips

/-- A program of an array of matrices, two locations apart, and a vector. -/
def twoUniforms : List HostUniform :=
  [⟨⟨0, 3, 0x8B5B, literal "m[0]", by decide⟩, literal "m", 2, by decide, by decide, by decide,
      by decide, by decide, by decide, by decide⟩,
    ⟨⟨65536, 1, 0x8B52, literal "v", by decide⟩, literal "v", 1, by decide, by decide, by decide,
      by decide, by decide, by decide, by decide⟩]

def twoUniformsLoc (name : List UInt8) : Int :=
  if name = literal "m" ∨ name = literal "m[0]" then 0
  else if name = literal "m[1]" then 2
  else if name = literal "m[2]" then 4
  else if name = literal "v" then 65536
  else -1

theorem twoUniforms_found (name : List UInt8) (hloc : 0 ≤ twoUniformsLoc name) :
    ∃ i e, IsElement twoUniforms twoUniformsLoc name i e := by
  have hnumber : ∀ c : UInt8, isdigit c = true →
      Spells (literal "m") (literal "m" ++ 91 :: ([c] ++ [93])) (Translator.ofDigits [c]) :=
    fun c hc => .inr ⟨[c], by simp, fun _ hmem => List.mem_singleton.mp hmem ▸ hc, rfl, rfl⟩
  unfold twoUniformsLoc at hloc
  split_ifs at hloc with h0 h1 h2 hv
  · obtain rfl | rfl := h0
    · exact ⟨0, 0, _, rfl, by decide, .inl ⟨rfl, rfl⟩, by decide⟩
    · exact ⟨0, 0, _, rfl, by decide, hnumber 48 (by decide), by decide⟩
  · subst h1
    exact ⟨0, 1, _, rfl, by decide, hnumber 49 (by decide), by decide⟩
  · subst h2
    exact ⟨0, 2, _, rfl, by decide, hnumber 50 (by decide), by decide⟩
  · subst hv
    exact ⟨1, 0, _, rfl, by decide, .inl ⟨rfl, rfl⟩, by decide⟩
  · exact absurd hloc (by decide)

def twoUniformsProgram : HostProgram where
  uniforms := twoUniforms
  loc := twoUniformsLoc
  two_le := by decide
  apart := by
    rw [twoUniforms, List.pairwise_pair]
    exact .inl (by decide)
  found := twoUniforms_found

/-- The last element is asked for before the others, and the vector between them. -/
theorem locations_round_trip_two :
    ∃ x : UniformSystem, x.answers = [(literal "m[1]", 1), (literal "v", 3), (literal "m[2]", 2),
      (literal "m", 0)] ∧ x.RoundTrips twoUniformsProgram 1 := by
  have hrun : Run.check (step 1) (fun x c => decide (KeepsLink twoUniformsProgram 1 x c))
      (fun x => decide (x.answers = [(literal "m[1]", 1), (literal "v", 3), (literal "m[2]", 2),
        (literal "m", 0)]))
      (start ⟨KeyedVector.empty.add 1 .new, .empty, .empty⟩ twoUniformsProgram 1)
      [.glGetUniformLocation 1 (literal "m") 0, .glGetUniformLocation 1 (literal "m[2]") 4,
        .shader (.glCreateProgram 2), .glGetUniformLocation 1 (literal "v") 65536,
        .glGetUniformLocation 1 (literal "m[1]") 2] = true := by
    decide +kernel
  obtain ⟨x, hreach, htest⟩ :=
    Run.exists_reach_of_check (fun _ _ hok => of_decide_eq_true hok) hrun
  exact ⟨x, of_decide_eq_true htest, locations_round_trip _ twoUniformsProgram 1 x hreach⟩

end UniformSystem

end AndroidRenderer
