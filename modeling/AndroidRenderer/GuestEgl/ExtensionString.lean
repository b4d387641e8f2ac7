import AndroidRenderer.Lib.Scans
import Mathlib.Algebra.Order.Group.Nat

/-!
# The extension string

`buildExtensionString` keeps of the host's extensions those that the library supports, and moves
them to the front of the string with `memcpy`. What `memcpy` leaves of a string when its two
ranges overlap is not known.
-/

namespace AndroidRenderer.GuestEgl

/-- Bytes of a string; `none` ends it. -/
abbrev CharBuffer := List (Option Char)

def systemStaticEGLExtensions : List Char :=
  "EGL_ANDROID_image_native_buffer EGL_KHR_fence_sync ".toList

/-- The names in `systemDynamicEGLExtensions`. -/
def dynamicNames : List (List Char) :=
  ["EGL_KHR_image_base".toList, "EGL_KHR_gl_texture_2d_image".toList]

def spaced (names : List (List Char)) : List Char := names.flatMap (· ++ [' '])

def systemDynamicEGLExtensions : List Char := spaced dynamicNames

/-- The loop of `findExtInList`, over what `p` points to. -/
def findExtFrom (token : List Char) : Nat → List Char → Bool
  | 0, _ => false
  | fuel + 1, p =>
      match p.dropWhile (· ≠ ' ') with
      | [] => false
      | _ :: rest => if token = p.takeWhile (· ≠ ' ') then true else findExtFrom token fuel rest

def findExtInList (token list : List Char) : Bool := findExtFrom token list.length list

/-- The bytes that `memcpy` copies when the ranges are apart. -/
def copied (buf : CharBuffer) (dst src n : Nat) : CharBuffer :=
  buf.take dst ++ (buf.drop src).take n ++ buf.drop (dst + n)

/-- What `memcpy` promises. -/
def Conforming (memcpy : CharBuffer → Nat → Nat → Nat → CharBuffer) : Prop :=
  ∀ buf dst src n, dst + n ≤ src ∨ src + n ≤ dst → memcpy buf dst src n = copied buf dst src n

variable {memcpy : CharBuffer → Nat → Nat → Nat → CharBuffer}

/-- The loop of `buildExtensionString` from `c` on, with the string and `insert` at its end; there
is no result where it leaves the string. -/
def filterLoop (memcpy : CharBuffer → Nat → Nat → Nat → CharBuffer) :
    Nat → CharBuffer → Nat → Nat → Nat → Option (CharBuffer × Nat)
  | 0, _, _, _, _ => none
  | fuel + 1, hostExt, c, ext, insert =>
      match hostExt[c]? with
      | none => none
      | some none => some (hostExt, insert)
      | some (some char) =>
          if char = ' ' then
            let token := ((hostExt.drop ext).take (c - ext)).filterMap id
            if findExtInList token systemDynamicEGLExtensions then
              let hostExt :=
                if ext ≠ insert then memcpy hostExt insert ext (c - ext + 1) else hostExt
              filterLoop memcpy fuel hostExt (c + 1) (c + 1) (insert + (c - ext + 1))
            else filterLoop memcpy fuel hostExt (c + 1) (c + 1) insert
          else filterLoop memcpy fuel hostExt (c + 1) ext insert

/-- The characters up to the end of a string. -/
def contents (buf : CharBuffer) : List Char := (buf.takeWhile Option.isSome).filterMap id

/-- `buildExtensionString`; `host` is what `queryHostEGLString` returns, without the space that it
adds. -/
def buildExtensionString (memcpy : CharBuffer → Nat → Nat → Nat → CharBuffer)
    (host : Option (List Char)) : Option (List Char) :=
  match host with
  | none => some systemStaticEGLExtensions
  | some host =>
      let hostExt := (host ++ [' ']).map some ++ [none]
      if hostExt[1]? = some none then some systemStaticEGLExtensions
      else
        (filterLoop memcpy hostExt.length hostExt 0 0 0).map fun r =>
          systemStaticEGLExtensions ++ contents (r.1.set r.2 none)

/-- The extensions of the host that are supported. -/
def kept (names : List (List Char)) : List (List Char) := names.filter (· ∈ dynamicNames)

/-- Each supported extension is moved by its own length at least, or not at all; `removed` is how
many bytes have been removed before. -/
def MovesApart : List (List Char) → Nat → Prop
  | [], _ => True
  | w :: names, removed =>
      if w ∈ dynamicNames then
        (removed = 0 ∨ w.length + 1 ≤ removed) ∧ MovesApart names removed
      else MovesApart names (removed + (w.length + 1))

/-! ## Names -/

variable {names : List (List Char)}

theorem findExtFrom_iff (hnames : ∀ w ∈ names, ' ' ∉ w) {fuel : Nat}
    (hfuel : names.length ≤ fuel) (token : List Char) :
    findExtFrom token fuel (spaced names) = true ↔ token ∈ names := by
  induction names generalizing fuel with
  | nil => cases fuel <;> simp [findExtFrom, spaced]
  | cons w names ih =>
      obtain ⟨fuel, rfl⟩ := Nat.exists_eq_succ_of_ne_zero (Nat.ne_of_gt (Nat.zero_lt_of_lt hfuel))
      have hw : ' ' ∉ w := hnames w List.mem_cons_self
      have hspaced : spaced (w :: names) = w ++ ' ' :: spaced names := by simp [spaced]
      rw [findExtFrom, hspaced, Separators.dropWhile_append_cons hw,
        Separators.takeWhile_append_cons hw]
      dsimp only
      rw [List.mem_cons]
      split
      · simp [*]
      · rw [ih (fun w' hw' => hnames w' (List.mem_cons_of_mem w hw'))
          (Nat.le_of_succ_le_succ hfuel)]
        simp [*]

theorem findExtInList_iff (token : List Char) :
    findExtInList token systemDynamicEGLExtensions = true ↔ token ∈ dynamicNames :=
  findExtFrom_iff (by decide) (by decide) token

/-- A text with a space behind it is its names, each with a space behind it. -/
theorem spaced_splitOn (host : List Char) :
    spaced (host.splitOn ' ') = host ++ [' '] ∧ ∀ w ∈ host.splitOn ' ', ' ' ∉ w := by
  induction host using Separators.piece_induction ' ' with
  | last w hw =>
      rw [List.splitOn_eq_singleton hw]
      simp [spaced, hw]
  | more w rest hw ih =>
      rw [List.splitOn_append_cons_self_of_not_mem hw]
      obtain ⟨hspaced, hrest⟩ := ih
      refine ⟨?_, by simpa [hw] using hrest⟩
      simpa [spaced] using hspaced

/-! ## The loop -/

attribute [local simp] filterLoop

theorem filterLoop_name {w : List Char} (hw : ' ' ∉ w) (fuel : Nat) (pre rest : CharBuffer)
    (ext insert : Nat) :
    filterLoop memcpy (w.length + fuel) (pre ++ (w.map some ++ rest)) pre.length ext insert =
      filterLoop memcpy fuel (pre ++ (w.map some ++ rest)) (pre.length + w.length) ext insert := by
  induction w generalizing pre with
  | nil => simp
  | cons ch w ih =>
      rw [List.mem_cons, not_or] at hw
      have hget : (pre ++ ((ch :: w).map some ++ rest))[pre.length]? = some (some ch) := by simp
      have hnext := ih hw.2 (pre ++ [some ch])
      simp only [List.append_assoc, List.length_append, List.length_singleton,
        List.cons_append, List.nil_append] at hnext
      rw [List.length_cons, Nat.add_right_comm, filterLoop, hget]
      dsimp only
      rw [if_neg (Ne.symm hw.1), List.map_cons, List.cons_append, hnext]
      congr 1
      omega

/-- The string with `out` as its kept part, `junk` up to `ext` and a name there. -/
theorem filterLoop_space {w : List Char} (hw : ' ' ∉ w) (fuel : Nat) (out junk rest : CharBuffer) :
    filterLoop memcpy (w.length + (fuel + 1)) (out ++ junk ++ (w.map some ++ some ' ' :: rest))
        (out ++ junk).length (out ++ junk).length out.length =
      if w ∈ dynamicNames then
        filterLoop memcpy fuel
          (if (out ++ junk).length ≠ out.length then
            memcpy (out ++ junk ++ (w.map some ++ some ' ' :: rest)) out.length (out ++ junk).length
              (w.length + 1)
          else out ++ junk ++ (w.map some ++ some ' ' :: rest))
          ((out ++ junk).length + (w.length + 1)) ((out ++ junk).length + (w.length + 1))
          (out.length + (w.length + 1))
      else
        filterLoop memcpy fuel (out ++ junk ++ (w.map some ++ some ' ' :: rest))
          ((out ++ junk).length + (w.length + 1)) ((out ++ junk).length + (w.length + 1))
          out.length := by
  have hget : (out ++ junk ++ (w.map some ++ some ' ' :: rest))[(out ++ junk).length + w.length]? =
      some (some ' ') := by
    rw [List.getElem?_append_right (by omega), Nat.add_sub_cancel_left,
      List.getElem?_append_right (by simp), List.length_map, Nat.sub_self]
    rfl
  have htoken : ((((out ++ junk ++ (w.map some ++ some ' ' :: rest)).drop (out ++ junk).length).take
      ((out ++ junk).length + w.length - (out ++ junk).length)).filterMap id) = w := by
    rw [List.drop_left, Nat.add_sub_cancel_left]
    simp
  rw [filterLoop_name hw, filterLoop, hget]
  dsimp only
  rw [if_pos rfl, htoken, Nat.add_sub_cancel_left]
  simp only [findExtInList_iff, Nat.add_assoc]

/-- A name that is kept, and moved where there is room for it. -/
theorem filterLoop_kept (hm : Conforming memcpy) {w : List Char} (hw : ' ' ∉ w)
    (hin : w ∈ dynamicNames) (out junk rest : CharBuffer)
    (hroom : junk.length = 0 ∨ w.length + 1 ≤ junk.length) :
    ∃ junk' : CharBuffer, junk'.length = junk.length ∧ ∀ fuel,
      filterLoop memcpy (w.length + (fuel + 1)) (out ++ junk ++ (w.map some ++ some ' ' :: rest))
          (out ++ junk).length (out ++ junk).length out.length =
        filterLoop memcpy fuel (out ++ (w ++ [' ']).map some ++ junk' ++ rest)
          (out ++ (w ++ [' ']).map some ++ junk').length
          (out ++ (w ++ [' ']).map some ++ junk').length (out ++ (w ++ [' ']).map some).length := by
  have hlen : ((w ++ [' ']).map some : CharBuffer).length = w.length + 1 := by simp
  by_cases hjunk : junk.length = 0
  · obtain rfl := List.length_eq_zero_iff.mp hjunk
    refine ⟨[], rfl, fun fuel => ?_⟩
    rw [filterLoop_space hw, if_pos hin]
    simp
  · have hroom := hroom.resolve_left hjunk
    refine ⟨(junk ++ (w ++ [' ']).map some).drop (w.length + 1), by simp, fun fuel => ?_⟩
    rw [filterLoop_space hw, if_pos hin, if_pos (by simpa using hjunk),
      hm _ _ _ _ (.inl (by simp; omega))]
    have hcopied : copied (out ++ junk ++ (w.map some ++ some ' ' :: rest)) out.length
        (out ++ junk).length (w.length + 1) = out ++ (w ++ [' ']).map some ++
          (junk ++ (w ++ [' ']).map some).drop (w.length + 1) ++ rest := by
      have hname : w.map some ++ some ' ' :: rest = (w ++ [' ']).map some ++ rest := by simp
      rw [hname, copied, ← hlen, List.drop_left, List.take_left, List.append_assoc out,
        List.take_left, ← List.append_assoc junk, ← List.drop_drop, List.drop_left,
        @List.drop_append_of_le_length _ (junk ++ _) _ _ (by simp)]
      simp only [List.append_assoc]
    have hends : (out ++ (w ++ [' ']).map some ++
        (junk ++ (w ++ [' ']).map some).drop (w.length + 1)).length =
        (out ++ junk).length + (w.length + 1) := by
      simp only [List.length_append, List.length_drop, hlen]
      omega
    rw [hcopied, hends, @List.length_append _ out ((w ++ [' ']).map some), hlen]

/-- The first of some names, and the fuel that is left behind it. -/
theorem spaced_cons {w : List Char} {fuel : Nat}
    (hfuel : (spaced (w :: names)).length < fuel) :
    (spaced (w :: names)).map some ++ [none] =
        w.map some ++ some ' ' :: ((spaced names).map some ++ [none]) ∧
      ∃ fuel', fuel = w.length + (fuel' + 1) ∧ (spaced names).length < fuel' := by
  have hlength : (spaced (w :: names)).length = w.length + ((spaced names).length + 1) := by
    simp [spaced]
  exact ⟨by simp [spaced], fuel - w.length - 1, by omega, by omega⟩

theorem filterLoop_names (hm : Conforming memcpy)
    (hnames : ∀ w ∈ names, ' ' ∉ w) (out junk : CharBuffer) {fuel : Nat}
    (hfuel : (spaced names).length < fuel) (hapart : MovesApart names junk.length) :
    ∃ buf insert, filterLoop memcpy fuel (out ++ junk ++ ((spaced names).map some ++ [none]))
        (out ++ junk).length (out ++ junk).length out.length = some (buf, insert) ∧
      insert < buf.length ∧ buf.take insert = out ++ (spaced (kept names)).map some := by
  induction names generalizing out junk fuel with
  | nil =>
      obtain ⟨fuel, rfl⟩ := Nat.exists_eq_succ_of_ne_zero (Nat.ne_of_gt (Nat.zero_lt_of_lt hfuel))
      exact ⟨out ++ junk ++ [none], out.length, by simp [spaced], by simp,
        by simp [spaced, kept]⟩
  | cons w names ih =>
      have hw : ' ' ∉ w := hnames w List.mem_cons_self
      have hrest : ∀ w' ∈ names, ' ' ∉ w' := fun w' hw' => hnames w' (List.mem_cons_of_mem w hw')
      obtain ⟨hspaced, fuel, rfl, hfuel'⟩ := spaced_cons hfuel
      rw [hspaced]
      rw [MovesApart] at hapart
      by_cases hin : w ∈ dynamicNames
      · rw [if_pos hin] at hapart
        obtain ⟨junk', hjunk', hstep⟩ := filterLoop_kept hm hw hin out junk
          ((spaced names).map some ++ [none]) hapart.1
        obtain ⟨buf, insert, hloop, hlt, htake⟩ := ih hrest (out ++ (w ++ [' ']).map some) junk'
          hfuel' (hjunk' ▸ hapart.2)
        refine ⟨buf, insert, (hstep fuel).trans hloop, hlt, ?_⟩
        have hkept : kept (w :: names) = w :: kept names :=
          List.filter_cons_of_pos (by simpa using hin)
        rw [htake, hkept]
        simp [spaced]
      · rw [if_neg hin] at hapart
        have hlen : (junk ++ (w ++ [' ']).map some : CharBuffer).length =
            junk.length + (w.length + 1) := by simp
        obtain ⟨buf, insert, hloop, hlt, htake⟩ := ih hrest out (junk ++ (w ++ [' ']).map some)
          hfuel' (hlen ▸ hapart)
        refine ⟨buf, insert, ?_, hlt, ?_⟩
        · rw [filterLoop_space hw, if_neg hin]
          simpa [Nat.add_assoc] using hloop
        · rw [htake, kept, kept, List.filter_cons_of_neg (by simpa using hin)]

/-- A `memcpy` that leaves nothing of a string when the ranges overlap. -/
def tearing (buf : CharBuffer) (dst src n : Nat) : CharBuffer :=
  if dst + n ≤ src ∨ src + n ≤ dst then copied buf dst src n else []

theorem tearing_conforming : Conforming tearing := fun _ _ _ _ h => if_pos h

theorem filterLoop_nil (fuel c ext insert : Nat) :
    filterLoop memcpy fuel [] c ext insert = none := by
  cases fuel <;> rfl

/-- The loop with a name that is moved onto itself. -/
theorem filterLoop_torn (hnames : ∀ w ∈ names, ' ' ∉ w)
    (out junk : CharBuffer) {fuel : Nat} (hfuel : (spaced names).length < fuel)
    (hapart : ¬MovesApart names junk.length) :
    filterLoop tearing fuel (out ++ junk ++ ((spaced names).map some ++ [none]))
      (out ++ junk).length (out ++ junk).length out.length = none := by
  induction names generalizing out junk fuel with
  | nil => exact absurd trivial hapart
  | cons w names ih =>
      have hw : ' ' ∉ w := hnames w List.mem_cons_self
      have hrest : ∀ w' ∈ names, ' ' ∉ w' := fun w' hw' => hnames w' (List.mem_cons_of_mem w hw')
      obtain ⟨hspaced, fuel, rfl, hfuel'⟩ := spaced_cons hfuel
      rw [hspaced]
      rw [MovesApart] at hapart
      by_cases hin : w ∈ dynamicNames
      · rw [if_pos hin] at hapart
        by_cases hroom : junk.length = 0 ∨ w.length + 1 ≤ junk.length
        · obtain ⟨junk', hjunk', hstep⟩ := filterLoop_kept tearing_conforming hw hin out junk
            ((spaced names).map some ++ [none]) hroom
          rw [hstep]
          exact ih hrest _ junk' hfuel' (hjunk' ▸ fun hmoves => hapart ⟨hroom, hmoves⟩)
        · have htorn : ¬(out.length + (w.length + 1) ≤ (out ++ junk).length ∨
              (out ++ junk).length + (w.length + 1) ≤ out.length) := by
            rw [List.length_append]
            omega
          rw [filterLoop_space hw, if_pos hin,
            if_pos (by simpa using fun h => hroom (.inl (by simp [h]))), tearing,
            if_neg htorn, filterLoop_nil]
      · rw [if_neg hin] at hapart
        have hlen : (junk ++ (w ++ [' ']).map some : CharBuffer).length =
            junk.length + (w.length + 1) := by simp
        rw [filterLoop_space hw, if_neg hin]
        simpa [Nat.add_assoc] using ih hrest out (junk ++ (w ++ [' ']).map some) hfuel'
          (hlen ▸ hapart)

/-- The extension string has the extensions of the host that are supported, whatever `memcpy` leaves
of ranges that overlap, where it never gets such ranges. -/
theorem buildExtensionString_iff (host : List Char) :
    (∀ memcpy, Conforming memcpy → buildExtensionString memcpy (some host) =
        some (systemStaticEGLExtensions ++ spaced (kept (host.splitOn ' ')))) ↔
      MovesApart (host.splitOn ' ') 0 := by
  obtain ⟨hspaced, hnames⟩ := spaced_splitOn host
  by_cases hempty : host = []
  · subst hempty
    refine iff_of_true (fun memcpy _ => ?_) (by simp [MovesApart, dynamicNames])
    simp [buildExtensionString, kept, spaced, dynamicNames]
  · have hstart : ((host ++ [' ']).map some ++ [none] : CharBuffer)[1]? ≠ some none := by
      obtain ⟨char, rest, rfl⟩ := List.exists_cons_of_ne_nil hempty
      cases rest <;> simp
    have hlength : (spaced (host.splitOn ' ')).length <
        ((host ++ [' ']).map some ++ [none] : CharBuffer).length := by simp [hspaced]
    simp only [buildExtensionString, if_neg hstart]
    rw [← hspaced] at hlength ⊢
    constructor
    · intro hall
      by_contra hapart
      have htorn := filterLoop_torn hnames [] [] hlength hapart
      simp only [List.nil_append, List.length_nil] at htorn
      have hsome := hall tearing tearing_conforming
      rw [htorn] at hsome
      cases hsome
    · intro hapart memcpy hm
      obtain ⟨buf, insert, hloop, hlt, htake⟩ := filterLoop_names hm hnames [] [] hlength hapart
      simp only [List.nil_append, List.length_nil] at hloop htake
      rw [hloop]
      have hcontents : contents (buf.set insert none) = spaced (kept (host.splitOn ' ')) := by
        have hset : buf.set insert none = buf.take insert ++ none :: buf.drop (insert + 1) :=
          List.set_eq_take_append_cons_drop ▸ if_pos hlt
        rw [contents, hset, htake, List.takeWhile_append_of_pos (by simp)]
        simp
      simp [hcontents]

/-- A supported extension behind a short one is moved onto itself. -/
theorem buildExtensionString_torn :
    ¬∀ memcpy, Conforming memcpy →
      buildExtensionString memcpy (some "a EGL_KHR_image_base".toList) =
        some (systemStaticEGLExtensions ++
          spaced (kept ("a EGL_KHR_image_base".toList.splitOn ' '))) := by
  intro hall
  have hnone : buildExtensionString tearing (some "a EGL_KHR_image_base".toList) = none := by
    decide +kernel
  exact nomatch hnone.symm.trans (hall tearing tearing_conforming)

end AndroidRenderer.GuestEgl
