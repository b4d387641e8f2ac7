import AndroidRenderer.GLESv2Enc.SamplerTokens
import AndroidRenderer.Lib.Buffer
import AndroidRenderer.Translator.ShaderParser

/-!
# Packing of shader sources

`s_glShaderSource` sends the strings of a shader as one. `glUtilsCalcShaderSourceLen` adds up their
lengths for the buffer, and `glUtilsPackStrings` appends them to each other in it. A byte of the
buffer that was not stored yet is undefined, and nothing may depend on it.
-/

namespace AndroidRenderer

open Translator (givenLength)

/-- What must not happen while the strings are packed. -/
inductive PackFault
  | uninitialised
  | outOfBounds
  | badArrayLength
  deriving DecidableEq, Repr

/-- The arguments of `glShaderSource`: `count` strings or `NULL`s, without their NULs, and a length
for each of them or `NULL`. A length that is given for a string is not past its end. -/
structure ShaderSourceCall where
  count : Int
  strings : List (Option (List UInt8))
  length : Option (List Int)
  strings_length : strings.length = count.toNat
  length_length : ∀ ls, length = some ls → ls.length = count.toNat
  noNul : ∀ s, some s ∈ strings → 0 ∉ s
  length_le : ∀ i s l, strings[i]? = some (some s) → givenLength length i = some l → l ≤ s.length

/-! ## The code -/

/-- One turn of the loop of `glUtilsCalcShaderSourceLen`. -/
def calcTurn (length : Option (List Int)) (len : Int) (entry : Option (List UInt8) × Nat) : Int :=
  let l : Int :=
    match givenLength length entry.2 with
    | none => match entry.1 with
      | some s => s.length
      | none => 0
    | some l => l
  GLint (len + l)

def glUtilsCalcShaderSourceLen (strings : List (Option (List UInt8))) (length : Option (List Int)) :
    Int :=
  strings.zipIdx.foldl (calcTurn length) 0

/-- The distance of the NUL that ends a string in a buffer. -/
def strEnd : List (Option UInt8) → Except PackFault Nat
  | [] => .error .outOfBounds
  | none :: _ => .error .uninitialised
  | some c :: buf => if c = 0 then .ok 0 else (strEnd buf).map (· + 1)

def storeChars (buf : List (Option UInt8)) (p : Nat) (chars : List UInt8) :
    Except PackFault (List (Option UInt8)) :=
  (Buffer.store? buf p (chars.map some)).elim (.error .outOfBounds) .ok

/-- `strcat(p, s)` -/
def strcat (buf : List (Option UInt8)) (p : Int) (s : List UInt8) :
    Except PackFault (List (Option UInt8)) :=
  if p < 0 then .error .outOfBounds
  else do
    let last ← strEnd (buf.drop p.toNat)
    storeChars buf (p.toNat + last) (s ++ [0])

/-- `strncat(p, s, n)` -/
def strncat (buf : List (Option UInt8)) (p : Int) (s : List UInt8) (n : Nat) :
    Except PackFault (List (Option UInt8)) :=
  strcat buf p (s.take n)

/-- One turn of the loop of `glUtilsPackStrings`, on the buffer and `p`. -/
def packTurn (length : Option (List Int)) (r : List (Option UInt8) × Int)
    (entry : Option (List UInt8) × Nat) : Except PackFault (List (Option UInt8) × Int) :=
  match entry.1 with
  | none => .ok r
  | some s =>
      match givenLength length entry.2 with
      | none => (strcat r.1 r.2 s).map fun buf => (buf, r.2 + GLint s.length)
      | some l => (strncat r.1 r.2 s l).map fun buf => (buf, r.2 + l)

def glUtilsPackStrings (ptr : List (Option UInt8)) (strings : List (Option (List UInt8)))
    (length : Option (List Int)) : Except PackFault (List (Option UInt8)) := do
  let buf ← storeChars ptr 0 [0]
  let r ← strings.zipIdx.foldlM (packTurn length) (buf, 0)
  return r.1

/-- `new char[n]` -/
def newChars (n : Int) : Except PackFault (List (Option UInt8)) :=
  if n < 0 then .error .badArrayLength else .ok (List.replicate n.toNat none)

/-- The characters of a string in a buffer. -/
def readString : List (Option UInt8) → Except PackFault (List UInt8)
  | [] => .error .outOfBounds
  | none :: _ => .error .uninitialised
  | some c :: buf => if c = 0 then .ok [] else (readString buf).map (c :: ·)

namespace ShaderSourceCall

/-- The buffer of `s_glShaderSource` with the strings. -/
def packed (call : ShaderSourceCall) : Except PackFault (List (Option UInt8)) := do
  let str ← newChars (GLint (glUtilsCalcShaderSourceLen call.strings call.length + 1))
  glUtilsPackStrings str call.strings call.length

/-- The bytes that `s_glShaderSource` sends for a shader, unless it fails. The samplers are replaced
in the buffer. -/
def glShaderSource (call : ShaderSourceCall) (shaderData : ShaderData) :
    Except PackFault (Option (List (Option UInt8))) := do
  let str ← call.packed
  let text ← readString str
  match replaceSamplerExternalWith2D text shaderData with
  | some (true, out, _) => return some (out.map some ++ str.drop out.length)
  | _ => return none

/-! ## The concatenation -/

/-- What a string contributes. -/
def taken (length : Option (List Int)) (entry : Option (List UInt8) × Nat) : List UInt8 :=
  match entry.1 with
  | none => []
  | some s =>
      match givenLength length entry.2 with
      | none => s
      | some l => s.take l

/-- The strings, each up to its length. -/
def text (call : ShaderSourceCall) : List UInt8 :=
  call.strings.zipIdx.flatMap (taken call.length)

/-- The length that is given for a `NULL`. -/
def nullLength (length : Option (List Int)) (entry : Option (List UInt8) × Nat) : Nat :=
  match entry.1 with
  | none => (givenLength length entry.2).getD 0
  | some _ => 0

def nullLengths (call : ShaderSourceCall) : Nat :=
  (call.strings.zipIdx.map (nullLength call.length)).sum

/-- The length is that of the concatenation; the buffer is filled with the concatenation and one
NUL; and as many bytes are sent, all of them initialised. -/
structure Packs (call : ShaderSourceCall) : Prop where
  len : glUtilsCalcShaderSourceLen call.strings call.length = call.text.length
  packed : call.packed = .ok (call.text.map some ++ [some 0])
  sent : ∀ shaderData bytes, call.glShaderSource shaderData = .ok (some bytes) →
    bytes.length = call.text.length + 1 ∧ none ∉ bytes

/-! ## The length -/

/-- A length that is given is not past the end of the string. -/
def LengthLe (length : Option (List Int)) (entry : Option (List UInt8) × Nat) : Prop :=
  ∀ s l, entry.1 = some s → givenLength length entry.2 = some l → l ≤ s.length

theorem lengthLe (call : ShaderSourceCall) : ∀ entry ∈ call.strings.zipIdx,
    LengthLe call.length entry := by
  intro entry hmem s l hs hl
  have hget := List.mem_zipIdx_iff_getElem?.mp hmem
  rw [hs] at hget
  exact call.length_le entry.2 s l hget hl

theorem GLint_add (a b : Int) : GLint (GLint a + b) = GLint (a + b) := Int.bmod_add_bmod

/-- What a turn adds is what the string contributes, and the length given for a `NULL`. -/
theorem calcTurn_eq {length : Option (List Int)} {entry : Option (List UInt8) × Nat}
    (hle : LengthLe length entry) (a : Int) :
    calcTurn length (GLint a) entry =
      GLint (a + ((taken length entry).length + nullLength length entry : Nat)) := by
  obtain ⟨s, i⟩ := entry
  rw [calcTurn, GLint_add]
  dsimp only
  congr 2
  cases s with
  | none => grind [taken, nullLength]
  | some s =>
      cases hl : givenLength length i with
      | none => simp [taken, nullLength, hl]
      | some l =>
          have := hle s l rfl hl
          simp [taken, nullLength, hl, Nat.min_eq_left this]

theorem foldl_calcTurn {length : Option (List Int)} {es : List (Option (List UInt8) × Nat)}
    (hle : ∀ entry ∈ es, LengthLe length entry) (a : Int) :
    es.foldl (calcTurn length) (GLint a) =
      GLint (a + ((es.flatMap (taken length)).length +
        (es.map (nullLength length)).sum : Nat)) := by
  induction es generalizing a with
  | nil => simp
  | cons entry es ih =>
      rw [List.foldl_cons, calcTurn_eq (hle entry List.mem_cons_self),
        ih fun entry' hmem => hle entry' (List.mem_cons_of_mem entry hmem)]
      grind

theorem calc_eq (call : ShaderSourceCall) :
    glUtilsCalcShaderSourceLen call.strings call.length =
      GLint ((call.text.length + call.nullLengths : Nat) : Int) := by
  have h := foldl_calcTurn call.lengthLe 0
  rw [Int.zero_add] at h
  exact h

/-! ## The buffer -/

/-- A string is appended at the NUL behind what is there. -/
theorem strcat_eq (done s : List UInt8) {rest : List (Option UInt8)}
    (hroom : s.length ≤ rest.length) :
    strcat (done.map some ++ some 0 :: rest) done.length s =
      .ok ((done ++ s).map some ++ some 0 :: rest.drop s.length) := by
  have hdone : (done.map (some : UInt8 → Option UInt8)).length = done.length := List.length_map ..
  have hend : strEnd ((done.map some ++ some 0 :: rest).drop done.length) = .ok 0 := by
    rw [← hdone, List.drop_left]
    rfl
  have hstore := Buffer.store?_append (done.map some) (some 0 :: rest) ((s ++ [0]).map some)
  rw [if_pos (by simpa using hroom), hdone] at hstore
  rw [strcat, if_neg (by omega), Int.toNat_natCast, hend]
  change storeChars _ (done.length + 0) (s ++ [0]) = _
  rw [Nat.add_zero, storeChars, hstore]
  simp

/-- One turn appends what the string contributes. -/
theorem packTurn_eq {length : Option (List Int)} {entry : Option (List UInt8) × Nat}
    (hle : LengthLe length entry) (done : List UInt8) {rest : List (Option UInt8)}
    (hroom : (taken length entry).length ≤ rest.length) (hlt : rest.length < 2 ^ 31) :
    packTurn length (done.map some ++ some 0 :: rest, done.length) entry =
      .ok ((done ++ taken length entry).map some ++
          some 0 :: rest.drop (taken length entry).length,
        ((done ++ taken length entry).length : Nat)) := by
  obtain ⟨s, i⟩ := entry
  cases s with
  | none => simp [packTurn, taken]
  | some s =>
      cases hl : givenLength length i with
      | none =>
          have htaken : taken length (some s, i) = s := by rw [taken, hl]
          grind [packTurn, strcat_eq, Except.map, GLint_of_range]
      | some l =>
          have htaken : taken length (some s, i) = s.take l := by rw [taken, hl]
          rw [htaken] at hroom ⊢
          simp only [packTurn, hl, strncat, strcat_eq done (s.take l) hroom, Except.map]
          rw [List.length_append, Nat.cast_add, List.length_take,
            Nat.min_eq_left (hle s l rfl hl)]

theorem foldlM_packTurn {length : Option (List Int)} {es : List (Option (List UInt8) × Nat)}
    (hle : ∀ entry ∈ es, LengthLe length entry) (done : List UInt8)
    (rest : List (Option UInt8)) (hroom : (es.flatMap (taken length)).length ≤ rest.length)
    (hlt : rest.length < 2 ^ 31) :
    es.foldlM (packTurn length) (done.map some ++ some 0 :: rest, (done.length : Int)) =
      .ok ((done ++ es.flatMap (taken length)).map some ++
          some 0 :: rest.drop (es.flatMap (taken length)).length,
        ((done ++ es.flatMap (taken length)).length : Nat)) := by
  induction es generalizing done rest with
  | nil => simp [pure, Except.pure]
  | cons entry es ih =>
      rw [List.flatMap_cons, List.length_append] at hroom
      rw [List.foldlM_cons, packTurn_eq (hle entry List.mem_cons_self) done (by omega) hlt]
      have hrest := ih (fun entry' hmem => hle entry' (List.mem_cons_of_mem entry hmem))
        (done ++ taken length entry) (rest.drop (taken length entry).length)
        (by rw [List.length_drop]; omega) (by rw [List.length_drop]; omega)
      refine hrest.trans ?_
      simp

/-- In a buffer of the right size the strings are followed by their NUL. -/
theorem glUtilsPackStrings_eq (call : ShaderSourceCall) (hlt : call.text.length < 2 ^ 31) :
    glUtilsPackStrings (List.replicate (call.text.length + 1) none) call.strings call.length =
      .ok (call.text.map some ++ [some 0]) := by
  have hloop := foldlM_packTurn call.lengthLe [] (List.replicate call.text.length none)
    (Nat.le_of_eq List.length_replicate.symm) (by rwa [List.length_replicate])
  have hdrop : (List.replicate call.text.length (none : Option UInt8)).drop call.text.length = [] :=
    List.drop_eq_nil_of_le (Nat.le_of_eq List.length_replicate)
  have hstore : storeChars (List.replicate (call.text.length + 1) none) 0 [0] =
      .ok (some 0 :: List.replicate call.text.length none) := by
    simp [storeChars, Buffer.store?, List.replicate_succ]
  rw [glUtilsPackStrings, hstore]
  change (call.strings.zipIdx.foldlM (packTurn call.length)
    (some 0 :: List.replicate call.text.length none, 0) >>= fun r => .ok r.1) = _
  refine (congrArg (· >>= fun r => .ok r.1) hloop).trans ?_
  change Except.ok (call.text.map some ++ some 0 ::
    (List.replicate call.text.length none).drop call.text.length) = _
  rw [hdrop]

theorem packed_eq (call : ShaderSourceCall) (hlt : call.text.length + 1 < 2 ^ 31)
    (hlen : glUtilsCalcShaderSourceLen call.strings call.length = call.text.length) :
    call.packed = .ok (call.text.map some ++ [some 0]) := by
  have hint : GLint ((call.text.length : Int) + 1) = (call.text.length : Int) + 1 :=
    GLint_of_range (by omega) (by omega)
  have hnew : newChars (GLint (glUtilsCalcShaderSourceLen call.strings call.length + 1)) =
      .ok (List.replicate (call.text.length + 1) none) := by grind [newChars]
  rw [packed, hnew]
  exact call.glUtilsPackStrings_eq (by omega)

/-! ## What is sent -/

theorem replaceSamplerExternalWith2D_length {s out : List UInt8} {data data' : ShaderData}
    (h : replaceSamplerExternalWith2D s data = some (true, out, data')) :
    out.length = s.length := by
  have hfirst := overwriteExtensions_eq (s.length + 1) s 0
    ⟨rfl, Nat.zero_le _, fun j hj => absurd hj (Nat.not_lt_zero j), fun j _ => rfl,
      fun i hi => absurd hi (Nat.not_lt_zero i)⟩ (by omega)
  rw [replaceSamplerExternalWith2D, hfirst, Option.bind_some] at h
  obtain ⟨ps, -, hreplaced, -⟩ := replaceSamplers_run _ _ data 0 rfl (fun _ _ => rfl) h
  exact hreplaced.length.trans (blankLines_length (Removes s) s)

theorem text_noNul (call : ShaderSourceCall) : 0 ∉ call.text := by
  intro hmem
  obtain ⟨⟨s, i⟩, hentry, hmem⟩ := List.mem_flatMap.mp hmem
  cases s with
  | none => cases hmem
  | some s =>
      have hnot := call.noNul s (List.mem_of_getElem? (List.mem_zipIdx_iff_getElem?.mp hentry))
      unfold taken at hmem
      grind

theorem readString_eq {text : List UInt8} (h : 0 ∉ text) (rest : List (Option UInt8)) :
    readString (text.map some ++ some 0 :: rest) = .ok text := by
  induction text with
  | nil => rfl
  | cons c text ih =>
      rw [List.mem_cons, not_or] at h
      rw [List.map_cons, List.cons_append, readString, if_neg (Ne.symm h.1), ih h.2]
      rfl

/-- The packed strings are sent, with the samplers replaced. -/
theorem glShaderSource_initialised (call : ShaderSourceCall)
    (hpacked : call.packed = .ok (call.text.map some ++ [some 0])) {shaderData : ShaderData}
    {bytes : List (Option UInt8)} (h : call.glShaderSource shaderData = .ok (some bytes)) :
    bytes.length = call.text.length + 1 ∧ none ∉ bytes := by
  rw [glShaderSource, hpacked] at h
  change (readString _ >>= _) = _ at h
  rw [readString_eq call.text_noNul []] at h
  change (match replaceSamplerExternalWith2D call.text shaderData with
    | some (true, out, _) => _
    | _ => _) = _ at h
  split at h
  · rename_i out data' hreplace
    have hlength := replaceSamplerExternalWith2D_length hreplace
    obtain rfl := Option.some.inj (Except.ok.inj h)
    grind
  · cases h

/-- The strings are packed if and only if an `int` can hold the length with the NUL, and the lengths
that are given for `NULL`s add up to nothing. -/
theorem packs_iff (call : ShaderSourceCall) :
    call.Packs ↔ call.text.length + 1 < 2 ^ 31 ∧ 2 ^ 32 ∣ call.nullLengths := by
  have hcalc := call.calc_eq
  constructor
  · intro h
    have hlen := hcalc.symm.trans h.len
    rw [GLint, Int.bmod_def] at hlen
    have hnew : 0 ≤ GLint ((call.text.length : Int) + 1) := by
      have hpacked := h.packed
      rw [packed, h.len, newChars] at hpacked
      by_contra hneg
      rw [if_pos (Int.not_le.mp hneg)] at hpacked
      cases hpacked
    rw [GLint, Int.bmod_def] at hnew
    omega
  · rintro ⟨hlt, hdvd⟩
    have hlen : glUtilsCalcShaderSourceLen call.strings call.length = call.text.length := by
      rw [hcalc, GLint, Int.bmod_def]
      omega
    have hpacked := call.packed_eq hlt hlen
    exact ⟨hlen, hpacked, fun _ _ hsent => call.glShaderSource_initialised hpacked hsent⟩

theorem noNul_one : ∀ s : List UInt8, some s ∈ [some [118], none] → 0 ∉ s := by
  intro s hs
  grind

theorem length_le_one : ∀ (i : Nat) (s : List UInt8) (l : Nat),
    [some [118], none][i]? = some (some s) → givenLength (some [-1, 3]) i = some l →
      l ≤ s.length := by
  rintro (_ | _ | i) s l hs hl
  · cases hl
  · cases hs
  · cases hs

/-- A string and a `NULL` with a length. -/
def nullCall : ShaderSourceCall where
  count := 2
  strings := [some [118], none]
  length := some [-1, 3]
  strings_length := rfl
  length_length _ h := Option.some.inj h ▸ rfl
  noNul := noNul_one
  length_le := length_le_one

/-- The length of the `NULL` is counted, and the bytes that are sent for it are undefined. -/
theorem nullCall_not_packs :
    nullCall.glShaderSource ⟨[], 1⟩ = .ok (some [some 118, some 0, none, none, none]) ∧
      ¬nullCall.Packs :=
  ⟨by decide +kernel, fun h => absurd h.len (by decide)⟩

end ShaderSourceCall

end AndroidRenderer
