import AndroidRenderer.Lib.CString
import AndroidRenderer.Translator.NameSpace

/-!
# Queries of sources and logs

The application asks for the source of a shader, or for the log of a shader or a program, and gives
a buffer with its size. What a query stores is followed through the offsets of this buffer.
-/

namespace AndroidRenderer.Translator

open CString

/-- A text that the translator keeps, without the NUL behind it. -/
abbrev Text := { chars : List UInt8 // 0 ∉ chars }

/-- What the queries read of an object in the namespace of the shaders. -/
inductive QueriedData
  | SHADER_DATA (originalSrc : Option Text) (infoLog : Text)
  | PROGRAM_DATA (infoLog : Text)

/-- What was stored at the offsets of a buffer. -/
abbrev Stores := Int → Option UInt8

def untouched : Stores := fun _ => none

/-- `size_t` of an `int` -/
def sizeT (n : Int) : Nat := (n % 2 ^ 64).toNat

/-- `strncpy`. Behind the text it stores NULs. -/
def strncpy (dst : Stores) (src : Text) (n : Nat) : Stores :=
  fun i => if 0 ≤ i ∧ i < n then some (charAt src.1 i.toNat) else dst i

/-- `dst[offset] = '\0'` -/
def storeNul (dst : Stores) (offset : Int) : Stores := fun i => if i = offset then some 0 else dst i

/-- `strlen`, as an `int`. -/
def strlen (t : Text) : Int := GLint t.1.length

/-- What is stored in the buffer, and at `length` if it is not NULL. -/
structure TextReply where
  stores : Stores
  length : Option Int

/-- `if (length) *length = returnLength` -/
def reply (stores : Stores) (length : Bool) (returnLength : Int) : TextReply :=
  ⟨stores, if length then some returnLength else none⟩

/-- The body of both queries for logs; `length` and `infolog` say whether these are not NULL. -/
def infoLogReply (log : Text) (bufsize : Int) (length infolog : Bool) : TextReply :=
  if bufsize = 0 then reply untouched length 0
  else if infolog then
    let logLength := strlen log
    let returnLength := if bufsize - 1 < logLength then bufsize - 1 else logLength
    reply (storeNul (strncpy untouched log (sizeT (returnLength + 1))) returnLength) length
      returnLength
  else reply untouched length 0

/-- A query has no answer: it sets an error, or reads a source that is NULL. -/
inductive QueryFault
  | glError (error : GLenum)
  | nullPointer

def srcLength : Option Text → Int
  | some src => strlen src
  | none => 0

/-- The body of the query for sources. -/
def sourceReply (src : Option Text) (bufsize : Int) (length : Bool) :
    Except QueryFault TextReply :=
  let returnLength := if bufsize < srcLength src then bufsize - 1 else srcLength src
  if returnLength ≠ 0 then
    match src with
    | some src =>
        .ok (reply (storeNul (strncpy untouched src (sizeT returnLength)) returnLength) length
          returnLength)
    | none => .error .nullPointer
  else .ok (reply untouched length returnLength)

/-- The object that a query is about, or its error. -/
def queried (g : ShareGroup QueriedData) (name : GLuint) : Except QueryFault QueriedData :=
  if g.getGlobalName .SHADER (localName name) = 0 then .error (.glError GL_INVALID_VALUE)
  else match g.getObjectData .SHADER (localName name) with
    | none => .error (.glError GL_INVALID_OPERATION)
    | some data => .ok data

def glGetProgramInfoLog (g : ShareGroup QueriedData) (program : GLuint) (bufsize : Int)
    (length infolog : Bool) : Except QueryFault TextReply :=
  queried g program >>= fun
    | .PROGRAM_DATA log => .ok (infoLogReply log bufsize length infolog)
    | .SHADER_DATA _ _ => .error (.glError GL_INVALID_OPERATION)

def glGetShaderInfoLog (g : ShareGroup QueriedData) (shader : GLuint) (bufsize : Int)
    (length infolog : Bool) : Except QueryFault TextReply :=
  queried g shader >>= fun
    | .SHADER_DATA _ log => .ok (infoLogReply log bufsize length infolog)
    | .PROGRAM_DATA _ => .error (.glError GL_INVALID_OPERATION)

def glGetShaderSource (g : ShareGroup QueriedData) (shader : GLuint) (bufsize : Int)
    (length : Bool) : Except QueryFault TextReply :=
  queried g shader >>= fun
    | .SHADER_DATA src _ => sourceReply src bufsize length
    | .PROGRAM_DATA _ => .error (.glError GL_INVALID_OPERATION)

/-! ## What a query has to store -/

/-- The characters that a buffer has room for. -/
def returned (t : Text) (bufsize : Nat) : List UInt8 := t.1.take (bufsize - 1)

/-- Only the buffer is stored to, it gets the returned characters and the NUL, and their number is
reported. -/
structure Respects (t : Text) (bufsize : Nat) (r : TextReply) : Prop where
  within : ∀ i c, r.stores i = some c → 0 ≤ i ∧ i < bufsize
  stored : 0 < bufsize → ∀ i ≤ (returned t bufsize).length,
    r.stores i = some (charAt (returned t bufsize) i)
  length : ∀ n ∈ r.length, n = (min t.1.length (bufsize - 1) : Nat)

variable {t : Text} {bufsize : Nat} {length : Bool} {r : Int}

theorem strlen_le (t : Text) : strlen t ≤ t.1.length ∧ strlen t < 2 ^ 31 := by
  have hlow : (0 : Int) ≤ (t.1.length : Int) := Int.natCast_nonneg _
  rw [strlen, GLint, Int.bmod_def]
  generalize (t.1.length : Int) = n at hlow ⊢
  split <;> omega

theorem strlen_of_lt (h : t.1.length < 2 ^ 31) : strlen t = t.1.length := by
  apply GLint_of_range <;> omega

theorem charAt_returned {i : Nat} (hi : i < (returned t bufsize).length) :
    charAt (returned t bufsize) i = charAt t.1 i ∧ charAt t.1 i ≠ 0 := by
  have hlength : i < t.1.length := by grind [returned]
  rw [charAt_eq_getElem hi, charAt_eq_getElem hlength]
  constructor
  · exact List.getElem_take
  · grind

/-- What is stored by both branches that copy the text. -/
theorem stored_copy {k : Nat} (hk : r ≤ k) {i : Nat} (hi : (i : Int) ≤ r) :
    storeNul (strncpy untouched t k) r i =
      if (i : Int) = r then some 0 else some (charAt t.1 i) := by
  rw [storeNul, strncpy]
  grind

/-- A copy with the NUL behind it is right if it has as many characters as there are returned. -/
theorem respects_copy_iff {k : Nat} (hr : r ≤ t.1.length) (hk : 0 ≤ r → r ≤ k ∧ k ≤ r + 1) :
    Respects t bufsize (reply (storeNul (strncpy untouched t k) r) length r) ↔
      0 < bufsize ∧ r = (min t.1.length (bufsize - 1) : Nat) := by
  have hcount : (returned t bufsize).length = min t.1.length (bufsize - 1) := by
    rw [returned, List.length_take, Nat.min_comm]
  constructor
  · intro h
    have hstore : storeNul (strncpy untouched t k) r r = some 0 := if_pos rfl
    obtain ⟨hnonneg, hlt⟩ := h.within r 0 hstore
    obtain ⟨n, rfl⟩ := Int.eq_ofNat_of_zero_le hnonneg
    have hpos : 0 < bufsize := by omega
    refine ⟨hpos, ?_⟩
    -- A NUL before the last returned character would be another character.
    have hle : ¬n < (returned t bufsize).length := by
      intro hn
      have hchar := (h.stored hpos n (Nat.le_of_lt hn)).symm.trans hstore
      grind [charAt_returned]
    omega
  · rintro ⟨hpos, rfl⟩
    obtain ⟨hlow, hhigh⟩ := hk (Int.natCast_nonneg _)
    constructor
    · intro i c hstore
      rw [reply] at hstore
      dsimp only [storeNul, strncpy] at hstore
      split at hstore
      · omega
      · split at hstore
        · omega
        · cases hstore
    · intro _ i hi
      rw [hcount] at hi
      apply (stored_copy hlow (Int.ofNat_le.mpr hi)).trans
      grind [charAt_of_le, charAt_returned]
    · simp [reply]

/-- Nothing is stored. -/
theorem respects_untouched_iff : Respects t bufsize (reply untouched length 0) ↔ bufsize = 0 := by
  constructor
  · intro h
    by_contra hpos
    have hnul := h.stored (Nat.pos_of_ne_zero hpos) 0 (Nat.zero_le _)
    cases hnul
  · rintro rfl
    constructor
    · intro i c hstore
      cases hstore
    · simp
    · simp [reply]

/-- The log queries store no more than the buffer has room for; the number of characters is wrong
where the length of the log is no `int`, unless the buffer is no longer than this `int`. -/
def LogFits (log : Text) (bufsize : Nat) : Prop :=
  bufsize = 0 ∨ strlen log = log.1.length ∨ (bufsize : Int) - 1 ≤ strlen log

/-- The source query compares the size with the length where it should compare the room. -/
def SourceFits (src : Text) (bufsize : Nat) : Prop :=
  strlen src = 0 ∧ bufsize = 0 ∨
    1 ≤ strlen src ∧ 2 ≤ bufsize ∧ (bufsize : Int) ≠ strlen src ∧
      (strlen src = src.1.length ∨ (bufsize : Int) - 1 ≤ strlen src)

theorem sizeT_of_range {n : Int} (hlow : 0 ≤ n) (hhigh : n < 2 ^ 64) : (sizeT n : Int) = n := by
  rw [sizeT, Int.emod_eq_of_lt hlow hhigh, Int.toNat_of_nonneg hlow]

theorem infoLogReply_iff (log : Text) :
    Respects log bufsize (infoLogReply log bufsize length true) ↔ LogFits log bufsize := by
  obtain ⟨hle, hlt⟩ := strlen_le log
  rw [infoLogReply, LogFits]
  by_cases hzero : bufsize = 0
  · simp [respects_untouched_iff, true_or, hzero]
  · rw [if_neg (by omega), if_pos rfl]
    dsimp only
    generalize hreturn : (if (bufsize : Int) - 1 < strlen log then (bufsize : Int) - 1
      else strlen log) = r
    have hr : r ≤ log.1.length ∧ r < 2 ^ 31 := by
      split at hreturn <;> omega
    rw [respects_copy_iff hr.1]
    · split at hreturn <;> omega
    · grind [sizeT_of_range]

def noText : Text := ⟨[], List.not_mem_nil⟩

/-- A shader without a source has the empty text. -/
def sourceText (src : Option Text) : Text := src.getD noText

def Answers (t : Text) (bufsize : Nat) (result : Except QueryFault TextReply) : Prop :=
  ∃ r, result = .ok r ∧ Respects t bufsize r

theorem answers_ok {r : TextReply} : Answers t bufsize (.ok r) ↔ Respects t bufsize r := by
  constructor
  · rintro ⟨r', heq, h⟩
    exact Except.ok.inj heq ▸ h
  · intro h
    exact ⟨r, rfl, h⟩

theorem sourceReply_none : sourceReply none bufsize length = .ok (reply untouched length 0) := by
  rw [sourceReply, srcLength, if_neg (show ¬(bufsize : Int) < 0 by omega)]
  rfl

theorem sourceReply_iff (src : Option Text) :
    Answers (sourceText src) bufsize (sourceReply src bufsize length) ↔
      SourceFits (sourceText src) bufsize := by
  cases src with
  | none =>
      have hzero : strlen (sourceText none) = 0 := strlen_of_lt (Nat.two_pow_pos 31)
      rw [sourceReply_none, answers_ok, respects_untouched_iff, SourceFits, hzero]
      omega
  | some src =>
      obtain ⟨hle, hlt⟩ := strlen_le src
      rw [sourceReply, srcLength, sourceText, Option.getD_some, SourceFits]
      generalize hreturn : (if (bufsize : Int) < strlen src then (bufsize : Int) - 1
        else strlen src) = r
      have hr : r ≤ src.1.length ∧ r < 2 ^ 31 := by
        split at hreturn <;> omega
      by_cases hzero : r = 0
      · subst hzero
        rw [if_neg (not_not_intro rfl), answers_ok, respects_untouched_iff]
        split at hreturn <;> omega
      · rw [if_pos hzero, answers_ok, respects_copy_iff hr.1]
        · split at hreturn <;> omega
        · grind [sizeT_of_range]

/-- What a query answers for an object that there is. -/
theorem queried_eq {g : ShareGroup QueriedData} {name : GLuint} {data : QueriedData}
    (hname : g.getGlobalName .SHADER (localName name) ≠ 0)
    (hdata : g.getObjectData .SHADER (localName name) = some data) : queried g name = .ok data := by
  rw [queried, if_neg hname, hdata]

theorem glGetShaderSource_eq {g : ShareGroup QueriedData} {shader : GLuint} {src : Option Text}
    {log : Text} (hname : g.getGlobalName .SHADER (localName shader) ≠ 0)
    (hdata : g.getObjectData .SHADER (localName shader) = some (.SHADER_DATA src log))
    (bufsize : Int) (length : Bool) :
    glGetShaderSource g shader bufsize length = sourceReply src bufsize length := by
  rw [glGetShaderSource, queried_eq hname hdata]
  rfl

/-- Exactly when the three queries respect the size of the buffer. -/
theorem textQueries_iff {g : ShareGroup QueriedData} {shader program : GLuint}
    {src : Option Text} {shaderLog programLog : Text}
    (hshader : g.getGlobalName .SHADER (localName shader) ≠ 0)
    (hparser : g.getObjectData .SHADER (localName shader) = some (.SHADER_DATA src shaderLog))
    (hprogram : g.getGlobalName .SHADER (localName program) ≠ 0)
    (hdata : g.getObjectData .SHADER (localName program) = some (.PROGRAM_DATA programLog))
    (bufsize : Nat) (length : Bool) :
    (Answers (sourceText src) bufsize (glGetShaderSource g shader bufsize length) ↔
      SourceFits (sourceText src) bufsize) ∧
    (Answers shaderLog bufsize (glGetShaderInfoLog g shader bufsize length true) ↔
      LogFits shaderLog bufsize) ∧
    (Answers programLog bufsize (glGetProgramInfoLog g program bufsize length true) ↔
      LogFits programLog bufsize) := by
  refine ⟨?_, ?_, ?_⟩
  · rw [glGetShaderSource_eq hshader hparser]
    exact sourceReply_iff src
  · rw [glGetShaderInfoLog, queried_eq hshader hparser]
    exact answers_ok.trans (infoLogReply_iff shaderLog)
  · rw [glGetProgramInfoLog, queried_eq hprogram hdata]
    exact answers_ok.trans (infoLogReply_iff programLog)

def ab : Text where
  val := [97, 98]
  property := by simp

/-- Shader 1 with the source "ab" and program 2, both without a log. -/
def twoObjects : ShareGroup QueriedData :=
  (((ShareGroup.new.genName .SHADER 1 3).genName .SHADER 2 4).setObjectData .SHADER 1
    (.SHADER_DATA (some ab) noText)).setObjectData .SHADER 2 (.PROGRAM_DATA noText)

theorem textQueries_twoObjects :
    Answers ab 3 (glGetShaderSource twoObjects 1 3 true) ∧
      Answers noText 3 (glGetProgramInfoLog twoObjects 2 3 true true) := by
  obtain ⟨hsource, -, hlog⟩ := @textQueries_iff twoObjects 1 2 _ _ _
    (by decide) rfl (by decide) rfl 3 true
  have hab : strlen ab = 2 := strlen_of_lt (by decide)
  have hnone : strlen noText = 0 := strlen_of_lt (by decide)
  constructor
  · apply hsource.mpr
    right
    rw [sourceText, Option.getD_some, hab]
    decide
  · apply hlog.mpr
    right
    left
    exact hnone

/-- With room for the text only, the NUL is stored behind the buffer. -/
theorem not_answers_ab : ¬Answers ab 2 (glGetShaderSource twoObjects 1 2 true) := by
  have hab : strlen ab = 2 := strlen_of_lt (by decide)
  rintro ⟨r, hr, h⟩
  have hreply : glGetShaderSource twoObjects 1 2 true =
      .ok (reply (storeNul (strncpy untouched ab (sizeT 2)) 2) true 2) := by
    rw [@glGetShaderSource_eq twoObjects 1 (some ab) noText (by decide) rfl 2 true, sourceReply,
      srcLength, hab, if_pos (by decide), if_neg (by decide)]
  obtain rfl := Except.ok.inj (hreply.symm.trans hr)
  have hnul : storeNul (strncpy untouched ab (sizeT 2)) 2 2 = some 0 := if_pos rfl
  obtain ⟨-, hlt⟩ := h.within 2 0 hnul
  exact absurd hlt (by decide)

end AndroidRenderer.Translator
