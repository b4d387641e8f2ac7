import AndroidRenderer.Lib.CString
import AndroidRenderer.Lib.Run

/-!
# Shader sources in the translator

`ShaderParser` appends the strings of a shader source to `m_src`, blanks the version and the
precision statements in it, and puts a header before it for the driver. A position is a pointer into
`m_src`; each loop has as many turns as it may need.
-/

namespace AndroidRenderer.Translator

open CString

inductive ParseState
  | PARSE_NONE
  | PARSE_IN_C_COMMENT
  | PARSE_IN_LINE_COMMENT
  deriving DecidableEq, Repr

/-- Two characters, such as begin and end comments. -/
def isPair (src : List UInt8) (c : Nat) (first second : UInt8) : Prop :=
  charAt src c = first ∧ charAt src (c + 1) = second

instance (src : List UInt8) (c : Nat) (first second : UInt8) :
    Decidable (isPair src c first second) :=
  inferInstanceAs (Decidable (_ ∧ _))

/-- `IS_DELIMITER` -/
def isDelimiter (c : UInt8) : Bool := c == 32 || c == 9 || c == 13 || c == 10

/-- `IS_TOKEN_DELIMITER` -/
def isTokenDelimiter (c : UInt8) : Bool := isDelimiter c || c == 59

/-! ## The version -/

/-- The first character that is neither blank nor in a comment. -/
def skipComments : Nat → List UInt8 → ParseState → Nat → Option Nat
  | 0, _, _, _ => none
  | turns + 1, src, parseState, c =>
      if charAt src c = 0 then some c
      else
        match parseState with
        | .PARSE_IN_C_COMMENT =>
            if isPair src c 42 47 then skipComments turns src .PARSE_NONE (c + 2)
            else skipComments turns src .PARSE_IN_C_COMMENT (c + 1)
        | .PARSE_IN_LINE_COMMENT =>
            skipComments turns src
              (if charAt src c = 10 then .PARSE_NONE else .PARSE_IN_LINE_COMMENT) (c + 1)
        | .PARSE_NONE =>
            if isPair src c 47 47 then skipComments turns src .PARSE_IN_LINE_COMMENT (c + 2)
            else if isPair src c 47 42 then skipComments turns src .PARSE_IN_C_COMMENT (c + 2)
            else if isDelimiter (charAt src c) then skipComments turns src .PARSE_NONE (c + 1)
            else some c

/-- The number that decimal digits stand for. -/
def ofDigits (digits : List UInt8) : Nat := digits.foldl (fun n c => n * 10 + (c.toNat - 48)) 0

/-- `sscanf` with `%d`: white space, a sign and digits. The number is cut to 32 bits as `strtol` of
a 32-bit host does it. -/
def sscanfInt (src : List UInt8) (c : Nat) : Option Int :=
  let c := skip isspace src c
  let sign := charAt src c
  let start := if sign = 43 ∨ sign = 45 then c + 1 else c
  let stop := skip isdigit src start
  if stop = start then none
  else
    let n := ofDigits (slice src start stop)
    some (if sign = 45 then max (-2 ^ 31) (-n) else min (2 ^ 31 - 1) n)

def minGLSLVersion : Int := 120

/-- `#version N` for a version, nothing for one that is not positive. -/
def versionLine (glslVersion : Int) : List UInt8 :=
  if 0 < glslVersion then
    literal "#version " ++ (Nat.toDigits 10 glslVersion.toNat).map (fun c => c.toNat.toUInt8) ++ [10]
  else []

/-- The source without its version, and the version. The version is blanked up to its last digit. -/
def blankVersion (src : List UInt8) : Option (List UInt8 × Int) :=
  (skipComments (src.length + 1) src .PARSE_NONE 0).map fun c =>
    if At (literal "#version") src c then
      (sscanfInt src (c + 8)).elim (src, minGLSLVersion) fun ver =>
        let digits := skip (fun ch => !isdigit ch && ch != 0) src (c + 8)
        (blank src c (skip isdigit src digits),
          if minGLSLVersion < ver then ver else minGLSLVersion)
    else (src, minGLSLVersion)

/-- `parseGLSLversion`, with what it adds to `m_parsedSrc`. `forceVersion` is what the environment
has for `GOOGLE_GLES_FORCE_GLSL_VERSION`. -/
def parseGLSLversion (forceVersion : Option (List UInt8)) (src : List UInt8) :
    Option (List UInt8 × List UInt8) :=
  (blankVersion src).map fun (src, glslVersion) =>
    let forced := forceVersion.bind fun text => sscanfInt text 0
    (src, versionLine (forced.getD glslVersion))

/-! ## Precision statements -/

inductive StatementState
  | PRECISION
  | QUALIFIER
  | SEMICOLON
  deriving DecidableEq, Repr

/-- The variables of `parseOmitPrecision`; `precision` is 0 while it is `NULL`. -/
structure OmitState where
  statementState : StatementState
  precision : Nat
  parseState : ParseState
  t : Option Nat

/-- `tokenLen == strlen(word) && !strncmp(t,word,tokenLen)` -/
def isToken (word src : List UInt8) (t c : Nat) : Prop := c - t = word.length ∧ At word src t

instance (word src : List UInt8) (t c : Nat) : Decidable (isToken word src t c) :=
  inferInstanceAs (Decidable (_ ∧ _))

def isQualifier (src : List UInt8) (t c : Nat) : Prop :=
  isToken (literal "lowp") src t c ∨ isToken (literal "mediump") src t c ∨
    isToken (literal "highp") src t c

instance (src : List UInt8) (t c : Nat) : Decidable (isQualifier src t c) :=
  inferInstanceAs (Decidable (_ ∨ _ ∨ _))

/-- The token from `t` up to the delimiter at `c`. -/
def endToken (src : List UInt8) (s : OmitState) (t c : Nat) : List UInt8 × OmitState :=
  match s.statementState with
  | .PRECISION =>
      if isToken (literal "precision") src t c then
        (src, { s with statementState := .QUALIFIER, precision := t, t := none })
      else (src, { s with t := none })
  | .QUALIFIER =>
      if isQualifier src t c then (src, { s with statementState := .SEMICOLON, t := none })
      else (src, { s with statementState := .PRECISION, t := none })
  | .SEMICOLON =>
      (if charAt src c = 59 then blank src s.precision (c + 1) else src,
        { s with statementState := .PRECISION, t := none })

def omitLoop : Nat → List UInt8 → OmitState → Nat → Option (List UInt8)
  | 0, _, _, _ => none
  | turns + 1, src, s, c =>
      if charAt src c = 0 then some src
      else
        match s.parseState with
        | .PARSE_IN_C_COMMENT =>
            if isPair src c 42 47 then omitLoop turns src { s with parseState := .PARSE_NONE } (c + 2)
            else omitLoop turns src s (c + 1)
        | .PARSE_IN_LINE_COMMENT =>
            omitLoop turns src
              (if charAt src c = 10 then { s with parseState := .PARSE_NONE } else s) (c + 1)
        | .PARSE_NONE =>
            if isPair src c 47 47 then
              omitLoop turns src { s with parseState := .PARSE_IN_LINE_COMMENT } (c + 2)
            else if isPair src c 47 42 then
              omitLoop turns src { s with parseState := .PARSE_IN_C_COMMENT } (c + 2)
            else
              match s.t, isTokenDelimiter (charAt src c) with
              | some t, true =>
                  omitLoop turns (endToken src s t c).1 (endToken src s t c).2 (c + 1)
              | some _, false => omitLoop turns src s (c + 1)
              | none, _ =>
                  omitLoop turns src
                    (if isDelimiter (charAt src c) = false ∧ isalpha (charAt src c) = true then
                      { s with t := some c } else s) (c + 1)

/-- `parseOmitPrecision`, which also adds `omitDefines` to `m_parsedSrc`. -/
def parseOmitPrecision (src : List UInt8) : Option (List UInt8) :=
  omitLoop (src.length + 1) src ⟨.PRECISION, 0, .PARSE_NONE, none⟩ 0

/-! ## Sources -/

def omitDefines : List UInt8 :=
  literal "#define GLES 1\n" ++ literal "#define lowp \n" ++ literal "#define mediump \n" ++
    literal "#define highp \n"

/-- What `parseBuiltinConstants` adds. -/
def builtinConstants : List UInt8 :=
  literal "const int _translator_gl_MaxVertexUniformVectors = 256;\n" ++
    literal "const int _translator_gl_MaxFragmentUniformVectors = 256;\n" ++
    literal "const int _translator_gl_MaxVaryingVectors = 15;\n" ++
    literal "#define gl_MaxVertexUniformVectors _translator_gl_MaxVertexUniformVectors\n" ++
    literal "#define gl_MaxFragmentUniformVectors _translator_gl_MaxFragmentUniformVectors\n" ++
    literal "#define gl_MaxVaryingVectors _translator_gl_MaxVaryingVectors\n"

/-- What `parseLineNumbers` adds. -/
def lineNumbers : List UInt8 := literal "#line 1\n"

inductive SourceFault
  | outOfBounds
  | endless
  deriving DecidableEq, Repr

structure ShaderParser where
  m_originalSrc : Option (List UInt8)
  m_src : List UInt8
  m_parsedSrc : List UInt8
  deriving DecidableEq, Repr

namespace ShaderParser

/-- The constructor. -/
def new : ShaderParser := ⟨none, [], []⟩

/-- What `append` takes of the characters of a string: all before the NUL, which must be there. -/
def cstr (chars : List UInt8) : Except SourceFault (List UInt8) :=
  if 0 ∈ chars then .ok (chars.takeWhile (· != 0)) else .error .outOfBounds

/-- The parsed lines of a source, and what is left of it in `m_src`. -/
def parse (forceVersion : Option (List UInt8)) (src : List UInt8) :
    Option (List UInt8 × List UInt8) :=
  (parseGLSLversion forceVersion src).bind fun (src, version) =>
    (parseOmitPrecision src).map fun src =>
      (src, version ++ builtinConstants ++ omitDefines ++ lineNumbers ++ src)

/-- `setSrc`. The lengths are not read. -/
def setSrc (forceVersion : Option (List UInt8)) (s : ShaderParser) (strings : List (List UInt8)) :
    Except SourceFault ShaderParser :=
  strings.mapM cstr >>= fun texts =>
    let src := s.m_src ++ texts.flatten
    (parse forceVersion src).elim (.error .endless) fun (rest, parsed) =>
      .ok ⟨some src, rest, parsed⟩

end ShaderParser

def givenLength (lengths : Option (List Int)) (i : Nat) : Option Nat :=
  lengths.bind fun ns => (ns[i]?).bind fun n => if n < 0 then none else some n.toNat

/-- The arguments of `glShaderSource`: `count` strings, and a length for each of them or `NULL`. A
string has as many characters as its length says, and without a length it ends with a NUL. -/
structure SourceCall where
  count : Int
  strings : List (List UInt8)
  lengths : Option (List Int)
  strings_length : strings.length = count.toNat
  lengths_length : ∀ ns, lengths = some ns → ns.length = count.toNat
  readable : ∀ i chars, strings[i]? = some chars →
    (givenLength lengths i).elim (0 ∈ chars) (· ≤ chars.length)

/-- `glShaderSource`, for a shader that exists; a call that is refused changes nothing. -/
def glShaderSource (forceVersion : Option (List UInt8)) (s : ShaderParser) (call : SourceCall) :
    Except SourceFault ShaderParser :=
  if call.count < 0 then .ok s else s.setSrc forceVersion call.strings

end AndroidRenderer.Translator
