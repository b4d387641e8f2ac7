import AndroidRenderer.Lib.CString
import AndroidRenderer.Lib.Scans

/-!
# The NMEA tokenizer

A sentence without its `$`, its line end and its checksum is cut at the commas. A token is the
bytes from `p` to `end`; the fields between the commas are the abstract side of the tokens.
-/

namespace AndroidRenderer.Gps

/-- The bytes of a token. The token of the static `dummy` has none. -/
abbrev Token := List UInt8

/-- `tok.p[0]`, the NUL of `dummy` where there is no byte. -/
def Token.first (tok : Token) : UInt8 := tok.headD 0

/-- `'$'` -/
def dollar : UInt8 := 36

/-- `'*'` -/
def star : UInt8 := 42

/-- `','` -/
def comma : UInt8 := 44

/-- `'\r'` -/
def cr : UInt8 := 13

/-- `'\n'` -/
def newline : UInt8 := 10

/-- `MAX_NMEA_TOKENS` -/
def maxNmeaTokens : Nat := 16

theorem push_count_le {tokens : List Token} (tok : Token) (h : tokens.length < maxNmeaTokens) :
    (tokens ++ [tok]).length ≤ maxNmeaTokens := by
  rw [List.length_append, List.length_singleton]
  exact h

/-- `count` is the length of `tokens`. -/
structure NmeaTokenizer where
  tokens : List Token := []
  count_le : tokens.length ≤ maxNmeaTokens := by decide
  deriving DecidableEq

namespace NmeaTokenizer

/-- A token is stored where there is still room for one. -/
def push (t : NmeaTokenizer) (tok : Token) : NmeaTokenizer :=
  if h : t.tokens.length < maxNmeaTokens then ⟨t.tokens ++ [tok], push_count_le tok h⟩ else t

/-- The `while` loop of `nmea_tokenizer_init`, for at most `n` turns. -/
def scan : Nat → List UInt8 → NmeaTokenizer → NmeaTokenizer
  | 0, _, t => t
  | n + 1, p, t =>
      if p = [] then t
      else
        let tok := p.takeWhile (· ≠ comma)
        let q := p.dropWhile (· ≠ comma)
        scan n (q.drop 1) (if tok = [] then t else t.push tok)

end NmeaTokenizer

/-- The initial `'$'` is optional. -/
def stripDollar (p : List UInt8) : List UInt8 := if p.head? = some dollar then p.drop 1 else p

/-- The trailing newline, and a carriage return before it. -/
def stripNewline (p : List UInt8) : List UInt8 :=
  if p.getLast? = some newline then
    if p.dropLast.getLast? = some cr then p.dropLast.dropLast else p.dropLast
  else p

/-- The checksum: three bytes that start with a `'*'`. -/
def stripChecksum (p : List UInt8) : List UInt8 :=
  if 3 ≤ p.length ∧ p[p.length - 3]? = some star then p.take (p.length - 3) else p

/-- What is between the `$` and the checksum. -/
def body (sentence : List UInt8) : List UInt8 :=
  stripChecksum (stripNewline (stripDollar sentence))

def nmeaTokenizerInit (sentence : List UInt8) : NmeaTokenizer :=
  let p := body sentence
  NmeaTokenizer.scan p.length p {}

def nmeaTokenizerGet (t : NmeaTokenizer) (index : Nat) : Token := t.tokens.getD index []

/-- `str2int` after some digits; a byte that is no digit makes it fail. -/
def str2intFrom (result : Int) : List UInt8 → Int
  | [] => result
  | p :: rest =>
      let c := (p.toNat : Int) - 48
      if c < 0 ∨ 10 ≤ c then -1 else str2intFrom (result * 10 + c) rest

def str2int (digits : List UInt8) : Int := str2intFrom 0 digits

end AndroidRenderer.Gps
