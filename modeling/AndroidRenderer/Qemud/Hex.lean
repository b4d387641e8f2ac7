import Mathlib.Data.List.Basic
import Mathlib.Data.Nat.Digits.Defs

/-!
# Hexadecimal numbers of the qemud protocol

Channel numbers and payload lengths travel as fixed-width hexadecimal text. The
daemon writes lower-case digits and reads both cases; a string with any other
character reads as -1.
-/

namespace AndroidRenderer.Qemud

/-- The bytes of a C string literal. -/
def ascii (text : String) : List UInt8 := text.toUTF8.data.toList

/-- Conversion of an `int` to `unsigned`. -/
def unsigned (x : Int) : Nat := (x % 2 ^ 32).toNat

/-- The value of one digit, by the three range tests of `hex2int`. -/
def hexDigit (c : UInt8) : Option Nat :=
  if unsigned (c.toNat - 48) < 10 then some (unsigned (c.toNat - 48))
  else if unsigned (c.toNat - 97) < 6 then some (unsigned (c.toNat - 97) + 10)
  else if unsigned (c.toNat - 65) < 6 then some (unsigned (c.toNat - 65) + 10)
  else none

/-- The loop of `hex2int`, from the value read so far. -/
def hex2intFrom (result : Nat) : List UInt8 → Int
  | [] => result
  | c :: data =>
      match hexDigit c with
      | none => -1
      | some d => hex2intFrom (result <<< 4 ||| d) data

def hex2int (data : List UInt8) : Int := hex2intFrom 0 data

def hexchars : List UInt8 := ascii "0123456789abcdef"

/-- The last `width` digits of `value`. -/
def int2hex (value : Int) : Nat → List UInt8
  | 0 => []
  | width + 1 => hexchars.getD ((value >>> (width * 4)) % 16).toNat 0 :: int2hex value width

/-- The `%02x` conversion of `printf`. -/
def format02x (value : Int) : List UInt8 :=
  let digits := (Nat.toDigits 16 (unsigned value)).map fun c => c.toNat.toUInt8
  if digits.length < 2 then 48 :: digits else digits

@[simp] theorem int2hex_length (value : Int) (width : Nat) :
    (int2hex value width).length = width := by
  induction width with
  | zero => rfl
  | succ width ih => rw [int2hex, List.length_cons, ih]

theorem hexDigit_hexchars {d : Nat} (h : d < 16) : hexDigit (hexchars.getD d 0) = some d := by
  revert d
  decide

/-- A digit is shifted in below the digits that are read. -/
theorem shift_or_eq {d : Nat} (h : d < 16) (result : Nat) :
    result <<< 4 ||| d = result * 16 + d := by
  rw [← Nat.shiftLeft_add_eq_or_of_lt (by simpa using h), Nat.shiftLeft_eq]

theorem hex2intFrom_int2hex (value result width : Nat) :
    hex2intFrom result (int2hex value width) =
      ((result * 16 ^ width + value % 16 ^ width : Nat) : Int) := by
  induction width generalizing result with
  | zero => simp [int2hex, hex2intFrom, Nat.mod_one]
  | succ width ih =>
      have hdigit : (((value : Int) >>> (width * 4)) % 16).toNat = value / 16 ^ width % 16 := by
        have hshift : ((value : Int) >>> (width * 4)) = ((value / 16 ^ width : Nat) : Int) := by
          rw [Int.shiftRight_eq_div_pow, Nat.mul_comm, Nat.pow_mul]
          norm_num
        rw [hshift]
        omega
      have hlt : value / 16 ^ width % 16 < 16 := Nat.mod_lt _ (by decide)
      rw [int2hex, hdigit, hex2intFrom, hexDigit_hexchars hlt]
      simp only
      rw [shift_or_eq hlt, ih, Nat.mod_pow_succ]
      congr 1
      ring

/-- Reading back a number that fits the width. -/
theorem hex2int_int2hex {value width : Nat} (h : value < 16 ^ width) :
    hex2int (int2hex value width) = value := by
  rw [hex2int, hex2intFrom_int2hex, Nat.mod_eq_of_lt h]
  simp

theorem format02x_length_le (value : Int) : (format02x value).length ≤ 8 := by
  have hlt : unsigned value < 16 ^ 8 := by
    unfold unsigned
    omega
  have hdigits := (Nat.length_toDigits_le_iff (by decide) (by decide)).mpr hlt
  grind [format02x]

/-- A channel number is printed as it is in a header. -/
theorem format02x_eq {channel : Nat} (h : channel < 256) :
    format02x channel = int2hex channel 2 := by
  have hall : ∀ n : Fin 256, format02x (n : Nat) = int2hex (n : Nat) 2 := by decide +kernel
  exact hall ⟨channel, h⟩

end AndroidRenderer.Qemud
