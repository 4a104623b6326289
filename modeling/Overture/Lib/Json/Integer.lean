import Overture.Lib.Json.Decode

/-!
# Signed integers

A field of a signed integer type takes a literal without fraction and exponent that fits the
type; an integer is written as such a literal.
-/

namespace Json

def parseInt (bits : Nat) (lit : Text) : Option Int :=
  match lit with
  | '-' :: digits =>
    (parseUint bits digits).bind fun n => if n ≤ 2 ^ (bits - 1) then some (-(n : Int)) else none
  | digits => (parseUint bits digits).bind fun n => if n < 2 ^ (bits - 1) then some (n : Int) else none

def intLiteral : Int → Text
  | .ofNat n => Nat.toDigits 10 n
  | .negSucc n => '-' :: Nat.toDigits 10 (n + 1)

def Decoder.int (bits : Nat) : Decoder Int
  | .num lit, old =>
    match parseInt bits lit with
    | some n => (n, true)
    | none => (old, false)
  | .null, old => (old, true)
  | _, old => (old, false)

example : parseInt 64 "-9223372036854775808" = some (-9223372036854775808) := by decide +kernel

example : parseInt 64 "1.0" = none := by decide +kernel

theorem toDigits_ne_minus (n : Nat) (rest : Text) : Nat.toDigits 10 n ≠ '-' :: rest := by
  intro h
  have hdigit := isDigit_toDigits n '-' (by simp [h])
  revert hdigit
  decide

theorem parseInt_toDigits {bits n : Nat} (hn : n < 2 ^ (bits - 1)) :
    parseInt bits (Nat.toDigits 10 n) = some (n : Int) := by
  have hbits : n < 2 ^ bits := hn.trans_le (Nat.pow_le_pow_right (by decide) (Nat.sub_le bits 1))
  unfold parseInt
  split
  · next digits h => exact absurd h (toDigits_ne_minus n digits)
  · rw [parseUint_toDigits hbits, Option.bind_some, if_pos hn]

theorem parseInt_intLiteral {bits : Nat} {n : Int} (hb : 0 < bits) (hlo : -(2 ^ (bits - 1) : Int) ≤ n)
    (hhi : n < 2 ^ (bits - 1)) : parseInt bits (intLiteral n) = some n := by
  cases n with
  | ofNat n =>
    have hlt : (n : Int) < 2 ^ (bits - 1) := hhi
    apply parseInt_toDigits
    exact_mod_cast hlt
  | negSucc n =>
    have hle : n + 1 ≤ 2 ^ (bits - 1) := by
      have hcast : ((n + 1 : Nat) : Int) ≤ ((2 ^ (bits - 1) : Nat) : Int) := by
        push_cast
        omega
      exact_mod_cast hcast
    have hlt : n + 1 < 2 ^ bits := by
      apply hle.trans_lt
      exact Nat.pow_lt_pow_right (by decide) (by omega)
    rw [intLiteral, parseInt, parseUint_toDigits hlt, Option.bind_some, if_pos hle]
    rfl

theorem isNumber_intLiteral (n : Int) : IsNumber (intLiteral n) := by
  cases n with
  | ofNat n => exact isNumber_toDigits n
  | negSucc n =>
    have hscan : scanNumber ('-' :: Nat.toDigits 10 (n + 1)) = some ('-' :: Nat.toDigits 10 (n + 1), []) := by
      simp [scanNumber, scanMinus, scanInt_toDigits, scanFrac, scanExp]
    exact (scanNumber_spec hscan).2

def intValue (n : Int) : Value := .num (intLiteral n)

end Json
