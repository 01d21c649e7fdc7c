import Telemetry.Number.Binary64

/-!
Reading numbers from text.

A whole number is ASCII digits behind an optional `+`, or, where negative values have a place,
`-`. A decimal is an optional sign and either a spelling of infinity or NaN, in any case, or digits
with at most one point among them and an optional exponent; it is rounded to nearest once.
-/

namespace Telemetry

namespace Reader

def isDigit (c : Char) : Bool := '0' ≤ c && c ≤ '9'

def digitValue (c : Char) : Nat := c.toNat - '0'.toNat

def digitsFrom (start : Nat) (digits : List Char) : Nat :=
  digits.foldl (fun n c => 10 * n + digitValue c) start

def digits? (text : List Char) : Option Nat :=
  if !text.isEmpty && text.all isDigit then some (digitsFrom 0 text) else none

def natural? (greatest : Nat) (text : String) : Option Nat :=
  let digits := match text.toList with
    | '+' :: rest => rest
    | text => text
  (digits? digits).filter (· ≤ greatest)

def integer? (text : String) : Option Int :=
  match text.toList with
  | '+' :: rest => (digits? rest).map Int.ofNat
  | '-' :: rest => (digits? rest).map fun n => -(n : Int)
  | text => (digits? text).map Int.ofNat

def greatestWord : Nat := 2 ^ 64 - 1

def word? (text : String) : Option UInt64 := (natural? greatestWord text).map UInt64.ofNat

/-- The word nearest to `± n * 10 ^ e`; exponents far out of range are settled without a power. -/
def ofDecimal (negative : Bool) (n : Nat) (e : Int) : Binary64 :=
  let length : Int := (Nat.toDigits 10 n).length
  if n = 0 ∨ e + length < -400 then .zero negative
  else if 400 < e + length then .infinity negative
  else if 0 ≤ e then .nearest negative (n * 10 ^ e.toNat) 1
  else .nearest negative n (10 ^ (-e).toNat)

/-- The exponent part of a decimal: nothing, or `e` and a whole number. -/
def exponent? : List Char → Option Int
  | [] => some 0
  | c :: rest =>
    if c == 'e' || c == 'E' then
      match rest with
      | '+' :: digits => (digits? digits).map Int.ofNat
      | '-' :: digits => (digits? digits).map fun n => -(n : Int)
      | digits => (digits? digits).map Int.ofNat
    else none

/-- Digits, an optional fraction and an optional exponent; at least one digit before the latter. -/
def decimalMagnitude? (negative : Bool) (text : List Char) : Option Binary64 :=
  let whole := text.takeWhile isDigit
  let rest := text.dropWhile isDigit
  let (fraction, rest) := match rest with
    | '.' :: rest => (rest.takeWhile isDigit, rest.dropWhile isDigit)
    | rest => ([], rest)
  if whole.isEmpty && fraction.isEmpty then none
  else (exponent? rest).map fun e =>
    ofDecimal negative (digitsFrom (digitsFrom 0 whole) fraction) (e - fraction.length)

def magnitude? (negative : Bool) (text : List Char) : Option Binary64 :=
  match String.ofList (text.map Char.toLower) with
  | "inf" | "infinity" => some (.infinity negative)
  | "nan" => some .nan
  | _ => decimalMagnitude? negative text

def binary64? (text : String) : Option Binary64 :=
  match text.toList with
  | '+' :: rest => magnitude? false rest
  | '-' :: rest => magnitude? true rest
  | text => magnitude? false text

end Reader

end Telemetry
