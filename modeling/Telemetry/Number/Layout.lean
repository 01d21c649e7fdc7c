import Telemetry.Number.Digits
import Telemetry.Number.Word

/-!
Texts of binary64 words.

* `plain`: the fewest digits that read back, always positional, no point on a whole number.
* `literal`: the fewest digits that read back, scientific from `1e16` up and below `1e-4`, and a
  point on every positional number.
* `general`: a number of significant digits, trailing zeros dropped, scientific when the exponent
  is below -4 or not below the precision.
-/

namespace Telemetry

namespace Layout

def zeros (n : Nat) : List Char := List.replicate n '0'

def positional (digits : List Char) (leading : Int) : List Char :=
  if leading < 0 then '0' :: '.' :: (zeros (-leading - 1).toNat ++ digits)
  else
    let whole := leading.toNat + 1
    if digits.length ≤ whole then digits ++ zeros (whole - digits.length)
    else digits.take whole ++ '.' :: digits.drop whole

def mantissa : List Char → List Char
  | [] => []
  | [d] => [d]
  | d :: rest => d :: '.' :: rest

/-- Drops zeros at the end of a fraction, and a point that they leave bare. -/
def trimZeros (text : List Char) : List Char :=
  if text.contains '.' then
    let kept := (text.reverse.dropWhile (· == '0')).dropWhile (· == '.')
    kept.reverse
  else text

/-- A count of units of `10 ^ -places`, written with that many places. -/
def withPlaces (places units : Nat) : List Char :=
  let digits := Digits.numeral units
  let digits := zeros (places + 1 - digits.length) ++ digits
  if places = 0 then digits
  else
    let whole := digits.length - places
    digits.take whole ++ '.' :: digits.drop whole

def signedExponent (e : Int) : List Char :=
  let digits := Digits.numeral e.natAbs
  (if e < 0 then '-' else '+') :: (zeros (2 - digits.length) ++ digits)

/-- Whether digits with this leading exponent are written in scientific form. -/
def isScientific (precision : Nat) (leading : Int) : Bool :=
  leading < -4 || (precision : Int) ≤ leading

/-- The decimal places that `precision` digits reach to. -/
def decimalPlaces (precision : Nat) (leading : Int) : Nat := ((precision : Int) - 1 - leading).toNat

def generalMagnitude (precision n d : Nat) : List Char :=
  let rounded := Digits.significant precision n d
  if isScientific precision rounded.leading then
    trimZeros (mantissa (Digits.numeral rounded.digits)) ++ 'e' :: signedExponent rounded.leading
  else
    let places := decimalPlaces precision rounded.leading
    trimZeros (withPlaces places (Digits.atPlaces places n d))

/--
The digits behind the point in the text of `n / d`, before zeros are dropped. Sixteen bits have to
hold their number, and that of the digits behind the first one.
-/
def fitGeneral (precision n d : Nat) : Except Overflow Nat := do
  let further ← Overflow.layout.unlessFits 16 (precision - 1)
  let leading := (Digits.significant precision n d).leading
  if isScientific precision leading then .ok further
  else Overflow.layout.unlessFits 16 (decimalPlaces precision leading)

end Layout

namespace Binary64

open Layout

def signed (negative : Bool) (magnitude : List Char) : String :=
  String.ofList (if negative then '-' :: magnitude else magnitude)

def plain (x : Binary64) : String :=
  match x.datum with
  | .notANumber => "NaN"
  | .infinite negative => signed negative ['i', 'n', 'f']
  | .finite negative m e =>
    if m = 0 then signed negative ['0']
    else
      let d := Digits.shortest m e
      signed negative (positional (Digits.numeral d.digits) d.leading)

def literal (x : Binary64) : String :=
  match x.datum with
  | .notANumber => "NaN"
  | .infinite negative => signed negative ['i', 'n', 'f']
  | .finite negative m e =>
    if m = 0 then signed negative ['0', '.', '0']
    else
      let d := Digits.shortest m e
      let digits := Digits.numeral d.digits
      if d.leading < -4 ∨ 16 ≤ d.leading then
        let exponent := Digits.numeral d.leading.natAbs
        let exponent := if d.leading < 0 then '-' :: exponent else exponent
        signed negative (mantissa digits ++ 'e' :: exponent)
      else
        let text := positional digits d.leading
        signed negative (if text.contains '.' then text else text ++ ['.', '0'])

/-- A precision of 0 counts as 1, and both zeros are written without a sign. -/
def general (x : Binary64) (precision : Nat) : String :=
  match x.datum with
  | .notANumber => "nan"
  | .infinite negative => signed negative ['i', 'n', 'f']
  | .finite negative m e =>
    if m = 0 then "0"
    else
      let (n, d) := Digits.quotient m e
      signed negative (generalMagnitude (max precision 1) n d)

def general? (x : Binary64) (precision : Nat) : Except Overflow String :=
  match x.datum with
  | .finite _ m e =>
    if m = 0 then .ok (x.general precision)
    else
      let (n, d) := Digits.quotient m e
      (fitGeneral (max precision 1) n d).map fun _ => x.general precision
  | _ => .ok (x.general precision)

end Binary64

end Telemetry
