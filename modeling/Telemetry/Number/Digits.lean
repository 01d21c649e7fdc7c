import Telemetry.Number.Binary64

/-!
Decimal digits of positive rationals `n / d`: the decimal exponent, rounding to a number of
significant digits or of decimal places, and the fewest digits that identify a binary64 word.

Digits are a natural number together with the exponent of its leading digit.
-/

namespace Telemetry

/-- Digits `10 ^ leading * digits / 10 ^ (length of digits - 1)`. -/
structure Digits where
  digits : Nat
  leading : Int
deriving DecidableEq

namespace Digits

def numeral (n : Nat) : List Char := Nat.toDigits 10 n

def digitCount (n : Nat) : Nat := (numeral n).length

def timesTen (k : Int) (n d : Nat) : Nat × Nat :=
  if 0 ≤ k then (n * 10 ^ k.toNat, d) else (n, d * 10 ^ (-k).toNat)

/-- The exponent of the greatest power of ten that is at most `n / d`. -/
def decimalExponent (n d : Nat) : Int :=
  let k : Int := (digitCount n : Int) - (digitCount d : Int)
  let (a, b) := timesTen (-k) n d
  if b ≤ a then k else k - 1

/-- `n / d` rounded to `count` significant digits, a tie to the even digit. -/
def significant (count n d : Nat) : Digits :=
  let k := decimalExponent n d
  let (a, b) := timesTen ((count : Int) - 1 - k) n d
  let m := divNearest a b
  if m = 10 ^ count then ⟨10 ^ (count - 1), k + 1⟩ else ⟨m, k⟩

/-- `n / d` in units of `10 ^ -places`, a tie to the even unit. -/
def atPlaces (places n d : Nat) : Nat := divNearest (n * 10 ^ places) d

def quotient (m : Nat) (e : Int) : Nat × Nat :=
  if 0 ≤ e then (m * 2 ^ e.toNat, 1) else (m, 2 ^ (-e).toNat)

/--
Whether a reader that rounds to nearest takes `c / b` for `m * 2 ^ e`. The bounds are the midpoints
to the neighbouring words, in quarters of a unit; they count when the significand is even. Below a
power of two the lower neighbour is half as far.
-/
def readsBack (m : Nat) (e : Int) (c b : Nat) : Bool :=
  let below := if m = 2 ^ 52 ∧ -1074 < e then 1 else 2
  let (lowNum, lowDen) := quotient (4 * m - below) (e - 2)
  let (highNum, highDen) := quotient (4 * m + 2) (e - 2)
  if m % 2 = 0 then lowNum * b ≤ c * lowDen && c * highDen ≤ highNum * b
  else lowNum * b < c * lowDen && c * highDen < highNum * b

/--
The nearest of the two `count`-digit neighbours of `m * 2 ^ e` that reads back as it, the greater
one on a tie.
-/
def candidate? (m : Nat) (e : Int) (count : Nat) : Option Digits :=
  let (n, d) := quotient m e
  let k := decimalExponent n d
  let shift := (count : Int) - 1 - k
  let (a, b) := timesTen shift n d
  let low := a / b
  let reads (c : Nat) : Bool :=
    let (x, y) := timesTen (-shift) c 1
    readsBack m e x y
  let upper : Digits := if low + 1 = 10 ^ count then ⟨1, k + 1⟩ else ⟨low + 1, k⟩
  match reads low, reads (low + 1) with
  | true, true => if 2 * (a % b) < b then some ⟨low, k⟩ else some upper
  | true, false => some ⟨low, k⟩
  | false, true => some upper
  | false, false => none

/-- The fewest digits that read back as `m * 2 ^ e`; seventeen always do. -/
def shortest (m : Nat) (e : Int) : Digits :=
  ((List.range 17).findSome? fun i => candidate? m e (i + 1)).getD
    (let (n, d) := quotient m e; significant 17 n d)

end Digits

end Telemetry
