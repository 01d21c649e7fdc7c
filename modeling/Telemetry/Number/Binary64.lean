import Telemetry.Number.Word

/-!
Binary64 words, their exact values, and the operations on them that metrics need.

Every operation goes through the exact value of its operands, a natural significand times a power
of two, and rounds once at the end. `nearest` is that one rounding: to the nearest word, a tie to
the even significand, and to infinity from the midpoint above the largest finite word.
-/

namespace Telemetry

/-- A binary64 word: a sign bit, eleven exponent bits and fifty-two fraction bits. -/
structure Binary64 where
  bits : UInt64
deriving DecidableEq, Inhabited

/-- The quotient of two natural numbers, rounded to nearest, a tie to the even neighbour. -/
def divNearest (n d : Nat) : Nat :=
  let q := n / d
  let twice := 2 * (n % d)
  if twice < d then q else if d < twice then q + 1 else q + q % 2

namespace Binary64

/-- What a word stands for; a finite one is `± significand * 2 ^ exponent`. -/
inductive Datum where
  | notANumber
  | infinite (negative : Bool)
  | finite (negative : Bool) (significand : Nat) (exponent : Int)
deriving DecidableEq

/-- The value of a word. The significand of a normal word carries its hidden bit. -/
def datum (x : Binary64) : Datum :=
  let word : Nat := x.bits.toNat
  let negative := word / 2 ^ 63 == 1
  let field : Nat := word / 2 ^ 52 % 2 ^ 11
  let fraction : Nat := word % 2 ^ 52
  if field = 2047 then
    if fraction = 0 then .infinite negative else .notANumber
  else if field = 0 then .finite negative fraction (-1074)
  else .finite negative (2 ^ 52 + fraction) ((field : Int) - 1075)

def pack (negative : Bool) (magnitude : Nat) : Binary64 :=
  ⟨UInt64.ofNat ((if negative then 2 ^ 63 else 0) + magnitude)⟩

def infinityMagnitude : Nat := 2047 * 2 ^ 52

def infinity (negative : Bool) : Binary64 := pack negative infinityMagnitude

def zero (negative : Bool) : Binary64 := pack negative 0

def nan : Binary64 := ⟨0x7ff8000000000000⟩

/-- Whether `d * 2 ^ k ≤ n`. -/
def reaches (n d : Nat) (k : Int) : Bool :=
  if 0 ≤ k then d * 2 ^ k.toNat ≤ n else d ≤ n * 2 ^ (-k).toNat

/-- The exponent of the greatest power of two that is at most `n / d`. -/
def floorLog2 (n d : Nat) : Int :=
  let k : Int := (n.log2 : Int) - (d.log2 : Int)
  if reaches n d k then k else k - 1

/--
The word nearest to `± n / d`. The unit in the last place is `2 ^ unit`; counting units from the
word of that binade is an addition on the bits, so a carry into the next binade needs no case.
-/
def nearest (negative : Bool) (n d : Nat) : Binary64 :=
  if n = 0 then zero negative
  else
    let unit := max (floorLog2 n d - 52) (-1074)
    if 971 < unit then infinity negative
    else
      let units :=
        if 0 ≤ unit then divNearest n (d * 2 ^ unit.toNat)
        else divNearest (n * 2 ^ (-unit).toNat) d
      pack negative (min ((unit + 1074).toNat * 2 ^ 52 + units) infinityMagnitude)

def ofScaled (negative : Bool) (m : Nat) (e : Int) : Binary64 :=
  if 0 ≤ e then nearest negative (m * 2 ^ e.toNat) 1 else nearest negative m (2 ^ (-e).toNat)

def ofNat (n : Nat) : Binary64 := nearest false n 1

def ofInt (i : Int) : Binary64 := nearest (decide (i < 0)) i.natAbs 1

def ofWord (w : UInt64) : Binary64 := ofNat w.toNat

def ofSignedWord (w : UInt64) : Binary64 := ofInt (Int.bmod (w.toNat : Int) (2 ^ 64))

def isNaN (x : Binary64) : Bool := x.datum = .notANumber

def mul (x y : Binary64) : Binary64 :=
  match x.datum, y.datum with
  | .notANumber, _ | _, .notANumber => nan
  | .infinite s, .infinite t => infinity (s != t)
  | .infinite s, .finite t m _ | .finite t m _, .infinite s =>
    if m = 0 then nan else infinity (s != t)
  | .finite s m p, .finite t n q => ofScaled (s != t) (m * n) (p + q)

def div (x y : Binary64) : Binary64 :=
  match x.datum, y.datum with
  | .notANumber, _ | _, .notANumber => nan
  | .infinite _, .infinite _ => nan
  | .infinite s, .finite t _ _ => infinity (s != t)
  | .finite s _ _, .infinite t => zero (s != t)
  | .finite s m p, .finite t n q =>
    if n = 0 then (if m = 0 then nan else infinity (s != t))
    else if 0 ≤ p - q then nearest (s != t) (m * 2 ^ (p - q).toNat) n
    else nearest (s != t) m (n * 2 ^ (q - p).toNat)

/-- The sum. Only the signs of the operands decide the sign of a zero: negative if both are. -/
def add (x y : Binary64) : Binary64 :=
  match x.datum, y.datum with
  | .notANumber, _ | _, .notANumber => nan
  | .infinite s, .infinite t => if s = t then infinity s else nan
  | .infinite s, .finite _ _ _ | .finite _ _ _, .infinite s => infinity s
  | .finite s m p, .finite t n q =>
    let low := min p q
    let left : Int := m * 2 ^ (p - low).toNat
    let right : Int := n * 2 ^ (q - low).toNat
    let sum := (if s then -left else left) + (if t then -right else right)
    if sum = 0 then zero (s && t) else ofScaled (decide (sum < 0)) sum.natAbs low

def truncated (m : Nat) (e : Int) : Nat :=
  if 0 ≤ e then m * 2 ^ e.toNat else m / 2 ^ (-e).toNat

def roundedUp (m : Nat) (e : Int) : Nat :=
  if 0 ≤ e then m * 2 ^ e.toNat else (2 * m + 2 ^ (-e).toNat) / (2 * 2 ^ (-e).toNat)

/-- The value cut to an unsigned word: 0 below it and for a NaN, the greatest word above it. -/
def toWord (x : Binary64) : UInt64 :=
  match x.datum with
  | .notANumber => 0
  | .infinite negative => if negative then 0 else UInt64.ofNat (2 ^ 64 - 1)
  | .finite negative m e =>
    if negative then 0 else UInt64.ofNat (min (truncated m e) (2 ^ 64 - 1))

/--
The value rounded to a whole number, a half away from zero, as a word in two's complement: 0 for a
NaN, the least and greatest such words beyond them.
-/
def roundToSignedWord (x : Binary64) : UInt64 :=
  match x.datum with
  | .notANumber => 0
  | .infinite negative => if negative then UInt64.ofNat (2 ^ 63) else UInt64.ofNat (2 ^ 63 - 1)
  | .finite negative m e =>
    let magnitude := roundedUp m e
    if negative then UInt64.ofNat (2 ^ 64 - min magnitude (2 ^ 63))
    else UInt64.ofNat (min magnitude (2 ^ 63 - 1))

end Binary64

end Telemetry
