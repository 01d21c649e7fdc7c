import Telemetry.Number.Reader
import Telemetry.Text.Utf8

/-!
The lexical level of JSON: blanks, words, numbers and strings, read off the front of bytes.

A failure is one of three: the text ends too early, it is malformed, or it is well-formed but not
what was asked for.
-/

namespace Telemetry

namespace Json

inductive Failure where
  | malformed
  | mismatch
  | unfinished
deriving DecidableEq

abbrev Parsed (α : Type) := α × List UInt8

abbrev Scanner (α : Type) := List UInt8 → Except Failure (Parsed α)

def isBlank (b : UInt8) : Bool := b == 0x20 || b == 0x09 || b == 0x0a || b == 0x0d

def skipBlanks (bytes : List UInt8) : List UInt8 := bytes.dropWhile isBlank

def byte (c : Char) : UInt8 := UInt8.ofNat c.toNat

def isDigit (b : UInt8) : Bool := byte '0' ≤ b && b ≤ byte '9'

def expectWord : List Char → List UInt8 → Except Failure (Parsed Unit)
  | [], bytes => .ok ((), bytes)
  | _ :: _, [] => .error .unfinished
  | c :: word, b :: rest => if b = byte c then expectWord word rest else .error .malformed

inductive Number where
  | natural (n : Nat)
  | other
deriving DecidableEq

/-- The number `significand * 10 ^ exponent` that is being read. -/
structure Scaled where
  significand : Nat
  exponent : Int

def digitsFrom (start : Nat) (digits : List UInt8) : Nat :=
  digits.foldl (fun n d => 10 * n + (d.toNat - 48)) start

/-- A number is malformed if no finite binary64 word is nearest to it. -/
def Scaled.finish (x : Scaled) (rest : List UInt8) : Except Failure (Parsed Number) :=
  if Reader.ofDecimal false x.significand x.exponent = .infinity false then .error .malformed
  else .ok (.other, rest)

def readExponent (x : Scaled) (bytes : List UInt8) : Except Failure (Parsed Number) :=
  let (negative, bytes) := match bytes with
    | b :: rest => if b = byte '-' then (true, rest) else if b = byte '+' then (false, rest)
      else (false, b :: rest)
    | [] => (false, [])
  match bytes with
  | [] => .error .unfinished
  | b :: _ =>
    if isDigit b then
      let e : Int := digitsFrom 0 (bytes.takeWhile isDigit)
      { x with exponent := if negative then x.exponent - e else x.exponent + e }.finish
        (bytes.dropWhile isDigit)
    else .error .malformed

def isExponentMark (b : UInt8) : Bool := b == byte 'e' || b == byte 'E'

def readFraction (x : Scaled) (bytes : List UInt8) : Except Failure (Parsed Number) :=
  let digits := bytes.takeWhile isDigit
  let rest := bytes.dropWhile isDigit
  if digits.isEmpty then .error (if rest.isEmpty then .unfinished else .malformed)
  else
    let x : Scaled := ⟨digitsFrom x.significand digits, x.exponent - digits.length⟩
    match rest with
    | b :: behind => if isExponentMark b then readExponent x behind else x.finish rest
    | [] => x.finish []

/-- A whole number, and what may stand behind it; one that fits no word counts as a decimal. -/
def readTail (positive : Bool) (n : Nat) (bytes : List UInt8) :
    Except Failure (Parsed Number) :=
  let x : Scaled := ⟨n, 0⟩
  let whole : Except Failure (Parsed Number) :=
    if 2 ^ 64 ≤ n then x.finish bytes else .ok (if positive then .natural n else .other, bytes)
  match bytes with
  | [] => whole
  | b :: rest =>
    if b = byte '.' then readFraction x rest
    else if isExponentMark b then readExponent x rest
    else whole

def readMagnitude (positive : Bool) : List UInt8 → Except Failure (Parsed Number)
  | [] => .error .unfinished
  | b :: rest =>
    if b = byte '0' then
      match rest with
      | next :: _ => if isDigit next then .error .malformed else readTail positive 0 rest
      | [] => readTail positive 0 []
    else if isDigit b then
      readTail positive (digitsFrom 0 ((b :: rest).takeWhile isDigit))
        ((b :: rest).dropWhile isDigit)
    else .error .malformed

def startsNumber (b : UInt8) : Bool := b == byte '-' || isDigit b

def readNumber : List UInt8 → Except Failure (Parsed Number)
  | [] => .error .unfinished
  | b :: rest => if b = byte '-' then readMagnitude false rest else readMagnitude true (b :: rest)

/-- Passes over a number whatever its value. Here an end of the text is as bad as any other byte. -/
def skipExponent (bytes : List UInt8) : Except Failure (Parsed Unit) :=
  let bytes := match bytes with
    | b :: rest => if b == byte '-' || b == byte '+' then rest else b :: rest
    | [] => []
  match bytes with
  | b :: rest => if isDigit b then .ok ((), rest.dropWhile isDigit) else .error .malformed
  | [] => .error .malformed

def skipFraction (bytes : List UInt8) : Except Failure (Parsed Unit) :=
  if (bytes.takeWhile isDigit).isEmpty then .error .malformed
  else
    match bytes.dropWhile isDigit with
    | b :: rest => if isExponentMark b then skipExponent rest else .ok ((), b :: rest)
    | [] => .ok ((), [])

def skipTail : List UInt8 → Except Failure (Parsed Unit)
  | [] => .ok ((), [])
  | b :: rest =>
    if b = byte '.' then skipFraction rest
    else if isExponentMark b then skipExponent rest
    else .ok ((), b :: rest)

def skipNumber (bytes : List UInt8) : Except Failure (Parsed Unit) :=
  let bytes := match bytes with
    | b :: rest => if b = byte '-' then rest else b :: rest
    | [] => []
  match bytes with
  | [] => .error .malformed
  | b :: rest =>
    if b = byte '0' then
      match rest with
      | next :: _ => if isDigit next then .error .malformed else skipTail rest
      | [] => .ok ((), [])
    else if isDigit b then skipTail (rest.dropWhile isDigit)
    else .error .malformed

def shortEscapes : List (Char × Nat) :=
  [('"', 0x22), ('\\', 0x5c), ('/', 0x2f), ('b', 0x08), ('f', 0x0c), ('n', 0x0a), ('r', 0x0d),
    ('t', 0x09)]

def hexValue? (b : UInt8) : Option Nat :=
  let n := b.toNat
  if 48 ≤ n && n ≤ 57 then some (n - 48)
  else if 97 ≤ n && n ≤ 102 then some (n - 87)
  else if 65 ≤ n && n ≤ 70 then some (n - 55)
  else none

def readUnit : List UInt8 → Except Failure (Parsed Nat)
  | a :: b :: c :: d :: rest =>
    match hexValue? a, hexValue? b, hexValue? c, hexValue? d with
    | some a, some b, some c, some d => .ok (((a * 16 + b) * 16 + c) * 16 + d, rest)
    | _, _, _, _ => .error .malformed
  | _ => .error .unfinished

def isLowSurrogate (n : Nat) : Bool := 0xdc00 ≤ n && n ≤ 0xdfff

def isHighSurrogate (n : Nat) : Bool := 0xd800 ≤ n && n ≤ 0xdbff

def encodeCode (code : Nat) : List UInt8 := Utf8.encode (String.singleton (Char.ofNat code))

def expectByte (c : Char) : List UInt8 → Except Failure (Parsed Unit)
  | [] => .error .unfinished
  | b :: rest => if b = byte c then .ok ((), rest) else .error .malformed

def readCode (bytes : List UInt8) : Except Failure (Parsed (List UInt8)) := do
  let (first, rest) ← readUnit bytes
  if isLowSurrogate first then .error .malformed
  else if isHighSurrogate first then
    let ((), rest) ← expectByte '\\' rest
    let ((), rest) ← expectByte 'u' rest
    let (second, rest) ← readUnit rest
    if isLowSurrogate second then
      .ok (encodeCode (0x10000 + (first - 0xd800) * 0x400 + (second - 0xdc00)), rest)
    else .error .malformed
  else .ok (encodeCode first, rest)

/-- An escape behind its backslash; `coded` reads one by number. -/
def readEscape (coded : Scanner (List UInt8)) : Scanner (List UInt8)
  | [] => .error .unfinished
  | b :: rest =>
    if b = byte 'u' then coded rest
    else
      match shortEscapes.find? fun x => b = byte x.1 with
      | some (_, code) => .ok ([UInt8.ofNat code], rest)
      | none => .error .malformed

def stringFrom (coded : Scanner (List UInt8)) : Nat → Scanner (List UInt8)
  | 0, _ => .error .unfinished
  | _, [] => .error .unfinished
  | fuel + 1, b :: rest =>
    if b = byte '"' then .ok ([], rest)
    else if b = byte '\\' then do
      let (character, rest) ← readEscape coded rest
      let (more, rest) ← stringFrom coded fuel rest
      .ok (character ++ more, rest)
    else if b < 0x20 then .error .malformed
    else do
      let (more, rest) ← stringFrom coded fuel rest
      .ok (b :: more, rest)

def readString (bytes : List UInt8) : Except Failure (Parsed String) := do
  let (content, rest) ← stringFrom readCode bytes.length bytes
  .ok (Utf8.repair content, rest)

/-- Passes over a string, without a look at what its escapes by number stand for. -/
def skipString (bytes : List UInt8) : Except Failure (Parsed Unit) := do
  let unread : Scanner (List UInt8) := fun bytes => (readUnit bytes).map fun x => ([], x.2)
  let (_, rest) ← stringFrom unread bytes.length bytes
  .ok ((), rest)

end Json

end Telemetry
