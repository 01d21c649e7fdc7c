/-!
Bytes as text: two lower-case hexadecimal digits each.
-/

namespace Telemetry

namespace Hex

def digit (n : Nat) : Char := Nat.digitChar (n % 16)

def encode (bytes : List UInt8) : String :=
  String.ofList (bytes.flatMap fun b => [digit (b.toNat / 16), digit b.toNat])

def ofWord (w : UInt64) : String :=
  encode ((List.range 8).map fun i => (w >>> UInt64.ofNat (8 * (7 - i))).toUInt8)

def value? (c : Char) : Option Nat :=
  let code := c.toNat
  if '0' ≤ c && c ≤ '9' then some (code - '0'.toNat)
  else if 'a' ≤ c && c ≤ 'f' then some (code - 'a'.toNat + 10)
  else if 'A' ≤ c && c ≤ 'F' then some (code - 'A'.toNat + 10)
  else none

def decodeChars? : List Char → Option (List UInt8)
  | [] => some []
  | [_] => none
  | a :: b :: rest =>
    match value? a, value? b, decodeChars? rest with
    | some high, some low, some bytes => some (UInt8.ofNat (16 * high + low) :: bytes)
    | _, _, _ => none

def decode? (text : String) : Option (List UInt8) := decodeChars? text.toList

def word? (text : String) : Option UInt64 :=
  (decode? text).map fun bytes => UInt64.ofNat (bytes.foldl (fun n b => 256 * n + b.toNat) 0)

end Hex

end Telemetry
