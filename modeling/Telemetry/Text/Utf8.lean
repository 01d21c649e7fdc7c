/-!
Reading bytes as UTF-8. `sequence?` takes one well-formed sequence off the front; where there is
none, `damaged` says how many bytes belong to the broken one: the longest part of it that could
still have been continued, and at least one byte.
-/

namespace Telemetry

namespace Utf8

/-- The lengths and the ranges of the second byte that a first byte calls for. -/
structure Lead where
  length : Nat
  bits : Nat
  low : UInt8
  high : UInt8

def lead? (b : UInt8) : Option Lead :=
  let code := b.toNat
  if code < 0x80 then some ⟨1, code, 0, 0⟩
  else if 0xc2 ≤ code && code ≤ 0xdf then some ⟨2, code - 0xc0, 0x80, 0xbf⟩
  else if code == 0xe0 then some ⟨3, 0, 0xa0, 0xbf⟩
  else if code == 0xed then some ⟨3, 0xd, 0x80, 0x9f⟩
  else if 0xe1 ≤ code && code ≤ 0xef then some ⟨3, code - 0xe0, 0x80, 0xbf⟩
  else if code == 0xf0 then some ⟨4, 0, 0x90, 0xbf⟩
  else if 0xf1 ≤ code && code ≤ 0xf3 then some ⟨4, code - 0xf0, 0x80, 0xbf⟩
  else if code == 0xf4 then some ⟨4, 4, 0x80, 0x8f⟩
  else none

def continues (b : UInt8) : Bool := 0x80 ≤ b && b ≤ 0xbf

def follow (lead : Lead) (rest : List UInt8) : List UInt8 :=
  match rest.take (lead.length - 1) with
  | [] => []
  | second :: others =>
    if lead.low ≤ second && second ≤ lead.high then second :: others.takeWhile continues else []

def sequence? : List UInt8 → Option (Char × Nat)
  | [] => none
  | first :: rest =>
    match lead? first with
    | none => none
    | some lead =>
      let tail := follow lead rest
      if tail.length + 1 = lead.length then
        let code := tail.foldl (fun n b => n * 64 + b.toNat % 64) lead.bits
        some (Char.ofNat code, lead.length)
      else none

def damaged : List UInt8 → Nat
  | [] => 0
  | first :: rest =>
    match lead? first with
    | none => 1
    | some lead => 1 + (follow lead rest).length

/-- The characters of well-formed bytes, or the position where they stop being well-formed. -/
def decodeFrom (position : Nat) : Nat → List UInt8 → Except Nat (List Char)
  | 0, _ => .ok []
  | _, [] => .ok []
  | fuel + 1, bytes =>
    match sequence? bytes with
    | none => .error position
    | some (c, n) => (decodeFrom (position + n) fuel (bytes.drop n)).map (c :: ·)

def decode (bytes : List UInt8) : Except Nat String :=
  (decodeFrom 0 bytes.length bytes).map String.ofList

/-- The characters of any bytes, each broken sequence read as U+FFFD. -/
def repairFrom : Nat → List UInt8 → List Char
  | 0, _ => []
  | _, [] => []
  | fuel + 1, bytes =>
    match sequence? bytes with
    | none => '\ufffd' :: repairFrom fuel (bytes.drop (damaged bytes))
    | some (c, n) => c :: repairFrom fuel (bytes.drop n)

def repair (bytes : List UInt8) : String := String.ofList (repairFrom bytes.length bytes)

def encode (text : String) : List UInt8 := text.toUTF8.toList

end Utf8

end Telemetry
