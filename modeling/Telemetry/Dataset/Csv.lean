import Telemetry.Text.Utf8

/-!
Comma-separated records. A field is bare or between double quotes, where a quote is written twice;
a record ends at a line feed, at a carriage return, or at both. Blank lines are no records, and a
byte order mark at the start of the text is no part of it.

Every record is read with the position at which its reading began. The line feed after a carriage
return is taken up with the next record, and so are blank lines.
-/

namespace Telemetry

namespace Csv

structure Position where
  record : Nat
  line : Nat
  byte : Nat
deriving DecidableEq

structure Record where
  position : Position
  fields : List (List UInt8)
deriving DecidableEq

inductive Mode where
  | afterReturn
  | recordStart
  | fieldStart
  | bare
  | quoted
  | quoteSeen
deriving DecidableEq

def comma : UInt8 := 0x2c

def quote : UInt8 := 0x22

def lineFeed : UInt8 := 0x0a

def carriageReturn : UInt8 := 0x0d

def endsLine (b : UInt8) : Bool := b == lineFeed || b == carriageReturn

def Mode.isIdle : Mode → Bool
  | .afterReturn | .recordStart => true
  | _ => false

inductive Action where
  | skip (mode : Mode)
  | keep (mode : Mode)
  | endField
  | endRecord
deriving DecidableEq

def outside (b : UInt8) (otherwise : Action) : Action :=
  if b = comma then .endField else if endsLine b then .endRecord else otherwise

def action (mode : Mode) (b : UInt8) : Action :=
  let atStart := if b = quote then .skip .quoted else outside b (.keep .bare)
  match mode with
  | .afterReturn | .recordStart => if endsLine b then .skip .recordStart else atStart
  | .fieldStart => atStart
  | .bare => outside b (.keep .bare)
  | .quoted => if b = quote then .skip .quoteSeen else .keep .quoted
  | .quoteSeen => if b = quote then .keep .quoted else outside b (.keep .bare)

/-- The fields of a record, and what is left of the bytes behind it. -/
structure Scan where
  fields : List (List UInt8)
  rest : List UInt8
  atReturn : Bool

/-- Reads one record; `field` and `fields` hold what has been read of it, latest first. -/
def scan (mode : Mode) (field : List UInt8) (fields : List (List UInt8)) :
    List UInt8 → Option Scan
  | [] => if mode.isIdle then none else some ⟨(field.reverse :: fields).reverse, [], false⟩
  | b :: rest =>
    match action mode b with
    | .skip mode => scan mode field fields rest
    | .keep mode => scan mode (b :: field) fields rest
    | .endField => scan .fieldStart [] (field.reverse :: fields) rest
    | .endRecord => some ⟨(field.reverse :: fields).reverse, rest, b == carriageReturn⟩

def recordsFrom (position : Position) (afterReturn : Bool) : Nat → List UInt8 → List Record
  | 0, _ => []
  | fuel + 1, bytes =>
    match scan (if afterReturn then .afterReturn else .recordStart) [] [] bytes with
    | none => []
    | some s =>
      let taken := bytes.length - s.rest.length
      let next : Position :=
        ⟨position.record + 1, position.line + (bytes.take taken).count lineFeed,
          position.byte + taken⟩
      ⟨position, s.fields⟩ :: recordsFrom next s.atReturn fuel s.rest

def byteOrderMark : List UInt8 := [0xef, 0xbb, 0xbf]

/--
The records of a text. A record takes one byte at least, so there are no more than bytes. The
first record starts at the mark, if there is one.
-/
def records (bytes : List UInt8) : List Record :=
  let marked := byteOrderMark.isPrefixOf bytes
  let content := if marked then bytes.drop 3 else bytes
  match recordsFrom ⟨0, 1, 0⟩ false (bytes.length + 1) content with
  | [] => []
  | first :: rest =>
    first :: if marked then
      rest.map fun r => { r with position.byte := r.position.byte + 3 }
    else rest

inductive Error where
  /-- A record that has not as many fields as those before it. -/
  | unequal (position : Position) (found expected : Nat)
  /-- A field with bytes that are no text, from `index` on. -/
  | notText (position : Position) (field index : Nat)
deriving DecidableEq

def Error.message : Error → String
  | .unequal p found expected =>
    s!"CSV error: record {p.record} (line: {p.line}, byte: {p.byte}): " ++
      s!"found record with {found} fields, but the previous record has {expected} fields"
  | .notText p field index =>
    s!"CSV parse error: record {p.record} (line {p.line}, field: {field}, byte: {p.byte}): " ++
      s!"invalid utf-8: invalid UTF-8 in field {field} near byte index {index}"

def textsFrom (position : Position) (index : Nat) : List (List UInt8) → Except Error (List String)
  | [] => .ok []
  | field :: rest =>
    match Utf8.decode field with
    | .error i => .error (.notText position index i)
    | .ok text => (textsFrom position (index + 1) rest).map (text :: ·)

def Record.texts (r : Record) : Except Error (List String) := textsFrom r.position 0 r.fields

def Record.row (expected : Nat) (r : Record) : Except Error (List String) :=
  if r.fields.length = expected then r.texts
  else .error (.unequal r.position r.fields.length expected)

end Csv

end Telemetry
