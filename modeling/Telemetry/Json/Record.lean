import Telemetry.Json.Token
import Telemetry.Metric.Spec

/-!
JSON texts of settings: words, flags, texts, names of metric types, and records of these. A record
is an object, or an array of its fields in order. Unknown keys are passed over, a key may come only
once, and a field that is missing takes its standard value if it has one.
-/

namespace Telemetry

namespace Json

inductive Shape where
  | text
  | flag
  | word (greatest : Nat)
  | types
deriving DecidableEq

inductive Value where
  | text (text : String)
  | flag (flag : Bool)
  | word (n : Nat)
  | types (types : List MetricType)
deriving DecidableEq

/-- A field of a record, with the value that stands for a missing one. -/
structure Field where
  name : String
  shape : Shape
  standard : Option Value

def skipItems (skip : Scanner Unit) (close : Char) : Nat → Scanner Unit
  | 0, _ => .error .unfinished
  | fuel + 1, bytes => do
    let ((), rest) ← skip (skipBlanks bytes)
    match skipBlanks rest with
    | [] => .error .unfinished
    | b :: rest =>
      if b = byte close then .ok ((), rest)
      else if b = byte ',' then skipItems skip close fuel rest
      else .error .malformed

def skipSequence (skip : Scanner Unit) (close : Char) (bytes : List UInt8) :
    Except Failure (Parsed Unit) :=
  match skipBlanks bytes with
  | [] => .error .unfinished
  | b :: rest =>
    if b = byte close then .ok ((), rest) else skipItems skip close bytes.length (b :: rest)

def skipMember (skip : Scanner Unit) (bytes : List UInt8) : Except Failure (Parsed Unit) := do
  let ((), rest) ← expectByte '"' bytes
  let ((), rest) ← skipString rest
  let ((), rest) ← expectByte ':' (skipBlanks rest)
  skip rest

def skipValue : Nat → Scanner Unit
  | 0, _ => .error .unfinished
  | fuel + 1, bytes =>
    match skipBlanks bytes with
    | [] => .error .unfinished
    | b :: rest =>
      if b = byte 'n' then expectWord ['u', 'l', 'l'] rest
      else if b = byte 't' then expectWord ['r', 'u', 'e'] rest
      else if b = byte 'f' then expectWord ['a', 'l', 's', 'e'] rest
      else if startsNumber b then skipNumber (b :: rest)
      else if b = byte '"' then skipString rest
      else if b = byte '[' then skipSequence (skipValue fuel) ']' rest
      else if b = byte '{' then skipSequence (skipMember (skipValue fuel)) '}' rest
      else .error .malformed

/--
The failure of a value that is not of the shape asked for: a mismatch, unless what stands there is
itself no value. A bracket is not looked behind.
-/
def unwanted (b : UInt8) (rest : List UInt8) : Failure :=
  let after (read : Except Failure (Parsed Unit)) : Failure :=
    match read with
    | .ok _ => .mismatch
    | .error e => e
  if b = byte 'n' then after (expectWord ['u', 'l', 'l'] rest)
  else if b = byte 't' then after (expectWord ['r', 'u', 'e'] rest)
  else if b = byte 'f' then after (expectWord ['a', 'l', 's', 'e'] rest)
  else if startsNumber b then after ((readNumber (b :: rest)).map fun x => ((), x.2))
  else if b = byte '"' then after ((readString rest).map fun x => ((), x.2))
  else if b == byte '[' || b == byte '{' then .mismatch
  else .malformed

def onFirst (bytes : List UInt8) (read : UInt8 → Scanner α) : Except Failure (Parsed α) :=
  match skipBlanks bytes with
  | [] => .error .unfinished
  | b :: rest => read b rest

def readText (bytes : List UInt8) : Except Failure (Parsed String) :=
  onFirst bytes fun b rest =>
    if b = byte '"' then readString rest else .error (unwanted b rest)

def readFlag (bytes : List UInt8) : Except Failure (Parsed Bool) :=
  onFirst bytes fun b rest =>
    if b = byte 't' then (expectWord ['r', 'u', 'e'] rest).map fun x => (true, x.2)
    else if b = byte 'f' then (expectWord ['a', 'l', 's', 'e'] rest).map fun x => (false, x.2)
    else .error (unwanted b rest)

def readWord (greatest : Nat) (bytes : List UInt8) : Except Failure (Parsed Nat) :=
  onFirst bytes fun b rest =>
    if startsNumber b then do
      match ← readNumber (b :: rest) with
      | (.natural n, rest) => if n ≤ greatest then .ok (n, rest) else .error .mismatch
      | (.other, _) => .error .mismatch
    else .error (unwanted b rest)

def typeNamed (name : String) : Except Failure MetricType :=
  match MetricType.ofName? name with
  | some type => .ok type
  | none => .error .mismatch

/-- The name of a type, or an object whose only key is the name and whose value is `null`. -/
def readType (bytes : List UInt8) : Except Failure (Parsed MetricType) :=
  onFirst bytes fun b rest =>
    if b = byte '"' then do
      let (name, rest) ← readString rest
      let type ← typeNamed name
      .ok (type, rest)
    else if b = byte '{' then do
      let ((), rest) ← expectByte '"' (skipBlanks rest)
      let (name, rest) ← readString rest
      let type ← typeNamed name
      let ((), rest) ← expectByte ':' (skipBlanks rest)
      let ((), rest) ← onFirst rest fun b rest =>
        if b = byte 'n' then expectWord ['u', 'l', 'l'] rest else .error (unwanted b rest)
      let ((), rest) ← expectByte '}' (skipBlanks rest)
      .ok (type, rest)
    else .error .malformed

/--
Whether an array has one more item: none at its closing bracket, which is left in place, else the
item behind a comma, which the first one has not.
-/
def nextItem (first : Bool) (bytes : List UInt8) : Except Failure (Option (List UInt8)) :=
  match skipBlanks bytes with
  | [] => .error .unfinished
  | b :: rest =>
    if b = byte ']' then .ok none
    else if first then .ok (some (b :: rest))
    else if b = byte ',' then
      match skipBlanks rest with
      | [] => .error .unfinished
      | c :: rest => if c = byte ']' then .error .malformed else .ok (some (c :: rest))
    else .error .malformed

def readTypes (first : Bool) : Nat → List UInt8 → Except Failure (Parsed (List MetricType))
  | 0, _ => .error .unfinished
  | fuel + 1, bytes => do
    match ← nextItem first bytes with
    | none => .ok ([], (skipBlanks bytes).drop 1)
    | some item =>
      let (type, rest) ← readType item
      let (types, rest) ← readTypes false fuel rest
      .ok (type :: types, rest)

def readTypeList (bytes : List UInt8) : Except Failure (Parsed (List MetricType)) :=
  onFirst bytes fun b rest =>
    if b = byte '[' then readTypes true (rest.length + 1) rest else .error (unwanted b rest)

def Shape.read (shape : Shape) (bytes : List UInt8) : Except Failure (Parsed Value) :=
  match shape with
  | .text => (readText bytes).map fun x => (.text x.1, x.2)
  | .flag => (readFlag bytes).map fun x => (.flag x.1, x.2)
  | .word greatest => (readWord greatest bytes).map fun x => (.word x.1, x.2)
  | .types => (readTypeList bytes).map fun x => (.types x.1, x.2)

def readItems (first : Bool) : List Field → List UInt8 → Except Failure (Parsed (List Value))
  | [], bytes => .ok ([], bytes)
  | f :: fields, bytes => do
    match ← nextItem first bytes with
    | none =>
      match f.standard with
      | none => .error .mismatch
      | some value =>
        let (values, rest) ← readItems first fields bytes
        .ok (value :: values, rest)
    | some item =>
      let (value, rest) ← f.shape.read item
      let (values, rest) ← readItems false fields rest
      .ok (value :: values, rest)

/--
Whether an object has one more member: none at its closing brace, which is left in place, else the
bytes behind the quote that opens its key.
-/
def nextKey (first : Bool) (bytes : List UInt8) : Except Failure (Option (List UInt8)) :=
  let key (b : UInt8) (rest : List UInt8) : Except Failure (Option (List UInt8)) :=
    if b = byte '"' then .ok (some rest) else .error .malformed
  match skipBlanks bytes with
  | [] => .error .unfinished
  | b :: rest =>
    if b = byte '}' then .ok none
    else if first then key b rest
    else if b = byte ',' then
      match skipBlanks rest with
      | [] => .error .unfinished
      | c :: rest => key c rest
    else .error .malformed

def readMembers (fields : List Field) (first : Bool) (found : List (String × Value)) :
    Nat → Scanner (List (String × Value))
  | 0, _ => .error .unfinished
  | fuel + 1, bytes => do
    match ← nextKey first bytes with
    | none => .ok (found, skipBlanks bytes)
    | some key =>
      let (name, rest) ← readString key
      match fields.find? (·.name = name) with
      | none =>
        let ((), rest) ← expectByte ':' (skipBlanks rest)
        let ((), rest) ← skipValue rest.length rest
        readMembers fields false found fuel rest
      | some field =>
        if found.any (·.1 = name) then .error .mismatch
        else
          let ((), rest) ← expectByte ':' (skipBlanks rest)
          let (value, rest) ← field.shape.read rest
          readMembers fields false ((name, value) :: found) fuel rest

def fieldValue (found : List (String × Value)) (f : Field) : Except Failure Value :=
  match found.find? (·.1 = f.name) with
  | some (_, value) => .ok value
  | none =>
    match f.standard with
    | some value => .ok value
    | none => .error .mismatch

def readRecord (fields : List Field) (bytes : List UInt8) : Except Failure (Parsed (List Value)) :=
  onFirst bytes fun b rest =>
    if b = byte '[' then do
      let (values, rest) ← readItems true fields rest
      let ((), rest) ← expectByte ']' (skipBlanks rest)
      .ok (values, rest)
    else if b = byte '{' then do
      let (found, rest) ← readMembers fields true [] (rest.length + 1) rest
      let values ← fields.mapM (fieldValue found)
      let ((), rest) ← expectByte '}' rest
      .ok (values, rest)
    else .error (unwanted b rest)

def whole (read : Scanner α) (text : String) : Except Failure α := do
  let (value, rest) ← read (Utf8.encode text)
  if (skipBlanks rest).isEmpty then .ok value else .error .malformed

end Json

end Telemetry
