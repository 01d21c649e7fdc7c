import Telemetry.Report.Row
import Telemetry.Text.Blank
import Telemetry.Text.Utf8

/-!
Queries in the form of `name=value` pairs, and the parameters of the text report in them.

In a name or a value a plus sign stands for a space and a percent sign with two hexadecimal digits
for a byte; a percent sign without them stands for itself.
-/

namespace Telemetry

namespace Http

def hexValue? (c : Char) : Option Nat :=
  if '0' ≤ c && c ≤ '9' then some (c.toNat - '0'.toNat)
  else if 'a' ≤ c && c ≤ 'f' then some (c.toNat - 'a'.toNat + 10)
  else if 'A' ≤ c && c ≤ 'F' then some (c.toNat - 'A'.toNat + 10)
  else none

def escape? : List Char → Option (UInt8 × List Char)
  | a :: b :: rest =>
    match hexValue? a, hexValue? b with
    | some high, some low => some (UInt8.ofNat (16 * high + low), rest)
    | _, _ => none
  | _ => none

def formBytes : Nat → List Char → List UInt8
  | 0, _ => []
  | _, [] => []
  | fuel + 1, c :: rest =>
    if c = '+' then 0x20 :: formBytes fuel rest
    else
      match if c = '%' then escape? rest else none with
      | some (b, rest) => b :: formBytes fuel rest
      | none => Utf8.encode (String.singleton c) ++ formBytes fuel rest

def formText (text : List Char) : String := Utf8.repair (formBytes text.length text)

def formPairs (query : String) : List (String × String) :=
  ((Text.splitAt '&' query.toList).filter (!·.isEmpty)).map fun pair =>
    (formText (pair.takeWhile (· ≠ '=')), formText ((pair.dropWhile (· ≠ '=')).drop 1))

inductive QueryError where
  | notBoolean
  | duplicate (field : String)
deriving DecidableEq

def QueryError.message : QueryError → String
  | .notBoolean =>
    "Failed to deserialize query string: provided string was not `true` or `false`"
  | .duplicate field => s!"Failed to deserialize query string: duplicate field `{field}`"

structure StatsQuery where
  nonZero : Bool
  types : Option String
  options : Report.Options
deriving DecidableEq

namespace StatsQuery

def none : StatsQuery := ⟨false, .none, ⟨false, false, false, false⟩⟩

def boolean (text : String) : Except QueryError Bool :=
  if text = "true" then .ok true
  else if text = "false" then .ok false
  else .error .notBoolean

def fields : List String := ["non_zero", "types", "long", "labels", "last_update", "aliases"]

def set (q : StatsQuery) (name value : String) : Except QueryError StatsQuery :=
  match name with
  | "types" => .ok { q with types := some value }
  | "non_zero" => (boolean value).map fun b => { q with nonZero := b }
  | "long" => (boolean value).map fun b => { q with options.longNames := b }
  | "labels" => (boolean value).map fun b => { q with options.labels := b }
  | "last_update" => (boolean value).map fun b => { q with options.lastUpdate := b }
  | "aliases" => (boolean value).map fun b => { q with options.aliases := b }
  | _ => .ok q

/-- Takes pairs in order; a known name may come only once. -/
def takePairs (seen : List String) : List (String × String) → StatsQuery →
    Except QueryError StatsQuery
  | [], q => .ok q
  | (name, value) :: rest, q =>
    if seen.contains name && fields.contains name then .error (.duplicate name)
    else do takePairs (name :: seen) rest (← q.set name value)

def ofQuery? (query : String) : Except QueryError StatsQuery := takePairs [] (formPairs query) none

def typeNames (q : StatsQuery) : List String :=
  match q.types with
  | .none => []
  | some types =>
    (((Text.splitAt ',' types.toList).map Text.trim).filter (!·.isEmpty)).map String.ofList

def typeNamed (name : String) : Except String MetricType :=
  match MetricType.ofText? name with
  | some type => .ok type
  | .none => .error s!"unknown metric type: {name}"

def filter (q : StatsQuery) : Except String MetricFilter :=
  (q.typeNames.mapM typeNamed).map fun types => ⟨q.nonZero, types⟩

end StatsQuery

end Http

end Telemetry
