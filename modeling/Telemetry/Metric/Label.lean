import Telemetry.Number.Word

/-!
Labels of metric elements: the declared ones, with a fixed or a computed value, the index label of
array elements, and the resolved labels that an attached element carries.

An internal label takes part in look-ups but is never exported.
-/

namespace Telemetry

def domainKey : String := "domain"

def zoneKey : String := "zone"

def blockKey : String := "block"

def indexKey : String := "index"

/-- The names of the objects that a label is resolved for. -/
structure Scope where
  domain : String
  zone : String
  block : String
  metric : String
deriving DecidableEq

/--
Where the value of a computed label comes from; `releases` if it takes values back. A source may fail
with a message, and may answer differently at every turn, so it can count, say, or look at a clock.
One that several labels share may answer differently at each of them: it stands there as a source
for that label.
-/
structure LabelSource where
  resolve : Nat → String → Scope → Except String String
  releases : Bool

inductive LabelValue where
  | fixed (text : String)
  | computed (source : LabelSource)

structure LabelSpec where
  key : String
  value : LabelValue
  internal : Bool

/--
The label that tells the elements of an array apart: the decimal index if it has no format. A
format may calculate with the index, and so overflow.
-/
structure IndexLabel where
  key : String
  format : Option (Nat → Except Overflow String)
  internal : Bool

namespace IndexLabel

def standard : IndexLabel := ⟨indexKey, none, false⟩

def value (label : IndexLabel) (index : Nat) : Except Overflow String :=
  match label.format with
  | some format => format index
  | none => .ok (toString index)

end IndexLabel

structure Label where
  key : String
  value : String
  internal : Bool
deriving DecidableEq

namespace Label

/-- The value of the first label with this key, internal ones included. -/
def find? (labels : List Label) (key : String) : Option String :=
  (labels.find? (·.key = key)).map (·.value)

def exported (labels : List Label) : List Label := labels.filter (!·.internal)

/-- The labels of the owners, which come first on every element. -/
def owners (scope : Scope) : List Label :=
  [⟨domainKey, scope.domain, false⟩, ⟨zoneKey, scope.zone, false⟩,
    ⟨blockKey, scope.block, false⟩]

/-- The values handed to the exporter beside the owners' names, which are constant there. -/
def variableValues (labels : List Label) : List String :=
  ((exported labels).filter fun l => l.key ∉ [domainKey, zoneKey, blockKey]).map (·.value)

end Label

end Telemetry
