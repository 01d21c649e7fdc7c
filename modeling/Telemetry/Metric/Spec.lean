import Telemetry.Metric.Label
import Telemetry.Register.Field

/-!
Declarative descriptions of metrics: their type, flags, register field and labels.
-/

namespace Telemetry

/-- A counter accumulates register deltas, a gauge keeps the last sample, a flag is 0 or 1. -/
inductive MetricType where
  | counter
  | gauge
  | flag
deriving DecidableEq

namespace MetricType

def all : List MetricType := [.counter, .gauge, .flag]

def text : MetricType → String
  | .counter => "counter"
  | .gauge => "gauge"
  | .flag => "flag"

def ofText? (text : String) : Option MetricType := all.find? (·.text = text)

def name : MetricType → String
  | .counter => "Counter"
  | .gauge => "Gauge"
  | .flag => "Flag"

def ofName? (name : String) : Option MetricType := all.find? (·.name = name)

end MetricType

structure MetricFlags where
  /-- The elements are read from consecutive registers. -/
  array : Bool
  /-- The register resets itself when it is read. -/
  clearOnRead : Bool
  /-- Clear passes leave the value alone. -/
  neverClear : Bool
deriving DecidableEq

def MetricFlags.none : MetricFlags := ⟨false, false, false⟩

structure MetricSpec where
  name : String
  desc : String
  type : MetricType
  flags : MetricFlags
  nelements : Nat
  /-- The value at the start and after a clear pass. -/
  init : UInt64
  field : Register.Field
  labels : List LabelSpec
  indexLabel : IndexLabel
  data : UInt64

namespace MetricSpec

def simple (name : String) (type : MetricType) (field : Register.Field) : MetricSpec :=
  ⟨name, "", type, .none, 1, 0, field, [], .standard, 0⟩

def elementCount (spec : MetricSpec) : Nat := if spec.flags.array then spec.nelements else 1

/-- The exported description, the name if there is none. -/
def help (spec : MetricSpec) : String := if spec.desc.isEmpty then spec.name else spec.desc

/-- The keys of the exported labels beside the owners', the index of an array last. -/
def exportedKeys (spec : MetricSpec) : List String :=
  (spec.labels.filter (!·.internal)).map (·.key) ++
    if spec.flags.array && !spec.indexLabel.internal then [spec.indexLabel.key] else []

end MetricSpec

end Telemetry
