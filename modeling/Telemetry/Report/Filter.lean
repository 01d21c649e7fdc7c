import Telemetry.Metric.Basic

/-!
Selection of metrics and of their elements.
-/

namespace Telemetry

structure MetricFilter where
  /-- Leave out zeros: metrics that hold nothing else, and elements of the others. -/
  nonZero : Bool
  /-- The types to keep; none means all. -/
  types : List MetricType
deriving DecidableEq

namespace MetricFilter

def all : MetricFilter := ⟨false, []⟩

def keepsType (f : MetricFilter) (type : MetricType) : Bool :=
  f.types.isEmpty || f.types.contains type

def keepsElement (f : MetricFilter) (e : Element) : Bool := !f.nonZero || e.value != 0

def keepsMetric (f : MetricFilter) (m : Metric) : Bool :=
  f.keepsType m.spec.type && (!f.nonZero || m.elements.any (·.value != 0))

def selected (f : MetricFilter) (m : Metric) : List (Element × Nat) :=
  if f.keepsMetric m then m.elements.zipIdx.filter fun x => f.keepsElement x.1 else []

def select (f : MetricFilter) (m : Metric) : List Nat := (f.selected m).map (·.2)

end MetricFilter

end Telemetry
