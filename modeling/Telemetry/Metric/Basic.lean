import Telemetry.Fault
import Telemetry.Journal
import Telemetry.Metric.Element

/-!
Metrics: a specification and its elements, all sharing the values of the computed labels from
attach to detach.
-/

namespace Telemetry

structure Metric where
  spec : MetricSpec
  elements : List Element
  /-- The computed labels to give back at detach: their position among the declared ones. -/
  computed : List (Nat × String)

namespace Metric

/-- An array has to have elements. -/
def alloc (block : String) (spec : MetricSpec) : Except Fault Metric :=
  if spec.flags.array && spec.nelements == 0 then .error (.noElements spec.name block)
  else .ok ⟨spec, List.replicate spec.elementCount (.ofInit spec.init), []⟩

def name (m : Metric) : String := m.spec.name

def values (m : Metric) : List MetricValue := m.elements.map Element.metricValue

/-- The value of a declared label and, if a source computed it, the event of doing so. -/
def resolveLabel (turn : Nat) (scope : Scope) (label : LabelSpec) :
    Except String (String × List Event) :=
  match label.value with
  | .fixed text => .ok (text, [])
  | .computed source =>
    (source.resolve turn label.key scope).map fun value => (value, [.resolved label.key value])

/-- The values of declared labels in order, until a source fails. -/
def resolveDeclared (turn : Nat) (scope : Scope) :
    List LabelSpec → Except String (List String) × List Event
  | [] => (.ok [], [])
  | label :: rest =>
    match resolveLabel turn scope label with
    | .error message => (.error message, [])
    | .ok (value, events) =>
      let (values, later) := resolveDeclared turn scope rest
      (values.map (value :: ·), events ++ later)

/-- The labels that all elements share: the owners', then the declared ones. -/
def sharedLabels (spec : MetricSpec) (scope : Scope) (declared : List String) : List Label :=
  Label.owners scope ++
    (spec.labels.zip declared).map fun (label, value) => ⟨label.key, value, label.internal⟩

def indexLabels (spec : MetricSpec) (index : Nat) : Except Overflow (List Label) :=
  if spec.flags.array then
    (spec.indexLabel.value index).map fun value =>
      [⟨spec.indexLabel.key, value, spec.indexLabel.internal⟩]
  else .ok []

def labelElements (spec : MetricSpec) (shared : List Label) (index : Nat) :
    List Element → Except Overflow (List Element)
  | [] => .ok []
  | e :: rest => do
    let own ← indexLabels spec index
    let rest ← labelElements spec shared (index + 1) rest
    .ok ({ e with labels := shared ++ own } :: rest)

def isComputed (label : LabelSpec) : Bool :=
  match label.value with
  | .fixed _ => false
  | .computed _ => true

/-- Where the values of computed labels stand among those of all declared ones. -/
def computedValues (spec : MetricSpec) (declared : List String) : List (Nat × String) :=
  ((spec.labels.zip declared).zipIdx.filter fun x => isComputed x.1.1).map fun x => (x.2, x.1.2)

def resolveLabels (turn : Nat) (scope : Scope) (m : Metric) : Except Fault Metric × List Event :=
  match resolveDeclared turn scope m.spec.labels with
  | (.error message, events) => (.error (.source message), events)
  | (.ok declared, events) =>
    let labelled := labelElements m.spec (sharedLabels m.spec scope declared) 0 m.elements
    ((labelled.mapError .overflow).map fun elements =>
      { m with elements, computed := m.computed ++ computedValues m.spec declared }, events)

def releaseLabel (spec : MetricSpec) (entry : Nat × String) : List Event :=
  match spec.labels[entry.1]? with
  | some label =>
    match label.value with
    | .computed source => if source.releases then [.released label.key entry.2] else []
    | .fixed _ => []
  | none => []

def releaseLabels (m : Metric) : Metric × List Event :=
  ({ m with
      elements := m.elements.map fun e => { e with labels := [], series := none }
      computed := [] },
    m.computed.flatMap (releaseLabel m.spec))

end Metric

end Telemetry
