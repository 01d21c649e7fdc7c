import Telemetry.Metric.Spec
import Telemetry.Series.Vector

/-!
Elements of a metric, and how a raw sample changes one.

A counter takes the difference to the last sample modulo the mask, so that a register narrower than
a word wraps forward. A clear pass moves that baseline as any pass does, and then puts the initial
value back unless the metric is never cleared.
-/

namespace Telemetry

structure MetricValue where
  raw : UInt64
  value : Binary64
deriving DecidableEq

def MetricValue.zero : MetricValue := ⟨0, .zero false⟩

structure Element where
  value : UInt64
  last : UInt64
  converted : Binary64
  /-- The resolved labels; none while detached. -/
  labels : List Label
  /-- The exported series; none while detached. -/
  series : Option Series.Ref

namespace Element

def ofInit (init : UInt64) : Element := ⟨init, 0, .ofWord init, [], none⟩

def metricValue (e : Element) : MetricValue := ⟨e.value, e.converted⟩

def increase (spec : MetricSpec) (last current mask : UInt64) : UInt64 :=
  if spec.flags.clearOnRead then current else (current - last) &&& mask

def apply (spec : MetricSpec) (current mask : UInt64) (clear : Bool) (e : Element) : Element :=
  let reset := clear && !spec.flags.neverClear
  match spec.type with
  | .counter =>
    { e with
      value := if reset then spec.init else e.value + increase spec e.last current mask
      last := if spec.flags.clearOnRead then e.last else current }
  | .flag =>
    { e with value := if reset then spec.init else if current = 0 then 0 else 1 }
  | .gauge => { e with value := if reset then spec.init else current }

end Element

end Telemetry
