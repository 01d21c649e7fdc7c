import Telemetry.Text.Quoted

/-!
Why a metric or a collector is turned away when it is described, bound or registered.
-/

namespace Telemetry

namespace Series

inductive Rejection where
  | emptyHelp
  | metricName (name : String)
  | labelName (name : String)
  | repeatedLabel (name : String)
  | cardinality (expected given : Nat)
  | duplicateCollector
  | dimensions
  | repeatedDescriptor (name : String)
  | notRegistered
deriving DecidableEq

/-- The descriptors in question are shown as `<desc>` and `<descs>`. -/
def Rejection.message : Rejection → String
  | .emptyHelp => "Error: empty help string"
  | .metricName name => s!"Error: '{name}' is not a valid metric name"
  | .labelName name => s!"Error: '{name}' is not a valid label name"
  | .repeatedLabel name => s!"Error: duplicate variable label name {name}"
  | .cardinality expected given =>
    s!"Inconsistent label cardinality, expect {expected} label values, but got {given}"
  | .duplicateCollector => "Duplicate metrics collector registration attempted"
  | .dimensions =>
    "Error: a previously registered descriptor with the same fully-qualified name as <desc> has " ++
      "different label names or a different help string"
  | .repeatedDescriptor name =>
    "Error: a duplicate descriptor within the same collector the same fully-qualified name: " ++
      Text.quoted name
  | .notRegistered => "Error: collector <descs> is not registered"

end Series

end Telemetry
