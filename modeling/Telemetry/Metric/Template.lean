import Telemetry.Metric.Label

/-!
Label values built from texts: templates that name the owners of a metric, and index labels that
wrap the number of an element.
-/

namespace Telemetry

/-- The text with the names of the key and of the owners put in place of their marks. -/
def fillTemplate (template key : String) (scope : Scope) : String :=
  [("key", key), ("domain", scope.domain), ("zone", scope.zone), ("block", scope.block),
    ("metric", scope.metric)].foldl
    (fun text (mark, value) => text.replace ("\x7b" ++ mark ++ "\x7d") value) template

def LabelSource.ofTemplate (template : String) (releases : Bool) : LabelSource :=
  ⟨fun _ key scope => .ok (fillTemplate template key scope), releases⟩

/-- An element's number, reduced if there is a modulus and shifted, between two texts. -/
def IndexLabel.numbered (before after : String) (modulus shift index : Nat) :
    Except Overflow String := do
  let reduced := if modulus = 0 then index else index % modulus
  let number ← Overflow.sum.unlessFits 64 (reduced + shift)
  .ok s!"{before}{number}{after}"

end Telemetry
