import Telemetry.Number.Layout
import Telemetry.Report.Filter
import Telemetry.Zone.Basic

/-!
Rows of a report: one for each selected element, with the three names it may be shown under. The
short name is the metric's, with the index for an array, or the element's alias; the others put the
block, then the zone, in front of it.
-/

namespace Telemetry

namespace Report

structure Options where
  /-- Show every element under its longest name. -/
  longNames : Bool
  labels : Bool
  lastUpdate : Bool
  /-- Let the label `alias` stand for the name of the metric. -/
  aliases : Bool
deriving DecidableEq

def aliasKey : String := "alias"

structure Row where
  short : String
  partialName : String
  long : String
  value : String
  lastUpdate : String
  labels : List (String × String)
deriving DecidableEq

def timeText : Option Nat → String
  | none => "never"
  | some time => s!"{time / 1000000000}s.{time % 1000000000}ns"

/-- Flags in words, gauges with four significant digits, counters as accumulated. -/
def valueText (type : MetricType) (e : Element) : String :=
  match type with
  | .flag => if e.value != 0 then "yes" else "no"
  | .gauge => e.converted.general 4
  | .counter => toString e.value.toNat

/-- The alias of an element, if aliases count and it has one that is not empty. -/
def alias? (options : Options) (e : Element) : Option String :=
  (Label.find? e.labels aliasKey).filter fun name => options.aliases && !name.isEmpty

def shortName (options : Options) (spec : MetricSpec) (e : Element) (index : Nat) : String :=
  match alias? options e with
  | some name => name
  | none => if spec.flags.array then s!"{spec.name}[{index}]" else spec.name

def pairLE (a b : String × String) : Bool := if a.1 = b.1 then a.2 ≤ b.2 else a.1 ≤ b.1

def labelPairs (e : Element) : List (String × String) :=
  ((Label.exported e.labels).map fun l => (l.key, l.value)).mergeSort pairLE

def row (options : Options) (v : Visit) (e : Element) (index : Nat) : Row :=
  let short := shortName options v.metric.spec e index
  let partialName := s!"{v.block}.{short}"
  { short, partialName
    long := s!"{v.zone}.{partialName}"
    value := valueText v.metric.spec.type e
    lastUpdate := timeText v.lastUpdate
    labels := labelPairs e }

def rowsOf (filter : MetricFilter) (options : Options) (v : Visit) : List Row :=
  (filter.selected v.metric).map fun x => row options v x.1 x.2

end Report

end Telemetry
