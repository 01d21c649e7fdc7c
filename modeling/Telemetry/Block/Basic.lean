import Telemetry.Block.Driver
import Telemetry.Metric.Basic
import Telemetry.Series.Registry

/-!
Blocks: metrics behind one register window and one driver, and what the blocks of all zones share.
-/

namespace Telemetry

structure BlockSpec (δ : Type) where
  name : String
  /-- The number of the register window for direct reads. -/
  window : Option Nat
  metrics : List MetricSpec
  /-- The size of the scratch buffer that driver hooks get. -/
  scratchSize : Nat
  driver : Option δ

/-- What a block exports: the vectors of its metrics, in order. -/
structure Collector where
  block : String
  vectors : List Nat
deriving DecidableEq

structure Block (δ : Type) where
  name : String
  window : Option Nat
  metrics : List Metric
  scratchSize : Nat
  driver : Option δ
  /-- When the last pass was completed, in nanoseconds of the clock. -/
  lastUpdate : Option Nat
  /-- Present while attached. -/
  collector : Option Collector

/-- The exporter's store and registries, and the journal, the latest event first. -/
structure Shared where
  store : Series.Store
  registries : List Series.Registry
  journal : List Event

namespace Shared

def ofRegistries (count : Nat) : Shared := ⟨.empty, List.replicate count .empty, []⟩

def emit (s : Shared) (events : List Event) : Shared :=
  { s with journal := events.reverse ++ s.journal }

def events (s : Shared) : List Event := s.journal.reverse

def withoutEvents (s : Shared) : Shared := { s with journal := [] }

def log (s : Shared) (level : Level) (message : String) : Shared :=
  s.emit [.record level message]

def hooks (s : Shared) (lines : List String) : Shared := s.emit (lines.map .hook)

def registry (s : Shared) (i : Nat) : Series.Registry := (s.registries[i]?).getD .empty

def setRegistry (s : Shared) (i : Nat) (r : Series.Registry) : Shared :=
  { s with registries := s.registries.set i r }

def gather (s : Shared) (i : Nat) : List Series.Family := (s.registry i).gather s.store

end Shared

/-- What an operation meets with outside: the windows, the time, and the system's threads. -/
structure Surroundings where
  windows : List Register.Window
  now : Nat
  /-- Why no thread can be had, if none can. -/
  threadError : Option String
  /-- Sources of labels may answer differently at every turn. -/
  turn : Nat

/-- Where threads can be had, and no turn differs from another. -/
def Surroundings.plain (windows : List Register.Window) (now : Nat) : Surroundings :=
  ⟨windows, now, none, 0⟩

namespace Block

variable {δ : Type}

/-- The metrics of a block, or the fault of the first specification that has none to give. -/
def alloc (spec : BlockSpec δ) : Except Fault (Block δ) :=
  (spec.metrics.mapM (Metric.alloc spec.name)).map fun metrics =>
    ⟨spec.name, spec.window, metrics, spec.scratchSize, spec.driver, none, none⟩

def values (b : Block δ) : List MetricValue := b.metrics.flatMap Metric.values

def valueCount (b : Block δ) : Nat := (b.metrics.map (·.elements.length)).sum

def isAttached (b : Block δ) : Bool := b.collector.isSome

/-- Fills a buffer with the values: what is written, and what is left of the buffer. -/
def fill (b : Block δ) (out : List MetricValue) : List MetricValue × List MetricValue :=
  let written := b.values.take out.length
  (written, out.drop written.length)

end Block

end Telemetry
