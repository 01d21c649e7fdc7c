import Telemetry.Domain.Sampler
import Telemetry.Replay.Clock
import Telemetry.Report.Basic

/-!
A host: register windows, domains that publish to shared registries, the exporter's metrics about
itself, and a replay under virtual time.
-/

namespace Telemetry

structure Host where
  windows : List Register.Window
  shared : Shared
  /-- Domains by number; one that is gone leaves its place empty. -/
  domains : List (Option (Domain StockDriver))
  selfMetrics : SelfMetrics
  /-- The current replay; another one takes its place. -/
  replay : Option Replay.Engine
  /-- Virtual time in milliseconds. -/
  clock : Nat
  /-- The time for completed passes, in nanoseconds. -/
  now : Nat

namespace Host

def surroundings (h : Host) : Surroundings := .plain h.windows h.now

def domain? (h : Host) (i : Nat) : Option (Domain StockDriver) := (h.domains[i]?).join

def addDomain (registry : Nat) (config : DomainConfig) (h : Host) : Host :=
  let (d, shared) := Domain.create (h.domains.length + 1) registry config h.shared
  { h with domains := h.domains ++ [some d], shared }

def diagnose (f : Fault) (h : Host) : Host :=
  if f.diagnosed then { h with shared := h.shared.log .error f.message } else h

def conclude (outcome : Outcome α) (h : Host) : Outcome α × Host :=
  match outcome with
  | .error (.fault f) => (outcome, h.diagnose f)
  | _ => (outcome, h)

abbrev Operation (α : Type) :=
  Surroundings → Domain StockDriver → Shared → Done StockDriver α

def onDomain (i : Nat) (d : Domain StockDriver) (operation : Operation α) (h : Host) :
    Outcome α × Host :=
  let done := operation h.surroundings d h.shared
  conclude done.outcome
    { h with domains := h.domains.set i (some done.domain), shared := done.shared }

def destroy (i : Nat) (d : Domain StockDriver) (h : Host) : Outcome Unit × Host :=
  let done := d.destroy h.shared
  conclude done.outcome { h with domains := h.domains.set i none, shared := done.shared }

/--
The end of a domain whose owner is failing: its sampler is left to end by itself, nothing is
detached, and its collectors stay registered.
-/
def abandon (i : Nat) (h : Host) : Host := { h with domains := h.domains.set i none }

def report (filter : MetricFilter) (options : Report.Options) (d : Domain StockDriver) (h : Host) :
    Outcome String × Host :=
  h.conclude (d.report filter options h.shared)

def isSampling (h : Host) : Bool := h.domains.any fun d => d.any (·.sampler)

def sample (h : Host) : Host :=
  (List.range h.domains.length).foldl (fun h i =>
    match h.domain? i with
    | some d => (h.onDomain i d fun env d s => d.samplerPass env s).2
    | none => h) h

def write (window : Nat) (offset : UInt64) (bytes : List UInt8) (h : Host) : Outcome Unit × Host :=
  match h.windows[window]? with
  | none => (.ok (), h)
  | some w =>
    let (result, w) := w.write offset bytes
    conclude (result.mapError fun f => .fault (.window f))
      { h with windows := h.windows.set window w }

def read (window : Nat) (offset : UInt64) (length : Nat) (h : Host) :
    Outcome (List UInt8) × Host :=
  match h.windows[window]? with
  | none => (.ok [], h)
  | some w => h.conclude ((w.read offset length).mapError fun f => .fault (.window f))

def windowSize (window : Nat) (h : Host) : Outcome Nat × Host :=
  match h.windows[window]? with
  | none => (.ok 0, h)
  | some w => h.conclude (w.size.mapError fun f => .fault (.window f))

def newZone (spec : ZoneSpec StockDriver) (h : Host) : Outcome (Zone StockDriver) × Host :=
  h.conclude ((Zone.alloc spec).mapError .fault)

def loadDataset (bytes : List UInt8) (h : Host) : Except DatasetError Dataset × Host :=
  match Dataset.ofBytes? bytes with
  | .error e => (.error e, h)
  | .ok dataset =>
    let info := dataset.info
    let message := s!"Loaded dataset: {info.columnCount} columns, {info.sampleCount} rows"
    (.ok dataset, { h with shared := h.shared.log .info message })

/--
Prepares the replay of a dataset: a window for its registers and a zone that exposes them. The
replay becomes the current one if the zone can be attached.
-/
def addReplay (i : Nat) (d : Domain StockDriver) (dataset : Dataset) (settings : Replay.Settings)
    (metrics : Option SelfMetrics) (h : Host) : Outcome ZoneHandle × Host :=
  let engine := Replay.Engine.create dataset settings h.windows.length metrics
  let window := Register.Window.ofSize .memory (Replay.Engine.windowSize dataset)
  let h := { h with windows := h.windows ++ [window] }
  match h.onDomain i d fun env d s => d.allocZone env engine.zoneSpec s with
  | (.ok handle, h) => (.ok handle, { h with replay := some engine })
  | (.error e, h) => (.error e, h)

def advance (elapsed : Nat) (h : Host) : Host :=
  let h := match h.replay with
    | none => h
    | some engine =>
      let (engine, scene) := Replay.advance h.clock elapsed engine ⟨h.windows, h.shared⟩
      { h with replay := some engine, windows := scene.windows, shared := scene.shared }
  { h with clock := h.clock + elapsed }

def haltReplay (h : Host) : Host := { h with replay := h.replay.map Replay.Engine.halt }

end Host

end Telemetry
