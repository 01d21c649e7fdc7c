import Telemetry.Block.Basic

/-!
Sampling passes over a block.

The scratch buffer is zeroed and latched; then each metric in turn is read, by the driver or
directly, its elements take their samples and are converted and published; then scratch is
released. A fault stops the pass at its metric: those before it are done, it and those after it
stay as they were.
-/

namespace Telemetry

/--
Applies a step to the members of a list in order, threading a state, until one faults; the member
that faults and those after it stay as they were.
-/
def sweep (step : α → σ → Except Fault α × σ) : List α → σ → Option Fault × List α × σ
  | [], s => (none, [], s)
  | a :: rest, s =>
    match step a s with
    | (.error f, s) => (some f, a :: rest, s)
    | (.ok a, s) =>
      let (fault, rest, s) := sweep step rest s
      (fault, a :: rest, s)

/-- The driver, its scratch buffer and what is shared, in the course of a pass. -/
structure PassState (δ : Type) where
  driver : Option δ
  scratch : List UInt8
  shared : Shared

namespace Block

open Register (overlay)

variable {δ : Type} [Driver δ]

def readElement (w : Register.Window) (block : String) (spec : MetricSpec) (index : Nat) :
    Except Fault UInt64 :=
  let field := spec.field
  if 8 < field.size then .error (.tooWide field.size spec.name block field.offset)
  else do
    let offset ← (field.elementOffset (UInt64.ofNat index)).mapError .overflow
    let bytes ← (w.read offset field.size.toNat).mapError .window
    (field.decode bytes).mapError (.undecodable spec.name block field.offset)

def readDirect (env : Surroundings) (block : String) (window : Option Nat) (spec : MetricSpec)
    (count : Nat) : Except Fault (List UInt64) :=
  match window.bind (env.windows[·]?) with
  | none => .error (.noWindow spec.name block)
  | some w => (List.range count).mapM (readElement w block spec)

/-- The samples of a metric read directly, and the mask of the bits that they can occupy. -/
def readSamples (env : Surroundings) (block : String) (window : Option Nat) (spec : MetricSpec)
    (count : Nat) : Except Fault (List UInt64 × UInt64) := do
  let values ← readDirect env block window spec count
  let mask ← spec.field.valueMask.mapError .overflow
  .ok (values, mask)

def publish (spec : MetricSpec) (e : Element) (s : PassState δ) : Element × PassState δ :=
  let reply := Driver.ask s.driver (Driver.convert spec e.value s.scratch) (.ofWord e.value)
  let shared := s.shared.hooks reply.lines
  let shared :=
    match e.series with
    | some ref => { shared with store := shared.store.set ref reply.result }
    | none => shared
  ({ e with converted := reply.result }, { s with driver := reply.driver, shared })

def applySamples (spec : MetricSpec) (mask : UInt64) (clear : Bool) :
    List Element → List UInt64 → PassState δ → List Element × PassState δ
  | e :: elements, current :: values, s =>
    let (e, s) := publish spec (e.apply spec current mask clear) s
    let (elements, s) := applySamples spec mask clear elements values s
    (e :: elements, s)
  | elements, _, s => (elements, s)

/-- The samples of a metric and the mask that goes with the way they were read. -/
def readMetric (env : Surroundings) (block : String) (window : Option Nat) (m : Metric)
    (s : PassState δ) : Except Fault (List UInt64 × UInt64) × PassState δ :=
  let zeros := List.replicate m.elements.length 0
  let reply := Driver.ask s.driver (Driver.read m.spec zeros s.scratch) ⟨false, [], []⟩
  let s := { s with
    driver := reply.driver
    scratch := overlay reply.result.scratch s.scratch
    shared := s.shared.hooks reply.lines }
  if reply.result.supplied then
    (.ok (overlay reply.result.values zeros, m.spec.field.widthMask), s)
  else
    (readSamples env block window m.spec m.elements.length, s)

def sampleMetric (env : Surroundings) (block : String) (window : Option Nat) (clear : Bool)
    (m : Metric) (s : PassState δ) : Except Fault Metric × PassState δ :=
  match readMetric env block window m s with
  | (.error f, s) => (.error f, s)
  | (.ok (values, mask), s) =>
    let (elements, s) := applySamples m.spec mask clear m.elements values s
    (.ok { m with elements }, s)

/-- One pass, a clear pass if `clear`. A block that faults keeps what was done before the fault. -/
def pass (env : Surroundings) (clear : Bool) (b : Block δ) (shared : Shared) :
    Option Fault × Block δ × Shared :=
  let kind := if clear then "clear" else "sampling"
  let shared := shared.log .trace s!"{kind} pass over block {b.name}"
  let zeros := List.replicate b.scratchSize 0
  let latched := Driver.ask b.driver (Driver.latch zeros) []
  let start : PassState δ :=
    ⟨latched.driver, overlay latched.result zeros, shared.hooks latched.lines⟩
  match sweep (sampleMetric env b.name b.window clear) b.metrics start with
  | (some f, metrics, s) => (some f, { b with metrics, driver := s.driver }, s.shared)
  | (none, metrics, s) =>
    let released := Driver.ask s.driver (Driver.release s.scratch) []
    (none,
      { b with metrics, driver := released.driver, lastUpdate := some env.now },
      s.shared.hooks released.lines)

end Block

/--
Passes over the members of a list in order, until one faults; unlike in a sweep, that member keeps
what was done to it.
-/
def passOver (step : α → σ → Option Fault × α × σ) : List α → σ → Option Fault × List α × σ
  | [], s => (none, [], s)
  | a :: rest, s =>
    match step a s with
    | (some f, a, s) => (some f, a :: rest, s)
    | (none, a, s) =>
      let (fault, rest, s) := passOver step rest s
      (fault, a :: rest, s)

end Telemetry
