import Telemetry.Block.Pass

/-!
The read buffer of a block.

All metrics of a block are read into one buffer, which is made once with room for the largest of
them. A metric takes as many slots from the front as it has elements and zeroes those; what other
metrics and earlier passes have left is in them before, and behind them. A register that cannot be
read leaves the slots before its own written.
-/

namespace Telemetry

structure ReadState (δ : Type) where
  pass : PassState δ
  raw : List UInt64

namespace Block

open Register (overlay)

def readBuffer (metrics : List Metric) : List UInt64 :=
  List.replicate ((metrics.map (·.elements.length)).max?.getD 0) 0

/-- Decodes registers into slots, the first of which is at `index`. -/
def fillSlots (w : Register.Window) (block : String) (spec : MetricSpec) :
    Nat → List UInt64 → Option Fault × List UInt64
  | _, [] => (none, [])
  | index, slot :: rest =>
    match readElement w block spec index with
    | .error f => (some f, slot :: rest)
    | .ok value =>
      let (fault, rest) := fillSlots w block spec (index + 1) rest
      (fault, value :: rest)

/-- Reads the registers of a metric into its slots; the mask is that of the bits read. -/
def readInto (env : Surroundings) (block : String) (window : Option Nat) (spec : MetricSpec)
    (slots : List UInt64) : Except Fault UInt64 × List UInt64 :=
  match window.bind (env.windows[·]?) with
  | none => (.error (.noWindow spec.name block), slots)
  | some w =>
    match fillSlots w block spec 0 slots with
    | (some f, slots) => (.error f, slots)
    | (none, slots) => (spec.field.valueMask.mapError .overflow, slots)

variable {δ : Type} [Driver δ]

/-- Leaves the samples of a metric in its slots; the mask goes with the way they were read. -/
def readBuffered (env : Surroundings) (block : String) (window : Option Nat) (m : Metric)
    (s : ReadState δ) : Except Fault UInt64 × ReadState δ :=
  let count := m.elements.length
  if s.raw.length < count then (.error (.window (.stopOutside count s.raw.length)), s)
  else
    let slots := (s.raw.take count).map fun _ => 0
    let reply :=
      Driver.ask s.pass.driver (Driver.read m.spec slots s.pass.scratch) ⟨false, [], []⟩
    let pass := { s.pass with
      driver := reply.driver
      scratch := overlay reply.result.scratch s.pass.scratch
      shared := s.pass.shared.hooks reply.lines }
    let slots := overlay reply.result.values slots
    let (mask, slots) :=
      if reply.result.supplied then (.ok m.spec.field.widthMask, slots)
      else readInto env block window m.spec slots
    (mask, ⟨pass, slots ++ s.raw.drop count⟩)

def sampleBuffered (env : Surroundings) (block : String) (window : Option Nat) (clear : Bool)
    (m : Metric) (s : ReadState δ) : Except Fault Metric × ReadState δ :=
  match readBuffered env block window m s with
  | (.error f, s) => (.error f, s)
  | (.ok mask, s) =>
    let (elements, pass) :=
      applySamples m.spec mask clear m.elements (s.raw.take m.elements.length) s.pass
    (.ok { m with elements }, { s with pass })

/-- One pass through a read buffer, with whatever earlier passes have left there. -/
def passBuffered (env : Surroundings) (clear : Bool) (b : Block δ) (raw : List UInt64)
    (shared : Shared) : Option Fault × Block δ × List UInt64 × Shared :=
  let kind := if clear then "clear" else "sampling"
  let shared := shared.log .trace s!"{kind} pass over block {b.name}"
  let zeros := List.replicate b.scratchSize 0
  let latched := Driver.ask b.driver (Driver.latch zeros) []
  let start : PassState δ :=
    ⟨latched.driver, overlay latched.result zeros, shared.hooks latched.lines⟩
  match sweep (sampleBuffered env b.name b.window clear) b.metrics ⟨start, raw⟩ with
  | (some f, metrics, s) =>
    (some f, { b with metrics, driver := s.pass.driver }, s.raw, s.pass.shared)
  | (none, metrics, s) =>
    let released := Driver.ask s.pass.driver (Driver.release s.pass.scratch) []
    (none,
      { b with metrics, driver := released.driver, lastUpdate := some env.now },
      s.raw, s.pass.shared.hooks released.lines)

end Block

end Telemetry
