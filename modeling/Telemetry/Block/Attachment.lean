import Telemetry.Block.Pass

/-!
Attaching blocks to a registry and detaching them.

A block is prepared first: its labels are resolved and its collector is built, which binds every
element to its series. A collector without vectors is never registered. The driver is told last,
when every block of the zone is registered.
-/

namespace Telemetry

namespace Collector

/-- Binds the elements of a metric to series of its vector, which start at the converted values. -/
def bindElements (vector : Nat) : List Element → Series.Store →
    Except Series.Rejection (List Element) × Series.Store
  | [], store => (.ok [], store)
  | e :: rest, store =>
    let values := Label.variableValues e.labels
    match store.get? vector with
    | none => (.ok (e :: rest), store)
    | some v =>
    match v.bind values with
    | .error r => (.error r, store)
    | .ok v =>
      let ref : Series.Ref := ⟨vector, .ofJoined values⟩
      let store := (store.modify vector fun _ => v).set ref e.converted
      match bindElements vector rest store with
      | (.error r, store) => (.error r, store)
      | (.ok rest, store) => (.ok ({ e with series := some ref } :: rest), store)

/-- The descriptor of a metric; the owners' names are constant labels. -/
def describe (domain zone block : String) (spec : MetricSpec) :
    Except Series.Rejection Series.Descriptor :=
  Series.Descriptor.make? spec.name spec.help
    [(domainKey, domain), (zoneKey, zone), (blockKey, block)] spec.exportedKeys

def buildVectors (domain zone block : String) : List Metric → Series.Store →
    Except Series.Rejection (List Nat × List Metric) × Series.Store
  | [], store => (.ok ([], []), store)
  | m :: rest, store =>
    match describe domain zone block m.spec with
    | .error r => (.error r, store)
    | .ok descriptor =>
      let (vector, store) := store.add ⟨descriptor, .gauge, []⟩
      match bindElements vector m.elements store with
      | (.error r, store) => (.error r, store)
      | (.ok elements, store) =>
        match buildVectors domain zone block rest store with
        | (.error r, store) => (.error r, store)
        | (.ok (vectors, metrics), store) =>
          (.ok (vector :: vectors, { m with elements } :: metrics), store)

def build (domain zone block : String) (metrics : List Metric) (store : Series.Store) :
    Except Refusal (Collector × List Metric) × Series.Store :=
  match buildVectors domain zone block metrics store with
  | (.error r, store) => (.error ⟨block, r⟩, store)
  | (.ok (vectors, metrics), store) => (.ok (⟨block, vectors⟩, metrics), store)

def isEmpty (c : Collector) : Bool := c.vectors.isEmpty

def register (c : Collector) (registry : Nat) (s : Shared) : Option Refusal × Shared :=
  if c.isEmpty then (none, s)
  else
    match (s.registry registry).register (s.store.descriptors c.vectors) c.vectors with
    | (.error e, r) => (some ⟨c.block, e⟩, s.setRegistry registry r)
    | (.ok (), r) => (none, s.setRegistry registry r)

def unregister (c : Collector) (registry : Nat) (s : Shared) : Option Refusal × Shared :=
  let s := { s with store := s.store.clear c.vectors }
  if c.isEmpty then (none, s)
  else
    match (s.registry registry).unregister (s.store.descriptors c.vectors) with
    | (.error e, r) => (some ⟨c.block, e⟩, s.setRegistry registry r)
    | (.ok (), r) => (none, s.setRegistry registry r)

end Collector

namespace Block

variable {δ : Type}

def releaseLabels (b : Block δ) (s : Shared) : Block δ × Shared :=
  let released := b.metrics.map Metric.releaseLabels
  ({ b with metrics := released.map (·.1) }, s.emit (released.flatMap (·.2)))

def resolveMetric (env : Surroundings) (domain zone block : String) (m : Metric) (s : Shared) :
    Except Fault Metric × Shared :=
  let (resolved, events) := m.resolveLabels env.turn ⟨domain, zone, block, m.name⟩
  (resolved, s.emit events)

def resolveLabels (env : Surroundings) (domain zone : String) (b : Block δ) (s : Shared) :
    Option Fault × Block δ × Shared :=
  let (fault, metrics, s) := sweep (resolveMetric env domain zone b.name) b.metrics s
  (fault, { b with metrics }, s)

/-- Resolves the labels and builds the collector; a block that is refused is left detached. -/
def prepare (env : Surroundings) (domain zone : String) (b : Block δ) (s : Shared) :
    Option Failure × Block δ × Shared :=
  match b.resolveLabels env domain zone s with
  | (some f, b, s) => (some (.fault f), b, s)
  | (none, b, s) =>
    match Collector.build domain zone b.name b.metrics s.store with
    | (.error r, store) =>
      let (b, s) := b.releaseLabels { s with store }
      (some (.refused r), b, s)
    | (.ok (collector, metrics), store) =>
      (none, { b with metrics, collector := some collector }, { s with store })

def unprepare (b : Block δ) (s : Shared) : Block δ × Shared :=
  { b with collector := none }.releaseLabels s

def register (registry : Nat) (b : Block δ) (s : Shared) : Option Refusal × Shared :=
  match b.collector with
  | some c => c.register registry s
  | none => (none, s)

def unregister (registry : Nat) (b : Block δ) (s : Shared) : Option Fault × Shared :=
  match b.collector with
  | none => (none, s)
  | some c =>
    match c.unregister registry s with
    | (some r, s) => (some (.notUnregistered ⟨b.name, r.cause⟩), s)
    | (none, s) => (none, s)

variable [Driver δ]

def attach (b : Block δ) (s : Shared) : Block δ × Shared :=
  let s := s.log .debug s!"attaching block {b.name}"
  let reply := Driver.ask b.driver (Driver.attach b.name) ()
  ({ b with driver := reply.driver }, s.hooks reply.lines)

/-- Takes the block from its driver, then from the registry, and drops its labels. -/
def detach (registry : Nat) (b : Block δ) (s : Shared) : Option Fault × Block δ × Shared :=
  let s := s.log .debug s!"detaching block {b.name}"
  let reply := Driver.ask b.driver (Driver.detach b.name) ()
  let b := { b with driver := reply.driver }
  match b.unregister registry (s.hooks reply.lines) with
  | (some f, s) => (some f, b, s)
  | (none, s) =>
    let (b, s) := b.unprepare s
    (none, b, s)

end Block

end Telemetry
