import Telemetry.Domain.Config
import Telemetry.Zone.Attachment

/-!
Domains: the root of the hierarchy. A domain owns its attached zones, publishes to one registry,
and runs a sampler that passes over the enabled zones once per interval.

One lock guards the tree of zones. A fault under it poisons it, and every later operation faults at
once. A second lock guards the slot of the sampler; starting and stopping hold it throughout, so a
fault there poisons it too.
-/

namespace Telemetry

structure Domain (δ : Type) where
  id : Nat
  name : String
  /-- The sampling interval in milliseconds. -/
  interval : Nat
  clearOnStart : Bool
  registry : Nat
  zones : List (Zone δ)
  valueCount : Nat
  running : Bool
  nextZone : Nat
  treePoisoned : Bool
  slotPoisoned : Bool
  sampler : Bool

/-- The outcome of an operation on a domain, with the domain and what is shared after it. -/
structure Done (δ α : Type) where
  outcome : Outcome α
  domain : Domain δ
  shared : Shared

namespace Domain

variable {δ : Type}

def create (id registry : Nat) (config : DomainConfig) (s : Shared) : Domain δ × Shared :=
  let interval := config.effectiveInterval
  let message := s!"created domain {config.name} (interval {intervalText interval}, " ++
    s!"clear on start: {config.clearOnStart})"
  ({ id, registry, interval
     name := config.name
     clearOnStart := config.clearOnStart
     zones := []
     valueCount := 0
     running := false
     nextZone := 1
     treePoisoned := false
     slotPoisoned := false
     sampler := false },
    s.log .info message)

def locked (d : Domain δ) (s : Shared) (step : Domain δ → Shared → Done δ α) : Done δ α :=
  if d.treePoisoned then ⟨.error (.fault (.poisonedDomain d.name)), d, s⟩
  else
    let done := step d s
    match done.outcome with
    | .error (.fault _) => { done with domain := { done.domain with treePoisoned := true } }
    | _ => done

def reading (d : Domain δ) (s : Shared) (view : Domain δ → α) : Done δ α :=
  d.locked s fun d s => ⟨.ok (view d), d, s⟩

def position (d : Domain δ) (handle : ZoneHandle) : Option Nat :=
  d.zones.findIdx? (·.handle == some handle)

/--
Runs a step on the zone behind a handle, under the lock. A handle of another domain is refused
before the lock is taken, one that is not attached after it has been given back.
-/
def onZone (d : Domain δ) (handle : ZoneHandle) (s : Shared)
    (step : Nat → Zone δ → Domain δ → Shared → Done δ α) : Done δ α :=
  if handle.domain ≠ d.id then ⟨.error (.fault (.foreignHandle handle d.name)), d, s⟩
  else if d.treePoisoned then ⟨.error (.fault (.poisonedDomain d.name)), d, s⟩
  else
    match (d.position handle).bind fun i => (d.zones[i]?).map fun z => (i, z) with
    | none => ⟨.error (.fault (.staleHandle handle d.name)), d, s⟩
    | some (i, z) => d.locked s (step i z)

def readingZone (d : Domain δ) (handle : ZoneHandle) (s : Shared) (view : Zone δ → α) : Done δ α :=
  d.onZone handle s fun _ z d s => ⟨.ok (view z), d, s⟩

def ended (fault : Option Fault) : Outcome Unit :=
  match fault with
  | some f => .error (.fault f)
  | none => .ok ()

def changeZone (d : Domain δ) (handle : ZoneHandle) (s : Shared)
    (change : Zone δ → Shared → Option Fault × Zone δ × Shared) : Done δ Unit :=
  d.onZone handle s fun i z d s =>
    let (fault, z, s) := change z s
    ⟨ended fault, { d with zones := d.zones.set i z }, s⟩

def isRunning (d : Domain δ) (s : Shared) : Done δ Bool := d.reading s (·.running)

def handles (d : Domain δ) (s : Shared) : Done δ (List ZoneHandle) :=
  d.reading s fun d => d.zones.filterMap (·.handle)

def findZone (d : Domain δ) (name : String) (s : Shared) : Done δ (Option ZoneHandle) :=
  d.reading s fun d => (d.zones.find? (·.name = name)).bind (·.handle)

def numberOfValues (d : Domain δ) (s : Shared) : Done δ Nat := d.reading s (·.valueCount)

def fillZones : List (Zone δ) → List MetricValue → List MetricValue × List MetricValue
  | [], out => ([], out)
  | z :: rest, out =>
    if out.isEmpty then ([], out)
    else
      let (written, out) := z.fill out
      let (more, out) := fillZones rest out
      (written ++ more, out)

def getValues (d : Domain δ) (out : List MetricValue) (s : Shared) :
    Done δ (List MetricValue × List MetricValue) :=
  d.reading s fun d => fillZones d.zones out

def snapshot (d : Domain δ) (max : Nat) (s : Shared) : Done δ (List MetricValue) :=
  d.reading s fun d => (fillZones d.zones (List.replicate (min max d.valueCount) .zero)).1

def forEachMetric (d : Domain δ) (callback : Visit → σ → Option ε × σ) (start : σ) (s : Shared) :
    Done δ (Option ε × σ) :=
  d.reading s fun d => walk callback (d.zones.flatMap (·.visits d.name)) start

def forEachZoneMetric (d : Domain δ) (handle : ZoneHandle) (callback : Visit → σ → Option ε × σ)
    (start : σ) (s : Shared) : Done δ (Option ε × σ) :=
  d.readingZone handle s fun z => walk callback (z.visits d.name) start

variable [Driver δ]

def passZones (env : Surroundings) (clear : Bool) (d : Domain δ) (s : Shared) : Done δ Unit :=
  let (fault, zones, s) := passOver (Zone.pass env clear) d.zones s
  ⟨ended fault, { d with zones }, s⟩

def update (env : Surroundings) (clear : Bool) (d : Domain δ) (s : Shared) : Done δ Unit :=
  d.locked s (passZones env clear)

def updateZone (env : Surroundings) (clear : Bool) (handle : ZoneHandle) (d : Domain δ)
    (s : Shared) : Done δ Unit :=
  d.changeZone handle s (Zone.pass env clear)

/-- Re-enables a zone; with clear-on-start a zone that was disabled gets a clear pass. -/
def enableZone (env : Surroundings) (handle : ZoneHandle) (d : Domain δ) (s : Shared) :
    Done δ Unit :=
  d.changeZone handle s (Zone.enable env d.clearOnStart)

omit [Driver δ] in
def disableZone (handle : ZoneHandle) (d : Domain δ) (s : Shared) : Done δ Unit :=
  d.changeZone handle s fun z s => (none, z.disable, s)

/-- Attaches a detached zone. A zone that is refused is dropped, and its number is not used up. -/
def attachZone (env : Surroundings) (z : Zone δ) (d : Domain δ) (s : Shared) :
    Done δ ZoneHandle :=
  d.locked s fun d s =>
    let handle : ZoneHandle := ⟨d.id, d.nextZone⟩
    match z.attach env d.name d.registry handle s with
    | (.error e, _, s) => ⟨.error e, d, s⟩
    | (.ok (), z, s) =>
      ⟨.ok handle,
        { d with
          nextZone := d.nextZone + 1
          valueCount := d.valueCount + z.valueCount
          zones := d.zones ++ [z] }, s⟩

def allocZone (env : Surroundings) (spec : ZoneSpec δ) (d : Domain δ) (s : Shared) :
    Done δ ZoneHandle :=
  match Zone.alloc spec with
  | .error f => ⟨.error (.fault f), d, s⟩
  | .ok z => d.attachZone env z s

def detachZone (handle : ZoneHandle) (d : Domain δ) (s : Shared) : Done δ (Zone δ) :=
  d.onZone handle s fun i z d s =>
    let d := { d with zones := d.zones.eraseIdx i, valueCount := d.valueCount - z.valueCount }
    match z.detach d.registry s with
    | (some f, _, s) => ⟨.error (.fault f), d, s⟩
    | (none, z, s) => ⟨.ok z, d, s⟩

end Domain

end Telemetry
