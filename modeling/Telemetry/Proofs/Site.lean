import Telemetry.Domain.Sampler
import Telemetry.SelfMetrics

/-! Everything that shares the exporter's registries: domains, the detached zones that callers hold,
and collectors registered by others. A run is any sequence of actions, each with surroundings of its
own, so registers and time may change in any way between two of them. What only reads is no action:
it leaves everything as it was. -/
namespace Telemetry

structure Guest where
  registry : Nat
  vector : Nat
  identity : Fingerprint
deriving DecidableEq

structure Site (δ : Type) where
  shared : Shared
  /-- Domains by number; one that is gone leaves its place empty. -/
  domains : List (Option (Domain δ))
  /-- Domains that are gone although their zones were never detached. -/
  wrecks : List (Domain δ)
  /-- Detached zones; one that was handed to a domain leaves its place empty. -/
  loose : List (Option (Zone δ))
  guests : List Guest

inductive Operation where
  | update (clear : Bool)
  | updateZone (handle : ZoneHandle) (clear : Bool)
  | enable (handle : ZoneHandle)
  | disable (handle : ZoneHandle)
  | start
  | stop
  | sample

inductive Action (δ : Type) where
  | create (registry : Nat) (config : DomainConfig)
  | make (spec : ZoneSpec δ)
  | attach (domain place : Nat)
  | alloc (domain : Nat) (spec : ZoneSpec δ)
  | detach (domain : Nat) (handle : ZoneHandle)
  | free (domain : Nat) (handle : ZoneHandle)
  | operate (domain : Nat) (operation : Operation)
  | drop (domain : Nat)
  /-- The owner of a domain fails and takes the domain with it. -/
  | abandon (domain : Nat)
  | enlist (registry : Nat) (vector : Series.Vector)
  /-- Somebody else sets a series of a collector of theirs. -/
  | publish (guest : Nat) (key : Fingerprint) (value : Binary64)

namespace Operation

variable {δ : Type} [Driver δ]

def run (env : Surroundings) (operation : Operation) (d : Domain δ) (s : Shared) : Done δ Unit :=
  match operation with
  | .update clear => d.update env clear s
  | .updateZone handle clear => d.updateZone env clear handle s
  | .enable handle => d.enableZone env handle s
  | .disable handle => d.disableZone handle s
  | .start => d.start env s
  | .stop => d.stop s
  | .sample => d.samplerPass env s

end Operation

namespace Site

variable {δ : Type}

def empty (registries : Nat) : Site δ := ⟨.ofRegistries registries, [], [], [], []⟩

def domain? (s : Site δ) (i : Nat) : Option (Domain δ) := (s.domains[i]?).join

def loose? (s : Site δ) (k : Nat) : Option (Zone δ) := (s.loose[k]?).join

/-- The domains whose zones are attached. -/
def holders (s : Site δ) : List (Domain δ) := s.domains.reduceOption ++ s.wrecks

def settle (s : Site δ) (i : Nat) (done : Done δ α) : Site δ :=
  { s with domains := s.domains.set i (some done.domain), shared := done.shared }

def remains (done : Done δ α) : List (Domain δ) :=
  match done.outcome with
  | .ok _ => []
  | .error _ => [done.domain]

variable [Driver δ]

/-- The outcome of an action, with the handle of a zone it attached, and the site after it. -/
def perform (env : Surroundings) (action : Action δ) (s : Site δ) :
    Outcome (Option ZoneHandle) × Site δ :=
  match action with
  | .create registry config =>
    if registry < s.shared.registries.length then
      let (d, shared) := Domain.create (s.domains.length + 1) registry config s.shared
      (.ok none, { s with domains := s.domains ++ [some d], shared })
    else (.ok none, s)
  | .make spec =>
    match Zone.alloc spec with
    | .error f => (.error (.fault f), s)
    | .ok z => (.ok none, { s with loose := s.loose ++ [some z] })
  | .attach i k =>
    match s.domain? i, s.loose? k with
    | some d, some z =>
      let done := d.attachZone env z s.shared
      (done.outcome.map some, { s.settle i done with loose := s.loose.set k none })
    | _, _ => (.ok none, s)
  | .alloc i spec =>
    match s.domain? i with
    | some d =>
      let done := d.allocZone env spec s.shared
      (done.outcome.map some, s.settle i done)
    | none => (.ok none, s)
  | .detach i handle =>
    match s.domain? i with
    | some d =>
      let done := d.detachZone handle s.shared
      (done.outcome.map fun _ => none,
        { s.settle i done with loose := s.loose ++ [done.outcome.toOption] })
    | none => (.ok none, s)
  | .free i handle =>
    match s.domain? i with
    | some d =>
      let done := d.detachZone handle s.shared
      (done.outcome.map fun _ => none, s.settle i done)
    | none => (.ok none, s)
  | .operate i operation =>
    match s.domain? i with
    | some d =>
      let done := operation.run env d s.shared
      (done.outcome.map fun _ => none, s.settle i done)
    | none => (.ok none, s)
  | .drop i =>
    match s.domain? i with
    | some d =>
      let done := d.destroy s.shared
      (done.outcome.map fun _ => none,
        { s with
          domains := s.domains.set i none
          shared := done.shared
          wrecks := s.wrecks ++ remains done })
    | none => (.ok none, s)
  | .abandon i =>
    match s.domain? i with
    | some d =>
      (.ok none,
        { s with
          domains := s.domains.set i none
          wrecks := s.wrecks ++ [{ d with running := false }] })
    | none => (.ok none, s)
  | .enlist registry vector =>
    if registry < s.shared.registries.length then
      match SelfMetrics.registerOne registry vector s.shared with
      | (.error e, shared) => (.error (.refused ⟨vector.descriptor.name, e⟩), { s with shared })
      | (.ok ref, shared) =>
        (.ok none, { s with
          shared, guests := s.guests ++ [⟨registry, ref.vector, vector.descriptor.identity⟩] })
    else (.ok none, s)
  | .publish k key value =>
    match s.guests[k]? with
    | some g =>
      (.ok none, { s with shared.store := s.shared.store.set ⟨g.vector, key⟩ value })
    | none => (.ok none, s)

def run : List (Surroundings × Action δ) → Site δ → Site δ
  | [], s => s
  | (env, action) :: rest, s => run rest (s.perform env action).2

def outcomes : List (Surroundings × Action δ) → Site δ →
    List (Outcome (Option ZoneHandle))
  | [], _ => []
  | (env, action) :: rest, s =>
    (s.perform env action).1 :: outcomes rest (s.perform env action).2

/-- What an empty site and every action keep, every run keeps. -/
theorem run_keeps (P : Site δ → Prop) (keeps : ∀ env action s, P s → P (s.perform env action).2)
    (steps : List (Surroundings × Action δ)) (s : Site δ) (start : P s) : P (s.run steps) := by
  induction steps generalizing s with
  | nil => exact start
  | cons step rest ih => exact ih _ (keeps step.1 step.2 s start)

theorem run_append (before after : List (Surroundings × Action δ)) (s : Site δ) :
    s.run (before ++ after) = (s.run before).run after := by
  induction before generalizing s with
  | nil => rfl
  | cons step rest ih => exact ih _

end Site

end Telemetry
