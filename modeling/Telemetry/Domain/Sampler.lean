import Telemetry.Domain.Basic

/-!
Starting and stopping the sampler of a domain, its passes, and the end of a domain.

The sampler takes the tree lock for each pass and ends when it finds that the domain is no longer
running. Stopping clears that mark under the lock and then waits for the sampler to end.
-/

namespace Telemetry

namespace Domain

variable {δ : Type} [Driver δ]

def holdingSlot (d : Domain δ) (s : Shared) (step : Domain δ → Shared → Done δ α) : Done δ α :=
  if d.slotPoisoned then ⟨.error (.fault (.poisonedSlot d.name)), d, s⟩
  else
    let done := step d s
    match done.outcome with
    | .error (.fault _) => { done with domain := { done.domain with slotPoisoned := true } }
    | _ => done

/--
The part of a start under the tree lock: marks the domain as running and, with clear-on-start, runs
a clear pass. Answers whether there is anything to start.
-/
def markRunning (env : Surroundings) (d : Domain δ) (s : Shared) : Done δ Bool :=
  d.locked s fun d s =>
    if d.running then ⟨.ok false, d, s⟩
    else
      let d := { d with running := true }
      if d.clearOnStart then
        let done := passZones env true d s
        ⟨done.outcome.map fun _ => true, done.domain, done.shared⟩
      else ⟨.ok true, d, s⟩

/--
Starts the sampler. That the system gives no thread for it is a fault with the slot held but not the
tree lock: the domain stays marked as running.
-/
def start (env : Surroundings) (d : Domain δ) (s : Shared) : Done δ Unit :=
  d.holdingSlot s fun d s =>
    let done := d.markRunning env s
    match done.outcome with
    | .error e => ⟨.error e, done.domain, done.shared⟩
    | .ok false => ⟨.ok (), done.domain, done.shared⟩
    | .ok true =>
      match env.threadError with
      | some error => ⟨.error (.fault (.notSpawned d.name error)), done.domain, done.shared⟩
      | none =>
        ⟨.ok (), { done.domain with sampler := true },
          done.shared.log .info s!"started domain {d.name}"⟩

def clearRunning (d : Domain δ) (s : Shared) : Done δ Bool :=
  d.locked s fun d s => ⟨.ok d.running, { d with running := false }, s⟩

def stop (d : Domain δ) (s : Shared) : Done δ Unit :=
  d.holdingSlot s fun d s =>
    let done := d.clearRunning s
    match done.outcome with
    | .error e => ⟨.error e, done.domain, done.shared⟩
    | .ok false => ⟨.ok (), done.domain, done.shared⟩
    | .ok true =>
      ⟨.ok (), { done.domain with sampler := false },
        done.shared.log .info s!"stopped domain {d.name}"⟩

def samplerPass (env : Surroundings) (d : Domain δ) (s : Shared) : Done δ Unit :=
  if d.sampler && d.running then d.update env false s else ⟨.ok (), d, s⟩

def releaseZones (d : Domain δ) (s : Shared) : Done δ Unit :=
  d.locked s fun d s =>
    let zones := d.zones
    let d := { d with zones := [], valueCount := 0 }
    match passOver (Zone.detach d.registry) zones s with
    | (some f, _, s) => ⟨.error (.fault f), d, s⟩
    | (none, _, s) => ⟨.ok (), d, s.log .info s!"destroyed domain {d.name}"⟩

def destroy (d : Domain δ) (s : Shared) : Done δ Unit :=
  let done := d.stop s
  match done.outcome with
  | .error e => ⟨.error e, done.domain, done.shared⟩
  | .ok () => done.domain.releaseZones done.shared

end Domain

end Telemetry
