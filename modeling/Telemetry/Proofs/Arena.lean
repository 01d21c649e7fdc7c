import Telemetry.Proofs.Operations

/-! A domain with its sampling threads, step by step. Who starts or stops it has the thread slot from
first to last and takes the tree lock only to set or clear the running mark, so the sampler and other
callers get in between. Callers who wait for a lock have no state, so there may be any number of
them. -/
namespace Telemetry

inductive Task where
  | start
  | stop
deriving DecidableEq

/-- How far the caller who has the thread slot has come. -/
inductive Stage where
  | starting
  /-- The domain is marked as running and has no thread yet. -/
  | spawning
  /-- The thread runs, and the slot is still empty. -/
  | storing (thread : Nat)
  | stopping
  /-- The mark is cleared and the slot still holds the thread. -/
  | taking
  /-- Waits for the thread to end. -/
  | joining (thread : Nat)
deriving DecidableEq

def Task.stage (task : Task) : Stage :=
  match task with
  | .start => .starting
  | .stop => .stopping

inductive Errand (δ : Type) where
  | update (clear : Bool)
  | updateZone (handle : ZoneHandle) (clear : Bool)
  | enable (handle : ZoneHandle)
  | disable (handle : ZoneHandle)
  | attach (zone : Zone δ)
  | alloc (spec : ZoneSpec δ)
  | detach (handle : ZoneHandle)

inductive Move (δ : Type) where
  /-- A caller gets the thread slot. -/
  | enter (task : Task)
  /-- The caller who has it goes on. -/
  | proceed
  /-- A sampling thread takes the tree lock for a pass, or ends. -/
  | wake (thread : Nat)
  | errand (errand : Errand δ)
  /-- Other domains change what is shared. -/
  | elsewhere (shared : Shared)

structure Arena (δ : Type) where
  domain : Domain δ
  shared : Shared
  /-- The sampling threads that have not ended. -/
  threads : List Nat
  slot : Option Nat
  holder : Option Stage
  /-- The number of threads so far. -/
  spawned : Nat
  /-- A fault in a sampling thread has ended the process. -/
  halted : Bool

variable {δ : Type} [Driver δ]

namespace Errand

def run (env : Surroundings) (errand : Errand δ) (d : Domain δ) (s : Shared) :
    Domain δ × Shared :=
  match errand with
  | .update clear => finish (d.update env clear s)
  | .updateZone handle clear => finish (d.updateZone env clear handle s)
  | .enable handle => finish (d.enableZone env handle s)
  | .disable handle => finish (d.disableZone handle s)
  | .attach zone => finish (d.attachZone env zone s)
  | .alloc spec => finish (d.allocZone env spec s)
  | .detach handle => finish (d.detachZone handle s)
where
  finish {α : Type} (done : Done δ α) : Domain δ × Shared := (done.domain, done.shared)

end Errand

namespace Arena

omit [Driver δ] in
def initial (id registry : Nat) (config : DomainConfig) (s : Shared) : Arena δ :=
  let (domain, shared) := Domain.create id registry config s
  ⟨domain, shared, [], none, none, 0, false⟩

omit [Driver δ] in
/-- What became of the running mark under the tree lock: if there is nothing to do the slot is left,
and if there was a fault it is left poisoned. -/
def settle (a : Arena δ) (done : Done δ Bool) (next : Stage) : Arena δ :=
  match done.outcome with
  | .error _ =>
    { a with
      domain := { done.domain with slotPoisoned := true }
      shared := done.shared
      holder := none }
  | .ok goes =>
    { a with
      domain := done.domain
      shared := done.shared
      holder := if goes then some next else none }

def proceed (env : Surroundings) (a : Arena δ) : Option (Arena δ) :=
  match a.holder with
  | none => none
  | some .starting => some (a.settle (a.domain.markRunning env a.shared) .spawning)
  | some .spawning =>
    match env.threadError with
    | some _ => some { a with domain.slotPoisoned := true, holder := none }
    | none =>
      some { a with
        threads := a.spawned :: a.threads
        spawned := a.spawned + 1
        holder := some (.storing a.spawned) }
  | some (.storing t) =>
    some { a with
      slot := some t
      domain.sampler := true
      shared := a.shared.log .info s!"started domain {a.domain.name}"
      holder := none }
  | some .stopping => some (a.settle (a.domain.clearRunning a.shared) .taking)
  | some .taking =>
    match a.slot with
    | some t => some { a with slot := none, domain.sampler := false, holder := some (.joining t) }
    | none => some (stopped a)
  | some (.joining t) => if t ∈ a.threads then none else some (stopped a)
where
  stopped (a : Arena δ) : Arena δ :=
    { a with
      shared := a.shared.log .info s!"stopped domain {a.domain.name}"
      holder := none }

/-- One turn of a sampling thread. It ends when the domain is not running any more; a fault, or a
lock that is poisoned, ends the process. -/
def wake (env : Surroundings) (t : Nat) (a : Arena δ) : Option (Arena δ) :=
  if t ∉ a.threads then none
  else if a.domain.treePoisoned then some { a with halted := true }
  else if a.domain.running then
    let done := a.domain.update env false a.shared
    some { a with
      domain := done.domain
      shared := done.shared
      halted := done.domain.treePoisoned }
  else some { a with threads := a.threads.erase t }

def step (env : Surroundings) (move : Move δ) (a : Arena δ) : Option (Arena δ) :=
  if a.halted then none
  else
    match move with
    | .enter task =>
      if a.holder.isSome then none
      -- the caller faults at once
      else if a.domain.slotPoisoned then some a
      else some { a with holder := some task.stage }
    | .proceed => a.proceed env
    | .wake t => a.wake env t
    | .errand errand =>
      let (domain, shared) := errand.run env a.domain a.shared
      some { a with domain, shared }
    | .elsewhere shared => some { a with shared }

def run : List (Surroundings × Move δ) → Arena δ → Option (Arena δ)
  | [], a => some a
  | (env, move) :: rest, a => (a.step env move).bind (run rest)

end Arena

end Telemetry
