import Telemetry.Proofs.Ledger
import Telemetry.Proofs.Site

/-! What operations do to the zones of a domain. Locks, handles and the sampler's state only decide
whether something happens; what can happen is a pass over all zones, or one of three treatments of
the zone behind a handle. -/
namespace Telemetry

inductive Treatment where
  | pass (clear : Bool)
  | enable (clear : Bool)
  | disable

/-- What an operation comes to. -/
inductive Effect where
  | nothing
  | everywhere (clear : Bool)
  | one (handle : ZoneHandle) (treatment : Treatment)

namespace Treatment

variable {δ : Type} [Driver δ]

def run (env : Surroundings) (treatment : Treatment) (z : Zone δ) (s : Shared) :
    Option Fault × Zone δ × Shared :=
  match treatment with
  | .pass clear => z.pass env clear s
  | .enable clear => z.enable env clear s
  | .disable => (none, z.disable, s)

end Treatment

namespace Effect

variable {δ : Type} [Driver δ]

def run (env : Surroundings) (effect : Effect) (zones : List (Zone δ)) (s : Shared) :
    Option Fault × List (Zone δ) × Shared :=
  match effect with
  | .nothing => (none, zones, s)
  | .everywhere clear => passOver (Zone.pass env clear) zones s
  | .one handle treatment =>
    match (zones.findIdx? (·.handle == some handle)).bind fun i => (zones[i]?).map fun z => (i, z) with
    | none => (none, zones, s)
    | some (i, z) =>
      let (fault, z, s) := treatment.run env z s
      (fault, zones.set i z, s)

omit [Driver δ] in
theorem found_at {place : Option Nat} {zones : List (Zone δ)} {i : Nat} {z : Zone δ}
    (found : (place.bind fun i => (zones[i]?).map fun z => (i, z)) = some (i, z)) :
    place = some i ∧ zones[i]? = some z := by
  obtain ⟨j, placed, there⟩ := Option.bind_eq_some_iff.mp found
  obtain ⟨y, inside, same⟩ := Option.map_eq_some_iff.mp there
  cases same
  exact ⟨placed, inside⟩

end Effect

namespace Operation

variable {δ : Type}

def through (d : Domain δ) (handle : ZoneHandle) (treatment : Treatment) : Effect :=
  if handle.domain ≠ d.id || d.treePoisoned then .nothing else .one handle treatment

def effect (operation : Operation) (d : Domain δ) : Effect :=
  match operation with
  | .update clear => if d.treePoisoned then .nothing else .everywhere clear
  | .updateZone handle clear => through d handle (.pass clear)
  | .enable handle => through d handle (.enable d.clearOnStart)
  | .disable handle => through d handle .disable
  | .start =>
    if d.slotPoisoned || d.treePoisoned || d.running || !d.clearOnStart then .nothing
    else .everywhere true
  | .stop => .nothing
  | .sample =>
    if d.sampler && d.running && !d.treePoisoned then .everywhere false else .nothing

theorem effect_poisoned (operation : Operation) {d : Domain δ} (poisoned : d.treePoisoned = true) :
    operation.effect d = .nothing := by
  cases operation <;> simp [effect, through, poisoned]

end Operation

namespace Domain

variable {δ : Type}

structure SameFrame (d e : Domain δ) : Prop where
  id : e.id = d.id
  name : e.name = d.name
  clearOnStart : e.clearOnStart = d.clearOnStart
  registry : e.registry = d.registry
  valueCount : e.valueCount = d.valueCount
  nextZone : e.nextZone = d.nextZone

/-- A domain after it was left with these zones, perhaps through a fault. -/
structure Becomes (d : Domain δ) (result : Option Fault × List (Zone δ) × Shared) (e : Domain δ)
    (t : Shared) : Prop where
  frame : SameFrame d e
  zones : e.zones = result.2.1
  shared : result.2.2.Notes t
  poisoned : e.treePoisoned = (d.treePoisoned || result.1.isSome)

theorem Becomes.still {d e : Domain δ} {s t : Shared} (frame : SameFrame d e)
    (zones : e.zones = d.zones) (shared : s.Notes t) (poisoned : e.treePoisoned = d.treePoisoned) :
    Becomes d (none, d.zones, s) e t :=
  ⟨frame, zones, shared, by simpa using poisoned⟩

theorem SameFrame.refl (d : Domain δ) : SameFrame d d := ⟨rfl, rfl, rfl, rfl, rfl, rfl⟩

theorem SameFrame.trans {c d e : Domain δ} (first : SameFrame c d) (second : SameFrame d e) :
    SameFrame c e :=
  ⟨second.id.trans first.id, second.name.trans first.name,
    second.clearOnStart.trans first.clearOnStart, second.registry.trans first.registry,
    second.valueCount.trans first.valueCount, second.nextZone.trans first.nextZone⟩

theorem Becomes.revised {d e f : Domain δ} {result : Option Fault × List (Zone δ) × Shared}
    {t u : Shared} (h : Becomes d result e t) (frame : SameFrame e f) (zones : f.zones = e.zones)
    (shared : t.Notes u) (poisoned : f.treePoisoned = e.treePoisoned) : Becomes d result f u :=
  ⟨h.frame.trans frame, zones.trans h.zones, h.shared.trans shared, poisoned.trans h.poisoned⟩

theorem locked_poisoned {d : Domain δ} (poisoned : d.treePoisoned = true) (s : Shared)
    (step : Domain δ → Shared → Done δ α) :
    d.locked s step = ⟨.error (.fault (.poisonedDomain d.name)), d, s⟩ := by
  rw [locked, if_pos poisoned]

/-- A fault under the lock poisons it, and that is all that the lock adds. -/
theorem locked_becomes {d : Domain δ} {s : Shared} {step : Domain δ → Shared → Done δ α}
    {result : Option Fault × List (Zone δ) × Shared} (sound : d.treePoisoned = false)
    (frame : SameFrame d (step d s).domain) (zones : (step d s).domain.zones = result.2.1)
    (shared : result.2.2.Notes (step d s).shared)
    (kept : (step d s).domain.treePoisoned = d.treePoisoned)
    (faults : ∀ f, (step d s).outcome = .error (.fault f) ↔ result.1 = some f) :
    Becomes d result (d.locked s step).domain (d.locked s step).shared := by
  cases done : step d s with | mk outcome e t =>
  simp only [done] at frame zones shared kept faults
  simp only [locked, sound, Bool.false_eq_true, if_false, done]
  by_cases fault : ∃ f, outcome = .error (.fault f)
  · obtain ⟨f, rfl⟩ := fault
    have some := (faults f).mp rfl
    exact ⟨⟨frame.id, frame.name, frame.clearOnStart, frame.registry, frame.valueCount,
      frame.nextZone⟩, zones, shared, by rw [some]; simp⟩
  · have none : result.1 = none := by
      cases ending : result.1 with
      | none => rfl
      | some f => exact absurd ⟨f, (faults f).mpr ending⟩ fault
    have same : Becomes d result e t := ⟨frame, zones, shared, by rw [kept, none]; simp⟩
    split
    · rename_i f
      exact absurd ⟨f, rfl⟩ fault
    · exact same

theorem ended_fault (fault : Option Fault) (f : Fault) :
    ended fault = .error (.fault f) ↔ fault = some f := by
  cases fault <;> simp [ended]

theorem holdingSlot_becomes {d : Domain δ} {s : Shared} {step : Domain δ → Shared → Done δ α}
    {result : Option Fault × List (Zone δ) × Shared} (sound : d.slotPoisoned = false)
    (h : Becomes d result (step d s).domain (step d s).shared) :
    Becomes d result (d.holdingSlot s step).domain (d.holdingSlot s step).shared := by
  cases done : step d s with | mk outcome e t =>
  simp only [done] at h
  simp only [holdingSlot, sound, Bool.false_eq_true, if_false, done]
  split
  · exact h.revised ⟨rfl, rfl, rfl, rfl, rfl, rfl⟩ rfl (.refl t) rfl
  · exact h

theorem holdingSlot_poisoned {d : Domain δ} (poisoned : d.slotPoisoned = true) (s : Shared)
    (step : Domain δ → Shared → Done δ α) :
    d.holdingSlot s step = ⟨.error (.fault (.poisonedSlot d.name)), d, s⟩ := by
  rw [holdingSlot, if_pos poisoned]

variable [Driver δ] {env : Surroundings}

theorem update_becomes (env : Surroundings) (clear : Bool) (d : Domain δ) (s : Shared) :
    Becomes d ((Operation.effect (.update clear) d).run env d.zones s)
      (d.update env clear s).domain (d.update env clear s).shared := by
  cases poisoned : d.treePoisoned with
  | true =>
    rw [update, locked_poisoned poisoned, Operation.effect, if_pos poisoned]
    exact .still (.refl d) rfl (.refl s) rfl
  | false =>
    rw [Operation.effect, if_neg (by rw [poisoned]; exact Bool.false_ne_true)]
    exact locked_becomes poisoned ⟨rfl, rfl, rfl, rfl, rfl, rfl⟩ rfl (.refl _) rfl
      (ended_fault _)

theorem changeZone_becomes (handle : ZoneHandle) (treatment : Treatment) (d : Domain δ)
    (s : Shared) :
    Becomes d ((Operation.through d handle treatment).run env d.zones s)
      (d.changeZone handle s (treatment.run env)).domain
      (d.changeZone handle s (treatment.run env)).shared := by
  by_cases foreign : handle.domain ≠ d.id
  · rw [changeZone, onZone, if_pos foreign, Operation.through, if_pos (by simp [foreign])]
    exact .still (.refl d) rfl (.refl s) rfl
  · cases poisoned : d.treePoisoned with
    | true =>
      rw [changeZone, onZone, if_neg foreign, if_pos poisoned, Operation.through,
        if_pos (by simp [poisoned])]
      exact .still (.refl d) rfl (.refl s) rfl
    | false =>
      rw [changeZone, onZone, if_neg foreign, if_neg (by simp [poisoned]), Operation.through,
        if_neg (by simpa [poisoned] using foreign), Effect.run, position]
      cases (d.zones.findIdx? (·.handle == some handle)).bind fun i =>
          (d.zones[i]?).map fun z => (i, z) with
      | none => exact .still (.refl d) rfl (.refl s) rfl
      | some found =>
        obtain ⟨i, z⟩ := found
        exact locked_becomes poisoned ⟨rfl, rfl, rfl, rfl, rfl, rfl⟩ rfl (.refl _) rfl
          (ended_fault _)

theorem markRunning_becomes (env : Surroundings) (d : Domain δ) (s : Shared) :
    Becomes d
      ((if d.treePoisoned || d.running || !d.clearOnStart then Effect.nothing
        else .everywhere true).run env d.zones s)
      (d.markRunning env s).domain (d.markRunning env s).shared := by
  cases poisoned : d.treePoisoned with
  | true =>
    rw [markRunning, locked_poisoned poisoned]
    exact .still (.refl d) rfl (.refl s) rfl
  | false =>
    rw [markRunning]
    cases running : d.running with
    | true =>
      refine locked_becomes poisoned ?_ ?_ ?_ ?_ ?_
      all_goals simp only [running, if_true, Bool.or_true, Bool.true_or]
      · exact .refl d
      · rfl
      · exact .refl s
      · intro f
        simp [Effect.run]
    | false =>
      cases clears : d.clearOnStart with
      | false =>
        refine locked_becomes poisoned ?_ ?_ ?_ ?_ ?_
        all_goals simp only [running, clears, Bool.false_eq_true, if_false, Bool.not_false,
          Bool.or_true, if_true]
        · exact ⟨rfl, rfl, clears.symm, rfl, rfl, rfl⟩
        · rfl
        · exact .refl s
        · intro f
          simp [Effect.run]
      | true =>
        refine locked_becomes poisoned ?_ ?_ ?_ ?_ ?_
        all_goals simp only [running, clears, Bool.false_eq_true, if_false, Bool.not_true,
          Bool.or_self, if_true, passZones, Effect.run]
        · exact ⟨rfl, rfl, clears.symm, rfl, rfl, rfl⟩
        · exact .refl _
        · intro f
          cases (passOver (Zone.pass env true) d.zones s).1 <;> simp [ended, Except.map]

theorem start_becomes (d : Domain δ) (s : Shared) :
    Becomes d ((Operation.effect .start d).run env d.zones s) (d.start env s).domain
      (d.start env s).shared := by
  cases slot : d.slotPoisoned with
  | true =>
    rw [start, holdingSlot_poisoned slot, Operation.effect, if_pos (by simp [slot])]
    exact .still (.refl d) rfl (.refl s) rfl
  | false =>
    have marked := markRunning_becomes env d s
    simp only [Operation.effect, slot, Bool.false_or]
    apply holdingSlot_becomes slot
    generalize Effect.run env _ d.zones s = result at marked ⊢
    cases done : d.markRunning env s with | mk outcome e t =>
    simp only [done] at marked ⊢
    split
    · exact marked
    · exact marked
    · split
      · exact marked
      · exact marked.revised ⟨rfl, rfl, rfl, rfl, rfl, rfl⟩ rfl (.log _ _ _) rfl

omit [Driver δ] in
theorem stop_becomes (d : Domain δ) (s : Shared) :
    Becomes d (none, d.zones, s) (d.stop s).domain (d.stop s).shared := by
  cases slot : d.slotPoisoned with
  | true =>
    rw [stop, holdingSlot_poisoned slot]
    exact .still (.refl d) rfl (.refl s) rfl
  | false =>
    have cleared : Becomes d (none, d.zones, s) (d.clearRunning s).domain
        (d.clearRunning s).shared := by
      cases poisoned : d.treePoisoned with
      | true =>
        rw [clearRunning, locked_poisoned poisoned]
        exact .still (.refl d) rfl (.refl s) rfl
      | false =>
        exact locked_becomes poisoned ⟨rfl, rfl, rfl, rfl, rfl, rfl⟩ rfl (.refl _) rfl (by simp)
    apply holdingSlot_becomes slot
    cases done : d.clearRunning s with | mk outcome e t =>
    simp only [done] at cleared ⊢
    split
    · exact cleared
    · exact cleared
    · exact cleared.revised ⟨rfl, rfl, rfl, rfl, rfl, rfl⟩ rfl (.log _ _ _) rfl

end Domain

theorem Operation.run_becomes {δ : Type} [Driver δ] (env : Surroundings) (operation : Operation)
    (d : Domain δ) (s : Shared) :
    Domain.Becomes d ((operation.effect d).run env d.zones s) (operation.run env d s).domain
      (operation.run env d s).shared := by
  cases operation with
  | update clear => exact Domain.update_becomes env clear d s
  | updateZone handle clear => exact Domain.changeZone_becomes handle (.pass clear) d s
  | enable handle => exact Domain.changeZone_becomes handle (.enable d.clearOnStart) d s
  | disable handle => exact Domain.changeZone_becomes handle .disable d s
  | start => exact Domain.start_becomes d s
  | stop => exact Domain.stop_becomes d s
  | sample =>
    have whole := Domain.update_becomes env false d s
    simp only [run, Domain.samplerPass, effect]
    cases d.sampler && d.running with
    | false => exact .still (.refl d) rfl (.refl s) rfl
    | true =>
      have same : (if (true && !d.treePoisoned) = true then Effect.everywhere false else .nothing)
          = effect (.update false) d := by
        rw [effect]
        cases d.treePoisoned <;> rfl
      rw [same]
      exact whole

end Telemetry
