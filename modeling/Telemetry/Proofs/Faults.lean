import Telemetry.Proofs.Labelling
import Telemetry.Proofs.Operations
import Telemetry.Proofs.Passing

/-! Which faults there can be. A pass faults over a register, a decoded field or a number that does
not fit; a lock faults over its poison and a handle over its domain. None of these is the fault of a
collector that is not in its registry. -/
namespace Telemetry

def Fault.stuck : Fault → Bool
  | .notUnregistered _ => true
  | _ => false

/-- A fault that cuts a pass short. -/
def Fault.inPass : Fault → Bool
  | .window _ | .overflow _ | .noWindow _ _ | .tooWide _ _ _ _ | .undecodable _ _ _ _ => true
  | _ => false

theorem Fault.free_of_inPass {f : Fault} (short : f.inPass = true) : f.stuck = false := by
  cases f with
  | notUnregistered _ => cases short
  | _ => rfl

theorem Fault.free_of_unlabelled {f : Fault} (missed : f.unlabelled = true) : f.stuck = false := by
  cases f with
  | notUnregistered _ => cases missed
  | _ => rfl

theorem sweep_fault {step : α → σ → Except Fault α × σ} (Q : Fault → Prop)
    (each : ∀ a s f, (step a s).1 = .error f → Q f) {as : List α} {s : σ} {f : Fault}
    (failed : (sweep step as s).1 = some f) : Q f := by
  induction as generalizing s with
  | nil => cases failed
  | cons a rest ih =>
    unfold sweep at failed
    split at failed
    · rename_i here
      cases failed
      exact each a s f (by rw [here])
    · exact ih failed

theorem passOver_fault {step : α → σ → Option Fault × α × σ} (Q : Fault → Prop)
    (each : ∀ a s f, (step a s).1 = some f → Q f) {as : List α} {s : σ} {f : Fault}
    (failed : (passOver step as s).1 = some f) : Q f := by
  induction as generalizing s with
  | nil => cases failed
  | cons a rest ih =>
    unfold passOver at failed
    split at failed
    · rename_i here
      cases failed
      exact each a s f (by rw [here])
    · exact ih failed

namespace Block

variable {δ : Type} [Driver δ] {env : Surroundings} {name : String} {window : Option Nat}
  {clear : Bool} {f : Fault}

omit [Driver δ] in
theorem readElement_fault {w : Register.Window} {spec : MetricSpec} {i : Nat}
    (failed : readElement w name spec i = .error f) : f.inPass = true := by
  simp only [readElement] at failed
  split at failed
  · cases failed
    rfl
  · rcases bind_error failed with placed | ⟨offset, -, failed⟩
    · obtain ⟨o, rfl⟩ := mapError_error placed
      rfl
    · rcases bind_error failed with read | ⟨bytes, -, decoded⟩
      · obtain ⟨fault, rfl⟩ := mapError_error read
        rfl
      · obtain ⟨error, rfl⟩ := mapError_error decoded
        rfl

omit [Driver δ] in
theorem readSamples_fault {spec : MetricSpec} {count : Nat}
    (failed : readSamples env name window spec count = .error f) : f.inPass = true := by
  rcases bind_error failed with direct | ⟨values, -, failed⟩
  · unfold readDirect at direct
    split at direct
    · cases direct
      rfl
    · obtain ⟨i, -, here⟩ := mapM_error direct
      exact readElement_fault here
  · rcases bind_error failed with bits | ⟨mask, -, none⟩
    · obtain ⟨o, rfl⟩ := mapError_error bits
      rfl
    · cases none

theorem sampleMetric_fault {m : Metric} {s : PassState δ}
    (failed : (sampleMetric env name window clear m s).1 = .error f) : f.inPass = true := by
  simp only [sampleMetric, readMetric] at failed
  split at failed
  · rename_i read
    cases failed
    split at read
    · cases read
    · exact readSamples_fault (congrArg Prod.fst read)
  · cases failed

theorem pass_fault {b : Block δ} {s : Shared} (failed : (b.pass env clear s).1 = some f) :
    f.inPass = true := by
  simp only [pass] at failed
  split at failed
  · rename_i swept
    cases failed
    exact sweep_fault (fun f => f.inPass = true) (fun _ _ _ here => sampleMetric_fault here)
      (congrArg Prod.fst swept)
  · cases failed

end Block

namespace Zone

variable {δ : Type} [Driver δ] {env : Surroundings} {clear : Bool} {f : Fault}

theorem pass_fault {z : Zone δ} {s : Shared} (failed : (z.pass env clear s).1 = some f) :
    f.inPass = true := by
  unfold pass at failed
  split at failed
  · exact passOver_fault (fun f => f.inPass = true) (fun _ _ _ here => Block.pass_fault here) failed
  · cases failed

end Zone

theorem Treatment.run_fault {δ : Type} [Driver δ] {env : Surroundings} (treatment : Treatment)
    {z : Zone δ} {s : Shared} {f : Fault} (failed : (treatment.run env z s).1 = some f) :
    f.inPass = true := by
  cases treatment with
  | pass clear => exact Zone.pass_fault failed
  | enable clear =>
    simp only [run, Zone.enable] at failed
    split at failed
    · exact Zone.pass_fault failed
    · cases failed
  | disable => cases failed

theorem Effect.run_fault {δ : Type} [Driver δ] {env : Surroundings} (effect : Effect)
    {zones : List (Zone δ)} {s : Shared} {f : Fault}
    (failed : (effect.run env zones s).1 = some f) : f.inPass = true := by
  cases effect with
  | nothing => cases failed
  | everywhere clear =>
    exact passOver_fault (fun f => f.inPass = true) (fun _ _ _ here => Zone.pass_fault here) failed
  | one handle treatment =>
    simp only [run] at failed
    split at failed
    · cases failed
    · exact treatment.run_fault failed

namespace Domain

variable {δ : Type} {env : Surroundings}

theorem locked_fault {d : Domain δ} {s : Shared} {step : Domain δ → Shared → Done δ α} {f : Fault}
    (sound : d.treePoisoned = false) (failed : (step d s).outcome = .error (.fault f)) :
    (d.locked s step).outcome = .error (.fault f) := by
  simp only [locked, sound, Bool.false_eq_true, if_false]
  split
  · exact failed
  · exact failed

theorem holdingSlot_fault {d : Domain δ} {s : Shared} {step : Domain δ → Shared → Done δ α}
    {f : Fault} (sound : d.slotPoisoned = false)
    (failed : (step d s).outcome = .error (.fault f)) :
    (d.holdingSlot s step).outcome = .error (.fault f) := by
  simp only [holdingSlot, sound, Bool.false_eq_true, if_false]
  split
  · exact failed
  · exact failed

def Clear (outcome : Outcome α) : Prop := ∀ f, outcome = .error (.fault f) → f.stuck = false

theorem clear_ok (a : α) : Clear (.ok a) := fun _ failed => by cases failed

theorem clear_refused (refusal : Refusal) : Clear (.error (.refused refusal) : Outcome α) :=
  fun _ failed => by cases failed

theorem clear_fault {f : Fault} (free : f.stuck = false) :
    Clear (.error (.fault f) : Outcome α) := by
  intro g failed
  cases failed
  exact free

theorem clear_ended {fault : Option Fault} (each : ∀ f, fault = some f → f.stuck = false) :
    Clear (ended fault) :=
  fun f failed => each f ((ended_fault fault f).mp failed)

theorem clear_map {outcome : Outcome α} (h : Clear outcome) (g : α → β) :
    Clear (outcome.map g) := by
  intro f failed
  cases outcome with
  | error e =>
    cases failed
    exact h f rfl
  | ok a => cases failed

theorem locked_clear {d : Domain δ} {s : Shared} {step : Domain δ → Shared → Done δ α}
    (h : Clear (step d s).outcome) : Clear (d.locked s step).outcome := by
  unfold locked
  split
  · exact clear_fault rfl
  · cases done : step d s with | mk outcome e t =>
    rw [done] at h
    simp only
    split <;> exact h

theorem holdingSlot_clear {d : Domain δ} {s : Shared} {step : Domain δ → Shared → Done δ α}
    (h : Clear (step d s).outcome) : Clear (d.holdingSlot s step).outcome := by
  unfold holdingSlot
  split
  · exact clear_fault rfl
  · cases done : step d s with | mk outcome e t =>
    rw [done] at h
    simp only
    split <;> exact h

theorem changeZone_clear {d : Domain δ} {handle : ZoneHandle} {s : Shared}
    {change : Zone δ → Shared → Option Fault × Zone δ × Shared}
    (each : ∀ z s f, (change z s).1 = some f → f.stuck = false) :
    Clear (d.changeZone handle s change).outcome := by
  unfold changeZone onZone
  split
  · exact clear_fault rfl
  · split
    · exact clear_fault rfl
    · split
      · exact clear_fault rfl
      · exact locked_clear (clear_ended (each _ _))

variable [Driver δ]

theorem passZones_clear (clear : Bool) (d : Domain δ) (s : Shared) :
    Clear (d.passZones env clear s).outcome :=
  clear_ended fun _ failed => Fault.free_of_inPass
    (passOver_fault (fun f => f.inPass = true) (fun _ _ _ here => Zone.pass_fault here) failed)

omit [Driver δ] in
theorem stop_clear (d : Domain δ) (s : Shared) : Clear (d.stop s).outcome := by
  have cleared : Clear (d.clearRunning s).outcome :=
    locked_clear (clear_ok _)
  apply holdingSlot_clear
  cases done : d.clearRunning s with | mk outcome e t =>
  rw [done] at cleared
  simp only
  split
  · intro f failed
    cases failed
    exact cleared f rfl
  · exact clear_ok _
  · exact clear_ok _

theorem start_clear (d : Domain δ) (s : Shared) : Clear (d.start env s).outcome := by
  have marked : Clear (d.markRunning env s).outcome := by
    apply locked_clear
    split
    · exact clear_ok _
    · simp only
      split
      · exact clear_map (passZones_clear true _ s) _
      · exact clear_ok _
  apply holdingSlot_clear
  cases done : d.markRunning env s with | mk outcome e t =>
  rw [done] at marked
  simp only
  split
  · intro f failed
    cases failed
    exact marked f rfl
  · exact clear_ok _
  · split
    · intro f failed
      cases failed
      rfl
    · exact clear_ok _

theorem update_fault {clear : Bool} {d : Domain δ} {s : Shared} {f : Fault}
    (sound : d.treePoisoned = false)
    (failed : (passOver (Zone.pass env clear) d.zones s).1 = some f) :
    (d.update env clear s).outcome = .error (.fault f) :=
  locked_fault sound ((ended_fault _ f).mpr failed)

theorem changeZone_fault {handle : ZoneHandle} (treatment : Treatment) {d : Domain δ} {s : Shared}
    {f : Fault}
    (failed : ((Operation.through d handle treatment).run env d.zones s).1 = some f) :
    (d.changeZone handle s (treatment.run env)).outcome = .error (.fault f) := by
  unfold Operation.through at failed
  split at failed
  · cases failed
  · rename_i reached
    simp only [Bool.or_eq_true, decide_eq_true_eq, not_or, Bool.not_eq_true, ne_eq,
      Classical.not_not] at reached
    obtain ⟨own, sound⟩ := reached
    simp only [Effect.run] at failed
    simp only [changeZone, onZone, position, own, sound, ne_eq, not_true_eq_false, if_false,
      Bool.false_eq_true]
    cases found : (d.zones.findIdx? (·.handle == some handle)).bind
        fun i => (d.zones[i]?).map fun z => (i, z) with
    | none =>
      rw [found] at failed
      cases failed
    | some there =>
      rw [found] at failed
      exact locked_fault sound ((ended_fault _ f).mpr failed)

end Domain

/-- The fault that cuts an operation short is its outcome. -/
theorem Operation.run_fault {δ : Type} [Driver δ] {env : Surroundings} (operation : Operation)
    {d : Domain δ} {s : Shared} {f : Fault}
    (failed : ((operation.effect d).run env d.zones s).1 = some f) :
    (operation.run env d s).outcome = .error (.fault f) := by
  cases operation with
  | update clear =>
    simp only [effect] at failed
    split at failed
    · cases failed
    · rename_i sound
      exact Domain.update_fault (eq_false_of_ne_true sound) failed
  | updateZone handle clear => exact Domain.changeZone_fault (.pass clear) failed
  | enable handle => exact Domain.changeZone_fault (.enable d.clearOnStart) failed
  | disable handle => exact Domain.changeZone_fault .disable failed
  | start =>
    simp only [effect] at failed
    split at failed
    · cases failed
    · rename_i idle
      simp only [Bool.or_eq_true, not_or, Bool.not_eq_true, Bool.not_eq_false'] at idle
      obtain ⟨⟨⟨slot, tree⟩, stopped⟩, clears⟩ := idle
      have marked : (d.markRunning env s).outcome = .error (.fault f) := by
        apply Domain.locked_fault tree
        have ending := (Domain.ended_fault _ f).mpr failed
        simp only [stopped, clears, Bool.false_eq_true, if_false, if_true, Domain.passZones]
        simp only [Effect.run] at ending
        rw [ending]
        rfl
      apply Domain.holdingSlot_fault slot
      simp only [marked]
  | stop => cases failed
  | sample =>
    simp only [effect] at failed
    split at failed
    · rename_i active
      simp only [Bool.and_eq_true, Bool.not_eq_true'] at active
      rw [run, Domain.samplerPass, if_pos (by simp [active.1])]
      exact Domain.update_fault active.2 failed
    · cases failed

theorem Operation.run_clear {δ : Type} [Driver δ] {env : Surroundings} (operation : Operation)
    (d : Domain δ) (s : Shared) : Domain.Clear (operation.run env d s).outcome := by
  cases operation with
  | update clear => exact Domain.locked_clear (Domain.passZones_clear clear d s)
  | updateZone handle clear =>
    exact Domain.changeZone_clear fun _ _ _ here => Fault.free_of_inPass (Zone.pass_fault here)
  | enable handle =>
    exact Domain.changeZone_clear fun _ _ _ here =>
      Fault.free_of_inPass ((Treatment.enable d.clearOnStart).run_fault here)
  | disable handle => exact Domain.changeZone_clear fun _ _ _ here => by cases here
  | start => exact Domain.start_clear d s
  | stop => exact Domain.stop_clear d s
  | sample =>
    simp only [run, Domain.samplerPass]
    split
    · exact Domain.locked_clear (Domain.passZones_clear false d s)
    · exact Domain.clear_ok _

end Telemetry
