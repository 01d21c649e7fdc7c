import Telemetry.Proofs.Direct
import Telemetry.Proofs.Protocol

/-! Recording a driver changes nothing. A pass over a block whose driver is recorded is a pass over
the block itself, with the record beside it; so what a record tells of the calls in a pass holds for
every driver. A pass that a fault cuts short has not come to its release. -/
namespace Telemetry

variable {δ : Type}

def PassState.unrecorded (s : PassState (Recorded δ)) : PassState δ :=
  ⟨s.driver.map (·.driver), s.scratch, s.shared⟩

def Recorded.Unreleased (d : Option (Recorded δ)) : Prop :=
  ∀ r, d = some r → ∀ given, Call.release given ∉ r.calls

theorem Recorded.Unreleased.answer {d : Option (Recorded δ)} (h : Unreleased d) {hook : δ → Reply δ α}
    {call : α → Call} (other : ∀ a given, Call.release given ≠ call a) (none : α) :
    Unreleased (Driver.ask d (fun r => r.answer call (hook r.driver)) none).driver := by
  intro r there given listed
  cases d with
  | none => cases there
  | some q =>
    cases there
    rcases List.mem_append.mp listed with earlier | last
    · exact h q rfl given earlier
    · exact other _ given (List.mem_singleton.mp last)

namespace Block

def recorded (b : Block δ) : Block (Recorded δ) := { b with driver := b.driver.map .fresh }

def unrecorded (b : Block (Recorded δ)) : Block δ := { b with driver := b.driver.map (·.driver) }

theorem unrecorded_recorded (b : Block δ) : b.recorded.unrecorded = b := by
  have same : (b.driver.map Recorded.fresh).map (·.driver) = b.driver := by
    cases b.driver <;> rfl
  simp only [recorded, unrecorded, same]

variable [Driver δ] {env : Surroundings} {name : String} {window : Option Nat} {clear : Bool}

theorem publish_unrecorded (spec : MetricSpec) (e : Element) (s : PassState (Recorded δ)) :
    publish spec e s.unrecorded = ((publish spec e s).1, (publish spec e s).2.unrecorded) := by
  obtain ⟨driver, scratch, shared⟩ := s
  cases driver <;> rfl

theorem applySamples_unrecorded (spec : MetricSpec) (mask : UInt64) (es : List Element)
    (values : List UInt64) (s : PassState (Recorded δ)) :
    applySamples spec mask clear es values s.unrecorded =
      ((applySamples spec mask clear es values s).1,
        (applySamples spec mask clear es values s).2.unrecorded) := by
  induction es generalizing values s with
  | nil => rfl
  | cons e es ih =>
    cases values with
    | nil => rfl
    | cons x values => simp only [applySamples, publish_unrecorded, ih]

theorem readReply_unrecorded (m : Metric) (s : PassState (Recorded δ)) :
    (readReply m s.unrecorded).result = (readReply m s).result ∧
      asked m s.unrecorded = (asked m s).unrecorded := by
  obtain ⟨driver, scratch, shared⟩ := s
  cases driver <;> exact ⟨rfl, rfl⟩

theorem readMetric_unrecorded (m : Metric) (s : PassState (Recorded δ)) :
    readMetric env name window m s.unrecorded =
      ((readMetric env name window m s).1, (readMetric env name window m s).2.unrecorded) := by
  obtain ⟨result, state⟩ := readReply_unrecorded m s
  simp only [readMetric_eq, result, state]

theorem sampleMetric_unrecorded (m : Metric) (s : PassState (Recorded δ)) :
    sampleMetric env name window clear m s.unrecorded =
      ((sampleMetric env name window clear m s).1,
        (sampleMetric env name window clear m s).2.unrecorded) := by
  simp only [sampleMetric, readMetric_unrecorded]
  cases readMetric env name window m s with | mk result t =>
  cases result with
  | error f => rfl
  | ok reading => simp only [applySamples_unrecorded]

theorem latched_unrecorded (b : Block (Recorded δ)) (s : Shared) :
    b.unrecorded.latched clear s = (b.latched clear s).unrecorded := by
  obtain ⟨_, _, _, _, driver, _, _⟩ := b
  cases driver <;> rfl

/-- A pass does the same whether its driver is recorded or not. -/
theorem pass_unrecorded (b : Block (Recorded δ)) (s : Shared) :
    b.unrecorded.pass env clear s =
      ((b.pass env clear s).1, (b.pass env clear s).2.1.unrecorded, (b.pass env clear s).2.2) := by
  have each (m : Metric) (t : PassState (Recorded δ)) :
      sampleMetric env b.name b.window clear m t.unrecorded =
        ((sampleMetric env b.name b.window clear m t).1,
          (sampleMetric env b.name b.window clear m t).2.unrecorded) := sampleMetric_unrecorded m t
  have swept := sweep_through PassState.unrecorded each b.metrics (b.latched clear s)
  rw [pass_eq, pass_eq, latched_unrecorded]
  simp only [unrecorded, swept]
  cases sweep (sampleMetric env b.name b.window clear) b.metrics (b.latched clear s) with
  | mk fault rest =>
  obtain ⟨metrics, driver, scratch, shared⟩ := rest
  cases fault with
  | some f => rfl
  | none => cases driver <;> rfl

/-! ### A pass that is cut short -/

open Recorded (Unreleased)

theorem applySamples_unreleased (spec : MetricSpec) (mask : UInt64) {es : List Element}
    {values : List UInt64} {s : PassState (Recorded δ)} (h : Unreleased s.driver) :
    Unreleased (applySamples spec mask clear es values s).2.driver := by
  induction es generalizing values s with
  | nil => exact h
  | cons e es ih =>
    cases values with
    | nil => exact h
    | cons x values =>
      have published : Unreleased (publish spec (e.apply spec x mask clear) s).2.driver :=
        h.answer (fun _ _ same => by cases same) _
      exact ih published

theorem sampleMetric_unreleased {m : Metric} {s t : PassState (Recorded δ)}
    {result : Except Fault Metric} (h : Unreleased s.driver)
    (done : sampleMetric env name window clear m s = (result, t)) : Unreleased t.driver := by
  have read : Unreleased (asked m s).driver := h.answer (fun _ _ same => by cases same) _
  simp only [sampleMetric, readMetric_eq] at done
  split at done
  all_goals
    rename_i met
    obtain ⟨-, rfl⟩ := Prod.mk.inj met
    cases done
  · exact read
  · exact applySamples_unreleased _ _ read

theorem pass_unreleased {b c : Block (Recorded δ)} {s t : Shared} {f : Fault}
    (h : Unreleased b.driver) (stopped : b.pass env clear s = (some f, c, t)) :
    Unreleased c.driver := by
  have latched : Unreleased (b.latched clear s).driver := h.answer (fun _ _ same => by cases same) _
  have swept := sweep_in_place (sampleMetric env b.name b.window clear)
    (fun _ state => Unreleased state.driver) (fun _ _ _ _ _ _ => sampleMetric_unreleased)
    (fun _ _ _ _ _ _ => sampleMetric_unreleased) [] b.metrics _ latched
  rw [pass_eq] at stopped
  split at stopped
  · rename_i whole
    rw [whole] at swept
    cases stopped
    exact swept
  · cases stopped

end Block

end Telemetry
