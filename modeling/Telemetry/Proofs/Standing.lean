import Mathlib.Data.List.Induction
import Telemetry.Proofs.Counting

/-! What the samples of an element come to. A gauge is its last sample and a flag whether that was
zero; a counter is the sum of what its samples have added; and only what came after the last reset
counts. Each sample a pass applies moves an element from one such value to the next. -/
namespace Telemetry

structure Metric.Sample where
  value : UInt64
  mask : UInt64
  clear : Bool
deriving DecidableEq

namespace MetricSpec

open Telemetry.Metric (Sample)

/-- What each sample adds to a counter: all of it where reading resets the register, and otherwise
the masked difference to the sample before, which is `last` for the first. -/
def gains (spec : MetricSpec) (last : UInt64) (samples : List Sample) : List UInt64 :=
  if spec.flags.clearOnRead then samples.map (·.value)
  else List.zipWith (fun x before => (x.value - before) &&& x.mask) samples
    (last :: samples.map (·.value))

/-- How many samples there were up to the last one that put the initial value back. -/
def resets (spec : MetricSpec) (samples : List Sample) : Nat :=
  spec.lastReset (samples.map (·.clear))

/-- The raw value after these samples. -/
def standing (spec : MetricSpec) (samples : List Sample) : UInt64 :=
  match spec.type with
  | .counter => spec.init + ((spec.gains 0 samples).drop (spec.resets samples)).sum
  | .flag =>
    match (samples.drop (spec.resets samples)).getLast? with
    | none => spec.init
    | some x => if x.value = 0 then 0 else 1
  | .gauge =>
    match (samples.drop (spec.resets samples)).getLast? with
    | none => spec.init
    | some x => x.value

variable {spec : MetricSpec} {samples : List Sample} {x : Sample}

def latest (last : UInt64) (samples : List Sample) : UInt64 :=
  (samples.getLast?.map (·.value)).getD last

@[simp]
theorem latest_snoc (last : UInt64) (samples : List Sample) (x : Sample) :
    latest last (samples ++ [x]) = x.value := by
  simp [latest]

theorem gains_snoc (spec : MetricSpec) (last : UInt64) (samples : List Sample) (x : Sample) :
    spec.gains last (samples ++ [x]) = spec.gains last samples ++
      [if spec.flags.clearOnRead then x.value
        else (x.value - latest last samples) &&& x.mask] := by
  unfold gains
  split
  · simp
  · induction samples generalizing last with
    | nil => rfl
    | cons y rest ih =>
      have same : latest last (y :: rest) = latest y.value rest := by
        rw [latest, latest, List.getLast?_cons]
        cases rest.getLast? <;> rfl
      rw [List.cons_append, List.map_cons, List.zipWith_cons_cons, ih, same]
      rfl

theorem gains_length (spec : MetricSpec) (last : UInt64) (samples : List Sample) :
    (spec.gains last samples).length = samples.length := by
  unfold gains
  split <;> simp

theorem standing_nil (spec : MetricSpec) : spec.standing [] = spec.init := by
  cases kind : spec.type <;> simp [standing, kind, gains]

theorem resets_le (spec : MetricSpec) (samples : List Sample) :
    spec.resets samples ≤ samples.length := by
  rw [← List.length_map (·.clear)]
  exact spec.lastReset_le _

theorem resets_snoc (spec : MetricSpec) (samples : List Sample) (x : Sample) :
    spec.resets (samples ++ [x]) =
      if x.clear && !spec.flags.neverClear then samples.length + 1 else spec.resets samples := by
  rw [resets, List.map_append, List.map_singleton, lastReset_snoc, List.length_map, resets]

theorem standing_reset (reset : (x.clear && !spec.flags.neverClear) = true) :
    spec.standing (samples ++ [x]) = spec.init := by
  have whole : spec.resets (samples ++ [x]) = samples.length + 1 := by
    rw [resets_snoc, if_pos reset]
  have none : (samples ++ [x]).drop (samples.length + 1) = [] := by simp
  have nothing : (spec.gains 0 (samples ++ [x])).drop (samples.length + 1) = [] := by
    apply List.drop_eq_nil_of_le
    simp [gains_length]
  cases kind : spec.type <;> simp only [standing, kind, whole, none, nothing] <;> simp

theorem standing_snoc (kept : (x.clear && !spec.flags.neverClear) = false) :
    spec.standing (samples ++ [x]) =
      match spec.type with
      | .counter => spec.standing samples + if spec.flags.clearOnRead then x.value
          else (x.value - latest 0 samples) &&& x.mask
      | .flag => if x.value = 0 then 0 else 1
      | .gauge => x.value := by
  have same : spec.resets (samples ++ [x]) = spec.resets samples := by
    rw [resets_snoc, if_neg (by simp [kept])]
  have inside := spec.resets_le samples
  have drops : (samples ++ [x]).drop (spec.resets samples)
      = samples.drop (spec.resets samples) ++ [x] := List.drop_append_of_le_length inside
  cases kind : spec.type with
  | counter =>
    have gained := inside.trans (spec.gains_length 0 samples).ge
    simp only [standing, kind, same]
    rw [gains_snoc, List.drop_append_of_le_length gained]
    simp [UInt64.add_assoc]
  | flag => simp [standing, kind, same, drops]
  | gauge => simp [standing, kind, same, drops]

end MetricSpec

/-- An element that has taken these samples. -/
structure Element.Stands (spec : MetricSpec) (samples : List Metric.Sample) (e : Element) :
    Prop where
  value : e.value = spec.standing samples
  last : spec.type = .counter → spec.flags.clearOnRead = false →
    e.last = MetricSpec.latest 0 samples

namespace Element.Stands

variable {spec : MetricSpec} {samples : List Metric.Sample} {e d : Element}

theorem start (spec : MetricSpec) : Stands spec [] (.ofInit spec.init) :=
  ⟨spec.standing_nil.symm, fun _ _ => rfl⟩

theorem congr (h : Stands spec samples e) (value : d.value = e.value) (last : d.last = e.last) :
    Stands spec samples d :=
  ⟨value.trans h.value, fun counter plain => last.trans (h.last counter plain)⟩

theorem step (h : Stands spec samples e) (x : Metric.Sample) :
    Stands spec (samples ++ [x]) (e.apply spec x.value x.mask x.clear) := by
  constructor
  · cases reset : x.clear && !spec.flags.neverClear with
    | true =>
      rw [MetricSpec.standing_reset reset]
      cases kind : spec.type <;> simp [Element.apply, kind, reset]
    | false =>
      rw [MetricSpec.standing_snoc reset]
      cases kind : spec.type with
      | counter =>
        have gained : increase spec e.last x.value x.mask = if spec.flags.clearOnRead then x.value
            else (x.value - MetricSpec.latest 0 samples) &&& x.mask := by
          cases resetting : spec.flags.clearOnRead with
          | true => simp [increase, resetting]
          | false => simp [increase, resetting, h.last kind resetting]
        simp [Element.apply, kind, reset, gained, h.value]
      | flag => simp [Element.apply, kind, reset]
      | gauge => simp [Element.apply, kind, reset]
  · intro counter plain
    simp [Element.apply, counter, plain]

end Element.Stands

end Telemetry
