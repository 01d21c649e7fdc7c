import Telemetry.Proofs.Counters
import Telemetry.Proofs.Standing

/-! What a pass reads. The readings of a pass depend on the block, its driver and the surroundings
and on nothing that is shared, so they can be told without the passes that came before over other
blocks; and they are what the elements take. -/
namespace Telemetry

variable {δ : Type}

def PassState.Alike (s t : PassState δ) : Prop := t.driver = s.driver ∧ t.scratch = s.scratch

namespace Block

variable [Driver δ] {env : Surroundings} {clear : Bool} {name : String} {window : Option Nat}
  {s t : PassState δ}

theorem readMetric_alike (env : Surroundings) (name : String) (window : Option Nat) (m : Metric)
    (alike : s.Alike t) :
    (readMetric env name window m t).1 = (readMetric env name window m s).1 ∧
      (readMetric env name window m s).2.Alike (readMetric env name window m t).2 := by
  simp only [readMetric, alike.1, alike.2]
  split <;> exact ⟨rfl, rfl, rfl⟩

theorem applySamples_alike (spec : MetricSpec) (mask : UInt64) (es : List Element)
    (values : List UInt64) (alike : s.Alike t) :
    (applySamples spec mask clear es values s).2.Alike
      (applySamples spec mask clear es values t).2 := by
  induction es generalizing values s t with
  | nil => exact alike
  | cons e es ih =>
    cases values with
    | nil => exact alike
    | cons x values =>
      refine ih values ?_
      simp only [PassState.Alike, alike.1, alike.2, and_self]

def readings (env : Surroundings) (name : String) (window : Option Nat) (clear : Bool) :
    List Metric → PassState δ → List (List UInt64 × UInt64)
  | [], _ => []
  | m :: rest, s =>
    match readMetric env name window m s with
    | (.error _, _) => []
    | (.ok (values, mask), s) =>
      (values, mask) ::
        readings env name window clear rest (applySamples m.spec mask clear m.elements values s).2

theorem readings_alike (ms : List Metric) (alike : s.Alike t) :
    readings env name window clear ms t = readings env name window clear ms s := by
  induction ms generalizing s t with
  | nil => rfl
  | cons m rest ih =>
    obtain ⟨same, after⟩ := readMetric_alike env name window m alike
    unfold readings
    cases first : readMetric env name window m s with | mk result u =>
    cases second : readMetric env name window m t with | mk other v =>
    rw [first, second] at same after
    cases same
    cases result with
    | error f => rfl
    | ok reading =>
      exact congrArg _ (ih (applySamples_alike m.spec reading.2 m.elements reading.1 after))

theorem sweep_readings {ms ns : List Metric} {mi : Nat} {m : Metric}
    (done : sweep (sampleMetric env name window clear) ms s = (none, ns, t))
    (there : ms[mi]? = some m) :
    ∃ values mask n, (readings env name window clear ms s)[mi]? = some (values, mask) ∧
      ns[mi]? = some n ∧ ∀ (k : Nat) (e : Element), m.elements[k]? = some e →
        ∃ x d, values[k]? = some x ∧ n.elements[k]? = some d ∧
        d.value = (e.apply m.spec x mask clear).value ∧
        d.last = (e.apply m.spec x mask clear).last := by
  induction ms generalizing mi s ns with
  | nil => cases there
  | cons first rest ih =>
    unfold sweep at done
    unfold readings
    cases read : readMetric env name window first s with | mk result u =>
    cases result with
    | error f =>
      simp only [sampleMetric, read] at done
      cases done
    | ok reading =>
      obtain ⟨values, mask⟩ := reading
      simp only [sampleMetric, read] at done ⊢
      cases later : sweep (sampleMetric env name window clear) rest
        (applySamples first.spec mask clear first.elements values u).2 with | mk fault after =>
      simp only [later] at done
      cases done
      cases mi with
      | succ mi => exact ih later there
      | zero =>
        cases there
        refine ⟨values, mask, _, rfl, rfl, ?_⟩
        intro k e inside
        have below := (List.getElem?_eq_some_iff.mp inside).1
        rw [← readMetric_length read] at below
        obtain ⟨d, found, moved⟩ :=
          applySamples_getElem u inside (List.getElem?_eq_getElem below)
        exact ⟨_, d, List.getElem?_eq_getElem below, found, moved⟩

/-- What a pass finds for an element of the block. -/
def sample? (p : Pass) (b : Block δ) (s : Shared) (mi k : Nat) : Option Metric.Sample :=
  ((readings p.env b.name b.window p.clear b.metrics (b.latched p.clear s))[mi]?).bind
    fun (values, mask) => values[k]?.map fun x => ⟨x, mask, p.clear⟩

theorem pass_sample? {b c : Block δ} {u v : Shared} {mi k : Nat} {m : Metric} {e : Element}
    (done : b.pass env clear u = (none, c, v)) (placed : b.metrics[mi]? = some m)
    (inside : m.elements[k]? = some e) (s : Shared) :
    ∃ x n d, b.sample? ⟨env, clear⟩ s mi k = some x ∧ x.clear = clear ∧ c.metrics[mi]? = some n ∧
      n.elements[k]? = some d ∧ d.value = (e.apply m.spec x.value x.mask x.clear).value ∧
      d.last = (e.apply m.spec x.value x.mask x.clear).last := by
  rw [pass_eq] at done
  cases swept : sweep (sampleMetric env b.name b.window clear) b.metrics (b.latched clear u) with
  | mk fault rest =>
  obtain ⟨ns, state⟩ := rest
  rw [swept] at done
  cases fault with
  | some f => cases done
  | none =>
    cases done
    obtain ⟨values, mask, n, read, there, each⟩ := sweep_readings swept placed
    obtain ⟨x, d, sampled, found, value, last⟩ := each k e inside
    have alike : (b.latched clear u).Alike (b.latched clear s) := ⟨rfl, rfl⟩
    refine ⟨⟨x, mask, clear⟩, n, d, ?_, rfl, there, found, value, last⟩
    rw [sample?, readings_alike b.metrics alike, read]
    simp [sampled]

end Block

def Zone.sample? [Driver δ] (p : Pass) (z : Zone δ) (s : Shared) (bi mi k : Nat) :
    Option Metric.Sample :=
  z.blocks[bi]?.bind fun b => b.sample? p s mi k

namespace Element.At

variable [Driver δ] {bs : BlockSpec δ} {ms : MetricSpec} {bi mi k : Nat} {z w : Zone δ}
  {e : Element} {ps : List Pass} {samples : List Metric.Sample} {place place' : Place}

theorem sampled (h : At bs ms bi mi k z e) {y : Zone δ} {p : Pass} {u v : Shared}
    (on : y.enabled = true) (same : y.blocks = z.blocks)
    (done : y.pass p.env p.clear u = (none, w, v)) (s : Shared) :
    ∃ d x, At bs ms bi mi k w d ∧ z.sample? p s bi mi k = some x ∧ x.clear = p.clear ∧
      d.value = (e.apply ms x.value x.mask x.clear).value ∧
      d.last = (e.apply ms x.value x.mask x.clear).last := by
  obtain ⟨b, m, there, placed, inside, name, window, led, spec⟩ := h
  rw [← same] at there
  obtain ⟨c, here, u, v, passed⟩ := forall₂_getElem? (Zone.pass_blocks on done).2 there
  obtain ⟨x, n, d, found, clears, after, element, value, last⟩ :=
    Block.pass_sample? passed placed inside s
  have moves := Block.pass_passed passed
  obtain ⟨o, again, kept, -⟩ := forall₂_getElem? moves.metrics placed
  cases after.symm.trans again
  subst spec
  refine ⟨d, x, ?_, ?_, clears, value, last⟩
  · exact ⟨c, n, here, after, element, moves.name.trans name, moves.window.trans window,
      led.trans moves.driver, kept⟩
  · rw [Zone.sample?, ← same, there]
    exact found

/-- On its way an element takes one sample for each pass over its zone. -/
theorem turns (h : At bs ms bi mi k z e) (stands : e.Stands ms samples)
    (turns : z.Turns place ps place' w) (s : Shared) :
    ∃ d found, At bs ms bi mi k w d ∧ ps.filterMap (z.sample? · s bi mi k) = found ∧
      found.map (·.clear) = ps.map (·.clear) ∧ d.Stands ms (samples ++ found) := by
  cases ps with
  | nil =>
    obtain ⟨d, there, value, last⟩ := h.carried turns.carried
    exact ⟨d, [], there, rfl, rfl, (List.append_nil samples).symm ▸ stands.congr value last⟩
  | cons p ps =>
    cases turns with
    | takes treated =>
      cases treated with
      | passed p on same done =>
        obtain ⟨d, x, there, sampled, clears, value, last⟩ := h.sampled on same done s
        exact ⟨d, [x], there, by simp [sampled], by simp [clears],
          (stands.step x).congr value last⟩

end Element.At

end Telemetry
