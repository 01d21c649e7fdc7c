import Telemetry.Proofs.Carried
import Telemetry.Proofs.Counting

/-! What a pass does to the elements of a metric that is read directly. Each takes the sample of its
own register, and the driver of the block moves on through its hooks, none of which can get in
between. -/
namespace Telemetry

structure Pass where
  env : Surroundings
  clear : Bool

def Driver.Declines {δ : Type} [Driver δ] (spec : MetricSpec) (d : Option δ) : Prop :=
  ∀ e, Leads d e → ∀ values scratch,
    (ask e (read spec values scratch) ⟨false, [], []⟩).result.supplied = false

theorem Driver.Declines.leads {δ : Type} [Driver δ] {spec : MetricSpec} {d e : Option δ}
    (h : Declines spec d) (led : Leads d e) : Declines spec e :=
  fun f later => h f (led.trans later)

theorem Driver.declines_none {δ : Type} [Driver δ] (spec : MetricSpec) :
    Declines spec (none : Option δ) := by
  intro e led values scratch
  have missing : e = none := by simpa using led.isSome
  rw [missing]
  rfl

namespace Block

def decoded (env : Surroundings) (name : String) (window : Option Nat) (spec : MetricSpec)
    (k : Nat) : Except Fault UInt64 :=
  match window.bind (env.windows[·]?) with
  | none => .error (.noWindow spec.name name)
  | some w => readElement w name spec k

variable {spec : MetricSpec} {env : Surroundings} {clear : Bool} {mask : UInt64} {name : String}
  {window : Option Nat}

theorem readSamples_decoded {count : Nat} {values : List UInt64}
    (read : readSamples env name window spec count = .ok (values, mask)) :
    spec.field.valueMask = .ok mask ∧ ∀ k < count, ∃ x, values[k]? = some x ∧
      decoded env name window spec k = .ok x := by
  obtain ⟨w, found, word, each⟩ := readSamples_ok read
  refine ⟨word, ?_⟩
  intro k below
  obtain ⟨x, sampled, here⟩ := forall₂_getElem? each (List.getElem?_range below)
  refine ⟨x, sampled, ?_⟩
  simpa only [decoded, found] using here

variable {δ : Type} [Driver δ]

theorem publish_leads (spec : MetricSpec) (e : Element) (s : PassState δ) :
    Driver.Leads s.driver (publish spec e s).2.driver :=
  .convert spec e.value s.scratch (.ofWord e.value) .refl

theorem applySamples_leads (spec : MetricSpec) (mask : UInt64) (clear : Bool) (es : List Element)
    (values : List UInt64) (s : PassState δ) :
    Driver.Leads s.driver (applySamples spec mask clear es values s).2.driver := by
  induction es generalizing values s with
  | nil => exact .refl
  | cons e es ih =>
    cases values with
    | nil => exact .refl
    | cons x values => exact (publish_leads spec _ s).trans (ih values _)

theorem applySamples_getElem {es : List Element} {values : List UInt64} {k : Nat} {e : Element}
    {x : UInt64} (s : PassState δ) (there : es[k]? = some e) (sampled : values[k]? = some x) :
    ∃ d, (applySamples spec mask clear es values s).1[k]? = some d ∧
      d.value = (e.apply spec x mask clear).value ∧ d.last = (e.apply spec x mask clear).last := by
  induction es generalizing values s k with
  | nil => cases there
  | cons f es ih =>
    cases values with
    | nil => cases sampled
    | cons y values =>
      cases k with
      | zero =>
        cases there
        cases sampled
        exact ⟨_, rfl, rfl, rfl⟩
      | succ k => exact ih _ there sampled

structure Takes (env : Surroundings) (name : String) (window : Option Nat) (clear : Bool)
    (m n : Metric) : Prop where
  taken : ∃ mask, m.spec.field.valueMask = .ok mask ∧
    ∀ k e, m.elements[k]? = some e → ∃ x d, decoded env name window m.spec k = .ok x ∧
      n.elements[k]? = some d ∧ d.value = (e.apply m.spec x mask clear).value ∧
      d.last = (e.apply m.spec x mask clear).last

theorem sampleMetric_takes {m n : Metric} {s t : PassState δ}
    (done : sampleMetric env name window clear m s = (.ok n, t)) :
    Driver.Leads s.driver t.driver ∧ n.spec = m.spec ∧
      (Driver.Declines m.spec s.driver → Takes env name window clear m n) := by
  let zeros := List.replicate m.elements.length (0 : UInt64)
  let reply := Driver.ask s.driver (Driver.read m.spec zeros s.scratch) ⟨false, [], []⟩
  have asked : Driver.Leads s.driver reply.driver := .read m.spec zeros s.scratch _ .refl
  simp only [sampleMetric] at done
  split at done
  · cases done
  · rename_i values mask u read
    cases done
    have driver : u.driver = reply.driver := by
      simp only [readMetric] at read
      split at read <;> exact (congrArg (·.2.driver) read).symm
    refine ⟨?_, rfl, ?_⟩
    · exact (driver ▸ asked).trans (applySamples_leads _ _ _ _ _ _)
    · intro declines
      have silent : reply.result.supplied = false := declines s.driver .refl zeros s.scratch
      have direct : readSamples env name window m.spec m.elements.length = .ok (values, mask) := by
        simp only [readMetric] at read
        split at read
        · rename_i supplied
          exact absurd supplied (by simpa [reply] using silent)
        · exact (Prod.mk.inj read).1
      obtain ⟨word, each⟩ := readSamples_decoded direct
      refine ⟨mask, word, ?_⟩
      intro k e there
      obtain ⟨x, sampled, read⟩ := each k (List.getElem?_eq_some_iff.mp there).1
      obtain ⟨d, placed, value, last⟩ := applySamples_getElem u there sampled
      exact ⟨x, d, read, placed, value, last⟩

structure Passed (p : Pass) (b c : Block δ) : Prop where
  name : c.name = b.name
  window : c.window = b.window
  driver : Driver.Leads b.driver c.driver
  metrics : List.Forall₂ (fun m n : Metric => n.spec = m.spec ∧
    (Driver.Declines m.spec b.driver → Takes p.env b.name b.window p.clear m n)) b.metrics c.metrics

theorem pass_passed {b c : Block δ} {s t : Shared} (done : b.pass env clear s = (none, c, t)) :
    b.Passed ⟨env, clear⟩ c := by
  have start : Driver.Leads b.driver (b.latched clear s).driver := .latch _ _ .refl
  rw [pass_eq] at done
  split at done
  · cases done
  · rename_i metrics u swept
    cases done
    obtain ⟨led, metrics⟩ := sweep_forall₂ (fun state => Driver.Leads b.driver state.driver)
      (fun m n : Metric => n.spec = m.spec ∧
        (Driver.Declines m.spec b.driver → Takes env b.name b.window clear m n))
      (fun m state n after led here => by
        obtain ⟨moved, spec, takes⟩ := sampleMetric_takes here
        exact ⟨led.trans moved, spec, fun declines => takes (declines.leads led)⟩)
      start swept
    exact ⟨rfl, rfl, .release u.scratch [] led, metrics⟩

theorem applySamples_length (spec : MetricSpec) (mask : UInt64) (es : List Element)
    (values : List UInt64) (s : PassState δ) :
    (applySamples spec mask clear es values s).1.length = es.length := by
  induction es generalizing values s with
  | nil => rfl
  | cons e es ih =>
    cases values with
    | nil => rfl
    | cons x values => exact congrArg Nat.succ (ih values _)

theorem sampleMetric_size {m n : Metric} {s t : PassState δ}
    (done : sampleMetric env name window clear m s = (.ok n, t)) :
    (n.spec, n.elements.length) = (m.spec, m.elements.length) := by
  simp only [sampleMetric] at done
  split at done
  · cases done
  · cases done
    simp only [applySamples_length]

theorem readMetric_leads (env : Surroundings) (name : String) (window : Option Nat) (m : Metric)
    (s : PassState δ) : Driver.Leads s.driver (readMetric env name window m s).2.driver := by
  have asked := Driver.Leads.read m.spec (List.replicate m.elements.length 0) s.scratch
    ⟨false, [], []⟩ (.refl (d := s.driver))
  simp only [readMetric]
  split <;> exact asked

theorem sampleMetric_leads {m : Metric} {s t : PassState δ} {result : Except Fault Metric}
    (done : sampleMetric env name window clear m s = (result, t)) :
    Driver.Leads s.driver t.driver := by
  have asked := readMetric_leads env name window m s
  unfold sampleMetric at done
  split at done
  all_goals
    rename_i read
    rw [read] at asked
    cases done
  · exact asked
  · exact asked.trans (applySamples_leads _ _ _ _ _ _)

/-- What a pass does, whether a fault cuts it short or not: some metrics are sampled, and the others
are left as they were. -/
structure Visited (fault : Option Fault) (R : Metric → Metric → Prop) (b c : Block δ) : Prop where
  name : c.name = b.name
  size : c.scratchSize = b.scratchSize
  driver : Driver.Leads b.driver c.driver
  whole : fault = none → c.lastUpdate.isSome
  short : fault ≠ none → c.lastUpdate = b.lastUpdate
  metrics : List.Forall₂ (fun m n => R m n ∨ fault ≠ none ∧ n = m) b.metrics c.metrics

theorem pass_visited {R : Metric → Metric → Prop} {b c : Block δ} {s t : Shared}
    {fault : Option Fault}
    (sampled : ∀ m u n v, Driver.Leads b.driver u.driver →
      sampleMetric env b.name b.window clear m u = (.ok n, v) → R m n)
    (done : b.pass env clear s = (fault, c, t)) : b.Visited fault R c := by
  have start : Driver.Leads b.driver (b.latched clear s).driver := .latch _ _ .refl
  rw [pass_eq] at done
  cases swept : sweep (sampleMetric env b.name b.window clear) b.metrics (b.latched clear s) with
  | mk fault' rest =>
  obtain ⟨metrics, u⟩ := rest
  obtain ⟨led, each⟩ := sweep_each (fun state => Driver.Leads b.driver state.driver) R
    (fun _ _ _ _ led here => led.trans (sampleMetric_leads here))
    (fun m state n after led here =>
      ⟨led.trans (sampleMetric_leads here), sampled m state n after led here⟩)
    start swept
  rw [swept] at done
  cases fault' with
  | some f =>
    cases done
    exact ⟨rfl, rfl, led, fun none => (by cases none), fun _ => rfl, each⟩
  | none =>
    cases done
    exact ⟨rfl, rfl, .release u.scratch [] led, fun _ => rfl, fun some => absurd rfl some, each⟩

theorem pass_sizes {b c : Block δ} {s t : Shared} {fault : Option Fault}
    (done : b.pass env clear s = (fault, c, t)) :
    c.scratchSize = b.scratchSize ∧ c.metrics.map (fun m => (m.spec, m.elements.length)) =
      b.metrics.map fun m => (m.spec, m.elements.length) := by
  have visited := pass_visited (R := fun m n : Metric =>
      (n.spec, n.elements.length) = (m.spec, m.elements.length))
    (fun m u n v _ here => sampleMetric_size here) done
  refine ⟨visited.size, (forall₂_map_eq (visited.metrics.imp ?_)).symm⟩
  rintro m n (sampled | ⟨-, rfl⟩)
  · exact sampled.symm
  · rfl

theorem pass_member {b c : Block δ} {s t : Shared} {fault : Option Fault} {n : Metric}
    (done : b.pass env clear s = (fault, c, t)) (member : n ∈ c.metrics) :
    ∃ m ∈ b.metrics, m.spec = n.spec ∧ m.elements.length = n.elements.length := by
  have listed := List.mem_map_of_mem (f := fun m : Metric => (m.spec, m.elements.length)) member
  rw [(pass_sizes done).2] at listed
  obtain ⟨m, there, same⟩ := List.mem_map.mp listed
  obtain ⟨spec, length⟩ := Prod.mk.inj same
  exact ⟨m, there, spec, length⟩

theorem pass_specs {b c : Block δ} {s t : Shared} {fault : Option Fault}
    (done : b.pass env clear s = (fault, c, t)) :
    c.name = b.name ∧ c.metrics.map (·.spec) = b.metrics.map (·.spec) := by
  refine ⟨?_, ?_⟩
  · have visited := pass_visited (R := fun _ _ => True) (fun _ _ _ _ _ _ => trivial) done
    exact visited.name
  · simpa [Function.comp_def] using congrArg (List.map Prod.fst) (pass_sizes done).2

end Block

theorem Zone.pass_blocks {δ : Type} [Driver δ] {env : Surroundings} {clear : Bool} {z w : Zone δ}
    {s t : Shared} (on : z.enabled = true) (done : z.pass env clear s = (none, w, t)) :
    w.handle = z.handle ∧
      List.Forall₂ (fun b c => ∃ u v, b.pass env clear u = (none, c, v)) z.blocks w.blocks := by
  rw [pass, if_pos on] at done
  cases whole : passOver (Block.pass env clear) z.blocks s with | mk fault rest =>
  rw [whole] at done
  cases done
  refine ⟨rfl, ?_⟩
  exact (passOver_forall₂ (fun _ => True) (fun b c => ∃ u v, b.pass env clear u = (none, c, v))
    (fun _ u _ v _ here => ⟨trivial, u, v, here⟩) trivial whole).2

theorem Zone.pass_passed {δ : Type} [Driver δ] {env : Surroundings} {clear : Bool} {z w : Zone δ}
    {s t : Shared} (on : z.enabled = true) (done : z.pass env clear s = (none, w, t)) :
    w.handle = z.handle ∧ List.Forall₂ (Block.Passed ⟨env, clear⟩) z.blocks w.blocks := by
  obtain ⟨handle, blocks⟩ := pass_blocks on done
  refine ⟨handle, blocks.imp ?_⟩
  rintro b c ⟨u, v, here⟩
  exact Block.pass_passed here

end Telemetry
