import Telemetry.Proofs.Histories
import Telemetry.Proofs.Recording

/-! The protocol of driver hooks. The calls on the driver of a block are attachments, each with its
passes, each followed by its detachment; a pass latches scratch that is all zeros, reads and
converts metric by metric, and releases. What a hook leaves in scratch the next ones of the pass get
to see. -/
namespace Telemetry

variable {δ : Type}

/-- The calls that sample metrics of these specifications, from the scratch that they find to the one
that they leave. The elements have the given raw values after the pass. -/
inductive Sampling : List MetricSpec → List (List UInt64) → List UInt8 → List Call → List UInt8 → Prop
  | nil {scratch : List UInt8} : Sampling [] [] scratch [] scratch
  | cons {spec : MetricSpec} {specs : List MetricSpec} {raws : List UInt64}
      {rest : List (List UInt64)} {scratch left last : List UInt8} {calls : List Call} :
      raws.length = spec.elementCount → left.length = scratch.length →
      Sampling specs rest left calls last →
      Sampling (spec :: specs) (raws :: rest) scratch
        (.read spec (List.replicate spec.elementCount 0) scratch left ::
          (raws.map (.convert spec · left) ++ calls)) last

/-- The calls of one pass over a block with this much scratch and these metrics. -/
def IsPass (size : Nat) (specs : List MetricSpec) (raws : List (List UInt64)) (calls : List Call) :
    Prop :=
  ∃ left last sampling, left.length = size ∧ Sampling specs raws left sampling last ∧
    calls = .latch (List.replicate size 0) left :: (sampling ++ [.release last])

/-- The calls on the driver of a block, whether it is attached after them, and the raw values that
its elements have then. -/
inductive Protocol (b : BlockSpec δ) : Bool → List (List UInt64) → List Call → Prop
  | start : Protocol b false (b.metrics.map fun m => List.replicate m.elementCount m.init) []
  | attach {raws : List (List UInt64)} {calls : List Call} :
      Protocol b false raws calls → Protocol b true raws (calls ++ [.attach b.name])
  | pass {raws raws' : List (List UInt64)} {calls more : List Call} :
      Protocol b true raws calls → IsPass b.scratchSize b.metrics raws' more →
      Protocol b true raws' (calls ++ more)
  | detach {raws : List (List UInt64)} {calls : List Call} :
      Protocol b true raws calls → Protocol b false raws (calls ++ [.detach b.name])

theorem Protocol.ended {b : BlockSpec δ} {raws : List (List UInt64)} {calls : List Call}
    (h : Protocol b false raws calls) :
    calls = [] ∨ ∃ earlier, calls = earlier ++ [.detach b.name] := by
  cases h with
  | start => exact .inl rfl
  | detach => exact .inr ⟨_, rfl⟩

namespace Block

def raws (b : Block δ) : List (List UInt64) := b.metrics.map fun m => m.elements.map (·.value)

theorem plain_raws (b : Block δ) : b.plain.raws = b.raws := by
  simp only [raws, plain, List.map_map]
  exact List.map_congr_left fun m _ => List.map_map

structure Keeps (spec : BlockSpec δ) (attached : Bool) (b : Block (Recorded δ)) : Prop where
  name : b.name = spec.name
  size : b.scratchSize = spec.scratchSize
  metrics : b.metrics.map (fun m => (m.spec, m.elements.length)) =
    spec.metrics.map fun m => (m, m.elementCount)
  driver : b.driver.isSome = spec.driver.isSome
  calls : ∀ r, b.driver = some r → Protocol spec attached b.raws r.calls

variable [Driver δ] {env : Surroundings} {clear : Bool} {name : String} {window : Option Nat}

theorem publish_calls (spec : MetricSpec) (e : Element) (s : PassState (Recorded δ))
    {r : Recorded δ} (driver : s.driver = some r) :
    ∃ r', (publish spec e s).2.driver = some r' ∧
      r'.calls = r.calls ++ [.convert spec e.value s.scratch] ∧
      (publish spec e s).2.scratch = s.scratch ∧ (publish spec e s).1.value = e.value := by
  simp only [publish, driver]
  exact ⟨_, rfl, rfl, trivial, trivial⟩

theorem applySamples_calls (spec : MetricSpec) (mask : UInt64) (clear : Bool) {es : List Element}
    {values : List UInt64} (sized : values.length = es.length) (s : PassState (Recorded δ))
    {r : Recorded δ} (driver : s.driver = some r) :
    let done := applySamples spec mask clear es values s
    ∃ r', done.2.driver = some r' ∧ done.2.scratch = s.scratch ∧
      r'.calls = r.calls ++ (done.1.map (·.value)).map (.convert spec · s.scratch) := by
  induction es generalizing values s r with
  | nil => exact ⟨r, driver, rfl, (List.append_nil _).symm⟩
  | cons e es ih =>
    cases values with
    | nil => cases sized
    | cons x values =>
      obtain ⟨r', told, calls, scratch, value⟩ :=
        publish_calls spec (e.apply spec x mask clear) s driver
      obtain ⟨r'', done, kept, later⟩ := ih (Nat.succ.inj sized) _ told
      refine ⟨r'', done, kept.trans scratch, ?_⟩
      rw [later, calls, scratch]
      simp [applySamples, value]

theorem readMetric_calls (env : Surroundings) (name : String) (window : Option Nat) (m : Metric)
    {s : PassState (Recorded δ)} {r : Recorded δ} (driver : s.driver = some r) :
    let t := (readMetric env name window m s).2
    ∃ r', t.driver = some r' ∧ t.scratch.length = s.scratch.length ∧
      r'.calls = r.calls ++
        [.read m.spec (List.replicate m.elements.length 0) s.scratch t.scratch] := by
  simp only [readMetric, driver]
  split
  all_goals exact ⟨_, rfl, Register.overlay_length _ _, rfl⟩

theorem sampleMetric_calls {m n : Metric} {s t : PassState (Recorded δ)} {r : Recorded δ}
    (done : sampleMetric env name window clear m s = (.ok n, t)) (driver : s.driver = some r) :
    ∃ r', t.driver = some r' ∧ t.scratch.length = s.scratch.length ∧
      r'.calls = r.calls ++
        .read m.spec (List.replicate m.elements.length 0) s.scratch t.scratch ::
          (n.elements.map (·.value)).map (.convert m.spec · t.scratch) := by
  obtain ⟨r', asked, size, calls⟩ := readMetric_calls env name window m driver
  cases read : readMetric env name window m s with | mk result u =>
  rw [read] at asked size calls
  cases result with
  | error f =>
    simp only [sampleMetric, read] at done
    cases done
  | ok reading =>
    simp only [sampleMetric, read] at done
    cases done
    obtain ⟨r'', told, kept, converted⟩ :=
      applySamples_calls m.spec reading.2 clear (readMetric_length read) u asked
    refine ⟨r'', told, by rw [kept, size], ?_⟩
    rw [converted, calls, kept, List.append_assoc]
    rfl

theorem sweep_calls {ms ns : List Metric} {s t : PassState (Recorded δ)} {r : Recorded δ}
    (done : sweep (sampleMetric env name window clear) ms s = (none, ns, t))
    (driver : s.driver = some r) (sized : ∀ m ∈ ms, m.elements.length = m.spec.elementCount) :
    ∃ r' sampling, t.driver = some r' ∧ r'.calls = r.calls ++ sampling ∧
      Sampling (ms.map (·.spec)) (ns.map fun n => n.elements.map (·.value)) s.scratch sampling
        t.scratch := by
  induction ms generalizing s r ns with
  | nil =>
    cases done
    exact ⟨r, [], driver, (List.append_nil _).symm, .nil⟩
  | cons m rest ih =>
    unfold sweep at done
    cases here : sampleMetric env name window clear m s with | mk result u =>
    cases result with
    | error f =>
      simp only [here] at done
      cases done
    | ok n =>
      obtain ⟨r', told, size, calls⟩ := sampleMetric_calls here driver
      cases later : sweep (sampleMetric env name window clear) rest u with | mk fault after =>
      simp only [here, later] at done
      cases done
      obtain ⟨r'', sampling, ended, more, sampled⟩ :=
        ih later told fun m member => sized m (List.mem_cons_of_mem _ member)
      have count := sized m List.mem_cons_self
      have length := (Prod.mk.inj (sampleMetric_size here)).2
      refine ⟨r'', _, ended, by rw [more, calls, List.append_assoc], ?_⟩
      rw [count]
      exact .cons (by rw [List.length_map, length, count]) size sampled

theorem pass_calls {b c : Block (Recorded δ)} {u v : Shared} {r : Recorded δ}
    (done : b.pass env clear u = (none, c, v)) (driver : b.driver = some r)
    (sized : ∀ m ∈ b.metrics, m.elements.length = m.spec.elementCount) :
    ∃ r' more, c.driver = some r' ∧ r'.calls = r.calls ++ more ∧
      IsPass b.scratchSize (b.metrics.map (·.spec)) c.raws more := by
  rw [pass_eq] at done
  have latched : ∃ r', (b.latched clear u).driver = some r' ∧
      (b.latched clear u).scratch.length = b.scratchSize ∧
      r'.calls = r.calls ++
        [.latch (List.replicate b.scratchSize 0) (b.latched clear u).scratch] := by
    refine ⟨_, by rw [Block.latched, driver]; rfl, ?_, ?_⟩
    · rw [Block.latched, Register.overlay_length, List.length_replicate]
    · simp only [Block.latched, driver]
      rfl
  obtain ⟨r', told, size, first⟩ := latched
  cases swept : sweep (sampleMetric env b.name b.window clear) b.metrics (b.latched clear u) with
  | mk fault rest =>
  obtain ⟨ns, state⟩ := rest
  rw [swept] at done
  cases fault with
  | some f => cases done
  | none =>
    cases done
    obtain ⟨r'', sampling, ended, more, sampled⟩ := sweep_calls swept told sized
    refine ⟨_, _, by rw [ended]; rfl, ?_, _, _, sampling, size, sampled, rfl⟩
    change r''.calls ++ [_] = _
    rw [more, first]
    simp

namespace Keeps

variable {spec : BlockSpec δ} {attached : Bool} {b c : Block (Recorded δ)}

omit [Driver δ] in
theorem alloc (made : Block.alloc spec.recorded = .ok b) : b.Keeps spec false := by
  obtain ⟨metrics, each, rfl⟩ := Block.alloc_ok made
  have made : metrics =
      spec.metrics.map fun m => ⟨m, List.replicate m.elementCount (.ofInit m.init), []⟩ := by
    rw [← List.forall₂_eq_eq_eq]
    exact List.forall₂_map_right_iff.mpr (each.flip.imp fun _ _ => Metric.alloc_ok)
  subst made
  refine ⟨rfl, rfl, ?_, Option.isSome_map, ?_⟩
  · simp
  · intro r there
    obtain ⟨d, -, rfl⟩ := Option.map_eq_some_iff.mp there
    simpa [raws, Recorded.fresh, Element.ofInit, Function.comp_def] using Protocol.start (b := spec)

omit [Driver δ] in
/-- What leaves the content of a block as it is only has to call its driver in time. -/
theorem called {also : Bool} (h : b.Keeps spec attached)
    (content : c.plain = { b.plain with driver := c.driver })
    (driver : c.driver.isSome = b.driver.isSome)
    (calls : ∀ r, c.driver = some r → Protocol spec also b.raws r.calls) : c.Keeps spec also := by
  have sizes (d : Block (Recorded δ)) : d.plain.metrics.map (fun m => (m.spec, m.elements.length)) =
      d.metrics.map fun m => (m.spec, m.elements.length) := by
    simp only [plain, List.map_map]
    exact List.map_congr_left fun m _ => congrArg _ (List.length_map _)
  have raws : c.raws = b.raws := by
    rw [← c.plain_raws, ← b.plain_raws, content]
    rfl
  refine ⟨?_, ?_, ?_, driver.trans h.driver, raws ▸ calls⟩
  · exact (congrArg (·.name) content).trans h.name
  · exact (congrArg (·.scratchSize) content).trans h.size
  · rw [← sizes, congrArg (·.metrics) content, ← h.metrics]
    exact sizes b

theorem introduced {p : Block (Recorded δ)} (h : p.plain.Keeps spec false) :
    p.introduced.Keeps spec true := by
  refine h.called p.introduced_carried.content p.introduced_carried.driver.isSome ?_
  intro r there
  cases driver : p.driver with
  | none => simp [Block.introduced, driver, Driver.ask] at there
  | some q =>
    have before := h.calls q driver
    simp only [Block.introduced, driver, Driver.ask] at there
    cases there
    have name : p.name = spec.name := h.name
    exact name ▸ .attach before

theorem left (h : b.Keeps spec true) : b.left.Keeps spec false := by
  refine h.called b.left_carried.content b.left_carried.driver.isSome ?_
  intro r there
  cases driver : b.driver with
  | none => simp [Block.left, driver, Driver.ask] at there
  | some q =>
    simp only [Block.left, driver, Driver.ask] at there
    cases there
    exact h.name ▸ .detach (h.calls q driver)

theorem pass {u v : Shared} (h : b.Keeps spec true) (done : b.pass env clear u = (none, c, v)) :
    c.Keeps spec true := by
  have passed := pass_passed done
  obtain ⟨size, metrics⟩ := pass_sizes done
  have specs := congrArg (List.map Prod.fst) h.metrics
  simp only [List.map_map, Function.comp_def, List.map_id'] at specs
  refine ⟨passed.name.trans h.name, size.trans h.size, metrics.trans h.metrics,
    passed.driver.isSome.trans h.driver, ?_⟩
  intro r there
  obtain ⟨q, driver⟩ := Option.isSome_iff_exists.mp
    (passed.driver.isSome.symm.trans (congrArg Option.isSome there))
  have sized (m : Metric) (member : m ∈ b.metrics) : m.elements.length = m.spec.elementCount := by
    have listed := List.mem_map_of_mem (f := fun m => (m.spec, m.elements.length)) member
    rw [h.metrics] at listed
    obtain ⟨ms, -, same⟩ := List.mem_map.mp listed
    obtain ⟨rfl, count⟩ := Prod.mk.inj same
    exact count.symm
  obtain ⟨r', more, told, calls, whole⟩ := pass_calls done driver sized
  cases there.symm.trans told
  rw [calls]
  exact .pass (h.calls q driver) (h.size ▸ specs ▸ whole)

end Keeps

end Block

end Telemetry
