import Telemetry.Proofs.Protocol
import Telemetry.Proofs.Readings

/-! A clear pass is a sampling pass and a reset. Both ask the same of the driver and of the
registers, conversions apart, and take the same samples, so baselines move alike; what a clear pass
leaves is what a sampling pass leaves with initial values put back. Hence a counter that has been
cleared does not move when the same samples are found again. -/
namespace Telemetry

open Register (overlay)

namespace Driver

variable {δ : Type} [Driver δ]

/-- Two states that a driver comes to by the same calls in passes, conversions apart. -/
inductive Matched (d : Option δ) : Option δ → Option δ → Prop
  | start : Matched d d d
  | latch {a b : Option δ} (scratch none : List UInt8) : Matched d a b →
      Matched d (ask a (latch scratch) none).driver (ask b (latch scratch) none).driver
  | release {a b : Option δ} (scratch none : List UInt8) : Matched d a b →
      Matched d (ask a (release scratch) none).driver (ask b (release scratch) none).driver
  | read {a b : Option δ} (spec : MetricSpec) (values : List UInt64) (scratch : List UInt8)
      (none : Reading) : Matched d a b →
      Matched d (ask a (read spec values scratch) none).driver
        (ask b (read spec values scratch) none).driver
  | left {a b : Option δ} (spec : MetricSpec) (raw : UInt64) (scratch : List UInt8)
      (none : Binary64) : Matched d a b → Matched d (ask a (convert spec raw scratch) none).driver b
  | right {a b : Option δ} (spec : MetricSpec) (raw : UInt64) (scratch : List UInt8)
      (none : Binary64) : Matched d a b → Matched d a (ask b (convert spec raw scratch) none).driver

theorem Matched.symm {d a b : Option δ} (h : Matched d a b) : Matched d b a := by
  induction h with
  | start => exact .start
  | latch scratch none _ ih => exact .latch scratch none ih
  | release scratch none _ ih => exact .release scratch none ih
  | read spec values scratch none _ ih => exact .read spec values scratch none ih
  | left spec raw scratch none _ ih => exact .right spec raw scratch none ih
  | right spec raw scratch none _ ih => exact .left spec raw scratch none ih

/-- A driver that converts by a function, and whose read hook cannot tell which conversions were
made. A latch comes before all conversions of its pass, and a release answers nothing. -/
structure ConvertsAside (f : MetricSpec → UInt64 → List UInt8 → Binary64) (d : Option δ) : Prop where
  converts : ∀ {a b : Option δ}, Matched d a b → ∀ spec raw scratch,
    (ask a (convert spec raw scratch) (.ofWord raw)).result = f spec raw scratch
  answers : ∀ {a b : Option δ}, Matched d a b → ∀ spec values scratch none,
    (ask b (read spec values scratch) none).result = (ask a (read spec values scratch) none).result

end Driver

/-! ### What a pass asks for -/

/-- What a pass asks of a driver, conversions apart, or of a register window. -/
inductive Request where
  | hook (call : Call)
  | load (offset : Except Overflow UInt64) (size : UInt64)

def Request.scratch? : Request → Option (List UInt8)
  | .hook (.read _ _ _ left) => some left
  | _ => none

def Request.call? : Request → Option Call
  | .hook call => some call
  | .load _ _ => none

def Call.isConversion : Call → Bool
  | .convert _ _ _ => true
  | _ => false

namespace Block

variable {δ : Type} [Driver δ]

def metricRequests (m : Metric) (s : PassState δ) : List Request :=
  let zeros := List.replicate m.elements.length 0
  let reply := Driver.ask s.driver (Driver.read m.spec zeros s.scratch) ⟨false, [], []⟩
  .hook (.read m.spec zeros s.scratch (overlay reply.result.scratch s.scratch)) ::
    if reply.result.supplied then []
    else (List.range m.elements.length).map fun i =>
      .load (m.spec.field.elementOffset (UInt64.ofNat i)) m.spec.field.size

def sweepRequests (env : Surroundings) (name : String) (window : Option Nat) (clear : Bool) :
    List Metric → PassState δ → List Request
  | [], s => [.hook (.release s.scratch)]
  | m :: rest, s =>
    metricRequests m s ++
      match sampleMetric env name window clear m s with
      | (.error _, _) => []
      | (.ok _, s) => sweepRequests env name window clear rest s

def requests (env : Surroundings) (clear : Bool) (b : Block δ) (s : Shared) : List Request :=
  let zeros := List.replicate b.scratchSize 0
  let start := b.latched clear s
  .hook (.latch zeros start.scratch) ::
    sweepRequests env b.name b.window clear b.metrics start

def sampled (env : Surroundings) (clear : Bool) (b : Block δ) (s : Shared) : List (List UInt64) :=
  (readings env b.name b.window clear b.metrics (b.latched clear s)).map (·.1)

variable {env : Surroundings} {name : String} {window : Option Nat} {clear : Bool}

theorem applySamples_scratch (spec : MetricSpec) (mask : UInt64) (clear : Bool) (es : List Element)
    (values : List UInt64) (s : PassState δ) :
    (applySamples spec mask clear es values s).2.scratch = s.scratch := by
  induction es generalizing values s with
  | nil => rfl
  | cons e es ih =>
    cases values with
    | nil => rfl
    | cons x values => exact ih values _

theorem sampleMetric_scratch {m n : Metric} {s t : PassState δ}
    (done : sampleMetric env name window clear m s = (.ok n, t)) :
    t.scratch = (readMetric env name window m s).2.scratch := by
  cases read : readMetric env name window m s with | mk result u =>
  simp only [sampleMetric, read] at done
  cases result with
  | error _ => cases done
  | ok reading =>
    cases done
    exact applySamples_scratch m.spec reading.2 clear m.elements reading.1 u

theorem metricRequests_scratch (env : Surroundings) (name : String) (window : Option Nat)
    (m : Metric) (s : PassState δ) :
    (metricRequests m s).filterMap Request.scratch?
      = [(readMetric env name window m s).2.scratch] := by
  simp only [metricRequests, readMetric]
  split
  · rfl
  · simp [Request.scratch?, List.filterMap_map, Function.comp_def]

theorem metricRequests_calls (env : Surroundings) (name : String) (window : Option Nat)
    (m : Metric) (s : PassState δ) :
    (metricRequests m s).filterMap Request.call? =
      [.read m.spec (List.replicate m.elements.length 0) s.scratch
        (readMetric env name window m s).2.scratch] := by
  simp only [metricRequests, readMetric]
  split
  · rfl
  · simp [Request.call?, List.filterMap_map, Function.comp_def]

theorem sweep_requests {ms ns : List Metric} {s t : PassState (Recorded δ)} {r : Recorded δ}
    (done : sweep (sampleMetric env name window clear) ms s = (none, ns, t))
    (driver : s.driver = some r) :
    ∃ r', t.driver = some r' ∧
      (r'.calls ++ [Call.release t.scratch]).filter (!·.isConversion) =
        r.calls.filter (!·.isConversion) ++
          (sweepRequests env name window clear ms s).filterMap Request.call? := by
  induction ms generalizing s r ns with
  | nil =>
    cases done
    exact ⟨r, driver, by rw [List.filter_append]; rfl⟩
  | cons m rest ih =>
    cases here : sampleMetric env name window clear m s with | mk result u =>
    simp only [sweep, here] at done
    cases result with
    | error _ => cases done
    | ok n =>
      obtain ⟨q, told, -, calls⟩ := sampleMetric_calls here driver
      cases later : sweep (sampleMetric env name window clear) rest u with | mk fault others =>
      simp only [later] at done
      cases done
      obtain ⟨r', ended, more⟩ := ih later told
      have conversions : ((n.elements.map (·.value)).map (Call.convert m.spec · u.scratch)).filter
          (!·.isConversion) = [] := by
        simp [Call.isConversion]
      refine ⟨r', ended, ?_⟩
      rw [more, calls, List.filter_append, List.filter_cons_of_pos rfl, conversions, sweepRequests,
        here, List.filterMap_append, metricRequests_calls env name window m s,
        sampleMetric_scratch here, List.append_assoc]

theorem pass_requests {b c : Block (Recorded δ)} {s t : Shared} {r : Recorded δ}
    (done : b.pass env clear s = (none, c, t)) (driver : b.driver = some r) :
    ∃ r', c.driver = some r' ∧ r'.calls.filter (!·.isConversion) =
      r.calls.filter (!·.isConversion) ++ (b.requests env clear s).filterMap Request.call? := by
  rw [pass_eq] at done
  have latched : ∃ q, (b.latched clear s).driver = some q ∧ q.calls = r.calls ++
      [.latch (List.replicate b.scratchSize 0) (b.latched clear s).scratch] := by
    refine ⟨_, by rw [Block.latched, driver]; rfl, ?_⟩
    simp only [Block.latched, driver]
    rfl
  obtain ⟨q, told, first⟩ := latched
  cases swept : sweep (sampleMetric env b.name b.window clear) b.metrics (b.latched clear s) with
  | mk fault rest =>
  obtain ⟨ns, state⟩ := rest
  rw [swept] at done
  cases fault with
  | some f => cases done
  | none =>
    cases done
    obtain ⟨r', ended, calls⟩ := sweep_requests swept told
    refine ⟨_, by rw [ended]; rfl, ?_⟩
    change (r'.calls ++ [_]).filter _ = _
    rw [calls, first, List.filter_append, List.append_assoc]
    rfl

end Block

/-! ### Resetting -/

namespace Element

/-- Puts the initial value back, and what is made of it, unless the metric is never cleared. -/
def reset (f : MetricSpec → UInt64 → List UInt8 → Binary64) (spec : MetricSpec)
    (scratch : List UInt8) (e : Element) : Element :=
  if spec.flags.neverClear then e
  else { e with value := spec.init, converted := f spec spec.init scratch }

def taken (f : MetricSpec → UInt64 → List UInt8 → Binary64) (spec : MetricSpec) (mask : UInt64)
    (clear : Bool) (scratch : List UInt8) (e : Element) (current : UInt64) : Element :=
  let d := e.apply spec current mask clear
  { d with converted := f spec d.value scratch }

variable {f : MetricSpec → UInt64 → List UInt8 → Binary64}

theorem taken_clear (spec : MetricSpec) (mask : UInt64) (scratch : List UInt8) (e : Element)
    (current : UInt64) :
    taken f spec mask true scratch e current
      = (taken f spec mask false scratch e current).reset f spec scratch := by
  cases kept : spec.flags.neverClear with
  | true => cases kind : spec.type <;> simp [taken, reset, apply, kind, kept]
  | false => cases kind : spec.type <;> simp [taken, reset, apply, kind, kept]

end Element

def Metric.reset (f : MetricSpec → UInt64 → List UInt8 → Binary64) (scratch : List UInt8)
    (m : Metric) : Metric :=
  { m with elements := m.elements.map (Element.reset f m.spec scratch) }

/-! ### Two passes from one state -/

structure PassState.Matched {δ : Type} [Driver δ] (d : Option δ) (s t : PassState δ) : Prop where
  driver : Driver.Matched d s.driver t.driver
  scratch : t.scratch = s.scratch

namespace Block

variable {δ : Type} [Driver δ] {f : MetricSpec → UInt64 → List UInt8 → Binary64} {d : Option δ}
  {env : Surroundings} {name : String} {window : Option Nat} {s t u : PassState δ}

theorem metricRequests_matched (aside : Driver.ConvertsAside f d) (h : s.Matched d t) (m : Metric) :
    metricRequests m t = metricRequests m s := by
  have answer := aside.answers h.driver m.spec (List.replicate m.elements.length 0) s.scratch
    ⟨false, [], []⟩
  simp only [metricRequests, h.scratch, answer]

theorem readMetric_matched (aside : Driver.ConvertsAside f d) (h : s.Matched d t)
    (env : Surroundings) (name : String) (window : Option Nat) (m : Metric) :
    (readMetric env name window m t).1 = (readMetric env name window m s).1 ∧
      (readMetric env name window m s).2.Matched d (readMetric env name window m t).2 := by
  have answer := aside.answers h.driver m.spec (List.replicate m.elements.length 0) s.scratch
    ⟨false, [], []⟩
  simp only [readMetric, h.scratch, answer]
  split
  · exact ⟨rfl, .read _ _ _ _ h.driver, rfl⟩
  · exact ⟨rfl, .read _ _ _ _ h.driver, rfl⟩

theorem applySamples_taken (aside : Driver.ConvertsAside f d) {b : Option δ}
    (matched : Driver.Matched d s.driver b) (spec : MetricSpec) (mask : UInt64) (clear : Bool)
    {es : List Element} {values : List UInt64} (sized : values.length = es.length) :
    let done := applySamples spec mask clear es values s
    done.1 = List.zipWith (Element.taken f spec mask clear s.scratch) es values ∧
      Driver.Matched d done.2.driver b := by
  induction es generalizing values s with
  | nil => exact ⟨by simp [applySamples], matched⟩
  | cons e es ih =>
    cases values with
    | nil => cases sized
    | cons x values =>
      have converted := aside.converts matched spec (e.apply spec x mask clear).value s.scratch
      have moved := Driver.Matched.left spec (e.apply spec x mask clear).value s.scratch
        (.ofWord (e.apply spec x mask clear).value) matched
      obtain ⟨rest, later⟩ :=
        ih (s := (publish spec (e.apply spec x mask clear) s).2) moved (Nat.succ.inj sized)
      refine ⟨?_, later⟩
      have head : (publish spec (e.apply spec x mask clear) s).1
          = Element.taken f spec mask clear s.scratch e x := by
        simp only [publish, Element.taken, converted]
      rw [List.zipWith_cons_cons, ← head]
      exact congrArg _ rest

theorem sampleMetric_reset (aside : Driver.ConvertsAside f d) (h : s.Matched d t) {m n : Metric}
    (done : sampleMetric env name window false m s = (.ok n, u)) :
    ∃ v, sampleMetric env name window true m t = (.ok (n.reset f u.scratch), v) ∧
      u.Matched d v := by
  obtain ⟨same, after⟩ := readMetric_matched aside h env name window m
  cases first : readMetric env name window m s with | mk result p =>
  cases second : readMetric env name window m t with | mk other q =>
  rw [first, second] at same after
  cases same
  cases result with
  | error _ =>
    simp only [sampleMetric, first] at done
    cases done
  | ok reading =>
    obtain ⟨values, mask⟩ := reading
    have sized := readMetric_length first
    simp only [sampleMetric, first] at done
    simp only [sampleMetric, second]
    obtain ⟨plain, moved⟩ := applySamples_taken aside after.driver m.spec mask false sized
    obtain ⟨clear, both⟩ := applySamples_taken aside moved.symm m.spec mask true sized
    have scratch := applySamples_scratch m.spec mask false m.elements values p
    have left := applySamples_scratch m.spec mask true m.elements values q
    have resets : Element.taken f m.spec mask true p.scratch = fun e x =>
        (Element.taken f m.spec mask false p.scratch e x).reset f m.spec p.scratch := by
      funext e x
      exact Element.taken_clear m.spec mask p.scratch e x
    cases done
    refine ⟨_, ?_, ⟨both.symm, left.trans (after.scratch.trans scratch.symm)⟩⟩
    rw [scratch, Metric.reset, plain, clear, after.scratch, List.map_zipWith, resets]

theorem readings_cons {clear : Bool} {m n : Metric}
    (done : sampleMetric env name window clear m s = (.ok n, u)) (rest : List Metric) :
    ∃ reading, (readMetric env name window m s).1 = .ok reading ∧
      readings env name window clear (m :: rest) s =
        reading :: readings env name window clear rest u := by
  cases read : readMetric env name window m s with | mk result p =>
  simp only [sampleMetric, read] at done
  cases result with
  | error _ => cases done
  | ok reading =>
    cases done
    exact ⟨reading, rfl, by simp only [readings, read]⟩

/-- Two sweeps ask for the same and find the same, and the one that clears leaves what the other
leaves, reset with the scratch that was converted by. -/
theorem sweep_reset (aside : Driver.ConvertsAside f d) (h : s.Matched d t) {ms ns : List Metric}
    (done : sweep (sampleMetric env name window false) ms s = (none, ns, u)) :
    let asked := sweepRequests env name window false ms s
    let scratches := asked.filterMap Request.scratch?
    ∃ v, sweep (sampleMetric env name window true) ms t
        = (none, List.zipWith (Metric.reset f) scratches ns, v) ∧ u.Matched d v ∧
      sweepRequests env name window true ms t = asked ∧
      scratches.length = ns.length ∧
      readings env name window true ms t = readings env name window false ms s := by
  induction ms generalizing s t ns with
  | nil =>
    cases done
    refine ⟨t, rfl, h, ?_, rfl, rfl⟩
    simp only [sweepRequests, h.scratch]
  | cons m rest ih =>
    cases first : sampleMetric env name window false m s with | mk result p =>
    simp only [sweep, first] at done
    cases result with
    | error _ => cases done
    | ok n =>
      obtain ⟨q, cleared, after⟩ := sampleMetric_reset aside h first
      have scratch := sampleMetric_scratch first
      cases tail : sweep (sampleMetric env name window false) rest p with | mk fault others =>
      simp only [tail] at done
      cases done
      obtain ⟨v, swept, ended, asked, counted, found⟩ := ih after tail
      have own := metricRequests_scratch env name window m s
      obtain ⟨reading, plain, finds⟩ := readings_cons first rest
      obtain ⟨again, other, findsToo⟩ := readings_cons cleared rest
      rw [(readMetric_matched aside h env name window m).1, plain] at other
      cases other
      refine ⟨v, ?_, ended, ?_, ?_, ?_⟩
      · simp only [sweep, cleared, swept, sweepRequests, first, List.filterMap_append, own, scratch]
        rfl
      · simp only [sweepRequests, first, cleared, metricRequests_matched aside h m, asked]
      · simp [sweepRequests, first, own, counted]
      · rw [finds, findsToo, found]

theorem pass_took {clear : Bool} {b c : Block δ} {s t : Shared} {mi k : Nat} {n : Metric}
    {e : Element} (done : b.pass env clear s = (none, c, t)) (there : c.metrics[mi]? = some n)
    (inside : n.elements[k]? = some e) :
    ∃ o xs x mask, (b.sampled env clear s)[mi]? = some xs ∧ xs[k]? = some x ∧
      (∃ m, b.metrics[mi]? = some m ∧ m.elements[k]? = some o) ∧
      e.value = (o.apply n.spec x mask clear).value ∧
      e.last = (o.apply n.spec x mask clear).last := by
  have sizes := congrArg (·[mi]?) (pass_sizes done).2
  rw [pass_eq] at done
  cases swept : sweep (sampleMetric env b.name b.window clear) b.metrics (b.latched clear s) with
  | mk fault rest =>
  obtain ⟨ns, state⟩ := rest
  rw [swept] at done
  cases fault with
  | some f => cases done
  | none =>
    cases done
    simp only [List.getElem?_map, there, Option.map_some] at sizes
    obtain ⟨m, placed, same⟩ := Option.map_eq_some_iff.mp sizes.symm
    obtain ⟨spec, length⟩ := Prod.mk.inj same
    have below : k < m.elements.length := by
      have bound := (List.getElem?_eq_some_iff.mp inside).1
      omega
    obtain ⟨values, mask, n', found, again, each⟩ := sweep_readings swept placed
    cases there.symm.trans again
    obtain ⟨x, d, read, here, value, last⟩ := each k _ (List.getElem?_eq_getElem below)
    cases inside.symm.trans here
    refine ⟨m.elements[k], values, x, mask, ?_, read, ⟨m, placed, ?_⟩, ?_, ?_⟩
    · rw [sampled, List.getElem?_map, found]
      rfl
    · exact List.getElem?_eq_getElem below
    · rw [← spec]
      exact value
    · rw [← spec]
      exact last

theorem counter_rests {b d e : Block δ} {s t u v : Shared} {env' : Surroundings}
    (cleared : b.pass env true s = (none, d, t)) (again : d.pass env' false u = (none, e, v))
    (same : d.sampled env' false u = b.sampled env true s) :
    ∀ m ∈ e.metrics, m.spec.type = .counter → m.spec.flags.clearOnRead = false →
      m.spec.flags.neverClear = false → ∀ x ∈ m.elements, x.value = m.spec.init := by
  intro m member counter accumulates clears x own
  obtain ⟨mi, there⟩ := List.mem_iff_getElem?.mp member
  obtain ⟨k, inside⟩ := List.mem_iff_getElem?.mp own
  obtain ⟨y, xs, current, mask, found, read, ⟨n, placed, before⟩, value, -⟩ :=
    pass_took again there inside
  obtain ⟨o, ys, other, mask', found', read', -, value', last'⟩ := pass_took cleared placed before
  rw [same, found'] at found
  cases found
  cases read.symm.trans read'
  have spec : m.spec = n.spec := by
    have specs := congrArg (·[mi]?) (pass_specs again).2
    simp only [List.getElem?_map, there, placed, Option.map_some] at specs
    exact Option.some.inj specs
  rw [← spec] at value' last'
  have start : y.value = m.spec.init := by
    rw [value']
    simp [Element.apply, counter, clears]
  have base : y.last = current := by
    rw [last']
    simp [Element.apply, counter, accumulates]
  rw [value]
  simp [Element.apply, Element.increase, counter, accumulates, start, base]

end Block

/-- **A clear pass is a sampling pass and a reset.** Where a sampling pass is not cut short, a clear
pass from the same state is not either; it asks the same of the driver and of the registers and
finds the same samples, and leaves the block as the sampling pass does, but for the driver's own
state and the metrics, each of which is reset with the scratch that its read hook has left. If a
sampling pass after it finds the same samples, the counters that it has reset stay where they are. -/
theorem clear_pass_resets {δ : Type} [Driver δ]
    (f : MetricSpec → UInt64 → List UInt8 → Binary64) (env : Surroundings) (b c : Block δ)
    (s t : Shared) (aside : Driver.ConvertsAside f b.driver)
    (done : b.pass env false s = (none, c, t)) :
    let scratches := (b.requests env false s).filterMap Request.scratch?
    ∃ d u, b.pass env true s = (none, d, u) ∧
      b.requests env true s = b.requests env false s ∧
      b.sampled env true s = b.sampled env false s ∧
      scratches.length = c.metrics.length ∧
      d = { c with
        driver := d.driver
        metrics := List.zipWith (Metric.reset f) scratches c.metrics } ∧
      ∀ env' u' e v, d.pass env' false u' = (none, e, v) →
        d.sampled env' false u' = b.sampled env true s →
        ∀ m ∈ e.metrics, m.spec.type = .counter → m.spec.flags.clearOnRead = false →
          m.spec.flags.neverClear = false → ∀ x ∈ m.elements, x.value = m.spec.init := by
  intro scratches
  have matched : (b.latched false s).Matched b.driver (b.latched true s) :=
    ⟨.latch _ _ .start, rfl⟩
  rw [Block.pass_eq] at done
  cases swept : sweep (Block.sampleMetric env b.name b.window false) b.metrics (b.latched false s)
    with | mk fault rest =>
  obtain ⟨ns, state⟩ := rest
  rw [swept] at done
  cases fault with
  | some f => cases done
  | none =>
    cases done
    obtain ⟨v, cleared, after, asked, counted, found⟩ := Block.sweep_reset aside matched swept
    have passed : b.pass env true s = _ := Block.pass_eq b s
    rw [cleared] at passed
    refine ⟨_, _, passed, ?_, ?_, counted, rfl, ?_⟩
    · exact congrArg (_ :: ·) asked
    · rw [Block.sampled, found]
      rfl
    · intro env' u' e w again same
      exact Block.counter_rests passed again same

def StockDriver.conversion (d : Option StockDriver) (spec : MetricSpec) (raw : UInt64)
    (scratch : List UInt8) : Binary64 :=
  match d with
  | some (.scripted p) => p.script.conversion.apply spec raw scratch
  | some .fixedPoint => Telemetry.fixedPoint spec raw
  | some .lifecycle | none => .ofWord raw

theorem StockDriver.matched_eq {d a b : Option StockDriver} (h : Driver.Matched d a b) :
    a = b ∧ conversion a = conversion d := by
  induction h with
  | start => exact ⟨rfl, rfl⟩
  | @latch a b _ _ _ ih | @release a b _ _ _ ih | @read a b _ _ _ _ _ ih =>
    obtain ⟨rfl, same⟩ := ih
    refine ⟨rfl, same ▸ ?_⟩
    rcases a with _ | (_ | _ | _) <;> rfl
  | @left a b spec raw scratch none _ ih =>
    have still : (Driver.ask a (Driver.convert spec raw scratch) none).driver = a := by
      rcases a with _ | (_ | _ | _) <;> rfl
    rw [still]
    exact ih
  | @right a b spec raw scratch none _ ih =>
    have still : (Driver.ask b (Driver.convert spec raw scratch) none).driver = b := by
      rcases b with _ | (_ | _ | _) <;> rfl
    rw [still]
    exact ih

theorem StockDriver.convertsAside (d : Option StockDriver) :
    Driver.ConvertsAside (conversion d) d := by
  constructor
  · intro a b h spec raw scratch
    rw [← (matched_eq h).2]
    rcases a with _ | (_ | _ | _) <;> rfl
  · intro a b h spec values scratch none
    rw [(matched_eq h).1]

def clearedBlock : Block StockDriver where
  name := "b"
  window := some 0
  metrics :=
    [⟨{ MetricSpec.simple "x" .counter (.whole 0 1) with init := 5 }, [⟨9, 3, .ofNat 9, [], none⟩],
        []⟩,
      ⟨{ MetricSpec.simple "g" .gauge (.whole 0 1) with flags := ⟨false, false, true⟩ },
        [⟨0, 0, .ofNat 0, [], none⟩], []⟩]
  scratchSize := 1
  driver := some (.scripted ⟨⟨[], [], true, [("g", .rows [some [40]])], .offsetByScratch⟩, []⟩)
  lastUpdate := none
  collector := none

/-- The register shows seven, which is four more to count, or nothing but the new baseline. -/
theorem clear_pass_resets_scripted :
    let s := Shared.ofRegistries 0
    let plain := clearedBlock.pass (showing 7) false s
    let clear := clearedBlock.pass (showing 7) true s
    let again := clear.2.1.pass (showing 7) false clear.2.2
    plain.1 = none ∧ plain.2.1.values = [⟨13, .ofNat 14⟩, ⟨40, .ofNat 42⟩] ∧
      clear.1 = none ∧ clear.2.1.values = [⟨5, .ofNat 6⟩, ⟨40, .ofNat 42⟩] ∧
      again.1 = none ∧ ∀ m ∈ again.2.1.metrics, m.spec.type = .counter → ∀ e ∈ m.elements,
        m.spec.flags = .none → e.value = m.spec.init := by
  intro s plain clear again
  have sampled : plain.1 = none := by decide +kernel
  have sampledAgain : again.1 = none := by decide +kernel
  obtain ⟨d, u, cleared, -, -, -, -, rests⟩ := clear_pass_resets _ (showing 7) clearedBlock
    plain.2.1 s plain.2.2 (StockDriver.convertsAside _) (Prod.ext sampled rfl)
  obtain rfl : clear.2.1 = d := congrArg (·.2.1) cleared
  refine ⟨sampled, by decide +kernel, congrArg (·.1) cleared, by decide +kernel, sampledAgain, ?_⟩
  intro m member counter e own flags
  refine rests (showing 7) clear.2.2 again.2.1 again.2.2 (Prod.ext sampledAgain rfl)
    (by decide +kernel) m member counter ?_ ?_ e own
  · rw [flags]
    rfl
  · rw [flags]
    rfl

end Telemetry
