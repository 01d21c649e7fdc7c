import Telemetry.Block.Stock
import Telemetry.Proofs.Lasting
import Telemetry.Proofs.Protocol
import Telemetry.Report.Row

/-! Converted values follow raw values. A pass converts an element whenever it changes its raw
value, so the two belong together once the first pass over the block is done. Before that an element
holds its initial value and the cast of it, which is what everybody reads and what is exported: the
hook has not been asked. -/
namespace Telemetry

open Series (Store)

variable {δ : Type} [Driver δ] {env : Surroundings} {clear : Bool}

/-- A driver that converts by a function of the specification and the raw value, whatever its hooks
have led it to. -/
def Driver.Converts (f : MetricSpec → UInt64 → Binary64) (d : Option δ) : Prop :=
  ∀ e, Leads d e → ∀ spec raw scratch,
    (ask e (convert spec raw scratch) (.ofWord raw)).result = f spec raw

theorem Driver.Converts.leads {f : MetricSpec → UInt64 → Binary64} {d e : Option δ}
    (h : Converts f d) (led : Leads d e) : Converts f e :=
  fun g later => h g (led.trans later)

structure Element.Initial (spec : MetricSpec) (e : Element) : Prop where
  value : e.value = spec.init
  converted : e.converted = .ofWord spec.init

namespace Block

variable {f : MetricSpec → UInt64 → Binary64} {spec : MetricSpec} {mask : UInt64} {name : String}
  {window : Option Nat}

theorem applySamples_converted {es : List Element} {values : List UInt64} {s : PassState δ}
    (converts : Driver.Converts f s.driver) (sized : values.length = es.length) :
    ∀ d ∈ (applySamples spec mask clear es values s).1, d.converted = f spec d.value := by
  induction es generalizing values s with
  | nil => exact fun d member => by cases member
  | cons e es ih =>
    cases values with
    | nil => cases sized
    | cons x values =>
      intro d member
      rcases List.mem_cons.mp member with rfl | member
      · exact converts _ .refl spec (e.apply spec x mask clear).value s.scratch
      · have led := publish_leads spec (e.apply spec x mask clear) s
        exact ih (converts.leads led) (Nat.succ.inj sized) d member

theorem sampleMetric_converted {m n : Metric} {s t : PassState δ}
    (done : sampleMetric env name window clear m s = (.ok n, t))
    (converts : Driver.Converts f s.driver) : ∀ e ∈ n.elements, e.converted = f n.spec e.value := by
  have asked := readMetric_leads env name window m s
  cases read : readMetric env name window m s with | mk result u =>
  simp only [sampleMetric, read] at done asked
  cases result with
  | error _ => cases done
  | ok reading =>
    cases done
    exact applySamples_converted (converts.leads asked) (readMetric_length read)

/-- A block that was made with this specification. What an element holds as its converted value is
what the hook makes of its raw value; or no pass is done, and the element is as it was allocated. A
pass that a fault cut short may have come to some elements, and then the lock is not sound. -/
structure Converted (spec : BlockSpec δ) (sound : Bool) (b : Block δ) : Prop where
  name : b.name = spec.name
  metrics : b.metrics.map (·.spec) = spec.metrics
  driver : Driver.Leads spec.driver b.driver
  elements : ∀ m ∈ b.metrics, ∀ e ∈ m.elements,
    (∀ f, Driver.Converts f spec.driver → e.converted = f m.spec e.value) ∨
      b.lastUpdate = none ∧ e.Initial m.spec
  initial : sound = true → b.lastUpdate = none →
    ∀ m ∈ b.metrics, ∀ e ∈ m.elements, e.Initial m.spec

variable {spec : BlockSpec δ} {sound : Bool} {b c : Block δ}

theorem alloc_converted (made : alloc spec = .ok b) : b.Converted spec true := by
  obtain ⟨metrics, each, rfl⟩ := alloc_ok made
  have specs : metrics.map (·.spec) = spec.metrics := by
    rw [forall₂_map_eq (g := id) (each.flip.imp fun m x made => ?_), List.map_id]
    rw [Metric.alloc_ok made]
    rfl
  have initial : ∀ m ∈ metrics, ∀ e ∈ m.elements, e.Initial m.spec := by
    intro m member e inside
    obtain ⟨x, -, made⟩ := forall₂_mem each m member
    rw [Metric.alloc_ok made] at inside ⊢
    rw [List.eq_of_mem_replicate inside]
    exact ⟨rfl, rfl⟩
  exact ⟨rfl, specs, .refl, fun m member e inside => .inr ⟨rfl, initial m member e inside⟩,
    fun _ _ => initial⟩

theorem Carried.elements (h : b.Carried c) : ∀ n ∈ c.metrics, ∃ m ∈ b.metrics, n.spec = m.spec ∧
    ∀ d ∈ n.elements, ∃ e ∈ m.elements, d.value = e.value ∧ d.converted = e.converted := by
  intro n member
  have metrics : c.metrics.map Metric.plain = b.metrics.map Metric.plain :=
    congrArg (·.metrics) h.content
  have plain : n.plain ∈ b.metrics.map Metric.plain := metrics ▸ List.mem_map_of_mem member
  obtain ⟨m, inside, same⟩ := List.mem_map.mp plain
  refine ⟨m, inside, (congrArg (·.spec) same).symm, ?_⟩
  intro d own
  have elements : m.elements.map Element.plain = n.elements.map Element.plain :=
    congrArg (·.elements) same
  have kept : d.plain ∈ m.elements.map Element.plain := elements ▸ List.mem_map_of_mem own
  obtain ⟨e, there, alike⟩ := List.mem_map.mp kept
  exact ⟨e, there, (congrArg (·.value) alike).symm, (congrArg (·.converted) alike).symm⟩

theorem Converted.carried (h : b.Converted spec sound) (carried : b.Carried c) :
    c.Converted spec sound := by
  have update : c.lastUpdate = b.lastUpdate := congrArg (·.lastUpdate) carried.content
  refine ⟨?_, carried.specs.trans h.metrics, h.driver.trans carried.driver, ?_, ?_⟩
  · exact carried.name.trans h.name
  · intro n member d own
    obtain ⟨m, inside, same, each⟩ := carried.elements n member
    obtain ⟨e, there, value, converted⟩ := each d own
    rw [same, value, converted, update]
    rcases h.elements m inside e there with hooked | ⟨none, initial⟩
    · exact .inl hooked
    · exact .inr ⟨none, value.trans initial.value, converted.trans initial.converted⟩
  · intro whole none n member d own
    obtain ⟨m, inside, same, each⟩ := carried.elements n member
    obtain ⟨e, there, value, converted⟩ := each d own
    have initial := h.initial whole (update ▸ none) m inside e there
    rw [same]
    exact ⟨value.trans initial.value, converted.trans initial.converted⟩

theorem Converted.poisoned (h : b.Converted spec sound) : b.Converted spec false :=
  ⟨h.name, h.metrics, h.driver, h.elements, fun sound => by cases sound⟩

theorem Converted.passed (h : b.Converted spec sound) {s t : Shared} {fault : Option Fault}
    (done : b.pass env clear s = (fault, c, t)) : c.Converted spec (sound && fault.isNone) := by
  let R (_ n : Metric) : Prop := ∀ f, Driver.Converts f b.driver →
    ∀ e ∈ n.elements, e.converted = f n.spec e.value
  have visited : b.Visited fault R c := pass_visited
    (fun m u n v led here f converts => sampleMetric_converted here (converts.leads led)) done
  refine ⟨visited.name.trans h.name, (pass_specs done).2.trans h.metrics,
    h.driver.trans visited.driver, ?_, ?_⟩
  · intro n member e inside
    obtain ⟨m, there, hooked | ⟨cut, rfl⟩⟩ := forall₂_mem visited.metrics n member
    · exact .inl fun f converts => hooked f (converts.leads h.driver) e inside
    · rw [visited.short cut]
      exact h.elements n there e inside
  · intro whole none
    obtain ⟨-, through⟩ := Bool.and_eq_true_iff.mp whole
    have done := visited.whole (Option.isNone_iff_eq_none.mp through)
    rw [none] at done
    cases done

end Block

namespace Zone

/-- A zone that was made with one of these specifications, with the blocks of that one. -/
def Converted (made : ZoneSpec δ → Prop) (sound : Bool) (z : Zone δ) : Prop :=
  ∃ spec, made spec ∧ z.name = spec.name ∧
    List.Forall₂ (fun bs b => Block.Converted bs sound b) spec.blocks z.blocks

variable {made : ZoneSpec δ → Prop} {sound : Bool} {z w : Zone δ}

theorem Converted.carried (h : z.Converted made sound) (carried : z.Carried w) :
    w.Converted made sound := by
  obtain ⟨spec, known, name, blocks⟩ := h
  refine ⟨spec, known, carried.name.trans name, ?_⟩
  exact forall₂_trans (fun converted carried => converted.carried carried) blocks carried.blocks

theorem converted_lasting (made : ZoneSpec δ → Prop) : Lasting made (Converted made) where
  allocated := by
    intro spec z known done
    obtain ⟨blocks, each, rfl⟩ := Zone.alloc_ok done
    exact ⟨spec, known, rfl, each.imp fun bs b made => Block.alloc_converted made⟩
  poisoned := by
    rintro sound z ⟨spec, known, name, blocks⟩
    exact ⟨spec, known, name, blocks.imp fun bs b converted => converted.poisoned⟩
  attached := fun h attaches => h.carried attaches.carried
  left := fun {z} h => h.carried z.left_carried
  treated := by
    rintro env treatment sound z w s t fault ⟨spec, known, name, blocks⟩ done
    obtain ⟨same, -, each⟩ := Treatment.run_each done
    refine ⟨spec, known, same.trans name, forall₂_trans ?_ blocks each⟩
    rintro bs b c converted (rfl | ⟨clear, u, f, v, passed, whole⟩)
    all_goals cases fault
    · simpa using converted
    · simpa using converted.poisoned
    · rw [whole rfl] at passed
      exact converted.passed passed
    · simpa using (converted.passed passed).poisoned

end Zone

omit [Driver δ] in
theorem Site.mem_mounts {s : Site δ} {d : Domain δ} {z : Zone δ} {b : Block δ}
    (holder : d ∈ s.holders) (inside : z ∈ d.zones) (own : b ∈ z.blocks) :
    (⟨d.registry, d.name, z.name, b⟩ : Mount δ) ∈ s.mounts :=
  List.mem_flatMap.mpr ⟨d, holder, List.mem_flatMap.mpr ⟨z, inside, List.mem_map_of_mem own⟩⟩

/-- No later element is bound to the same series. -/
def Element.Last (es : List Element) (e : Element) : Prop :=
  ∃ before after, es = before ++ e :: after ∧ ∀ d ∈ after, d.series ≠ e.series

/-- Everybody who looks at the element gets its raw value with `x`, or `x` alone. A series shows the
last of the elements that are bound to it. -/
structure Element.Reads (store : Store) (m : Metric) (e : Element) (x : Binary64) : Prop where
  read : e.metricValue = ⟨e.value, x⟩
  exported : e.Last m.elements → ∃ ref, e.series = some ref ∧ store.value? ref = some x
  reported : m.spec.type = .gauge → Report.valueText m.spec.type e = x.general 4

theorem Shows.value {domain zone block : String} {store : Store} {i : Nat} {m : Metric}
    {e : Element} (h : Shows domain zone block store i m) (last : e.Last m.elements) :
    store.value? ⟨i, e.key⟩ = some e.converted := by
  obtain ⟨before, after, split, apart⟩ := last
  have member : e ∈ m.elements := split ▸ List.mem_append_right _ List.mem_cons_self
  obtain ⟨v, found, -, -, -, children⟩ := h.vector
  obtain ⟨d, leads, same⟩ :=
    List.mem_map.mp (Element.mem_key_leaders.mpr (List.mem_map_of_mem member))
  have final : e.key ∉ after.map Element.key := by
    intro later
    obtain ⟨f, there, key⟩ := List.mem_map.mp later
    have inside : f ∈ m.elements :=
      split ▸ List.mem_append_right _ (List.mem_cons_of_mem _ there)
    exact apart f there (by rw [h.bound f inside, h.bound e member, key])
  rw [Store.value?, found, Option.bind_some, children, ← same, Series.find?_shown leads,
    Option.map_some, same]
  conv => lhs; rw [split]
  rw [Element.latest_last final]

theorem Shows.reads {domain zone block : String} {store : Store} {i : Nat} {m : Metric}
    {e : Element} (h : Shows domain zone block store i m) (member : e ∈ m.elements) :
    e.Reads store m e.converted :=
  ⟨rfl, fun last => ⟨_, h.bound e member, h.value last⟩, fun gauge => by rw [gauge]; rfl⟩

/-- **Converted values follow raw values** from the first completed pass on: what a hook makes of
the raw value is what is held, read, exported and reported. Before that it is so exactly for hooks
that make of the initial value what a cast does. -/
theorem converted_from_first_pass (count : Nat) (steps : List (Surroundings × Action δ)) :
    let s : Site δ := (Site.empty count).run steps
    ∀ d ∈ s.holders, ∀ z ∈ d.zones, ∃ spec, (∃ step ∈ steps, step.2.made? = some spec) ∧
      z.name = spec.name ∧ List.Forall₂ (fun bs b =>
        b.name = bs.name ∧ b.metrics.map (·.spec) = bs.metrics ∧
        Driver.Leads bs.driver b.driver ∧ ∀ f, Driver.Converts f bs.driver →
          ∀ m ∈ b.metrics, ∀ e ∈ m.elements,
            (b.lastUpdate.isSome ∨ e.value ≠ m.spec.init ∨
                f m.spec m.spec.init = .ofWord m.spec.init →
              e.Reads s.shared.store m (f m.spec e.value)) ∧
            (d.treePoisoned = false → (e.converted = f m.spec e.value ↔
              b.lastUpdate.isSome ∨ f m.spec m.spec.init = .ofWord m.spec.init)))
        spec.blocks z.blocks := by
  intro s d holder z inside
  have coherent : s.Coherent count := Site.run_coherent count steps
  have everywhere := Site.run_everywhere
    (Zone.converted_lasting fun spec => ∃ step ∈ steps, step.2.made? = some spec) count steps
    fun step member spec made => ⟨step, member, made⟩
  obtain ⟨spec, made, name, blocks⟩ := everywhere.held d holder z inside
  refine ⟨spec, made, name, List.forall₂_iff_get.mpr ⟨blocks.length_eq, ?_⟩⟩
  intro k below within
  have h := (List.forall₂_iff_get.mp blocks).2 k below within
  have own := List.get_mem z.blocks ⟨k, within⟩
  generalize spec.blocks.get ⟨k, below⟩ = bs at h
  generalize z.blocks.get ⟨k, within⟩ = b at h own
  refine ⟨h.name, h.metrics, h.driver, fun f converts m member e element => ⟨?_, ?_⟩⟩
  · intro condition
    obtain ⟨i, -, shows⟩ := forall₂_mem
      (coherent.mirror.shown _ (Site.mem_mounts holder inside own)).vectors m member
    have converted : e.converted = f m.spec e.value := by
      rcases h.elements m member e element with hooked | ⟨none, initial⟩
      · exact hooked f converts
      · rcases condition with passed | changed | same
        · rw [none] at passed
          cases passed
        · exact absurd initial.value changed
        · rw [initial.converted, initial.value, same]
    rw [← converted]
    exact shows.reads element
  · intro whole
    cases update : b.lastUpdate with
    | none =>
      have initial := h.initial (by rw [whole]; rfl) update m member e element
      rw [initial.converted, initial.value]
      simp [eq_comm]
    | some now =>
      rcases h.elements m member e element with hooked | ⟨none, -⟩
      · simp [hooked f converts]
      · rw [update] at none
        cases none

theorem StockDriver.fixedPoint_leads {e : Option StockDriver}
    (led : Driver.Leads (some .fixedPoint) e) : e = some .fixedPoint := by
  induction led with
  | refl => rfl
  | _ =>
    rename_i ih
    rw [ih]
    rfl

theorem StockDriver.fixedPoint_led {d e : Option StockDriver} (led : Driver.Leads d e)
    (same : e = some .fixedPoint) : d = some .fixedPoint := by
  induction led with
  | refl => exact same
  | @attach e | @detach e | @latch e | @release e | @read e | @convert e =>
    rename_i ih
    apply ih
    rcases e with _ | (_ | _ | _)
    all_goals cases same
    all_goals rfl

theorem StockDriver.fixedPoint_converts :
    Driver.Converts Telemetry.fixedPoint (some StockDriver.fixedPoint) := by
  intro e led spec raw scratch
  rw [fixedPoint_leads led]
  rfl

theorem StockDriver.fixedPoint_declines (spec : MetricSpec) :
    Driver.Declines spec (some StockDriver.fixedPoint) := by
  intro e led values scratch
  rw [fixedPoint_leads led]
  rfl

def halves : MetricSpec :=
  { MetricSpec.simple "x" .gauge (.whole 0 4) with init := 8, data := 2 }

def attachedHalves : List (Surroundings × Action StockDriver) :=
  [(.plain [] 0, .create 0 ⟨"d", 0, false⟩),
    (.plain [] 0, .alloc 0 ⟨"z", [⟨"b", none, [halves], 0, some .fixedPoint⟩]⟩)]

/-- The driver makes four of eight halves, and eight is what is read and exported. -/
theorem attached_unconverted :
    let s : Site StockDriver := (Site.empty 1).run attachedHalves
    Driver.Converts fixedPoint (some StockDriver.fixedPoint) ∧ fixedPoint halves 8 = .ofWord 4 ∧
      Binary64.ofWord 8 ≠ .ofWord 4 ∧
      s.holders.flatMap (fun d => d.zones.flatMap Zone.values) = [⟨8, .ofWord 8⟩] ∧
      s.shared.store.value? ⟨0, .ofJoined []⟩ = some (.ofWord 8) := by
  refine ⟨StockDriver.fixedPoint_converts, ?_, ?_, ?_, ?_⟩
  all_goals decide +kernel

end Telemetry
