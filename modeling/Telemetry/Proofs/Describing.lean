import Telemetry.Metric.Template
import Telemetry.Proofs.Preparing

/-! Which metrics a collector can be built for, and what it makes of them. The exporter takes a
metric exactly if its name and its exported keys are well formed, and the values that an element is
bound by are then those of the keys, in their order. Keys come from the specification and values
from the resolved labels, so this is where the two meet: a key of the owners would be exported by
the one and left out by the other. -/
namespace Telemetry

open Series (Store Vector)

/-- What the exporter asks of a metric. -/
structure MetricSpec.WellNamed (spec : MetricSpec) : Prop where
  name : Series.isMetricName spec.name = true
  keys : ∀ key ∈ spec.exportedKeys, Series.isLabelName key = true ∧ key ∉ ownerKeys
  distinct : spec.exportedKeys.Nodup

theorem MetricSpec.help_nonempty {spec : MetricSpec}
    (named : Series.isMetricName spec.name = true) : spec.help.isEmpty = false := by
  unfold help
  split
  · cases empty : spec.name.isEmpty with
    | false => rfl
    | true =>
      rw [String.isEmpty_iff.mp empty] at named
      cases named
  · rename_i described
    exact Bool.not_eq_true _ ▸ described

structure Metric.Resolved (m : Metric) : Prop where
  elements : m.elements ≠ []
  labels : ∃ turn scope n, (Metric.resolveLabels turn scope n).1 = .ok m

/-- What an element is bound by: for each exported key, the value of its label of that key. -/
structure Element.Aligned (spec : MetricSpec) (e : Element) : Prop where
  sized : e.tuple.length = spec.exportedKeys.length
  each : ∀ (k : Nat) (key value : String), spec.exportedKeys[k]? = some key →
    (e.tuple[k]? = some value ↔ (⟨key, value, false⟩ : Label) ∈ e.labels)

namespace Metric

theorem Exports.aligned {spec : MetricSpec} {scope : Scope} {values : List String} {i : Nat}
    {own : List Label} {e : Element} (h : Exports spec scope values i e.labels own)
    (named : spec.WellNamed) (sized : e.tuple.length = spec.exportedKeys.length) : e.Aligned spec := by
  refine ⟨sized, fun k key value there => ?_⟩
  have distinct : ((publicLabels spec values ++ own).map (·.key)).Nodup := h.keys ▸ named.distinct
  have exported (l : Label) : l ∈ Label.exported e.labels ↔
      l ∈ Label.owners scope ∨ l ∈ publicLabels spec values ++ own := by
    rw [h.exported, List.mem_append]
  rw [← h.keys, List.getElem?_map] at there
  obtain ⟨l, found, rfl⟩ := Option.map_eq_some_iff.mp there
  have inside : l ∈ publicLabels spec values ++ own := List.mem_of_getElem? found
  have own : l ∈ e.labels ∧ l.internal = false := by
    simpa [Label.exported] using (exported l).mpr (.inr inside)
  have tuple : e.tuple[k]? = some l.value := by
    rw [h.tuple sized, ← List.map_append, List.getElem?_map, found, Option.map_some]
  rw [tuple, Option.some.injEq]
  constructor
  · rintro rfl
    rw [← own.2]
    exact own.1
  · intro member
    have shown := (exported ⟨l.key, value, false⟩).mp (by simpa [Label.exported] using member)
    rcases shown with owner | other
    · have key : l.key ∈ (Label.owners scope).map (·.key) := List.mem_map.mpr ⟨_, owner, rfl⟩
      exact absurd key (h.apart sized l inside)
    · exact congrArg Label.value (List.inj_on_of_nodup_map distinct inside other rfl)

namespace Resolved

variable {m : Metric}

theorem exports (h : m.Resolved) :
    ∃ scope values, ∀ e ∈ m.elements, ∃ i own, Exports m.spec scope values i e.labels own := by
  obtain ⟨turn, scope, n, done⟩ := h.labels
  obtain ⟨values, fits, -, spec, -, -, labels⟩ := resolveLabels_ok done
  rw [← spec] at fits labels
  refine ⟨scope, values, fun e member => ?_⟩
  obtain ⟨i, found⟩ := List.mem_iff_getElem?.mp member
  exact ⟨i, exports_labelsAt fits (labels i e found)⟩

theorem sized_iff (h : m.Resolved) :
    (∀ e ∈ m.elements, e.tuple.length = m.spec.exportedKeys.length) ↔
      ∀ key ∈ m.spec.exportedKeys, key ∉ ownerKeys := by
  obtain ⟨scope, values, exports⟩ := h.exports
  constructor
  · intro sized key member
    obtain ⟨e, inside⟩ := List.exists_mem_of_ne_nil _ h.elements
    obtain ⟨i, own, shown⟩ := exports e inside
    rw [← shown.keys] at member
    obtain ⟨l, there, rfl⟩ := List.mem_map.mp member
    exact shown.apart (sized e inside) l there
  · intro apart e inside
    obtain ⟨i, own, shown⟩ := exports e inside
    have whole : (publicLabels m.spec values ++ own).filter (·.key ∉ ownerKeys)
        = publicLabels m.spec values ++ own := by
      refine List.filter_eq_self.mpr fun l there => decide_eq_true (apart l.key ?_)
      rw [← shown.keys]
      exact List.mem_map_of_mem there
    rw [shown.tuple_filtered, whole, ← shown.keys, List.length_map, List.length_map]

end Resolved

end Metric

namespace Collector

variable {domain zone block : String}

theorem describe_isOk_iff {spec : MetricSpec} :
    (∃ d, describe domain zone block spec = .ok d) ↔
      Series.isMetricName spec.name = true ∧
        (∀ key ∈ spec.exportedKeys, Series.isLabelName key = true) ∧ spec.exportedKeys.Nodup := by
  constructor
  · rintro ⟨d, accepted⟩
    obtain ⟨distinct, valid⟩ := Series.checkLabels_eq_none_iff.mp (describe_ok accepted).2
    refine ⟨?_, fun key member => (valid key member).1, distinct⟩
    unfold describe Series.Descriptor.make? at accepted
    split at accepted
    · cases accepted
    · split at accepted
      · cases accepted
      · rename_i named
        simpa using named
  · rintro ⟨named, valid, distinct⟩
    have checked : Series.checkLabels [] spec.exportedKeys = none :=
      Series.checkLabels_eq_none_iff.mpr
        ⟨distinct, fun key member => ⟨valid key member, List.not_mem_nil⟩⟩
    refine ⟨⟨spec.name, spec.help, ownerLabels domain zone block, spec.exportedKeys⟩, ?_⟩
    simp only [describe, Series.Descriptor.make?, MetricSpec.help_nonempty named, named, checked]
    rfl

theorem bindElements_isOk_iff {i : Nat} {es : List Element} {s : Store} {v : Vector}
    (found : s.get? i = some v) :
    (∃ ds t, bindElements i es s = (.ok ds, t)) ↔
      ∀ e ∈ es, e.tuple.length = v.descriptor.labelNames.length := by
  constructor
  · rintro ⟨ds, t, bound⟩
    exact (bindElements_ok found bound).2.1
  · intro sized
    induction es generalizing s v with
    | nil => exact ⟨[], s, rfl⟩
    | cons e rest ih =>
      obtain ⟨here, later⟩ := List.forall_mem_cons.mp sized
      obtain ⟨w, bound⟩ : ∃ w, v.bind e.tuple = .ok w := by
        unfold Vector.bind
        rw [if_neg (not_not_intro here)]
        split <;> exact ⟨_, rfl⟩
      obtain ⟨ds, t, tail⟩ := ih (bind_written found bound).1 later
      exact ⟨e.bound i :: ds, t, by simp only [bindElements_cons found, bound, tail]⟩

theorem wellNamed_iff (domain zone block : String) {m : Metric} (resolved : m.Resolved) :
    m.spec.WellNamed ↔ (∃ d, describe domain zone block m.spec = .ok d) ∧
      ∀ e ∈ m.elements, e.tuple.length = m.spec.exportedKeys.length := by
  rw [describe_isOk_iff, resolved.sized_iff]
  constructor
  · intro h
    exact ⟨⟨h.name, fun key member => (h.keys key member).1, h.distinct⟩,
      fun key member => (h.keys key member).2⟩
  · rintro ⟨⟨name, valid, distinct⟩, apart⟩
    exact ⟨name, fun key member => ⟨valid key member, apart key member⟩, distinct⟩

theorem buildVectors_isOk_iff (domain zone block : String) {ms : List Metric} (s : Store)
    (resolved : ∀ m ∈ ms, m.Resolved) :
    (∃ vs ns t, buildVectors domain zone block ms s = (.ok (vs, ns), t)) ↔
      ∀ m ∈ ms, m.spec.WellNamed := by
  induction ms generalizing s with
  | nil => exact ⟨fun _ => List.forall_mem_nil _, fun _ => ⟨[], [], s, rfl⟩⟩
  | cons m rest ih =>
    obtain ⟨first, others⟩ := List.forall_mem_cons.mp resolved
    rw [List.forall_mem_cons, wellNamed_iff domain zone block first]
    constructor
    · rintro ⟨vs, ns, t, built⟩
      obtain ⟨d, elements, u, vectors, metrics, described, bound, later, -, -⟩ :=
        buildVectors_cons_ok built
      refine ⟨⟨⟨d, described⟩, ?_⟩, (ih u others).mp ⟨vectors, metrics, t, later⟩⟩
      have sized := (bindElements_ok (get?_added d s) bound).2.1
      rw [(describe_ok described).1] at sized
      exact sized
    · rintro ⟨⟨⟨d, described⟩, sized⟩, named⟩
      have sizes : ∀ e ∈ m.elements, e.tuple.length = d.labelNames.length := by
        rw [(describe_ok described).1]
        exact sized
      obtain ⟨elements, u, bound⟩ := (bindElements_isOk_iff (get?_added d s)).mpr sizes
      obtain ⟨vectors, metrics, t, later⟩ := (ih u others).mpr named
      exact ⟨s.vectors.length :: vectors, { m with elements } :: metrics, t,
        by simp only [buildVectors_cons rest s described, bound, later]⟩

/-- The vector has one child for an element of `es`, which stands for the values of the first of
these with its fingerprint: its own, unless another's are taken for them. -/
structure Serves (v : Vector) (es : List Element) (e : Element) : Prop where
  child : ∃ c ∈ v.children, c.key = e.key ∧ ∀ d ∈ v.children, d.key = e.key → d = c
  first : ∀ c ∈ v.children, c.key = e.key → ∃ before d after, es = before ++ d :: after ∧
    d.key = e.key ∧ e.key ∉ before.map Element.key ∧ c.values = d.tuple
  own : (∀ d ∈ es, d.key = e.key → d.tuple = e.tuple) →
    ∀ c ∈ v.children, c.key = e.key → c.values = e.tuple

structure Pairs (store : Store) (i : Nat) (m n : Metric) : Prop where
  bound : n = { m with elements := m.elements.map (Element.bound i) }
  aligned : ∀ e ∈ m.elements, e.Aligned m.spec
  vector : ∃ v, store.get? i = some v ∧ v.descriptor.name = m.name ∧
    v.descriptor.labelNames = m.spec.exportedKeys ∧ ∀ e ∈ m.elements, Serves v m.elements e

theorem Pairs.congr {s t : Store} {i : Nat} {m n : Metric} (h : Pairs s i m n)
    (same : t.get? i = s.get? i) : Pairs t i m n :=
  ⟨h.bound, h.aligned, same ▸ h.vector⟩

theorem serves_shown {v : Vector} {es : List Element} (shown : v.children = Element.shown es) :
    ∀ e ∈ es, Serves v es e := by
  intro e member
  have keys : (v.children.map Series.Child.key).Nodup := by
    rw [shown, Element.shown, List.map_map]
    exact Element.key_leaders_nodup es
  have first : ∀ c ∈ v.children, c.key = e.key → ∃ before d after, es = before ++ d :: after ∧
      d.key = e.key ∧ e.key ∉ before.map Element.key ∧ c.values = d.tuple := by
    intro c inside same
    obtain ⟨d, leads, rfl⟩ := List.mem_map.mp (shown ▸ inside)
    obtain ⟨before, after, split, first⟩ := Element.leaders_first leads
    have key : d.key = e.key := same
    exact ⟨before, d, after, split, key, key ▸ first, rfl⟩
  refine ⟨?_, first, ?_⟩
  · obtain ⟨d, leads, same⟩ :=
      List.mem_map.mp (Element.mem_key_leaders.mpr (List.mem_map_of_mem member))
    have there : (⟨d.tuple, Element.latest d.key es d.converted⟩ : Series.Child) ∈ v.children :=
      shown ▸ List.mem_map_of_mem leads
    exact ⟨_, there, same, fun c inside key =>
      List.inj_on_of_nodup_map keys inside there (key.trans same.symm)⟩
  · intro apart c inside same
    obtain ⟨before, d, after, rfl, key, -, values⟩ := first c inside same
    exact values.trans (apart d (List.mem_append_right _ List.mem_cons_self) key)

theorem bindElements_pairs {m : Metric} {d : Series.Descriptor} {elements : List Element}
    {s u : Store} (resolved : m.Resolved) (described : describe domain zone block m.spec = .ok d)
    (bound : bindElements s.vectors.length m.elements (s.add ⟨d, .gauge, []⟩).2
      = (.ok elements, u)) :
    Pairs u s.vectors.length m { m with elements } := by
  obtain ⟨rfl, sized, written⟩ := bindElements_ok (get?_added d s) bound
  have descriptor := (describe_ok described).1
  have sizes : ∀ e ∈ m.elements, e.tuple.length = m.spec.exportedKeys.length := by
    rw [descriptor] at sized
    exact sized
  have named : m.spec.WellNamed :=
    (wellNamed_iff domain zone block resolved).mpr ⟨⟨d, described⟩, sizes⟩
  obtain ⟨scope, values, exports⟩ := resolved.exports
  refine ⟨rfl, ?_, _, written, ?_, ?_, serves_shown (Series.foldl_record_nil _)⟩
  · intro e member
    obtain ⟨i, own, shown⟩ := exports e member
    exact shown.aligned named (sizes e member)
  · rw [descriptor]
    rfl
  · rw [descriptor]

theorem buildVectors_pairs {ms ns : List Metric} {vs : List Nat} {s t : Store}
    (resolved : ∀ m ∈ ms, m.Resolved)
    (built : buildVectors domain zone block ms s = (.ok (vs, ns), t)) :
    vs.length = ms.length ∧ ns.length = ms.length ∧
      ∀ (k : Nat) m, ms[k]? = some m →
        ∃ i n, vs[k]? = some i ∧ ns[k]? = some n ∧ Pairs t i m n := by
  induction ms generalizing s vs ns with
  | nil =>
    cases built
    exact ⟨rfl, rfl, fun k m found => by cases found⟩
  | cons m rest ih =>
    obtain ⟨first, others⟩ := List.forall_mem_cons.mp resolved
    obtain ⟨d, elements, u, vectors, metrics, described, bound, later, rfl, rfl⟩ :=
      buildVectors_cons_ok built
    have here := bindElements_pairs first described bound
    obtain ⟨counted, same, tail⟩ := ih others later
    refine ⟨congrArg (· + 1) counted, congrArg (· + 1) same, fun k n found => ?_⟩
    cases k with
    | succ k => exact tail k n found
    | zero =>
      cases found
      -- vectors that are made later leave this one as it is
      obtain ⟨v, inside, -⟩ := here.vector
      have grown := buildVectors_extends domain zone block rest u
      rw [later] at grown
      exact ⟨_, _, rfl, rfl, here.congr (grown.get? (Store.get?_lt inside))⟩

theorem build_isOk_iff (domain zone block : String) {ms : List Metric} (store : Store)
    (resolved : ∀ m ∈ ms, m.Resolved) :
    (∃ c ns t, build domain zone block ms store = (.ok (c, ns), t)) ↔
      ∀ m ∈ ms, m.spec.WellNamed := by
  rw [← buildVectors_isOk_iff domain zone block store resolved]
  unfold build
  constructor
  · rintro ⟨c, ns, t, built⟩
    split at built
    · cases built
    · rename_i vectors metrics u done
      exact ⟨vectors, metrics, u, done⟩
  · rintro ⟨vs, ns, t, done⟩
    exact ⟨⟨block, vs⟩, ns, t, by rw [done]⟩

theorem build_pairs {ms ns : List Metric} {c : Collector} {store t : Store}
    (resolved : ∀ m ∈ ms, m.Resolved)
    (built : build domain zone block ms store = (.ok (c, ns), t)) :
    c.vectors.length = ms.length ∧ ns.length = ms.length ∧
      ∀ (k : Nat) m, ms[k]? = some m →
        ∃ i n, c.vectors[k]? = some i ∧ ns[k]? = some n ∧ Pairs t i m n := by
  unfold build at built
  split at built
  · cases built
  · rename_i done
    cases built
    exact buildVectors_pairs resolved done

end Collector

/-- **A collector is built exactly for well-named metrics**, and then the elements of each metric
are bound to a vector of their own, by one value for each exported key, which is the value of the
element's label of that key. Elements of one fingerprint are bound to one series. -/
theorem collector_built_iff_well_named (domain zone block : String) (ms : List Metric)
    (store : Store) (resolved : ∀ m ∈ ms, m.Resolved) :
    ((∃ c ns t, Collector.build domain zone block ms store = (.ok (c, ns), t)) ↔
      ∀ m ∈ ms, m.spec.WellNamed) ∧
    ∀ c ns t, Collector.build domain zone block ms store = (.ok (c, ns), t) →
      c.vectors.length = ms.length ∧ ns.length = ms.length ∧
      ∀ (k : Nat) m, ms[k]? = some m →
        ∃ i n, c.vectors[k]? = some i ∧ ns[k]? = some n ∧ Collector.Pairs t i m n :=
  ⟨Collector.build_isOk_iff domain zone block store resolved,
    fun _ _ _ built => Collector.build_pairs resolved built⟩

theorem Metric.alloc_resolved {block : String} {spec : MetricSpec} {turn : Nat} {scope : Scope}
    {m n : Metric} (made : Metric.alloc block spec = .ok m)
    (done : (m.resolveLabels turn scope).1 = .ok n) : n.Resolved := by
  refine ⟨fun none => ?_, turn, scope, m, done⟩
  obtain ⟨-, -, -, -, -, same, -⟩ := Metric.resolveLabels_ok done
  have count := congrArg List.length same
  rw [none, Metric.alloc_ok made, List.length_map, List.length_map, List.length_replicate] at count
  unfold Metric.alloc at made
  split at made
  · cases made
  · rename_i some
    simp only [MetricSpec.elementCount, Bool.and_eq_true, beq_iff_eq] at some count
    split at count
    · rename_i array
      exact some ⟨array, count.symm⟩
    · cases count

def laneSpec : MetricSpec :=
  { MetricSpec.simple "lanes" .gauge (.whole 0 4) with
    flags := ⟨true, false, false⟩
    nelements := 2
    labels := [⟨"unit", .fixed "mV", false⟩, ⟨"unit", .fixed "raw", true⟩] }

def laneLabels (index : String) : List Label :=
  [⟨"domain", "d", false⟩, ⟨"zone", "z", false⟩, ⟨"block", "b", false⟩, ⟨"unit", "mV", false⟩,
    ⟨"unit", "raw", true⟩, ⟨"index", index, false⟩]

def laneMetric : Metric :=
  ⟨laneSpec, ["0", "1"].map fun index => { Element.ofInit 0 with labels := laneLabels index }, []⟩

theorem collector_built_iff_well_named_lanes :
    ∃ c ns t, Collector.build "d" "z" "b" [laneMetric] .empty = (.ok (c, ns), t) ∧
      ∃ i n, c.vectors[0]? = some i ∧ ns[0]? = some n ∧ Collector.Pairs t i laneMetric n := by
  have named : laneSpec.WellNamed := ⟨by decide, by decide, by decide⟩
  have resolved : ∀ m ∈ [laneMetric], m.Resolved := by
    intro m member
    cases List.mem_singleton.mp member
    exact @Metric.alloc_resolved "b" laneSpec 0 ⟨"d", "z", "b", "lanes"⟩ _ _ rfl rfl
  have whole := collector_built_iff_well_named "d" "z" "b" [laneMetric] .empty resolved
  obtain ⟨c, ns, t, built⟩ := whole.1.mpr (List.forall_mem_singleton.mpr named)
  exact ⟨c, ns, t, built, (whole.2 c ns t built).2.2 0 laneMetric rfl⟩

/-- The first and the last of these four have different values with one fingerprint. -/
def alikeSpec : MetricSpec :=
  { MetricSpec.simple "lanes" .gauge (.whole 0 4) with
    flags := ⟨true, false, false⟩
    nelements := 4
    indexLabel := ⟨"index", some (IndexLabel.numbered "j11wmb8910o3i" "" 0 9), false⟩ }

def alikeMetric : Metric :=
  ⟨alikeSpec, ["9", "10", "11", "12"].map fun index => { Element.ofInit 0 with
    labels := Label.owners ⟨"d", "z", "b", "lanes"⟩ ++
      [⟨"index", "j11wmb8910o3i" ++ index, false⟩] }, []⟩

/-- An element lands in the series of another that has other values. -/
theorem collector_confounds_values :
    (∀ m ∈ [alikeMetric], m.Resolved ∧ m.spec.WellNamed) ∧
    ∃ c ns t, Collector.build "d" "z" "b" [alikeMetric] .empty = (.ok (c, ns), t) ∧
      ∃ i n v a b, c.vectors[0]? = some i ∧ ns[0]? = some n ∧ t.get? i = some v ∧
        n.elements[0]? = some a ∧ n.elements[3]? = some b ∧
        a.tuple = ["j11wmb8910o3i9"] ∧ b.tuple = ["j11wmb8910o3i12"] ∧ a.series = b.series ∧
        ∃ ref, b.series = some ref ∧ ∀ child ∈ v.children, child.key = ref.key →
          child.values = a.tuple := by
  have named : alikeSpec.WellNamed := ⟨by decide, by decide, by decide⟩
  have resolved : alikeMetric.Resolved :=
    @Metric.alloc_resolved "b" alikeSpec 0 ⟨"d", "z", "b", "lanes"⟩ _ _ rfl rfl
  have each : ∀ m ∈ [alikeMetric], m.Resolved := List.forall_mem_singleton.mpr resolved
  obtain ⟨c, ns, t, built⟩ :=
    (Collector.build_isOk_iff "d" "z" "b" .empty each).mpr (List.forall_mem_singleton.mpr named)
  obtain ⟨i, n, vector, same, pairs⟩ := (Collector.build_pairs each built).2.2 0 alikeMetric rfl
  obtain ⟨v, found, -, -, serves⟩ := pairs.vector
  let first := alikeMetric.elements[0]
  let last := alikeMetric.elements[3]
  have key : first.key = last.key := by decide +kernel
  have values : first.tuple = ["j11wmb8910o3i9"] ∧ last.tuple = ["j11wmb8910o3i12"] := by decide
  refine ⟨List.forall_mem_singleton.mpr ⟨resolved, named⟩, c, ns, t, built, i, n, v,
    first.bound i, last.bound i, vector, same, found, by rw [pairs.bound]; rfl,
    by rw [pairs.bound]; rfl, values.1, values.2, ?_, _, rfl, ?_⟩
  · simp only [Element.bound, key]
  · intro child inside own
    obtain ⟨before, d, after, split, -, foremost, bears⟩ :=
      (serves last (List.getElem_mem _)).first child inside own
    cases before with
    | nil =>
      cases (List.cons.inj split).1
      exact bears
    | cons e before =>
      cases (List.cons.inj split).1
      exact absurd (key ▸ List.mem_cons_self) foremost

end Telemetry
