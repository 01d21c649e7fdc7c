import Telemetry.Proofs.Detached
import Telemetry.Proofs.Mirror

/-! Preparing a block. Labelling computes every declared label once and building makes a new vector
for every metric, which then shows it. Nothing that was there before is touched, and a block that
is refused is as it was. -/
namespace Telemetry

open Series (Store Vector record)

namespace Series

theorem Vector.bind_set {v w : Vector} {e : Element} (bound : v.bind e.tuple = .ok w) :
    e.tuple.length = v.descriptor.labelNames.length ∧
      w.set e.key e.converted = { v with children := record v.children e } := by
  have here : (v.children.any (·.key == .ofJoined e.tuple)) = true ↔
      e.key ∈ v.children.map Child.key := by
    simp [Element.key, List.mem_map]
  unfold bind at bound
  split at bound
  · cases bound
  · rename_i sized
    refine ⟨not_ne_iff.mp sized, ?_⟩
    split at bound
    · rename_i present
      cases bound
      simp only [record, if_pos (here.mp present)]
      rfl
    · rename_i absent
      cases bound
      have missing : e.key ∉ v.children.map Child.key := fun h => absent (here.mpr h)
      have old := replace_absent e.converted missing
      have own : replace e.key e.converted [⟨e.tuple, .zero false⟩] = [e.child] := by
        simp only [replace, List.map_cons, List.map_nil]
        exact congrArg (· :: []) (if_pos rfl)
      simp only [record, if_neg missing, set, Vector.mk.injEq, true_and]
      rw [List.map_append]
      exact congrArg₂ (· ++ ·) old own

end Series

namespace Element

def bound (i : Nat) (e : Element) : Element := { e with series := some ⟨i, e.key⟩ }

end Element

namespace Collector

theorem bindElements_cons {i : Nat} {e : Element} {rest : List Element} {s : Store} {v : Vector}
    (found : s.get? i = some v) :
    bindElements i (e :: rest) s =
      match v.bind e.tuple with
      | .error r => (.error r, s)
      | .ok w =>
        match bindElements i rest ((s.modify i fun _ => w).set ⟨i, e.key⟩ e.converted) with
        | (.error r, s) => (.error r, s)
        | (.ok rest, s) => (.ok (e.bound i :: rest), s) := by
  simp only [bindElements, found]
  rfl

theorem bind_written {i : Nat} {e : Element} {s : Store} {v w : Vector}
    (found : s.get? i = some v) (bound : v.bind e.tuple = .ok w) :
    ((s.modify i fun _ => w).set ⟨i, e.key⟩ e.converted).get? i
        = some { v with children := record v.children e } ∧
      Store.Alters [i] s ((s.modify i fun _ => w).set ⟨i, e.key⟩ e.converted) := by
  have written : ((s.modify i fun _ => w).set ⟨i, e.key⟩ e.converted).get? i
      = some { v with children := record v.children e } := by
    rw [Store.set, Store.modify_modify, Store.get?_modify, if_pos rfl, found, Option.map_some]
    exact congrArg some (Vector.bind_set bound).2
  refine ⟨written, by simp [Store.set, Store.modify], ?_, ?_⟩
  · intro j outside
    have apart : i ≠ j := fun h => outside (h ▸ List.mem_singleton_self i)
    rw [Store.set, Store.modify_modify, Store.get?_modify, if_neg apart]
  · intro j u there
    by_cases here : i = j
    · subst here
      rw [found] at there
      cases there
      exact ⟨_, written⟩
    · refine ⟨u.children, ?_⟩
      rw [Store.set, Store.modify_modify, Store.get?_modify, if_neg here]
      exact there

theorem bindElements_alters {i : Nat} {es : List Element} {s : Store} :
    Store.Alters [i] s (bindElements i es s).2 := by
  induction es generalizing s with
  | nil => exact .refl _ _
  | cons e rest ih =>
    cases found : s.get? i with
    | none =>
      simp only [bindElements, found]
      exact .refl _ _
    | some v =>
      rw [bindElements_cons found]
      split
      · exact .refl _ _
      · rename_i w bound
        have head := (bind_written found bound).2
        have tail := ih (s := (s.modify i fun _ => w).set ⟨i, e.key⟩ e.converted)
        split
        · rename_i failed
          rw [failed] at tail
          exact head.trans tail
        · rename_i done
          rw [done] at tail
          exact head.trans tail

theorem bindElements_ok {i : Nat} {es ds : List Element} {s t : Store} {v : Vector}
    (found : s.get? i = some v) (bound : bindElements i es s = (.ok ds, t)) :
    ds = es.map (Element.bound i) ∧
      (∀ e ∈ es, e.tuple.length = v.descriptor.labelNames.length) ∧
      t.get? i = some { v with children := es.foldl record v.children } := by
  induction es generalizing s v ds with
  | nil =>
    cases bound
    exact ⟨rfl, by simp, found⟩
  | cons e rest ih =>
    rw [bindElements_cons found] at bound
    split at bound
    · cases bound
    · rename_i w here
      split at bound
      · cases bound
      · rename_i tail
        cases bound
        obtain ⟨rfl, sized, written⟩ := ih (bind_written found here).1 tail
        refine ⟨rfl, ?_, written⟩
        intro d member
        rcases List.mem_cons.mp member with rfl | member
        · exact (Vector.bind_set here).1
        · exact sized d member

variable {domain zone block : String}

theorem bindElements_shows {m : Metric} {i : Nat} {ds : List Element} {s t : Store} {v : Vector}
    (labelled : ∃ values, m.Labelled ⟨domain, zone, block, m.name⟩ values)
    (described : describe domain zone block m.spec = .ok v.descriptor) (gauge : v.kind = .gauge)
    (new : v.children = []) (found : s.get? i = some v)
    (bound : bindElements i m.elements s = (.ok ds, t)) :
    Shows domain zone block t i { m with elements := ds } := by
  obtain ⟨rfl, sized, written⟩ := bindElements_ok found bound
  obtain ⟨values, labelled⟩ := labelled
  have labels : Metric.Labelled ⟨domain, zone, block, m.name⟩ values
      { m with elements := m.elements.map (Element.bound i) } := by
    refine ⟨labelled.fits, ?_, labelled.computed⟩
    intro k d there
    rw [List.getElem?_map] at there
    obtain ⟨e, inside, rfl⟩ := Option.map_eq_some_iff.mp there
    exact labelled.elements k e inside
  have sizes : ∀ d ∈ m.elements.map (Element.bound i),
      d.tuple.length = v.descriptor.labelNames.length := by
    intro d member
    obtain ⟨e, inside, rfl⟩ := List.mem_map.mp member
    exact sized e inside
  have children : m.elements.foldl record v.children
      = (m.elements.map (Element.bound i)).foldl record [] := by
    rw [new, List.foldl_map]
    rfl
  refine ⟨⟨values, labels⟩, ?_, _, written, described, gauge, sizes, ?_⟩
  · intro d member
    obtain ⟨e, -, rfl⟩ := List.mem_map.mp member
    rfl
  · rw [children, Series.foldl_record_nil]

structure Built (domain zone block : String) (ms ns : List Metric) (vs : List Nat) (s t : Store) :
    Prop where
  plain : ns.map Metric.plain = ms.map Metric.plain
  held : ns.flatMap Metric.held = ms.flatMap Metric.held
  shows : List.Forall₂ (Shows domain zone block t) vs ns
  unique : vs.Nodup
  fresh : ∀ i ∈ vs, s.vectors.length ≤ i

theorem bound_plain {m : Metric} {i : Nat} :
    Metric.plain { m with elements := m.elements.map (Element.bound i) } = m.plain := by
  simp only [Metric.plain, List.map_map]
  rfl

theorem buildVectors_cons {m : Metric} {d : Series.Descriptor} (rest : List Metric) (s : Store)
    (described : describe domain zone block m.spec = .ok d) :
    buildVectors domain zone block (m :: rest) s =
      match bindElements s.vectors.length m.elements (s.add ⟨d, .gauge, []⟩).2 with
      | (.error r, t) => (.error r, t)
      | (.ok elements, t) =>
        match buildVectors domain zone block rest t with
        | (.error r, t) => (.error r, t)
        | (.ok (vectors, metrics), t) =>
          (.ok (s.vectors.length :: vectors, { m with elements } :: metrics), t) := by
  simp only [buildVectors, described]
  rfl

theorem bindElements_extends (d : Series.Descriptor) (es : List Element) (s : Store) :
    Store.Extends s (bindElements s.vectors.length es (s.add ⟨d, .gauge, []⟩).2).2 := by
  refine bindElements_alters.keeps (.add s _) fun i member => ?_
  exact Nat.le_of_eq (List.mem_singleton.mp member).symm

theorem buildVectors_extends (domain zone block : String) (ms : List Metric) (s : Store) :
    Store.Extends s (buildVectors domain zone block ms s).2 := by
  induction ms generalizing s with
  | nil => exact .refl s
  | cons m rest ih =>
    cases described : describe domain zone block m.spec with
    | error r =>
      simp only [buildVectors, described]
      exact .refl s
    | ok d =>
      have head := bindElements_extends d m.elements s
      rw [buildVectors_cons rest s described]
      split
      · rename_i failed
        rw [failed] at head
        exact head
      · rename_i elements t bound
        rw [bound] at head
        have tail := ih t
        split
        · rename_i failed
          rw [failed] at tail
          exact head.trans tail
        · rename_i done
          rw [done] at tail
          exact head.trans tail

theorem buildVectors_cons_ok {m : Metric} {rest ns : List Metric} {vs : List Nat} {s t : Store}
    (built : buildVectors domain zone block (m :: rest) s = (.ok (vs, ns), t)) :
    ∃ d elements u vectors metrics, describe domain zone block m.spec = .ok d ∧
      bindElements s.vectors.length m.elements (s.add ⟨d, .gauge, []⟩).2 = (.ok elements, u) ∧
      buildVectors domain zone block rest u = (.ok (vectors, metrics), t) ∧
      vs = s.vectors.length :: vectors ∧ ns = { m with elements } :: metrics := by
  cases described : describe domain zone block m.spec with
  | error r =>
    simp only [buildVectors, described] at built
    cases built
  | ok d =>
    rw [buildVectors_cons rest s described] at built
    split at built
    · cases built
    · rename_i elements u bound
      split at built
      · cases built
      · rename_i later
        cases built
        exact ⟨d, elements, u, _, _, rfl, bound, later, rfl, rfl⟩

theorem get?_added (d : Series.Descriptor) (s : Store) :
    (s.add ⟨d, .gauge, []⟩).2.get? s.vectors.length = some ⟨d, .gauge, []⟩ := by
  rw [Store.get?_add, if_pos rfl]

theorem buildVectors_built {ms ns : List Metric} {vs : List Nat} {s t : Store}
    (labelled : ∀ m ∈ ms, ∃ values, m.Labelled ⟨domain, zone, block, m.name⟩ values)
    (built : buildVectors domain zone block ms s = (.ok (vs, ns), t)) :
    Built domain zone block ms ns vs s t := by
  induction ms generalizing s vs ns with
  | nil =>
    cases built
    exact ⟨rfl, rfl, .nil, .nil, by simp⟩
  | cons m rest ih =>
    obtain ⟨d, elements, u, vectors, metrics, described, bound, later, rfl, rfl⟩ :=
      buildVectors_cons_ok built
    have here := bindElements_shows (labelled m List.mem_cons_self) described rfl rfl
      (get?_added d s) bound
    have tail := ih (fun n member => labelled n (List.mem_cons_of_mem _ member)) later
    have after : s.vectors.length < u.vectors.length := here.lt
    have grown := buildVectors_extends domain zone block rest u
    rw [later] at grown
    refine ⟨?_, ?_, .cons (here.congr (grown.get? after)) tail.shows, ?_, ?_⟩
    · obtain ⟨rfl, -⟩ := bindElements_ok (get?_added d s) bound
      rw [List.map_cons, List.map_cons, tail.plain, bound_plain]
    · rw [List.flatMap_cons, List.flatMap_cons, tail.held]
      rfl
    · refine List.nodup_cons.mpr ⟨fun again => ?_, tail.unique⟩
      have := tail.fresh _ again
      omega
    · intro i member
      rcases List.mem_cons.mp member with rfl | member
      · exact Nat.le_refl _
      · have := tail.fresh i member
        omega

end Collector

namespace Block

variable {δ : Type} {env : Surroundings} {domain zone : String}

theorem resolveMetric_agrees (env : Surroundings) (domain zone block : String) (m : Metric)
    (s : Shared) : s.Agrees (resolveMetric env domain zone block m s).2 := .emit s _

def computationsOf (env : Surroundings) (domain zone block : String) (m : Metric) :
    List Computed :=
  Metric.computations env.turn ⟨domain, zone, block, m.name⟩ m.spec

def computations (env : Surroundings) (domain zone : String) (b : Block δ) : List Computed :=
  b.metrics.flatMap (computationsOf env domain zone b.name)

def held (b : Block δ) : List Computed := b.metrics.flatMap Metric.held

theorem released_held (b : Block δ) : b.released = b.held.flatMap Computed.released := by
  rw [released, held, List.flatMap_assoc]
  exact List.flatMap_congr fun m _ => m.released_held

theorem resolveMetric_events (env : Surroundings) (domain zone block : String) (m : Metric)
    (s : Shared) :
    (resolveMetric env domain zone block m s).2
      = s.emit ((computationsOf env domain zone block m).map Computed.resolved) :=
  congrArg s.emit (m.resolveLabels_events env.turn ⟨domain, zone, block, m.name⟩)

theorem resolveMetric_ok {block : String} {m n : Metric} {s t : Shared} (bare : m.Bare)
    (done : resolveMetric env domain zone block m s = (.ok n, t)) :
    n.plain = m ∧ (∃ values, n.Labelled ⟨domain, zone, block, n.name⟩ values) ∧
      n.held = computationsOf env domain zone block m ∧
      t = s.emit ((computationsOf env domain zone block m).map Computed.resolved) := by
  have events := resolveMetric_events env domain zone block m s
  rw [done] at events
  simp only [resolveMetric, Prod.mk.injEq] at done
  obtain ⟨values, fits, held, spec, computed, same, labels⟩ := Metric.resolveLabels_ok done.1
  rw [bare.computed, List.nil_append] at computed
  have name : n.name = m.name := congrArg MetricSpec.name spec
  refine ⟨?_, ⟨values, spec ▸ fits, ?_, by rw [computed, spec]⟩, ?_, events⟩
  · have plain := congrArg (List.map fun e : Element => { e with series := none }) same
    rw [List.map_map, List.map_map] at plain
    have elements : n.elements.map Element.plain = m.elements.map Element.plain := plain
    have whole := bare.plain
    unfold Metric.plain at whole ⊢
    rw [elements, spec]
    exact whole
  · rw [name, spec]
    exact labels
  · rw [Metric.held, computed, spec, held]
    rfl

theorem sweep_resolveMetric {block : String} {ms ns : List Metric} {s t : Shared}
    (bare : ∀ m ∈ ms, m.Bare)
    (whole : sweep (resolveMetric env domain zone block) ms s = (none, ns, t)) :
    ns.map Metric.plain = ms ∧
      (∀ n ∈ ns, ∃ values, n.Labelled ⟨domain, zone, block, n.name⟩ values) ∧
      ns.flatMap Metric.held = ms.flatMap (computationsOf env domain zone block) ∧
      t = s.emit ((ms.flatMap (computationsOf env domain zone block)).map Computed.resolved) := by
  induction ms generalizing s ns with
  | nil =>
    cases whole
    exact ⟨rfl, by simp, rfl, rfl⟩
  | cons m rest ih =>
    unfold sweep at whole
    split at whole
    · cases whole
    · rename_i n u here
      cases later : sweep (resolveMetric env domain zone block) rest u with | mk fault others =>
      obtain ⟨others, w⟩ := others
      simp only [later] at whole
      cases whole
      obtain ⟨plain, labelled, held, rfl⟩ := resolveMetric_ok (bare m List.mem_cons_self) here
      obtain ⟨plains, labels, kept, rfl⟩ :=
        ih (fun m member => bare m (List.mem_cons_of_mem _ member)) later
      refine ⟨by rw [List.map_cons, plain, plains], ?_, ?_, ?_⟩
      · intro d member
        rcases List.mem_cons.mp member with rfl | member
        · exact labelled
        · exact labels d member
      · rw [List.flatMap_cons, List.flatMap_cons, held, kept]
      · rw [Shared.emit_emit, List.flatMap_cons, List.map_append]

theorem sweep_resolveMetric_agrees (env : Surroundings) (domain zone block : String)
    (ms : List Metric) (s : Shared) :
    s.Agrees (sweep (resolveMetric env domain zone block) ms s).2.2 :=
  sweep_in_place (resolveMetric env domain zone block) (fun _ t => s.Agrees t)
    (fun _ m _ u _ _ held failed => by
      have quiet := resolveMetric_agrees env domain zone block m u
      rw [failed] at quiet
      exact held.trans quiet)
    (fun _ m _ u _ _ held done => by
      have quiet := resolveMetric_agrees env domain zone block m u
      rw [done] at quiet
      exact held.trans quiet)
    [] ms s (.refl s)

/-- A block that was prepared: what it shows, and what undoing it will give back. -/
structure Prepared (env : Surroundings) (domain zone : String) (b p : Block δ) (s t : Shared) :
    Prop where
  plain : p.plain = b
  held : p.held = b.computations env domain zone
  attached : p.collector = some ⟨p.name, p.vectors⟩
  shows : List.Forall₂ (Shows domain zone p.name t.store) p.vectors p.metrics
  unique : p.vectors.Nodup
  fresh : ∀ i ∈ p.vectors, s.store.vectors.length ≤ i
  events : t.events = s.events ++ (b.computations env domain zone).map Computed.resolved

theorem prepare_eq (b : Block δ) (s : Shared) :
    b.prepare env domain zone s =
      match sweep (resolveMetric env domain zone b.name) b.metrics s with
      | (some f, metrics, s) => (some (.fault f), { b with metrics }, s)
      | (none, metrics, s) =>
        match Collector.buildVectors domain zone b.name metrics s.store with
        | (.error r, store) =>
          (some (.refused ⟨b.name, r⟩), { b with metrics := metrics.map Metric.plain },
            { s with store }.emit { b with metrics }.released)
        | (.ok (vectors, built), store) =>
          (none, { b with metrics := built, collector := some ⟨b.name, vectors⟩ },
            { s with store }) := by
  cases swept : sweep (resolveMetric env domain zone b.name) b.metrics s with | mk fault rest =>
  obtain ⟨metrics, u⟩ := rest
  simp only [prepare, Block.resolveLabels, swept]
  cases fault with
  | some f => rfl
  | none =>
    simp only [Collector.build]
    cases built : Collector.buildVectors domain zone b.name metrics u.store with | mk result store =>
    cases result with
    | error r => simp only [releaseLabels_eq]
    | ok made => rfl

theorem prepare_grows (env : Surroundings) (domain zone : String) (b : Block δ) (s : Shared) :
    (b.prepare env domain zone s).2.2.registries = s.registries ∧
      Store.Extends s.store (b.prepare env domain zone s).2.2.store := by
  have quiet := sweep_resolveMetric_agrees env domain zone b.name b.metrics s
  rw [prepare_eq]
  split
  · rename_i failed
    rw [failed] at quiet
    exact ⟨quiet.1, quiet.2 ▸ .refl _⟩
  · rename_i metrics u done
    rw [done] at quiet
    have grown := Collector.buildVectors_extends domain zone b.name metrics u.store
    rw [quiet.2] at grown
    split
    · rename_i refused
      rw [quiet.2] at refused
      rw [refused] at grown
      exact ⟨quiet.1, grown⟩
    · rename_i built
      rw [quiet.2] at built
      rw [built] at grown
      exact ⟨quiet.1, grown⟩

theorem prepare_ok {b p : Block δ} {s t : Shared} (bare : b.Bare)
    (done : b.prepare env domain zone s = (none, p, t)) : Prepared env domain zone b p s t := by
  rw [prepare_eq] at done
  split at done
  · cases done
  · rename_i metrics u whole
    obtain ⟨plain, labelled, held, rfl⟩ := sweep_resolveMetric bare.metrics whole
    split at done
    · cases done
    · rename_i vectors built store made
      cases done
      have shows := Collector.buildVectors_built labelled made
      refine ⟨?_, shows.held.trans held, rfl, shows.shows, shows.unique, shows.fresh,
        Shared.events_emit _ _⟩
      have same : built.map Metric.plain = b.metrics := by
        rw [shows.plain, plain]
      rw [Block.plain, same, ← bare.collector]

/-- A block that is refused is as it was, and has given back what it had computed. -/
theorem prepare_refused {b p : Block δ} {s t : Shared} {r : Refusal} (bare : b.Bare)
    (refused : b.prepare env domain zone s = (some (.refused r), p, t)) :
    p = b ∧ t.events = s.events ++ (b.computations env domain zone).map Computed.resolved ++
      (b.computations env domain zone).flatMap Computed.released := by
  rw [prepare_eq] at refused
  split at refused
  · cases refused
  · rename_i metrics u whole
    obtain ⟨plain, -, held, rfl⟩ := sweep_resolveMetric bare.metrics whole
    split at refused
    · cases refused
      refine ⟨by rw [plain], ?_⟩
      have given : ({ b with metrics } : Block δ).released =
          (b.computations env domain zone).flatMap Computed.released := by
        rw [released_held]
        exact congrArg (List.flatMap Computed.released) held
      rw [Shared.events_emit]
      exact congrArg₂ (· ++ ·) (Shared.events_emit _ _) given
    · cases refused

theorem sweep_resolveMetric_fault {block : String} {ms ns : List Metric} {f : Fault} {s t : Shared}
    (failed : sweep (resolveMetric env domain zone block) ms s = (some f, ns, t)) :
    f.unlabelled = true := by
  induction ms generalizing s ns with
  | nil => cases failed
  | cons m rest ih =>
    unfold sweep at failed
    split at failed
    · rename_i here
      cases failed
      simp only [resolveMetric, Prod.mk.injEq] at here
      exact Metric.resolveLabels_error here.1
    · rename_i n u _
      cases later : sweep (resolveMetric env domain zone block) rest u with | mk fault others =>
      obtain ⟨others, w⟩ := others
      simp only [later] at failed
      cases failed
      exact ih later

/-- A fault stops at a metric; its labels were computed as far as they could be, and those of the
metrics before it. -/
theorem sweep_resolveMetric_cut {block : String} {ms ns : List Metric} {f : Fault} {s t : Shared}
    (failed : sweep (resolveMetric env domain zone block) ms s = (some f, ns, t)) :
    ∃ cs, cs <+: ms.flatMap (computationsOf env domain zone block) ∧
      t = s.emit (cs.map Computed.resolved) := by
  induction ms generalizing s ns with
  | nil => cases failed
  | cons m rest ih =>
    have said := resolveMetric_events env domain zone block m s
    unfold sweep at failed
    split at failed
    · rename_i here
      simp only [here] at said
      cases failed
      exact ⟨_, List.prefix_append _ _, said⟩
    · rename_i n u here
      simp only [here] at said
      cases later : sweep (resolveMetric env domain zone block) rest u with | mk fault others =>
      obtain ⟨others, w⟩ := others
      simp only [later] at failed
      cases failed
      obtain ⟨cs, front, whole⟩ := ih later
      refine ⟨_, (List.prefix_append_right_inj _).mpr front, ?_⟩
      rw [whole, said, Shared.emit_emit, List.map_append]

theorem prepare_cut {b p : Block δ} {s t : Shared} {f : Fault}
    (failed : b.prepare env domain zone s = (some (.fault f), p, t)) :
    f.unlabelled = true ∧ ∃ cs, cs <+: b.computations env domain zone ∧
      t.events = s.events ++ cs.map Computed.resolved := by
  rw [prepare_eq] at failed
  split at failed
  · rename_i stopped
    cases failed
    obtain ⟨cs, front, whole⟩ := sweep_resolveMetric_cut stopped
    exact ⟨sweep_resolveMetric_fault stopped, cs, front, by rw [whole, Shared.events_emit]⟩
  · split at failed <;> cases failed

end Block

end Telemetry
