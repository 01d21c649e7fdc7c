import Telemetry.Proofs.Describing
import Telemetry.Proofs.Remembering

/-! When a registry takes a collector. The identities of its descriptors have to be new and to
differ from each other, each has to agree with the dimensions of its name, and the sum of the
identities has to be new as well. Nothing else is asked, so a zone of one block whose collector can
be built is attached just if the registry takes it. -/
namespace Telemetry

open Series (Descriptor Registry Store)

namespace Series.Registry

variable {r : Registry} {d e : Descriptor} {ds : List Descriptor} {seen : List Fingerprint}

structure Compatible (d e : Descriptor) : Prop where
  identity : d.identity ≠ e.identity
  dimensions : d.name = e.name → e.dimensions = d.dimensions

structure Admissible (r : Registry) (ds : List Descriptor) : Prop where
  unused : ∀ d ∈ ds, d.identity ∉ r.identities
  agrees : ∀ d ∈ ds, r.Agrees d
  apart : ds.Pairwise Compatible
  fresh : (ds.map (·.identity)).sum ∉ r.entries.map (·.identity)

theorem agrees_iff : r.Agrees d ↔ (r.dimensions? d.name).any (· ≠ d.dimensions) = false := by
  unfold Agrees
  cases r.dimensions? d.name with
  | none => exact ⟨fun _ => rfl, fun _ x known => by cases known⟩
  | some x =>
    rw [Option.any_some, decide_eq_false_iff_not, not_not]
    constructor
    · intro agrees
      exact (agrees x rfl).symm
    · rintro same y ⟨⟩
      exact same.symm

theorem noting_agrees (own : r.Agrees d) :
    (r.noting d).Agrees e ↔ r.Agrees e ∧ (d.name = e.name → e.dimensions = d.dimensions) := by
  unfold Agrees
  rw [dimensions?_noting]
  cases known : r.dimensions? e.name with
  | none => by_cases same : d.name = e.name <;> simp [same]
  | some x =>
    have told : d.name = e.name → d.dimensions = x := fun same => own x (same ▸ known)
    constructor
    · intro agrees
      have here : e.dimensions = x := agrees x rfl
      exact ⟨agrees, fun same => here.trans (told same).symm⟩
    · exact fun agrees => agrees.1

theorem enroll_cons_isOk_iff : (∃ t, r.enroll seen (d :: ds) = (.ok (), t)) ↔
    (d.identity ∉ r.identities ∧ d.identity ∉ seen ∧ r.Agrees d) ∧
      ∃ t, (r.noting d).enroll (d.identity :: seen) ds = (.ok (), t) := by
  rw [enroll_cons, agrees_iff]
  by_cases used : d.identity ∈ r.identities
  · simp [used]
  by_cases repeated : d.identity ∈ seen
  · cases (r.dimensions? d.name).any (· ≠ d.dimensions) <;> simp [used, repeated]
  · cases (r.dimensions? d.name).any (· ≠ d.dimensions) <;> simp [used, repeated]

theorem enroll_isOk_iff : (∃ t, r.enroll seen ds = (.ok (), t)) ↔
    (∀ d ∈ ds, d.identity ∉ r.identities ∧ d.identity ∉ seen ∧ r.Agrees d) ∧
      ds.Pairwise Compatible := by
  induction ds generalizing r seen with
  | nil => exact ⟨fun _ => ⟨List.forall_mem_nil _, .nil⟩, fun _ => ⟨r, rfl⟩⟩
  | cons d rest ih =>
    -- The rest is walked with the dimensions of `d` noted and its identity seen.
    rw [enroll_cons_isOk_iff, List.forall_mem_cons, List.pairwise_cons, ih, (noting_same r d).2]
    constructor
    · rintro ⟨first, each, apart⟩
      refine ⟨⟨first, fun e member => ?_⟩, fun e member => ?_, apart⟩
      · obtain ⟨unused, unseen, agrees⟩ := each e member
        exact ⟨unused, List.not_mem_of_not_mem_cons unseen, ((noting_agrees first.2.2).mp agrees).1⟩
      · obtain ⟨-, unseen, agrees⟩ := each e member
        exact ⟨(List.ne_of_not_mem_cons unseen).symm, ((noting_agrees first.2.2).mp agrees).2⟩
    · rintro ⟨⟨first, each⟩, here, apart⟩
      refine ⟨first, fun e member => ?_, apart⟩
      obtain ⟨unused, unseen, agrees⟩ := each e member
      exact ⟨unused, List.not_mem_cons_of_ne_of_not_mem (here e member).identity.symm unseen,
        (noting_agrees first.2.2).mpr ⟨agrees, (here e member).dimensions⟩⟩

theorem register_isOk_iff (vectors : List Nat) :
    (∃ t, r.register ds vectors = (.ok (), t)) ↔ r.Admissible ds := by
  have held (u : Registry) (same : r.SameCollectors u) :
      u.holds (ds.map (·.identity)).sum = true ↔
        (ds.map (·.identity)).sum ∈ r.entries.map (·.identity) := by
    rw [holds, same.1, List.any_eq_true, List.mem_map]
    simp only [decide_eq_true_eq]
  have same := enroll_same r [] ds
  rw [register_eq]
  constructor
  · rintro ⟨t, accepted⟩
    split at accepted
    · cases accepted
    · rename_i u walked
      rw [walked] at same
      split at accepted
      · cases accepted
      · rename_i fresh
        obtain ⟨each, apart⟩ := enroll_isOk_iff.mp ⟨u, walked⟩
        exact ⟨fun d member => (each d member).1, fun d member => (each d member).2.2, apart,
          mt (held u same).mpr fresh⟩
  · intro h
    obtain ⟨u, walked⟩ := enroll_isOk_iff.mpr ⟨fun d member =>
      ⟨h.unused d member, List.not_mem_nil, h.agrees d member⟩, h.apart⟩
    rw [walked] at same ⊢
    exact ⟨_, if_neg (mt (held u same).mp h.fresh)⟩

end Series.Registry

/-! ### Zones of one block -/

def MetricSpec.descriptor (domain zone block : String) (spec : MetricSpec) : Descriptor :=
  ⟨spec.name, spec.help, ownerLabels domain zone block, spec.exportedKeys⟩

variable {env : Surroundings} {domain zone : String} {s u : Shared} {r : Nat}

theorem Shows.descriptors {block : String} {store : Store} {vs : List Nat} {ms : List Metric}
    (shows : List.Forall₂ (Shows domain zone block store) vs ms) :
    store.descriptors vs = ms.map (·.spec.descriptor domain zone block) := by
  induction shows with
  | nil => rfl
  | cons head _ ih =>
    obtain ⟨v, found, described, -⟩ := head.vector
    rw [Store.descriptors] at ih ⊢
    rw [List.filterMap_cons, found, Option.map_some, (describe_ok described).1, ih]
    rfl

namespace Metric

theorem labelElements_single {spec : MetricSpec} (single : spec.flags.array = false)
    (shared : List Label) (index : Nat) (es : List Element) :
    ∃ ds, labelElements spec shared index es = .ok ds := by
  induction es generalizing index with
  | nil => exact ⟨[], rfl⟩
  | cons e rest ih =>
    obtain ⟨ds, labelled⟩ := ih (index + 1)
    simp only [labelElements, indexLabels, single, labelled]
    exact ⟨_, rfl⟩

theorem resolveDeclared_fixed {labels : List LabelSpec}
    (fixed : ∀ label ∈ labels, ∃ text, label.value = .fixed text) (turn : Nat) (scope : Scope) :
    ∃ values, (resolveDeclared turn scope labels).1 = .ok values := by
  induction labels with
  | nil => exact ⟨[], rfl⟩
  | cons label rest ih =>
    obtain ⟨⟨text, here⟩, later⟩ := List.forall_mem_cons.mp fixed
    obtain ⟨values, done⟩ := ih later
    simp only [resolveDeclared, resolveLabel, here, done]
    exact ⟨text :: values, rfl⟩

theorem resolveLabels_single {m : Metric} (single : m.spec.flags.array = false)
    (fixed : ∀ label ∈ m.spec.labels, ∃ text, label.value = .fixed text) (turn : Nat)
    (scope : Scope) : ∃ n, (m.resolveLabels turn scope).1 = .ok n := by
  obtain ⟨values, done⟩ := resolveDeclared_fixed fixed turn scope
  obtain ⟨ds, labelled⟩ :=
    labelElements_single single (sharedLabels m.spec scope values) 0 m.elements
  unfold resolveLabels
  cases resolved : resolveDeclared turn scope m.spec.labels with | mk result events =>
  rw [resolved] at done
  cases done
  simp only [labelled]
  exact ⟨_, rfl⟩

end Metric

variable {δ : Type}

/-- A block that can be prepared wherever it is. -/
structure BlockSpec.Ordinary (spec : BlockSpec δ) : Prop where
  named : ∀ m ∈ spec.metrics, m.WellNamed
  single : ∀ m ∈ spec.metrics, m.flags.array = false
  fixed : ∀ m ∈ spec.metrics, ∀ label ∈ m.labels, ∃ text, label.value = .fixed text

namespace BlockSpec.Ordinary

variable {spec : BlockSpec δ} {b : Block δ}

theorem alloc (h : spec.Ordinary) : ∃ b, Block.alloc spec = .ok b := by
  have each (m : MetricSpec) (member : m ∈ spec.metrics) :
      ∃ n, Metric.alloc spec.name m = .ok n := by
    rw [Metric.alloc, h.single m member]
    exact ⟨_, rfl⟩
  obtain ⟨metrics, done⟩ := mapM_isOk each
  exact ⟨_, by rw [Block.alloc, done]; rfl⟩

theorem resolves (h : spec.Ordinary) (made : Block.alloc spec = .ok b) (env : Surroundings)
    (domain zone : String) (s : Shared) :
    ∃ ns u, sweep (Block.resolveMetric env domain zone b.name) b.metrics s = (none, ns, u) ∧
      ∀ n ∈ ns, n.Resolved ∧ n.spec.WellNamed := by
  obtain ⟨metrics, each, rfl⟩ := Block.alloc_ok made
  have own (m : Metric) (member : m ∈ metrics) :
      m.spec ∈ spec.metrics ∧ Metric.alloc spec.name m.spec = .ok m := by
    obtain ⟨ms, inside, allocated⟩ := forall₂_mem each m member
    have same := congrArg Metric.spec (Metric.alloc_ok allocated)
    rw [same]
    exact ⟨inside, allocated⟩
  cases swept : sweep (Block.resolveMetric env domain zone spec.name) metrics s with | mk fault rest =>
  obtain ⟨ns, u⟩ := rest
  cases fault with
  | some f =>
    -- The walk stops at a label that cannot be had, and these metrics have no such labels.
    obtain ⟨before, m, after, _, v, split, -, -, failed⟩ := sweep_stopped swept
    have member : m ∈ metrics := split ▸ List.mem_append_right before List.mem_cons_self
    have listed := (own m member).1
    obtain ⟨n, done⟩ := Metric.resolveLabels_single (h.single _ listed) (h.fixed _ listed)
      env.turn ⟨domain, zone, spec.name, m.name⟩
    simp only [Block.resolveMetric, done, Prod.mk.injEq] at failed
    cases failed.1
  | none =>
    have resolved := (sweep_forall₂ (fun _ => True)
      (fun m n : Metric => (m.resolveLabels env.turn ⟨domain, zone, spec.name, m.name⟩).1 = .ok n)
      (fun m _ n _ _ here => by
        simp only [Block.resolveMetric, Prod.mk.injEq] at here
        exact ⟨trivial, here.1⟩)
      trivial swept).2
    refine ⟨ns, u, rfl, fun n member => ?_⟩
    obtain ⟨m, inside, done⟩ := forall₂_mem resolved n member
    obtain ⟨listed, allocated⟩ := own m inside
    refine ⟨Metric.alloc_resolved allocated done, ?_⟩
    obtain ⟨-, -, -, same, -⟩ := Metric.resolveLabels_ok done
    rw [same]
    exact h.named _ listed

theorem prepare (h : spec.Ordinary) (made : Block.alloc spec = .ok b) (env : Surroundings)
    (domain zone : String) (s : Shared) : ∃ p u, b.prepare env domain zone s = (none, p, u) := by
  obtain ⟨ns, u, swept, ready⟩ := h.resolves made env domain zone s
  obtain ⟨vs, built, store, done⟩ := (Collector.buildVectors_isOk_iff domain zone b.name
    u.store fun n member => (ready n member).1).mpr fun n member => (ready n member).2
  rw [Block.prepare_eq]
  simp only [swept, done]
  exact ⟨_, _, rfl⟩

end BlockSpec.Ordinary

namespace Block

variable {b p : Block δ}

theorem Prepared.register_isOk_iff (h : Prepared env domain zone b p s u) (r : Nat) :
    (∃ t, p.register r u = (none, t)) ↔ b.metrics = [] ∨
      (u.registry r).Admissible (b.metrics.map (·.spec.descriptor domain zone b.name)) := by
  have specs : b.metrics.map (·.spec.descriptor domain zone b.name) =
      u.store.descriptors p.vectors := by
    rw [Shows.descriptors h.shows, ← h.plain, Block.plain, List.map_map]
    rfl
  have none : p.vectors = [] ↔ b.metrics = [] := by
    rw [← List.length_eq_zero_iff, h.shows.length_eq, ← h.plain, Block.plain,
      ← List.length_eq_zero_iff, List.length_map]
  rw [specs, ← none, ← Series.Registry.register_isOk_iff p.vectors]
  simp only [register, h.attached, Collector.register, Collector.isEmpty, List.isEmpty_iff]
  by_cases empty : p.vectors = []
  · simp [empty]
  · cases (u.registry r).register (u.store.descriptors p.vectors) p.vectors with | mk result t =>
    cases result <;> simp [empty]

end Block

namespace Zone

variable [Driver δ] {z : Zone δ} {b p : Block δ}

theorem attach_single (only : z.blocks = [b])
    (prepared : b.prepare env domain z.name s = (none, p, u)) (r : Nat) (handle : ZoneHandle) :
    ∃ w t, z.attach env domain r handle s =
      (match (p.register r u).1 with
        | none => .ok ()
        | some refusal => .error (.refused refusal), w, t) := by
  cases registered : p.register r u with | mk refusal v =>
  simp only [attach, only, prepareBlocks, prepared, registerBlocks, registered]
  cases refusal with
  | none => exact ⟨_, _, rfl⟩
  | some refusal => exact ⟨_, _, rfl⟩

end Zone

/-- **A zone of one ordinary block is attached just if the registry takes it**, and refused if it
does not. A block without metrics is not registered at all. -/
theorem Domain.allocZone_single [Driver δ] {d : Domain δ} (name : String) {spec : BlockSpec δ}
    (ordinary : spec.Ordinary) (sound : d.treePoisoned = false) (s : Shared) :
    let done := d.allocZone env ⟨name, [spec]⟩ s
    ((∃ handle, done.outcome = .ok handle) ↔ spec.metrics = [] ∨
      (s.registry d.registry).Admissible
        (spec.metrics.map (·.descriptor d.name name spec.name))) ∧
    ((∃ handle, done.outcome = .ok handle) ∨
      ∃ refusal, done.outcome = .error (.refused refusal)) := by
  obtain ⟨b, made⟩ := ordinary.alloc
  let z : Zone δ := ⟨name, true, [b], [b.valueCount].sum, none⟩
  have allocated : Zone.alloc ⟨name, [spec]⟩ = .ok z := by
    simp only [Zone.alloc, List.mapM_cons, List.mapM_nil, made]
    rfl
  obtain ⟨p, u, prepared⟩ := ordinary.prepare made env d.name name s
  have registries := (b.prepare_grows env d.name name s).1
  rw [prepared] at registries
  have bare := Block.alloc_bare made
  have specs : b.metrics.map (·.spec.descriptor d.name name b.name) =
      spec.metrics.map (·.descriptor d.name name spec.name) := by
    obtain ⟨metrics, each, rfl⟩ := Block.alloc_ok made
    exact (forall₂_map_eq (each.imp fun ms m made => by rw [Metric.alloc_ok made])).symm
  have taken := (Block.prepare_ok bare prepared).register_isOk_iff d.registry
  rw [specs, Shared.registry_congr registries, ← List.map_eq_nil_iff, specs,
    List.map_eq_nil_iff] at taken
  obtain ⟨w, t, attached⟩ := z.attach_single rfl prepared d.registry ⟨d.id, d.nextZone⟩
  rw [← taken]
  simp only [allocZone, allocated, attachZone, locked, sound, Bool.false_eq_true, if_false,
    attached]
  cases registered : p.register d.registry u with | mk refusal v =>
  cases refusal with
  | none => exact ⟨⟨fun _ => ⟨v, rfl⟩, fun _ => ⟨_, rfl⟩⟩, .inl ⟨_, rfl⟩⟩
  | some refusal => exact ⟨by simp, .inr ⟨_, rfl⟩⟩

end Telemetry
