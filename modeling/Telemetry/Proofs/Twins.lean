import Telemetry.Proofs.Readings
import Telemetry.Proofs.Renumbering

/-! Two runs side by side, what is shared in one being the twin of what is shared in the other. Every
step over blocks and zones ends the same way in both and leaves twins, whatever the numbers of its
vectors; a registration does so if its descriptors heed what the other registry has learned. -/
namespace Telemetry

open Series (Store Registry Rejection)

/-- What sets two runs apart: the places of vectors, the dimensions that registries have learned in
the second one, and the journals from which the runs went on. -/
structure Residue where
  place : Nat → Nat
  learned : Nat → String → Option Fingerprint
  journals : List Event × List Event

namespace Residue

structure Twin (ρ : Residue) (s t : Shared) : Prop where
  store : Store.Twin ρ.place s.store t.store
  count : t.registries.length = s.registries.length
  registry : ∀ r, Registry.Twin ρ.place (ρ.learned r) (s.registry r) (t.registry r)
  journal : ∃ events, s.journal = events ++ ρ.journals.1 ∧ t.journal = events ++ ρ.journals.2

namespace Twin

variable {ρ : Residue} {s t : Shared}

theorem emit (h : ρ.Twin s t) (events : List Event) : ρ.Twin (s.emit events) (t.emit events) := by
  obtain ⟨since, short, long⟩ := h.journal
  refine ⟨h.store, h.count, h.registry, events.reverse ++ since, ?_, ?_⟩
  · rw [List.append_assoc, ← short]
    rfl
  · rw [List.append_assoc, ← long]
    rfl

theorem log (h : ρ.Twin s t) (level : Level) (message : String) :
    ρ.Twin (s.log level message) (t.log level message) := h.emit _

theorem hooks (h : ρ.Twin s t) (lines : List String) : ρ.Twin (s.hooks lines) (t.hooks lines) :=
  h.emit _

theorem stored (h : ρ.Twin s t) {before after : Store} (store : Store.Twin ρ.place before after) :
    ρ.Twin { s with store := before } { t with store := after } :=
  ⟨store, h.count, h.registry, h.journal⟩

theorem setRegistry (h : ρ.Twin s t) (i : Nat) {r q : Registry}
    (same : Registry.Twin ρ.place (ρ.learned i) r q) :
    ρ.Twin (s.setRegistry i r) (t.setRegistry i q) := by
  refine ⟨h.store, ?_, ?_, h.journal⟩
  · simpa [Shared.setRegistry] using h.count
  · intro j
    by_cases present : i < s.registries.length
    · rw [s.registry_setRegistry i j r present,
        t.registry_setRegistry i j q (h.count.symm ▸ present)]
      split
      · rename_i here
        exact here ▸ same
      · exact h.registry j
    · have none : s.setRegistry i r = s := by
        rw [Shared.setRegistry, List.set_eq_of_length_le (Nat.le_of_not_lt present)]
      have other : t.setRegistry i q = t := by
        rw [Shared.setRegistry, List.set_eq_of_length_le (h.count ▸ Nat.le_of_not_lt present)]
      rw [none, other]
      exact h.registry j

theorem events (h : ρ.Twin s t) :
    ∃ since, s.events = ρ.journals.1.reverse ++ since ∧
      t.events = ρ.journals.2.reverse ++ since := by
  obtain ⟨since, short, long⟩ := h.journal
  refine ⟨since.reverse, ?_, ?_⟩
  · rw [Shared.events, short, List.reverse_append]
  · rw [Shared.events, long, List.reverse_append]

end Twin

end Residue

variable {ρ : Residue} {place : Nat → Nat}

/-! ### Building collectors -/

namespace Metric

theorem labelElements_renumbered (place : Nat → Nat) (spec : MetricSpec) (shared : List Label)
    (index : Nat) (es : List Element) :
    labelElements spec shared index (es.map (·.renumbered place)) =
      (labelElements spec shared index es).map (·.map (·.renumbered place)) := by
  induction es generalizing index with
  | nil => rfl
  | cons e rest ih =>
    simp only [List.map_cons, labelElements, ih]
    cases indexLabels spec index with
    | error o => rfl
    | ok own => cases labelElements spec shared (index + 1) rest <;> rfl

theorem resolveLabels_renumbered (place : Nat → Nat) (turn : Nat) (scope : Scope) (m : Metric) :
    (m.renumbered place).resolveLabels turn scope =
      ((m.resolveLabels turn scope).1.map (·.renumbered place),
        (m.resolveLabels turn scope).2) := by
  have spec : (m.renumbered place).spec = m.spec := rfl
  have elements : (m.renumbered place).elements = m.elements.map (·.renumbered place) := rfl
  simp only [resolveLabels, spec, elements]
  cases resolveDeclared turn scope m.spec.labels with | mk declared events =>
  cases declared with
  | error message => rfl
  | ok values =>
    simp only [labelElements_renumbered]
    cases labelElements m.spec (sharedLabels m.spec scope values) 0 m.elements <;> rfl

theorem plain_renumbered (place : Nat → Nat) (m : Metric) :
    (m.renumbered place).plain = m.plain := by
  simp only [plain, renumbered, List.map_map]
  rfl

theorem renumbered_plain (place : Nat → Nat) (m : Metric) : m.plain.renumbered place = m.plain := by
  simp only [plain, renumbered, List.map_map]
  rfl

end Metric

namespace Collector

variable {s s' t : Store}

theorem bindElements_beside {i : Nat} {es : List Element}
    {result : Except Rejection (List Element)} (h : Store.Twin place s t)
    (done : bindElements i es s = (result, s')) :
    ∃ t', bindElements (place i) (es.map (·.renumbered place)) t =
      (result.map (·.map (·.renumbered place)), t') ∧ Store.Twin place s' t' := by
  induction es generalizing s t result s' with
  | nil =>
    cases done
    exact ⟨t, rfl, h⟩
  | cons e rest ih =>
    cases found : s.get? i with
    | none =>
      have none : t.get? (place i) = none := (h.found i).trans found
      simp only [bindElements, found] at done
      cases done
      exact ⟨t, by simp only [List.map_cons, bindElements, none]; rfl, h⟩
    | some v =>
      rw [bindElements_cons found] at done
      rw [List.map_cons, bindElements_cons ((h.found i).trans found)]
      have tuple : (e.renumbered place).tuple = e.tuple := rfl
      rw [tuple]
      cases bound : v.bind e.tuple with
      | error r =>
        simp only [bound] at done
        cases done
        exact ⟨t, rfl, h⟩
      | ok w =>
        have set := (h.modify i fun _ => w).set ⟨i, e.key⟩ e.converted
        cases later : bindElements i rest ((s.modify i fun _ => w).set ⟨i, e.key⟩ e.converted) with
        | mk others u =>
        obtain ⟨t', there, twin⟩ := ih set later
        have same : bindElements (place i) (rest.map (·.renumbered place))
            ((t.modify (place i) fun _ => w).set ⟨place i, (e.renumbered place).key⟩
              (e.renumbered place).converted) =
            (others.map (·.map (·.renumbered place)), t') := there
        simp only [bound, later] at done
        simp only [same]
        cases others with
        | error r =>
          cases done
          exact ⟨t', rfl, twin⟩
        | ok ds =>
          cases done
          exact ⟨t', rfl, twin⟩

theorem buildVectors_beside {domain zone block : String} {ms : List Metric}
    {result : Except Rejection (List Nat × List Metric)} (h : Store.Twin place s t)
    (done : buildVectors domain zone block ms s = (result, s')) :
    ∃ t', buildVectors domain zone block (ms.map (·.renumbered place)) t =
      (result.map fun (vectors, metrics) =>
        (vectors.map place, metrics.map (·.renumbered place)), t') ∧ Store.Twin place s' t' := by
  induction ms generalizing s t result s' with
  | nil =>
    cases done
    exact ⟨t, rfl, h⟩
  | cons m rest ih =>
    cases described : describe domain zone block m.spec with
    | error r =>
      have other : describe domain zone block (m.renumbered place).spec = .error r := described
      simp only [buildVectors, described] at done
      cases done
      exact ⟨t, by simp only [List.map_cons, buildVectors, other, Except.map], h⟩
    | ok d =>
      have other : describe domain zone block (m.renumbered place).spec = .ok d := described
      rw [buildVectors_cons rest s described] at done
      rw [List.map_cons, buildVectors_cons _ t other, ← h.new]
      cases bound : bindElements s.vectors.length m.elements (s.add ⟨d, .gauge, []⟩).2 with
      | mk elements u =>
      obtain ⟨v, there, twin⟩ := bindElements_beside (h.add _) bound
      have same : bindElements (place s.vectors.length) (m.renumbered place).elements
          (t.add ⟨d, .gauge, []⟩).2 = (elements.map (·.map (·.renumbered place)), v) := there
      simp only [bound] at done
      simp only [same]
      cases elements with
      | error r =>
        cases done
        exact ⟨v, rfl, twin⟩
      | ok elements =>
        cases later : buildVectors domain zone block rest u with | mk built w =>
        obtain ⟨t', others, twins⟩ := ih twin later
        simp only [later] at done
        simp only [Except.map] at others ⊢
        simp only [others]
        cases built with
        | error r =>
          cases done
          exact ⟨t', rfl, twins⟩
        | ok made =>
          cases done
          exact ⟨t', rfl, twins⟩

end Collector

/-! ### Registering -/

namespace Collector

variable {c : Collector} {s s' t : Shared} {r : Nat} {refusal : Option Refusal}

theorem isEmpty_renumbered (place : Nat → Nat) (c : Collector) :
    (c.renumbered place).isEmpty = c.isEmpty := List.isEmpty_map

theorem register_beside (h : ρ.Twin s t)
    (heeds : ∀ d ∈ s.store.descriptors c.vectors, d.Heeds (ρ.learned r))
    (done : c.register r s = (refusal, s')) :
    ∃ t', (c.renumbered ρ.place).register r t = (refusal, t') ∧ ρ.Twin s' t' := by
  simp only [register] at done
  simp only [register, isEmpty_renumbered]
  split at done
  · rename_i empty
    cases done
    exact ⟨t, if_pos empty, h⟩
  · rename_i full
    cases answer : (s.registry r).register (s.store.descriptors c.vectors) c.vectors with
    | mk result q =>
    obtain ⟨q', there, twin⟩ := (h.registry r).register heeds answer
    rw [← h.store.descriptors] at there
    simp only [answer] at done
    simp only [renumbered, there, if_neg full]
    cases result <;> (cases done; exact ⟨_, rfl, h.setRegistry r twin⟩)

theorem unregister_beside (h : ρ.Twin s t) (done : c.unregister r s = (refusal, s')) :
    ∃ t', (c.renumbered ρ.place).unregister r t = (refusal, t') ∧ ρ.Twin s' t' := by
  have cleared := h.stored (h.store.clear c.vectors)
  simp only [unregister] at done
  simp only [unregister, isEmpty_renumbered]
  split at done
  · rename_i empty
    cases done
    exact ⟨_, if_pos empty, cleared⟩
  · rename_i full
    cases answer : (Shared.registry { s with store := s.store.clear c.vectors } r).unregister
      ((s.store.clear c.vectors).descriptors c.vectors) with
    | mk result q =>
    obtain ⟨q', there, twin⟩ := (cleared.registry r).unregister answer
    rw [← cleared.store.descriptors] at there
    simp only [answer] at done
    simp only [renumbered, there, if_neg full]
    cases result <;> (cases done; exact ⟨_, rfl, cleared.setRegistry r twin⟩)

end Collector

namespace Block

variable {δ : Type} {env : Surroundings} {b : Block δ} {s s' t : Shared} {r : Nat}

theorem register_beside {refusal : Option Refusal} (h : ρ.Twin s t)
    (heeds : ∀ d ∈ b.descriptors s.store, d.Heeds (ρ.learned r))
    (done : b.register r s = (refusal, s')) :
    ∃ t', (b.renumbered ρ.place).register r t = (refusal, t') ∧ ρ.Twin s' t' := by
  unfold descriptors at heeds
  unfold register at done
  simp only [register, renumbered]
  cases attached : b.collector with
  | none =>
    simp only [attached] at done
    cases done
    exact ⟨t, rfl, h⟩
  | some c =>
    simp only [attached] at done heeds
    exact Collector.register_beside h heeds done

theorem unregister_beside {fault : Option Fault} (h : ρ.Twin s t)
    (done : b.unregister r s = (fault, s')) :
    ∃ t', (b.renumbered ρ.place).unregister r t = (fault, t') ∧ ρ.Twin s' t' := by
  unfold unregister at done
  simp only [unregister, renumbered]
  cases attached : b.collector with
  | none =>
    simp only [attached] at done
    cases done
    exact ⟨t, rfl, h⟩
  | some c =>
    simp only [attached] at done
    cases answer : c.unregister r s with | mk refusal u =>
    obtain ⟨v, there, twin⟩ := Collector.unregister_beside h answer
    simp only [answer] at done
    simp only [Option.map_some, there]
    cases refusal <;> (cases done; exact ⟨v, rfl, twin⟩)

/-! ### Preparing -/

theorem plain_renumbered (place : Nat → Nat) (b : Block δ) :
    (b.renumbered place).plain = b.plain := by
  simp only [plain, renumbered, List.map_map, Function.comp_def, Metric.plain_renumbered]

theorem renumbered_plain (place : Nat → Nat) (b : Block δ) :
    b.plain.renumbered place = b.plain := by
  simp only [plain, renumbered, List.map_map, Function.comp_def, Metric.renumbered_plain,
    Option.map_none]

theorem released_renumbered (place : Nat → Nat) (b : Block δ) :
    (b.renumbered place).released = b.released := List.flatMap_map ..

theorem resolveMetric_beside {domain zone block : String} {m : Metric}
    {result : Except Fault Metric} (h : ρ.Twin s t)
    (done : resolveMetric env domain zone block m s = (result, s')) :
    ∃ t', resolveMetric env domain zone block (m.renumbered ρ.place) t =
      (result.map (·.renumbered ρ.place), t') ∧ ρ.Twin s' t' := by
  have name : (m.renumbered ρ.place).name = m.name := rfl
  simp only [resolveMetric] at done
  simp only [resolveMetric, name, Metric.resolveLabels_renumbered]
  cases done
  exact ⟨_, rfl, h.emit _⟩

theorem prepare_beside {domain zone : String} {p : Block δ} {failure : Option Failure}
    (h : ρ.Twin s t) (done : b.prepare env domain zone s = (failure, p, s')) :
    ∃ t', (b.renumbered ρ.place).prepare env domain zone t = (failure, p.renumbered ρ.place, t') ∧
      ρ.Twin s' t' := by
  rw [prepare_eq] at done ⊢
  cases swept : sweep (resolveMetric env domain zone b.name) b.metrics s with | mk fault rest =>
  obtain ⟨metrics, u⟩ := rest
  obtain ⟨v, there, twin⟩ := sweep_beside (·.renumbered ρ.place) ρ.Twin resolveMetric_beside h swept
  have same : sweep (resolveMetric env domain zone (b.renumbered ρ.place).name)
      (b.renumbered ρ.place).metrics t = (fault, metrics.map (·.renumbered ρ.place), v) := there
  simp only [swept] at done
  simp only [same]
  cases fault with
  | some f =>
    cases done
    exact ⟨v, rfl, twin⟩
  | none =>
    cases built : Collector.buildVectors domain zone b.name metrics u.store with
    | mk result store =>
    obtain ⟨store', others, stores⟩ := Collector.buildVectors_beside twin.store built
    have made : Collector.buildVectors domain zone (b.renumbered ρ.place).name
        (metrics.map (·.renumbered ρ.place)) v.store = (result.map fun (vectors, metrics) =>
        (vectors.map ρ.place, metrics.map (·.renumbered ρ.place)), store') := others
    simp only [built] at done
    simp only [made]
    cases result with
    | error e =>
      cases done
      have plain : (metrics.map (·.renumbered ρ.place)).map Metric.plain =
          (metrics.map Metric.plain).map (·.renumbered ρ.place) := by
        simp only [List.map_map, Function.comp_def, Metric.plain_renumbered,
          Metric.renumbered_plain]
      have released := released_renumbered ρ.place { b with metrics }
      refine ⟨_, ?_, (twin.stored stores).emit _⟩
      rw [← released]
      simp only [Except.map, plain]
      rfl
    | ok vectors =>
      cases done
      exact ⟨_, rfl, twin.stored stores⟩

end Block

namespace Zone

variable {δ : Type} {env : Surroundings} {s s' t : Shared} {r : Nat} {bs ps others : List (Block δ)}

theorem prepareBlocks_beside {domain zone : String} {failure : Option Failure} (h : ρ.Twin s t)
    (done : prepareBlocks env domain zone bs s = (failure, ps, others, s')) :
    ∃ t', prepareBlocks env domain zone (bs.map (·.renumbered ρ.place)) t =
      (failure, ps.map (·.renumbered ρ.place), others.map (·.renumbered ρ.place), t') ∧
      ρ.Twin s' t' := by
  induction bs generalizing s t ps with
  | nil =>
    cases done
    exact ⟨t, rfl, h⟩
  | cons b rest ih =>
    cases prepared : b.prepare env domain zone s with | mk failed moved =>
    obtain ⟨p, u⟩ := moved
    obtain ⟨v, there, twin⟩ := Block.prepare_beside h prepared
    simp only [prepareBlocks, prepared] at done
    simp only [List.map_cons, prepareBlocks, there]
    cases failed with
    | some f =>
      cases done
      exact ⟨v, rfl, twin⟩
    | none =>
      cases later : prepareBlocks env domain zone rest u with | mk ending result =>
      obtain ⟨qs, left, w⟩ := result
      simp only [later] at done
      cases done
      obtain ⟨t', whole, twins⟩ := ih twin later
      exact ⟨t', by simp only [whole, List.map_cons], twins⟩

theorem registerBlocks_beside {refusal : Option Refusal} {k : Nat} (h : ρ.Twin s t)
    (heeds : ∀ p ∈ ps, ∀ d ∈ p.descriptors s.store, d.Heeds (ρ.learned r))
    (done : registerBlocks r ps s = (refusal, k, s')) :
    ∃ t', registerBlocks r (ps.map (·.renumbered ρ.place)) t = (refusal, k, t') ∧
      ρ.Twin s' t' := by
  induction ps generalizing s t k with
  | nil =>
    cases done
    exact ⟨t, rfl, h⟩
  | cons p rest ih =>
    cases registered : p.register r s with | mk refused u =>
    obtain ⟨v, there, twin⟩ := Block.register_beside h (heeds p List.mem_cons_self) registered
    have store := p.register_store r s
    rw [registered] at store
    simp only [registerBlocks, registered] at done
    simp only [List.map_cons, registerBlocks, there]
    cases refused with
    | some e =>
      cases done
      exact ⟨v, rfl, twin⟩
    | none =>
      cases later : registerBlocks r rest u with | mk ending result =>
      obtain ⟨n, w⟩ := result
      simp only [later] at done
      cases done
      obtain ⟨t', whole, twins⟩ := ih twin
        (fun q member => store ▸ heeds q (List.mem_cons_of_mem _ member)) later
      exact ⟨t', by simp only [whole], twins⟩

theorem unregisterBlocks_beside {fault : Option Fault} (h : ρ.Twin s t)
    (done : unregisterBlocks r ps s = (fault, s')) :
    ∃ t', unregisterBlocks r (ps.map (·.renumbered ρ.place)) t = (fault, t') ∧ ρ.Twin s' t' := by
  induction ps generalizing s t with
  | nil =>
    cases done
    exact ⟨t, rfl, h⟩
  | cons p rest ih =>
    cases unregistered : p.unregister r s with | mk failed u =>
    obtain ⟨v, there, twin⟩ := Block.unregister_beside h unregistered
    simp only [unregisterBlocks, unregistered] at done
    simp only [List.map_cons, unregisterBlocks, there]
    cases failed with
    | some f =>
      cases done
      exact ⟨v, rfl, twin⟩
    | none => exact ih twin done

theorem refuse_beside {z w : Zone δ} {refusal : Refusal} {k : Nat} {outcome : Outcome Unit}
    (h : ρ.Twin s t) (done : z.refuse refusal r k ps others s = (outcome, w, s')) :
    ∃ t', (z.renumbered ρ.place).refuse refusal r k (ps.map (·.renumbered ρ.place))
        (others.map (·.renumbered ρ.place)) t = (outcome, w.renumbered ρ.place, t') ∧
      ρ.Twin s' t' := by
  have logged := h.log .warn s!"rolling back attach of zone {z.name}"
  cases undone : unregisterBlocks r (ps.take k)
    (s.log .warn s!"rolling back attach of zone {z.name}") with | mk fault u =>
  obtain ⟨v, there, twin⟩ := unregisterBlocks_beside logged undone
  have name : (z.renumbered ρ.place).name = z.name := rfl
  simp only [refuse, rollback, undone, unprepareBlocks_eq] at done
  simp only [refuse, rollback, name, ← List.map_take, there, unprepareBlocks_eq]
  cases fault with
  | some f =>
    cases done
    exact ⟨v, by simp only [renumbered, List.map_append], twin⟩
  | none =>
    cases done
    refine ⟨_, ?_, twin.emit _⟩
    simp only [renumbered, List.map_append, List.map_map, List.flatMap_map, Function.comp_def,
      Block.plain_renumbered, Block.renumbered_plain, Block.released_renumbered]

variable [Driver δ]

theorem introduced_renumbered (place : Nat → Nat) (ps : List (Block δ)) :
    (ps.map (·.renumbered place)).map Block.introduced =
      (ps.map Block.introduced).map (·.renumbered place) := by
  simp only [List.map_map]
  rfl

theorem introduction_renumbered (place : Nat → Nat) (ps : List (Block δ)) :
    (ps.map (·.renumbered place)).flatMap Block.introduction = ps.flatMap Block.introduction :=
  List.flatMap_map ..

theorem attach_beside {domain : String} {handle : ZoneHandle} {z w : Zone δ}
    {outcome : Outcome Unit} (h : ρ.Twin s t) (bare : z.Bare)
    (heeds : ∀ d ∈ z.descriptors domain, d.Heeds (ρ.learned r))
    (done : z.attach env domain r handle s = (outcome, w, s')) :
    ∃ t', (z.renumbered ρ.place).attach env domain r handle t =
      (outcome, w.renumbered ρ.place, t') ∧ ρ.Twin s' t' := by
  cases prepared : prepareBlocks env domain z.name z.blocks s with | mk failure result =>
  obtain ⟨ps, others, u⟩ := result
  obtain ⟨v, there, twin⟩ := prepareBlocks_beside h prepared
  have same : prepareBlocks env domain (z.renumbered ρ.place).name (z.renumbered ρ.place).blocks t =
      (failure, ps.map (·.renumbered ρ.place), others.map (·.renumbered ρ.place), v) := there
  simp only [attach, prepared] at done
  simp only [attach, same]
  cases failure with
  | some failure =>
    cases failure with
    | fault f =>
      cases done
      exact ⟨v, by simp only [renumbered, List.map_append], twin⟩
    | refused refusal => exact refuse_beside twin done
  | none =>
    obtain ⟨batch, -, -⟩ := prepareBlocks_ok bare.blocks prepared
    cases registered : registerBlocks r ps u with | mk refusal result =>
    obtain ⟨k, x⟩ := result
    -- what the batch registers is what the zone is described as, so it heeds what was learned
    obtain ⟨y, here, twins⟩ := registerBlocks_beside twin
      (fun p member d told => heeds d ((batch.descriptors d).mpr ⟨p, member, told⟩)) registered
    simp only [registered] at done
    simp only [here]
    cases refusal with
    | some refusal => exact refuse_beside twins done
    | none =>
      simp only [attachBlocks_eq] at done
      simp only [attachBlocks_eq, introduced_renumbered, introduction_renumbered]
      cases done
      exact ⟨_, rfl, (twins.emit _).log _ _⟩

end Zone

/-! ### Passes and detaching -/

def PassState.Twin {δ : Type} (ρ : Residue) (s t : PassState δ) : Prop :=
  s.Alike t ∧ ρ.Twin s.shared t.shared

theorem Element.apply_renumbered (place : Nat → Nat) (spec : MetricSpec) (current mask : UInt64)
    (clear : Bool) (e : Element) :
    (e.renumbered place).apply spec current mask clear =
      (e.apply spec current mask clear).renumbered place := by
  unfold apply
  cases spec.type <;> rfl

namespace Block

variable {δ : Type} [Driver δ] {env : Surroundings} {clear : Bool}

theorem publish_beside {spec : MetricSpec} {e d : Element} {s s' t : PassState δ}
    (h : s.Twin ρ t) (done : publish spec e s = (d, s')) :
    ∃ t', publish spec (e.renumbered ρ.place) t = (d.renumbered ρ.place, t') ∧ s'.Twin ρ t' := by
  obtain ⟨⟨driver, scratch⟩, shared⟩ := h
  obtain ⟨value, last, converted, labels, series⟩ := e
  simp only [publish] at done
  simp only [publish, Element.renumbered, driver, scratch]
  generalize Driver.ask s.driver (Driver.convert spec value s.scratch) (.ofWord value) = reply
    at done ⊢
  have told := shared.hooks reply.lines
  cases series with
  | none =>
    cases done
    exact ⟨_, rfl, ⟨rfl, rfl⟩, told⟩
  | some ref =>
    cases done
    exact ⟨_, rfl, ⟨rfl, rfl⟩, told.stored (told.store.set ref reply.result)⟩

theorem applySamples_beside {spec : MetricSpec} {mask : UInt64} {es ds : List Element}
    {values : List UInt64} {s s' t : PassState δ} (h : s.Twin ρ t)
    (done : applySamples spec mask clear es values s = (ds, s')) :
    ∃ t', applySamples spec mask clear (es.map (·.renumbered ρ.place)) values t =
      (ds.map (·.renumbered ρ.place), t') ∧ s'.Twin ρ t' := by
  induction es generalizing values s t ds with
  | nil =>
    cases done
    exact ⟨t, rfl, h⟩
  | cons e rest ih =>
    cases values with
    | nil =>
      cases done
      exact ⟨t, rfl, h⟩
    | cons x values =>
      cases published : publish spec (e.apply spec x mask clear) s with | mk d u =>
      obtain ⟨v, there, twin⟩ := publish_beside h published
      cases later : applySamples spec mask clear rest values u with | mk others w =>
      simp only [applySamples, published, later] at done
      cases done
      obtain ⟨t', whole, twins⟩ := ih twin later
      refine ⟨t', ?_, twins⟩
      simp only [List.map_cons, applySamples, Element.apply_renumbered, there, whole]

theorem readMetric_beside {s t : PassState δ} (env : Surroundings) (block : String)
    (window : Option Nat) (m : Metric) (h : s.Twin ρ t) :
    (readMetric env block window (m.renumbered ρ.place) t).1 =
        (readMetric env block window m s).1 ∧
      (readMetric env block window m s).2.Twin ρ
        (readMetric env block window (m.renumbered ρ.place) t).2 := by
  have spec : (m.renumbered ρ.place).spec = m.spec := rfl
  have length : (m.renumbered ρ.place).elements.length = m.elements.length := List.length_map _
  simp only [readMetric, spec, length, h.1.1, h.1.2]
  split
  · exact ⟨rfl, ⟨rfl, rfl⟩, h.2.hooks _⟩
  · exact ⟨rfl, ⟨rfl, rfl⟩, h.2.hooks _⟩

theorem sampleMetric_beside {block : String} {window : Option Nat} {m : Metric}
    {result : Except Fault Metric} {s s' t : PassState δ} (h : s.Twin ρ t)
    (done : sampleMetric env block window clear m s = (result, s')) :
    ∃ t', sampleMetric env block window clear (m.renumbered ρ.place) t =
      (result.map (·.renumbered ρ.place), t') ∧ s'.Twin ρ t' := by
  obtain ⟨same, after⟩ := readMetric_beside env block window m h
  cases first : readMetric env block window m s with | mk reading u =>
  cases second : readMetric env block window (m.renumbered ρ.place) t with | mk other v =>
  rw [first, second] at same after
  cases same
  simp only [sampleMetric, first] at done
  simp only [sampleMetric, second]
  cases reading with
  | error f =>
    cases done
    exact ⟨v, rfl, after⟩
  | ok reading =>
    cases applied : applySamples m.spec reading.2 clear m.elements reading.1 u with | mk ds w =>
    obtain ⟨t', there, twin⟩ := applySamples_beside after applied
    have same : applySamples (m.renumbered ρ.place).spec reading.2 clear
        (m.renumbered ρ.place).elements reading.1 v = (ds.map (·.renumbered ρ.place), t') := there
    simp only [applied] at done
    simp only [same]
    cases done
    exact ⟨t', rfl, twin⟩

variable {s s' t : Shared} {b c : Block δ} {fault : Option Fault}

theorem latched_beside (h : ρ.Twin s t) (b : Block δ) :
    (b.latched clear s).Twin ρ ((b.renumbered ρ.place).latched clear t) :=
  ⟨⟨rfl, rfl⟩, (h.log _ _).hooks _⟩

theorem pass_beside (h : ρ.Twin s t) (done : b.pass env clear s = (fault, c, s')) :
    ∃ t', (b.renumbered ρ.place).pass env clear t = (fault, c.renumbered ρ.place, t') ∧
      ρ.Twin s' t' := by
  rw [pass_eq] at done ⊢
  cases swept : sweep (sampleMetric env b.name b.window clear) b.metrics (b.latched clear s) with
  | mk failed rest =>
  obtain ⟨ms, u⟩ := rest
  obtain ⟨v, there, ⟨driver, scratch⟩, twin⟩ :=
    sweep_beside (·.renumbered ρ.place) (PassState.Twin ρ) sampleMetric_beside
      (latched_beside h b) swept
  have same : sweep (sampleMetric env (b.renumbered ρ.place).name (b.renumbered ρ.place).window
      clear) (b.renumbered ρ.place).metrics ((b.renumbered ρ.place).latched clear t) =
      (failed, ms.map (·.renumbered ρ.place), v) := there
  simp only [swept] at done
  simp only [same]
  cases failed with
  | some f =>
    cases done
    refine ⟨v.shared, ?_, twin⟩
    simp only [driver]
    rfl
  | none =>
    cases done
    refine ⟨_, ?_, twin.hooks _⟩
    simp only [driver, scratch]
    rfl

theorem detach_beside {r : Nat} (h : ρ.Twin s t) (done : b.detach r s = (fault, c, s')) :
    ∃ t', (b.renumbered ρ.place).detach r t = (fault, c.renumbered ρ.place, t') ∧
      ρ.Twin s' t' := by
  have dismissed : (b.renumbered ρ.place).dismissed = b.dismissed.renumbered ρ.place := rfl
  have dismissal : (b.renumbered ρ.place).dismissal = b.dismissal := rfl
  have left : (b.renumbered ρ.place).left = b.left.renumbered ρ.place :=
    congrArg (fun c : Block δ => { c with driver := b.left.driver })
      ((b.plain_renumbered ρ.place).trans (b.renumbered_plain ρ.place).symm)
  rw [detach_eq] at done
  rw [detach_eq, dismissed, dismissal, left, released_renumbered]
  cases answer : b.dismissed.unregister r (s.emit b.dismissal) with | mk failed u =>
  obtain ⟨v, there, twin⟩ := unregister_beside (h.emit b.dismissal) answer
  simp only [answer] at done
  simp only [there]
  cases failed with
  | some f =>
    cases done
    exact ⟨v, rfl, twin⟩
  | none =>
    cases done
    exact ⟨_, rfl, twin.emit _⟩

end Block

namespace Zone

variable {δ : Type} [Driver δ] {env : Surroundings} {clear : Bool} {s s' t : Shared} {z w : Zone δ}
  {fault : Option Fault}

theorem pass_beside (h : ρ.Twin s t) (done : z.pass env clear s = (fault, w, s')) :
    ∃ t', (z.renumbered ρ.place).pass env clear t = (fault, w.renumbered ρ.place, t') ∧
      ρ.Twin s' t' := by
  have enabled : (z.renumbered ρ.place).enabled = z.enabled := rfl
  simp only [pass] at done
  simp only [pass, enabled]
  split at done
  · rename_i on
    cases passed : passOver (Block.pass env clear) z.blocks s with | mk failed rest =>
    obtain ⟨t', there, twin⟩ := passOver_beside (·.renumbered ρ.place) ρ.Twin Block.pass_beside h
      passed
    simp only [passed] at done
    cases done
    refine ⟨t', ?_, twin⟩
    rw [if_pos on]
    simp only [renumbered, there]
  · rename_i off
    cases done
    exact ⟨t, if_neg off, h⟩

theorem enable_beside (h : ρ.Twin s t) (done : z.enable env clear s = (fault, w, s')) :
    ∃ t', (z.renumbered ρ.place).enable env clear t = (fault, w.renumbered ρ.place, t') ∧
      ρ.Twin s' t' := by
  have enabled : (z.renumbered ρ.place).enabled = z.enabled := rfl
  simp only [enable] at done
  simp only [enable, enabled]
  split at done
  · rename_i first
    obtain ⟨t', there, twin⟩ := pass_beside h done
    exact ⟨t', (if_pos first).trans there, twin⟩
  · rename_i other
    cases done
    exact ⟨t, if_neg other, h⟩

theorem detach_beside {r : Nat} (h : ρ.Twin s t) (done : z.detach r s = (fault, w, s')) :
    ∃ t', (z.renumbered ρ.place).detach r t = (fault, w.renumbered ρ.place, t') ∧
      ρ.Twin s' t' := by
  cases left : passOver (Block.detach r) z.blocks s with | mk failed rest =>
  obtain ⟨bs, u⟩ := rest
  obtain ⟨v, there, twin⟩ :=
    passOver_beside (·.renumbered ρ.place) ρ.Twin Block.detach_beside h left
  have same : passOver (Block.detach r) (z.renumbered ρ.place).blocks t =
      (failed, bs.map (·.renumbered ρ.place), v) := there
  simp only [detach, left] at done
  simp only [detach, same]
  cases failed with
  | some f =>
    cases done
    exact ⟨v, rfl, twin⟩
  | none =>
    cases done
    exact ⟨_, rfl, twin.log _ _⟩

end Zone

end Telemetry
