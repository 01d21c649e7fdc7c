import Telemetry.Proofs.Passing
import Telemetry.Zone.Attachment

/-! What it is to be detached: nothing of an attachment is left on a zone, its blocks, their metrics
or their elements. Undoing a preparation takes away exactly that, so a detached block that was
prepared comes back as it was. -/
namespace Telemetry

namespace Element

structure Bare (e : Element) : Prop where
  labels : e.labels = []
  series : e.series = none

def plain (e : Element) : Element := { e with labels := [], series := none }

theorem Bare.plain {e : Element} (h : e.Bare) : e.plain = e := by
  cases e
  simp only [Element.plain, Element.mk.injEq, true_and]
  exact ⟨h.labels.symm, h.series.symm⟩

theorem plain_bare (e : Element) : e.plain.Bare := ⟨rfl, rfl⟩

end Element

namespace Metric

structure Bare (m : Metric) : Prop where
  computed : m.computed = []
  elements : ∀ e ∈ m.elements, e.Bare

def plain (m : Metric) : Metric :=
  { m with elements := m.elements.map Element.plain, computed := [] }

theorem Bare.plain {m : Metric} (h : m.Bare) : m.plain = m := by
  have same : m.elements.map Element.plain = m.elements :=
    map_fixed fun e member => (h.elements e member).plain
  simp only [Metric.plain, same, ← h.computed]

theorem plain_bare (m : Metric) : m.plain.Bare := by
  refine ⟨rfl, ?_⟩
  intro e member
  obtain ⟨d, -, rfl⟩ := List.mem_map.mp member
  exact d.plain_bare

def released (m : Metric) : List Event := m.computed.flatMap (releaseLabel m.spec)

theorem alloc_ok {block : String} {spec : MetricSpec} {m : Metric} (made : alloc block spec = .ok m) :
    m = ⟨spec, List.replicate spec.elementCount (.ofInit spec.init), []⟩ := by
  unfold alloc at made
  split at made
  · cases made
  · exact (Except.ok.inj made).symm

theorem alloc_bare {block : String} {spec : MetricSpec} {m : Metric}
    (made : alloc block spec = .ok m) : m.Bare := by
  rw [alloc_ok made]
  refine ⟨rfl, ?_⟩
  intro e member
  rw [List.eq_of_mem_replicate member]
  exact ⟨rfl, rfl⟩

end Metric

namespace Shared

theorem events_emit (s : Shared) (events : List Event) :
    (s.emit events).events = s.events ++ events := by
  simp [Shared.events, emit]

theorem emit_emit (s : Shared) (first second : List Event) :
    (s.emit first).emit second = s.emit (first ++ second) := by
  simp [emit]

end Shared

namespace Block

variable {δ : Type}

structure Bare (b : Block δ) : Prop where
  collector : b.collector = none
  metrics : ∀ m ∈ b.metrics, m.Bare

def plain (b : Block δ) : Block δ :=
  { b with metrics := b.metrics.map Metric.plain, collector := none }

theorem Bare.plain {b : Block δ} (h : b.Bare) : b.plain = b := by
  have same : b.metrics.map Metric.plain = b.metrics :=
    map_fixed fun m member => (h.metrics m member).plain
  simp only [Block.plain, same, ← h.collector]

theorem plain_bare (b : Block δ) : b.plain.Bare := by
  refine ⟨rfl, ?_⟩
  intro m member
  obtain ⟨n, -, rfl⟩ := List.mem_map.mp member
  exact n.plain_bare

theorem plain_values (b : Block δ) : b.plain.values = b.values := by
  simp only [values, plain, List.flatMap_map, Metric.values, Metric.plain, List.map_map]
  rfl

def left [Driver δ] (b : Block δ) : Block δ :=
  { b.plain with driver := (Driver.ask b.driver (Driver.detach b.name) ()).driver }

theorem left_bare [Driver δ] (b : Block δ) : b.left.Bare := ⟨rfl, b.plain_bare.metrics⟩

def released (b : Block δ) : List Event := b.metrics.flatMap Metric.released

theorem releaseLabels_eq (b : Block δ) (s : Shared) :
    b.releaseLabels s = ({ b with metrics := b.metrics.map Metric.plain }, s.emit b.released) := by
  simp only [Block.releaseLabels, List.map_map, List.flatMap_map]
  rfl

theorem unprepare_eq (b : Block δ) (s : Shared) : b.unprepare s = (b.plain, s.emit b.released) :=
  releaseLabels_eq _ s

theorem alloc_ok {spec : BlockSpec δ} {b : Block δ} (made : alloc spec = .ok b) :
    ∃ metrics, List.Forall₂ (fun x m => Metric.alloc spec.name x = .ok m) spec.metrics metrics ∧
      b = ⟨spec.name, spec.window, metrics, spec.scratchSize, spec.driver, none, none⟩ := by
  obtain ⟨metrics, whole, same⟩ := map_ok made
  exact ⟨metrics, mapM_forall₂ whole, same.symm⟩

theorem alloc_bare {spec : BlockSpec δ} {b : Block δ} (made : alloc spec = .ok b) : b.Bare := by
  obtain ⟨metrics, each, rfl⟩ := alloc_ok made
  refine ⟨rfl, ?_⟩
  intro m member
  obtain ⟨_, -, made⟩ := forall₂_mem each m member
  exact Metric.alloc_bare made

end Block

namespace Zone

variable {δ : Type}

structure Bare (z : Zone δ) : Prop where
  handle : z.handle = none
  blocks : ∀ b ∈ z.blocks, b.Bare

def left [Driver δ] (z : Zone δ) : Zone δ :=
  { z with blocks := z.blocks.map Block.left, handle := none }

theorem left_bare [Driver δ] (z : Zone δ) : z.left.Bare := by
  refine ⟨rfl, ?_⟩
  intro b member
  obtain ⟨c, -, rfl⟩ := List.mem_map.mp member
  exact c.left_bare

theorem alloc_ok {spec : ZoneSpec δ} {z : Zone δ} (made : alloc spec = .ok z) :
    ∃ blocks, List.Forall₂ (fun x b => Block.alloc x = .ok b) spec.blocks blocks ∧
      z = ⟨spec.name, true, blocks, (blocks.map Block.valueCount).sum, none⟩ := by
  obtain ⟨blocks, whole, same⟩ := map_ok made
  exact ⟨blocks, mapM_forall₂ whole, same.symm⟩

theorem alloc_bare {spec : ZoneSpec δ} {z : Zone δ} (made : alloc spec = .ok z) : z.Bare := by
  obtain ⟨blocks, each, rfl⟩ := alloc_ok made
  refine ⟨rfl, ?_⟩
  intro b member
  obtain ⟨_, -, made⟩ := forall₂_mem each b member
  exact Block.alloc_bare made

end Zone

end Telemetry
