import Mathlib.Logic.Function.Basic
import Telemetry.Proofs.Remembering
import Telemetry.Proofs.Site

/-! Vectors are numbered in the order in which they were made, and the numbers say nothing. Two
stores are twins if one holds what the other holds in other places, and may hold more; what is done
to twins in places that correspond leaves twins. Two registries are twins if they hold the same
collectors so, and one may remember dimensions that the other has not learned. -/
namespace Telemetry

namespace Series

def Ref.renumbered (place : Nat → Nat) (r : Ref) : Ref := { r with vector := place r.vector }

def Entry.renumbered (place : Nat → Nat) (e : Entry) : Entry :=
  { e with vectors := e.vectors.map place }

namespace Store

/-- Everything in `s` is in `t`, in its place there, and new vectors get places that correspond. -/
structure Twin (place : Nat → Nat) (s t : Store) : Prop where
  apart : Function.Injective place
  found : ∀ i, t.get? (place i) = s.get? i
  next : ∀ k, place (s.vectors.length + k) = t.vectors.length + k

namespace Twin

variable {place : Nat → Nat} {s t : Store}

theorem modify (h : Twin place s t) (i : Nat) (f : Vector → Vector) :
    Twin place (s.modify i f) (t.modify (place i) f) := by
  refine ⟨h.apart, ?_, ?_⟩
  · intro j
    simp only [get?_modify, h.found, h.apart.eq_iff]
  · intro k
    simpa [Store.modify] using h.next k

theorem set (h : Twin place s t) (ref : Ref) (value : Binary64) :
    Twin place (s.set ref value) (t.set (ref.renumbered place) value) :=
  h.modify ref.vector (·.set ref.key value)

theorem new (h : Twin place s t) : place s.vectors.length = t.vectors.length := h.next 0

theorem add (h : Twin place s t) (v : Vector) : Twin place (s.add v).2 (t.add v).2 := by
  refine ⟨h.apart, ?_, ?_⟩
  · intro i
    simp only [get?_add, ← h.new, h.apart.eq_iff, h.found]
  · intro k
    have later := h.next (1 + k)
    simp only [Store.add, List.length_append, List.length_singleton]
    rw [Nat.add_assoc, Nat.add_assoc, later]

theorem clear (h : Twin place s t) (vectors : List Nat) :
    Twin place (s.clear vectors) (t.clear (vectors.map place)) := by
  induction vectors generalizing s t with
  | nil => exact h
  | cons i rest ih => exact ih (h.modify i Vector.clear)

theorem descriptors (h : Twin place s t) (vectors : List Nat) :
    t.descriptors (vectors.map place) = s.descriptors vectors := by
  simp only [Store.descriptors, List.filterMap_map, Function.comp_def, h.found]

theorem families (h : Twin place s t) (vectors : List Nat) :
    t.families (vectors.map place) = s.families vectors := by
  simp only [Store.families, List.filterMap_map, Function.comp_def, h.found]

end Twin

end Store

def Descriptor.Heeds (d : Descriptor) (learned : String → Option Fingerprint) : Prop :=
  ∀ x, learned d.name = some x → d.dimensions = x

namespace Registry

/-- `q` holds what `r` holds, and remembers besides what was `learned`. -/
structure Twin (place : Nat → Nat) (learned : String → Option Fingerprint) (r q : Registry) :
    Prop where
  entries : q.entries = r.entries.map (Entry.renumbered place)
  identities : q.identities = r.identities
  dimensions : ∀ name, q.dimensions? name = (r.dimensions? name).or (learned name)
  agree : ∀ name x y, learned name = some x → r.dimensions? name = some y → y = x

namespace Twin

variable {place : Nat → Nat} {learned : String → Option Fingerprint} {r q r' : Registry}
  {d : Descriptor} {ds : List Descriptor} {seen : List Fingerprint}
  {result : Except Rejection Unit}

theorem differs (h : Twin place learned r q) (heeds : d.Heeds learned) :
    (q.dimensions? d.name).any (· ≠ d.dimensions) =
      (r.dimensions? d.name).any (· ≠ d.dimensions) := by
  rw [h.dimensions]
  cases r.dimensions? d.name with
  | some x => rfl
  | none =>
    cases known : learned d.name with
    | none => rfl
    | some x => simp [heeds x known]

theorem noting (h : Twin place learned r q) (heeds : d.Heeds learned) :
    Twin place learned (r.noting d) (q.noting d) := by
  have short := noting_same r d
  have long := noting_same q d
  refine ⟨by rw [short.1, long.1, h.entries], by rw [short.2, long.2, h.identities], ?_, ?_⟩
  · intro name
    rw [dimensions?_noting, dimensions?_noting, h.dimensions]
    by_cases same : d.name = name
    · subst same
      cases r.dimensions? d.name with
      | some x => rfl
      | none =>
        cases known : learned d.name with
        | none => simp
        | some x => simp [heeds x known]
    · simp [same]
  · intro name x y known noted
    rw [dimensions?_noting] at noted
    cases old : r.dimensions? name with
    | some z =>
      rw [old] at noted
      cases noted
      exact h.agree name x y known old
    | none =>
      by_cases same : d.name = name
      · subst same
        rw [old, if_pos rfl] at noted
        cases noted
        exact heeds x known
      · rw [old, if_neg same] at noted
        cases noted

theorem remembers (h : Twin place learned r q) {name : String} {x : Fingerprint}
    (known : learned name = some x) : q.dimensions? name = some x := by
  rw [h.dimensions, known]
  cases old : r.dimensions? name with
  | none => rfl
  | some y => rw [h.agree name x y known old]; rfl

theorem enroll (h : Twin place learned r q) (heeds : ∀ d ∈ ds, d.Heeds learned)
    (done : r.enroll seen ds = (result, r')) :
    ∃ q', q.enroll seen ds = (result, q') ∧ Twin place learned r' q' := by
  induction ds generalizing r q seen with
  | nil =>
    cases done
    exact ⟨q, rfl, h⟩
  | cons d rest ih =>
    have own := heeds d List.mem_cons_self
    rw [enroll_cons] at done ⊢
    rw [h.identities, h.differs own]
    split at done
    · rename_i used
      cases done
      exact ⟨q, if_pos used, h⟩
    · rename_i unused
      rw [if_neg unused]
      split at done
      · rename_i differs
        cases done
        exact ⟨q, if_pos differs, h⟩
      · rename_i agree
        rw [if_neg agree]
        split at done
        · rename_i repeated
          cases done
          exact ⟨_, if_pos repeated, h.noting own⟩
        · rename_i fresh
          rw [if_neg fresh]
          exact ih (h.noting own) (fun e member => heeds e (List.mem_cons_of_mem _ member)) done

theorem holds (h : Twin place learned r q) (identity : Fingerprint) :
    q.holds identity = r.holds identity := by
  simp only [Registry.holds, h.entries, List.any_map]
  rfl

theorem register {vectors : List Nat} (h : Twin place learned r q)
    (heeds : ∀ d ∈ ds, d.Heeds learned) (done : r.register ds vectors = (result, r')) :
    ∃ q', q.register ds (vectors.map place) = (result, q') ∧ Twin place learned r' q' := by
  cases enrolled : r.enroll [] ds with | mk outcome u =>
  obtain ⟨v, there, twin⟩ := h.enroll heeds enrolled
  simp only [Registry.register, enrolled, there] at done ⊢
  cases outcome with
  | error e =>
    cases done
    exact ⟨v, rfl, twin⟩
  | ok _ =>
    simp only [twin.holds] at done ⊢
    split at done
    · rename_i held
      cases done
      exact ⟨v, if_pos held, twin⟩
    · rename_i free
      cases done
      refine ⟨_, if_neg free, ?_, ?_, twin.dimensions, twin.agree⟩
      · simp only [twin.entries, List.map_append]
        rfl
      · simp only [twin.identities]

theorem unregister (h : Twin place learned r q) (done : r.unregister ds = (result, r')) :
    ∃ q', q.unregister ds = (result, q') ∧ Twin place learned r' q' := by
  simp only [Registry.unregister, h.holds] at done ⊢
  split at done
  · rename_i held
    cases done
    refine ⟨_, if_pos held, ?_, ?_, h.dimensions, h.agree⟩
    · simp only [h.entries, List.filter_map]
      rfl
    · simp only [h.identities]
  · rename_i missing
    cases done
    exact ⟨q, if_neg missing, h⟩

theorem gather {s t : Store} (h : Twin place learned r q) (stores : Store.Twin place s t) :
    q.gather t = r.gather s := by
  have families : (q.entries.flatMap fun e => t.families e.vectors) =
      r.entries.flatMap fun e => s.families e.vectors := by
    simp only [h.entries, List.flatMap_map, Entry.renumbered, stores.families]
  simp only [Registry.gather, families]

end Twin

end Registry

end Series

def Element.renumbered (place : Nat → Nat) (e : Element) : Element :=
  { e with series := e.series.map (·.renumbered place) }

def Metric.renumbered (place : Nat → Nat) (m : Metric) : Metric :=
  { m with elements := m.elements.map (·.renumbered place) }

def Collector.renumbered (place : Nat → Nat) (c : Collector) : Collector :=
  { c with vectors := c.vectors.map place }

def Guest.renumbered (place : Nat → Nat) (g : Guest) : Guest :=
  { g with vector := place g.vector }

variable {δ : Type}

def Block.renumbered (place : Nat → Nat) (b : Block δ) : Block δ :=
  { b with
    metrics := b.metrics.map (·.renumbered place)
    collector := b.collector.map (·.renumbered place) }

def Zone.renumbered (place : Nat → Nat) (z : Zone δ) : Zone δ :=
  { z with blocks := z.blocks.map (·.renumbered place) }

def Domain.renumbered (place : Nat → Nat) (d : Domain δ) : Domain δ :=
  { d with zones := d.zones.map (·.renumbered place) }

variable (place later : Nat → Nat)

theorem Element.renumbered_renumbered (e : Element) :
    (e.renumbered place).renumbered later = e.renumbered (later ∘ place) := by
  simp only [Element.renumbered, Option.map_map]
  rfl

theorem Metric.renumbered_renumbered (m : Metric) :
    (m.renumbered place).renumbered later = m.renumbered (later ∘ place) := by
  simp only [Metric.renumbered, List.map_map, Function.comp_def, Element.renumbered_renumbered]

theorem Block.renumbered_renumbered (b : Block δ) :
    (b.renumbered place).renumbered later = b.renumbered (later ∘ place) := by
  have collector : (b.collector.map (·.renumbered place)).map (·.renumbered later) =
      b.collector.map (·.renumbered (later ∘ place)) := by
    simp only [Option.map_map, Function.comp_def, Collector.renumbered, List.map_map]
  simp only [Block.renumbered, List.map_map, Function.comp_def, Metric.renumbered_renumbered]
  rw [collector]
  rfl

theorem Zone.renumbered_renumbered (z : Zone δ) :
    (z.renumbered place).renumbered later = z.renumbered (later ∘ place) := by
  simp only [Zone.renumbered, List.map_map, Function.comp_def, Block.renumbered_renumbered]

theorem Domain.renumbered_renumbered (d : Domain δ) :
    (d.renumbered place).renumbered later = d.renumbered (later ∘ place) := by
  simp only [Domain.renumbered, List.map_map, Function.comp_def, Zone.renumbered_renumbered]

end Telemetry
