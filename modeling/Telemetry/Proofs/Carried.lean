import Telemetry.Proofs.Reachable

/-! What a zone carries with it when it is attached and when it is detached: everything but the
attachment itself. The values, the last samples and the specifications of its metrics stay as they
are, and a driver only moves on through its hooks. -/
namespace Telemetry

namespace Driver

variable {δ : Type} [Driver δ]

/-- The states that hooks can lead a driver to. -/
inductive Leads (d : Option δ) : Option δ → Prop
  | refl : Leads d d
  | attach {e : Option δ} (block : String) : Leads d e → Leads d (ask e (attach block) ()).driver
  | detach {e : Option δ} (block : String) : Leads d e → Leads d (ask e (detach block) ()).driver
  | latch {e : Option δ} (scratch none : List UInt8) :
      Leads d e → Leads d (ask e (latch scratch) none).driver
  | release {e : Option δ} (scratch none : List UInt8) :
      Leads d e → Leads d (ask e (release scratch) none).driver
  | read {e : Option δ} (spec : MetricSpec) (values : List UInt64) (scratch : List UInt8)
      (none : Reading) : Leads d e → Leads d (ask e (read spec values scratch) none).driver
  | convert {e : Option δ} (spec : MetricSpec) (raw : UInt64) (scratch : List UInt8)
      (none : Binary64) : Leads d e → Leads d (ask e (convert spec raw scratch) none).driver

theorem Leads.trans {d e f : Option δ} (first : Leads d e) (second : Leads e f) : Leads d f := by
  induction second with
  | refl => exact first
  | attach block _ ih => exact .attach block ih
  | detach block _ ih => exact .detach block ih
  | latch scratch none _ ih => exact .latch scratch none ih
  | release scratch none _ ih => exact .release scratch none ih
  | read spec values scratch none _ ih => exact .read spec values scratch none ih
  | convert spec raw scratch none _ ih => exact .convert spec raw scratch none ih

theorem Leads.isSome {d e : Option δ} (h : Leads d e) : e.isSome = d.isSome := by
  have kept {α : Type} (f : Option δ) (hook : δ → Reply δ α) (result : α) :
      (ask f hook result).driver.isSome = f.isSome := by
    cases f <;> rfl
  induction h with
  | refl => rfl
  | _ => rwa [kept]

end Driver

namespace Block

variable {δ : Type} [Driver δ] {b c : Block δ}

/-- The same block, but for its attachment and the state of its driver. -/
structure Carried (b c : Block δ) : Prop where
  content : c.plain = { b.plain with driver := c.driver }
  driver : Driver.Leads b.driver c.driver

theorem left_carried (b : Block δ) : b.Carried b.left := by
  constructor
  · exact congrArg (fun c : Block δ => { c with driver := b.left.driver }) b.plain_bare.plain
  · exact .detach b.name .refl

theorem introduced_carried (b : Block δ) : b.plain.Carried b.introduced := by
  constructor
  · have same := b.plain_bare.plain.symm
    exact congrArg (fun c : Block δ => { c with driver := b.introduced.driver }) same
  · exact .attach b.name .refl

theorem Carried.name (h : b.Carried c) : c.name = b.name := congrArg (·.name) h.content

theorem Carried.specs (h : b.Carried c) : c.metrics.map (·.spec) = b.metrics.map (·.spec) := by
  have plain := congrArg (fun b : Block δ => b.metrics.map (·.spec)) h.content
  simp only [Block.plain, List.map_map] at plain
  exact plain

theorem Carried.values (h : b.Carried c) : c.values = b.values := by
  rw [← c.plain_values, ← b.plain_values, h.content]
  rfl

end Block

namespace Zone

variable {δ : Type} [Driver δ] {z w : Zone δ}

structure Carried (z w : Zone δ) : Prop where
  name : w.name = z.name
  enabled : w.enabled = z.enabled
  blocks : List.Forall₂ Block.Carried z.blocks w.blocks

theorem Carried.values (h : z.Carried w) : w.values = z.values :=
  (forall₂_flatMap_eq (h.blocks.imp fun _ _ carried => carried.values.symm)).symm

theorem left_carried (z : Zone δ) : z.Carried z.left := by
  refine ⟨rfl, rfl, List.forall₂_map_right_iff.mpr ?_⟩
  exact List.forall₂_same.mpr fun b _ => b.left_carried

def Joined (z w : Zone δ) : Prop :=
  ∃ ps : List (Block δ), ps.map Block.plain = z.blocks ∧ w.blocks = ps.map Block.introduced

theorem Joined.carried (h : z.Joined w) : List.Forall₂ Block.Carried z.blocks w.blocks := by
  obtain ⟨ps, plain, told⟩ := h
  rw [← plain, told]
  refine List.forall₂_map_left_iff.mpr (List.forall₂_map_right_iff.mpr ?_)
  exact List.forall₂_same.mpr fun p _ => p.introduced_carried

theorem Attaches.joined {domain : String} {r : Nat} {handle : ZoneHandle} {s u v t : Shared}
    {ps : List (Block δ)} (h : Attaches env domain r handle z s ps u v w t) : z.Joined w :=
  ⟨ps, h.batch.plain, by rw [h.zone]⟩

theorem Attaches.carried {domain : String} {r : Nat} {handle : ZoneHandle} {s u v t : Shared}
    {ps : List (Block δ)} (h : Attaches env domain r handle z s ps u v w t) : z.Carried w :=
  ⟨by rw [h.zone], by rw [h.zone], h.joined.carried⟩

end Zone

namespace Domain

variable {δ : Type} [Driver δ]

theorem attachZone_ok {d : Domain δ} {z : Zone δ} {s : Shared} {handle : ZoneHandle} (bare : z.Bare)
    (present : d.registry < s.registries.length)
    (done : (d.attachZone env z s).outcome = .ok handle) :
    handle = ⟨d.id, d.nextZone⟩ ∧ d.treePoisoned = false ∧ ∃ w, z.Carried w ∧ z.Joined w ∧
      w.handle = some handle ∧ (d.attachZone env z s).domain =
        { d with
          nextZone := d.nextZone + 1
          valueCount := d.valueCount + w.valueCount
          zones := d.zones ++ [w] } := by
  have sound : d.treePoisoned = false := by
    cases poisoned : d.treePoisoned with
    | false => rfl
    | true =>
      rw [attachZone, locked, if_pos poisoned] at done
      cases done
  rcases attachZone_cases env bare present with
    answer | ⟨f, t, answer, -⟩ | ⟨refusal, w, t, answer, -⟩ | ⟨ps, u, v, w, t, answer, -, attaches⟩
  all_goals
    rw [answer] at done ⊢
    cases done
  exact ⟨rfl, sound, w, attaches.carried, attaches.joined, by rw [attaches.zone], rfl⟩

omit [Driver δ] in
theorem position_handle {d : Domain δ} {handle : ZoneHandle} {n : Nat} {z : Zone δ}
    (placed : d.position handle = some n) (there : d.zones[n]? = some z) :
    z.handle = some handle := by
  obtain ⟨below, known, -⟩ := List.findIdx?_eq_some_iff_getElem.mp placed
  rw [List.getElem?_eq_getElem below] at there
  cases there
  exact beq_iff_eq.mp known

end Domain

namespace Site

variable {δ : Type} {s : Site δ} {i j : Nat} {d : Domain δ}

variable [Driver δ] {env : Surroundings} {count k : Nat} {handle : ZoneHandle}

theorem Coherent.perform_attach (h : s.Coherent count) (found : s.domain? i = some d) {z : Zone δ}
    (held : s.loose? k = some z) (done : (s.perform env (.attach i k)).1 = .ok (some handle)) :
    handle = ⟨d.id, d.nextZone⟩ ∧ d.treePoisoned = false ∧ ∃ w, z.Carried w ∧
      w.handle = some handle ∧ (s.perform env (.attach i k)).2.domain? i = some
        { d with
          nextZone := d.nextZone + 1
          valueCount := d.valueCount + w.valueCount
          zones := d.zones ++ [w] } := by
  obtain ⟨rest, mirror, home, -, -⟩ := h.facing found
  have present : d.registry < s.shared.registries.length := mirror.counted.symm ▸ home
  simp only [perform, found, held] at done ⊢
  cases answer : (d.attachZone env z s.shared).outcome with
  | error e =>
    rw [answer] at done
    cases done
  | ok other =>
    rw [answer] at done
    cases done
    obtain ⟨new, sound, w, carried, -, known, domain⟩ :=
      Domain.attachZone_ok (h.bare k z held) present answer
    have here : (s.settle i (d.attachZone env z s.shared)).domain? i = _ := settle_here found _
    exact ⟨new, sound, w, carried, known, here.trans (congrArg some domain)⟩

theorem Coherent.perform_detach (h : s.Coherent count) (found : s.domain? i = some d)
    (done : (s.perform env (.detach i handle)).1 = .ok none) :
    ∃ n z, d.treePoisoned = false ∧ d.position handle = some n ∧ d.zones[n]? = some z ∧
      (s.perform env (.detach i handle)).2.loose = s.loose ++ [some z.left] ∧
      (s.perform env (.detach i handle)).2.domain? i = some
        { d with zones := d.zones.eraseIdx n, valueCount := d.valueCount - z.valueCount } := by
  obtain ⟨rest, mirror, -, -, -⟩ := h.facing found
  simp only [perform, found] at done ⊢
  rcases mirror.detach_cases handle with ⟨f, -, answer⟩ | ⟨n, z, t, sound, placed, there, answer, -⟩
  · rw [answer] at done
    cases done
  · have here : (s.settle i (d.detachZone handle s.shared)).domain? i = _ := settle_here found _
    rw [answer] at here ⊢
    exact ⟨n, z, sound, placed, there, rfl, here⟩

end Site

end Telemetry
