import Telemetry.Block.Stock
import Telemetry.Proofs.Gathering
import Telemetry.Proofs.Reachable

/-! The registries and the trees of zones say the same. In every site that can be reached, a registry
holds one collector for each block with metrics of an attached zone, and what guests have brought;
no two metrics there go by the same four names. A zone is attached until it is detached, and so are
those of a domain that ended without detaching them: with a poisoned lock, or with its owner. -/
namespace Telemetry

open Series (Family)

namespace Mirror

variable {δ : Type} {count : Nat} {xs : List (Mount δ)} {guests : List Guest} {s : Shared}

def exporting (r : Nat) (xs : List (Mount δ)) : List (Mount δ) :=
  xs.filter fun x => x.registry = r ∧ x.block.metrics ≠ []

theorem within_exhibits (r : Nat) (xs : List (Mount δ)) :
    Exhibit.within r (xs.flatMap Mount.exhibits)
      = (exporting r xs).map fun x => ⟨x.registry, x.vectors, x.identities⟩ := by
  induction xs with
  | nil => rfl
  | cons x rest ih =>
    rw [List.flatMap_cons, Exhibit.within, List.filter_append]
    rw [Exhibit.within] at ih
    rw [ih, exporting, exporting]
    by_cases none : x.block.metrics = []
    · rw [Mount.exhibits_nil none, List.filter_cons_of_neg (by simp [none])]
      rfl
    · rw [Mount.exhibits_full none]
      by_cases here : x.registry = r
      · rw [List.filter_cons_of_pos (by simp [here]), List.filter_cons_of_pos (by simp [here, none])]
        rfl
      · rw [List.filter_cons_of_neg (by simp [here]), List.filter_cons_of_neg (by simp [here])]
        rfl

theorem entries (h : Mirror count xs guests s) (r : Nat) :
    ((s.registry r).entries.map (·.vectors)).Perm
      ((exporting r xs).map (·.block.vectors) ++
        (guests.filter (·.registry = r)).map fun g => [g.vector]) := by
  have same := (h.ledger.lists r).entries.map (·.vectors)
  refine same.trans (.of_eq ?_)
  rw [Exhibit.within, List.filter_append, List.map_append, List.map_append]
  refine congrArg₂ (· ++ ·) ?_ ?_
  · have blocks := within_exhibits r xs
    rw [Exhibit.within] at blocks
    rw [blocks, List.map_map, List.map_map]
    rfl
  · rw [List.filter_map, List.map_map, List.map_map]
    rfl

theorem exporting_flatMap {f : Mount δ → List β} (none : ∀ x, x.block.metrics = [] → f x = [])
    (r : Nat) (xs : List (Mount δ)) :
    (exporting r xs).flatMap f = (xs.filter (·.registry = r)).flatMap f := by
  induction xs with
  | nil => rfl
  | cons x rest ih =>
    rw [exporting] at ih ⊢
    by_cases here : x.registry = r
    · by_cases empty : x.block.metrics = []
      · rw [List.filter_cons_of_neg (by simp [empty]), List.filter_cons_of_pos (by simp [here]),
          List.flatMap_cons, none x empty, List.nil_append, ih]
      · rw [List.filter_cons_of_pos (by simp [here, empty]),
          List.filter_cons_of_pos (by simp [here]), List.flatMap_cons, List.flatMap_cons, ih]
    · rw [List.filter_cons_of_neg (by simp [here]), List.filter_cons_of_neg (by simp [here]), ih]

theorem names (h : Mirror count xs guests s) (r : Nat) :
    ((xs.filter (·.registry = r)).flatMap Mount.names).Nodup := by
  have unique := (h.ledger.lists r).unique
  rw [Exhibit.within, List.filter_append, List.flatMap_append] at unique
  have blocks := (List.nodup_append'.mp unique).1
  rw [← Exhibit.within, within_exhibits, List.flatMap_map,
    exporting_flatMap (f := Mount.identities) fun x none => by
      rw [Mount.identities, Block.identities, none, List.map_nil]] at blocks
  have identities : (xs.filter (·.registry = r)).flatMap Mount.identities
      = ((xs.filter (·.registry = r)).flatMap Mount.names).map Mount.named := by
    rw [List.map_flatMap]
    exact List.flatMap_congr fun x _ => x.identities_names
  exact List.Nodup.of_map _ (identities ▸ blocks)

theorem gather_guests (h : Mirror count ([] : List (Mount δ)) guests s) (r : Nat) :
    ∀ line ∈ (s.gather r).flatMap Family.lines,
      ∃ g ∈ guests, line ∈ s.store.lines g.vector := by
  intro line member
  have inside := ((s.registry r).gather_lines s.store).mem_iff.mp member
  obtain ⟨i, own, here⟩ := List.mem_flatMap.mp inside
  obtain ⟨e, there, inner⟩ := List.mem_flatMap.mp own
  have vectors := (h.entries r).mem_iff.mp (List.mem_map_of_mem (f := (·.vectors)) there)
  rw [exporting, List.filter_nil, List.map_nil, List.nil_append] at vectors
  obtain ⟨g, guest, same⟩ := List.mem_map.mp vectors
  rw [← same, List.mem_singleton] at inner
  exact ⟨g, List.mem_of_mem_filter guest, inner ▸ here⟩

end Mirror

namespace Domain

variable {δ : Type}

theorem stop_sound {d : Domain δ} (tree : d.treePoisoned = false) (slot : d.slotPoisoned = false)
    (s : Shared) : (d.stop s).outcome = .ok () := by
  have cleared : (d.clearRunning s).outcome = .ok d.running := by
    simp only [clearRunning, locked, tree, Bool.false_eq_true, if_false]
  cases done : d.clearRunning s with | mk outcome e t =>
  rw [done] at cleared
  simp only at cleared
  simp only [stop, holdingSlot, slot, Bool.false_eq_true, if_false, done, cleared]
  cases d.running <;> rfl

variable [Driver δ] {count : Nat} {rest : List (Mount δ)} {guests : List Guest} {s : Shared}

/-- The zones of a domain as its end leaves them. -/
def released (d : Domain δ) (s : Shared) : List (Zone δ) :=
  let stopped := d.stop s
  (passOver (Zone.detach stopped.domain.registry) stopped.domain.zones stopped.shared).2.1

theorem destroy_sound {d : Domain δ} (h : Mirror count (d.mounts ++ rest) guests s)
    (tree : d.treePoisoned = false) (slot : d.slotPoisoned = false) :
    (d.destroy s).outcome = .ok () ∧ d.released s = d.zones.map Zone.left := by
  have becomes := stop_becomes d s
  have stopped := stop_sound tree slot s
  unfold destroy released
  cases done : d.stop s with | mk outcome e t =>
  rw [done] at becomes stopped
  simp only at stopped
  subst stopped
  have kept : Mirror count (e.mounts ++ rest) guests t := Mirror.becomes becomes h
  have sound : e.treePoisoned = false := by
    rw [becomes.poisoned, tree]
    rfl
  obtain ⟨u, out, -⟩ := kept.detachZones
  simp only [releaseZones, locked, sound, Bool.false_eq_true, if_false, out]
  exact ⟨trivial, congrArg (List.map Zone.left) becomes.zones⟩

end Domain

open Mirror (exporting)

variable {δ : Type} [Driver δ]

/-- **The registries mirror the trees**, in every site that can be reached. -/
theorem registry_mirrors_trees (count : Nat) (steps : List (Surroundings × Action δ)) :
    let s : Site δ := (Site.empty count).run steps
    (∀ r, ((s.shared.registry r).entries.map (·.vectors)).Perm
      ((exporting r s.mounts).map (·.block.vectors) ++
        (s.guests.filter (·.registry = r)).map fun g => [g.vector])) ∧
    (∀ x ∈ s.mounts, x.block.collector = some ⟨x.block.name, x.block.vectors⟩) ∧
    (s.mounts.flatMap (·.block.vectors) ++ s.guests.map (·.vector)).Nodup ∧
    (∀ r, ((s.mounts.filter (·.registry = r)).flatMap Mount.names).Nodup) ∧
    (∀ env action refusal, (s.perform env action).1 ≠ .error (.fault (.notUnregistered refusal))) ∧
    ((∀ d ∈ s.holders, d.zones = []) → ∀ r, ∀ line ∈ (s.shared.gather r).flatMap Family.lines,
      ∃ g ∈ s.guests, line ∈ s.shared.store.lines g.vector) ∧
    ∀ env i d, s.domain? i = some d → d.treePoisoned = false → d.slotPoisoned = false →
      (s.perform env (.drop i)).1 = .ok none ∧
        (s.perform env (.drop i)).2.domains = s.domains.set i none ∧
        (s.perform env (.drop i)).2.wrecks = s.wrecks := by
  intro s
  have coherent : s.Coherent count := Site.run_coherent count steps
  have mirror := coherent.mirror
  refine ⟨mirror.entries, fun x member => (mirror.shown x member).collector, mirror.apart,
    mirror.names, ?_, ?_, ?_⟩
  · intro env action refusal stuck
    have clear := (Site.perform_coherent action coherent).2 _ stuck
    cases clear
  · intro detached r
    have none : s.mounts = [] := by
      apply List.flatMap_eq_nil_iff.mpr
      intro d member
      rw [Domain.mounts, detached d member, List.flatMap_nil]
    exact Mirror.gather_guests (none ▸ mirror) r
  · intro env i d found tree slot
    obtain ⟨rest, facing, -⟩ := coherent.facing found
    have ended := (Domain.destroy_sound facing tree slot).1
    cases done : d.destroy s.shared with | mk outcome e t =>
    rw [done] at ended
    simp only at ended
    subst ended
    rw [Site.perform, found]
    simp only [done]
    exact ⟨rfl, trivial, List.append_nil _⟩

def unreadable : ZoneSpec StockDriver :=
  ⟨"z", [⟨"b", none, [.simple "x" .gauge (.whole 0 4)], 0, none⟩]⟩

def droppedUnsound : List (Surroundings × Action StockDriver) :=
  [(.plain [] 0, .create 0 ⟨"d", 0, false⟩), (.plain [] 0, .alloc 0 unreadable),
    (.plain [] 0, .operate 0 (.update false)), (.plain [] 0, .drop 0)]

/-- Every domain has been dropped, nobody else has brought a collector, and yet a block's collector
is registered and gathered. -/
theorem dropped_unsound_registered :
    let s : Site StockDriver := (Site.empty 1).run droppedUnsound
    s.domains = [none] ∧ s.guests = [] ∧ (s.shared.registry 0).entries ≠ [] ∧
      s.shared.gather 0 ≠ [] := by
  refine ⟨rfl, rfl, by decide +kernel, ?_⟩
  exact Series.Registry.gather_ne_nil (by decide +kernel)

end Telemetry
