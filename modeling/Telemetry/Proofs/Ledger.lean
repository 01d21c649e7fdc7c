import Telemetry.Block.Attachment
import Telemetry.Proofs.Enrolment

/-! A ledger of everything that is registered: which collectors every registry holds and which
identities are in use there, up to order. Registering enters a collector, unregistering strikes the
same one out again. The ledger also knows that no two collectors share a vector of the store. -/
namespace Telemetry

structure Exhibit where
  registry : Nat
  vectors : List Nat
  identities : List Fingerprint

namespace Exhibit

def entry (x : Exhibit) : Series.Entry := ⟨x.identities.sum, x.vectors⟩

def within (r : Nat) (xs : List Exhibit) : List Exhibit := xs.filter (·.registry = r)

end Exhibit

structure Lists (r : Series.Registry) (xs : List Exhibit) : Prop where
  entries : r.entries.Perm (xs.map Exhibit.entry)
  identities : r.identities.Perm (xs.flatMap (·.identities))
  sums : (xs.map (·.identities.sum)).Nodup
  unique : (xs.flatMap (·.identities)).Nodup

namespace Lists

variable {r t : Series.Registry} {xs ys : List Exhibit} {x : Exhibit}

theorem empty : Lists .empty [] := ⟨.nil, .nil, .nil, .nil⟩

theorem perm (h : Lists r xs) (same : xs.Perm ys) : Lists r ys :=
  ⟨h.entries.trans (same.map _), h.identities.trans (same.flatMap_right _),
    (same.map _).nodup_iff.mp h.sums, (same.flatMap_right _).nodup_iff.mp h.unique⟩

theorem same (h : Lists r xs) (unchanged : r.SameCollectors t) : Lists t xs :=
  ⟨unchanged.1 ▸ h.entries, unchanged.2 ▸ h.identities, h.sums, h.unique⟩

theorem mem_sums (h : Lists r xs) {w : Fingerprint} :
    w ∈ r.entries.map (·.identity) ↔ w ∈ xs.map (·.identities.sum) := by
  rw [(h.entries.map _).mem_iff, List.map_map]
  rfl

theorem enter (h : Lists r xs) (admitted : r.Admits t x.identities x.vectors) :
    Lists t (x :: xs) := by
  refine ⟨?_, ?_, ?_, ?_⟩
  · rw [admitted.entries]
    exact (h.entries.append_right _).trans List.perm_append_comm
  · rw [admitted.identities]
    exact (h.identities.append_right _).trans List.perm_append_comm
  · exact List.nodup_cons.mpr ⟨fun held => admitted.fresh (h.mem_sums.mpr held), h.sums⟩
  · refine List.nodup_append'.mpr ⟨admitted.unique, h.unique, ?_⟩
    intro w own others
    exact admitted.unused w own (h.identities.mem_iff.mpr others)

theorem strike (h : Lists r (x :: xs)) : Lists (r.without x.identities) xs := by
  obtain ⟨fresh, sums⟩ := List.nodup_cons.mp h.sums
  obtain ⟨-, unique, apart⟩ := List.nodup_append'.mp h.unique
  refine ⟨?_, ?_, sums, unique⟩
  · have others : (xs.map Exhibit.entry).filter (·.identity ≠ x.identities.sum)
        = xs.map Exhibit.entry := by
      apply filter_key_absent Series.Entry.identity
      rw [List.map_map]
      exact fresh
    have kept := h.entries.filter (·.identity ≠ x.identities.sum)
    rw [List.map_cons, List.filter_cons_of_neg (by simp [Exhibit.entry]), others] at kept
    exact kept
  · have own : x.identities.filter (· ∉ x.identities) = [] := by simp
    have others : (xs.flatMap (·.identities)).filter (· ∉ x.identities)
        = xs.flatMap (·.identities) :=
      filter_apart fun w others own => apart own others
    have kept := h.identities.filter (· ∉ x.identities)
    rw [List.flatMap_cons, List.filter_append, own, others, List.nil_append] at kept
    exact kept

end Lists

/-- All registries hold these exhibits, each in its own registry and with vectors of its own. -/
structure Ledger (xs : List Exhibit) (s : Shared) : Prop where
  present : ∀ x ∈ xs, x.registry < s.registries.length
  lists : ∀ r, Lists (s.registry r) (Exhibit.within r xs)
  apart : (xs.flatMap (·.vectors)).Nodup
  stored : ∀ x ∈ xs, ∀ i ∈ x.vectors, i < s.store.vectors.length

namespace Shared

theorem registry_setRegistry (s : Shared) (i j : Nat) (r : Series.Registry)
    (present : i < s.registries.length) :
    (s.setRegistry i r).registry j = if i = j then r else s.registry j := by
  by_cases same : i = j
  · subst same
    simp [registry, setRegistry, present]
  · simp [registry, setRegistry, same]

theorem registry_congr {s t : Shared} (same : t.registries = s.registries) (r : Nat) :
    t.registry r = s.registry r := by
  rw [registry, registry, same]

def Agrees (s t : Shared) : Prop := t.registries = s.registries ∧ t.store = s.store

namespace Agrees

variable {s t u : Shared}

theorem refl (s : Shared) : s.Agrees s := ⟨rfl, rfl⟩

theorem trans (first : s.Agrees t) (second : t.Agrees u) : s.Agrees u :=
  ⟨second.1.trans first.1, second.2.trans first.2⟩

theorem emit (s : Shared) (events : List Event) : s.Agrees (s.emit events) := ⟨rfl, rfl⟩

theorem log (s : Shared) (level : Level) (message : String) : s.Agrees (s.log level message) :=
  emit s _

theorem hooks (s : Shared) (lines : List String) : s.Agrees (s.hooks lines) := emit s _

end Agrees

def Notes (s t : Shared) : Prop :=
  ∃ records : List (Level × String), t = s.emit (records.map fun r => .record r.1 r.2)

namespace Notes

variable {s t u : Shared}

theorem refl (s : Shared) : s.Notes s := ⟨[], rfl⟩

theorem log (s : Shared) (level : Level) (message : String) : s.Notes (s.log level message) :=
  ⟨[(level, message)], rfl⟩

theorem trans (first : s.Notes t) (second : t.Notes u) : s.Notes u := by
  obtain ⟨xs, rfl⟩ := first
  obtain ⟨ys, rfl⟩ := second
  exact ⟨xs ++ ys, by simp [emit]⟩

theorem agrees (h : s.Notes t) : s.Agrees t := by
  obtain ⟨records, rfl⟩ := h
  exact .emit s _

end Notes

end Shared

namespace Ledger

variable {xs ys : List Exhibit} {x : Exhibit} {s t : Shared}

theorem perm (h : Ledger xs s) (same : xs.Perm ys) : Ledger ys s :=
  ⟨fun y hy => h.present y (same.mem_iff.mpr hy), fun r => (h.lists r).perm (same.filter _),
    (same.flatMap_right _).nodup_iff.mp h.apart, fun y hy => h.stored y (same.mem_iff.mpr hy)⟩

theorem same (h : Ledger xs s) (count : t.registries.length = s.registries.length)
    (collectors : ∀ r, (s.registry r).SameCollectors (t.registry r))
    (kept : s.store.vectors.length ≤ t.store.vectors.length) : Ledger xs t :=
  ⟨fun y hy => count ▸ h.present y hy, fun r => (h.lists r).same (collectors r), h.apart,
    fun y hy i hi => Nat.lt_of_lt_of_le (h.stored y hy i hi) kept⟩

theorem agrees (h : Ledger xs s) (registries : t.registries = s.registries)
    (kept : s.store.vectors.length ≤ t.store.vectors.length) : Ledger xs t := by
  refine h.same (by rw [registries]) ?_ kept
  intro r
  have here := Shared.registry_congr registries r
  exact ⟨here ▸ rfl, here ▸ rfl⟩

theorem empty (count : Nat) : Ledger [] (.ofRegistries count) := by
  refine ⟨by simp, fun r => ?_, .nil, by simp⟩
  have none : (Shared.ofRegistries count).registry r = .empty := by
    simp only [Shared.registry, Shared.ofRegistries, List.getElem?_replicate]
    split <;> rfl
  rw [none]
  exact Lists.empty

theorem enter {r : Series.Registry} (h : Ledger xs s) (present : x.registry < s.registries.length)
    (admitted : (s.registry x.registry).Admits r x.identities x.vectors)
    (own : x.vectors.Nodup) (fresh : ∀ y ∈ xs, ∀ i ∈ x.vectors, i ∉ y.vectors)
    (stored : ∀ i ∈ x.vectors, i < s.store.vectors.length) :
    Ledger (x :: xs) (s.setRegistry x.registry r) := by
  refine ⟨?_, ?_, ?_, ?_⟩
  · intro y hy
    have inside : y.registry < s.registries.length := by
      rcases List.mem_cons.mp hy with rfl | hy
      · exact present
      · exact h.present y hy
    simpa [Shared.setRegistry] using inside
  · intro j
    rw [Shared.registry_setRegistry _ _ _ _ present]
    by_cases here : x.registry = j
    · subst here
      have entered := (h.lists x.registry).enter admitted
      simpa [Exhibit.within] using entered
    · simpa [Exhibit.within, here] using h.lists j
  · refine List.nodup_append'.mpr ⟨own, h.apart, ?_⟩
    intro i hi others
    obtain ⟨y, hy, hiy⟩ := List.mem_flatMap.mp others
    exact fresh y hy i hi hiy
  · intro y hy
    rcases List.mem_cons.mp hy with rfl | hy
    · exact stored
    · exact h.stored y hy

theorem strike (h : Ledger (x :: xs) s) :
    Ledger xs (s.setRegistry x.registry ((s.registry x.registry).without x.identities)) := by
  have present := h.present x List.mem_cons_self
  refine ⟨?_, ?_, (List.nodup_append'.mp h.apart).2.1, ?_⟩
  · intro y hy
    simpa [Shared.setRegistry] using h.present y (List.mem_cons_of_mem _ hy)
  · intro j
    have here := h.lists j
    rw [Shared.registry_setRegistry _ _ _ _ present]
    by_cases own : x.registry = j
    · subst own
      simp only [Exhibit.within, List.filter_cons, decide_true, if_true] at here
      simpa [Exhibit.within] using here.strike
    · simpa [Exhibit.within, own] using here
  · intro y hy
    exact h.stored y (List.mem_cons_of_mem _ hy)

theorem held (h : Ledger xs s) (member : x ∈ xs) :
    x.identities.sum ∈ (s.registry x.registry).entries.map (·.identity) := by
  apply (h.lists x.registry).mem_sums.mpr
  exact List.mem_map.mpr ⟨x, List.mem_filter.mpr ⟨member, by simp⟩, rfl⟩

theorem identities_nodup (h : Ledger xs s) (member : x ∈ xs) : x.identities.Nodup :=
  (List.nodup_flatMap.mp (h.lists x.registry).unique).1 x
    (List.mem_filter.mpr ⟨member, by simp⟩)

end Ledger

end Telemetry
