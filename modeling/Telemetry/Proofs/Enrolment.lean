import Telemetry.Proofs.Sequences
import Telemetry.Series.Registry

/-! What registering and unregistering do to a registry, apart from the dimensions it remembers. A
registration that fails leaves collectors and identities as they were. One that succeeds brings
identities that are new and a sum that nobody has, so that unregistering finds this collector and
no other, whatever collisions the words of other descriptors may have. -/
namespace Telemetry.Series

namespace Registry

def SameCollectors (r t : Registry) : Prop := t.entries = r.entries ∧ t.identities = r.identities

def noting (r : Registry) (d : Descriptor) : Registry :=
  if (r.dimensions? d.name).isSome then r
  else { r with dimensions := r.dimensions ++ [(d.name, d.dimensions)] }

theorem noting_same (r : Registry) (d : Descriptor) : SameCollectors r (r.noting d) := by
  unfold noting
  split <;> exact ⟨rfl, rfl⟩

theorem enroll_cons (r : Registry) (seen : List Fingerprint) (d : Descriptor)
    (rest : List Descriptor) :
    r.enroll seen (d :: rest) =
      if r.identities.contains d.identity then (.error .duplicateCollector, r)
      else if (r.dimensions? d.name).any (· ≠ d.dimensions) then (.error .dimensions, r)
      else if seen.contains d.identity then (.error (.repeatedDescriptor d.name), r.noting d)
      else (r.noting d).enroll (d.identity :: seen) rest := rfl

theorem enroll_same (r : Registry) (seen : List Fingerprint) (ds : List Descriptor) :
    SameCollectors r (r.enroll seen ds).2 := by
  induction ds generalizing r seen with
  | nil => exact ⟨rfl, rfl⟩
  | cons d rest ih =>
    have noted := noting_same r d
    rw [enroll_cons]
    split
    · exact ⟨rfl, rfl⟩
    · split
      · exact ⟨rfl, rfl⟩
      · split
        · exact noted
        · have tail := ih (r.noting d) (d.identity :: seen)
          exact ⟨tail.1.trans noted.1, tail.2.trans noted.2⟩

theorem enroll_fresh {r t : Registry} {seen : List Fingerprint} {ds : List Descriptor}
    (accepted : r.enroll seen ds = (.ok (), t)) :
    (ds.map (·.identity)).Nodup ∧
      ∀ d ∈ ds, d.identity ∉ r.identities ∧ d.identity ∉ seen := by
  induction ds generalizing r seen with
  | nil => exact ⟨.nil, fun d hd => by cases hd⟩
  | cons d rest ih =>
    rw [enroll_cons] at accepted
    split at accepted
    · cases accepted
    · rename_i unused
      split at accepted
      · cases accepted
      · split at accepted
        · cases accepted
        · rename_i unseen
          have tail := ih accepted
          rw [(noting_same r d).2] at tail
          simp only [List.contains_eq_mem, decide_eq_true_eq] at unused unseen
          refine ⟨List.nodup_cons.mpr ⟨?_, tail.1⟩, ?_⟩
          · intro repeated
            obtain ⟨e, he, heq⟩ := List.mem_map.mp repeated
            exact (tail.2 e he).2 (heq ▸ List.mem_cons_self)
          · intro e he
            rcases List.mem_cons.mp he with rfl | he
            · exact ⟨unused, unseen⟩
            · exact ⟨(tail.2 e he).1, fun h => (tail.2 e he).2 (List.mem_cons_of_mem _ h)⟩

theorem register_eq (r : Registry) (ds : List Descriptor) (vs : List Nat) :
    r.register ds vs =
      match r.enroll [] ds with
      | (.error e, r) => (.error e, r)
      | (.ok (), r) =>
        if r.holds (ds.map (·.identity)).sum then (.error .duplicateCollector, r)
        else
          (.ok (), { r with
            entries := r.entries ++ [⟨(ds.map (·.identity)).sum, vs⟩]
            identities := r.identities ++ ds.map (·.identity) }) := rfl

theorem register_error {r t : Registry} {ds : List Descriptor} {vs : List Nat} {e : Rejection}
    (refused : r.register ds vs = (.error e, t)) : SameCollectors r t := by
  have same := enroll_same r [] ds
  rw [register_eq] at refused
  split at refused
  · rename_i u hu
    rw [hu] at same
    cases refused
    exact same
  · rename_i u hu
    rw [hu] at same
    split at refused <;> cases refused
    exact same

structure Admits (r t : Registry) (identities : List Fingerprint) (vectors : List Nat) :
    Prop where
  unique : identities.Nodup
  unused : ∀ x ∈ identities, x ∉ r.identities
  fresh : identities.sum ∉ r.entries.map (·.identity)
  entries : t.entries = r.entries ++ [⟨identities.sum, vectors⟩]
  identities : t.identities = r.identities ++ identities

theorem register_ok {r t : Registry} {ds : List Descriptor} {vs : List Nat}
    (accepted : r.register ds vs = (.ok (), t)) : Admits r t (ds.map (·.identity)) vs := by
  have same := enroll_same r [] ds
  rw [register_eq] at accepted
  split at accepted
  · cases accepted
  · rename_i u hu
    rw [hu] at same
    have fresh := enroll_fresh hu
    split at accepted
    · cases accepted
    · rename_i unheld
      cases accepted
      refine ⟨fresh.1, ?_, ?_, ?_, ?_⟩
      · intro x hx
        obtain ⟨d, hd, rfl⟩ := List.mem_map.mp hx
        exact (fresh.2 d hd).1
      · rw [← same.1]
        intro held
        obtain ⟨e, he, heq⟩ := List.mem_map.mp held
        exact unheld (List.any_eq_true.mpr ⟨e, he, by simpa using heq⟩)
      · exact congrArg (· ++ [_]) same.1
      · exact congrArg (· ++ _) same.2

def without (r : Registry) (identities : List Fingerprint) : Registry :=
  { r with
    entries := r.entries.filter (·.identity ≠ identities.sum)
    identities := r.identities.filter (· ∉ identities) }

theorem unregister_held {r : Registry} {ds : List Descriptor}
    (unique : (ds.map (·.identity)).Nodup)
    (held : (ds.map (·.identity)).sum ∈ r.entries.map (·.identity)) :
    r.unregister ds = (.ok (), r.without (ds.map (·.identity))) := by
  have found : r.holds (ds.map (·.identity)).sum := by
    obtain ⟨e, he, heq⟩ := List.mem_map.mp held
    exact List.any_eq_true.mpr ⟨e, he, by simpa using heq⟩
  unfold unregister
  simp only [eraseDups_of_nodup unique, found, if_true]
  rfl

/-- The collectors that a registry has got beyond those of `r`, in order. -/
structure Stacked (r t : Registry) (added : List (List Fingerprint)) : Prop where
  entries : ∃ top, t.entries = r.entries ++ top ∧ top.map (·.identity) = added.map List.sum
  identities : t.identities = r.identities ++ added.flatten
  fresh : ∀ w ∈ added.map List.sum, w ∉ r.entries.map (·.identity)
  sums : (added.map List.sum).Nodup
  unused : ∀ w ∈ added.flatten, w ∉ r.identities
  unique : added.flatten.Nodup

namespace Stacked

variable {r t u : Registry} {added : List (List Fingerprint)} {own : List Fingerprint}

theorem refl (r : Registry) : Stacked r r [] :=
  ⟨⟨[], by simp, rfl⟩, by simp, by simp, .nil, by simp, .nil⟩

theorem same (h : Stacked r t added) (unchanged : t.SameCollectors u) : Stacked r u added :=
  ⟨unchanged.1 ▸ h.entries, unchanged.2 ▸ h.identities, h.fresh, h.sums, h.unused, h.unique⟩

theorem collectors (h : Stacked r t []) : r.SameCollectors t := by
  obtain ⟨top, entries, none⟩ := h.entries
  have empty : top = [] := by simpa using none
  refine ⟨?_, by simpa using h.identities⟩
  rw [entries, empty, List.append_nil]

theorem push {vectors : List Nat} (h : Stacked r t added) (admitted : t.Admits u own vectors) :
    Stacked r u (added ++ [own]) := by
  obtain ⟨top, entries, identities⟩ := h.entries
  have sums : t.entries.map (·.identity) = r.entries.map (·.identity) ++ added.map List.sum := by
    rw [entries, List.map_append, identities]
  have fresh := admitted.fresh
  have unused := admitted.unused
  rw [sums, List.mem_append, not_or] at fresh
  simp only [h.identities, List.mem_append, not_or] at unused
  refine ⟨⟨top ++ [⟨own.sum, vectors⟩], ?_, ?_⟩, ?_, ?_, ?_, ?_, ?_⟩
  · rw [admitted.entries, entries, List.append_assoc]
  · rw [List.map_append, List.map_append, identities]
    rfl
  · rw [admitted.identities, h.identities, List.flatten_append, List.append_assoc]
    simp
  · intro w member
    rw [List.map_append, List.mem_append] at member
    rcases member with old | new
    · exact h.fresh w old
    · rw [List.mem_singleton.mp new]
      exact fresh.1
  · rw [List.map_append]
    refine List.nodup_append'.mpr ⟨h.sums, List.nodup_singleton _, ?_⟩
    intro w old new
    rw [List.mem_singleton.mp new] at old
    exact fresh.2 old
  · intro w member
    rw [List.flatten_append, List.mem_append] at member
    rcases member with old | new
    · exact h.unused w old
    · exact (unused w (by simpa using new)).1
  · rw [List.flatten_append]
    refine List.nodup_append'.mpr ⟨h.unique, by simpa using admitted.unique, ?_⟩
    intro w old new
    exact (unused w (by simpa using new)).2 old

theorem held (h : Stacked r t (own :: added)) : own.sum ∈ t.entries.map (·.identity) := by
  obtain ⟨top, entries, identities⟩ := h.entries
  rw [entries, List.map_append, identities]
  exact List.mem_append_right _ List.mem_cons_self

theorem own_nodup (h : Stacked r t (own :: added)) : own.Nodup := by
  have unique := h.unique
  rw [List.flatten_cons] at unique
  exact (List.nodup_append'.mp unique).1

theorem pop (h : Stacked r t (own :: added)) : Stacked r (t.without own) added := by
  obtain ⟨top, entries, identities⟩ := h.entries
  obtain ⟨apart, sums⟩ := List.nodup_cons.mp h.sums
  have unique := h.unique
  rw [List.flatten_cons] at unique
  obtain ⟨-, unique, disjoint⟩ := List.nodup_append'.mp unique
  cases top with
  | nil => cases identities
  | cons e top =>
    rw [List.map_cons, List.map_cons, List.cons.injEq] at identities
    refine ⟨⟨top, ?_, identities.2⟩, ?_, ?_, sums, ?_, unique⟩
    · have below := filter_key_absent Entry.identity (h.fresh _ List.mem_cons_self)
      have above := filter_key_absent Entry.identity (identities.2 ▸ apart)
      simp only [without, entries, List.filter_append]
      rw [below, List.filter_cons_of_neg (by simp [identities.1]), above]
    · have below : r.identities.filter (· ∉ own) = r.identities :=
        filter_apart fun w member inside => h.unused w (List.mem_append_left _ inside) member
      have above : added.flatten.filter (· ∉ own) = added.flatten :=
        filter_apart fun w member inside => disjoint inside member
      have here : own.filter (· ∉ own) = [] := by simp
      simp only [without, h.identities, List.flatten_cons, List.filter_append]
      rw [below, here, above, List.nil_append]
    · exact fun w member => h.fresh w (List.mem_cons_of_mem _ member)
    · exact fun w member => h.unused w (List.mem_append_right _ member)

end Stacked

end Registry

end Telemetry.Series
