import Telemetry.Proofs.Carried

/-! Handles are numbered. Every zone of a domain has a handle of that domain with a number that was
given out before, so a handle that is given out is new. -/
namespace Telemetry

variable {δ : Type} [Driver δ] {env : Surroundings}

theorem Zone.pass_handle (env : Surroundings) (clear : Bool) (z : Zone δ) (s : Shared) :
    (z.pass env clear s).2.1.handle = z.handle := by
  unfold Zone.pass
  split <;> rfl

theorem Treatment.run_handle (env : Surroundings) (treatment : Treatment) (z : Zone δ)
    (s : Shared) :
    (treatment.run env z s).2.1.handle = z.handle := by
  cases treatment with
  | pass clear => exact z.pass_handle env clear s
  | enable clear =>
    simp only [run, Zone.enable]
    split
    · exact Zone.pass_handle env true { z with enabled := true } s
    · rfl
  | disable => rfl

theorem Effect.run_handles (effect : Effect) (zones : List (Zone δ)) (s : Shared) :
    (effect.run env zones s).2.1.map (·.handle) = zones.map (·.handle) := by
  cases effect with
  | nothing => rfl
  | everywhere clear =>
    refine passOver_in_place (Zone.pass env clear)
      (fun others _ => others.map (·.handle) = zones.map (·.handle)) ?_ [] zones s rfl
    intro before z after t same
    rw [← same, List.map_append, List.map_append, List.map_cons, List.map_cons, z.pass_handle env]
  | one handle treatment =>
    simp only [run]
    split
    · rfl
    · rename_i i z found
      obtain ⟨whole, changed⟩ := split_at (found_at found).2
      conv_rhs => rw [whole]
      rw [changed, List.map_append, List.map_append, List.map_cons, List.map_cons,
        treatment.run_handle env]

namespace Domain

def Issued (d : Domain δ) (handle : Option ZoneHandle) : Prop :=
  ∃ n < d.nextZone, handle = some ⟨d.id, n⟩

def Numbered (d : Domain δ) : Prop := ∀ handle ∈ d.zones.map (·.handle), d.Issued handle

variable {d e : Domain δ} {s : Shared}

theorem Numbered.becomes (h : d.Numbered) {effect : Effect} {t : Shared}
    (becomes : d.Becomes (effect.run env d.zones s) e t) : e.Numbered := by
  intro handle member
  rw [becomes.zones, Effect.run_handles] at member
  obtain ⟨n, below, same⟩ := h handle member
  exact ⟨n, becomes.frame.nextZone ▸ below, becomes.frame.id ▸ same⟩

omit [Driver δ] in
theorem Numbered.fresh (h : d.Numbered) :
    ∀ z ∈ d.zones, z.handle ≠ some ⟨d.id, d.nextZone⟩ := by
  intro z member same
  obtain ⟨n, below, issued⟩ := h z.handle (List.mem_map_of_mem member)
  rw [same] at issued
  cases issued
  exact Nat.lt_irrefl _ below

/-- What holds of a new domain and is kept by whatever happens to a domain. -/
structure Kept (P : Domain δ → Prop) : Prop where
  created : ∀ id registry config s, P (create id registry config s).1
  becomes : ∀ (env : Surroundings) (effect : Effect) {d e : Domain δ} {s t : Shared},
    P d → d.Becomes (effect.run env d.zones s) e t → P e
  poisoned : ∀ {d : Domain δ}, P d → P { d with treePoisoned := true }
  attached : ∀ {d : Domain δ} {w : Zone δ}, P d → w.handle = some ⟨d.id, d.nextZone⟩ →
    P { d with
      nextZone := d.nextZone + 1
      valueCount := d.valueCount + w.valueCount
      zones := d.zones ++ [w] }
  detached : ∀ {d : Domain δ} {n : Nat} {z : Zone δ}, P d → d.zones[n]? = some z →
    P { d with zones := d.zones.eraseIdx n, valueCount := d.valueCount - z.valueCount }

namespace Kept

variable {P : Domain δ → Prop}

theorem attachZone (keeps : Kept P) (h : P d) {z : Zone δ} (bare : z.Bare)
    (present : d.registry < s.registries.length) : P (d.attachZone env z s).domain := by
  rcases attachZone_cases env bare present with
    answer | ⟨f, t, answer, -⟩ | ⟨refusal, w, t, answer, -⟩ |
    ⟨ps, u, v, w, t, answer, -, attaches⟩
  all_goals rw [answer]
  · exact h
  · exact keeps.poisoned h
  · exact h
  · exact keeps.attached h (by rw [attaches.zone])

theorem detachZone (keeps : Kept P) (h : P d) {count : Nat} {rest : List (Mount δ)}
    {guests : List Guest} (mirror : Mirror count (d.mounts ++ rest) guests s)
    (handle : ZoneHandle) : P (d.detachZone handle s).domain := by
  rcases mirror.detach_cases handle with ⟨f, -, answer⟩ | ⟨n, z, t, -, -, there, answer, -⟩
  all_goals rw [answer]
  · exact h
  · exact keeps.detached h there

end Kept

theorem numbered_kept : Kept (Numbered (δ := δ)) where
  created := by
    intro id registry config s handle member
    cases member
  becomes := fun env effect _ _ _ _ h becomes => h.becomes becomes
  poisoned := fun h => h
  attached := by
    intro d w h known handle member
    simp only [List.map_append, List.map_singleton, List.mem_append, List.mem_singleton] at member
    rcases member with old | rfl
    · obtain ⟨n, below, same⟩ := h handle old
      exact ⟨n, Nat.lt_succ_of_lt below, same⟩
    · exact ⟨d.nextZone, Nat.lt_succ_self _, known⟩
  detached := by
    intro d n z h there other member
    exact h other (((List.eraseIdx_sublist d.zones n).map (·.handle)).subset member)

def InOrder (d : Domain δ) : Prop :=
  ∃ ns : List Nat, d.zones.map (·.handle) = ns.map (fun n => some ⟨d.id, n⟩) ∧
    ns.Pairwise (· < ·) ∧ ∀ n ∈ ns, n < d.nextZone

theorem inOrder_kept : Kept (InOrder (δ := δ)) where
  created := fun id registry config s => ⟨[], rfl, .nil, by simp⟩
  becomes := by
    rintro env effect d e s t ⟨ns, handles, sorted, below⟩ becomes
    refine ⟨ns, ?_, sorted, ?_⟩
    · rw [becomes.zones, Effect.run_handles, handles, becomes.frame.id]
    · rw [becomes.frame.nextZone]
      exact below
  poisoned := fun h => h
  attached := by
    rintro d w ⟨ns, handles, sorted, below⟩ known
    refine ⟨ns ++ [d.nextZone], ?_, ?_, ?_⟩
    · simp [handles, known]
    · simpa [List.pairwise_append] using ⟨sorted, below⟩
    · intro n member
      rcases List.mem_append.mp member with old | new
      · exact Nat.lt_succ_of_lt (below n old)
      · rw [List.mem_singleton.mp new]
        exact Nat.lt_succ_self _
  detached := by
    rintro d n z ⟨ns, handles, sorted, below⟩ there
    have fewer := List.eraseIdx_sublist ns n
    refine ⟨ns.eraseIdx n, ?_, sorted.sublist fewer, fun m member => below m (fewer.subset member)⟩
    simpa only [List.eraseIdx_map] using congrArg (·.eraseIdx n) handles

end Domain

namespace Site

def Throughout (P : Domain δ → Prop) (s : Site δ) : Prop := ∀ i d, s.domain? i = some d → P d

def Numbered (s : Site δ) : Prop := ∀ i d, s.domain? i = some d → d.Numbered

variable {s : Site δ} {count i : Nat} {d : Domain δ} {P : Domain δ → Prop}

theorem Coherent.perform_throughout (h : s.Coherent count) (keeps : Domain.Kept P)
    (all : s.Throughout P) (action : Action δ) : (s.perform env action).2.Throughout P := by
  intro i e after
  rcases h.perform_domain after with
    ⟨d, found, ⟨-, same⟩ | undergone⟩ | ⟨-, registry, config, new⟩
  · exact same ▸ all i d found
  · obtain ⟨rest, mirror, home, -, -⟩ := h.facing found
    cases undergone with
    | vacant | fails => exact all i _ found
    | attaches _ bare | places _ bare =>
      exact keeps.attachZone (all i d found) bare (mirror.counted.symm ▸ home)
    | detaches => exact keeps.detachZone (all i d found) mirror _
    | operates operation =>
      exact keeps.becomes env _ (all i d found) (operation.run_becomes env d s.shared)
  · exact new ▸ keeps.created _ _ _ _

theorem run_throughout (keeps : Domain.Kept P) (count : Nat)
    (steps : List (Surroundings × Action δ)) : ((Site.empty count).run steps).Throughout P := by
  have both := run_keeps (fun s : Site δ => s.Coherent count ∧ s.Throughout P)
    (fun env action s h =>
      ⟨(perform_coherent action h.1).1, h.1.perform_throughout keeps h.2 action⟩)
    steps (.empty count) ⟨.empty count, fun i d found => by cases found⟩
  exact both.2

theorem Coherent.perform_numbered (h : s.Coherent count) (numbered : s.Numbered)
    (action : Action δ) : (s.perform env action).2.Numbered :=
  h.perform_throughout Domain.numbered_kept numbered action

theorem run_numbered (count : Nat) (steps : List (Surroundings × Action δ)) :
    ((Site.empty count).run steps).Numbered :=
  run_throughout Domain.numbered_kept count steps

end Site

end Telemetry
