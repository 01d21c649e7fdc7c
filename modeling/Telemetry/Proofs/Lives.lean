import Telemetry.Proofs.Numbering
import Telemetry.Proofs.Sampled

/-! What becomes of a zone in the hands of a domain. Passes are made over it when an operation comes
to one and the zone is enabled; in between it may be detached and attached again. Once a lock is
poisoned the zones behind it are out of reach. -/
namespace Telemetry

def Effect.treats (effect : Effect) (handle : ZoneHandle) : Option Treatment :=
  match effect with
  | .nothing => none
  | .everywhere clear => some (.pass clear)
  | .one other treatment => if other = handle then some treatment else none

def Treatment.passes {δ : Type} (env : Surroundings) (treatment : Treatment) (z : Zone δ) :
    List Pass :=
  match treatment with
  | .pass clear => if z.enabled then [⟨env, clear⟩] else []
  | .enable clear => if !z.enabled && clear then [⟨env, true⟩] else []
  | .disable => []

def Effect.passes {δ : Type} (env : Surroundings) (effect : Effect) (handle : ZoneHandle)
    (z : Zone δ) : List Pass :=
  match effect.treats handle with
  | some treatment => treatment.passes env z
  | none => []

def Domain.zone? {δ : Type} (d : Domain δ) (handle : ZoneHandle) : Option (Zone δ) :=
  if d.treePoisoned then none else d.zones.find? (·.handle == some handle)

/-- The zone behind a handle, also when nobody can reach it any more. -/
def Domain.kept? {δ : Type} (d : Domain δ) (handle : ZoneHandle) : Option (Zone δ) :=
  d.zones.find? (·.handle == some handle)

variable {δ : Type} [Driver δ] {env : Surroundings}

/-- What becomes of a zone through passes, with attachments and detachments in between. -/
inductive Zone.Lives (z : Zone δ) : List Pass → Zone δ → Prop
  | start : Lives z [] z
  | moved {ps : List Pass} {x y : Zone δ} :
      Lives z ps x → List.Forall₂ Block.Carried x.blocks y.blocks → Lives z ps y
  | passed {ps : List Pass} {x y : Zone δ} (p : Pass) :
      Lives z ps x → List.Forall₂ (Block.Passed p) x.blocks y.blocks → Lives z (ps ++ [p]) y

theorem Zone.Lives.trans {x y z : Zone δ} {ps qs : List Pass} (first : x.Lives ps y)
    (second : y.Lives qs z) : x.Lives (ps ++ qs) z := by
  induction second with
  | start => rwa [List.append_nil]
  | moved _ carried ih => exact .moved ih carried
  | passed p _ passed ih =>
    rw [← List.append_assoc]
    exact .passed p ih passed

inductive Zone.Treated (z : Zone δ) : List Pass → Zone δ → Prop
  | idle {w : Zone δ} : w.blocks = z.blocks → Treated z [] w
  | passed {y w : Zone δ} {s t : Shared} (p : Pass) : y.enabled = true → y.blocks = z.blocks →
      y.pass p.env p.clear s = (none, w, t) → Treated z [p] w

theorem Treatment.run_treated {treatment : Treatment} {z w : Zone δ} {s t : Shared}
    (done : treatment.run env z s = (none, w, t)) : z.Treated (treatment.passes env z) w := by
  cases treatment with
  | pass clear =>
    cases on : z.enabled with
    | true =>
      simp only [passes, on, if_true]
      exact .passed ⟨env, clear⟩ on rfl done
    | false =>
      simp only [run, Zone.pass, on, Bool.false_eq_true, if_false] at done
      cases done
      simp only [passes, on, Bool.false_eq_true, if_false]
      exact .idle rfl
  | enable clear =>
    simp only [run, Zone.enable] at done
    simp only [passes]
    split at done
    · rename_i asked
      rw [if_pos asked]
      exact .passed (y := { z with enabled := true }) ⟨env, true⟩ rfl rfl done
    · rename_i idle
      rw [if_neg idle]
      cases done
      exact .idle rfl
  | disable =>
    cases done
    exact .idle rfl

omit [Driver δ] in
theorem split_placed {zones : List (Zone δ)} {handle : ZoneHandle} {n : Nat} {z : Zone δ}
    (placed : zones.findIdx? (·.handle == some handle) = some n) (there : zones[n]? = some z) :
    zones = zones.take n ++ z :: zones.drop (n + 1) ∧ n < zones.length ∧
      z.handle = some handle ∧ (zones.take n).find? (·.handle == some handle) = none := by
  have whole := (split_at there).1
  obtain ⟨below, known, first⟩ := List.findIdx?_eq_some_iff_getElem.mp placed
  rw [List.getElem?_eq_getElem below] at there
  cases there
  refine ⟨whole, below, beq_iff_eq.mp known, ?_⟩
  refine List.find?_eq_none.mpr fun y member => ?_
  obtain ⟨j, inside, rfl⟩ := List.mem_take_iff_getElem.mp member
  exact first j (by omega)

omit [Driver δ] in
theorem placed_of_find? {zones : List (Zone δ)} {handle : ZoneHandle} {z : Zone δ}
    (found : zones.find? (·.handle == some handle) = some z) :
    ∃ n : Nat, zones.findIdx? (·.handle == some handle) = some n ∧ zones[n]? = some z := by
  obtain ⟨known, n, below, here, first⟩ := List.find?_eq_some_iff_getElem.mp found
  refine ⟨n, List.findIdx?_eq_some_iff_getElem.mpr ⟨below, here ▸ known, ?_⟩, ?_⟩
  · intro j earlier
    simpa using first j earlier
  · rw [List.getElem?_eq_getElem below, here]

omit [Driver δ] in
theorem find?_forall₂ {R : Zone δ → Zone δ → Prop} {zones ws : List (Zone δ)} {z : Zone δ}
    {handle : ZoneHandle} (each : List.Forall₂ (fun a b => b.handle = a.handle ∧ R a b) zones ws)
    (found : zones.find? (·.handle == some handle) = some z) :
    ∃ w, ws.find? (·.handle == some handle) = some w ∧ R z w := by
  induction each with
  | nil => cases found
  | @cons a b _ _ head _ ih =>
    cases here : a.handle == some handle with
    | true =>
      rw [List.find?_cons_of_pos (by exact here)] at found
      cases found
      refine ⟨b, List.find?_cons_of_pos (by rw [head.1]; exact here), head.2⟩
    | false =>
      rw [List.find?_cons_of_neg (by simp [here])] at found
      rw [List.find?_cons_of_neg (by rw [head.1]; simp [here])]
      exact ih found

theorem Effect.run_untreated {effect : Effect} {zones : List (Zone δ)} {z : Zone δ}
    {handle : ZoneHandle} (spared : effect.treats handle = none)
    (found : zones.find? (·.handle == some handle) = some z) (env : Surroundings) (s : Shared) :
    (effect.run env zones s).2.1.find? (·.handle == some handle) = some z := by
  cases effect with
  | nothing => exact found
  | everywhere clear => cases spared
  | one other treatment =>
    have same : other ≠ handle := by
      rintro rfl
      simp [treats] at spared
    simp only [run]
    split
    · exact found
    · rename_i n y there
      obtain ⟨placed, inside⟩ := found_at there
      obtain ⟨split, below, known, -⟩ := split_placed placed inside
      have unlike : ¬(some other == some handle) = true := by simpa using same
      have kept := treatment.run_handle env y s
      rw [split, List.find?_append, List.find?_cons_of_neg (by rw [known]; exact unlike)] at found
      rw [List.set_eq_take_append_cons_drop, if_pos below, List.find?_append,
        List.find?_cons_of_neg (by rw [kept, known]; exact unlike)]
      exact found

theorem Effect.run_treated {effect : Effect} {zones ws : List (Zone δ)} {z : Zone δ} {s t : Shared}
    {handle : ZoneHandle} (done : effect.run env zones s = (none, ws, t))
    (found : zones.find? (·.handle == some handle) = some z) :
    ∃ w, ws.find? (·.handle == some handle) = some w ∧ z.Treated (effect.passes env handle z) w := by
  cases effect with
  | nothing =>
    cases done
    exact ⟨z, found, .idle rfl⟩
  | everywhere clear =>
    have each := (passOver_forall₂ (fun _ => True)
      (fun a b : Zone δ => b.handle = a.handle ∧ a.Treated ((Treatment.pass clear).passes env a) b)
      (fun a u b v _ here => by
        refine ⟨trivial, ?_, Treatment.run_treated here⟩
        have kept := a.pass_handle env clear u
        rw [here] at kept
        exact kept) trivial done).2
    exact find?_forall₂ each found
  | one other treatment =>
    by_cases same : other = handle
    · subst same
      obtain ⟨n, placed, there⟩ := placed_of_find? found
      obtain ⟨-, below, known, first⟩ := split_placed placed there
      simp only [run, placed, there, Option.bind_some, Option.map_some] at done
      cases ended : treatment.run env z s with | mk fault rest =>
      obtain ⟨w, u⟩ := rest
      have kept := treatment.run_handle env z s
      simp only [ended] at done kept
      cases done
      refine ⟨w, ?_, ?_⟩
      · rw [List.set_eq_take_append_cons_drop, if_pos below, List.find?_append, first,
          List.find?_cons_of_pos (by simp [kept, known])]
        rfl
      · simp only [passes, treats, if_true]
        exact Treatment.run_treated ended
    · simp only [passes, treats, if_neg same]
      have spared : (Effect.one other treatment).treats handle = none := by
        rw [treats, if_neg same]
      have kept := run_untreated spared found env s
      rw [done] at kept
      exact ⟨z, kept, .idle rfl⟩

namespace Domain

variable {d : Domain δ} {s : Shared} {handle : ZoneHandle} {z : Zone δ}

omit [Driver δ] in
theorem zone?_some : d.zone? handle = some z ↔
    d.treePoisoned = false ∧ d.zones.find? (·.handle == some handle) = some z := by
  unfold zone?
  cases d.treePoisoned <;> simp

theorem Becomes.treated {effect : Effect} {e : Domain δ} {t : Shared}
    (becomes : d.Becomes (effect.run env d.zones s) e t) (there : d.kept? handle = some z)
    (whole : (effect.run env d.zones s).1 = none) :
    ∃ w, e.kept? handle = some w ∧ z.Treated (effect.passes env handle z) w := by
  cases done : effect.run env d.zones s with | mk fault rest =>
  obtain ⟨ws, u⟩ := rest
  rw [done] at becomes whole
  cases whole
  obtain ⟨w, kept, treated⟩ := Effect.run_treated done there
  exact ⟨w, by rw [kept?, becomes.zones]; exact kept, treated⟩

theorem attachZone_kept {w : Zone δ} (bare : w.Bare) (present : d.registry < s.registries.length)
    (there : d.kept? handle = some z) : (d.attachZone env w s).domain.kept? handle = some z := by
  rcases attachZone_cases env bare present with
    answer | ⟨f, t, answer, -⟩ | ⟨refusal, x, t, answer, -⟩ | ⟨ps, u, v, x, t, answer, -⟩
  all_goals rw [answer]
  · exact there
  · exact there
  · exact there
  · change (d.zones ++ [x]).find? _ = some z
    rw [List.find?_append, show d.zones.find? _ = some z from there]
    rfl

omit [Driver δ] in
theorem kept?_placed {n : Nat} (placed : d.position handle = some n)
    (there : d.zones[n]? = some z) : d.kept? handle = some z := by
  obtain ⟨split, -, owned, none⟩ := split_placed placed there
  rw [kept?, split, List.find?_append, none, List.find?_cons_of_pos (by simp [owned])]
  rfl

omit [Driver δ] in
theorem Numbered.find?_joined (numbered : d.Numbered) (known : z.handle = some ⟨d.id, d.nextZone⟩) :
    (d.zones ++ [z]).find? (·.handle == some ⟨d.id, d.nextZone⟩) = some z := by
  have fresh : d.zones.find? (·.handle == some ⟨d.id, d.nextZone⟩) = none := by
    refine List.find?_eq_none.mpr fun y member => ?_
    simpa using numbered.fresh y member
  rw [List.find?_append, fresh, List.find?_cons_of_pos (by simp [known])]
  rfl

theorem attachZone_here (numbered : d.Numbered) (bare : z.Bare)
    (present : d.registry < s.registries.length)
    (done : (d.attachZone env z s).outcome = .ok handle) :
    ∃ w, (d.attachZone env z s).domain.zone? handle = some w ∧ z.Joined w := by
  obtain ⟨rfl, sound, w, -, joined, known, domain⟩ := attachZone_ok bare present done
  refine ⟨w, ?_, joined⟩
  rw [domain, zone?_some]
  exact ⟨sound, numbered.find?_joined known⟩

theorem detachZone_poisoned (poisoned : d.treePoisoned = true) (handle : ZoneHandle) (s : Shared) :
    ∃ f, d.detachZone handle s = ⟨.error f, d, s⟩ := by
  unfold detachZone onZone
  split
  · exact ⟨_, rfl⟩
  · exact ⟨_, rfl⟩

/-- A detachment gives back the zone behind its handle. Any other zone stays behind its own, and
so do all if the detachment fails. -/
theorem detachZone_kept {count : Nat} {rest : List (Mount δ)} {guests : List Guest}
    (mirror : Mirror count (d.mounts ++ rest) guests s) (there : d.kept? handle = some z)
    (other : ZoneHandle) :
    (other = handle ∧ (d.detachZone other s).outcome = .ok z.left) ∨
      (d.detachZone other s).domain.kept? handle = some z ∧
        (other = handle → ∃ e, (d.detachZone other s).outcome = .error e) := by
  rcases mirror.detach_cases other with ⟨f, -, answer⟩ | ⟨n, y, t, -, placed, inside, answer, -⟩
  all_goals rw [answer]
  · exact .inr ⟨there, fun _ => ⟨_, rfl⟩⟩
  · by_cases same : other = handle
    · obtain ⟨m, here, known⟩ := placed_of_find? there
      rw [position, same, here] at placed
      cases placed
      rw [known] at inside
      cases inside
      exact .inl ⟨same, rfl⟩
    · obtain ⟨split, -, known, -⟩ := split_placed placed inside
      refine .inr ⟨?_, fun alike => absurd alike same⟩
      rw [kept?, split, List.find?_append,
        List.find?_cons_of_neg (by simpa [known] using same)] at there
      rw [kept?, List.eraseIdx_eq_take_drop_succ, List.find?_append]
      exact there

end Domain

end Telemetry
