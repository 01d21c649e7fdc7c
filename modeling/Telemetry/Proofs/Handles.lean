import Mathlib.Data.List.Induction
import Telemetry.Proofs.Following
import Telemetry.Proofs.Lasting

/-! Handles are safe. A handle is given out once and for one zone, and leads to that zone until the
zone is taken out of its domain. With any other handle an operation fails before it has done
anything, so that nobody can tell afterwards that it was tried. -/
namespace Telemetry

variable {δ : Type} [Driver δ] {env : Surroundings}

/-- What has been made of one zone by treatments, none of which another zone has a part in. -/
inductive Zone.Continues (z : Zone δ) : Zone δ → Prop
  | same : Continues z z
  | treated {y : Zone δ} (env : Surroundings) (treatment : Treatment) (s : Shared) :
      Continues z y → Continues z (treatment.run env y s).2.1

theorem Zone.Continues.trans {x y z : Zone δ} (first : x.Continues y) (second : y.Continues z) :
    x.Continues z := by
  induction second with
  | same => exact first
  | treated env treatment s _ ih => exact .treated env treatment s ih

theorem Effect.run_continues (effect : Effect) (env : Surroundings) (zones : List (Zone δ))
    (s : Shared) :
    List.Forall₂ (fun a b => b.handle = a.handle ∧ a.Continues b) zones
      (effect.run env zones s).2.1 := by
  refine (effect.run_each zones s).imp ?_
  rintro a b (rfl | ⟨treatment, u, f, v, done, -⟩)
  · exact ⟨rfl, .same⟩
  · have handle := treatment.run_handle env a u
    have treated := Zone.Continues.treated env treatment u (.same (z := a))
    rw [done] at handle treated
    exact ⟨handle, treated⟩

namespace Domain

structure Later (d e : Domain δ) : Prop where
  id : e.id = d.id
  name : e.name = d.name
  nextZone : d.nextZone ≤ e.nextZone

variable {d e : Domain δ} {s : Shared} {handle other : ZoneHandle} {z w : Zone δ}

omit [Driver δ] in
theorem Later.refl (d : Domain δ) : d.Later d := ⟨rfl, rfl, Nat.le_refl _⟩

omit [Driver δ] in
theorem Later.trans {f : Domain δ} (first : d.Later e) (second : e.Later f) : d.Later f :=
  ⟨second.id.trans first.id, second.name.trans first.name,
    Nat.le_trans first.nextZone second.nextZone⟩

theorem attachZone_later (bare : z.Bare) (present : d.registry < s.registries.length) :
    d.Later (d.attachZone env z s).domain := by
  rcases attachZone_cases env bare present with
    answer | ⟨f, t, answer, -⟩ | ⟨refusal, x, t, answer, -⟩ | ⟨ps, u, v, x, t, answer, -⟩
  all_goals rw [answer]
  · exact .refl d
  · exact ⟨rfl, rfl, Nat.le_refl _⟩
  · exact .refl d
  · exact ⟨rfl, rfl, Nat.le_succ _⟩

theorem detachZone_later {count : Nat} {rest : List (Mount δ)} {guests : List Guest}
    (mirror : Mirror count (d.mounts ++ rest) guests s) (handle : ZoneHandle) :
    d.Later (d.detachZone handle s).domain := by
  rcases mirror.detach_cases handle with ⟨f, -, answer⟩ | ⟨n, y, t, -, -, -, answer, -⟩
  all_goals rw [answer]
  · exact .refl d
  · exact ⟨rfl, rfl, Nat.le_refl _⟩

omit [Driver δ] in
theorem kept?_handle (there : d.kept? handle = some z) : z.handle = some handle := by
  simpa using List.find?_some there

omit [Driver δ] in
theorem InOrder.apart (h : d.InOrder) {n m : Nat} (first : d.zones[n]? = some z)
    (second : d.zones[m]? = some w) (same : z.handle = w.handle) : n = m := by
  obtain ⟨ns, handles, sorted, -⟩ := h
  have inside := (List.getElem?_eq_some_iff.mp first).1
  have distinct : (d.zones.map (·.handle)).Nodup := by
    rw [handles]
    refine List.Nodup.map ?_ (sorted.imp fun below => Nat.ne_of_lt below)
    intro a b alike
    cases alike
    rfl
  refine (List.getElem?_inj (by simpa using inside) distinct).mp ?_
  rw [List.getElem?_map, List.getElem?_map, first, second, Option.map_some, Option.map_some, same]

omit [Driver δ] in
theorem InOrder.kept?_eraseIdx (h : d.InOrder) {n : Nat} (placed : d.position other = some n)
    (there : (d.zones.eraseIdx n).find? (·.handle == some handle) = some w) :
    other ≠ handle ∧ d.kept? handle = some w := by
  obtain ⟨below, known, -⟩ := List.findIdx?_eq_some_iff_getElem.mp placed
  have inside : d.zones[n]? = some d.zones[n] := List.getElem?_eq_getElem below
  have different : other ≠ handle := by
    rintro rfl
    obtain ⟨m, apart, found⟩ := List.mem_eraseIdx_iff_getElem?.mp (List.mem_of_find?_eq_some there)
    have own : w.handle = some other := by simpa using List.find?_some there
    exact apart (h.apart inside found ((beq_iff_eq.mp known).trans own.symm)).symm
  refine ⟨different, ?_⟩
  obtain ⟨split, -, owned, -⟩ := split_placed placed inside
  rw [List.eraseIdx_eq_take_drop_succ, List.find?_append] at there
  rw [kept?, split, List.find?_append, List.find?_cons_of_neg (by simpa [owned] using different)]
  exact there

theorem attachZone_known (bare : z.Bare) (present : d.registry < s.registries.length)
    (there : (d.attachZone env z s).domain.kept? handle = some w) :
    d.kept? handle = some w ∨
      (d.attachZone env z s).outcome = .ok handle ∧ z.Carried w := by
  rcases attachZone_cases env bare present with
    answer | ⟨f, t, answer, -⟩ | ⟨refusal, x, t, answer, -⟩ |
    ⟨ps, u, v, x, t, answer, -, attaches⟩
  all_goals rw [answer] at there ⊢
  · exact .inl there
  · exact .inl there
  · exact .inl there
  · rw [kept?, List.find?_append, Option.or_eq_some_iff] at there
    rcases there with old | ⟨-, new⟩
    · exact .inl old
    · right
      rw [List.find?_singleton] at new
      split at new
      · rename_i known
        cases new
        rw [attaches.zone] at known
        exact ⟨congrArg Except.ok (Option.some.inj (beq_iff_eq.mp known)), attaches.carried⟩
      · cases new

def denial (d : Domain δ) (handle : ZoneHandle) : Fault :=
  if handle.domain ≠ d.id then .foreignHandle handle d.name
  else if d.treePoisoned then .poisonedDomain d.name
  else .staleHandle handle d.name

omit [Driver δ] in
theorem onZone_denied (none : d.kept? handle = none) (s : Shared)
    (step : Nat → Zone δ → Domain δ → Shared → Done δ α) :
    d.onZone handle s step = ⟨.error (.fault (d.denial handle)), d, s⟩ := by
  have nowhere : d.position handle = Option.none := by
    rw [position, List.findIdx?_eq_none_iff]
    exact fun z member => by simpa using List.find?_eq_none.mp none z member
  unfold onZone denial
  split
  · rfl
  · split
    · rfl
    · rw [nowhere]
      rfl

/-- Every operation that looks for the zone behind the handle fails, and nothing is different. -/
structure Denies (d : Domain δ) (handle : ZoneHandle) (s : Shared) : Prop where
  detach : d.detachZone handle s = ⟨.error (.fault (d.denial handle)), d, s⟩
  update : ∀ env clear, d.updateZone env clear handle s = ⟨.error (.fault (d.denial handle)), d, s⟩
  enable : ∀ env, d.enableZone env handle s = ⟨.error (.fault (d.denial handle)), d, s⟩
  disable : d.disableZone handle s = ⟨.error (.fault (d.denial handle)), d, s⟩
  read : ∀ {α : Type} (view : Zone δ → α),
    d.readingZone handle s view = ⟨.error (.fault (d.denial handle)), d, s⟩
  walk : ∀ {σ ε : Type} (callback : Visit → σ → Option ε × σ) (start : σ),
    d.forEachZoneMetric handle callback start s = ⟨.error (.fault (d.denial handle)), d, s⟩

theorem denies (none : d.kept? handle = none) (s : Shared) : d.Denies handle s where
  detach := onZone_denied none s _
  update := fun _ _ => onZone_denied none s _
  enable := fun _ => onZone_denied none s _
  disable := onZone_denied none s _
  read := fun _ => onZone_denied none s _
  walk := fun _ _ => onZone_denied none s _

omit [Driver δ] in
theorem Numbered.onZone (h : d.Numbered) (there : d.kept? handle = some z) :
    ∃ n, d.zones[n]? = some z ∧
      ∀ (α : Type) (s : Shared) (step : Nat → Zone δ → Domain δ → Shared → Done δ α),
        d.onZone handle s step = d.locked s (step n z) := by
  obtain ⟨m, -, same⟩ := h _ (List.mem_map_of_mem (List.mem_of_find?_eq_some there))
  rw [kept?_handle there] at same
  have own : handle.domain = d.id := by
    cases same
    rfl
  obtain ⟨n, placed, inside⟩ := placed_of_find? there
  refine ⟨n, inside, fun α s step => ?_⟩
  unfold Domain.onZone
  rw [if_neg (by simpa using own), position, placed]
  cases poisoned : d.treePoisoned with
  | true => rw [if_pos rfl, locked_poisoned poisoned]
  | false =>
    rw [if_neg Bool.false_ne_true, Option.bind_some, inside]
    rfl

end Domain

namespace Site

variable {s : Site δ} {count i : Nat} {d e : Domain δ} {action : Action δ}
  {handle : ZoneHandle} {z w : Zone δ}

def Identified (s : Site δ) : Prop := ∀ i d, s.domain? i = some d → d.id = i + 1

theorem Coherent.perform_later (h : s.Coherent count)
    (after : (s.perform env action).2.domain? i = some e) :
    (∃ d, s.domain? i = some d ∧ d.Later e) ∨
      (i = s.domains.length ∧ e.id = i + 1 ∧ e.zones = []) := by
  rcases h.perform_domain after with ⟨d, found, ⟨-, same⟩ | undergone⟩ | ⟨last, registry, config, new⟩
  · exact .inl ⟨d, found, same ▸ .refl d⟩
  · refine .inl ⟨d, found, ?_⟩
    obtain ⟨rest, mirror, home, -, -⟩ := h.facing found
    cases undergone with
    | vacant | fails => exact .refl _
    | attaches _ bare | places _ bare =>
      exact Domain.attachZone_later bare (mirror.counted.symm ▸ home)
    | detaches => exact Domain.detachZone_later mirror _
    | operates operation =>
      have frame := (operation.run_becomes env d s.shared).frame
      exact ⟨frame.id, frame.name, Nat.le_of_eq frame.nextZone.symm⟩
  · exact .inr ⟨last, new ▸ rfl, new ▸ rfl⟩

theorem Coherent.run_domain (h : s.Coherent count) (steps : List (Surroundings × Action δ))
    (found : (s.run steps).domain? i = some e) :
    (∃ d, s.domain? i = some d ∧ d.Later e) ∨ s.domains.length ≤ i := by
  induction steps generalizing s with
  | nil => exact .inl ⟨e, found, .refl e⟩
  | cons step rest ih =>
    rcases ih (perform_coherent step.2 h).1 found with ⟨f, there, later⟩ | beyond
    · rcases h.perform_later there with ⟨d, before, first⟩ | ⟨last, -⟩
      · exact .inl ⟨d, before, first.trans later⟩
      · exact .inr (Nat.le_of_eq last.symm)
    · exact .inr (Nat.le_trans (perform_domains step.1 step.2 s) beyond)

theorem Coherent.perform_identified (h : s.Coherent count) (known : s.Identified)
    (action : Action δ) : (s.perform env action).2.Identified := by
  intro i e found
  rcases h.perform_later found with ⟨d, there, later⟩ | ⟨-, id, -⟩
  · exact later.id.trans (known i d there)
  · exact id

theorem run_identified (count : Nat) (steps : List (Surroundings × Action δ)) :
    ((Site.empty count).run steps).Identified := by
  have both := run_keeps (fun s : Site δ => s.Coherent count ∧ s.Identified)
    (fun env action s h => ⟨(perform_coherent action h.1).1, h.1.perform_identified h.2 action⟩)
    steps (.empty count) ⟨.empty count, fun i d found => by cases found⟩
  exact both.2

/-- The handle was given out, or a later one of its domain was. -/
structure Spent (s : Site δ) (handle : ZoneHandle) : Prop where
  domain : handle.domain ≤ s.domains.length
  zone : ∀ i d, s.domain? i = some d → handle.domain = i + 1 → handle.zone < d.nextZone

theorem Coherent.perform_spent (h : s.Coherent count) (spent : s.Spent handle)
    (action : Action δ) : (s.perform env action).2.Spent handle := by
  refine ⟨Nat.le_trans spent.domain (perform_domains env action s), ?_⟩
  intro i e found owner
  rcases h.perform_later found with ⟨d, there, later⟩ | ⟨last, -⟩
  · exact Nat.lt_of_lt_of_le (spent.zone i d there owner) later.nextZone
  · have below := spent.domain
    omega

/-- The zone that an action attaches, as it was handed in, its domain and its handle. -/
def issue? (s : Site δ) (env : Surroundings) (action : Action δ) :
    Option (Nat × ZoneHandle × Zone δ) :=
  match action, (s.perform env action).1 with
  | .attach i k, .ok (some handle) => (s.loose? k).map fun z => (i, handle, z)
  | .alloc i spec, .ok (some handle) => (Zone.alloc spec).toOption.map fun z => (i, handle, z)
  | _, _ => none

def issued : List (Surroundings × Action δ) → Site δ → List ZoneHandle
  | [], _ => []
  | (env, action) :: rest, s =>
    match (s.perform env action).1 with
    | .ok (some handle) => handle :: issued rest (s.perform env action).2
    | _ => issued rest (s.perform env action).2

theorem Coherent.issue_of_outcome (h : s.Coherent count)
    (done : (s.perform env action).1 = .ok (some handle)) :
    ∃ i d z, s.issue? env action = some (i, handle, z) ∧ s.domain? i = some d ∧ z.Bare ∧
      (d.attachZone env z s.shared).outcome = .ok handle ∧
      (s.perform env action).2.domain? i = some (d.attachZone env z s.shared).domain := by
  have result {α : Type} {outcome : Outcome α} : outcome.map (fun _ => (none : Option ZoneHandle)) ≠
      .ok (some handle) := by
    cases outcome <;> simp [Except.map]
  have given {outcome : Outcome ZoneHandle} (same : outcome.map some = .ok (some handle)) :
      outcome = .ok handle := by
    cases outcome <;> simp_all [Except.map]
  have does := s.does env action
  cases performed : s.perform env action with | mk out t =>
  rw [performed] at does done
  cases does with
  | attaches found held =>
    refine ⟨_, _, _, ?_, found, h.bare _ _ held, given done, settle_here found _⟩
    simp only [issue?, performed, done, held, Option.map_some]
  | places found made =>
    refine ⟨_, _, _, ?_, found, Zone.alloc_bare made, given done, settle_here found _⟩
    simp only [issue?, performed, done, made]
    rfl
  | detaches | frees | operates | drops => exact absurd done result
  | _ => cases done

/-- A handle that is given out is new, and never given out again. -/
theorem Coherent.issue_spent (h : s.Coherent count) (known : s.Identified)
    (done : (s.perform env action).1 = .ok (some handle)) :
    ¬ s.Spent handle ∧ (s.perform env action).2.Spent handle := by
  obtain ⟨i, d, z, -, found, bare, outcome, here⟩ := h.issue_of_outcome done
  obtain ⟨rest, mirror, home, -, -⟩ := h.facing found
  obtain ⟨new, -, w, -, -, -, domain⟩ :=
    Domain.attachZone_ok bare (mirror.counted.symm ▸ home) outcome
  have id := known i d found
  subst new
  constructor
  · intro spent
    exact Nat.lt_irrefl _ (spent.zone i d found id)
  · refine ⟨?_, ?_⟩
    · have inside := (List.getElem?_eq_some_iff.mp (Option.join_eq_some_iff.mp found)).1
      have grown := perform_domains env action s
      change d.id ≤ _
      omega
    · intro j e there owner
      have same : j = i := by
        change d.id = j + 1 at owner
        omega
      rw [same, here, domain] at there
      cases there
      exact Nat.lt_succ_self _

theorem Coherent.issued_fresh (h : s.Coherent count) (known : s.Identified)
    (steps : List (Surroundings × Action δ)) :
    (issued steps s).Nodup ∧ ∀ handle, s.Spent handle → handle ∉ issued steps s := by
  induction steps generalizing s with
  | nil => exact ⟨.nil, fun _ _ member => by cases member⟩
  | cons step rest ih =>
    obtain ⟨env, action⟩ := step
    have next : Coherent count (s.perform env action).2 := (perform_coherent action h).1
    obtain ⟨distinct, apart⟩ := ih next (h.perform_identified known action)
    unfold issued
    split
    · rename_i handle done
      obtain ⟨new, spent⟩ := h.issue_spent known done
      refine ⟨List.nodup_cons.mpr ⟨apart handle spent, distinct⟩, ?_⟩
      intro other old member
      rcases List.mem_cons.mp member with rfl | member
      · exact new old
      · exact apart other (h.perform_spent old action) member
    · refine ⟨distinct, fun other old member => ?_⟩
      exact apart other (h.perform_spent old action) member

theorem Coherent.kept_next (h : s.Coherent count) (there : s.kept? (.attached i handle) = some z)
    (stays : s.next env action (.attached i handle) = some (.attached i handle)) :
    ∃ w, (s.perform env action).2.kept? (.attached i handle) = some w ∧ z.Continues w := by
  rcases h.perform_behind env action there with
    (rfl | rfl) | ⟨rfl | rfl, d, found, out⟩ |
    ⟨-, ⟨kept, -⟩ | ⟨operation, d, rfl, found, inside, after⟩⟩
  · simp [next] at stays
  · simp [next] at stays
  · simp [next, perform, found, out, Except.map] at stays
  · simp [next, perform, found, out, Except.map] at stays
  · exact ⟨z, kept, .same⟩
  · obtain ⟨w, kept, continues⟩ := find?_forall₂
      ((operation.effect d).run_continues env d.zones s.shared) inside
    refine ⟨w, ?_, continues⟩
    rw [kept?, after, Option.bind_some, Domain.kept?, (operation.run_becomes env d s.shared).zones]
    exact kept

theorem Coherent.kept_prior (h : s.Coherent count) (ordered : s.Throughout Domain.InOrder)
    (there : (s.perform env action).2.kept? (.attached i handle) = some w) :
    (s.kept? (.attached i handle)).isSome ∧
        s.next env action (.attached i handle) = some (.attached i handle) ∨
      ∃ z, s.issue? env action = some (i, handle, z) ∧ z.Carried w := by
  obtain ⟨e, after, inside⟩ := Option.bind_eq_some_iff.mp there
  rcases h.perform_domain after with
    ⟨d, found, ⟨other, same⟩ | undergone⟩ | ⟨-, registry, config, new⟩
  · obtain ⟨stays, -⟩ := next_elsewhere s env handle other
    refine .inl ⟨?_, stays⟩
    rw [kept?, found, Option.bind_some, same, inside, Option.isSome_some]
  · have before {y : Zone δ} (kept : d.kept? handle = some y) :
        (s.kept? (.attached i handle)).isSome := by
      rw [kept?, found, Option.bind_some, kept, Option.isSome_some]
    obtain ⟨rest, mirror, home, -, -⟩ := h.facing found
    have present : d.registry < s.shared.registries.length := mirror.counted.symm ▸ home
    cases undergone with
    | vacant | fails => exact .inl ⟨before inside, rfl⟩
    | @attaches k y held bare =>
      rcases Domain.attachZone_known bare present inside with old | ⟨done, carried⟩
      · exact .inl ⟨before old, rfl⟩
      · refine .inr ⟨y, ?_, carried⟩
        simp only [issue?, perform, found, held, done, Except.map, Option.map_some]
    | @places spec y made bare =>
      rcases Domain.attachZone_known bare present inside with old | ⟨done, carried⟩
      · exact .inl ⟨before old, rfl⟩
      · refine .inr ⟨y, ?_, carried⟩
        simp only [issue?, perform, found, Domain.allocZone, made, done, Except.map]
        rfl
    | operates operation =>
      rw [Domain.kept?, (operation.run_becomes env d s.shared).zones] at inside
      have each := (operation.effect d).run_continues env d.zones s.shared
      obtain ⟨y, old, -⟩ := find?_forall₂ (R := fun _ _ => True)
        (each.flip.imp fun b a same => ⟨same.1.symm, trivial⟩) inside
      exact .inl ⟨before old, rfl⟩
    | @detaches _ other kind =>
      rcases mirror.detach_cases other with ⟨f, -, answer⟩ | ⟨n, y, t, -, placed, -, answer, -⟩
      · have refused : other = handle → ∃ e, (d.detachZone other s.shared).outcome = .error e :=
          fun _ => ⟨_, congrArg Done.outcome answer⟩
        rw [answer] at inside
        exact .inl ⟨before inside, (next_refused env handle kind found refused).1⟩
      · rw [answer] at inside
        obtain ⟨different, old⟩ := (ordered i d found).kept?_eraseIdx placed inside
        have elsewhere := next_refused env handle kind found fun same => absurd same different
        exact .inl ⟨before old, elsewhere.1⟩
  · rw [new] at inside
    cases inside

theorem issue?_outcome (issue : s.issue? env action = some (i, handle, z)) :
    (s.perform env action).1 = .ok (some handle) := by
  unfold issue? at issue
  split at issue
  all_goals
    first
    | obtain ⟨y, -, same⟩ := Option.map_eq_some_iff.mp issue
      cases same
      assumption
    | cases issue

theorem Coherent.issue_kept (h : s.Coherent count) (numbered : s.Numbered)
    (issue : s.issue? env action = some (i, handle, z)) :
    ∃ v, (s.perform env action).2.kept? (.attached i handle) = some v ∧ z.Carried v := by
  obtain ⟨j, d, y, same, found, bare, outcome, here⟩ := h.issue_of_outcome (issue?_outcome issue)
  cases same.symm.trans issue
  obtain ⟨rest, mirror, home, -, -⟩ := h.facing found
  have present : d.registry < s.shared.registries.length := mirror.counted.symm ▸ home
  obtain ⟨v, kept, -⟩ := Domain.attachZone_here (numbered i d found) bare present outcome
  have inside := (Domain.zone?_some.mp kept).2
  rcases Domain.attachZone_known bare present inside with old | ⟨-, carried⟩
  · obtain ⟨new, -⟩ := Domain.attachZone_ok bare present outcome
    have member := List.mem_of_find?_eq_some old
    exact absurd ((Domain.kept?_handle old).trans (congrArg some new))
      ((numbered i d found).fresh v member)
  · exact ⟨v, by rw [kept?, here, Option.bind_some]; exact inside, carried⟩

def stays : List (Surroundings × Action δ) → Site δ → Place → Prop
  | [], _, _ => True
  | (env, action) :: rest, s, place =>
    s.next env action place = some place ∧ stays rest (s.perform env action).2 place

theorem stays_append (before after : List (Surroundings × Action δ)) (s : Site δ) (place : Place) :
    stays (before ++ after) s place ↔ stays before s place ∧ stays after (s.run before) place := by
  induction before generalizing s with
  | nil => simp [stays, run]
  | cons step rest ih => simp only [List.cons_append, stays, run, ih, and_assoc]

theorem Coherent.run_kept (h : s.Coherent count) {steps : List (Surroundings × Action δ)}
    (there : s.kept? (.attached i handle) = some z) (lasts : s.stays steps (.attached i handle)) :
    ∃ w, (s.run steps).kept? (.attached i handle) = some w ∧ z.Continues w := by
  induction steps generalizing s z with
  | nil => exact ⟨z, there, .same⟩
  | cons step rest ih =>
    obtain ⟨y, here, first⟩ := h.kept_next there lasts.1
    obtain ⟨w, kept, more⟩ := ih (perform_coherent step.2 h).1 here lasts.2
    exact ⟨w, kept, first.trans more⟩

/-- What is behind a handle in the end has been there since the handle was given out. -/
theorem run_origin (count : Nat) (steps : List (Surroundings × Action δ))
    (there : ((Site.empty count).run steps).kept? (.attached i handle) = some w) :
    ∃ before env action after z, steps = before ++ (env, action) :: after ∧
      ((Site.empty count).run before).issue? env action = some (i, handle, z) ∧
      (((Site.empty count).run before).perform env action).2.stays after (.attached i handle) := by
  induction steps using List.reverseRecOn generalizing w with
  | nil => cases there
  | append_singleton steps step ih =>
    obtain ⟨env, action⟩ := step
    rw [run_append] at there
    rcases (run_coherent count steps).kept_prior (run_throughout Domain.inOrder_kept count steps)
      there with ⟨old, still⟩ | ⟨z, issue, -⟩
    · obtain ⟨y, kept⟩ := Option.isSome_iff_exists.mp old
      obtain ⟨before, env', action', after, z, whole, issue, lasts⟩ := ih kept
      refine ⟨before, env', action', after ++ [(env, action)], z, by simp [whole], issue, ?_⟩
      rw [stays_append]
      refine ⟨lasts, ?_⟩
      rw [whole, run_append] at still
      exact ⟨still, trivial⟩
    · exact ⟨steps, env, action, [], z, rfl, issue, trivial⟩

end Site

def Operation.handle? (operation : Operation) : Option ZoneHandle :=
  match operation with
  | .updateZone handle _ | .enable handle | .disable handle => some handle
  | _ => none

theorem Domain.Denies.run {d : Domain δ} {handle : ZoneHandle} {s : Shared}
    (h : d.Denies handle s) {operation : Operation} (about : operation.handle? = some handle) :
    operation.run env d s = ⟨.error (.fault (d.denial handle)), d, s⟩ := by
  cases operation with
  | updateZone other clear =>
    cases about
    exact h.update env clear
  | enable other =>
    cases about
    exact h.enable env
  | disable other =>
    cases about
    exact h.disable
  | _ => cases about

theorem Site.perform_denied {s : Site δ} {i : Nat} {d : Domain δ} {handle : ZoneHandle}
    (found : s.domain? i = some d) (denies : d.Denies handle s.shared) (env : Surroundings) :
    s.perform env (.free i handle) = (.error (.fault (d.denial handle)), s) ∧
      s.perform env (.detach i handle) =
        (.error (.fault (d.denial handle)), { s with loose := s.loose ++ [none] }) ∧
      ∀ operation : Operation, operation.handle? = some handle →
        s.perform env (.operate i operation) = (.error (.fault (d.denial handle)), s) := by
  refine ⟨?_, ?_, fun operation about => ?_⟩
  · simp only [perform, found, denies.detach, settle_same found]
    rfl
  · simp only [perform, found, denies.detach, settle_same found]
    rfl
  · simp only [perform, found, denies.run about, settle_same found]
    rfl

open Site in
/-- Handles are safe. No handle is given out twice. One that is given out leads to the zone it was
given out for, whatever is made of that zone, as long as it is not detached, and a zone behind a
handle is the one it was given out for. Whatever looks for a zone finds that one; and if there is
none, everything that looks for it is a fault that leaves all as it was, its lock included. -/
theorem handles_are_safe (count : Nat) (steps : List (Surroundings × Action δ)) :
    let s := (Site.empty count).run steps
    (issued steps (.empty count)).Nodup ∧
    (∀ before env action after i handle z, steps = before ++ (env, action) :: after →
      ((Site.empty count).run before).issue? env action = some (i, handle, z) →
      ∃ v, (((Site.empty count).run before).perform env action).2.kept? (.attached i handle) =
          some v ∧ z.Carried v ∧
        ((((Site.empty count).run before).perform env action).2.stays after (.attached i handle) →
          ∃ w, s.kept? (.attached i handle) = some w ∧ v.Continues w)) ∧
    (∀ i handle w, s.kept? (.attached i handle) = some w →
      ∃ before env action after z, steps = before ++ (env, action) :: after ∧
        ((Site.empty count).run before).issue? env action = some (i, handle, z) ∧
        (((Site.empty count).run before).perform env action).2.stays after
          (.attached i handle)) ∧
    ∀ i d, s.domain? i = some d → ∀ handle,
      (∀ w, d.kept? handle = some w → ∃ n, d.zones[n]? = some w ∧
        ∀ (α : Type) (t : Shared) (step : Nat → Zone δ → Domain δ → Shared → Done δ α),
          d.onZone handle t step = d.locked t (step n w)) ∧
      (d.kept? handle = none → d.Denies handle s.shared ∧ ∀ env,
        s.perform env (.free i handle) = (.error (.fault (d.denial handle)), s) ∧
        s.perform env (.detach i handle) =
          (.error (.fault (d.denial handle)), { s with loose := s.loose ++ [none] }) ∧
        ∀ operation : Operation, operation.handle? = some handle →
          s.perform env (.operate i operation) = (.error (.fault (d.denial handle)), s)) := by
  refine ⟨?_, ?_, fun i handle w there => run_origin count steps there, ?_⟩
  · exact ((Coherent.empty count).issued_fresh (run_identified count []) steps).1
  · intro before env action after i handle z whole issue
    have start := run_coherent (δ := δ) count before
    obtain ⟨v, kept, carried⟩ := start.issue_kept (run_numbered count before) issue
    refine ⟨v, kept, carried, fun lasts => ?_⟩
    rw [whole, run_append]
    exact (perform_coherent action start).1.run_kept kept lasts
  · intro i d found handle
    constructor
    · intro w there
      exact (run_numbered count steps i d found).onZone there
    · intro none
      have denies := Domain.denies none ((Site.empty count).run steps).shared
      exact ⟨denies, perform_denied found denies⟩

end Telemetry
