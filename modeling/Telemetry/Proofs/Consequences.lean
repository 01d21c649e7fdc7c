import Mathlib
import Telemetry.Proofs.Parallels

/-! What is left of an attachment that was refused. Vectors that nobody refers to stay in the store,
and nobody sees them. Registries may have learned dimensions, and they do not forget them. A run
goes on as if the attachment had never been tried until something is offered to a registry that has
other dimensions than the refused blocks were the first to bring; and that is turned away. -/
namespace Telemetry

open Series (Store Registry)

namespace Shared

def learned (s t : Shared) (r : Nat) (name : String) : Option Fingerprint :=
  if ((s.registry r).dimensions? name).isSome then none else (t.registry r).dimensions? name

/-- Where a vector made after `s` is when it is made after `t`. -/
def place (s t : Shared) (i : Nat) : Nat :=
  if i < s.store.vectors.length then i
  else i + (t.store.vectors.length - s.store.vectors.length)

def residue (s t : Shared) : Residue := ⟨s.place t, s.learned t, (s.journal, t.journal)⟩

variable {P : Nat → Series.Descriptor → Prop} {s t : Shared}

theorem place_old {i : Nat} (old : i < s.store.vectors.length) : s.place t i = i := if_pos old

theorem place_twin (grown : Store.Extends s.store t.store) :
    Store.Twin (s.place t) s.store t.store := by
  have longer := grown.length
  refine ⟨?_, ?_, ?_⟩
  · intro i j same
    unfold place at same
    split at same <;> split at same <;> omega
  · intro i
    by_cases old : i < s.store.vectors.length
    · rw [place_old old, grown.get? old]
    · have none : s.store.get? i = none := List.getElem?_eq_none (Nat.le_of_not_lt old)
      rw [none, place, if_neg old]
      exact List.getElem?_eq_none (by omega)
  · intro k
    rw [place, if_neg (by omega)]
    omega

theorem learned_twin {place : Nat → Nat} {r : Nat} (learns : s.Learns P t)
    (same : (s.registry r).SameCollectors (t.registry r))
    (old : ∀ e ∈ (s.registry r).entries, ∀ i ∈ e.vectors, place i = i) :
    Registry.Twin place (s.learned t r) (s.registry r) (t.registry r) := by
  refine ⟨?_, same.2, ?_, ?_⟩
  · rw [same.1]
    refine (map_fixed fun e member => ?_).symm
    simp only [Series.Entry.renumbered, map_fixed (old e member)]
  · intro name
    unfold learned
    cases known : (s.registry r).dimensions? name with
    | none => rfl
    | some x => exact (learns r).remembers name x known
  · intro name x y learnt known
    rw [learned, known] at learnt
    cases learnt

end Shared

variable {δ : Type}

/-! ### Places of old vectors -/

namespace Mount

variable {x : Mount δ} {store : Store} {place : Nat → Nat}

theorem Shown.renumbered (h : x.Shown store) (old : ∀ i < store.vectors.length, place i = i) :
    x.block.renumbered place = x.block := by
  have metrics : x.block.metrics.map (·.renumbered place) = x.block.metrics := by
    refine map_fixed fun m member => ?_
    obtain ⟨i, -, shows⟩ := forall₂_mem h.vectors m member
    have elements : m.elements.map (·.renumbered place) = m.elements := by
      refine map_fixed fun e inside => ?_
      simp only [Element.renumbered, shows.bound e inside, Option.map_some, Series.Ref.renumbered,
        old i shows.lt]
      rw [← shows.bound e inside]
    simp only [Metric.renumbered, elements]
  have vectors : x.vectors.map place = x.vectors := map_fixed fun i own => old i (h.lt i own)
  simp only [Block.renumbered, metrics, h.collector, Option.map_some, Collector.renumbered, vectors]
  rw [← h.collector]

end Mount

namespace Site

variable {s : Site δ} {count : Nat} {place : Nat → Nat}

namespace Coherent

theorem renumbered_holder (h : s.Coherent count)
    (old : ∀ i < s.shared.store.vectors.length, place i = i) {d : Domain δ}
    (member : d ∈ s.holders) : d.renumbered place = d := by
  have zones : d.zones.map (·.renumbered place) = d.zones := by
    refine map_fixed fun z inside => ?_
    have blocks : z.blocks.map (·.renumbered place) = z.blocks := by
      refine map_fixed fun b own => ?_
      have mounted : (⟨d.registry, d.name, z.name, b⟩ : Mount δ) ∈ s.mounts :=
        List.mem_flatMap.mpr ⟨d, member, List.mem_flatMap.mpr ⟨z, inside,
          List.mem_map_of_mem own⟩⟩
      exact (h.mirror.shown _ mounted).renumbered old
    simp only [Zone.renumbered, blocks]
  simp only [Domain.renumbered, zones]

theorem beside (h : s.Coherent count) {P : Nat → Series.Descriptor → Prop} {t : Shared}
    (grown : Store.Extends s.shared.store t.store) (learns : s.shared.Learns P t)
    (length : t.registries.length = s.shared.registries.length)
    (same : ∀ r, (s.shared.registry r).SameCollectors (t.registry r)) :
    s.Beside (s.shared.residue t) { s with shared := t } := by
  have old : ∀ i < s.shared.store.vectors.length, s.shared.place t i = i :=
    fun i below => Shared.place_old below
  refine ⟨⟨Shared.place_twin grown, length, ?_, [], rfl, rfl⟩, ?_, ?_, ?_, ?_⟩
  · intro r
    exact Shared.learned_twin learns (same r) fun e member i own =>
      old i (h.mirror.entries_stored r e member i own)
  · refine (map_fixed fun place member => ?_).symm
    cases place with
    | none => rfl
    | some d =>
      have holder : d ∈ s.holders :=
        List.mem_append_left _ (List.reduceOption_mem_iff.mpr member)
      exact congrArg some (h.renumbered_holder old holder)
  · exact (map_fixed fun d member =>
      h.renumbered_holder old (List.mem_append_right _ member)).symm
  · refine (map_fixed fun place member => ?_).symm
    cases place with
    | none => rfl
    | some z =>
      obtain ⟨k, below, there⟩ := List.mem_iff_getElem.mp member
      have bare : z.Bare := h.bare k z (by rw [List.getElem?_eq_getElem below, there]; rfl)
      exact congrArg some (bare.renumbered _)
  · refine (map_fixed fun g member => ?_).symm
    have below := h.mirror.stored g.vector
      (List.mem_append_right _ (List.mem_map_of_mem member))
    exact congrArg (fun i => { g with vector := i }) (old _ below)

end Coherent

end Site

/-! ### What is turned away -/

namespace Domain

variable {d : Domain δ} {z : Zone δ} {s : Shared}

theorem attachZone_agrees [Driver δ] (bare : z.Bare) (present : d.registry < s.registries.length)
    {handle : ZoneHandle} (ok : (d.attachZone env z s).outcome = .ok handle) :
    ∀ e ∈ z.descriptors d.name, (s.registry d.registry).Agrees e := by
  rcases attachZone_cases env bare present with
    answer | ⟨f, t, answer, -⟩ | ⟨refusal, w, t, answer, -⟩ | ⟨ps, u, v, w, t, answer, -, attaches⟩
  all_goals rw [answer] at ok
  · cases ok
  · cases ok
  · cases ok
  · exact attaches.agrees

end Domain

namespace Site

variable [Driver δ] {s : Site δ} {count : Nat} {env : Surroundings} {action : Action δ}

theorem Coherent.offers_agree (h : s.Coherent count) {handle : Option ZoneHandle}
    (ok : (s.perform env action).1 = .ok handle) :
    ∀ offer ∈ s.offers action, (s.shared.registry offer.1).Agrees offer.2 := by
  intro offer member
  cases action with
  | attach i k =>
    simp only [offers] at member
    split at member
    · rename_i d z found there
      obtain ⟨e, told, rfl⟩ := List.mem_map.mp member
      obtain ⟨rest, mirror, home, -, -⟩ := h.facing found
      simp only [perform, found, there] at ok
      obtain ⟨handle', attached, -⟩ := map_ok ok
      exact Domain.attachZone_agrees (h.bare k z there) (mirror.counted.symm ▸ home) attached e told
    · cases member
  | alloc i spec =>
    simp only [offers] at member
    split at member
    · rename_i d z found made
      obtain ⟨e, told, rfl⟩ := List.mem_map.mp member
      obtain ⟨rest, mirror, home, -, -⟩ := h.facing found
      simp only [perform, found, Domain.allocZone, made] at ok
      obtain ⟨handle', attached, -⟩ := map_ok ok
      exact Domain.attachZone_agrees (Zone.alloc_bare made) (mirror.counted.symm ▸ home) attached e
        told
    · cases member
  | enlist registry vector =>
    cases List.mem_singleton.mp member
    simp only [perform] at ok
    split at ok
    · cases answer : (s.shared.registry registry).register [vector.descriptor]
        [s.shared.store.vectors.length] with | mk result q =>
      cases result with
      | error e =>
        simp only [SelfMetrics.registerOne, Store.add, answer, Except.map] at ok
        cases ok
      | ok _ => exact Registry.register_agrees answer _ (List.mem_singleton_self _)
    · rename_i absent
      have none : s.shared.registry registry = .empty := by
        rw [Shared.registry, List.getElem?_eq_none (Nat.le_of_not_lt absent)]
        rfl
      intro x known
      rw [none] at known
      cases known
  | _ => cases member

/-- What a run would not heed, the run beside it does not accept. -/
theorem Beside.turned_away {ρ : Residue} {t : Site δ} (h : s.Beside ρ t)
    (coherent : t.Coherent count)
    (unheeded : ∃ offer ∈ s.offers action, ¬ offer.2.Heeds (ρ.learned offer.1))
    (handle : Option ZoneHandle) : (t.perform env action).1 ≠ .ok handle := by
  obtain ⟨offer, member, unheeded⟩ := unheeded
  intro ok
  have agrees := coherent.offers_agree ok offer (h.offers action ▸ member)
  exact unheeded fun x known => agrees x ((h.shared.registry offer.1).remembers known)

end Site

/-! ### What a refusal leaves -/

def Action.attaches : Action δ → Bool
  | .attach _ _ | .alloc _ _ => true
  | _ => false

namespace Site

def without (action : Action δ) (s : Site δ) : Site δ :=
  match action with
  | .attach _ k => { s with loose := s.loose.set k none }
  | _ => s

theorem without_shared (s : Site δ) (action : Action δ) : (s.without action).shared = s.shared := by
  cases action <;> rfl

theorem Coherent.without {s : Site δ} {count : Nat} (h : s.Coherent count) (action : Action δ) :
    (s.without action).Coherent count := by
  cases action with
  | attach i k => exact ⟨h.mirror, h.homes, h.bare.set k⟩
  | _ => exact h

/-- All that a refused attachment changes is what is shared: the store has grown, the registries
hold the same collectors, and what they have learned was on offer. -/
structure Refused (action : Action δ) (s : Site δ) (t : Shared) : Prop where
  grown : Store.Extends s.shared.store t.store
  count : t.registries.length = s.shared.registries.length
  collectors : ∀ r, (s.shared.registry r).SameCollectors (t.registry r)
  learns : s.shared.Learns (fun r e => (r, e) ∈ s.offers action) t

variable {s : Site δ} {count : Nat} {env : Surroundings} {action : Action δ}

theorem Refused.source {t : Shared} (h : Refused action s t) (r : Nat) (name : String)
    (x : Fingerprint) (new : s.shared.learned t r name = some x) :
    ∃ e, (r, e) ∈ s.offers action ∧ e.name = name ∧ e.dimensions = x := by
  unfold Shared.learned at new
  split at new
  · cases new
  · rename_i unknown
    rcases (h.learns r).source name x new with old | found
    · exact absurd (by rw [old]; rfl) unknown
    · exact found

theorem Refused.beside {t : Shared} (h : Refused action s t) (coherent : s.Coherent count) :
    (s.without action).Beside (s.shared.residue t) { s.without action with shared := t } := by
  have shared := s.without_shared action
  rw [← shared]
  exact (coherent.without action).beside (shared ▸ h.grown) (shared ▸ h.learns)
    (shared ▸ h.count) (shared ▸ h.collectors)

variable [Driver δ]

theorem Coherent.attachZone_refused (h : s.Coherent count) (action : Action δ) {i : Nat}
    {d : Domain δ} {z : Zone δ} (found : s.domain? i = some d) (bare : z.Bare)
    (offers : s.offers action = (z.descriptors d.name).map (d.registry, ·)) {refusal : Refusal}
    (refused : (d.attachZone env z s.shared).outcome = .error (.refused refusal)) :
    ∃ t, s.settle i (d.attachZone env z s.shared) = { s with shared := t } ∧ Refused action s t := by
  obtain ⟨rest, mirror, home, -, -⟩ := h.facing found
  rcases Domain.attachZone_cases env bare (mirror.counted.symm ▸ home) with
    answer | ⟨f, t, answer, -⟩ | ⟨refusal', w, t, answer, attempt, restores⟩ |
    ⟨ps, u, v, w, t, answer, -⟩
  all_goals rw [answer] at refused
  · cases refused
  · cases refused
  · have learns := Zone.attach_learns env d.name d.registry ⟨d.id, d.nextZone⟩ bare s.shared
    rw [attempt] at learns
    refine ⟨t, by rw [answer, settle_same found], restores.grown, restores.count,
      restores.collectors, fun r => (learns r).mono ?_⟩
    rintro e ⟨rfl, told⟩
    exact offers ▸ List.mem_map_of_mem told
  · cases refused

theorem Coherent.perform_refused (h : s.Coherent count) (kind : action.attaches = true)
    {refusal : Refusal} (refused : (s.perform env action).1 = .error (.refused refusal)) :
    ∃ t, (s.perform env action).2 = { s.without action with shared := t } ∧ Refused action s t := by
  have does := s.does env action
  generalize s.perform env action = done at does refused ⊢
  cases does with
  | @attaches i k d z found held =>
    obtain ⟨t, settled, left⟩ := h.attachZone_refused (.attach i k) found (h.bare k z held)
      (by simp only [offers, found, held]) (map_error refused)
    exact ⟨t, by simp only [settled]; rfl, left⟩
  | @places i spec d z found made =>
    exact h.attachZone_refused (.alloc i spec) found (Zone.alloc_bare made)
      (by simp only [offers, found, made]) (map_error refused)
  | detaches | frees | operates | drops | refuses => cases kind
  | _ => cases refused

end Site

/-! ### Readings -/

def Visit.renumbered (place : Nat → Nat) (v : Visit) : Visit :=
  { v with metric := v.metric.renumbered place }

namespace Zone

def unnumbered (z : Zone δ) : Zone δ := z.renumbered fun _ => 0

theorem fillBlocks_renumbered (place : Nat → Nat) (bs : List (Block δ)) (out : List MetricValue) :
    fillBlocks (bs.map (·.renumbered place)) out = fillBlocks bs out := by
  have values (b : Block δ) : (b.renumbered place).values = b.values := by
    simp only [Block.values, Block.renumbered, List.flatMap_map, Metric.values, Metric.renumbered,
      List.map_map]
    rfl
  induction bs generalizing out with
  | nil => rfl
  | cons b rest ih =>
    have filled : (b.renumbered place).fill out = b.fill out := by
      simp only [Block.fill, values]
    simp only [List.map_cons, fillBlocks, filled, ih]

theorem visits_renumbered (place : Nat → Nat) (domain : String) (z : Zone δ) :
    (z.renumbered place).visits domain = (z.visits domain).map (·.renumbered place) := by
  simp only [visits, renumbered, List.flatMap_map, List.map_flatMap, Block.renumbered,
    List.map_map]
  rfl

end Zone

theorem walk_renumbered {callback : Visit → σ → Option ε × σ} {place : Nat → Nat}
    (blind : ∀ v x, callback (v.renumbered place) x = callback v x) (visits : List Visit)
    (start : σ) :
    walk callback (visits.map (·.renumbered place)) start = walk callback visits start := by
  induction visits generalizing start with
  | nil => rfl
  | cons v rest ih => simp only [List.map_cons, walk, blind, ih]

namespace Domain

def unnumbered (d : Domain δ) : Domain δ := d.renumbered fun _ => 0

theorem fillZones_renumbered (place : Nat → Nat) (zones : List (Zone δ)) (out : List MetricValue) :
    fillZones (zones.map (·.renumbered place)) out = fillZones zones out := by
  induction zones generalizing out with
  | nil => rfl
  | cons z rest ih =>
    have filled : (z.renumbered place).fill out = z.fill out :=
      Zone.fillBlocks_renumbered place _ _
    simp only [List.map_cons, fillZones, filled, ih]

/-- A view that does not depend on numbers reads the same in both of two runs. -/
theorem reading_beside {ρ : Residue} {d : Domain δ} {s t : Shared} (h : ρ.Twin s t)
    {view : Domain δ → α} (blind : view (d.renumbered ρ.place) = view d) :
    ((d.renumbered ρ.place).reading t view).outcome = (d.reading s view).outcome := by
  have read : Done.Like ρ (d.reading s view) ((d.renumbered ρ.place).reading t view) :=
    locked_beside h (by rw [blind]; exact Done.like h)
  exact read.same

end Domain

namespace Site

/-- No reading tells two sites apart: the domains and the loose zones are the same but for the
numbers of vectors, buffers are filled with the same values, callbacks come to the same, and every
registry exports the same. -/
structure Indistinct (s t : Site δ) : Prop where
  domains : t.domains.map (·.map Domain.unnumbered) = s.domains.map (·.map Domain.unnumbered)
  loose : t.loose.map (·.map Zone.unnumbered) = s.loose.map (·.map Zone.unnumbered)
  values : ∀ i d e, s.domain? i = some d → t.domain? i = some e → ∀ out,
    (e.getValues out t.shared).outcome = (d.getValues out s.shared).outcome
  visits : ∀ i d e, s.domain? i = some d → t.domain? i = some e →
    ∀ (σ ε : Type) (callback : Visit → σ → Option ε × σ) (start : σ),
      (∀ place v x, callback (v.renumbered place) x = callback v x) →
      (e.forEachMetric callback start t.shared).outcome =
        (d.forEachMetric callback start s.shared).outcome
  gathered : ∀ r, t.shared.gather r = s.shared.gather r

theorem Beside.indistinct {ρ : Residue} {s t : Site δ} (h : s.Beside ρ t) : s.Indistinct t := by
  refine ⟨?_, ?_, ?_, ?_, ?_⟩
  · rw [h.domains, List.map_map]
    refine List.map_congr_left fun place _ => ?_
    cases place with
    | none => rfl
    | some d => exact congrArg some (d.renumbered_renumbered ρ.place fun _ => 0)
  · rw [h.loose, List.map_map]
    refine List.map_congr_left fun place _ => ?_
    cases place with
    | none => rfl
    | some z => exact congrArg some (z.renumbered_renumbered ρ.place fun _ => 0)
  · intro i d e here there out
    rw [h.domain?, here] at there
    cases there
    exact Domain.reading_beside h.shared (Domain.fillZones_renumbered ρ.place d.zones out)
  · intro i d e here there σ ε callback start blind
    rw [h.domain?, here] at there
    cases there
    have visits : (d.renumbered ρ.place).zones.flatMap (·.visits d.name) =
        (d.zones.flatMap (·.visits d.name)).map (·.renumbered ρ.place) := by
      simp only [Domain.renumbered, List.flatMap_map, List.map_flatMap, Zone.visits_renumbered]
    refine Domain.reading_beside h.shared ?_
    exact (congrArg (walk callback · start) visits).trans (walk_renumbered (blind ρ.place) _ _)
  · intro r
    exact (h.shared.registry r).gather h.shared.store

end Site

variable [Driver δ]

/-- **A refused attachment leaves nothing but dimensions.** After a refusal in any site that can be
reached, the registries have learned dimensions of descriptors that were on offer, if any. Whatever
is done later, as long as what is offered heeds them, every action has the outcome that it would
have had if the attachment had never been tried, no reading tells the two sites apart, and the same
events have happened since. What does not heed them is not accepted. -/
theorem refusal_leaves_dimensions (count : Nat) (before : List (Surroundings × Action δ))
    (env : Surroundings) (action : Action δ) (refusal : Refusal) (kind : action.attaches = true)
    (refused : (((Site.empty count).run before).perform env action).1
      = .error (.refused refusal)) :
    let s := (Site.empty count).run before
    let tried := (s.perform env action).2
    let spared := s.without action
    let learned := s.shared.learned tried.shared
    (∀ r name x, learned r name = some x →
      ∃ e, (r, e) ∈ s.offers action ∧ e.name = name ∧ e.dimensions = x) ∧
    ∀ later, spared.Heeds learned later →
      tried.outcomes later = spared.outcomes later ∧
      (spared.run later).Indistinct (tried.run later) ∧
      (∃ events, (tried.run later).shared.events = tried.shared.events ++ events ∧
        (spared.run later).shared.events = spared.shared.events ++ events) ∧
      ∀ env' next, (∃ offer ∈ (spared.run later).offers next, ¬ offer.2.Heeds (learned offer.1)) →
        ∀ handle, ((tried.run later).perform env' next).1 ≠ .ok handle := by
  intro s tried spared learned
  have coherent : s.Coherent count := Site.run_coherent count before
  obtain ⟨t, left, refusal⟩ := coherent.perform_refused kind refused
  have tried_eq : tried = { spared with shared := t } := left
  have beside : spared.Beside (s.shared.residue t) tried := tried_eq ▸ refusal.beside coherent
  have known : learned = s.shared.learned t := by
    simp only [learned, tried_eq]
  rw [known]
  refine ⟨refusal.source, ?_⟩
  intro later heeds
  obtain ⟨outcomes, after⟩ := beside.run (coherent.without action) heeds
  obtain ⟨events, short, long⟩ := after.shared.events
  refine ⟨outcomes, after.indistinct, ⟨events, ?_, ?_⟩, ?_⟩
  · rw [long, tried_eq]
    rfl
  · rw [short, s.without_shared action]
    rfl
  · intro env' next unheeded handle
    -- the refused site is one that can be reached itself, and so is all that comes of it
    have reached : (tried.run later).Coherent count :=
      Site.run_keeps (Site.Coherent count)
        (fun _ action _ h => (Site.perform_coherent action h).1) later tried
        (Site.perform_coherent action coherent).1
    exact after.turned_away reached unheeded handle

def gauge (name text : String) : MetricSpec :=
  { MetricSpec.simple name .gauge (.whole 0 4) with desc := text }

def gauged (block name text : String) : BlockSpec StockDriver :=
  ⟨block, none, [gauge name text], 0, none⟩

def founded : List (Surroundings × Action StockDriver) :=
  [(.plain [] 0, .create 0 ⟨"d", 0, false⟩)]

def doubled : Action StockDriver :=
  .alloc 0 ⟨"z", [gauged "c" "m" "wrong", gauged "c" "m" "wrong"]⟩

def corrected : Action StockDriver := .alloc 0 ⟨"y", [gauged "c" "m" "right"]⟩

def unchanged : List (Surroundings × Action StockDriver) :=
  [(.plain [] 0, .alloc 0 ⟨"y", [gauged "c" "m" "wrong"]⟩),
    (.plain [] 5, .operate 0 (.update false)), (.plain [] 5, .detach 0 ⟨1, 1⟩)]

theorem doubled_refused : (((Site.empty 1).run founded).perform (.plain [] 0) doubled).1 =
    .error (.refused ⟨"c", .duplicateCollector⟩) := by cbv

/-- The corrected text is turned away because of the one that was refused. -/
theorem refusal_remembered :
    let s := (Site.empty 1).run founded
    (s.perform (.plain [] 0) doubled).1 = .error (.refused ⟨"c", .duplicateCollector⟩) ∧
      (s.perform (.plain [] 0) doubled).2.outcomes [(.plain [] 0, corrected)] =
        [.error (.refused ⟨"c", .dimensions⟩)] ∧
      (s.without doubled).outcomes [(.plain [] 0, corrected)] = [.ok (some ⟨1, 1⟩)] := by
  refine ⟨doubled_refused, ?_, ?_⟩
  · cbv
  · cbv

theorem refusal_leaves_dimensions_unchanged :
    let s := (Site.empty 1).run founded
    let tried := (s.perform (.plain [] 0) doubled).2
    (s.perform (.plain [] 0) doubled).1 = .error (.refused ⟨"c", .duplicateCollector⟩) ∧
      tried.outcomes unchanged = (s.without doubled).outcomes unchanged ∧
      ((s.without doubled).run unchanged).Indistinct (tried.run unchanged) := by
  obtain ⟨source, later⟩ := refusal_leaves_dimensions 1 founded _ doubled _ rfl doubled_refused
  have whole := later unchanged ⟨?_, List.forall_mem_nil _, List.forall_mem_nil _, trivial⟩
  · exact ⟨doubled_refused, whole.1, whole.2.1⟩
  · intro offer member x known
    obtain ⟨e, offered, named, rfl⟩ := source _ _ _ known
    cases List.mem_singleton.mp member
    have told : Collector.describe "d" "z" "c" (gauge "m" "wrong") = .ok e := by
      rcases List.mem_pair.mp offered with found | found <;> cases found <;> rfl
    have again : Collector.describe "d" "y" "c" (gauge "m" "wrong") =
        .ok ⟨"m", "wrong", ownerLabels "d" "y" "c", []⟩ := rfl
    exact describe_dimensions again told rfl rfl

end Telemetry
