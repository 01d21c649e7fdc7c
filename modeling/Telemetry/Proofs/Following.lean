import Telemetry.Proofs.Lives

/-! The life of a zone along a run: where it goes, and which passes are made over it. A zone is loose
or behind a handle of a domain, and can be followed from one action to the next. -/
namespace Telemetry

inductive Place where
  | loose (place : Nat)
  | attached (domain : Nat) (handle : ZoneHandle)

namespace Site

variable {δ : Type} [Driver δ]

omit [Driver δ] in
def zone? (s : Site δ) (place : Place) : Option (Zone δ) :=
  match place with
  | .loose k => s.loose? k
  | .attached i handle => (s.domain? i).bind (·.zone? handle)

omit [Driver δ] in
def kept? (s : Site δ) (place : Place) : Option (Zone δ) :=
  match place with
  | .loose k => s.loose? k
  | .attached i handle => (s.domain? i).bind (·.kept? handle)

def passes (s : Site δ) (env : Surroundings) (action : Action δ) (place : Place) : List Pass :=
  match action, place with
  | .operate j operation, .attached i handle =>
    if j = i then
      match s.domain? i, s.zone? place with
      | some d, some z => (operation.effect d).passes env handle z
      | _, _ => []
    else []
  | _, _ => []

omit [Driver δ] in
theorem passes_loose (s : Site δ) (env : Surroundings) (action : Action δ) (k : Nat) :
    s.passes env action (.loose k) = [] := by
  cases action <;> rfl

def next (s : Site δ) (env : Surroundings) (action : Action δ) (place : Place) : Option Place :=
  match action, place with
  | .attach i k, .loose j =>
    if k = j then
      match (s.perform env action).1 with
      | .ok (some handle) => some (.attached i handle)
      | .ok none => some place
      | .error _ => none
    else some place
  | .detach j other, .attached i handle =>
    if j = i ∧ other = handle then
      match (s.perform env action).1 with
      | .ok _ => some (.loose s.loose.length)
      | .error _ => some place
    else some place
  | .free j other, .attached i handle =>
    if j = i ∧ other = handle then
      match (s.perform env action).1 with
      | .ok _ => none
      | .error _ => some place
    else some place
  | .drop j, .attached i _ | .abandon j, .attached i _ => if j = i then none else some place
  | _, _ => some place

/-- Where a run takes the zone in a place, and the passes that it makes over it, in order. -/
def follow : List (Surroundings × Action δ) → Site δ → Place → Option (Place × List Pass)
  | [], _, place => some (place, [])
  | (env, action) :: rest, s, place =>
    (s.next env action place).bind fun place' =>
      (follow rest (s.perform env action).2 place').map fun (last, later) =>
        (last, s.passes env action place ++ later)

end Site

variable {δ : Type} [Driver δ] {env : Surroundings}

/-- What one action does to a zone on the way from place to place. -/
inductive Zone.Turns (z : Zone δ) : Place → List Pass → Place → Zone δ → Prop
  | rests {k : Nat} : Turns z (.loose k) [] (.loose k) z
  | joins {k i : Nat} {handle : ZoneHandle} {w : Zone δ} :
      z.Joined w → Turns z (.loose k) [] (.attached i handle) w
  | takes {i : Nat} {handle : ZoneHandle} {ps : List Pass} {w : Zone δ} :
      z.Treated ps w → Turns z (.attached i handle) ps (.attached i handle) w
  | leaves {i k : Nat} {handle : ZoneHandle} : Turns z (.attached i handle) [] (.loose k) z.left

theorem Zone.Turns.carried {z w : Zone δ} {place place' : Place} (h : z.Turns place [] place' w) :
    List.Forall₂ Block.Carried z.blocks w.blocks := by
  have same : List.Forall₂ Block.Carried z.blocks z.blocks :=
    List.forall₂_same.mpr fun b _ => ⟨rfl, .refl⟩
  cases h with
  | rests => exact same
  | joins joined => exact joined.carried
  | takes treated =>
    cases treated with
    | idle blocks => exact blocks ▸ same
  | leaves => exact z.left_carried.blocks

theorem Zone.Turns.lives {z w : Zone δ} {place place' : Place} {ps : List Pass}
    (h : z.Turns place ps place' w) : z.Lives ps w := by
  cases ps with
  | nil => exact .moved .start h.carried
  | cons p ps =>
    cases h with
    | takes treated =>
      cases treated with
      | passed p on same done => exact .passed p .start (same ▸ (Zone.pass_passed on done).2)

namespace Site

variable {s : Site δ} {count i k : Nat} {d : Domain δ} {z : Zone δ} {action : Action δ}
  {handle : ZoneHandle} {place : Place}

omit [Driver δ] in
theorem kept?_of_zone? (there : s.zone? place = some z) : s.kept? place = some z := by
  cases place with
  | loose k => exact there
  | attached i handle =>
    obtain ⟨d, found, inside⟩ := Option.bind_eq_some_iff.mp there
    rw [kept?, found]
    exact (Domain.zone?_some.mp inside).2

theorem Coherent.loose_step (h : s.Coherent count) (numbered : s.Numbered)
    (there : s.loose? k = some z) (taken : s.next env action (.loose k) = some place) :
    ∃ w, (s.perform env action).2.zone? place = some w ∧ z.Turns (.loose k) [] place w := by
  by_cases attached : ∃ i, action = .attach i k
  · obtain ⟨i, rfl⟩ := attached
    simp only [next, if_true] at taken
    cases found : s.domain? i with
    | none =>
      simp only [perform, found] at taken ⊢
      cases taken
      exact ⟨z, there, .rests⟩
    | some d =>
      obtain ⟨rest, mirror, home, -, -⟩ := h.facing found
      simp only [perform, found, there] at taken ⊢
      cases outcome : (d.attachZone env z s.shared).outcome with
      | error e =>
        rw [outcome] at taken
        cases taken
      | ok handle =>
        rw [outcome] at taken
        cases taken
        obtain ⟨w, here, joined⟩ := Domain.attachZone_here (numbered i d found) (h.bare k z there)
          (mirror.counted.symm ▸ home) outcome
        refine ⟨w, ?_, .joins joined⟩
        change ((s.settle i (d.attachZone env z s.shared)).domain? i).bind _ = _
        rw [settle_here found, Option.bind_some, here]
  · have other (i : Nat) : action ≠ .attach i k := fun same => attached ⟨i, same⟩
    have stays : s.next env action (.loose k) = some (.loose k) := by
      cases action with
      | attach j l =>
        have apart : l ≠ k := fun same => other j (same ▸ rfl)
        simp only [next, if_neg apart]
      | _ => rfl
    rw [stays] at taken
    cases taken
    exact ⟨z, perform_loose other there, .rests⟩

omit [Driver δ] in
/-- A zone in this place is behind a poisoned lock. -/
def Sealed (s : Site δ) (place : Place) : Prop :=
  match place with
  | .loose _ => False
  | .attached i _ => ∃ d, s.domain? i = some d ∧ d.treePoisoned = true

omit [Driver δ] in
theorem Sealed.zone?_none (h : s.Sealed place) : s.zone? place = none := by
  cases place with
  | loose k => cases h
  | attached i handle =>
    obtain ⟨d, found, poisoned⟩ := h
    rw [zone?, found, Option.bind_some, Domain.zone?, if_pos poisoned]

theorem next_elsewhere (s : Site δ) (env : Surroundings) (handle : ZoneHandle)
    (other : action.subject ≠ some i) :
    s.next env action (.attached i handle) = some (.attached i handle) ∧
      s.passes env action (.attached i handle) = [] := by
  cases action with
  | detach j _ | free j _ | operate j _ | drop j | abandon j =>
    have apart : j ≠ i := fun same => other (congrArg some same)
    simp [next, passes, apart]
  | _ => exact ⟨rfl, rfl⟩

theorem next_refused (env : Surroundings) (handle : ZoneHandle) {other : ZoneHandle}
    (kind : action = .detach i other ∨ action = .free i other) (found : s.domain? i = some d)
    (refused : other = handle → ∃ e, (d.detachZone other s.shared).outcome = .error e) :
    s.next env action (.attached i handle) = some (.attached i handle) ∧
      s.passes env action (.attached i handle) = [] := by
  by_cases same : other = handle
  · subst same
    obtain ⟨e, failed⟩ := refused rfl
    rcases kind with rfl | rfl <;>
      simp [next, passes, perform, found, failed, Except.map]
  · rcases kind with rfl | rfl <;> simp [next, passes, same]

theorem Coherent.perform_behind (h : s.Coherent count) (env : Surroundings) (action : Action δ)
    (there : s.kept? (.attached i handle) = some z) :
    (action = .drop i ∨ action = .abandon i) ∨
      (action = .detach i handle ∨ action = .free i handle) ∧
        (∃ d, s.domain? i = some d ∧ (d.detachZone handle s.shared).outcome = .ok z.left) ∨
      s.next env action (.attached i handle) = some (.attached i handle) ∧
        ((s.perform env action).2.kept? (.attached i handle) = some z ∧
            s.passes env action (.attached i handle) = [] ∨
          ∃ operation d, action = .operate i operation ∧ s.domain? i = some d ∧
            d.kept? handle = some z ∧ (s.perform env action).2.domain? i =
              some (operation.run env d s.shared).domain) := by
  obtain ⟨d, found, inside⟩ := Option.bind_eq_some_iff.mp there
  obtain ⟨rest, mirror, home, -, -⟩ := h.facing found
  have present : d.registry < s.shared.registries.length := mirror.counted.symm ▸ home
  have remains {e : Domain δ} (after : (s.perform env action).2.domain? i = some e)
      (kept : e.kept? handle = some z) :
      (s.perform env action).2.kept? (.attached i handle) = some z := by
    rw [kept?, after, Option.bind_some, kept]
  by_cases about : action.subject = some i
  · rcases h.perform_about found about with ⟨ends, -⟩ | ⟨e, after, undergone⟩
    · exact .inl ends
    · cases undergone with
      | vacant | fails => exact .inr (.inr ⟨rfl, .inl ⟨remains after inside, rfl⟩⟩)
      | attaches _ bare | places _ bare =>
        have kept : (d.attachZone env _ s.shared).domain.kept? handle = some z :=
          Domain.attachZone_kept bare present inside
        exact .inr (.inr ⟨rfl, .inl ⟨remains after kept, rfl⟩⟩)
      | @detaches _ other kind =>
        rcases Domain.detachZone_kept mirror inside other with ⟨rfl, out⟩ | ⟨kept, refused⟩
        · exact .inr (.inl ⟨kind, d, found, out⟩)
        · obtain ⟨stays, none⟩ := next_refused env handle kind found refused
          exact .inr (.inr ⟨stays, .inl ⟨remains after kept, none⟩⟩)
      | operates operation =>
        exact .inr (.inr ⟨rfl, .inr ⟨operation, d, rfl, found, inside, after⟩⟩)
  · obtain ⟨stays, none⟩ := next_elsewhere s env handle about
    exact .inr (.inr ⟨stays, .inl ⟨remains (perform_elsewhere about found) inside, none⟩⟩)

theorem Coherent.attached_turns (h : s.Coherent count)
    (there : s.kept? (.attached i handle) = some z)
    (whole : ∀ operation d, action = .operate i operation → s.domain? i = some d →
      ((operation.effect d).run env d.zones s.shared).1 = none)
    (taken : s.next env action (.attached i handle) = some place) :
    ∃ w, (s.perform env action).2.kept? place = some w ∧
      z.Turns (.attached i handle) (s.passes env action (.attached i handle)) place w := by
  rcases h.perform_behind env action there with
    (rfl | rfl) | ⟨rfl | rfl, d, found, out⟩ |
    ⟨stays, ⟨kept, none⟩ | ⟨operation, d, rfl, found, inside, after⟩⟩
  · simp [next] at taken
  · simp [next] at taken
  · simp only [next, perform, found, out, and_self, if_true, Except.map] at taken ⊢
    cases taken
    exact ⟨z.left, by simp [kept?, loose?, Except.toOption], .leaves⟩
  · simp only [next, perform, found, out, and_self, if_true, Except.map] at taken
    cases taken
  · cases stays.symm.trans taken
    exact ⟨z, kept, none ▸ .takes (.idle rfl)⟩
  · cases taken
    obtain ⟨w, kept, treated⟩ := (operation.run_becomes env d s.shared).treated inside
      (whole operation d rfl found)
    refine ⟨w, by rw [kept?, after, Option.bind_some, kept], ?_⟩
    cases poisoned : d.treePoisoned with
    | false =>
      have reached : s.zone? (.attached i handle) = some z := by
        rw [zone?, found]
        exact Domain.zone?_some.mpr ⟨poisoned, inside⟩
      simp only [passes, if_true, found, reached]
      exact .takes treated
    | true =>
      have reached : s.zone? (.attached i handle) = none := by
        rw [zone?, found, Option.bind_some, Domain.zone?, if_pos poisoned]
      simp only [passes, if_true, found, reached]
      rw [operation.effect_poisoned poisoned] at treated
      exact .takes treated

theorem Coherent.attached_step (h : s.Coherent count)
    (there : s.zone? (.attached i handle) = some z)
    (taken : s.next env action (.attached i handle) = some place) :
    (∃ w, (s.perform env action).2.zone? place = some w ∧
      z.Lives (s.passes env action (.attached i handle)) w) ∨
      (s.perform env action).2.Sealed place := by
  by_cases whole : ∀ operation d, action = .operate i operation → s.domain? i = some d →
      ((operation.effect d).run env d.zones s.shared).1 = none
  · obtain ⟨w, kept, turns⟩ := h.attached_turns (kept?_of_zone? there) whole taken
    cases place with
    | loose k => exact .inl ⟨w, kept, turns.lives⟩
    | attached j other =>
      obtain ⟨e, found, inside⟩ := Option.bind_eq_some_iff.mp kept
      cases poisoned : e.treePoisoned with
      | true => exact .inr ⟨e, found, poisoned⟩
      | false =>
        refine .inl ⟨w, ?_, turns.lives⟩
        rw [zone?, found]
        exact Domain.zone?_some.mpr ⟨poisoned, inside⟩
  · push Not at whole
    obtain ⟨operation, d, rfl, found, cut⟩ := whole
    cases taken
    refine .inr ⟨(operation.run env d s.shared).domain, ?_, ?_⟩
    · simp only [perform, found]
      exact settle_here found _
    · rw [(operation.run_becomes env d s.shared).poisoned, Option.isSome_iff_ne_none.mpr cut]
      exact Bool.or_true _

theorem Coherent.sealed_step (h : s.Coherent count) (behind : s.Sealed place) {place' : Place}
    (taken : s.next env action place = some place') : (s.perform env action).2.Sealed place' := by
  cases place with
  | loose k => cases behind
  | attached i handle =>
    obtain ⟨d, found, poisoned⟩ := behind
    by_cases about : action.subject = some i
    · rcases h.perform_about found about with ⟨rfl | rfl, -⟩ | ⟨e, after, undergone⟩
      · simp [next] at taken
      · simp [next] at taken
      · cases undergone with
        | vacant | fails =>
          cases taken
          exact ⟨_, after, poisoned⟩
        | attaches | places =>
          cases taken
          refine ⟨_, after, ?_⟩
          rw [Domain.attachZone, Domain.locked_poisoned poisoned]
          exact poisoned
        | @detaches _ other kind =>
          obtain ⟨f, failed⟩ := d.detachZone_poisoned poisoned other s.shared
          have outcome : (d.detachZone other s.shared).outcome = .error f := by rw [failed]
          obtain ⟨stays, -⟩ := next_refused env handle kind found fun _ => ⟨f, outcome⟩
          cases stays.symm.trans taken
          refine ⟨_, after, ?_⟩
          rw [failed]
          exact poisoned
        | operates operation =>
          cases taken
          refine ⟨_, after, ?_⟩
          rw [(operation.run_becomes env d s.shared).poisoned, poisoned]
          rfl
    · obtain ⟨stays, -⟩ := next_elsewhere s env handle about
      rw [stays] at taken
      cases taken
      exact ⟨d, perform_elsewhere about found, poisoned⟩

theorem Coherent.sealed_run {steps : List (Surroundings × Action δ)} {last : Place}
    {ps : List Pass} (h : s.Coherent count) (behind : s.Sealed place)
    (followed : s.follow steps place = some (last, ps)) : (s.run steps).Sealed last := by
  induction steps generalizing s place ps with
  | nil =>
    cases followed
    exact behind
  | cons step rest ih =>
    obtain ⟨place', taken, later⟩ := Option.bind_eq_some_iff.mp followed
    obtain ⟨⟨_, qs⟩, whole, same⟩ := Option.map_eq_some_iff.mp later
    cases same
    exact ih (perform_coherent step.2 h).1 (h.sealed_step behind taken) whole

theorem Coherent.step_lives (h : s.Coherent count) (numbered : s.Numbered)
    (there : s.zone? place = some z) {place' : Place}
    (taken : s.next env action place = some place') :
    (∃ w, (s.perform env action).2.zone? place' = some w ∧ z.Lives (s.passes env action place) w) ∨
      (s.perform env action).2.Sealed place' := by
  cases place with
  | loose k =>
    rw [passes_loose]
    obtain ⟨w, here, turns⟩ := h.loose_step numbered there taken
    exact .inl ⟨w, here, turns.lives⟩
  | attached i handle => exact h.attached_step there taken

/-- What has become of a zone at the end of a run, if it is within reach. -/
theorem Coherent.follow_lives {steps : List (Surroundings × Action δ)} {last : Place}
    {ps : List Pass} {w : Zone δ} (h : s.Coherent count) (numbered : s.Numbered)
    (there : s.zone? place = some z) (followed : s.follow steps place = some (last, ps))
    (found : (s.run steps).zone? last = some w) : z.Lives ps w := by
  induction steps generalizing s place z ps with
  | nil =>
    cases followed
    cases there.symm.trans found
    exact .start
  | cons step rest ih =>
    obtain ⟨env, action⟩ := step
    obtain ⟨place', taken, later⟩ := Option.bind_eq_some_iff.mp followed
    obtain ⟨⟨_, qs⟩, whole, same⟩ := Option.map_eq_some_iff.mp later
    cases same
    rcases h.step_lives numbered there taken with ⟨y, here, lives⟩ | behind
    · exact lives.trans (ih (perform_coherent action h).1 (h.perform_numbered numbered action) here
        whole found)
    · have gone := ((perform_coherent action h).1.sealed_run behind whole).zone?_none
      exact absurd (gone.symm.trans found) (by simp)

end Site

end Telemetry
