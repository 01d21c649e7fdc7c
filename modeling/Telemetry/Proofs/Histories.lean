import Telemetry.Proofs.Readings
import Telemetry.Proofs.Sparing

/-! Every element holds its history. Follow a zone along a run and write down what the passes over
it find for one of its elements; what the element holds in the end is what these samples come to.
No other action touches it. -/
namespace Telemetry

def cutShort (outcome : Outcome α) : Bool :=
  match outcome with
  | .error (.fault f) => f.inPass
  | _ => false

namespace Site

variable {δ : Type} [Driver δ]

/-- What the passes of a run find for an element of the zone that starts in a place. -/
def history (bi mi k : Nat) :
    List (Surroundings × Action δ) → Site δ → Place → List Metric.Sample
  | [], _, _ => []
  | (env, action) :: rest, s, place =>
    let found :=
      match s.kept? place with
      | some z => (s.passes env action place).filterMap (z.sample? · s.shared bi mi k)
      | none => []
    match s.next env action place with
    | some place' => found ++ history bi mi k rest (s.perform env action).2 place'
    | none => found

/-- An action cuts a pass over the domain of the zone short. -/
def interrupts (s : Site δ) (env : Surroundings) (action : Action δ) (place : Place) : Bool :=
  match action, place with
  | .operate i _, .attached j _ => i == j && cutShort (s.perform env action).1
  | _, _ => false

/-- No pass over a domain is cut short while the zone that starts in this place is there. -/
def smooth : List (Surroundings × Action δ) → Site δ → Place → Bool
  | [], _, _ => true
  | (env, action) :: rest, s, place =>
    !s.interrupts env action place &&
      match s.next env action place with
      | some place' => smooth rest (s.perform env action).2 place'
      | none => true

variable {s : Site δ} {count i : Nat} {env : Surroundings} {action : Action δ} {place : Place}
  {z : Zone δ} {bs : BlockSpec δ} {ms : MetricSpec} {bi mi k : Nat} {e : Element}
  {samples : List Metric.Sample}

theorem whole_of_smooth {handle : ZoneHandle}
    (calm : s.interrupts env action (.attached i handle) = false) (operation : Operation)
    (d : Domain δ) (same : action = .operate i operation) (found : s.domain? i = some d) :
    ((operation.effect d).run env d.zones s.shared).1 = none := by
  subst same
  cases done : ((operation.effect d).run env d.zones s.shared).1 with
  | none => rfl
  | some f =>
    have short := (operation.effect d).run_fault done
    simp [interrupts, perform, found, operation.run_fault done, Except.map, cutShort, short] at calm

theorem Coherent.step_turns (h : s.Coherent count) (numbered : s.Numbered)
    (there : s.kept? place = some z) (calm : s.interrupts env action place = false)
    {place' : Place} (taken : s.next env action place = some place') :
    ∃ w, (s.perform env action).2.kept? place' = some w ∧
      z.Turns place (s.passes env action place) place' w := by
  cases place with
  | loose j =>
    obtain ⟨w, here, turns⟩ := h.loose_step numbered there taken
    rw [passes_loose]
    exact ⟨w, kept?_of_zone? here, turns⟩
  | attached i handle => exact h.attached_turns there (whole_of_smooth calm) taken

theorem Coherent.follow_keeps {P : Place → Zone δ → Prop}
    (keeps : ∀ {y w : Zone δ} {first next : Place} {ps : List Pass},
      P first y → y.Turns first ps next w → P next w)
    {steps : List (Surroundings × Action δ)} {last : Place} {ps : List Pass} (h : s.Coherent count)
    (numbered : s.Numbered) (there : s.kept? place = some z) (start : P place z)
    (calm : s.smooth steps place = true) (followed : s.follow steps place = some (last, ps)) :
    ∃ w, (s.run steps).kept? last = some w ∧ P last w := by
  induction steps generalizing s place z ps with
  | nil =>
    cases followed
    exact ⟨z, there, start⟩
  | cons step rest ih =>
    obtain ⟨env, action⟩ := step
    obtain ⟨place', taken, later⟩ := Option.bind_eq_some_iff.mp followed
    obtain ⟨⟨_, qs⟩, whole, same⟩ := Option.map_eq_some_iff.mp later
    cases same
    simp only [smooth, taken, Bool.and_eq_true, Bool.not_eq_true'] at calm
    obtain ⟨w, here, turns⟩ := h.step_turns numbered there calm.1 taken
    exact ih (perform_coherent action h).1 (h.perform_numbered numbered action) here
      (keeps start turns) calm.2 whole

theorem Coherent.step_stands (h : s.Coherent count) (numbered : s.Numbered)
    (there : s.kept? place = some z) (element : Element.At bs ms bi mi k z e)
    (stands : e.Stands ms samples) (calm : s.interrupts env action place = false)
    {place' : Place} (taken : s.next env action place = some place') :
    ∃ w d found, (s.perform env action).2.kept? place' = some w ∧
      Element.At bs ms bi mi k w d ∧
      (s.passes env action place).filterMap (z.sample? · s.shared bi mi k) = found ∧
      found.map (·.clear) = (s.passes env action place).map (·.clear) ∧
      d.Stands ms (samples ++ found) := by
  obtain ⟨w, here, turns⟩ := h.step_turns numbered there calm taken
  obtain ⟨d, found, kept⟩ := element.turns stands turns s.shared
  exact ⟨w, d, found, here, kept⟩

/-- A run, and what an element has taken after it: one sample for each pass. -/
theorem Coherent.follow_stands {steps : List (Surroundings × Action δ)} {last : Place}
    {ps : List Pass} (h : s.Coherent count) (numbered : s.Numbered)
    (there : s.kept? place = some z) (element : Element.At bs ms bi mi k z e)
    (stands : e.Stands ms samples) (calm : s.smooth steps place = true)
    (followed : s.follow steps place = some (last, ps)) :
    (s.history bi mi k steps place).map (·.clear) = ps.map (·.clear) ∧
      ∃ w d, (s.run steps).kept? last = some w ∧ Element.At bs ms bi mi k w d ∧
        d.Stands ms (samples ++ s.history bi mi k steps place) := by
  induction steps generalizing s place z e samples ps with
  | nil =>
    cases followed
    exact ⟨rfl, z, e, there, element, (List.append_nil samples).symm ▸ stands⟩
  | cons step rest ih =>
    obtain ⟨env, action⟩ := step
    obtain ⟨place', taken, later⟩ := Option.bind_eq_some_iff.mp followed
    obtain ⟨⟨_, qs⟩, whole, same⟩ := Option.map_eq_some_iff.mp later
    cases same
    simp only [smooth, taken, Bool.and_eq_true, Bool.not_eq_true'] at calm
    obtain ⟨w, d, found, here, moved, samples', clears, stood⟩ :=
      h.step_stands numbered there element stands calm.1 taken
    obtain ⟨all, v, f, there', element', stood'⟩ :=
      ih (perform_coherent action h).1 (h.perform_numbered numbered action) here moved stood
        calm.2 whole
    simp only [history, there, taken, samples', List.map_append, all, clears]
    exact ⟨trivial, v, f, there', element', by rwa [List.append_assoc] at stood'⟩

end Site

open Domain (enabledHandles)

variable {δ : Type} [Driver δ]

/-- **Every element holds its history.** Follow a zone from its allocation through any run, and no
pass over the domain that has it is cut short: there is one sample for each pass over the zone, and
the raw value of an element is what its samples come to. In every site that can be reached, an
action on another zone leaves the zone as it is, what only reads leaves everything, and an operation
that comes to a pass over the whole domain comes to a pass over each of its enabled zones, in the
order of their attachment. -/
theorem elements_hold_their_history (count : Nat) (before : List (Surroundings × Action δ)) :
    let s := (Site.empty count).run before
    (∀ env action spec place after last ps bs ms bi mi k,
      s.birth env action = some (spec, place) →
      let born := (s.perform env action).2
      born.follow after place = some (last, ps) → born.smooth after place = true →
      spec.blocks[bi]? = some bs → bs.metrics[mi]? = some ms → k < ms.elementCount →
      let samples := born.history bi mi k after place
      samples.map (·.clear) = ps.map (·.clear) ∧
        ∃ (z : Zone δ) (b : Block δ) (m : Metric) (e : Element),
          (born.run after).kept? last = some z ∧ z.blocks[bi]? = some b ∧
          b.metrics[mi]? = some m ∧ m.elements[k]? = some e ∧ e.value = ms.standing samples) ∧
    (∀ env (action : Action δ) place z, action.Spares place → s.kept? place = some z →
      (s.perform env action).2.kept? place = some z) ∧
    (∀ (α : Type) (d : Domain δ) (t : Shared) (view : Domain δ → α) (handle : ZoneHandle)
      (part : Zone δ → α),
      (d.reading t view).domain = d ∧ (d.reading t view).shared = t ∧
      (d.readingZone handle t part).domain = d ∧ (d.readingZone handle t part).shared = t) ∧
    ∀ env i d (operation : Operation) clear, s.domain? i = some d →
      operation.effect d = .everywhere clear →
      let each := d.updateEach env clear (enabledHandles d.zones) s.shared
      let done := operation.run env d s.shared
      (enabledHandles d.zones).Pairwise (fun a b => a.zone < b.zone) ∧
        done.domain.zones = each.1.zones ∧ each.2.Agrees done.shared := by
  intro s
  have coherent : s.Coherent count := Site.run_coherent count before
  have numbered : s.Numbered := Site.run_numbered count before
  have ordered : s.Throughout Domain.InOrder := Site.run_throughout Domain.inOrder_kept count before
  refine ⟨?_, ?_, ?_, ?_⟩
  · intro env action spec place after last ps bs ms bi mi k born site followed calm block metric
      below
    obtain ⟨first, j, w, made, here, turns⟩ := coherent.born_turns numbered born
    have started := Element.At.alloc made block metric below
    obtain ⟨e, found, inside, none, -, stands⟩ := started.turns (.start ms) turns s.shared
    cases none
    obtain ⟨clears, z, d, there, ⟨b, m, at_, placed, element, -⟩, stood⟩ :=
      Site.Coherent.follow_stands (Site.perform_coherent action coherent).1
        (coherent.perform_numbered numbered action) (Site.kept?_of_zone? here) inside stands calm
        followed
    exact ⟨clears, z, b, m, d, there, at_, placed, element, stood.value⟩
  · intro env action place z spares there
    exact coherent.perform_spares spares there
  · intro α d t view handle part
    obtain ⟨domain, shared⟩ := d.reading_still t view
    exact ⟨domain, shared, d.readingZone_still handle t part⟩
  · intro env i d operation clear found comes
    exact ⟨(ordered i d found).enabled_sorted, (ordered i d found).everywhere comes⟩

def clearing : List (Surroundings × Action StockDriver) :=
  [(showing 0, .create 0 ⟨"d", 0, true⟩)]

def resettingCounter : MetricSpec :=
  ⟨"x", "", .counter, ⟨false, true, false⟩, 1, 7, .whole 0 1, [], .standard, 0⟩

def resettingZone : ZoneSpec StockDriver := ⟨"z", [⟨"b", some 0, [resettingCounter], 0, none⟩]⟩

def interleaved : List (Surroundings × Action StockDriver) :=
  [(showing 0, .attach 0 0), (showing 5, .operate 0 (.update false)),
    (showing 6, .operate 0 (.disable ⟨1, 1⟩)), (showing 9, .operate 0 (.update false)),
    (showing 20, .operate 0 (.enable ⟨1, 1⟩)), (showing 22, .operate 0 (.updateZone ⟨1, 1⟩ false)),
    (showing 30, .operate 0 .start), (showing 41, .operate 0 .sample),
    (showing 44, .operate 0 .sample)]

/-- Six passes are made over a zone, and what comes after the last clear one counts: 11 and 3 for one
counter, 41 and 44 on top of 7 for the other. -/
theorem elements_hold_their_history_interleaved :
    let samples : List Metric.Sample := [⟨5, 255, false⟩, ⟨20, 255, true⟩, ⟨22, 255, false⟩,
      ⟨30, 255, true⟩, ⟨41, 255, false⟩, ⟨44, 255, false⟩]
    (let born := (((Site.empty 1).run clearing).perform (showing 0) (.make counterZone)).2;
      born.history 0 0 0 interleaved (.loose 0) = samples ∧
      ∃ (z : Zone StockDriver) (b : Block StockDriver) (m : Metric) (e : Element),
        (born.run interleaved).kept? (.attached 0 ⟨1, 1⟩) = some z ∧ z.blocks[0]? = some b ∧
        b.metrics[0]? = some m ∧ m.elements[0]? = some e ∧ e.value = 14) ∧
    let born := (((Site.empty 1).run clearing).perform (showing 0) (.make resettingZone)).2
    born.history 0 0 0 interleaved (.loose 0) = samples ∧
    ∃ (z : Zone StockDriver) (b : Block StockDriver) (m : Metric) (e : Element),
      (born.run interleaved).kept? (.attached 0 ⟨1, 1⟩) = some z ∧ z.blocks[0]? = some b ∧
      b.metrics[0]? = some m ∧ m.elements[0]? = some e ∧ e.value = 92 := by
  refine ⟨⟨rfl, ?_⟩, rfl, ?_⟩
  · exact ((elements_hold_their_history 1 clearing).1 (showing 0) (.make counterZone) counterZone
      (.loose 0) interleaved (.attached 0 ⟨1, 1⟩) _ _ _ 0 0 0 rfl rfl rfl rfl rfl (by decide)).2
  · exact ((elements_hold_their_history 1 clearing).1 (showing 0) (.make resettingZone)
      resettingZone (.loose 0) interleaved (.attached 0 ⟨1, 1⟩) _ _ _ 0 0 0 rfl rfl rfl rfl rfl
      (by decide)).2

end Telemetry
