import Telemetry.Proofs.Following

/-! What an action leaves alone. An action on one zone leaves every other zone as it is, and what
only reads changes nothing at all. A pass over a domain is one pass after the other over its enabled
zones, in the order in which they were attached. -/
namespace Telemetry

variable {δ : Type}

def Action.Spares (action : Action δ) (place : Place) : Prop :=
  match action with
  | .create _ _ | .make _ | .alloc _ _ | .enlist _ _ | .publish _ _ _ => True
  | .attach _ k => place ≠ .loose k
  | .detach i handle | .free i handle => place ≠ .attached i handle
  | .drop i | .abandon i => ∀ handle, place ≠ .attached i handle
  | .operate i operation =>
    match operation with
    | .updateZone handle _ | .enable handle | .disable handle => place ≠ .attached i handle
    | .update _ | .start | .sample => ∀ handle, place ≠ .attached i handle
    | .stop => True

namespace Domain

theorem reading_still (d : Domain δ) (s : Shared) (view : Domain δ → α) :
    (d.reading s view).domain = d ∧ (d.reading s view).shared = s := by
  unfold reading locked
  split <;> exact ⟨rfl, rfl⟩

theorem readingZone_still (d : Domain δ) (handle : ZoneHandle) (s : Shared) (view : Zone δ → α) :
    (d.readingZone handle s view).domain = d ∧ (d.readingZone handle s view).shared = s := by
  unfold readingZone onZone
  split
  · exact ⟨rfl, rfl⟩
  · split
    · exact ⟨rfl, rfl⟩
    · split
      · exact ⟨rfl, rfl⟩
      · exact d.reading_still s _

variable [Driver δ] {env : Surroundings}

def updateEach (env : Surroundings) (clear : Bool) :
    List ZoneHandle → Domain δ → Shared → Domain δ × Shared
  | [], d, s => (d, s)
  | handle :: rest, d, s =>
    let done := d.updateZone env clear handle s
    updateEach env clear rest done.domain done.shared

omit [Driver δ] in
def enabledHandles (zones : List (Zone δ)) : List ZoneHandle :=
  (zones.filter (·.enabled)).filterMap (·.handle)

variable {d : Domain δ} {s : Shared} {clear : Bool}

theorem updateEach_poisoned (poisoned : d.treePoisoned = true) (handles : List ZoneHandle) :
    d.updateEach env clear handles s = (d, s) := by
  induction handles with
  | nil => rfl
  | cons handle rest ih =>
    have still : (d.updateZone env clear handle s).domain = d ∧
        (d.updateZone env clear handle s).shared = s := by
      unfold updateZone changeZone onZone
      split <;> exact ⟨rfl, rfl⟩
    rw [updateEach, still.1, still.2, ih]

theorem updateZone_at {before : List (Zone δ)} (after : List (Zone δ)) {z : Zone δ}
    {handle : ZoneHandle} (sound : d.treePoisoned = false) (own : handle.domain = d.id)
    (known : z.handle = some handle) (first : ∀ y ∈ before, y.handle ≠ some handle)
    (env : Surroundings) (clear : Bool) (s : Shared) :
    let done := { d with zones := before ++ z :: after }.updateZone env clear handle s
    let (fault, w, t) := z.pass env clear s
    done.domain = { d with zones := before ++ w :: after, treePoisoned := fault.isSome } ∧
      done.shared = t := by
  have placed : (before ++ z :: after).findIdx? (·.handle == some handle) = some before.length := by
    rw [List.findIdx?_append, List.findIdx?_eq_none_iff.mpr (by simpa using first)]
    simp [List.findIdx?_cons, known]
  simp only [updateZone, changeZone, onZone, own, ne_eq, not_true_eq_false, if_false, sound,
    Bool.false_eq_true, position, placed, Option.bind_some, List.getElem?_append_right le_rfl,
    Nat.sub_self, List.getElem?_cons_zero, Option.map_some, locked,
    List.set_append_right _ _ le_rfl, List.set_cons_zero]
  cases z.pass env clear s with | mk fault rest =>
  cases fault with
  | none => exact ⟨by simp [ended], rfl⟩
  | some f => exact ⟨rfl, rfl⟩

theorem updateEach_from (sound : d.treePoisoned = false) (before after : List (Zone δ))
    (own : ∀ z ∈ after, ∃ n, z.handle = some ⟨d.id, n⟩)
    (distinct : ((before ++ after).map (·.handle)).Nodup) (env : Surroundings) (clear : Bool)
    (s : Shared) :
    updateEach env clear (enabledHandles after) { d with zones := before ++ after } s =
      let (fault, zones, t) := passOver (Zone.pass env clear) after s
      ({ d with zones := before ++ zones, treePoisoned := fault.isSome }, t) := by
  induction after generalizing before s with
  | nil => simp [updateEach, enabledHandles, passOver, sound]
  | cons z rest ih =>
    have others : ∀ y ∈ rest, ∃ n, y.handle = some ⟨d.id, n⟩ := fun y member =>
      own y (List.mem_cons_of_mem _ member)
    cases on : z.enabled with
    | false =>
      have skipped : z.pass env clear s = (none, z, s) := by
        rw [Zone.pass, if_neg (by simp [on])]
      have tail := ih (before ++ [z]) others (by simpa using distinct) s
      rw [List.append_cons, enabledHandles, List.filter_cons_of_neg (by simp [on])]
      refine tail.trans ?_
      simp [passOver, skipped]
    | true =>
      obtain ⟨n, known⟩ := own z List.mem_cons_self
      have first : ∀ y ∈ before, y.handle ≠ some ⟨d.id, n⟩ := by
        intro y member same
        rw [List.map_append, List.nodup_append'] at distinct
        refine distinct.2.2 (List.mem_map_of_mem member) ?_
        rw [same, ← known]
        exact List.mem_cons_self
      have head := updateZone_at rest sound rfl known first env clear s
      have handle := z.pass_handle env clear s
      rw [enabledHandles, List.filter_cons_of_pos (by simp [on]), List.filterMap_cons_some known,
        updateEach, passOver]
      cases step : z.pass env clear s with | mk fault result =>
      obtain ⟨w, t⟩ := result
      rw [step] at head handle
      obtain ⟨domain, shared⟩ := head
      simp only [domain, shared]
      cases fault with
      | some f => exact updateEach_poisoned rfl _
      | none =>
        have kept : ((before ++ [w] ++ rest).map (·.handle)).Nodup := by
          simpa [show w.handle = z.handle from handle] using distinct
        have tail := ih (before ++ [w]) others kept t
        have same : ({ d with zones := before ++ w :: rest, treePoisoned := false } : Domain δ)
            = { d with zones := before ++ [w] ++ rest } := by
          simp [sound]
        simp only [Option.isSome_none]
        rw [same]
        exact tail.trans (by simp)

omit [Driver δ] in
theorem InOrder.enabled_sorted (h : d.InOrder) :
    (enabledHandles d.zones).Pairwise (fun a b => a.zone < b.zone) := by
  obtain ⟨ns, handles, sorted, -⟩ := h
  have all : d.zones.filterMap (·.handle) = ns.map fun n => ⟨d.id, n⟩ := by
    have both := congrArg (List.filterMap fun handle => handle) handles
    simpa [List.filterMap_map, Function.comp_def] using both
  have fewer : (enabledHandles d.zones).Sublist (ns.map fun n => ⟨d.id, n⟩) := by
    rw [← all]
    exact List.filter_sublist.filterMap _
  have numbered : (ns.map fun n => (⟨d.id, n⟩ : ZoneHandle)).Pairwise
      fun a b => a.zone < b.zone := List.pairwise_map.mpr sorted
  exact numbered.sublist fewer

theorem InOrder.update_eq (h : d.InOrder) (env : Surroundings) (clear : Bool) (s : Shared) :
    d.updateEach env clear (enabledHandles d.zones) s =
      ((d.update env clear s).domain, (d.update env clear s).shared) := by
  obtain ⟨ns, handles, sorted, -⟩ := h
  cases poisoned : d.treePoisoned with
  | true =>
    rw [updateEach_poisoned poisoned, update, locked_poisoned poisoned]
  | false =>
    have own : ∀ z ∈ d.zones, ∃ n, z.handle = some ⟨d.id, n⟩ := by
      intro z member
      have inside : z.handle ∈ d.zones.map (·.handle) := List.mem_map_of_mem member
      rw [handles, List.mem_map] at inside
      obtain ⟨n, -, same⟩ := inside
      exact ⟨n, same.symm⟩
    have distinct : (([] ++ d.zones).map fun z : Zone δ => z.handle).Nodup := by
      rw [List.nil_append, handles]
      exact (sorted.imp Nat.ne_of_lt).map _ (by simp)
    have whole := updateEach_from poisoned [] d.zones own distinct env clear s
    rw [List.nil_append] at whole
    refine whole.trans ?_
    simp only [update, locked, poisoned, Bool.false_eq_true, if_false, passZones]
    cases passOver (Zone.pass env clear) d.zones s with | mk fault rest =>
    cases fault <;> simp [ended]

/-- Every operation that comes to a pass over the whole domain is one pass after the other over its
enabled zones. -/
theorem InOrder.everywhere (h : d.InOrder) {operation : Operation}
    (comes : operation.effect d = .everywhere clear) :
    let each := d.updateEach env clear (enabledHandles d.zones) s
    let done := operation.run env d s
    done.domain.zones = each.1.zones ∧ each.2.Agrees done.shared := by
  have sound : d.treePoisoned = false := by
    refine eq_false_of_ne_true fun poisoned => ?_
    rw [operation.effect_poisoned poisoned] at comes
    cases comes
  have whole : (Operation.update clear).effect d = .everywhere clear := by
    rw [Operation.effect, if_neg (by simp [sound])]
  have done := operation.run_becomes env d s
  have pass := (Operation.update clear).run_becomes env d s
  rw [comes] at done
  rw [whole] at pass
  rw [h.update_eq]
  have same := done.shared.agrees
  have alike := pass.shared.agrees
  exact ⟨done.zones.trans pass.zones.symm, same.1.trans alike.1.symm, same.2.trans alike.2.symm⟩

end Domain

variable [Driver δ] {env : Surroundings}

omit [Driver δ] in
theorem Operation.effect_spares {i : Nat} {handle : ZoneHandle} (operation : Operation)
    (d : Domain δ) (spares : (Action.operate i operation : Action δ).Spares (.attached i handle)) :
    (operation.effect d).treats handle = none := by
  have through (other : ZoneHandle) (treatment : Treatment)
      (apart : Place.attached i handle ≠ .attached i other) :
      (through d other treatment).treats handle = none := by
    unfold Operation.through
    split
    · rfl
    · exact if_neg fun same => apart (congrArg _ same.symm)
  cases operation with
  | updateZone other clear => exact through other (.pass clear) spares
  | enable other => exact through other (.enable d.clearOnStart) spares
  | disable other => exact through other .disable spares
  | stop => rfl
  | update _ | start | sample => exact absurd rfl (spares handle)

namespace Site

variable {s : Site δ} {count : Nat} {action : Action δ} {place : Place} {z : Zone δ}

/-- Whatever an action does, and also if it fails, other zones stay as they are. -/
theorem Coherent.perform_spares (h : s.Coherent count) (spares : action.Spares place)
    (there : s.kept? place = some z) : (s.perform env action).2.kept? place = some z := by
  cases place with
  | loose k =>
    refine perform_loose ?_ there
    rintro i rfl
    exact spares rfl
  | attached i handle =>
    rcases h.perform_behind env action there with
      (rfl | rfl) | ⟨rfl | rfl, -⟩ | ⟨-, ⟨kept, -⟩ | ⟨operation, d, rfl, found, inside, after⟩⟩
    · exact absurd rfl (spares handle)
    · exact absurd rfl (spares handle)
    · exact absurd rfl spares
    · exact absurd rfl spares
    · exact kept
    · rw [kept?, after, Option.bind_some, Domain.kept?,
        (operation.run_becomes env d s.shared).zones]
      exact Effect.run_untreated (operation.effect_spares d spares) inside env s.shared

end Site

end Telemetry
