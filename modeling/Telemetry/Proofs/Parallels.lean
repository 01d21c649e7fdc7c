import Telemetry.Proofs.Reachable
import Telemetry.Proofs.Twins

/-! Domains and sites side by side. Whatever is done with a domain comes to the same in two runs
whose shared states are twins, and so does every action on a site, as long as what it offers to a
registry heeds what the other one has learned; hence whole runs do. -/
namespace Telemetry

variable {ρ : Residue} {δ : Type}

namespace Done

/-- The same outcome, up to the numbers of vectors, and twins after it. -/
structure Beside (ρ : Residue) (same : α → α) (x y : Done δ α) : Prop where
  outcome : y.outcome = x.outcome.map same
  domain : y.domain = x.domain.renumbered ρ.place
  shared : ρ.Twin x.shared y.shared

def Like (ρ : Residue) (x y : Done δ α) : Prop := Beside ρ (fun a => a) x y

theorem like {outcome : Outcome α} {d : Domain δ} {s t : Shared} (h : ρ.Twin s t) :
    Like ρ ⟨outcome, d, s⟩ ⟨outcome, d.renumbered ρ.place, t⟩ :=
  ⟨by cases outcome <;> rfl, rfl, h⟩

theorem Like.same {x y : Done δ α} (each : Like ρ x y) : y.outcome = x.outcome := by
  rw [each.outcome]
  cases x.outcome <;> rfl

theorem Like.mapped {x y : Done δ α} (each : Like ρ x y) (f : α → β) :
    Like ρ (⟨x.outcome.map f, x.domain, x.shared⟩ : Done δ β)
      ⟨y.outcome.map f, y.domain, y.shared⟩ := by
  obtain ⟨outcome, d, s⟩ := x
  obtain ⟨outcome', e, t⟩ := y
  obtain ⟨rfl, rfl, twin⟩ := each
  cases outcome <;> exact ⟨rfl, rfl, twin⟩

def marking (mark : Domain δ → Domain δ) (done : Done δ α) : Done δ α :=
  match done.outcome with
  | .error (.fault _) => { done with domain := mark done.domain }
  | _ => done

theorem Beside.marking {same : α → α} {x y : Done δ α} (each : Beside ρ same x y)
    (mark : Domain δ → Domain δ)
    (commutes : ∀ d, mark (d.renumbered ρ.place) = (mark d).renumbered ρ.place) :
    Beside ρ same (x.marking mark) (y.marking mark) := by
  obtain ⟨outcome, d, s⟩ := x
  obtain ⟨outcome', e, t⟩ := y
  obtain ⟨rfl, rfl, twin⟩ := each
  cases outcome with
  | error failure =>
    cases failure with
    | fault f => exact ⟨rfl, commutes d, twin⟩
    | refused r => exact ⟨rfl, rfl, twin⟩
  | ok a => exact ⟨rfl, rfl, twin⟩

end Done

open Done (Like)
open Series (Rejection)

namespace Domain

variable {d : Domain δ} {s t : Shared} {same : α → α} {step step' : Domain δ → Shared → Done δ α}

theorem locked_beside (h : ρ.Twin s t)
    (each : Done.Beside ρ same (step d s) (step' (d.renumbered ρ.place) t)) :
    Done.Beside ρ same (d.locked s step) ((d.renumbered ρ.place).locked t step') := by
  have poisoned : (d.renumbered ρ.place).treePoisoned = d.treePoisoned := rfl
  simp only [locked, poisoned]
  split
  · exact ⟨rfl, rfl, h⟩
  · exact each.marking (fun d => { d with treePoisoned := true }) fun _ => rfl

theorem holdingSlot_beside (h : ρ.Twin s t)
    (each : Done.Beside ρ same (step d s) (step' (d.renumbered ρ.place) t)) :
    Done.Beside ρ same (d.holdingSlot s step) ((d.renumbered ρ.place).holdingSlot t step') := by
  have poisoned : (d.renumbered ρ.place).slotPoisoned = d.slotPoisoned := rfl
  simp only [holdingSlot, poisoned]
  split
  · exact ⟨rfl, rfl, h⟩
  · exact each.marking (fun d => { d with slotPoisoned := true }) fun _ => rfl

theorem position_renumbered (place : Nat → Nat) (d : Domain δ) (handle : ZoneHandle) :
    (d.renumbered place).position handle = d.position handle := by
  simp only [position, renumbered, List.findIdx?_map]
  rfl

theorem onZone_beside {step : Nat → Zone δ → Domain δ → Shared → Done δ α} (h : ρ.Twin s t)
    (handle : ZoneHandle)
    (each : ∀ i z, Done.Beside ρ same (step i z d s)
      (step i (z.renumbered ρ.place) (d.renumbered ρ.place) t)) :
    Done.Beside ρ same (d.onZone handle s step) ((d.renumbered ρ.place).onZone handle t step) := by
  have poisoned : (d.renumbered ρ.place).treePoisoned = d.treePoisoned := rfl
  have owner : (d.renumbered ρ.place).id = d.id := rfl
  have zones (i : Nat) :
      (d.renumbered ρ.place).zones[i]? = (d.zones[i]?).map (·.renumbered ρ.place) :=
    List.getElem?_map
  simp only [onZone, poisoned, owner, position_renumbered, zones]
  split
  · exact ⟨rfl, rfl, h⟩
  · split
    · exact ⟨rfl, rfl, h⟩
    · cases d.position handle with
      | none => exact ⟨rfl, rfl, h⟩
      | some i =>
        cases found : d.zones[i]? with
        | none =>
          simp only [Option.bind_some, found, Option.map_none]
          exact ⟨rfl, rfl, h⟩
        | some z =>
          simp only [Option.bind_some, found, Option.map_some]
          exact locked_beside h (each i z)

theorem changeZone_beside {change : Zone δ → Shared → Option Fault × Zone δ × Shared}
    (h : ρ.Twin s t) (handle : ZoneHandle)
    (each : ∀ {z fault w s'}, change z s = (fault, w, s') →
      ∃ t', change (z.renumbered ρ.place) t = (fault, w.renumbered ρ.place, t') ∧ ρ.Twin s' t') :
    Like ρ (d.changeZone handle s change)
      ((d.renumbered ρ.place).changeZone handle t change) := by
  refine onZone_beside h handle ?_
  intro i z
  cases changed : change z s with | mk fault moved =>
  obtain ⟨w, u⟩ := moved
  obtain ⟨v, there, twin⟩ := each changed
  simp only [there]
  refine ⟨by cases ended fault <;> rfl, ?_, twin⟩
  simp only [renumbered, List.map_set]

variable [Driver δ] {env : Surroundings} {clear : Bool}

theorem passZones_beside (h : ρ.Twin s t) :
    Like ρ (passZones env clear d s) (passZones env clear (d.renumbered ρ.place) t) := by
  cases passed : passOver (Zone.pass env clear) d.zones s with | mk fault rest =>
  obtain ⟨zones, u⟩ := rest
  obtain ⟨v, there, twin⟩ := passOver_beside (·.renumbered ρ.place) ρ.Twin Zone.pass_beside h passed
  have other : passOver (Zone.pass env clear) (d.renumbered ρ.place).zones t =
      (fault, zones.map (·.renumbered ρ.place), v) := there
  simp only [passZones, passed, other]
  exact Done.like twin

theorem markRunning_beside (h : ρ.Twin s t) :
    Like ρ (d.markRunning env s) ((d.renumbered ρ.place).markRunning env t) := by
  refine locked_beside h ?_
  have running : (d.renumbered ρ.place).running = d.running := rfl
  have clears : (d.renumbered ρ.place).clearOnStart = d.clearOnStart := rfl
  simp only [running, clears]
  split
  · exact Done.like h
  · split
    · have passed : Like ρ (passZones env true { d with running := true } s)
          (passZones env true { d.renumbered ρ.place with running := true } t) := passZones_beside h
      exact passed.mapped fun _ => true
    · exact Done.like h

theorem start_beside (h : ρ.Twin s t) :
    Like ρ (d.start env s) ((d.renumbered ρ.place).start env t) := by
  refine holdingSlot_beside h ?_
  have marked : Like ρ (d.markRunning env s) ((d.renumbered ρ.place).markRunning env t) :=
    markRunning_beside h
  generalize d.markRunning env s = x at marked ⊢
  generalize (d.renumbered ρ.place).markRunning env t = y at marked ⊢
  obtain ⟨outcome, e, u⟩ := x
  obtain ⟨outcome', e', u'⟩ := y
  obtain ⟨rfl, rfl, twin⟩ := marked
  cases outcome with
  | error failure => exact ⟨rfl, rfl, twin⟩
  | ok first =>
    cases first with
    | false => exact ⟨rfl, rfl, twin⟩
    | true =>
      cases env.threadError with
      | some error => exact ⟨rfl, rfl, twin⟩
      | none => exact ⟨rfl, rfl, twin.log _ _⟩

omit [Driver δ] in
theorem stop_beside (h : ρ.Twin s t) : Like ρ (d.stop s) ((d.renumbered ρ.place).stop t) := by
  refine holdingSlot_beside h ?_
  have cleared : Like ρ (d.clearRunning s) ((d.renumbered ρ.place).clearRunning t) :=
    locked_beside h ⟨rfl, rfl, h⟩
  generalize d.clearRunning s = x at cleared ⊢
  generalize (d.renumbered ρ.place).clearRunning t = y at cleared ⊢
  obtain ⟨outcome, e, u⟩ := x
  obtain ⟨outcome', e', u'⟩ := y
  obtain ⟨rfl, rfl, twin⟩ := cleared
  cases outcome with
  | error failure => exact ⟨rfl, rfl, twin⟩
  | ok running =>
    cases running with
    | false => exact ⟨rfl, rfl, twin⟩
    | true => exact ⟨rfl, rfl, twin.log _ _⟩

theorem attachZone_beside (env : Surroundings) {z : Zone δ} (h : ρ.Twin s t) (bare : z.Bare)
    (heeds : ∀ e ∈ z.descriptors d.name, e.Heeds (ρ.learned d.registry)) :
    Like ρ (d.attachZone env z s)
      ((d.renumbered ρ.place).attachZone env (z.renumbered ρ.place) t) := by
  refine locked_beside h ?_
  cases attached : z.attach env d.name d.registry ⟨d.id, d.nextZone⟩ s with | mk outcome rest =>
  obtain ⟨w, u⟩ := rest
  obtain ⟨v, there, twin⟩ := Zone.attach_beside h bare heeds attached
  have other : (z.renumbered ρ.place).attach env (d.renumbered ρ.place).name
      (d.renumbered ρ.place).registry ⟨(d.renumbered ρ.place).id, (d.renumbered ρ.place).nextZone⟩
      t = (outcome, w.renumbered ρ.place, v) := there
  simp only [attached, other]
  cases outcome with
  | error e => exact Done.like twin
  | ok _ =>
    refine ⟨rfl, ?_, twin⟩
    simp only [renumbered, List.map_append]
    rfl

theorem detachZone_beside (h : ρ.Twin s t) (handle : ZoneHandle) :
    Done.Beside ρ (·.renumbered ρ.place) (d.detachZone handle s)
      ((d.renumbered ρ.place).detachZone handle t) := by
  refine onZone_beside h handle ?_
  intro i z
  cases left : z.detach d.registry s with | mk fault rest =>
  obtain ⟨w, u⟩ := rest
  obtain ⟨v, there, twin⟩ := Zone.detach_beside h left
  have other : (z.renumbered ρ.place).detach (d.renumbered ρ.place).registry t =
      (fault, w.renumbered ρ.place, v) := there
  have zones : (d.renumbered ρ.place).zones.eraseIdx i =
      (d.zones.eraseIdx i).map (·.renumbered ρ.place) := by
    simp only [renumbered, List.eraseIdx_map]
  simp only [left, other, zones]
  cases fault with
  | some f => exact ⟨rfl, rfl, twin⟩
  | none => exact ⟨rfl, rfl, twin⟩

theorem releaseZones_beside (h : ρ.Twin s t) :
    Like ρ (d.releaseZones s) ((d.renumbered ρ.place).releaseZones t) := by
  refine locked_beside h ?_
  cases left : passOver (Zone.detach d.registry) d.zones s with | mk fault rest =>
  obtain ⟨zones, u⟩ := rest
  obtain ⟨v, there, twin⟩ := passOver_beside (·.renumbered ρ.place) ρ.Twin Zone.detach_beside h left
  have other : passOver (Zone.detach (d.renumbered ρ.place).registry)
      (d.renumbered ρ.place).zones t = (fault, zones.map (·.renumbered ρ.place), v) := there
  simp only [left, other]
  cases fault with
  | some f => exact ⟨rfl, rfl, twin⟩
  | none => exact ⟨rfl, rfl, twin.log _ _⟩

theorem destroy_beside (h : ρ.Twin s t) :
    Like ρ (d.destroy s) ((d.renumbered ρ.place).destroy t) := by
  have stopped := stop_beside (d := d) h
  simp only [destroy]
  generalize d.stop s = x at stopped ⊢
  generalize (d.renumbered ρ.place).stop t = y at stopped ⊢
  obtain ⟨outcome, e, u⟩ := x
  obtain ⟨outcome', e', u'⟩ := y
  obtain ⟨rfl, rfl, twin⟩ := stopped
  cases outcome with
  | error failure => exact ⟨rfl, rfl, twin⟩
  | ok _ => exact releaseZones_beside twin

end Domain

theorem Operation.run_beside [Driver δ] {env : Surroundings} {d : Domain δ} {s t : Shared}
    (h : ρ.Twin s t) (operation : Operation) :
    Like ρ (operation.run env d s) (operation.run env (d.renumbered ρ.place) t) := by
  cases operation with
  | update clear => exact Domain.locked_beside h (Domain.passZones_beside h)
  | updateZone handle clear => exact Domain.changeZone_beside h handle (Zone.pass_beside h)
  | enable handle => exact Domain.changeZone_beside h handle (Zone.enable_beside h)
  | disable handle =>
    simp only [run, Domain.disableZone]
    refine Domain.changeZone_beside h handle ?_
    intro z fault w u done
    cases done
    exact ⟨t, rfl, h⟩
  | start => exact Domain.start_beside h
  | stop => exact Domain.stop_beside h
  | sample =>
    have sampler : (d.renumbered ρ.place).sampler = d.sampler := rfl
    have running : (d.renumbered ρ.place).running = d.running := rfl
    simp only [run, Domain.samplerPass, sampler, running]
    split
    · exact Domain.locked_beside h (Domain.passZones_beside h)
    · exact Done.like h

/-! ### Sites -/

theorem Zone.Bare.renumbered {z : Zone δ} (h : z.Bare) (place : Nat → Nat) :
    z.renumbered place = z := by
  have blocks : z.blocks.map (·.renumbered place) = z.blocks := by
    refine map_fixed fun b member => ?_
    rw [← (h.blocks b member).plain]
    exact b.renumbered_plain place
  simp only [Zone.renumbered, blocks]

theorem registerOne_beside {s s' t : Shared} {r : Nat} {v : Series.Vector}
    {result : Except Rejection Series.Ref} (h : ρ.Twin s t)
    (heeds : v.descriptor.Heeds (ρ.learned r))
    (done : SelfMetrics.registerOne r v s = (result, s')) :
    ∃ t', SelfMetrics.registerOne r v t = (result.map (·.renumbered ρ.place), t') ∧
      ρ.Twin s' t' := by
  cases answer : (s.registry r).register [v.descriptor] [s.store.vectors.length] with
  | mk outcome q =>
  obtain ⟨q', there, twin⟩ := (h.registry r).register (by simpa using heeds) answer
  rw [List.map_singleton, h.store.new] at there
  simp only [SelfMetrics.registerOne, Series.Store.add, answer] at done
  simp only [SelfMetrics.registerOne, Series.Store.add, there]
  cases done
  refine ⟨_, Prod.ext ?_ rfl, (h.stored (h.store.add v)).setRegistry r twin⟩
  cases outcome with
  | error e => rfl
  | ok _ =>
    simp only [Except.map, SelfMetrics.only, Series.Ref.renumbered, h.store.new]

namespace Site

/-- Two sites alike up to the numbers of vectors, whose shared states are twins. -/
structure Beside (ρ : Residue) (s t : Site δ) : Prop where
  shared : ρ.Twin s.shared t.shared
  domains : t.domains = s.domains.map (·.map (·.renumbered ρ.place))
  wrecks : t.wrecks = s.wrecks.map (·.renumbered ρ.place)
  loose : t.loose = s.loose.map (·.map (·.renumbered ρ.place))
  guests : t.guests = s.guests.map (·.renumbered ρ.place)

/-- The descriptors that an action offers, and the registry it offers them to. -/
def offers (action : Action δ) (s : Site δ) : List (Nat × Series.Descriptor) :=
  match action with
  | .attach i k =>
    match s.domain? i, s.loose? k with
    | some d, some z => (z.descriptors d.name).map (d.registry, ·)
    | _, _ => []
  | .alloc i spec =>
    match s.domain? i, Zone.alloc spec with
    | some d, .ok z => (z.descriptors d.name).map (d.registry, ·)
    | _, _ => []
  | .enlist registry vector => [(registry, vector.descriptor)]
  | _ => []

namespace Beside

variable {s t : Site δ}

theorem domain? (h : s.Beside ρ t) (i : Nat) :
    t.domain? i = (s.domain? i).map (·.renumbered ρ.place) := by
  simp only [Site.domain?, h.domains, List.getElem?_map]
  cases s.domains[i]? <;> rfl

theorem loose? (h : s.Beside ρ t) (k : Nat) :
    t.loose? k = (s.loose? k).map (·.renumbered ρ.place) := by
  simp only [Site.loose?, h.loose, List.getElem?_map]
  cases s.loose[k]? <;> rfl

theorem settle {same : α → α} {x y : Done δ α} (h : s.Beside ρ t)
    (each : Done.Beside ρ same x y) (i : Nat) : (s.settle i x).Beside ρ (t.settle i y) := by
  refine ⟨each.shared, ?_, h.wrecks, h.loose, h.guests⟩
  simp only [Site.settle, h.domains, each.domain, List.map_set, Option.map_some]

variable [Driver δ] {env : Surroundings} {action : Action δ} {count : Nat}

theorem perform (h : s.Beside ρ t) (coherent : s.Coherent count)
    (heeds : ∀ offer ∈ s.offers action, offer.2.Heeds (ρ.learned offer.1)) :
    (t.perform env action).1 = (s.perform env action).1 ∧
      (s.perform env action).2.Beside ρ (t.perform env action).2 := by
  cases action with
  | create registry config =>
    have count : t.domains.length = s.domains.length := by rw [h.domains, List.length_map]
    simp only [Site.perform, h.shared.count, count]
    split
    · refine ⟨rfl, h.shared.log _ _, ?_, h.wrecks, h.loose, h.guests⟩
      simp only [h.domains, List.map_append]
      rfl
    · exact ⟨rfl, h⟩
  | make spec =>
    simp only [Site.perform]
    cases made : Zone.alloc spec with
    | error f => exact ⟨rfl, h⟩
    | ok z =>
      refine ⟨rfl, h.shared, h.domains, h.wrecks, ?_, h.guests⟩
      simp only [h.loose, List.map_append, List.map_singleton, Option.map_some,
        (Zone.alloc_bare made).renumbered]
  | attach i k =>
    simp only [Site.perform, h.domain?, h.loose?]
    cases found : s.domain? i with
    | none => exact ⟨rfl, h⟩
    | some d =>
      cases there : s.loose? k with
      | none => exact ⟨rfl, h⟩
      | some z =>
        simp only [offers, found, there] at heeds
        have attached := Domain.attachZone_beside (d := d) env h.shared (coherent.bare k z there)
          fun e member => heeds _ (List.mem_map_of_mem member)
        have settled := h.settle attached i
        simp only [Option.map_some]
        refine ⟨congrArg (Except.map some) attached.same, settled.shared, settled.domains,
          settled.wrecks, ?_, settled.guests⟩
        simp only [h.loose, List.map_set, Option.map_none]
  | alloc i spec =>
    simp only [Site.perform, h.domain?]
    cases found : s.domain? i with
    | none => exact ⟨rfl, h⟩
    | some d =>
      simp only [Option.map_some, Domain.allocZone]
      cases made : Zone.alloc spec with
      | error f => exact ⟨rfl, h.settle (Done.like h.shared) i⟩
      | ok z =>
        simp only [offers, found, made] at heeds
        have bare := Zone.alloc_bare made
        have attached := Domain.attachZone_beside (d := d) env h.shared bare
          fun e member => heeds _ (List.mem_map_of_mem member)
        rw [bare.renumbered] at attached
        exact ⟨congrArg (Except.map some) attached.same, h.settle attached i⟩
  | detach i handle =>
    simp only [Site.perform, h.domain?]
    cases found : s.domain? i with
    | none => exact ⟨rfl, h⟩
    | some d =>
      have detached := Domain.detachZone_beside (d := d) h.shared handle
      have settled := h.settle detached i
      refine ⟨?_, settled.shared, settled.domains, settled.wrecks, ?_, settled.guests⟩
      · simp only [Option.map_some, detached.outcome]
        cases (d.detachZone handle s.shared).outcome <;> rfl
      · simp only [Option.map_some, detached.outcome, h.loose, List.map_append]
        cases (d.detachZone handle s.shared).outcome <;> rfl
  | free i handle =>
    simp only [Site.perform, h.domain?]
    cases found : s.domain? i with
    | none => exact ⟨rfl, h⟩
    | some d =>
      have detached := Domain.detachZone_beside (d := d) h.shared handle
      refine ⟨?_, h.settle detached i⟩
      simp only [Option.map_some, detached.outcome]
      cases (d.detachZone handle s.shared).outcome <;> rfl
  | operate i operation =>
    simp only [Site.perform, h.domain?]
    cases found : s.domain? i with
    | none => exact ⟨rfl, h⟩
    | some d =>
      have done : Like ρ (operation.run env d s.shared)
          (operation.run env (d.renumbered ρ.place) t.shared) := operation.run_beside h.shared
      exact ⟨congrArg (Except.map fun _ => none) done.same, h.settle done i⟩
  | drop i =>
    simp only [Site.perform, h.domain?]
    cases found : s.domain? i with
    | none => exact ⟨rfl, h⟩
    | some d =>
      have gone := Domain.destroy_beside (d := d) h.shared
      simp only [Option.map_some]
      refine ⟨congrArg (Except.map fun _ => none) gone.same, gone.shared, ?_, ?_, h.loose, h.guests⟩
      · simp only [h.domains, List.map_set, Option.map_none]
      · simp only [h.wrecks, List.map_append, remains, gone.same, gone.domain]
        cases (d.destroy s.shared).outcome <;> rfl
  | abandon i =>
    simp only [Site.perform, h.domain?]
    cases found : s.domain? i with
    | none => exact ⟨rfl, h⟩
    | some d =>
      simp only [Option.map_some]
      refine ⟨trivial, h.shared, ?_, ?_, h.loose, h.guests⟩
      · simp only [h.domains, List.map_set, Option.map_none]
      · simp only [h.wrecks, List.map_append]
        rfl
  | enlist registry vector =>
    simp only [Site.perform, h.shared.count]
    split
    · cases answer : SelfMetrics.registerOne registry vector s.shared with | mk result u =>
      obtain ⟨v, there, twin⟩ := registerOne_beside h.shared
        (heeds _ (List.mem_singleton_self _)) answer
      simp only [there]
      cases result with
      | error e => exact ⟨rfl, twin, h.domains, h.wrecks, h.loose, h.guests⟩
      | ok ref =>
        refine ⟨rfl, twin, h.domains, h.wrecks, h.loose, ?_⟩
        simp only [h.guests, List.map_append]
        rfl
    · exact ⟨rfl, h⟩
  | publish k key value =>
    simp only [Site.perform, h.guests, List.getElem?_map]
    cases found : s.guests[k]? with
    | none => exact ⟨rfl, h⟩
    | some g =>
      have set := h.shared.stored (h.shared.store.set ⟨g.vector, key⟩ value)
      simp only [Option.map_some]
      exact ⟨trivial, set, h.domains, h.wrecks, h.loose, rfl⟩

omit [Driver δ] in
theorem offers (h : s.Beside ρ t) (action : Action δ) : t.offers action = s.offers action := by
  have same (d : Domain δ) (z : Zone δ) :
      (z.renumbered ρ.place).descriptors (d.renumbered ρ.place).name = z.descriptors d.name := by
    simp only [Zone.descriptors, Zone.renumbered, List.flatMap_map]
    refine List.flatMap_congr fun b _ => ?_
    simp only [Block.renumbered, List.filterMap_map]
    rfl
  cases action with
  | attach i k =>
    simp only [Site.offers, h.domain?, h.loose?]
    cases s.domain? i with
    | none => rfl
    | some d =>
      cases s.loose? k with
      | none => rfl
      | some z => exact congrArg (List.map (d.registry, ·)) (same d z)
  | alloc i spec =>
    simp only [Site.offers, h.domain?]
    cases s.domain? i with
    | none => rfl
    | some d => cases Zone.alloc spec <;> rfl
  | _ => rfl

end Beside

/-! ### Runs -/

/-- Nothing that a run offers to a registry has other dimensions than the registry has learned. -/
def Heeds [Driver δ] (learned : Nat → String → Option Fingerprint) :
    List (Surroundings × Action δ) → Site δ → Prop
  | [], _ => True
  | (env, action) :: rest, s =>
    (∀ offer ∈ s.offers action, offer.2.Heeds (learned offer.1)) ∧
      Heeds learned rest (s.perform env action).2

theorem Beside.run [Driver δ] {s t : Site δ} {count : Nat} {steps : List (Surroundings × Action δ)}
    (h : s.Beside ρ t) (coherent : s.Coherent count) (heeds : s.Heeds ρ.learned steps) :
    t.outcomes steps = s.outcomes steps ∧ (s.run steps).Beside ρ (t.run steps) := by
  induction steps generalizing s t with
  | nil => exact ⟨rfl, h⟩
  | cons step rest ih =>
    obtain ⟨same, beside⟩ := h.perform coherent heeds.1
    obtain ⟨outcomes, whole⟩ := ih beside (perform_coherent step.2 coherent).1 heeds.2
    exact ⟨congrArg₂ List.cons same outcomes, whole⟩

end Site

end Telemetry
