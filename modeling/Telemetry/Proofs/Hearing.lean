import Telemetry.Proofs.AllOrNothing

/-! What the sources of computed labels hear. An attachment asks them for values, a rollback and a
detachment give values back, and nothing else that is done with a domain reaches them. -/
namespace Telemetry

open Shared (events_emit)

def Event.unheard : Event → Bool
  | .resolved _ _ | .released _ _ => false
  | .record _ _ | .hook _ => true

theorem Event.filter_unheard {events : List Event} (unheard : ∀ e ∈ events, e.unheard = true) :
    events.filter isResolved = [] ∧ events.filter isReleased = [] := by
  constructor
  all_goals
    rw [List.filter_eq_nil_iff]
    intro e member
    have quiet := unheard e member
    cases e with
    | resolved | released => cases quiet
    | record | hook => exact Bool.false_ne_true

theorem Event.unheard_hooks (lines : List String) : ∀ e ∈ lines.map hook, e.unheard = true := by
  intro e member
  obtain ⟨line, -, rfl⟩ := List.mem_map.mp member
  rfl

theorem Event.unheard_told (level : Level) (message : String) (lines : List String) :
    ∀ e ∈ record level message :: lines.map hook, e.unheard = true :=
  List.forall_mem_cons.mpr ⟨rfl, unheard_hooks lines⟩

/-- From one state to the next, sources are asked for the values `taken`, in this order, and get the
values `given` back. -/
def Shared.Heard (s t : Shared) (taken given : List Computed) : Prop :=
  ∃ events, t.events = s.events ++ events ∧
    events.filter Event.isResolved = taken.map Computed.resolved ∧
    (events.filter Event.isReleased).Perm (given.flatMap Computed.released)

namespace Shared.Heard

variable {s t u : Shared} {taken given more back cs : List Computed} {events : List Event}

theorem of_events (same : t.events = s.events) : s.Heard t [] [] :=
  ⟨[], by rw [same, List.append_nil], rfl, .nil⟩

theorem refl (s : Shared) : s.Heard s [] [] := of_events rfl

theorem trans (first : s.Heard t taken given) (second : t.Heard u more back) :
    s.Heard u (taken ++ more) (given ++ back) := by
  obtain ⟨xs, said, asked, returned⟩ := first
  obtain ⟨ys, later, others, rest⟩ := second
  refine ⟨xs ++ ys, by rw [later, said, List.append_assoc], ?_, ?_⟩
  · rw [List.filter_append, asked, others, List.map_append]
  · rw [List.filter_append, List.flatMap_append]
    exact returned.append rest

theorem quiet (said : t.events = s.events ++ events) (unheard : ∀ e ∈ events, e.unheard = true) :
    s.Heard t [] [] := by
  obtain ⟨asked, returned⟩ := Event.filter_unheard unheard
  exact ⟨events, said, asked, .of_eq returned⟩

theorem resolving (said : t.events = s.events ++ cs.map Computed.resolved) : s.Heard t cs [] :=
  ⟨_, said, Computed.filter_resolved cs, .of_eq (Computed.filter_resolved_released cs)⟩

theorem releasing (said : t.events = s.events ++ cs.flatMap Computed.released) :
    s.Heard t [] cs := by
  have same : ∀ e ∈ cs.flatMap Computed.released, e ∈ cs.flatMap Computed.released := fun _ => id
  obtain ⟨asked, returned, -⟩ := Computed.givenBack same
  exact ⟨_, said, asked, .of_eq returned⟩

theorem hooks (s : Shared) (lines : List String) : s.Heard (s.hooks lines) [] [] :=
  quiet (events_emit s _) (Event.unheard_hooks lines)

theorem notes (h : s.Notes t) : s.Heard t [] [] := by
  obtain ⟨records, rfl⟩ := h
  refine quiet (events_emit s _) fun e member => ?_
  obtain ⟨record, -, rfl⟩ := List.mem_map.mp member
  rfl

theorem log (s : Shared) (level : Level) (message : String) : s.Heard (s.log level message) [] [] :=
  notes (.log s level message)

theorem count (h : s.Heard t taken given) :
    t.events.countP Event.isResolved = s.events.countP Event.isResolved + taken.length := by
  obtain ⟨events, said, asked, -⟩ := h
  rw [said, List.countP_append, List.countP_eq_length_filter (l := events), asked, List.length_map]

end Shared.Heard

variable {δ : Type} [Driver δ] {env : Surroundings} {clear : Bool} {s t : Shared}

/-! ### Passes -/

namespace Block

theorem publish_heard (spec : MetricSpec) (e : Element) (p : PassState δ) :
    p.shared.Heard (publish spec e p).2.shared [] [] := by
  have told := Shared.Heard.hooks p.shared
    (Driver.ask p.driver (Driver.convert spec e.value p.scratch) (.ofWord e.value)).lines
  unfold publish
  split <;> exact told

theorem applySamples_heard (spec : MetricSpec) (mask : UInt64) (es : List Element)
    (values : List UInt64) (p : PassState δ) :
    p.shared.Heard (applySamples spec mask clear es values p).2.shared [] [] := by
  induction es generalizing values p with
  | nil => exact .refl _
  | cons e es ih =>
    cases values with
    | nil => exact .refl _
    | cons x values => exact (publish_heard spec _ p).trans (ih values _)

theorem sampleMetric_heard (env : Surroundings) (clear : Bool) (name : String)
    (window : Option Nat) (m : Metric) (p : PassState δ) :
    p.shared.Heard (sampleMetric env name window clear m p).2.shared [] [] := by
  have read : p.shared.Heard (readMetric env name window m p).2.shared [] [] := by
    simp only [readMetric]
    split <;> exact .hooks _ _
  unfold sampleMetric
  split
  all_goals
    rename_i here
    rw [here] at read
  · exact read
  · exact read.trans (applySamples_heard _ _ _ _ _)

theorem pass_heard (b : Block δ) (s : Shared) : s.Heard (b.pass env clear s).2.2 [] [] := by
  have start : s.Heard (b.latched clear s).shared [] [] :=
    (Shared.Heard.log s _ _).trans (.hooks _ _)
  have swept := sweep_in_place (sampleMetric env b.name b.window clear)
    (fun _ p => s.Heard p.shared [] [])
    (fun _ m _ p f p' held here => by
      have told := sampleMetric_heard env clear b.name b.window m p
      rw [here] at told
      exact held.trans told)
    (fun _ m _ p n p' held here => by
      have told := sampleMetric_heard env clear b.name b.window m p
      rw [here] at told
      exact held.trans told)
    [] b.metrics (b.latched clear s) start
  rw [pass_eq]
  split
  all_goals
    rename_i here
    rw [here] at swept
  · exact swept
  · exact swept.trans (.hooks _ _)

end Block

theorem passOver_heard {step : α → Shared → Option Fault × α × Shared}
    (each : ∀ a (s : Shared), s.Heard (step a s).2.2 [] []) (as : List α) (s : Shared) :
    s.Heard (passOver step as s).2.2 [] [] :=
  passOver_in_place step (fun _ t => s.Heard t [] []) (fun _ a _ t held => held.trans (each a t))
    [] as s (.refl s)

theorem Zone.pass_heard (z : Zone δ) (s : Shared) : s.Heard (z.pass env clear s).2.2 [] [] := by
  unfold pass
  split
  · exact passOver_heard Block.pass_heard z.blocks s
  · exact .refl s

theorem Treatment.run_heard (treatment : Treatment) (z : Zone δ) (s : Shared) :
    s.Heard (treatment.run env z s).2.2 [] [] := by
  cases treatment with
  | pass clear => exact z.pass_heard s
  | enable clear =>
    simp only [run, Zone.enable]
    split
    · exact Zone.pass_heard _ s
    · exact .refl s
  | disable => exact .refl s

theorem Effect.run_heard (effect : Effect) (zones : List (Zone δ)) (s : Shared) :
    s.Heard (effect.run env zones s).2.2 [] [] := by
  cases effect with
  | nothing => exact .refl s
  | everywhere clear => exact passOver_heard Zone.pass_heard zones s
  | one handle treatment =>
    simp only [run]
    split
    · exact .refl s
    · exact treatment.run_heard _ s

theorem Operation.run_heard (operation : Operation) (d : Domain δ) (s : Shared) :
    s.Heard (operation.run env d s).shared [] [] :=
  ((operation.effect d).run_heard d.zones s).trans (.notes (operation.run_becomes env d s).shared)

/-! ### Attachments -/

namespace Zone

def computations (env : Surroundings) (domain : String) (z : Zone δ) : List Computed :=
  z.blocks.flatMap (Block.computations env domain z.name)

def held (z : Zone δ) : List Computed := z.blocks.flatMap Block.held

variable {domain : String} {z w : Zone δ}

theorem Attaches.heard {r : Nat} {handle : ZoneHandle} {u v : Shared} {ps : List (Block δ)}
    (h : Attaches env domain r handle z s ps u v w t) : s.Heard t (z.computations env domain) [] := by
  have asked : s.Heard v (z.computations env domain) [] :=
    .resolving (by rw [h.silent, h.prepared, computations])
  have told : v.Heard t [] [] := by
    refine .quiet (by rw [h.told, events_emit]) fun e member => ?_
    rcases List.mem_append.mp member with introduced | arrived
    · obtain ⟨p, -, own⟩ := List.mem_flatMap.mp introduced
      exact Event.unheard_told _ _ _ e own
    · rw [List.mem_singleton.mp arrived]
      rfl
  simpa using asked.trans told

theorem Attaches.held {r : Nat} {handle : ZoneHandle} {u v : Shared} {ps : List (Block δ)}
    (h : Attaches env domain r handle z s ps u v w t) : w.held = z.computations env domain := by
  have same : w.held = ps.flatMap Block.held := by
    rw [h.zone, Zone.held, List.flatMap_map]
    rfl
  rw [same, h.batch.held, computations]

omit [Driver δ] in
theorem Restores.heard (h : Restores env domain z s w t) :
    s.Heard t (z.attempted env domain s) (z.attempted env domain s) := by
  obtain ⟨events, said, -, asked, returned⟩ := h.said
  exact ⟨events, said, asked, returned⟩

end Zone

/-! ### Detachments -/

omit [Driver δ] in
theorem Block.unregister_journal (r : Nat) (b : Block δ) (s : Shared) :
    (b.unregister r s).2.journal = s.journal := by
  unfold unregister
  split
  · rfl
  · rename_i c _
    have quiet : (c.unregister r s).2.journal = s.journal := by
      simp only [Collector.unregister]
      split
      · rfl
      · split <;> rfl
    split
    all_goals
      rename_i here
      rw [here] at quiet
      exact quiet

theorem Block.detach_heard {r : Nat} {b c : Block δ} (done : b.detach r s = (none, c, t)) :
    s.Heard t [] b.held := by
  have journal := b.dismissed.unregister_journal r (s.emit b.dismissal)
  rw [detach_eq] at done
  split at done
  · cases done
  · rename_i u out
    cases done
    rw [out] at journal
    have dismissed : s.Heard u [] [] := by
      have said : u.events = s.events ++ b.dismissal := by
        rw [Shared.events, journal]
        exact events_emit s _
      exact .quiet said (Event.unheard_told _ _ _)
    exact dismissed.trans (.releasing (b.released_held ▸ events_emit u _))

theorem passOver_released {step : α → Shared → Option Fault × α × Shared} {f : α → List Computed}
    {as bs : List α}
    (each : ∀ a (s : Shared) b t, step a s = (none, b, t) → s.Heard t [] (f a))
    (done : passOver step as s = (none, bs, t)) : s.Heard t [] (as.flatMap f) := by
  induction as generalizing s bs with
  | nil =>
    cases done
    exact .refl _
  | cons a as ih =>
    unfold passOver at done
    split at done
    · cases done
    · rename_i b u here
      cases later : passOver step as u with | mk fault rest =>
      simp only [later] at done
      cases done
      exact (each a s b u here).trans (ih later)

theorem Zone.detach_heard {r : Nat} {z w : Zone δ} (done : z.detach r s = (none, w, t)) :
    s.Heard t [] z.held := by
  unfold detach at done
  split at done
  · cases done
  · rename_i out
    cases done
    have given := passOver_released (f := Block.held)
      (fun _ _ _ _ here => Block.detach_heard here) out
    simpa [held] using given.trans (.log _ _ _)

namespace Domain

def held (d : Domain δ) : List Computed := d.zones.flatMap Zone.held

variable {d : Domain δ} {count : Nat} {rest : List (Mount δ)} {guests : List Guest}

/-- A domain that ends well gives back all that its zones have. -/
theorem destroy_heard (mirror : Mirror count (d.mounts ++ rest) guests s) :
    match (d.destroy s).outcome with
    | .ok _ => s.Heard (d.destroy s).shared [] d.held
    | .error _ => s.Heard (d.destroy s).shared [] [] := by
  have becomes := stop_becomes d s
  unfold destroy
  cases done : d.stop s with | mk outcome e t =>
  rw [done] at becomes
  have noted : s.Heard t [] [] := .notes becomes.shared
  cases outcome with
  | error f => exact noted
  | ok _ =>
    simp only [releaseZones]
    cases poisoned : e.treePoisoned with
    | true =>
      rw [locked_poisoned poisoned]
      exact noted
    | false =>
      have stopped : Mirror count (e.mounts ++ rest) guests t := Mirror.becomes becomes mirror
      obtain ⟨u, released, -⟩ := stopped.detachZones
      simp only [locked, poisoned, Bool.false_eq_true, if_false, released]
      have given := passOver_released (f := Zone.held)
        (fun _ _ _ _ here => Zone.detach_heard here) released
      have same : e.zones.flatMap Zone.held = d.held := by
        rw [becomes.zones, held]
      rw [same] at given
      simpa using noted.trans (given.trans (.log u _ _))

end Domain

end Telemetry
