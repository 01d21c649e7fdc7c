import Telemetry.Proofs.Sequences
import Telemetry.Proofs.Site

/-! What an action can come to. An argument about one step of a run goes through the cases of this
relation, and not through the definition of the step. -/
namespace Telemetry

open Series (Ref)

variable {δ : Type}

def Action.subject (action : Action δ) : Option Nat :=
  match action with
  | .attach i _ | .alloc i _ | .detach i _ | .free i _
  | .operate i _ | .drop i | .abandon i => some i
  | _ => none

def Action.made? (action : Action δ) : Option (ZoneSpec δ) :=
  match action with
  | .make spec | .alloc _ spec => some spec
  | _ => none

namespace Site

variable {s : Site δ} {i j : Nat} {d : Domain δ}

theorem settle_here (found : s.domain? i = some d) (done : Done δ α) :
    (s.settle i done).domain? i = some done.domain := by
  have here := Option.join_eq_some_iff.mp found
  rw [settle, domain?, List.getElem?_set_self (List.getElem?_eq_some_iff.mp here).1]
  rfl

theorem settle_other (other : i ≠ j) (done : Done δ α) :
    (s.settle i done).domain? j = s.domain? j := by
  rw [settle, domain?, List.getElem?_set_ne other, domain?]

theorem settle_same (found : s.domain? i = some d) (outcome : Outcome α) (t : Shared) :
    s.settle i ⟨outcome, d, t⟩ = { s with shared := t } := by
  obtain ⟨whole, changed⟩ := split_at (Option.join_eq_some_iff.mp found)
  have domains : s.domains.set i (some d) = s.domains := by
    rw [changed]
    exact whole.symm
  simp only [settle, domains]

variable [Driver δ]

/-- What an action can come to. It comes to nothing if what it is about is not there, and to place a
new zone is to attach it, if it can be allocated. -/
inductive Does (env : Surroundings) (s : Site δ) :
    Action δ → Outcome (Option ZoneHandle) × Site δ → Prop
  | unknown {action : Action δ} {i : Nat} (about : action.subject = some i)
      (absent : s.domain? i = none) : Does env s action (.ok none, s)
  | vacant {i k : Nat} (absent : s.loose? k = none) : Does env s (.attach i k) (.ok none, s)
  | strays {action : Action δ} (apart : action.subject = none) : Does env s action (.ok none, s)
  | fails {action : Action δ} {spec : ZoneSpec δ} {f : Fault} (kind : action.made? = some spec)
      (made : Zone.alloc spec = .error f) : Does env s action (.error (.fault f), s)
  | creates {registry : Nat} {config : DomainConfig}
      (present : registry < s.shared.registries.length) :
      Does env s (.create registry config) (.ok none, { s with
        domains := s.domains ++
          [some (Domain.create (s.domains.length + 1) registry config s.shared).1]
        shared := (Domain.create (δ := δ) (s.domains.length + 1) registry config s.shared).2 })
  | makes {spec : ZoneSpec δ} {z : Zone δ} (made : Zone.alloc spec = .ok z) :
      Does env s (.make spec) (.ok none, { s with loose := s.loose ++ [some z] })
  | attaches {i k : Nat} {d : Domain δ} {z : Zone δ} (found : s.domain? i = some d)
      (held : s.loose? k = some z) :
      Does env s (.attach i k) ((d.attachZone env z s.shared).outcome.map some,
        { s.settle i (d.attachZone env z s.shared) with loose := s.loose.set k none })
  | places {i : Nat} {spec : ZoneSpec δ} {d : Domain δ} {z : Zone δ} (found : s.domain? i = some d)
      (made : Zone.alloc spec = .ok z) :
      Does env s (.alloc i spec) ((d.attachZone env z s.shared).outcome.map some,
        s.settle i (d.attachZone env z s.shared))
  | detaches {i : Nat} {handle : ZoneHandle} {d : Domain δ} (found : s.domain? i = some d) :
      Does env s (.detach i handle) ((d.detachZone handle s.shared).outcome.map fun _ => none,
        { s.settle i (d.detachZone handle s.shared) with
          loose := s.loose ++ [(d.detachZone handle s.shared).outcome.toOption] })
  | frees {i : Nat} {handle : ZoneHandle} {d : Domain δ} (found : s.domain? i = some d) :
      Does env s (.free i handle) ((d.detachZone handle s.shared).outcome.map fun _ => none,
        s.settle i (d.detachZone handle s.shared))
  | operates {i : Nat} {operation : Operation} {d : Domain δ} (found : s.domain? i = some d) :
      Does env s (.operate i operation) ((operation.run env d s.shared).outcome.map fun _ => none,
        s.settle i (operation.run env d s.shared))
  | drops {i : Nat} {d : Domain δ} (found : s.domain? i = some d) :
      Does env s (.drop i) ((d.destroy s.shared).outcome.map fun _ => none, { s with
        domains := s.domains.set i none
        shared := (d.destroy s.shared).shared
        wrecks := s.wrecks ++ remains (d.destroy s.shared) })
  | abandons {i : Nat} {d : Domain δ} (found : s.domain? i = some d) :
      Does env s (.abandon i) (.ok none, { s with
        domains := s.domains.set i none
        wrecks := s.wrecks ++ [{ d with running := false }] })
  | refuses {registry : Nat} {vector : Series.Vector} {e : Series.Rejection} {t : Shared}
      (present : registry < s.shared.registries.length)
      (answer : SelfMetrics.registerOne registry vector s.shared = (.error e, t)) :
      Does env s (.enlist registry vector)
        (.error (.refused ⟨vector.descriptor.name, e⟩), { s with shared := t })
  | enlists {registry : Nat} {vector : Series.Vector} {ref : Ref} {t : Shared}
      (present : registry < s.shared.registries.length)
      (answer : SelfMetrics.registerOne registry vector s.shared = (.ok ref, t)) :
      Does env s (.enlist registry vector) (.ok none, { s with
        shared := t
        guests := s.guests ++ [⟨registry, ref.vector, vector.descriptor.identity⟩] })
  | publishes {k : Nat} {key : Fingerprint} {value : Binary64} {g : Guest}
      (present : s.guests[k]? = some g) :
      Does env s (.publish k key value)
        (.ok none, { s with shared.store := s.shared.store.set ⟨g.vector, key⟩ value })

theorem does (s : Site δ) (env : Surroundings) (action : Action δ) :
    s.Does env action (s.perform env action) := by
  cases action with
  | create registry config =>
    simp only [perform]
    split
    · exact .creates ‹_›
    · exact .strays rfl
  | make spec =>
    simp only [perform]
    split
    · exact .fails rfl ‹_›
    · exact .makes ‹_›
  | attach i k =>
    cases found : s.domain? i with
    | none =>
      simp only [perform, found]
      exact .unknown rfl found
    | some d =>
      cases held : s.loose? k with
      | none =>
        simp only [perform, found, held]
        exact .vacant held
      | some z =>
        simp only [perform, found, held]
        exact .attaches found held
  | alloc i spec =>
    simp only [perform]
    split
    · rename_i d found
      cases made : Zone.alloc spec with
      | error f =>
        rw [Domain.allocZone, made, settle_same found]
        exact .fails rfl made
      | ok z =>
        rw [Domain.allocZone, made]
        exact .places found made
    · exact .unknown rfl ‹_›
  | detach i handle =>
    simp only [perform]
    split
    · exact .detaches ‹_›
    · exact .unknown rfl ‹_›
  | free i handle =>
    simp only [perform]
    split
    · exact .frees ‹_›
    · exact .unknown rfl ‹_›
  | operate i operation =>
    simp only [perform]
    split
    · exact .operates ‹_›
    · exact .unknown rfl ‹_›
  | drop i =>
    simp only [perform]
    split
    · exact .drops ‹_›
    · exact .unknown rfl ‹_›
  | abandon i =>
    simp only [perform]
    split
    · exact .abandons ‹_›
    · exact .unknown rfl ‹_›
  | enlist registry vector =>
    simp only [perform]
    split
    · rename_i present
      split
      · exact .refuses present ‹_›
      · exact .enlists present ‹_›
    · exact .strays rfl
  | publish k key value =>
    simp only [perform]
    split
    · exact .publishes ‹_›
    · exact .strays rfl

variable {env : Surroundings} {action : Action δ} {k : Nat} {z : Zone δ}

theorem perform_apart (s : Site δ) (env : Surroundings)
    (apart : action.subject = some i → s.domain? i = none) :
    (s.perform env action).2.domain? i = s.domain? i ∨ i = s.domains.length ∧
      ∃ registry config, (s.perform env action).2.domain? i =
        some (Domain.create (i + 1) registry config s.shared).1 := by
  have other {j : Nat} {d : Domain δ} (found : s.domain? j = some d)
      (about : action.subject = some j) : j ≠ i := by
    rintro rfl
    cases (apart about).symm.trans found
  have ended {j : Nat} (different : j ≠ i) : ((s.domains.set j none)[i]?).join = s.domain? i := by
    rw [List.getElem?_set_ne different, domain?]
  have does := s.does env action
  generalize s.perform env action = done at does ⊢
  cases does with
  | @creates registry config present =>
    rcases Nat.lt_trichotomy i s.domains.length with below | rfl | beyond
    · refine .inl ?_
      rw [domain?, List.getElem?_append_left below, domain?]
    · refine .inr ⟨rfl, registry, config, ?_⟩
      rw [domain?, List.getElem?_concat_length, Option.join_some]
    · refine .inl ?_
      have old : s.domains[i]? = none := List.getElem?_eq_none (Nat.le_of_lt beyond)
      rw [domain?, domain?, old, List.getElem?_append_right (Nat.le_of_lt beyond),
        List.getElem?_singleton, if_neg (Nat.sub_ne_zero_of_lt beyond)]
  | attaches found | places found | detaches found | frees found | operates found =>
    exact .inl (settle_other (other found rfl) _)
  | drops found | abandons found => exact .inl (ended (other found rfl))
  | _ => exact .inl rfl

theorem perform_elsewhere (other : action.subject ≠ some i) (found : s.domain? i = some d) :
    (s.perform env action).2.domain? i = some d := by
  rcases s.perform_apart env fun about => absurd about other with same | ⟨rfl, -⟩
  · exact same.trans found
  · simp [domain?] at found

theorem perform_domains (env : Surroundings) (action : Action δ) (s : Site δ) :
    s.domains.length ≤ (s.perform env action).2.domains.length := by
  have does := s.does env action
  generalize s.perform env action = done at does ⊢
  cases does with
  | creates present =>
    rw [List.length_append]
    exact Nat.le_add_right _ _
  | _ => simp [settle]

theorem perform_loose (other : ∀ i, action ≠ .attach i k) (held : s.loose? k = some z) :
    (s.perform env action).2.loose? k = some z := by
  have here := Option.join_eq_some_iff.mp held
  have longer (y : Option (Zone δ)) : ((s.loose ++ [y])[k]?).join = some z := by
    rw [List.getElem?_append_left (List.getElem?_eq_some_iff.mp here).1]
    exact held
  have does := s.does env action
  generalize s.perform env action = done at does ⊢
  cases does with
  | makes | detaches => exact longer _
  | @attaches i j d y found taken =>
    have different : j ≠ k := fun same => other i (congrArg (Action.attach i) same)
    rw [loose?, List.getElem?_set_ne different]
    exact held
  | _ => exact held

end Site

end Telemetry
