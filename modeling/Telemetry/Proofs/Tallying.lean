import Mathlib.Algebra.Order.Group.Multiset
import Mathlib.Tactic.Abel
import Telemetry.Block.Stock
import Telemetry.Proofs.Handles
import Telemetry.Proofs.Hearing
import Telemetry.Proofs.Registered

/-! The accounts of label sources. Every value that a source has computed is on an attached metric,
or has been given back, unless a fault cut the attachment short that asked for it: then nobody has
it any more. What an attachment takes is what its detachment gives back. -/
namespace Telemetry

variable {δ : Type}

/-- What passes between the sources of labels and a site: values taken, values given back, and those
taken that nobody will give back. -/
structure Deal where
  taken : List Computed
  given : List Computed
  lost : List Computed

namespace Deal

def nothing : Deal := ⟨[], [], []⟩

def append (first second : Deal) : Deal :=
  ⟨first.taken ++ second.taken, first.given ++ second.given, first.lost ++ second.lost⟩

/-- The sources hear of the deal, and it accounts for what was outstanding before and is now. -/
structure Settles (deal : Deal) (before after : List Computed) (s t : Shared) : Prop where
  heard : s.Heard t deal.taken deal.given
  balance : (before + deal.taken : Multiset Computed) = after + deal.given + deal.lost

variable {deal more : Deal} {xs ys zs xs' ys' : List Computed} {s t u : Shared}

theorem Settles.nothing (heard : s.Heard t [] []) : Deal.nothing.Settles xs xs s t :=
  ⟨heard, by simp [Deal.nothing]⟩

theorem Settles.append (first : deal.Settles xs ys s t) (second : more.Settles ys zs t u) :
    (deal.append more).Settles xs zs s u := by
  refine ⟨first.heard.trans second.heard, ?_⟩
  simp only [Deal.append, ← Multiset.coe_add]
  calc (xs + (deal.taken + more.taken) : Multiset Computed)
      = xs + deal.taken + more.taken := by abel
    _ = ys + more.taken + deal.given + deal.lost := by rw [first.balance]; abel
    _ = zs + (deal.given + more.given) + (deal.lost + more.lost) := by rw [second.balance]; abel

theorem Settles.beside (h : deal.Settles xs ys s t) (rest : List Computed)
    (before : xs'.Perm (xs ++ rest)) (after : ys'.Perm (ys ++ rest)) :
    deal.Settles xs' ys' s t := by
  refine ⟨h.heard, ?_⟩
  rw [Multiset.coe_eq_coe.mpr before, Multiset.coe_eq_coe.mpr after, ← Multiset.coe_add,
    ← Multiset.coe_add]
  calc (xs + rest + deal.taken : Multiset Computed)
      = xs + deal.taken + rest := by abel
    _ = ys + rest + deal.given + deal.lost := by rw [h.balance]; abel

end Deal

/-! ### What is outstanding -/

def Mount.held (x : Mount δ) : List Computed := x.block.held

def Site.held (s : Site δ) : List Computed := s.mounts.flatMap Mount.held

theorem Domain.mounts_held (d : Domain δ) : d.mounts.flatMap Mount.held = d.held := by
  rw [mounts, List.flatMap_assoc]
  refine List.flatMap_congr fun z _ => ?_
  rw [Zone.mounts, List.flatMap_map]
  rfl

theorem Site.held_eq (s : Site δ) : s.held = s.holders.flatMap Domain.held := by
  rw [held, mounts, List.flatMap_assoc]
  exact List.flatMap_congr fun d _ => d.mounts_held

variable [Driver δ] {env : Surroundings}

theorem Block.sampleMetric_held {name : String} {window : Option Nat} {clear : Bool} {m n : Metric}
    {s t : PassState δ} (done : sampleMetric env name window clear m s = (.ok n, t)) :
    n.held = m.held := by
  simp only [sampleMetric] at done
  split at done
  · cases done
  · cases done
    rfl

theorem Block.pass_held {b c : Block δ} {clear : Bool} {s t : Shared} {fault : Option Fault}
    (done : b.pass env clear s = (fault, c, t)) : c.held = b.held := by
  have visited := pass_visited (R := fun m n : Metric => n.held = m.held)
    (fun m u n v _ here => sampleMetric_held here) done
  rw [held, held]
  refine (forall₂_flatMap_eq (visited.metrics.imp ?_)).symm
  rintro m n (sampled | ⟨-, rfl⟩)
  · exact sampled.symm
  · rfl

namespace Zone

variable {z w : Zone δ}

theorem treated_held (treatment : Treatment) (env : Surroundings) (z : Zone δ) (s : Shared) :
    (treatment.run env z s).2.1.held = z.held := by
  cases done : treatment.run env z s with | mk fault rest =>
  obtain ⟨-, -, blocks⟩ := Treatment.run_each done
  refine (forall₂_flatMap_eq (blocks.imp ?_)).symm
  rintro b c (rfl | ⟨clear, u, f, v, passed, -⟩)
  · rfl
  · exact (Block.pass_held passed).symm

theorem Continues.held (h : z.Continues w) : w.held = z.held := by
  induction h with
  | same => rfl
  | treated env treatment s _ ih => rw [treated_held, ih]

end Zone

namespace Domain

variable {d e : Domain δ} {s t : Shared} {z w : Zone δ} {handle : ZoneHandle}

theorem Becomes.held {effect : Effect} (h : d.Becomes (effect.run env d.zones s) e t) :
    e.held = d.held := by
  rw [Domain.held, Domain.held, h.zones]
  refine (forall₂_flatMap_eq ((effect.run_continues env d.zones s).imp ?_)).symm
  rintro z w ⟨-, continues⟩
  exact continues.held.symm

/-! ### Deals -/

/-- The deal of an attempt to attach a zone. A refusal gives back what it took. Of what a fault
leaves, the journal tells how far it came. -/
def tried (env : Surroundings) (z : Zone δ) (d : Domain δ) (s : Shared) : Deal :=
  let done := d.attachZone env z s
  match done.outcome with
  | .ok _ => ⟨z.computations env d.name, [], []⟩
  | .error (.refused _) => ⟨z.attempted env d.name s, z.attempted env d.name s, []⟩
  | .error (.fault _) =>
    let asked := done.shared.events.countP Event.isResolved - s.events.countP Event.isResolved
    let taken := (z.attempted env d.name s).take asked
    ⟨taken, [], taken⟩

theorem tried_settles (bare : z.Bare) (present : d.registry < s.registries.length) :
    (d.tried env z s).Settles d.held (d.attachZone env z s).domain.held s
        (d.attachZone env z s).shared ∧
      ((∀ f, (d.attachZone env z s).outcome = .error (.fault f) → f.unlabelled = false) →
        (d.tried env z s).lost = []) := by
  rcases attachZone_cases env bare present with
    answer | ⟨f, t, answer, unlabelled, breaks⟩ | ⟨refusal, w, t, answer, -, restores⟩ |
    ⟨ps, u, v, w, t, answer, -, attaches⟩
  · have nothing : d.tried env z s = .nothing := by
      simp only [tried, answer, Nat.sub_self, List.take_zero]
      rfl
    rw [nothing, answer]
    exact ⟨.nothing (.refl s), fun _ => rfl⟩
  · obtain ⟨cs, front, said⟩ := breaks.journal
    have heard : s.Heard t cs [] := .resolving said
    have asked : (d.tried env z s) = ⟨cs, [], cs⟩ := by
      have taken : (z.attempted env d.name s).take cs.length = cs :=
        (List.prefix_iff_eq_take.mp front).symm
      simp only [tried, answer, heard.count, Nat.add_sub_cancel_left, taken]
    rw [asked, answer]
    refine ⟨⟨heard, by simp [held]⟩, fun sound => ?_⟩
    rw [sound f rfl] at unlabelled
    cases unlabelled
  · have refused : d.tried env z s =
        ⟨z.attempted env d.name s, z.attempted env d.name s, []⟩ := by
      simp only [tried, answer]
    rw [refused, answer]
    exact ⟨⟨restores.heard, by simp⟩, fun _ => rfl⟩
  · have attached : d.tried env z s = ⟨z.computations env d.name, [], []⟩ := by
      simp only [tried, answer]
    have joined : ({ d with
        nextZone := d.nextZone + 1
        valueCount := d.valueCount + w.valueCount
        zones := d.zones ++ [w] } : Domain δ).held = d.held ++ z.computations env d.name := by
      simp only [held, List.flatMap_append, List.flatMap_singleton, attaches.held]
    rw [attached, answer]
    exact ⟨⟨attaches.heard, by simp [joined]⟩, fun _ => rfl⟩

theorem attachZone_held (numbered : d.Numbered) (bare : z.Bare)
    (present : d.registry < s.registries.length)
    (done : (d.attachZone env z s).outcome = .ok handle) :
    ∃ w, (d.attachZone env z s).domain.kept? handle = some w ∧
      w.held = z.computations env d.name := by
  rcases attachZone_cases env bare present with
    answer | ⟨f, t, answer, -⟩ | ⟨refusal, x, t, answer, -⟩ |
    ⟨ps, u, v, w, t, answer, -, attaches⟩
  all_goals
    rw [answer] at done ⊢
    cases done
  have known : w.handle = some ⟨d.id, d.nextZone⟩ := congrArg Zone.handle attaches.zone
  exact ⟨w, numbered.find?_joined known, attaches.held⟩

def returned (handle : ZoneHandle) (d : Domain δ) (s : Shared) : Deal :=
  match (d.detachZone handle s).outcome with
  | .ok _ => ⟨[], (d.kept? handle).toList.flatMap Zone.held, []⟩
  | .error _ => .nothing

theorem returned_settles {count : Nat} {rest : List (Mount δ)} {guests : List Guest}
    (mirror : Mirror count (d.mounts ++ rest) guests s) (handle : ZoneHandle) :
    (d.returned handle s).Settles d.held (d.detachZone handle s).domain.held s
      (d.detachZone handle s).shared := by
  rcases mirror.detach_cases handle with
    ⟨f, -, answer⟩ | ⟨n, z, t, -, placed, there, answer, -, out⟩
  · rw [returned, answer]
    exact .nothing (.refl s)
  · have heard : s.Heard t [] z.held := Zone.detach_heard out
    have given : d.returned handle s = ⟨[], z.held, []⟩ := by
      simp [returned, answer, kept?_placed placed there]
    rw [given, answer]
    refine ⟨heard, ?_⟩
    have split : d.held.Perm (z.held ++ (d.zones.eraseIdx n).flatMap Zone.held) :=
      flatMap_eraseIdx _ there
    have whole := split.trans List.perm_append_comm
    simpa [held] using Multiset.coe_eq_coe.mpr whole

def surrendered (d : Domain δ) (s : Shared) : Deal :=
  match (d.destroy s).outcome with
  | .ok _ => ⟨[], d.held, []⟩
  | .error _ => .nothing

theorem surrendered_settles {count : Nat} {rest : List (Mount δ)} {guests : List Guest}
    (mirror : Mirror count (d.mounts ++ rest) guests s) :
    (d.surrendered s).Settles d.held ((Site.remains (d.destroy s)).flatMap Domain.held) s
      (d.destroy s).shared := by
  have heard := destroy_heard mirror
  have left (e : Domain δ) (member : e ∈ Site.remains (d.destroy s)) :
      e.held = d.held := by
    obtain ⟨-, zones, -⟩ := destroy_remains mirror member
    rw [held, held, zones]
  cases done : d.destroy s with | mk outcome e t =>
  rw [done] at heard left
  cases outcome with
  | ok _ =>
    simp only [surrendered, done]
    exact ⟨heard, by simp [Site.remains]⟩
  | error f =>
    simp only [surrendered, done, Site.remains, List.flatMap_singleton]
    rw [left e (List.mem_singleton_self e)]
    exact .nothing heard

end Domain

namespace Site

variable {s : Site δ} {count i : Nat} {d : Domain δ} {dealt : Deal}

/-- What an action comes to for the sources. -/
def deal (env : Surroundings) (action : Action δ) (s : Site δ) : Deal :=
  match action with
  | .attach i k =>
    match s.domain? i, s.loose? k with
    | some d, some z => d.tried env z s.shared
    | _, _ => .nothing
  | .alloc i spec =>
    match s.domain? i, Zone.alloc spec with
    | some d, .ok z => d.tried env z s.shared
    | _, _ => .nothing
  | .detach i handle | .free i handle =>
    match s.domain? i with
    | some d => d.returned handle s.shared
    | none => .nothing
  | .drop i =>
    match s.domain? i with
    | some d => d.surrendered s.shared
    | none => .nothing
  | _ => .nothing

def deals : List (Surroundings × Action δ) → Site δ → Deal
  | [], _ => .nothing
  | (env, action) :: rest, s => (s.deal env action).append (deals rest (s.perform env action).2)

omit [Driver δ] in
theorem settle_settles {α : Type} {done : Done δ α} (found : s.domain? i = some d)
    (h : dealt.Settles d.held done.domain.held s.shared done.shared) :
    dealt.Settles s.held (s.settle i done).held s.shared done.shared := by
  obtain ⟨others, front, settled, -⟩ := holders_split found
  refine h.beside (others.flatMap Domain.held) ?_ ?_
  · rw [held_eq]
    exact front.flatMap_right _
  · rw [held_eq]
    exact (settled done.domain).flatMap_right _

omit [Driver δ] in
theorem ends_settles (wrecks : List (Domain δ)) {t : Shared} (found : s.domain? i = some d)
    (h : dealt.Settles d.held (wrecks.flatMap Domain.held) s.shared t) :
    dealt.Settles s.held
      ({ s with domains := s.domains.set i none, shared := t, wrecks := s.wrecks ++ wrecks } :
        Site δ).held s.shared t := by
  obtain ⟨others, front, -, gone⟩ := holders_split found
  refine h.beside (others.flatMap Domain.held) ?_ ?_
  · rw [held_eq]
    exact front.flatMap_right _
  · rw [held_eq, ← List.flatMap_append]
    refine List.Perm.flatMap_right _ ?_
    rw [holders, ← List.append_assoc]
    exact (gone.append_right wrecks).trans List.perm_append_comm

omit [Driver δ] in
theorem create_held (id registry : Nat) (config : DomainConfig) (t : Shared) :
    ({ s with
      domains := s.domains ++ [some (Domain.create id registry config t).1]
      shared := (Domain.create (δ := δ) id registry config t).2 } : Site δ).held =
      s.held := by
  have none : (Domain.create (δ := δ) id registry config t).1.held = [] := rfl
  rw [held_eq, held_eq, holders, holders, List.reduceOption_append,
    List.reduceOption_singleton]
  simp [none]

theorem deal_unknown {action : Action δ} (about : action.subject = some i)
    (absent : s.domain? i = none) : s.deal env action = .nothing := by
  cases action with
  | attach | alloc | detach | free | drop =>
    cases about
    simp only [deal, absent]
  | _ => rfl

theorem deal_vacant {k : Nat} (absent : s.loose? k = none) :
    s.deal env (.attach i k) = .nothing := by
  simp only [deal, absent]
  cases s.domain? i <;> rfl

theorem deal_strays {action : Action δ} (apart : action.subject = none) :
    s.deal env action = .nothing := by
  cases action with
  | attach | alloc | detach | free | drop => cases apart
  | _ => rfl

theorem deal_fails {action : Action δ} {spec : ZoneSpec δ} {f : Fault}
    (kind : action.made? = some spec) (failed : Zone.alloc spec = .error f) :
    s.deal env action = .nothing := by
  cases action with
  | alloc i spec =>
    cases kind
    simp only [deal, failed]
    cases s.domain? i <;> rfl
  | make => rfl
  | _ => cases kind

/-- Every action settles its deal, and loses nothing unless a label cannot be had. -/
theorem Coherent.perform_settles (h : s.Coherent count) (env : Surroundings) (action : Action δ) :
    (s.deal env action).Settles s.held (s.perform env action).2.held s.shared
        (s.perform env action).2.shared ∧
      ((∀ f, (s.perform env action).1 = .error (.fault f) → f.unlabelled = false) →
        (s.deal env action).lost = []) := by
  have still {t : Shared} {Q : Prop} (heard : s.shared.Heard t [] []) :
      Deal.nothing.Settles s.held s.held s.shared t ∧
        (Q → Deal.nothing.lost = []) := ⟨.nothing heard, fun _ => rfl⟩
  have attempt (i : Nat) (d : Domain δ) (z : Zone δ) (found : s.domain? i = some d)
      (bare : z.Bare) :
      (d.tried env z s.shared).Settles s.held
          (s.settle i (d.attachZone env z s.shared)).held s.shared
          (d.attachZone env z s.shared).shared ∧
        ((∀ f, (d.attachZone env z s.shared).outcome.map some = .error (.fault f) →
            f.unlabelled = false) →
          (d.tried env z s.shared).lost = []) := by
    obtain ⟨rest, mirror, home, -, -⟩ := h.facing found
    obtain ⟨settles, lost⟩ := Domain.tried_settles bare (mirror.counted.symm ▸ home)
    refine ⟨settle_settles found settles, fun sound => lost fun f failed => sound f ?_⟩
    rw [failed]
    rfl
  have does := s.does env action
  generalize s.perform env action = done at does ⊢
  cases does with
  | unknown about absent => exact deal_unknown about absent ▸ still (.refl _)
  | vacant absent => exact deal_vacant absent ▸ still (.refl _)
  | strays apart => exact deal_strays apart ▸ still (.refl _)
  | fails kind made => exact deal_fails kind made ▸ still (.refl _)
  | creates present =>
    refine ⟨?_, fun _ => rfl⟩
    rw [create_held]
    exact .nothing (.log _ _ _)
  | makes => exact still (.refl _)
  | attaches found held =>
    simp only [deal, found, held]
    exact attempt _ _ _ found (h.bare _ _ held)
  | places found made =>
    simp only [deal, found, made]
    exact attempt _ _ _ found (Zone.alloc_bare made)
  | detaches found | frees found =>
    obtain ⟨rest, mirror, -, -, -⟩ := h.facing found
    simp only [deal, found]
    refine ⟨settle_settles found (Domain.returned_settles mirror _), fun _ => ?_⟩
    unfold Domain.returned
    split <;> rfl
  | @operates i operation d found =>
    have becomes := operation.run_becomes env d s.shared
    refine ⟨settle_settles found ?_, fun _ => rfl⟩
    rw [becomes.held]
    exact .nothing (operation.run_heard d s.shared)
  | drops found =>
    obtain ⟨rest, mirror, -, -, -⟩ := h.facing found
    simp only [deal, found]
    refine ⟨ends_settles _ found (Domain.surrendered_settles mirror), fun _ => ?_⟩
    unfold Domain.surrendered
    split <;> rfl
  | @abandons i d found =>
    refine ⟨ends_settles [{ d with running := false }] found ?_, fun _ => rfl⟩
    rw [List.flatMap_singleton]
    exact .nothing (.refl _)
  | @refuses registry vector e t present answer =>
    have silent : (SelfMetrics.registerOne registry vector s.shared).2.events = s.shared.events :=
      rfl
    rw [answer] at silent
    exact still (.of_events silent)
  | @enlists registry vector ref t present answer =>
    have silent : (SelfMetrics.registerOne registry vector s.shared).2.events = s.shared.events :=
      rfl
    rw [answer] at silent
    exact still (.of_events silent)
  | publishes => exact still (.of_events rfl)

theorem Coherent.run_settles (h : s.Coherent count) (steps : List (Surroundings × Action δ)) :
    (s.deals steps).Settles s.held (s.run steps).held s.shared
        (s.run steps).shared ∧
      ((∀ f, .error (.fault f) ∈ s.outcomes steps → f.unlabelled = false) →
        (s.deals steps).lost = []) := by
  induction steps generalizing s with
  | nil => exact ⟨.nothing (.refl _), fun _ => rfl⟩
  | cons step rest ih =>
    obtain ⟨env, action⟩ := step
    obtain ⟨settles, lost⟩ := h.perform_settles env action
    have next : Coherent count (s.perform env action).2 := (perform_coherent action h).1
    obtain ⟨later, others⟩ := ih next
    refine ⟨settles.append later, fun sound => ?_⟩
    have first := lost fun f failed => sound f (List.mem_cons.mpr (.inl failed.symm))
    have second := others fun f member => sound f (List.mem_cons_of_mem _ member)
    simp only [deals, Deal.append, first, second, List.append_nil]

theorem Coherent.issue_deal (h : s.Coherent count) (numbered : s.Numbered) {action : Action δ}
    {handle : ZoneHandle} {z : Zone δ} (issue : s.issue? env action = some (i, handle, z)) :
    ∃ d w, s.domain? i = some d ∧ s.deal env action = ⟨z.computations env d.name, [], []⟩ ∧
      (s.perform env action).2.kept? (.attached i handle) = some w ∧
      w.held = z.computations env d.name := by
  have given := issue?_outcome issue
  obtain ⟨j, d, y, same, found, bare, outcome, here⟩ := h.issue_of_outcome given
  cases same.symm.trans issue
  obtain ⟨rest, mirror, home, -, -⟩ := h.facing found
  have present : d.registry < s.shared.registries.length := mirror.counted.symm ▸ home
  obtain ⟨w, kept, held⟩ := Domain.attachZone_held (numbered i d found) bare present outcome
  have attached : d.tried env z s.shared = ⟨z.computations env d.name, [], []⟩ := by
    simp only [Domain.tried, outcome]
  refine ⟨d, w, found, ?_, by rw [kept?, here, Option.bind_some]; exact kept, held⟩
  cases action with
  | attach k n =>
    simp only [issue?, given, Option.map_eq_some_iff] at issue
    obtain ⟨y, there, same⟩ := issue
    cases same
    simp only [deal, found, there, attached]
  | alloc k spec =>
    simp only [issue?, given, Option.map_eq_some_iff] at issue
    obtain ⟨y, made, same⟩ := issue
    cases same
    cases whole : Zone.alloc spec with
    | error f =>
      rw [whole] at made
      cases made
    | ok x =>
      rw [whole] at made
      cases made
      simp only [deal, found, whole, attached]
  | _ => cases issue

end Site

namespace Metric

/-- The elements of the metric have the labels of a scope: the owners', the declared ones with these
values and the element's own. Looking up an owner finds it, whatever the others are called. Beside
the elements are the computed values, which are to be given back. -/
structure Carries (scope : Scope) (values : List String) (m : Metric) : Prop where
  fits : Fits m.spec.labels values
  labels : ∀ i e, m.elements[i]? = some e → ∃ own, Indexed m.spec i own ∧
    e.labels = [⟨"domain", scope.domain, false⟩, ⟨"zone", scope.zone, false⟩,
        ⟨"block", scope.block, false⟩] ++
      ((m.spec.labels.zip values).map fun (l, value) => ⟨l.key, value, l.internal⟩) ++ own
  owners : ∀ e ∈ m.elements, Label.find? e.labels "domain" = some scope.domain ∧
    Label.find? e.labels "zone" = some scope.zone ∧
    Label.find? e.labels "block" = some scope.block
  computed : m.computed = computedValues m.spec values

theorem Labelled.carries {scope : Scope} {values : List String} {m : Metric}
    (h : m.Labelled scope values) : m.Carries scope values := by
  have labels (i : Nat) (e : Element) (there : m.elements[i]? = some e) : ∃ own,
      Indexed m.spec i own ∧ e.labels = Label.owners scope ++
        ((m.spec.labels.zip values).map fun (l, value) =>
          (⟨l.key, value, l.internal⟩ : Label)) ++ own := by
    obtain ⟨own, index, whole⟩ := map_ok (h.elements i e there)
    exact ⟨own, indexed_of_indexLabels index, whole.symm⟩
  refine ⟨h.fits, labels, fun e member => ?_, h.computed⟩
  obtain ⟨i, there⟩ := List.mem_iff_getElem?.mp member
  obtain ⟨own, -, whole⟩ := labels i e there
  rw [whole]
  exact ⟨rfl, rfl, rfl⟩

end Metric

open Site in
/-- **Labels come back.** The elements of attached zones have their labels, and those of loose zones
have none. What sources were asked for in a run is on attached metrics or was given back, except
where a label that could not be had cut an attachment short; a zone is attached until it is detached,
and so are those of a domain that ended without detaching them. As long as a zone stays behind its
handle, it has just what the attachment took, and its detachment gives this back. -/
theorem labels_come_back (count : Nat) (steps : List (Surroundings × Action δ)) :
    let s : Site δ := (Site.empty count).run steps
    let whole := (Site.empty count : Site δ).deals steps
    (∀ x ∈ s.mounts, ∀ m ∈ x.block.metrics,
      ∃ values, m.Carries ⟨x.domain, x.zone, x.block.name, m.name⟩ values) ∧
    (∀ k z, s.loose? k = some z → z.Bare) ∧
    s.shared.events.filter Event.isResolved = whole.taken.map Computed.resolved ∧
    (s.shared.events.filter Event.isReleased).Perm (whole.given.flatMap Computed.released) ∧
    (whole.taken : Multiset Computed) = s.held + whole.given + whole.lost ∧
    ((∀ f, .error (.fault f) ∈ (Site.empty count : Site δ).outcomes steps → f.unlabelled = false) →
      whole.lost = []) ∧
    (∀ env action, s.shared.Heard (s.perform env action).2.shared (s.deal env action).taken
      (s.deal env action).given) ∧
    (∀ i d, s.domain? i = some d → d.treePoisoned = false → d.slotPoisoned = false →
      d.surrendered s.shared = ⟨[], d.held, []⟩) ∧
    ∀ before env action after i handle z, steps = before ++ (env, action) :: after →
      ((Site.empty count).run before).issue? env action = some (i, handle, z) →
      (((Site.empty count).run before).perform env action).2.stays after (.attached i handle) →
      ∃ d w, s.domain? i = some d ∧ d.kept? handle = some w ∧
        ((Site.empty count).run before).deal env action = ⟨z.computations env d.name, [], []⟩ ∧
        w.held = z.computations env d.name ∧
        ∀ out, (d.detachZone handle s.shared).outcome = .ok out →
          d.returned handle s.shared = ⟨[], z.computations env d.name, []⟩ := by
  intro s whole
  have coherent : s.Coherent count := run_coherent count steps
  obtain ⟨settles, lost⟩ := (Coherent.empty (δ := δ) count).run_settles steps
  obtain ⟨events, said, asked, returned⟩ := settles.heard
  have journal : s.shared.events = events := said
  have balance : (([] : List Computed) + whole.taken : Multiset Computed) =
      s.held + whole.given + whole.lost := settles.balance
  refine ⟨?_, coherent.bare, journal ▸ asked, journal ▸ returned, ?_, lost,
    fun env action => (coherent.perform_settles env action).1.heard, ?_, ?_⟩
  · intro x member m inside
    obtain ⟨i, -, shows⟩ := forall₂_mem (coherent.mirror.shown x member).vectors m inside
    obtain ⟨values, labelled⟩ := shows.labelled
    exact ⟨values, labelled.carries⟩
  · rwa [Multiset.coe_nil, zero_add] at balance
  · intro i d found tree slot
    obtain ⟨rest, mirror, -⟩ := coherent.facing found
    simp only [Domain.surrendered, (Domain.destroy_sound mirror tree slot).1]
  · intro before env action after i handle z split issue lasts
    have start := run_coherent (δ := δ) count before
    have next : Coherent count (((Site.empty count).run before).perform env action).2 :=
      (perform_coherent action start).1
    obtain ⟨b, v, earlier, taken, there, held⟩ :=
      start.issue_deal (run_numbered count before) issue
    obtain ⟨w, kept, continues⟩ := next.run_kept there lasts
    have same : s = ((Site.empty count).run before).run ((env, action) :: after) := by
      rw [← run_append, ← split]
    obtain ⟨d, found, inside⟩ := Option.bind_eq_some_iff.mp kept
    have name : d.name = b.name := by
      rcases start.run_domain ((env, action) :: after) found with ⟨c, there, later⟩ | beyond
      · cases there.symm.trans earlier
        exact later.name
      · rw [domain?, List.getElem?_eq_none beyond] at earlier
        cases earlier
    have own : w.held = z.computations env d.name := by rw [continues.held, held, name]
    refine ⟨d, w, same ▸ found, inside, by rw [taken, name], own, fun out detached => ?_⟩
    simp only [Domain.returned, detached, inside, Option.toList_some, List.flatMap_singleton, own]

def asking (spec : MetricSpec) (labels : List LabelSpec) : ZoneSpec StockDriver :=
  let label : LabelSpec := ⟨"k", .computed ⟨fun _ _ _ => .ok "v", true⟩, false⟩
  ⟨"z", [⟨"b", none, [{ spec with labels := label :: labels }], 0, none⟩]⟩

def solitary : MetricSpec := .simple "x" .gauge (.whole 0 4)

def unindexed : MetricSpec :=
  { solitary with
    flags := { solitary.flags with array := true }
    nelements := 2
    indexLabel := ⟨"n", some fun _ => .error .sum, false⟩ }

def failing : LabelSpec := ⟨"m", .computed ⟨fun _ _ _ => .error "no value", true⟩, false⟩

def forsaken : List (Surroundings × Action StockDriver) :=
  [(.plain [] 0, .create 0 ⟨"d", 0, false⟩), (.plain [] 0, .alloc 0 (asking solitary [])),
    (.plain [] 0, .abandon 0)]

def overtaken (spec : MetricSpec) (labels : List LabelSpec) :
    List (Surroundings × Action StockDriver) :=
  [(.plain [] 0, .create 0 ⟨"d", 0, false⟩), (.plain [] 0, .alloc 0 (asking spec labels))]

/-- A source was asked for a value, has not got it back, and no loose zone has it. -/
structure Forsaken (s : Site StockDriver) : Prop where
  asked : .resolved "k" "v" ∈ s.shared.events
  kept : s.shared.events.filter Event.isReleased = []
  loose : s.loose = []

/-- A source never gets its value back: the domain goes with its owner, or the attachment with an
index label or with another source. -/
theorem labels_forsaken :
    (let s : Site StockDriver := (Site.empty 1).run forsaken;
      Forsaken s ∧ s.domains = [none]) ∧
    (let s : Site StockDriver := (Site.empty 1).run (overtaken unindexed []);
      Forsaken s ∧ s.holders.map Domain.zones = [[]]) ∧
    let s : Site StockDriver := (Site.empty 1).run (overtaken solitary [failing])
    Forsaken s ∧ s.holders.map Domain.zones = [[]] :=
  ⟨⟨⟨by decide +kernel, by decide +kernel, rfl⟩, rfl⟩,
    ⟨⟨by decide +kernel, by decide +kernel, rfl⟩, rfl⟩,
    ⟨⟨by decide +kernel, by decide +kernel, rfl⟩, rfl⟩⟩

end Telemetry
