import Mathlib.Data.List.ReduceOption
import Telemetry.Proofs.Deeds
import Telemetry.Proofs.Upkeep

/-! The invariant of a site: its registries mirror the blocks of the zones that its domains hold and
the guests, domains publish to registries that exist, and loose zones are bare. Every action keeps
it, so it holds after every run. -/
namespace Telemetry

open Series (Store)

theorem Zone.alloc_fault {δ : Type} {spec : ZoneSpec δ} {f : Fault}
    (failed : Zone.alloc spec = .error f) : f.stuck = false := by
  obtain ⟨block, -, failed⟩ := mapM_error (map_error failed)
  obtain ⟨metric, -, failed⟩ := mapM_error (map_error failed)
  unfold Metric.alloc at failed
  split at failed
  · cases failed
    rfl
  · cases failed

namespace Domain

variable {δ : Type} [Driver δ]

theorem destroy_cases {d : Domain δ} {count : Nat} {rest : List (Mount δ)} {guests : List Guest}
    {s : Shared} (h : Mirror count (d.mounts ++ rest) guests s) :
    Clear (d.destroy s).outcome ∧
      match (d.destroy s).outcome with
      | .error _ => SameFrame d (d.destroy s).domain ∧
          Mirror count ((d.destroy s).domain.mounts ++ rest) guests (d.destroy s).shared
      | .ok () => Mirror count rest guests (d.destroy s).shared := by
  have becomes := stop_becomes d s
  have clear := stop_clear d s
  unfold destroy
  cases done : d.stop s with | mk outcome e t =>
  rw [done] at becomes clear
  have stopped : Mirror count (e.mounts ++ rest) guests t := Mirror.becomes becomes h
  cases outcome with
  | error f => exact ⟨clear, becomes.frame, stopped⟩
  | ok _ =>
    simp only [releaseZones]
    cases poisoned : e.treePoisoned with
    | true =>
      rw [locked_poisoned poisoned]
      exact ⟨clear_fault rfl, becomes.frame, stopped⟩
    | false =>
      obtain ⟨u, released, out⟩ := stopped.detachZones
      simp only [locked, poisoned, Bool.false_eq_true, if_false, released]
      exact ⟨clear_ok _, out.agrees (.log u _ _)⟩

end Domain

namespace Site

variable {δ : Type}

def mounts (s : Site δ) : List (Mount δ) := s.holders.flatMap Domain.mounts

theorem holders_split {s : Site δ} {i : Nat} {d : Domain δ} (found : s.domain? i = some d) :
    ∃ rest, s.holders.Perm (d :: rest) ∧
      (∀ e, ((s.domains.set i (some e)).reduceOption ++ s.wrecks).Perm (e :: rest)) ∧
      ((s.domains.set i none).reduceOption ++ s.wrecks).Perm rest := by
  obtain ⟨whole, changed⟩ := split_at (Option.join_eq_some_iff.mp found)
  refine ⟨(s.domains.take i).reduceOption ++ (s.domains.drop (i + 1)).reduceOption ++ s.wrecks,
    ?_, ?_, ?_⟩
  · rw [holders]
    conv_lhs => rw [whole]
    rw [List.reduceOption_append, List.reduceOption_cons_of_some]
    exact List.perm_middle.append_right _
  · intro e
    rw [changed, List.reduceOption_append, List.reduceOption_cons_of_some]
    exact List.perm_middle.append_right _
  · rw [changed, List.reduceOption_append, List.reduceOption_cons_of_none]

def AllBare (loose : List (Option (Zone δ))) : Prop :=
  ∀ (k : Nat) (z : Zone δ), (loose[k]?).join = some z → z.Bare

theorem AllBare.set {loose : List (Option (Zone δ))} (h : AllBare loose) (k : Nat) :
    AllBare (loose.set k none) := by
  intro j z found
  rw [List.getElem?_set] at found
  split at found
  · split at found <;> cases found
  · exact h j z found

theorem AllBare.append {loose : List (Option (Zone δ))} (h : AllBare loose) {z : Option (Zone δ)}
    (bare : ∀ w, z = some w → w.Bare) : AllBare (loose ++ [z]) := by
  intro j w found
  rw [List.getElem?_append] at found
  split at found
  · exact h j w found
  · rw [List.getElem?_singleton] at found
    split at found
    · exact bare w found
    · cases found

structure Coherent (count : Nat) (s : Site δ) : Prop where
  mirror : Mirror count s.mounts s.guests s.shared
  homes : ∀ d ∈ s.holders, d.registry < count
  bare : AllBare s.loose

namespace Coherent

variable {count : Nat} {s : Site δ} {i : Nat} {d : Domain δ}

/-- One domain in front of all that is registered otherwise. -/
theorem facing (h : s.Coherent count) (found : s.domain? i = some d) :
    ∃ rest, Mirror count (d.mounts ++ rest) s.guests s.shared ∧ d.registry < count ∧
      (∀ e shared loose, e.registry = d.registry →
        Mirror count (e.mounts ++ rest) s.guests shared →
        AllBare loose →
        Coherent count { s with domains := s.domains.set i (some e), shared, loose }) ∧
      ∀ wrecks shared, (∀ e ∈ wrecks, e.registry = d.registry) →
        Mirror count (wrecks.flatMap Domain.mounts ++ rest) s.guests shared →
        Coherent count
          { s with domains := s.domains.set i none, shared, wrecks := s.wrecks ++ wrecks } := by
  obtain ⟨others, front, settled, gone⟩ := holders_split found
  have mounts := front.flatMap_right Domain.mounts
  rw [List.flatMap_cons] at mounts
  have homes : ∀ e ∈ d :: others, e.registry < count := fun e member =>
    h.homes e (front.mem_iff.mpr member)
  refine ⟨others.flatMap Domain.mounts, h.mirror.perm mounts, homes d List.mem_cons_self, ?_, ?_⟩
  · intro e shared loose same mirror bare
    have back := (settled e).flatMap_right Domain.mounts
    rw [List.flatMap_cons] at back
    refine ⟨mirror.perm back.symm, ?_, bare⟩
    intro f member
    rcases List.mem_cons.mp ((settled e).mem_iff.mp member) with rfl | member
    · rw [same]
      exact homes d List.mem_cons_self
    · exact homes f (List.mem_cons_of_mem _ member)
  · intro wrecks shared same mirror
    have back : ((s.domains.set i none).reduceOption ++ (s.wrecks ++ wrecks)).Perm
        (wrecks ++ others) := by
      rw [← List.append_assoc]
      exact (gone.append_right wrecks).trans List.perm_append_comm
    have all : (((s.domains.set i none).reduceOption ++ (s.wrecks ++ wrecks)).flatMap
        Domain.mounts).Perm (wrecks.flatMap Domain.mounts ++ others.flatMap Domain.mounts) := by
      rw [← List.flatMap_append]
      exact back.flatMap_right _
    refine ⟨mirror.perm all.symm, ?_, h.bare⟩
    intro f member
    rcases List.mem_append.mp (back.mem_iff.mp member) with new | old
    · rw [same f new]
      exact homes d List.mem_cons_self
    · exact homes f (List.mem_cons_of_mem _ old)

theorem empty (count : Nat) : (Site.empty count : Site δ).Coherent count := by
  refine ⟨⟨by simp [Site.empty, Shared.ofRegistries], .empty count, ?_⟩, ?_, ?_⟩
  · intro x member
    cases member
  · intro d member
    cases member
  · intro k z member
    cases member

theorem shared (h : s.Coherent count) {shared : Shared} {guests : List Guest}
    (mirror : Mirror count s.mounts guests shared) : Coherent count { s with shared, guests } :=
  ⟨mirror, h.homes, h.bare⟩

variable [Driver δ] {env : Surroundings}

theorem attach (h : s.Coherent count) (found : s.domain? i = some d) {z : Zone δ} (bare : z.Bare)
    {loose : List (Option (Zone δ))} (others : AllBare loose) :
    Coherent count { s.settle i (d.attachZone env z s.shared) with loose } ∧
      Domain.Clear (d.attachZone env z s.shared).outcome := by
  obtain ⟨rest, mirror, home, settle, -⟩ := h.facing found
  obtain ⟨kept, registry, clear⟩ := mirror.attach bare home
  exact ⟨settle _ _ _ registry kept others, clear⟩

theorem detach (h : s.Coherent count) (found : s.domain? i = some d) (handle : ZoneHandle) :
    Coherent count (s.settle i (d.detachZone handle s.shared)) ∧
      (∀ z, (d.detachZone handle s.shared).outcome = .ok z → z.Bare) ∧
      Domain.Clear (d.detachZone handle s.shared).outcome := by
  obtain ⟨rest, mirror, home, settle, -⟩ := h.facing found
  rcases mirror.detach_cases handle with
    ⟨f, free, done⟩ | ⟨j, z, t, -, -, -, done, out, -⟩
  · rw [done]
    refine ⟨settle d s.shared s.loose rfl mirror h.bare, ?_, Domain.clear_fault free⟩
    intro z ok
    cases ok
  · rw [done]
    refine ⟨settle _ t s.loose rfl out h.bare, ?_, Domain.clear_ok _⟩
    intro w ok
    cases ok
    exact z.left_bare

theorem operate (h : s.Coherent count) (found : s.domain? i = some d) (operation : Operation) :
    Coherent count (s.settle i (operation.run env d s.shared)) := by
  obtain ⟨rest, mirror, home, settle, -⟩ := h.facing found
  exact settle _ _ _ (operation.run_becomes env d s.shared).frame.registry (mirror.operate operation)
    h.bare

theorem drop (h : s.Coherent count) (found : s.domain? i = some d) :
    Coherent count { s with
      domains := s.domains.set i none
      shared := (d.destroy s.shared).shared
      wrecks := s.wrecks ++ remains (d.destroy s.shared) } ∧
      Domain.Clear (d.destroy s.shared).outcome := by
  obtain ⟨rest, mirror, home, -, gone⟩ := h.facing found
  have cases := Domain.destroy_cases mirror
  cases done : d.destroy s.shared with | mk outcome e t =>
  rw [done] at cases
  refine ⟨gone _ t ?_ ?_, cases.1⟩
  · intro w member
    cases outcome with
    | ok _ => cases member
    | error f =>
      rw [List.mem_singleton.mp member]
      exact cases.2.1.registry
  · cases outcome with
    | ok _ => exact cases.2
    | error f => simpa [remains] using cases.2.2

omit [Driver δ] in
theorem abandon (h : s.Coherent count) (found : s.domain? i = some d) :
    Coherent count { s with
      domains := s.domains.set i none
      wrecks := s.wrecks ++ [{ d with running := false }] } := by
  obtain ⟨rest, mirror, home, -, gone⟩ := h.facing found
  refine gone [{ d with running := false }] s.shared ?_ ?_
  · intro e member
    rw [List.mem_singleton.mp member]
  · rw [List.flatMap_singleton]
    exact mirror

omit [Driver δ] in
theorem create (h : s.Coherent count) {registry : Nat} (present : registry < count)
    (config : DomainConfig) :
    Coherent count { s with
      domains := s.domains ++
        [some (Domain.create (s.domains.length + 1) registry config s.shared).1]
      shared := (Domain.create (δ := δ) (s.domains.length + 1) registry config s.shared).2 } := by
  let d : Domain δ := (Domain.create (s.domains.length + 1) registry config s.shared).1
  have holders : ((s.domains ++ [some d]).reduceOption ++ s.wrecks).Perm (d :: s.holders) := by
    rw [List.reduceOption_append, List.reduceOption_singleton, Option.toList_some,
      List.append_assoc]
    exact List.perm_middle
  have mounts := holders.flatMap_right Domain.mounts
  refine ⟨(h.mirror.agrees (.log s.shared _ _)).perm mounts.symm, ?_, h.bare⟩
  intro e member
  rcases List.mem_cons.mp (holders.mem_iff.mp member) with rfl | member
  · exact present
  · exact h.homes e member

end Coherent

variable [Driver δ] {env : Surroundings} {count : Nat} {s : Site δ}

/-- Every action keeps the invariant, and none ends with the fault of a stuck collector. -/
theorem perform_coherent (action : Action δ) (h : s.Coherent count) :
    Coherent count (s.perform env action).2 ∧ Domain.Clear (s.perform env action).1 := by
  have idle : Domain.Clear (.ok none : Outcome (Option ZoneHandle)) := Domain.clear_ok none
  have does := s.does env action
  generalize s.perform env action = done at does ⊢
  cases does with
  | unknown | vacant | strays => exact ⟨h, idle⟩
  | fails kind made => exact ⟨h, Domain.clear_fault (Zone.alloc_fault made)⟩
  | creates present => exact ⟨h.create (h.mirror.counted ▸ present) _, idle⟩
  | makes made =>
    refine ⟨⟨h.mirror, h.homes, h.bare.append ?_⟩, idle⟩
    intro w same
    cases same
    exact Zone.alloc_bare made
  | attaches found held =>
    obtain ⟨kept, clear⟩ := h.attach found (h.bare _ _ held) (h.bare.set _)
    exact ⟨kept, Domain.clear_map clear _⟩
  | places found made =>
    obtain ⟨kept, clear⟩ := h.attach found (Zone.alloc_bare made) h.bare
    exact ⟨kept, Domain.clear_map clear _⟩
  | detaches found =>
    obtain ⟨kept, bare, clear⟩ := h.detach found _
    have loose := kept.bare.append fun w same => bare w (toOption_some same)
    exact ⟨⟨kept.mirror, kept.homes, loose⟩, Domain.clear_map clear _⟩
  | frees found =>
    obtain ⟨kept, -, clear⟩ := h.detach found _
    exact ⟨kept, Domain.clear_map clear _⟩
  | @operates i operation d found =>
    exact ⟨h.operate found operation, Domain.clear_map (operation.run_clear d s.shared) _⟩
  | drops found =>
    obtain ⟨kept, clear⟩ := h.drop found
    exact ⟨kept, Domain.clear_map clear _⟩
  | abandons found => exact ⟨h.abandon found, idle⟩
  | @refuses registry vector e t present answer =>
    have joined := h.mirror.enlist (v := vector) (h.mirror.counted ▸ present)
    rw [answer] at joined
    exact ⟨h.shared joined, Domain.clear_refused _⟩
  | @enlists registry vector ref t present answer =>
    have joined := h.mirror.enlist (v := vector) (h.mirror.counted ▸ present)
    rw [answer] at joined
    exact ⟨h.shared joined, idle⟩
  | publishes present => exact ⟨h.shared (h.mirror.publish (List.mem_of_getElem? present) _ _), idle⟩

end Site

/-- What an action about a domain can make of it, if the domain stays. -/
inductive Domain.Undergoes {δ : Type} [Driver δ] (env : Surroundings) (s : Site δ) (i : Nat)
    (d : Domain δ) : Action δ → Domain δ → Prop
  | vacant {k : Nat} (absent : s.loose? k = none) : Undergoes env s i d (.attach i k) d
  | attaches {k : Nat} {z : Zone δ} (held : s.loose? k = some z) (bare : z.Bare) :
      Undergoes env s i d (.attach i k) (d.attachZone env z s.shared).domain
  | fails {spec : ZoneSpec δ} {f : Fault} (made : Zone.alloc spec = .error f) :
      Undergoes env s i d (.alloc i spec) d
  | places {spec : ZoneSpec δ} {z : Zone δ} (made : Zone.alloc spec = .ok z) (bare : z.Bare) :
      Undergoes env s i d (.alloc i spec) (d.attachZone env z s.shared).domain
  | detaches {action : Action δ} {handle : ZoneHandle}
      (kind : action = .detach i handle ∨ action = .free i handle) :
      Undergoes env s i d action (d.detachZone handle s.shared).domain
  | operates (operation : Operation) :
      Undergoes env s i d (.operate i operation) (operation.run env d s.shared).domain

namespace Site

variable {δ : Type} [Driver δ] {env : Surroundings} {count i : Nat} {s : Site δ} {d e : Domain δ}
  {action : Action δ}

theorem Coherent.perform_about (h : s.Coherent count) (found : s.domain? i = some d)
    (about : action.subject = some i) :
    (action = .drop i ∨ action = .abandon i) ∧ (s.perform env action).2.domain? i = none ∨
      ∃ e, (s.perform env action).2.domain? i = some e ∧ d.Undergoes env s i action e := by
  have ended : ((s.domains.set i none)[i]?).join = none := by
    rw [List.getElem?_set]
    split
    · split <;> rfl
    · contradiction
  have does := s.does env action
  generalize s.perform env action = done at does ⊢
  cases does with
  | unknown other absent =>
    cases other.symm.trans about
    cases absent.symm.trans found
  | strays apart => cases apart.symm.trans about
  | creates | makes | refuses | enlists | publishes => cases about
  | vacant absent =>
    cases about
    exact .inr ⟨d, found, .vacant absent⟩
  | fails kind made =>
    cases action with
    | alloc j spec =>
      cases about
      cases kind
      exact .inr ⟨d, found, .fails made⟩
    | make => cases about
    | _ => cases kind
  | attaches here held =>
    cases about
    cases here.symm.trans found
    exact .inr ⟨_, settle_here found _, .attaches held (h.bare _ _ held)⟩
  | places here made =>
    cases about
    cases here.symm.trans found
    exact .inr ⟨_, settle_here found _, .places made (Zone.alloc_bare made)⟩
  | detaches here =>
    cases about
    cases here.symm.trans found
    exact .inr ⟨_, settle_here found _, .detaches (.inl rfl)⟩
  | frees here =>
    cases about
    cases here.symm.trans found
    exact .inr ⟨_, settle_here found _, .detaches (.inr rfl)⟩
  | operates here =>
    cases about
    cases here.symm.trans found
    exact .inr ⟨_, settle_here found _, .operates _⟩
  | drops =>
    cases about
    exact .inl ⟨.inl rfl, ended⟩
  | abandons =>
    cases about
    exact .inl ⟨.inr rfl, ended⟩

theorem Coherent.perform_domain (h : s.Coherent count)
    (after : (s.perform env action).2.domain? i = some e) :
    (∃ d, s.domain? i = some d ∧
        (action.subject ≠ some i ∧ d = e ∨ d.Undergoes env s i action e)) ∨
      i = s.domains.length ∧
        ∃ registry config, e = (Domain.create (i + 1) registry config s.shared).1 := by
  by_cases about : action.subject = some i ∧ ∃ d, s.domain? i = some d
  · obtain ⟨about, d, found⟩ := about
    rcases h.perform_about found about with ⟨-, gone⟩ | ⟨f, there, undergone⟩
    · cases gone.symm.trans after
    · cases there.symm.trans after
      exact .inl ⟨d, found, .inr undergone⟩
  · have absent (same : action.subject = some i) : s.domain? i = none :=
      Option.eq_none_iff_forall_ne_some.mpr fun d found => about ⟨same, d, found⟩
    rcases s.perform_apart env absent with same | ⟨last, registry, config, there⟩
    · have found := same.symm.trans after
      refine .inl ⟨e, found, .inl ⟨fun same => ?_, rfl⟩⟩
      cases (absent same).symm.trans found
    · cases there.symm.trans after
      exact .inr ⟨last, registry, config, rfl⟩

theorem run_coherent (count : Nat) (steps : List (Surroundings × Action δ)) :
    Coherent count ((Site.empty count).run steps) :=
  run_keeps (Coherent count) (fun _ action _ h => (perform_coherent action h).1) steps _
    (.empty count)

end Site

end Telemetry
