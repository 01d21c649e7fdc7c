import Telemetry.Proofs.Numbering

/-! What lasts on every zone of a site. Whatever an operation comes to, each zone of the domain
stays in its place and is left alone or treated once, perhaps not to the end. So a property of zones
that holds when they are allocated, and outlives a treatment, an attachment and a detachment, holds
of every zone that can be reached. -/
namespace Telemetry

variable {δ : Type} [Driver δ] {env : Surroundings}

theorem passOver_each (step : α → σ → Option Fault × α × σ) (as : List α) (s : σ) :
    List.Forall₂ (fun a b => b = a ∨ ∃ u f v, step a u = (f, b, v) ∧
      ((passOver step as s).1 = none → f = none)) as (passOver step as s).2.1 := by
  induction as generalizing s with
  | nil => exact .nil
  | cons a rest ih =>
    cases here : step a s with | mk fault moved =>
    obtain ⟨b, t⟩ := moved
    simp only [passOver, here]
    cases fault with
    | some f =>
      refine .cons (.inr ⟨s, some f, t, here, fun none => by cases none⟩) ?_
      exact List.forall₂_same.mpr fun _ _ => .inl rfl
    | none =>
      refine .cons (.inr ⟨s, none, t, here, fun _ => rfl⟩) ?_
      exact ih t

theorem Effect.run_each (effect : Effect) (zones : List (Zone δ)) (s : Shared) :
    List.Forall₂ (fun a b => b = a ∨ ∃ (treatment : Treatment) (u : Shared) (f : Option Fault)
      (v : Shared), treatment.run env a u = (f, b, v) ∧
        ((effect.run env zones s).1 = none → f = none)) zones (effect.run env zones s).2.1 := by
  cases effect with
  | nothing => exact List.forall₂_same.mpr fun _ _ => .inl rfl
  | everywhere clear =>
    refine (passOver_each (Zone.pass env clear) zones s).imp ?_
    rintro a b (same | ⟨u, f, v, here, whole⟩)
    · exact .inl same
    · exact .inr ⟨.pass clear, u, f, v, here, whole⟩
  | one handle treatment =>
    simp only [run]
    split
    · exact List.forall₂_same.mpr fun _ _ => .inl rfl
    · rename_i i z found
      obtain ⟨whole, changed⟩ := split_at (found_at found).2
      rw [changed]
      conv => arg 2; rw [whole]
      refine List.rel_append (List.forall₂_same.mpr fun _ _ => .inl rfl) (.cons ?_ ?_)
      · exact .inr ⟨treatment, s, _, _, rfl, fun none => none⟩
      · exact List.forall₂_same.mpr fun _ _ => .inl rfl

theorem Treatment.run_each {treatment : Treatment} {z w : Zone δ} {s t : Shared}
    {fault : Option Fault} (done : treatment.run env z s = (fault, w, t)) :
    w.name = z.name ∧ w.valueCount = z.valueCount ∧
      List.Forall₂ (fun b c => c = b ∨ ∃ clear u f v, b.pass env clear u = (f, c, v) ∧
        (fault = none → f = none)) z.blocks w.blocks := by
  have idle (y : Zone δ) : List.Forall₂ (fun b c : Block δ => c = b ∨ ∃ clear u f v,
      b.pass env clear u = (f, c, v) ∧ (fault = none → f = none)) y.blocks y.blocks :=
    List.forall₂_same.mpr fun _ _ => .inl rfl
  have passed {clear : Bool} {y : Zone δ} (done : y.pass env clear s = (fault, w, t)) :
      w.name = y.name ∧ w.valueCount = y.valueCount ∧
        List.Forall₂ (fun b c => c = b ∨ ∃ clear u f v, b.pass env clear u = (f, c, v) ∧
          (fault = none → f = none)) y.blocks w.blocks := by
    unfold Zone.pass at done
    split at done
    · have each := passOver_each (Block.pass env clear) y.blocks s
      cases whole : passOver (Block.pass env clear) y.blocks s with | mk f rest =>
      rw [whole] at done each
      cases done
      refine ⟨rfl, rfl, each.imp ?_⟩
      rintro b c (same | ⟨u, f, v, here, ends⟩)
      · exact .inl same
      · exact .inr ⟨clear, u, f, v, here, ends⟩
    · cases done
      exact ⟨rfl, rfl, idle _⟩
  cases treatment with
  | pass clear => exact passed done
  | enable clear =>
    simp only [run, Zone.enable] at done
    split at done
    · exact passed (y := { z with enabled := true }) done
    · cases done
      exact ⟨rfl, rfl, idle _⟩
  | disable =>
    cases done
    exact ⟨rfl, rfl, idle _⟩

/-- A property that lasts. It may ask less of the zones behind a poisoned lock: `sound` is whether
the lock is whole. -/
structure Zone.Lasting (made : ZoneSpec δ → Prop) (P : Bool → Zone δ → Prop) : Prop where
  allocated : ∀ {spec : ZoneSpec δ} {z : Zone δ}, made spec → Zone.alloc spec = .ok z → P true z
  poisoned : ∀ {sound : Bool} {z : Zone δ}, P sound z → P false z
  attached : ∀ {env : Surroundings} {domain : String} {r : Nat} {handle : ZoneHandle} {z w : Zone δ}
    {s u v t : Shared} {ps : List (Block δ)}, P true z →
    Zone.Attaches env domain r handle z s ps u v w t → P true w
  left : ∀ {z : Zone δ}, P true z → P true z.left
  treated : ∀ {env : Surroundings} {treatment : Treatment} {sound : Bool} {z w : Zone δ}
    {s t : Shared} {fault : Option Fault}, P sound z → treatment.run env z s = (fault, w, t) →
    P (sound && fault.isNone) w

namespace Domain

def Holds (P : Bool → Zone δ → Prop) (d : Domain δ) : Prop := ∀ z ∈ d.zones, P (!d.treePoisoned) z

variable {made : ZoneSpec δ → Prop} {P : Bool → Zone δ → Prop} {d e : Domain δ} {s t : Shared}

theorem Holds.becomes (h : d.Holds P) (lasting : Zone.Lasting made P) {effect : Effect}
    (becomes : d.Becomes (effect.run env d.zones s) e t) : e.Holds P := by
  intro w member
  rw [becomes.zones] at member
  obtain ⟨z, inside, done⟩ := forall₂_mem (effect.run_each d.zones s) w member
  have held := h z inside
  rw [becomes.poisoned]
  rcases done with rfl | ⟨treatment, u, f, v, done, whole⟩
  · cases (effect.run env d.zones s).1 with
    | none => simpa using held
    | some f => simpa using lasting.poisoned held
  · have treated := lasting.treated held done
    cases ended : (effect.run env d.zones s).1 with
    | none =>
      rw [whole ended] at treated
      simpa using treated
    | some f => simpa using lasting.poisoned treated

theorem Holds.attachZone (h : d.Holds P) (lasting : Zone.Lasting made P) {z : Zone δ}
    (bare : z.Bare) (own : P true z) (present : d.registry < s.registries.length) :
    (d.attachZone env z s).domain.Holds P := by
  rcases attachZone_cases env bare present with
    answer | ⟨f, t, answer, -⟩ | ⟨refusal, w, t, answer, -⟩ |
    ⟨ps, u, v, w, t, answer, -, attaches⟩
  · rw [answer]
    exact h
  · rw [answer]
    exact fun y member => lasting.poisoned (h y member)
  · rw [answer]
    exact h
  · have sound : d.treePoisoned = false := by
      cases poisoned : d.treePoisoned with
      | false => rfl
      | true =>
        rw [Domain.attachZone, locked_poisoned poisoned] at answer
        cases congrArg Done.outcome answer
    rw [answer]
    intro y member
    rcases List.mem_append.mp member with old | new
    · exact h y old
    · rw [List.mem_singleton.mp new, sound]
      exact lasting.attached own attaches

theorem Holds.detachZone (h : d.Holds P) (lasting : Zone.Lasting made P) {count : Nat}
    {rest : List (Mount δ)} {guests : List Guest} (mirror : Mirror count (d.mounts ++ rest) guests s)
    (handle : ZoneHandle) : (d.detachZone handle s).domain.Holds P ∧
      ∀ z, (d.detachZone handle s).outcome = .ok z → P true z := by
  rcases mirror.detach_cases handle with
    ⟨f, -, answer⟩ | ⟨n, z, t, sound, -, there, answer, -⟩
  all_goals rw [answer]
  · exact ⟨h, fun z out => by cases out⟩
  · refine ⟨fun y member => h y ((List.eraseIdx_sublist d.zones n).subset member), ?_⟩
    intro w out
    cases out
    have held := h z (List.mem_of_getElem? there)
    rw [sound] at held
    exact lasting.left held

theorem destroy_remains {count : Nat} {rest : List (Mount δ)} {guests : List Guest}
    (mirror : Mirror count (d.mounts ++ rest) guests s) {e : Domain δ}
    (left : e ∈ Site.remains (d.destroy s)) :
    SameFrame d e ∧ e.zones = d.zones ∧ e.treePoisoned = d.treePoisoned := by
  have becomes := stop_becomes d s
  unfold destroy at left
  cases done : d.stop s with | mk outcome f t =>
  rw [done] at becomes left
  have same : SameFrame d f ∧ f.zones = d.zones ∧ f.treePoisoned = d.treePoisoned :=
    ⟨becomes.frame, becomes.zones, by simpa using becomes.poisoned⟩
  cases outcome with
  | error e =>
    rw [List.mem_singleton.mp left]
    exact same
  | ok _ =>
    simp only [releaseZones] at left
    cases poisoned : f.treePoisoned with
    | true =>
      rw [locked_poisoned poisoned] at left
      rw [List.mem_singleton.mp left]
      exact same
    | false =>
      obtain ⟨u, released, -⟩ := (Mirror.becomes becomes mirror).detachZones
      simp only [locked, poisoned, Bool.false_eq_true, if_false, released] at left
      cases left

end Domain

namespace Site

structure Everywhere (P : Bool → Zone δ → Prop) (s : Site δ) : Prop where
  held : ∀ d ∈ s.holders, d.Holds P
  loose : ∀ k z, s.loose? k = some z → P true z

variable {s : Site δ} {count i : Nat} {d : Domain δ} {action : Action δ}
  {made : ZoneSpec δ → Prop} {P : Bool → Zone δ → Prop}

omit [Driver δ] in
theorem mem_holders : d ∈ s.holders ↔ (∃ i, s.domain? i = some d) ∨ d ∈ s.wrecks := by
  rw [holders, List.mem_append, List.reduceOption_mem_iff, List.mem_iff_getElem?]
  refine or_congr_left (exists_congr fun i => ?_)
  rw [domain?, Option.join_eq_some_iff]

omit [Driver δ] in
theorem mem_holders_set {domains : List (Option (Domain δ))} {new : Option (Domain δ)}
    (member : d ∈ (domains.set i new).reduceOption) :
    some d ∈ domains ∨ new = some d := by
  rw [List.reduceOption_mem_iff] at member
  rcases List.mem_or_eq_of_mem_set member with old | same
  · exact .inl old
  · exact .inr same.symm

namespace Everywhere

omit [Driver δ] in
theorem empty (P : Bool → Zone δ → Prop) (count : Nat) :
    (Site.empty count : Site δ).Everywhere P := by
  constructor
  · intro d member
    cases member
  · intro k z found
    cases found

omit [Driver δ] in
theorem at_ (all : s.Everywhere P) (found : s.domain? i = some d) : d.Holds P :=
  all.held d (mem_holders.mpr (.inl ⟨i, found⟩))

omit [Driver δ] in
theorem settle (all : s.Everywhere P) {done : Done δ α} (new : done.domain.Holds P)
    {loose : List (Option (Zone δ))}
    (others : ∀ (k : Nat) (z : Zone δ), (loose[k]?).join = some z → P true z) :
    ({ s.settle i done with loose } : Site δ).Everywhere P := by
  refine ⟨?_, others⟩
  intro d member
  rcases List.mem_append.mp member with held | wreck
  · rcases mem_holders_set held with old | same
    · exact all.held d (List.mem_append_left _ (List.reduceOption_mem_iff.mpr old))
    · cases same
      exact new
  · exact all.held d (List.mem_append_right _ wreck)

omit [Driver δ] in
theorem ends (all : s.Everywhere P) {wrecks : List (Domain δ)} (shared : Shared)
    (left : ∀ e ∈ wrecks, e.Holds P) :
    ({ s with domains := s.domains.set i none, shared, wrecks := s.wrecks ++ wrecks } :
      Site δ).Everywhere P := by
  refine ⟨?_, all.loose⟩
  intro d member
  rcases List.mem_append.mp member with held | wreck
  · rcases mem_holders_set held with old | same
    · exact all.held d (List.mem_append_left _ (List.reduceOption_mem_iff.mpr old))
    · cases same
  · rcases List.mem_append.mp wreck with old | new
    · exact all.held d (List.mem_append_right _ old)
    · exact left d new

omit [Driver δ] in
theorem append (all : s.Everywhere P) {z : Option (Zone δ)} (new : ∀ w, z = some w → P true w) :
    ∀ (k : Nat) (w : Zone δ), ((s.loose ++ [z])[k]?).join = some w → P true w := by
  intro k w found
  rw [List.getElem?_append] at found
  split at found
  · exact all.loose k w found
  · rw [List.getElem?_singleton] at found
    split at found
    · exact new w found
    · cases found

end Everywhere

/-- What lasts on zones is kept by every action. -/
theorem Coherent.perform_everywhere (h : s.Coherent count) (lasting : Zone.Lasting made P)
    (all : s.Everywhere P) (known : ∀ spec, action.made? = some spec → made spec) :
    (s.perform env action).2.Everywhere P := by
  have attach (i : Nat) (d : Domain δ) (z : Zone δ) (found : s.domain? i = some d) (bare : z.Bare)
      (own : P true z) : (d.attachZone env z s.shared).domain.Holds P := by
    obtain ⟨rest, mirror, home, -, -⟩ := h.facing found
    exact (all.at_ found).attachZone lasting bare own (mirror.counted.symm ▸ home)
  have detach (i : Nat) (d : Domain δ) (handle : ZoneHandle) (found : s.domain? i = some d) :
      (d.detachZone handle s.shared).domain.Holds P ∧
        ∀ z, (d.detachZone handle s.shared).outcome = .ok z → P true z := by
    obtain ⟨rest, mirror, -, -, -⟩ := h.facing found
    exact (all.at_ found).detachZone lasting mirror handle
  have does := s.does env action
  generalize s.perform env action = done at does ⊢
  cases does with
  | unknown | vacant | strays | fails => exact all
  | creates =>
    refine ⟨?_, all.loose⟩
    intro d member
    rw [holders, List.reduceOption_append, List.reduceOption_singleton] at member
    rcases List.mem_append.mp member with held | wreck
    · rcases List.mem_append.mp held with old | new
      · exact all.held d (List.mem_append_left _ old)
      · cases List.mem_singleton.mp new
        intro z none
        cases none
    · exact all.held d (List.mem_append_right _ wreck)
  | makes done =>
    refine ⟨all.held, all.append ?_⟩
    intro w same
    cases same
    exact lasting.allocated (known _ rfl) done
  | attaches found held =>
    refine all.settle (attach _ _ _ found (h.bare _ _ held) (all.loose _ _ held)) ?_
    intro j w other
    rw [List.getElem?_set] at other
    split at other
    · split at other <;> cases other
    · exact all.loose j w other
  | places found made =>
    have own := lasting.allocated (known _ rfl) made
    exact all.settle (attach _ _ _ found (Zone.alloc_bare made) own) all.loose
  | detaches found =>
    obtain ⟨kept, out⟩ := detach _ _ _ found
    exact all.settle kept (all.append fun w same => out w (toOption_some same))
  | frees found => exact all.settle (detach _ _ _ found).1 all.loose
  | @operates i operation d found =>
    have becomes := operation.run_becomes env d s.shared
    exact all.settle ((all.at_ found).becomes lasting becomes) all.loose
  | drops found =>
    obtain ⟨rest, mirror, -, -, -⟩ := h.facing found
    refine all.ends _ fun e left => ?_
    obtain ⟨-, zones, poisoned⟩ := Domain.destroy_remains mirror left
    rw [Domain.Holds, zones, poisoned]
    exact all.at_ found
  | abandons found =>
    refine all.ends s.shared fun e left => ?_
    rw [List.mem_singleton.mp left]
    exact fun z member => all.at_ found z member
  | refuses | enlists | publishes => exact ⟨all.held, all.loose⟩

theorem run_everywhere (lasting : Zone.Lasting made P) (count : Nat)
    (steps : List (Surroundings × Action δ))
    (known : ∀ step ∈ steps, ∀ spec, step.2.made? = some spec → made spec) :
    ((Site.empty count).run steps).Everywhere P := by
  suffices from_ : ∀ s : Site δ, s.Coherent count → s.Everywhere P → (s.run steps).Everywhere P from
    from_ _ (.empty count) (.empty P count)
  induction steps with
  | nil => exact fun s _ all => all
  | cons step rest ih =>
    intro s h all
    refine ih (fun next member => known next (List.mem_cons_of_mem _ member)) _
      (perform_coherent step.2 h).1 (h.perform_everywhere lasting all ?_)
    exact known step List.mem_cons_self

end Site

end Telemetry
