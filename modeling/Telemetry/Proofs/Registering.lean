import Telemetry.Proofs.Mirror
import Telemetry.Zone.Attachment

/-! Registering blocks and unregistering them. Registering enters a block into the mirror and
unregistering takes it out again, which cannot fail for a block that is there. Blocks that were
registered one after another are unregistered from the lowest up, and then the registry holds what
it held before, in the same order. -/
namespace Telemetry

open Series (Store Registry)
open Series.Registry (Stacked Admits)

namespace Shared

structure Touched (r : Nat) (s t : Shared) : Prop where
  count : t.registries.length = s.registries.length
  others : ∀ j, j ≠ r → t.registry j = s.registry j

namespace Touched

variable {r : Nat} {s t u : Shared}

theorem refl (r : Nat) (s : Shared) : Touched r s s := ⟨rfl, fun _ _ => rfl⟩

theorem trans (first : Touched r s t) (second : Touched r t u) : Touched r s u :=
  ⟨second.count.trans first.count,
    fun j apart => (second.others j apart).trans (first.others j apart)⟩

theorem setRegistry (r : Nat) (s : Shared) (registry : Registry) :
    Touched r s (s.setRegistry r registry) := by
  refine ⟨by simp [Shared.setRegistry], ?_⟩
  intro j apart
  simp [Shared.registry, Shared.setRegistry, List.getElem?_set_ne (Ne.symm apart)]

end Touched

end Shared

namespace Block

variable {δ : Type} {domain zone : String} {b : Block δ} {s : Shared} {r : Nat}

/-- An attached block whose vectors carry the block's own identities. -/
structure Described (domain zone : String) (store : Store) (b : Block δ) : Prop where
  attached : b.collector = some ⟨b.name, b.vectors⟩
  identities : (store.descriptors b.vectors).map (·.identity) = b.identities domain zone

theorem Described.alters {vs : List Nat} {store other : Store}
    (h : Described domain zone store b) (altered : Store.Alters vs store other) :
    Described domain zone other b :=
  ⟨h.attached, by rw [altered.descriptors, h.identities]⟩

theorem register_cases (h : Described domain zone s.store b) (r : Nat) :
    (b.vectors = [] ∧ b.register r s = (none, s)) ∨
      b.vectors ≠ [] ∧ ∃ registry,
        (b.register r s = (none, s.setRegistry r registry) ∧
          (s.registry r).Admits registry (b.identities domain zone) b.vectors) ∨
        ∃ e, b.register r s = (some e, s.setRegistry r registry) ∧
          (s.registry r).SameCollectors registry := by
  simp only [register, h.attached, Collector.register, Collector.isEmpty, List.isEmpty_iff]
  by_cases empty : b.vectors = []
  · exact .inl ⟨empty, if_pos empty⟩
  · right
    simp only [if_neg empty]
    refine ⟨empty, ?_⟩
    cases answer : (s.registry r).register (s.store.descriptors b.vectors) b.vectors with
    | mk result registry =>
    cases result with
    | error e => exact ⟨registry, .inr ⟨_, rfl, Series.Registry.register_error answer⟩⟩
    | ok _ =>
      have admitted := Series.Registry.register_ok answer
      rw [h.identities] at admitted
      exact ⟨registry, .inl ⟨rfl, admitted⟩⟩

theorem register_store (b : Block δ) (r : Nat) (s : Shared) :
    (b.register r s).2.store = s.store := by
  unfold register Collector.register
  split
  · split
    · rfl
    · split <;> rfl
  · rfl

theorem unregister_held (h : Described domain zone s.store b)
    (unique : b.vectors ≠ [] → (b.identities domain zone).Nodup)
    (held : b.vectors ≠ [] →
      (b.identities domain zone).sum ∈ (s.registry r).entries.map (·.identity)) :
    b.unregister r s = (none,
      if b.vectors = [] then { s with store := s.store.clear b.vectors }
      else ({ s with store := s.store.clear b.vectors }.setRegistry r
        ((s.registry r).without (b.identities domain zone)))) := by
  have told := (h.alters (.clear b.vectors s.store)).identities
  simp only [unregister, h.attached, Collector.unregister, Collector.isEmpty, List.isEmpty_iff]
  by_cases empty : b.vectors = []
  · simp only [if_pos empty]
  · have answer : Series.Registry.unregister
        (Shared.registry { s with store := s.store.clear b.vectors } r)
        ((s.store.clear b.vectors).descriptors b.vectors)
          = (.ok (), (s.registry r).without (b.identities domain zone)) := by
      rw [← told]
      exact Series.Registry.unregister_held (told ▸ unique empty) (told ▸ held empty)
    simp only [if_neg empty, answer]

def stack (domain zone : String) (ps : List (Block δ)) : List (List Fingerprint) :=
  (ps.filter (·.vectors ≠ [])).map (·.identities domain zone)

theorem stack_cons (domain zone : String) (p : Block δ) (ps : List (Block δ)) :
    stack domain zone (p :: ps) =
      if p.vectors = [] then stack domain zone ps
      else p.identities domain zone :: stack domain zone ps := by
  by_cases empty : p.vectors = [] <;> simp [stack, empty]

end Block

open Block (Described stack stack_cons)

namespace Zone

variable {δ : Type} {domain zone : String} {r : Nat} {base : Registry}
  {prior : List (List Fingerprint)} {ps : List (Block δ)} {s t : Shared}

theorem registerBlocks_stacked {refusal : Option Refusal} {k : Nat}
    (described : ∀ p ∈ ps, Described domain zone s.store p) (present : r < s.registries.length)
    (stacked : Stacked base (s.registry r) prior)
    (done : registerBlocks r ps s = (refusal, k, t)) :
    Shared.Touched r s t ∧ t.store = s.store ∧ t.journal = s.journal ∧
      Stacked base (t.registry r) (prior ++ stack domain zone (ps.take k)) ∧
      (refusal = none → k = ps.length) := by
  induction ps generalizing s k prior with
  | nil =>
    cases done
    exact ⟨.refl r _, rfl, rfl, by simpa [stack] using stacked, fun _ => rfl⟩
  | cons p rest ih =>
    have others : ∀ q ∈ rest, Described domain zone s.store q := fun q member =>
      described q (List.mem_cons_of_mem _ member)
    unfold registerBlocks at done
    rcases Block.register_cases (described p List.mem_cons_self) r with
      ⟨empty, answer⟩ | ⟨full, registry, ⟨answer, admitted⟩ | ⟨e, answer, same⟩⟩
    · cases later : registerBlocks r rest s with | mk refused tail =>
      obtain ⟨count, u⟩ := tail
      simp only [answer, later] at done
      cases done
      obtain ⟨touched, store, journal, top, whole⟩ := ih others present stacked later
      refine ⟨touched, store, journal, ?_, fun none => by rw [whole none, List.length_cons]⟩
      rw [List.take_succ_cons, stack_cons, if_pos empty]
      exact top
    · have here := Shared.registry_setRegistry s r r registry present
      rw [if_pos rfl] at here
      cases later : registerBlocks r rest (s.setRegistry r registry) with | mk refused tail =>
      obtain ⟨count, u⟩ := tail
      simp only [answer, later] at done
      cases done
      have first := Shared.Touched.setRegistry r s registry
      obtain ⟨touched, store, journal, top, whole⟩ := ih (s := s.setRegistry r registry) others
        (first.count ▸ present) (by rw [here]; exact stacked.push admitted) later
      refine ⟨first.trans touched, store, journal, ?_, fun none => by
        rw [whole none, List.length_cons]⟩
      rw [List.take_succ_cons, stack_cons, if_neg full]
      simpa using top
    · have here := Shared.registry_setRegistry s r r registry present
      rw [if_pos rfl] at here
      simp only [answer] at done
      cases done
      refine ⟨.setRegistry r s registry, rfl, rfl, ?_, by simp⟩
      rw [here]
      simpa [stack] using stacked.same same

theorem unregisterBlocks_stacked (described : ∀ p ∈ ps, Described domain zone s.store p)
    (present : r < s.registries.length)
    (stacked : Stacked base (s.registry r) (stack domain zone ps)) :
    ∃ t, unregisterBlocks r ps s = (none, t) ∧ Shared.Touched r s t ∧ t.journal = s.journal ∧
      Store.Alters (ps.flatMap Block.vectors) s.store t.store ∧
      base.SameCollectors (t.registry r) := by
  induction ps generalizing s with
  | nil => exact ⟨s, rfl, .refl r s, rfl, .refl _ _, stacked.collectors⟩
  | cons p rest ih =>
    have head := described p List.mem_cons_self
    have others : ∀ q ∈ rest, Described domain zone (s.store.clear p.vectors) q :=
      fun q member => (described q (List.mem_cons_of_mem _ member)).alters (.clear _ _)
    have cleared : Store.Alters ((p :: rest).flatMap Block.vectors) s.store
        (s.store.clear p.vectors) :=
      (Store.Alters.clear _ _).mono fun i inside =>
        List.mem_flatMap.mpr ⟨p, List.mem_cons_self, inside⟩
    have wider : ∀ i ∈ rest.flatMap Block.vectors, i ∈ (p :: rest).flatMap Block.vectors := by
      intro i inside
      rw [List.flatMap_cons]
      exact List.mem_append_right _ inside
    rw [stack_cons] at stacked
    by_cases empty : p.vectors = []
    · rw [if_pos empty] at stacked
      have answer := Block.unregister_held (r := r) head (fun full => absurd empty full)
        (fun full => absurd empty full)
      rw [if_pos empty] at answer
      obtain ⟨t, tail, touched, journal, altered, same⟩ :=
        ih (s := { s with store := s.store.clear p.vectors }) others present stacked
      refine ⟨t, ?_, ⟨touched.count, touched.others⟩, journal,
        cleared.trans (altered.mono wider), same⟩
      simp only [unregisterBlocks, answer, tail]
    · rw [if_neg empty] at stacked
      have answer := Block.unregister_held (r := r) head (fun _ => stacked.own_nodup)
        (fun _ => stacked.held)
      rw [if_neg empty] at answer
      have here := Shared.registry_setRegistry { s with store := s.store.clear p.vectors } r r
        ((s.registry r).without (p.identities domain zone)) present
      rw [if_pos rfl] at here
      have first := Shared.Touched.setRegistry r { s with store := s.store.clear p.vectors }
        ((s.registry r).without (p.identities domain zone))
      obtain ⟨t, tail, touched, journal, altered, same⟩ :=
        ih (s := ({ s with store := s.store.clear p.vectors } : Shared).setRegistry r
          ((s.registry r).without (p.identities domain zone))) others (first.count ▸ present)
          (by rw [here]; exact stacked.pop)
      refine ⟨t, ?_, ⟨(first.trans touched).count, (first.trans touched).others⟩, journal,
        cleared.trans (altered.mono wider), same⟩
      simp only [unregisterBlocks, answer, tail]

end Zone

namespace Mount

variable {δ : Type} {x : Mount δ} {store : Store}

theorem Shown.described (h : x.Shown store) : Described x.domain x.zone store x.block :=
  ⟨h.collector, h.descriptors⟩

theorem Shown.vectors_eq_nil (h : x.Shown store) : x.vectors = [] ↔ x.block.metrics = [] := by
  rw [← List.length_eq_zero_iff, ← List.length_eq_zero_iff, h.vectors.length_eq]

theorem exhibits_nil (none : x.block.metrics = []) : x.exhibits = [] := if_pos none

theorem exhibits_full (full : x.block.metrics ≠ []) :
    x.exhibits = [⟨x.registry, x.vectors, x.identities⟩] := if_neg full

end Mount

namespace Mirror

variable {δ : Type} {count : Nat} {xs rest : List (Mount δ)} {x : Mount δ}
  {guests : List Guest} {s t : Shared}

theorem enter (h : Mirror count xs guests s) (present : x.registry < count)
    (shown : x.Shown s.store) (own : x.vectors.Nodup)
    (apart : ∀ i ∈ x.vectors, i ∉ xs.flatMap Mount.vectors ++ guests.map (·.vector))
    (done : x.block.register x.registry s = (none, t)) : Mirror count (x :: xs) guests t := by
  rcases Block.register_cases shown.described x.registry with
    ⟨empty, answer⟩ | ⟨full, registry, ⟨answer, admitted⟩ | ⟨e, answer, -⟩⟩
  · rw [answer] at done
    cases done
    have none := Mount.exhibits_nil (shown.vectors_eq_nil.mp empty)
    refine ⟨h.counted, ?_, ?_⟩
    · rw [List.flatMap_cons, none]
      exact h.ledger
    · intro y member
      rcases List.mem_cons.mp member with rfl | member
      · exact shown
      · exact h.shown y member
  · rw [answer] at done
    cases done
    have some := Mount.exhibits_full fun none => full (shown.vectors_eq_nil.mpr none)
    refine ⟨?_, ?_, ?_⟩
    · simpa [Shared.setRegistry] using h.counted
    · rw [List.flatMap_cons, some, List.append_assoc]
      refine h.ledger.enter (x := ⟨x.registry, x.vectors, x.identities⟩)
        (h.counted.symm ▸ present) admitted own ?_
        shown.lt
      intro y member i inside other
      apply apart i inside
      rw [← h.vectors]
      exact List.mem_flatMap.mpr ⟨y, member, other⟩
    · intro y member
      rcases List.mem_cons.mp member with rfl | member
      · exact shown
      · exact h.shown y member
  · rw [answer] at done
    cases done

theorem leave (h : Mirror count (x :: rest) guests s) :
    ∃ t, x.block.unregister x.registry s = (none, t) ∧ t.journal = s.journal ∧
      Mirror count rest guests t := by
  have shown := h.shown x List.mem_cons_self
  have ledger := h.ledger
  have cleared : Ledger ((x :: rest).flatMap Mount.exhibits ++ guests.map Guest.exhibit)
      { s with store := s.store.clear x.vectors } :=
    ledger.agrees rfl (Nat.le_of_eq (Store.Alters.clear x.vectors s.store).count.symm)
  have others : ∀ y ∈ rest, y.Shown (s.store.clear x.vectors) := by
    intro y member
    refine (h.shown y (List.mem_cons_of_mem _ member)).congr fun i other => ?_
    exact (Store.Alters.clear x.vectors s.store).others i fun own => h.others member i own other
  by_cases none : x.block.metrics = []
  · have empty : x.block.vectors = [] := shown.vectors_eq_nil.mpr none
    have answer := Block.unregister_held (r := x.registry) shown.described
      (fun full => absurd empty full) (fun full => absurd empty full)
    rw [if_pos empty] at answer
    rw [List.flatMap_cons, Mount.exhibits_nil none] at cleared
    exact ⟨_, answer, rfl, h.counted, cleared, others⟩
  · have full : x.block.vectors ≠ [] := fun empty => none (shown.vectors_eq_nil.mp empty)
    rw [List.flatMap_cons, Mount.exhibits_full none, List.append_assoc] at ledger cleared
    have answer := Block.unregister_held (r := x.registry) shown.described
      (fun _ => ledger.identities_nodup List.mem_cons_self)
      (fun _ => ledger.held List.mem_cons_self)
    rw [if_neg full] at answer
    exact ⟨_, answer, rfl, by simpa [Shared.setRegistry] using h.counted, cleared.strike, others⟩

end Mirror

end Telemetry
