import Telemetry.Proofs.Attaching

/-! What registries remember. The dimensions of a name stand from the first descriptor of that name
that is walked over, whatever becomes of the registration and of the attachment that it is part of;
and nothing is registered under other dimensions than those that stand. -/
namespace Telemetry

namespace Series.Registry

theorem dimensions?_noting (r : Registry) (d : Descriptor) (name : String) :
    (r.noting d).dimensions? name =
      (r.dimensions? name).or (if d.name = name then some d.dimensions else none) := by
  unfold noting
  split
  · rename_i known
    by_cases same : d.name = name
    · obtain ⟨x, old⟩ := Option.isSome_iff_exists.mp known
      rw [← same, old]
      rfl
    · simp [same]
  · simp only [dimensions?, List.find?_append, List.find?_singleton, Option.map_or]
    by_cases same : d.name = name <;> simp [same]

/-- No dimensions are forgotten, and those that are new are of certain descriptors. -/
structure Learns (P : Descriptor → Prop) (r t : Registry) : Prop where
  remembers : ∀ name x, r.dimensions? name = some x → t.dimensions? name = some x
  source : ∀ name x, t.dimensions? name = some x →
    r.dimensions? name = some x ∨ ∃ d, P d ∧ d.name = name ∧ d.dimensions = x

def Agrees (r : Registry) (d : Descriptor) : Prop :=
  ∀ x, r.dimensions? d.name = some x → d.dimensions = x

variable {P : Descriptor → Prop} {r t u : Registry} {d : Descriptor} {ds : List Descriptor}
  {seen : List Fingerprint}

namespace Learns

theorem refl (P : Descriptor → Prop) (r : Registry) : Learns P r r :=
  ⟨fun _ _ known => known, fun _ _ known => .inl known⟩

theorem trans (first : Learns P r t) (second : Learns P t u) : Learns P r u := by
  refine ⟨fun name x known => second.remembers name x (first.remembers name x known), ?_⟩
  intro name x known
  rcases second.source name x known with old | new
  · exact first.source name x old
  · exact .inr new

theorem mono {Q : Descriptor → Prop} (h : Learns P r t) (wider : ∀ d, P d → Q d) :
    Learns Q r t := by
  refine ⟨h.remembers, fun name x known => (h.source name x known).imp_right ?_⟩
  rintro ⟨d, own, same⟩
  exact ⟨d, wider d own, same⟩

theorem agrees (h : Learns P r t) (agrees : t.Agrees d) : r.Agrees d :=
  fun x known => agrees x (h.remembers d.name x known)

end Learns

theorem noting_learns (own : P d) (r : Registry) : Learns P r (r.noting d) := by
  constructor
  · intro name x known
    rw [dimensions?_noting, known]
    rfl
  · intro name x known
    rw [dimensions?_noting] at known
    cases old : r.dimensions? name with
    | some y =>
      rw [old] at known
      exact .inl known
    | none =>
      by_cases same : d.name = name
      · rw [old, if_pos same] at known
        exact .inr ⟨d, own, same, Option.some.inj known⟩
      · rw [old, if_neg same] at known
        cases known

theorem enroll_learns (own : ∀ d ∈ ds, P d) (r : Registry) (seen : List Fingerprint) :
    Learns P r (r.enroll seen ds).2 := by
  induction ds generalizing r seen with
  | nil => exact .refl P r
  | cons d rest ih =>
    have noted := noting_learns (own d List.mem_cons_self) r
    rw [enroll_cons]
    split
    · exact .refl P r
    · split
      · exact .refl P r
      · split
        · exact noted
        · exact noted.trans (ih (fun e member => own e (List.mem_cons_of_mem _ member)) _ _)

theorem enroll_agrees (accepted : r.enroll seen ds = (.ok (), t)) : ∀ d ∈ ds, r.Agrees d := by
  induction ds generalizing r seen with
  | nil => exact fun d member => absurd member List.not_mem_nil
  | cons d rest ih =>
    rw [enroll_cons] at accepted
    split at accepted
    · cases accepted
    · split at accepted
      · cases accepted
      · rename_i alike
        split at accepted
        · cases accepted
        · intro e member
          rcases List.mem_cons.mp member with rfl | member
          · intro x known
            rw [known, Option.any_some, decide_eq_true_eq, not_not] at alike
            exact alike.symm
          · exact (noting_learns trivial r).agrees (P := fun _ => True) (ih accepted e member)

theorem register_learns (own : ∀ d ∈ ds, P d) (r : Registry) (vectors : List Nat) :
    Learns P r (r.register ds vectors).2 := by
  have enrolled := enroll_learns own r []
  unfold register
  cases done : r.enroll [] ds with | mk result u =>
  rw [done] at enrolled
  cases result with
  | error e => exact enrolled
  | ok _ =>
    simp only
    split
    · exact enrolled
    · exact ⟨enrolled.remembers, enrolled.source⟩

theorem register_agrees {vectors : List Nat} (accepted : r.register ds vectors = (.ok (), t)) :
    ∀ d ∈ ds, r.Agrees d := by
  unfold register at accepted
  cases done : r.enroll [] ds with | mk result u =>
  simp only [done] at accepted
  cases result with
  | error e => cases accepted
  | ok _ => exact enroll_agrees done

theorem unregister_learns (P : Descriptor → Prop) (r : Registry) (ds : List Descriptor) :
    Learns P r (r.unregister ds).2 := by
  unfold unregister
  simp only
  split
  · exact ⟨fun _ _ known => known, fun _ _ known => .inl known⟩
  · exact .refl P r

end Series.Registry

namespace Shared

open Series (Registry)

variable {P : Nat → Series.Descriptor → Prop} {s t u : Shared}

/-- Every registry learns of certain descriptors. -/
def Learns (P : Nat → Series.Descriptor → Prop) (s t : Shared) : Prop :=
  ∀ r, (s.registry r).Learns (P r) (t.registry r)

namespace Learns

theorem refl (P : Nat → Series.Descriptor → Prop) (s : Shared) : Learns P s s := fun _ => .refl _ _

theorem trans (first : Learns P s t) (second : Learns P t u) : Learns P s u :=
  fun r => (first r).trans (second r)

theorem same (registries : t.registries = s.registries) : Learns P s t :=
  fun r => by rw [registry_congr registries r]; exact .refl _ _

theorem setRegistry (i : Nat) {q : Registry} (learns : (s.registry i).Learns (P i) q) :
    Learns P s (s.setRegistry i q) := by
  intro j
  by_cases present : i < s.registries.length
  · rw [s.registry_setRegistry i j q present]
    split
    · rename_i here
      exact here ▸ learns
    · exact .refl _ _
  · rw [Shared.setRegistry, List.set_eq_of_length_le (Nat.le_of_not_lt present)]
    exact .refl _ _

end Learns

end Shared

namespace Block

variable {δ : Type} {P : Nat → Series.Descriptor → Prop} {b : Block δ} {s t : Shared} {r : Nat}

def descriptors (store : Series.Store) (b : Block δ) : List Series.Descriptor :=
  match b.collector with
  | some c => store.descriptors c.vectors
  | none => []

theorem register_learns (own : ∀ d ∈ b.descriptors s.store, P r d) :
    s.Learns P (b.register r s).2 := by
  unfold descriptors at own
  unfold register
  cases attached : b.collector with
  | none => exact .refl P s
  | some c =>
    simp only [attached] at own
    have kept := (s.registry r).register_learns own c.vectors
    simp only [Collector.register]
    split
    · exact .refl P s
    · split
      · rename_i refused
        rw [refused] at kept
        exact .setRegistry r kept
      · rename_i admitted
        rw [admitted] at kept
        exact .setRegistry r kept

theorem register_agrees (done : b.register r s = (none, t)) :
    ∀ d ∈ b.descriptors s.store, (s.registry r).Agrees d := by
  unfold register at done
  unfold descriptors
  cases attached : b.collector with
  | none => exact fun d member => absurd member List.not_mem_nil
  | some c =>
    simp only [attached, Collector.register] at done
    split at done
    · rename_i empty
      have none : c.vectors = [] := List.isEmpty_iff.mp empty
      simp [none, Series.Store.descriptors]
    · split at done
      · cases done
      · rename_i admitted
        exact Series.Registry.register_agrees admitted

theorem unregister_learns (P : Nat → Series.Descriptor → Prop) (r : Nat) (b : Block δ)
    (s : Shared) : s.Learns P (b.unregister r s).2 := by
  unfold unregister
  cases b.collector with
  | none => exact .refl P s
  | some c =>
    have cleared : s.Learns P { s with store := s.store.clear c.vectors } := .same rfl
    have kept : (s.registry r).Learns (P r)
        ((Shared.registry { s with store := s.store.clear c.vectors } r).unregister
          ((s.store.clear c.vectors).descriptors c.vectors)).2 :=
      Series.Registry.unregister_learns _ _ _
    cases done : c.unregister r s with | mk refusal u =>
    have after : s.Learns P u := by
      simp only [Collector.unregister] at done
      split at done
      · cases done
        exact cleared
      · split at done
        all_goals
          rename_i removed
          rw [removed] at kept
          cases done
          exact cleared.trans (.setRegistry r kept)
    cases refusal <;> (simp only [done]; exact after)

end Block

namespace Zone

variable {δ : Type} {P : Nat → Series.Descriptor → Prop} {s t u : Shared} {r k : Nat}
  {ps : List (Block δ)} {z w : Zone δ}

def descriptors (domain : String) (z : Zone δ) : List Series.Descriptor :=
  z.blocks.flatMap fun b =>
    b.metrics.filterMap fun m => (Collector.describe domain z.name b.name m.spec).toOption

theorem registerBlocks_learns (own : ∀ p ∈ ps, ∀ d ∈ p.descriptors s.store, P r d) :
    s.Learns P (registerBlocks r ps s).2.2 := by
  induction ps generalizing s with
  | nil => exact .refl P s
  | cons p rest ih =>
    have head := Block.register_learns (own p List.mem_cons_self)
    have store := p.register_store r s
    unfold registerBlocks
    split
    · rename_i refused
      rw [refused] at head
      exact head
    · rename_i registered
      rw [registered] at head store
      exact head.trans (ih fun q member => store ▸ own q (List.mem_cons_of_mem _ member))

theorem registerBlocks_agrees (done : registerBlocks r ps s = (none, k, t)) :
    ∀ p ∈ ps, ∀ d ∈ p.descriptors s.store, (s.registry r).Agrees d := by
  induction ps generalizing s k with
  | nil => exact fun p member => absurd member List.not_mem_nil
  | cons p rest ih =>
    have learns := Block.register_learns (P := fun _ _ => True) (b := p) (s := s) (r := r)
      fun _ _ => trivial
    have store := p.register_store r s
    unfold registerBlocks at done
    split at done
    · cases done
    · rename_i v registered
      rw [registered] at learns store
      cases later : registerBlocks r rest v with | mk refusal result =>
      obtain ⟨n, w⟩ := result
      simp only [later] at done
      cases done
      intro q member d told
      rcases List.mem_cons.mp member with rfl | member
      · exact Block.register_agrees registered d told
      · exact (learns r).agrees (ih later q member d (store ▸ told))

theorem unregisterBlocks_learns (P : Nat → Series.Descriptor → Prop) (r : Nat)
    (ps : List (Block δ)) (s : Shared) : s.Learns P (unregisterBlocks r ps s).2 := by
  induction ps generalizing s with
  | nil => exact .refl P s
  | cons p rest ih =>
    have head := p.unregister_learns P r s
    unfold unregisterBlocks
    split
    · rename_i failed
      rw [failed] at head
      exact head
    · rename_i removed
      rw [removed] at head
      exact head.trans (ih _)

theorem refuse_learns (P : Nat → Series.Descriptor → Prop) (refusal : Refusal) (r k : Nat)
    (ps others : List (Block δ)) (z : Zone δ) (s : Shared) :
    s.Learns P (z.refuse refusal r k ps others s).2.2 := by
  have logged : s.Learns P (s.log .warn s!"rolling back attach of zone {z.name}") := .same rfl
  have undone := logged.trans (unregisterBlocks_learns P r (ps.take k) _)
  cases done : unregisterBlocks r (ps.take k)
    (s.log .warn s!"rolling back attach of zone {z.name}") with | mk fault u =>
  rw [done] at undone
  simp only [refuse, rollback, done, unprepareBlocks_eq]
  cases fault with
  | some f => exact undone
  | none => exact undone.trans (.same rfl)

theorem Batch.descriptors {domain : String} (h : Batch env domain z.name z.blocks ps s t)
    (d : Series.Descriptor) :
    d ∈ z.descriptors domain ↔ ∃ p ∈ ps, d ∈ p.descriptors t.store := by
  constructor
  · intro told
    obtain ⟨b, inside, told⟩ := List.mem_flatMap.mp told
    obtain ⟨m, own, described⟩ := List.mem_filterMap.mp told
    rw [← h.plain] at inside
    obtain ⟨p, member, rfl⟩ := List.mem_map.mp inside
    obtain ⟨n, placed, rfl⟩ := List.mem_map.mp own
    obtain ⟨i, vector, shows⟩ := forall₂_mem (h.shows p member) n placed
    obtain ⟨v, stored, same, -⟩ := shows.vector
    have here : v.descriptor = d := by
      have whole : (Collector.describe domain z.name p.name n.spec).toOption = some d := described
      rw [same] at whole
      exact Option.some.inj whole
    refine ⟨p, member, ?_⟩
    simp only [Block.descriptors, h.attached p member, Series.Store.descriptors]
    exact List.mem_filterMap.mpr ⟨i, vector, by rw [stored, Option.map_some, here]⟩
  · rintro ⟨p, member, told⟩
    simp only [Block.descriptors, h.attached p member, Series.Store.descriptors,
      List.mem_filterMap] at told
    obtain ⟨i, own, found⟩ := told
    obtain ⟨m, inside, shows⟩ := forall₂_mem (h.shows p member).flip i own
    obtain ⟨v, stored, described, -⟩ := shows.vector
    rw [stored] at found
    cases found
    refine List.mem_flatMap.mpr ⟨p.plain, h.plain ▸ List.mem_map_of_mem member, ?_⟩
    refine List.mem_filterMap.mpr ⟨m.plain, List.mem_map_of_mem inside, ?_⟩
    exact congrArg Except.toOption described

variable [Driver δ]

/-- An attachment teaches its registry dimensions of its own descriptors, if any. -/
theorem attach_learns (env : Surroundings) (domain : String) (r : Nat) (handle : ZoneHandle)
    (bare : z.Bare) (s : Shared) :
    s.Learns (fun j d => j = r ∧ d ∈ z.descriptors domain) (z.attach env domain r handle s).2.2 := by
  have grown := (prepareBlocks_grows env domain z.name z.blocks s).1
  cases prepared : prepareBlocks env domain z.name z.blocks s with | mk failure result =>
  obtain ⟨ps, others, u⟩ := result
  rw [prepared] at grown
  have first : s.Learns (fun j d => j = r ∧ d ∈ z.descriptors domain) u := .same grown
  simp only [attach, prepared]
  cases failure with
  | some failure =>
    cases failure with
    | fault f => exact first
    | refused refusal => exact first.trans (refuse_learns _ refusal r 0 ps others z u)
  | none =>
    obtain ⟨batch, -, -⟩ := prepareBlocks_ok bare.blocks prepared
    have second := first.trans (registerBlocks_learns (r := r) fun p member d told =>
      ⟨rfl, (batch.descriptors d).mpr ⟨p, member, told⟩⟩)
    cases registered : registerBlocks r ps u with | mk refusal result =>
    obtain ⟨k, v⟩ := result
    rw [registered] at second
    simp only [registered]
    cases refusal with
    | some refusal => exact second.trans (refuse_learns _ refusal r k ps others z v)
    | none =>
      simp only [attachBlocks_eq]
      exact second.trans (.same rfl)

theorem Attaches.agrees {domain : String} {handle : ZoneHandle} {v : Shared}
    (h : Attaches env domain r handle z s ps u v w t) :
    ∀ d ∈ z.descriptors domain, (s.registry r).Agrees d := by
  intro d told
  obtain ⟨p, member, own⟩ := (h.batch.descriptors d).mp told
  have here := registerBlocks_agrees h.registered p member d own
  rw [Shared.registry_congr h.grown.1] at here
  exact here

end Zone

end Telemetry
