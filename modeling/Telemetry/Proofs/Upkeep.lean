import Telemetry.Proofs.Attaching
import Telemetry.Proofs.Faults
import Telemetry.Proofs.Publishing

/-! What zones and domains do keeps the mirror: attaching a zone adds its blocks, detaching takes
them out and cannot fail, and every operation leaves the same blocks with newer values. Each lemma
speaks of one part of the mirror in front of any rest. -/
namespace Telemetry

open Series (Store)

namespace Zone

variable {δ : Type}

def mounts (registry : Nat) (domain : String) (z : Zone δ) : List (Mount δ) :=
  z.blocks.map fun b => ⟨registry, domain, z.name, b⟩

end Zone

namespace Domain

variable {δ : Type}

def mounts (d : Domain δ) : List (Mount δ) := d.zones.flatMap (Zone.mounts d.registry d.name)

end Domain

namespace Mirror

variable {δ : Type} {count : Nat} {before after xs ys rest : List (Mount δ)} {x y : Mount δ}
  {guests : List Guest} {s t : Shared} {r : Nat} {domain : String}

theorem within (h : Mirror count (before ++ xs ++ after) guests s)
    (change : ∀ rest, Mirror count (xs ++ rest) guests s → Mirror count (ys ++ rest) guests t) :
    Mirror count (before ++ ys ++ after) guests t := by
  have front (zs : List (Mount δ)) : (before ++ zs ++ after).Perm (zs ++ (before ++ after)) := by
    rw [List.append_assoc, ← List.append_assoc zs]
    exact (List.perm_append_comm_assoc before zs after).trans
      (.of_eq (List.append_assoc zs before after).symm)
  exact (change _ (h.perm (front xs))).perm (front ys).symm

theorem member {f : α → List (Mount δ)} {as bs : List α} {a b : α}
    (h : Mirror count ((as ++ a :: bs).flatMap f ++ rest) guests s)
    (change : ∀ rest, Mirror count (f a ++ rest) guests s → Mirror count (f b ++ rest) guests t) :
    Mirror count ((as ++ b :: bs).flatMap f ++ rest) guests t := by
  rw [List.flatMap_append, List.flatMap_cons, ← List.append_assoc, List.append_assoc _ _ rest] at h ⊢
  exact h.within change

theorem becomes {d e : Domain δ} {result : Option Fault × List (Zone δ) × Shared}
    (becomes : d.Becomes result e t)
    (h : Mirror count (result.2.1.flatMap (Zone.mounts d.registry d.name) ++ rest) guests
      result.2.2) : Mirror count (e.mounts ++ rest) guests t := by
  rw [Domain.mounts, becomes.zones, becomes.frame.registry, becomes.frame.name]
  exact h.agrees becomes.shared.agrees

variable [Driver δ] {env : Surroundings} {clear : Bool}

theorem passZone {z : Zone δ} (h : Mirror count (z.mounts r domain ++ rest) guests s) :
    Mirror count ((z.pass env clear s).2.1.mounts r domain ++ rest) guests
      (z.pass env clear s).2.2 := by
  unfold Zone.pass
  split
  · have passed := passOver_in_place (Block.pass env clear)
      (fun blocks state => Mirror count
        (blocks.map (fun b => (⟨r, domain, z.name, b⟩ : Mount δ)) ++ rest) guests state)
      ?_ [] z.blocks s h
    · exact passed
    · intro before b after state held
      rw [List.map_append, List.map_cons, List.append_assoc, List.cons_append,
        List.append_cons] at held ⊢
      exact held.within fun _ here => here.pass
  · exact h

theorem treat {z : Zone δ} (treatment : Treatment)
    (h : Mirror count (z.mounts r domain ++ rest) guests s) :
    Mirror count ((treatment.run env z s).2.1.mounts r domain ++ rest) guests
      (treatment.run env z s).2.2 := by
  cases treatment with
  | pass clear => exact h.passZone
  | enable clear =>
    simp only [Treatment.run, Zone.enable]
    split
    · exact passZone (z := { z with enabled := true }) h
    · exact h
  | disable => exact h

theorem effect {zones : List (Zone δ)} (effect : Effect)
    (h : Mirror count (zones.flatMap (Zone.mounts r domain) ++ rest) guests s) :
    Mirror count ((effect.run env zones s).2.1.flatMap (Zone.mounts r domain) ++ rest) guests
      (effect.run env zones s).2.2 := by
  cases effect with
  | nothing => exact h
  | everywhere clear =>
    exact passOver_in_place (Zone.pass env clear)
      (fun zones state => Mirror count (zones.flatMap (Zone.mounts r domain) ++ rest) guests state)
      (fun _ _ _ _ held => held.member fun _ here => here.passZone) [] zones s h
  | one handle treatment =>
    simp only [Effect.run]
    split
    · exact h
    · rename_i i z found
      obtain ⟨whole, changed⟩ := split_at (Effect.found_at found).2
      rw [changed]
      rw [whole] at h
      exact h.member fun _ here => here.treat treatment

theorem operate {d : Domain δ} (operation : Operation)
    (h : Mirror count (d.mounts ++ rest) guests s) :
    Mirror count ((operation.run env d s).domain.mounts ++ rest) guests
      (operation.run env d s).shared :=
  becomes (operation.run_becomes env d s) (h.effect (operation.effect d))

/-! ### Attaching -/

omit [Driver δ] in
theorem register {zone : String} {ps : List (Block δ)} {k : Nat} (h : Mirror count xs guests s)
    (present : r < count) (shown : ∀ p ∈ ps, (⟨r, domain, zone, p⟩ : Mount δ).Shown s.store)
    (unique : (ps.flatMap Block.vectors).Nodup)
    (apart : ∀ i ∈ ps.flatMap Block.vectors,
      i ∉ xs.flatMap Mount.vectors ++ guests.map (·.vector))
    (done : Zone.registerBlocks r ps s = (none, k, t)) :
    Mirror count (ps.map (fun p => ⟨r, domain, zone, p⟩) ++ xs) guests t := by
  induction ps generalizing xs s k with
  | nil =>
    cases done
    exact h
  | cons p rest ih =>
    rw [List.flatMap_cons] at unique apart
    obtain ⟨own, unique, disjoint⟩ := List.nodup_append'.mp unique
    unfold Zone.registerBlocks at done
    split at done
    · cases done
    · rename_i u here
      cases later : Zone.registerBlocks r rest u with | mk refused tail =>
      obtain ⟨others, v⟩ := tail
      simp only [later] at done
      cases done
      have store := Block.register_store p r s
      rw [here] at store
      have entered := h.enter (x := ⟨r, domain, zone, p⟩) present (shown p List.mem_cons_self) own
        (fun i inside => apart i (List.mem_append_left _ inside)) here
      have tail := ih entered (fun q member => store ▸ shown q (List.mem_cons_of_mem _ member))
        unique ?_ later
      · exact tail.perm List.perm_middle
      · intro i inside other
        rw [List.flatMap_cons, List.append_assoc, List.mem_append] at other
        rcases other with same | old
        · exact disjoint same inside
        · exact apart i (List.mem_append_right _ inside) old

theorem introduce {zone : String} {ps : List (Block δ)}
    (h : Mirror count (ps.map (fun p => ⟨r, domain, zone, p⟩) ++ xs) guests s) :
    Mirror count ((ps.map Block.introduced).map (fun p => ⟨r, domain, zone, p⟩) ++ xs) guests s := by
  induction ps generalizing xs with
  | nil => exact h
  | cons p rest ih =>
    have head := h.reblock (b := p.introduced) rfl rfl rfl
    exact (ih (head.perm List.perm_middle.symm)).perm List.perm_middle

omit [Driver δ] in
theorem stored (h : Mirror count xs guests s) :
    ∀ i ∈ xs.flatMap Mount.vectors ++ guests.map (·.vector), i < s.store.vectors.length := by
  intro i inside
  rw [← h.vectors] at inside
  obtain ⟨x, member, own⟩ := List.mem_flatMap.mp inside
  exact h.ledger.stored x member i own

theorem registers {z w : Zone δ} {handle : ZoneHandle} {ps : List (Block δ)} {u v : Shared}
    (h : Mirror count xs guests s) (present : r < count)
    (a : Zone.Attaches env domain r handle z s ps u v w t) :
    Mirror count (ps.map (fun p => ⟨r, domain, z.name, p⟩) ++ xs) guests v :=
  (h.grows a.grown.1 a.grown.2).register present
    (fun p member => ⟨p.vectors, a.batch.attached p member, a.batch.shows p member⟩)
    a.batch.unique
    (fun i inside other => Nat.not_lt.mpr (a.batch.fresh i inside) (h.stored i other))
    a.registered

theorem attaches {z w : Zone δ} {handle : ZoneHandle} {ps : List (Block δ)} {u v : Shared}
    (h : Mirror count xs guests s) (present : r < count)
    (a : Zone.Attaches env domain r handle z s ps u v w t) :
    Mirror count (w.mounts r domain ++ xs) guests t := by
  rw [a.zone, a.told]
  exact (h.registers present a).introduce.agrees (.emit _ _)

theorem attach {d : Domain δ} {z : Zone δ} (h : Mirror count (d.mounts ++ rest) guests s)
    (bare : z.Bare) (present : d.registry < count) :
    Mirror count ((d.attachZone env z s).domain.mounts ++ rest) guests (d.attachZone env z s).shared ∧
      (d.attachZone env z s).domain.registry = d.registry ∧
      Domain.Clear (d.attachZone env z s).outcome := by
  rcases Domain.attachZone_cases env bare (h.counted.symm ▸ present) with
    answer | ⟨f, t, answer, unlabelled, breaks⟩ | ⟨refusal, w, t, answer, -, restores⟩ |
    ⟨ps, u, v, w, t, answer, -, attaches⟩
  all_goals rw [answer]
  · exact ⟨h, rfl, Domain.clear_fault rfl⟩
  · exact ⟨h.grows breaks.registries breaks.grown, rfl,
      Domain.clear_fault (Fault.free_of_unlabelled unlabelled)⟩
  · exact ⟨h.same restores.count restores.collectors restores.grown, rfl,
      Domain.clear_refused refusal⟩
  · refine ⟨(h.attaches present attaches).perm ?_, rfl, Domain.clear_ok _⟩
    simp only [Domain.mounts, List.flatMap_append, List.flatMap_singleton, List.append_assoc]
    exact List.perm_append_comm_assoc _ _ _

/-! ### Detaching -/

theorem detachBlock (h : Mirror count (x :: rest) guests s) :
    ∃ t, x.block.detach x.registry s = (none, x.block.left, t) ∧ Mirror count rest guests t := by
  have told := (h.reblock (b := x.block.dismissed) rfl rfl rfl).agrees (.emit s x.block.dismissal)
  obtain ⟨t, answer, -, left⟩ := told.leave
  refine ⟨t.emit x.block.released, ?_, left.agrees (.emit t _)⟩
  simp only [x.block.detach_eq, answer]

theorem detachBlocks {zone : String} {bs : List (Block δ)}
    (h : Mirror count (bs.map (fun b => ⟨r, domain, zone, b⟩) ++ rest) guests s) :
    ∃ t, passOver (Block.detach r) bs s = (none, bs.map Block.left, t) ∧
      Mirror count rest guests t := by
  induction bs generalizing s with
  | nil => exact ⟨s, rfl, h⟩
  | cons b bs ih =>
    obtain ⟨u, here, out⟩ := h.detachBlock
    obtain ⟨t, later, whole⟩ := ih out
    refine ⟨t, ?_, whole⟩
    simp only at here
    simp only [passOver, here, later, List.map_cons]

theorem detachZone {z : Zone δ} (h : Mirror count (z.mounts r domain ++ rest) guests s) :
    ∃ t, z.detach r s = (none, z.left, t) ∧ Mirror count rest guests t := by
  obtain ⟨t, done, out⟩ := h.detachBlocks
  have whole : z.detach r s = (none, z.left, t.log .info s!"detached zone {z.name}") := by
    simp only [Zone.detach, done]
    rfl
  exact ⟨_, whole, out.agrees (.log _ _ _)⟩

theorem detachZones {zones : List (Zone δ)}
    (h : Mirror count (zones.flatMap (Zone.mounts r domain) ++ rest) guests s) :
    ∃ t, passOver (Zone.detach r) zones s = (none, zones.map Zone.left, t) ∧
      Mirror count rest guests t := by
  induction zones generalizing s with
  | nil => exact ⟨s, rfl, h⟩
  | cons z zones ih =>
    rw [List.flatMap_cons, List.append_assoc] at h
    obtain ⟨u, here, out⟩ := h.detachZone
    obtain ⟨t, later, whole⟩ := ih out
    refine ⟨t, ?_, whole⟩
    simp only [passOver, here, later, List.map_cons]

/-- How detaching through a handle can end: nothing has happened, or the zone is out. -/
theorem detach_cases {d : Domain δ} (handle : ZoneHandle)
    (h : Mirror count (d.mounts ++ rest) guests s) :
    (∃ f, f.stuck = false ∧ d.detachZone handle s = ⟨.error (.fault f), d, s⟩) ∨
      ∃ i z t, d.treePoisoned = false ∧ d.position handle = some i ∧ d.zones[i]? = some z ∧
        d.detachZone handle s = ⟨.ok z.left,
          { d with zones := d.zones.eraseIdx i, valueCount := d.valueCount - z.valueCount }, t⟩ ∧
        Mirror count ((d.zones.eraseIdx i).flatMap (Zone.mounts d.registry d.name) ++ rest)
          guests t ∧ z.detach d.registry s = (none, z.left, t) := by
  rw [Domain.detachZone, Domain.onZone]
  split
  · exact .inl ⟨_, rfl, rfl⟩
  · split
    · exact .inl ⟨_, rfl, rfl⟩
    · rename_i sound
      split
      · exact .inl ⟨_, rfl, rfl⟩
      · rename_i i z found
        right
        obtain ⟨placed, inside⟩ := Effect.found_at found
        have front := h.perm ((flatMap_eraseIdx _ inside).append_right rest)
        rw [List.append_assoc] at front
        obtain ⟨t, done, out⟩ := front.detachZone
        refine ⟨i, z, t, by simpa using sound, placed, inside, ?_, out, done⟩
        simp only [Domain.locked, done]
        rw [if_neg sound]

/-! ### Guests -/

omit [Driver δ] in
theorem enlist {v : Series.Vector} (h : Mirror count xs guests s) (present : r < count) :
    match SelfMetrics.registerOne r v s with
    | (.error _, t) => Mirror count xs guests t
    | (.ok ref, t) =>
      Mirror count xs (guests ++ [⟨r, ref.vector, v.descriptor.identity⟩]) t := by
  have inside : r < s.registries.length := h.counted.symm ▸ present
  have added : Store.Extends s.store (s.store.add v).2 := .add s.store v
  cases answer : (s.registry r).register [v.descriptor] [s.store.vectors.length] with
  | mk result registry =>
  have whole : SelfMetrics.registerOne r v s =
      (result.map fun _ => SelfMetrics.only s.store.vectors.length,
        ({ s with store := (s.store.add v).2 } : Shared).setRegistry r registry) := by
    simp only [SelfMetrics.registerOne, Store.add, answer]
  have here := Shared.registry_setRegistry { s with store := (s.store.add v).2 } r
  rw [whole]
  cases result with
  | error e =>
    refine h.same (by simp [Shared.setRegistry]) ?_ added
    intro j
    rw [here j registry inside]
    split
    · rename_i same
      rw [← same]
      exact Series.Registry.register_error answer
    · exact ⟨rfl, rfl⟩
  | ok _ =>
    have grown := h.grows (t := { s with store := (s.store.add v).2 }) rfl added
    have admitted := Series.Registry.register_ok answer
    have length : (s.store.add v).2.vectors.length = s.store.vectors.length + 1 := by
      simp [Store.add]
    have entered := grown.ledger.enter
      (x := ⟨r, [s.store.vectors.length], [v.descriptor.identity]⟩) (r := registry) inside admitted
      (List.nodup_singleton _) ?_ ?_
    · refine ⟨?_, entered.perm ?_, grown.shown⟩
      · simpa [Shared.setRegistry] using h.counted
      · rw [List.map_append, ← List.append_assoc]
        exact (List.perm_append_singleton _ _).symm
    · intro y member i own other
      have below := h.ledger.stored y member i other
      rw [List.mem_singleton.mp own] at below
      exact Nat.lt_irrefl _ below
    · intro i own
      rw [List.mem_singleton.mp own]
      exact Nat.lt_of_lt_of_eq (Nat.lt_succ_self _) length.symm

omit [Driver δ] in
theorem publish {g : Guest} (h : Mirror count xs guests s) (member : g ∈ guests)
    (key : Fingerprint) (value : Binary64) :
    Mirror count xs guests { s with store := s.store.set ⟨g.vector, key⟩ value } := by
  have altered : Store.Alters [g.vector] s.store (s.store.set ⟨g.vector, key⟩ value) :=
    .set (List.mem_singleton_self g.vector) _ _
  refine ⟨h.counted, h.ledger.agrees rfl (Nat.le_of_eq altered.count.symm), ?_⟩
  intro x inside
  refine (h.shown x inside).congr fun i own => altered.others i fun same => ?_
  rw [List.mem_singleton.mp same] at own
  exact (List.nodup_append'.mp h.apart).2.2 (List.mem_flatMap.mpr ⟨x, inside, own⟩)
    (List.mem_map_of_mem member)

end Mirror

end Telemetry
