import Telemetry.Proofs.Preparing
import Telemetry.Proofs.Registering

/-! Attaching a zone. Blocks are prepared one after the other, each with vectors that the ones
before do not have. A refusal at any of them, or at the registration of any of them, is rolled back
without a fault: the registries hold what they held, and the zone is as it was. -/
namespace Telemetry

open Series (Store Registry)
open Series.Registry (Stacked)
open Block (Described Prepared stack)

namespace Zone

variable {δ : Type} {env : Surroundings} {domain zone : String}

/-- Blocks that were prepared in order, with all that undoing it will give back. -/
structure Batch (env : Surroundings) (domain zone : String) (bs ps : List (Block δ))
    (s t : Shared) : Prop where
  plain : ps.map Block.plain = bs
  attached : ∀ p ∈ ps, p.collector = some ⟨p.name, p.vectors⟩
  shows : ∀ p ∈ ps, List.Forall₂ (Shows domain zone p.name t.store) p.vectors p.metrics
  unique : (ps.flatMap Block.vectors).Nodup
  fresh : ∀ i ∈ ps.flatMap Block.vectors, s.store.vectors.length ≤ i
  held : ps.flatMap Block.held = bs.flatMap (Block.computations env domain zone)

namespace Batch

variable {bs ps : List (Block δ)} {b p : Block δ} {s t u : Shared}

theorem nil (s t : Shared) : Batch env domain zone ([] : List (Block δ)) [] s t :=
  ⟨rfl, by simp, by simp, .nil, by simp, rfl⟩

theorem cons (head : Prepared env domain zone b p s u) (first : Store.Extends s.store u.store)
    (tail : Batch env domain zone bs ps u t) (later : Store.Extends u.store t.store) :
    Batch env domain zone (b :: bs) (p :: ps) s t := by
  have inside : ∀ i ∈ p.vectors, i < u.store.vectors.length := Shows.lt_all head.shows
  refine ⟨?_, ?_, ?_, ?_, ?_, ?_⟩
  · rw [List.map_cons, head.plain, tail.plain]
  · intro q member
    rcases List.mem_cons.mp member with rfl | member
    · exact head.attached
    · exact tail.attached q member
  · intro q member
    rcases List.mem_cons.mp member with rfl | member
    · exact Shows.congr_all head.shows fun i own => later.get? (inside i own)
    · exact tail.shows q member
  · rw [List.flatMap_cons]
    refine List.nodup_append'.mpr ⟨head.unique, tail.unique, ?_⟩
    intro i own other
    have := inside i own
    have := tail.fresh i other
    omega
  · intro i member
    rw [List.flatMap_cons, List.mem_append] at member
    rcases member with own | other
    · exact head.fresh i own
    · have := tail.fresh i other
      have := first.length
      omega
  · rw [List.flatMap_cons, List.flatMap_cons, head.held, tail.held]

theorem released (h : Batch env domain zone bs ps s t) :
    ps.flatMap Block.released
      = (bs.flatMap (Block.computations env domain zone)).flatMap Computed.released := by
  rw [← h.held, List.flatMap_assoc]
  exact List.flatMap_congr fun p _ => p.released_held

theorem described (h : Batch env domain zone bs ps s t) :
    ∀ p ∈ ps, Described domain zone t.store p := by
  intro p member
  have shown : (⟨0, domain, zone, p⟩ : Mount δ).Shown t.store :=
    ⟨p.vectors, h.attached p member, h.shows p member⟩
  exact shown.described

end Batch

theorem prepareBlocks_grows (env : Surroundings) (domain zone : String) (bs : List (Block δ))
    (s : Shared) :
    (prepareBlocks env domain zone bs s).2.2.2.registries = s.registries ∧
      Store.Extends s.store (prepareBlocks env domain zone bs s).2.2.2.store := by
  induction bs generalizing s with
  | nil => exact ⟨rfl, .refl _⟩
  | cons b rest ih =>
    have head := b.prepare_grows env domain zone s
    unfold prepareBlocks
    split
    · rename_i failed
      rw [failed] at head
      exact head
    · rename_i p u done
      rw [done] at head
      have tail := ih u
      exact ⟨tail.1.trans head.1, head.2.trans tail.2⟩

theorem prepareBlocks_ok {bs ps others : List (Block δ)} {s t : Shared} (bare : ∀ b ∈ bs, b.Bare)
    (done : prepareBlocks env domain zone bs s = (none, ps, others, t)) :
    Batch env domain zone bs ps s t ∧ others = [] ∧
      t.events = s.events ++
        (bs.flatMap (Block.computations env domain zone)).map Computed.resolved := by
  induction bs generalizing s ps with
  | nil =>
    cases done
    exact ⟨.nil _ _, rfl, by simp⟩
  | cons b rest ih =>
    have head := b.prepare_grows env domain zone s
    unfold prepareBlocks at done
    split at done
    · cases done
    · rename_i p u here
      have tail := prepareBlocks_grows env domain zone rest u
      rw [here] at head
      cases later : prepareBlocks env domain zone rest u with | mk failure result =>
      obtain ⟨qs, left, v⟩ := result
      rw [later] at tail
      simp only [later] at done
      cases done
      have prepared := Block.prepare_ok (bare b List.mem_cons_self) here
      obtain ⟨batch, rfl, events⟩ :=
        ih (fun c member => bare c (List.mem_cons_of_mem _ member)) later
      refine ⟨.cons prepared head.2 batch tail.2, rfl, ?_⟩
      rw [events, prepared.events, List.flatMap_cons, List.map_append, List.append_assoc]

theorem prepareBlocks_refused {bs ps others : List (Block δ)} {s t : Shared} {r : Refusal}
    (bare : ∀ b ∈ bs, b.Bare)
    (refused : prepareBlocks env domain zone bs s = (some (.refused r), ps, others, t)) :
    ∃ before b after, bs = before ++ b :: after ∧ others = b :: after ∧
      Batch env domain zone before ps s t ∧
      t.events = s.events ++
        ((before ++ [b]).flatMap (Block.computations env domain zone)).map Computed.resolved ++
        (b.computations env domain zone).flatMap Computed.released := by
  induction bs generalizing s ps with
  | nil => cases refused
  | cons b rest ih =>
    have head := b.prepare_grows env domain zone s
    unfold prepareBlocks at refused
    split at refused
    · rename_i here
      cases refused
      obtain ⟨rfl, events⟩ := Block.prepare_refused (bare b List.mem_cons_self) here
      exact ⟨[], _, rest, rfl, rfl, .nil _ _, by simpa using events⟩
    · rename_i p u here
      have tail := prepareBlocks_grows env domain zone rest u
      rw [here] at head
      cases later : prepareBlocks env domain zone rest u with | mk failure result =>
      obtain ⟨qs, left, v⟩ := result
      rw [later] at tail
      simp only [later] at refused
      cases refused
      have prepared := Block.prepare_ok (bare b List.mem_cons_self) here
      obtain ⟨before, c, after, rfl, rfl, batch, events⟩ :=
        ih (fun c member => bare c (List.mem_cons_of_mem _ member)) later
      refine ⟨b :: before, c, after, rfl, rfl, .cons prepared head.2 batch tail.2, ?_⟩
      rw [events, prepared.events, List.cons_append, List.flatMap_cons, List.map_append]
      simp only [List.append_assoc]

theorem prepareBlocks_cut {bs ps others : List (Block δ)} {s t : Shared} {f : Fault}
    (bare : ∀ b ∈ bs, b.Bare)
    (failed : prepareBlocks env domain zone bs s = (some (.fault f), ps, others, t)) :
    f.unlabelled = true ∧
      ∃ cs, cs <+: (bs.take (ps.length + 1)).flatMap (Block.computations env domain zone) ∧
        t.events = s.events ++ cs.map Computed.resolved := by
  induction bs generalizing s ps with
  | nil => cases failed
  | cons b rest ih =>
    unfold prepareBlocks at failed
    split at failed
    · rename_i here
      cases failed
      obtain ⟨unlabelled, cs, front, events⟩ := Block.prepare_cut here
      exact ⟨unlabelled, cs, by simpa using front, events⟩
    · rename_i p u here
      cases later : prepareBlocks env domain zone rest u with | mk failure result =>
      obtain ⟨qs, left, v⟩ := result
      simp only [later] at failed
      cases failed
      have prepared := Block.prepare_ok (bare b List.mem_cons_self) here
      obtain ⟨unlabelled, cs, front, events⟩ :=
        ih (fun c member => bare c (List.mem_cons_of_mem _ member)) later
      refine ⟨unlabelled, _, (List.prefix_append_right_inj _).mpr front, ?_⟩
      rw [events, prepared.events, List.map_append, List.append_assoc]

theorem unprepareBlocks_eq (ps : List (Block δ)) (s : Shared) :
    unprepareBlocks ps s = (ps.map Block.plain, s.emit (ps.flatMap Block.released)) := by
  induction ps generalizing s with
  | nil => rfl
  | cons p rest ih =>
    simp only [unprepareBlocks, Block.unprepare_eq, ih, Shared.emit_emit, List.map_cons,
      List.flatMap_cons]

def retreat (z : Zone δ) : Event := .record .warn s!"rolling back attach of zone {z.name}"

theorem refuse_eq (z : Zone δ) (refusal : Refusal) {r k : Nat} {ps : List (Block δ)}
    (others : List (Block δ)) {s : Shared} {base : Registry}
    (described : ∀ p ∈ ps, Described domain zone s.store p)
    (present : r < s.registries.length)
    (stacked : Stacked base (s.registry r) (stack domain zone (ps.take k))) :
    ∃ t, z.refuse refusal r k ps others s =
        (.error (.refused refusal), { z with blocks := ps.map Block.plain ++ others }, t) ∧
      Shared.Touched r s t ∧ base.SameCollectors (t.registry r) ∧
      Store.Alters (ps.flatMap Block.vectors) s.store t.store ∧
      t.events = s.events ++ [z.retreat] ++ ps.flatMap Block.released := by
  obtain ⟨u, undone, touched, journal, altered, same⟩ :=
    unregisterBlocks_stacked (s := s.log .warn s!"rolling back attach of zone {z.name}")
      (fun p member => described p (List.mem_of_mem_take member)) present stacked
  refine ⟨u.emit (ps.flatMap Block.released), ?_, ⟨touched.count, touched.others⟩, same,
    altered.mono ?_, ?_⟩
  · simp only [refuse, rollback, undone, unprepareBlocks_eq]
  · intro i inside
    obtain ⟨p, member, own⟩ := List.mem_flatMap.mp inside
    exact List.mem_flatMap.mpr ⟨p, List.mem_of_mem_take member, own⟩
  · have logged : u.events = s.events ++ [z.retreat] := by
      rw [Shared.events, journal]
      exact Shared.events_emit s _
    rw [Shared.events_emit, logged]

def reached (env : Surroundings) (domain : String) (z : Zone δ) (s : Shared) : List (Block δ) :=
  z.blocks.take ((prepareBlocks env domain z.name z.blocks s).2.1.length + 1)

def attempted (env : Surroundings) (domain : String) (z : Zone δ) (s : Shared) : List Computed :=
  (z.reached env domain s).flatMap (Block.computations env domain z.name)

/-- What a refused attachment leaves: the zone, the collectors and the old vectors as they were, and
in the journal what was computed for the blocks it got to and given back again. -/
structure Restores (env : Surroundings) (domain : String) (z : Zone δ) (s : Shared) (w : Zone δ)
    (t : Shared) : Prop where
  zone : w = z
  collectors : ∀ j, (s.registry j).SameCollectors (t.registry j)
  count : t.registries.length = s.registries.length
  grown : Store.Extends s.store t.store
  journal : ∃ early late,
    t.events = s.events ++
      ((z.attempted env domain s).map Computed.resolved ++ early ++ [z.retreat] ++ late) ∧
    (early ++ late).Perm ((z.attempted env domain s).flatMap Computed.released)

theorem restored_collectors {r : Nat} {s u t : Shared} (grown : u.registries = s.registries)
    (touched : Shared.Touched r u t)
    (same : (s.registry r).SameCollectors (t.registry r)) (j : Nat) :
    (s.registry j).SameCollectors (t.registry j) := by
  by_cases here : j = r
  · rw [here]
    exact same
  · rw [touched.others j here, Shared.registry_congr grown]
    exact ⟨rfl, rfl⟩

/-- The blocks `before` are prepared in `u`, and some of them registered in `v`; a refusal there
undoes both. What was given back `early` are the labels of a block that could not be prepared. -/
theorem refuse_restores {z : Zone δ} (refusal : Refusal) (early : List Event) {r k : Nat}
    {before others ps : List (Block δ)} {s u v : Shared}
    (batch : Batch env domain z.name before ps s u) (split : z.blocks = before ++ others)
    (grown : u.registries = s.registries ∧ Store.Extends s.store u.store)
    (present : r < u.registries.length) (touched : Shared.Touched r u v)
    (store : v.store = u.store)
    (stacked : Stacked (u.registry r) (v.registry r) (stack domain z.name (ps.take k)))
    (events : v.events = s.events ++ (z.attempted env domain s).map Computed.resolved ++ early)
    (given : (early ++ (before.flatMap (Block.computations env domain z.name)).flatMap
      Computed.released).Perm ((z.attempted env domain s).flatMap Computed.released)) :
    ∃ w t, z.refuse refusal r k ps others v = (.error (.refused refusal), w, t) ∧
      Restores env domain z s w t := by
  obtain ⟨t, done, undone, same, altered, journal⟩ :=
    refuse_eq z refusal others (store ▸ batch.described) (touched.count ▸ present) stacked
  have all := touched.trans undone
  rw [Shared.registry_congr grown.1] at same
  rw [store] at altered
  refine ⟨_, t, done, ?_, restored_collectors grown.1 all same, all.count.trans (by rw [grown.1]),
    altered.keeps grown.2 batch.fresh, early, ps.flatMap Block.released, ?_, ?_⟩
  · rw [batch.plain, ← split]
  · rw [journal, events]
    simp only [List.append_assoc]
  · rw [batch.released]
    exact given

end Zone

namespace Block

variable {δ : Type} [Driver δ]

def introduced (b : Block δ) : Block δ :=
  { b with driver := (Driver.ask b.driver (Driver.attach b.name) ()).driver }

def introduction (b : Block δ) : List Event :=
  .record .debug s!"attaching block {b.name}" ::
    (Driver.ask b.driver (Driver.attach b.name) ()).lines.map .hook

theorem attach_eq (b : Block δ) (s : Shared) :
    b.attach s = (b.introduced, s.emit b.introduction) := by
  simp only [Block.attach, Shared.log, Shared.hooks, Shared.emit_emit]
  rfl

def dismissed (b : Block δ) : Block δ :=
  { b with driver := (Driver.ask b.driver (Driver.detach b.name) ()).driver }

def dismissal (b : Block δ) : List Event :=
  .record .debug s!"detaching block {b.name}" ::
    (Driver.ask b.driver (Driver.detach b.name) ()).lines.map .hook

theorem detach_eq (r : Nat) (b : Block δ) (s : Shared) :
    b.detach r s =
      match b.dismissed.unregister r (s.emit b.dismissal) with
      | (some f, s) => (some f, b.dismissed, s)
      | (none, s) => (none, b.left, s.emit b.released) := by
  simp only [Block.detach, Shared.log, Shared.hooks, Shared.emit_emit, unprepare_eq]
  rfl

end Block

namespace Zone

variable {δ : Type} [Driver δ] {env : Surroundings} {domain : String}

theorem attachBlocks_eq (ps : List (Block δ)) (s : Shared) :
    attachBlocks ps s = (ps.map Block.introduced, s.emit (ps.flatMap Block.introduction)) := by
  induction ps generalizing s with
  | nil => rfl
  | cons p rest ih =>
    simp only [attachBlocks, Block.attach_eq, ih, Shared.emit_emit, List.map_cons,
      List.flatMap_cons]

def arrival (domain : String) (z : Zone δ) : Event :=
  .record .info s!"attached zone {z.name} to domain {domain} ({z.valueCount} values)"

/-- An attachment that succeeds: all blocks are prepared in `u`, then all are registered in `v`, and
only then do the drivers hear of it, in order. -/
structure Attaches (env : Surroundings) (domain : String) (r : Nat) (handle : ZoneHandle)
    (z : Zone δ) (s : Shared) (ps : List (Block δ)) (u v : Shared) (w : Zone δ) (t : Shared) :
    Prop where
  batch : Batch env domain z.name z.blocks ps s u
  grown : u.registries = s.registries ∧ Store.Extends s.store u.store
  prepared : u.events = s.events ++
    (z.blocks.flatMap (Block.computations env domain z.name)).map Computed.resolved
  registered : registerBlocks r ps u = (none, z.blocks.length, v)
  silent : v.events = u.events
  zone : w = { z with blocks := ps.map Block.introduced, handle := some handle }
  told : t = v.emit (ps.flatMap Block.introduction ++ [arrival domain z])

/-- What an attachment leaves that a fault cuts short: what was computed until then is lost. -/
structure Breaks (env : Surroundings) (domain : String) (z : Zone δ) (s t : Shared) : Prop where
  registries : t.registries = s.registries
  grown : Store.Extends s.store t.store
  journal : ∃ cs, cs <+: z.attempted env domain s ∧ t.events = s.events ++ cs.map Computed.resolved

/-- How an attachment can end: with a label that cannot be had, before anything is registered, with a
refusal that is rolled back, or well. -/
theorem attach_cases (env : Surroundings) (domain : String) {z : Zone δ} {r : Nat}
    (handle : ZoneHandle) {s : Shared} (bare : z.Bare) (present : r < s.registries.length) :
    (∃ f w t, z.attach env domain r handle s = (.error (.fault f), w, t) ∧
        f.unlabelled = true ∧ Breaks env domain z s t) ∨
      (∃ refusal w t, z.attach env domain r handle s = (.error (.refused refusal), w, t) ∧
        Restores env domain z s w t) ∨
      ∃ ps u v w t, z.attach env domain r handle s = (.ok (), w, t) ∧
        Attaches env domain r handle z s ps u v w t := by
  have grown := prepareBlocks_grows env domain z.name z.blocks s
  cases prepared : prepareBlocks env domain z.name z.blocks s with | mk failure result =>
  obtain ⟨ps, others, u⟩ := result
  simp only [prepared] at grown
  have here : r < u.registries.length := grown.1 ▸ present
  cases failure with
  | some failure =>
    cases failure with
    | fault f =>
      simp only [attach, prepared]
      obtain ⟨unlabelled, cs, front, events⟩ := prepareBlocks_cut bare.blocks prepared
      refine .inl ⟨f, _, u, rfl, unlabelled, grown.1, grown.2, cs, ?_, events⟩
      rw [attempted, reached, prepared]
      exact front
    | refused refusal =>
      obtain ⟨before, b, after, split, rfl, batch, events⟩ :=
        prepareBlocks_refused bare.blocks prepared
      have got : z.reached env domain s = before ++ [b] := by
        have size : ps.length = before.length := by rw [← batch.plain, List.length_map]
        rw [reached, prepared, size, split, List.take_length_add_append]
        rfl
      have tried : z.attempted env domain s =
          (before ++ [b]).flatMap (Block.computations env domain z.name) := by
        rw [attempted, got]
      obtain ⟨w, t, done, restores⟩ := refuse_restores refusal _ (k := 0) batch split grown here
        (.refl r u) rfl (.refl _) (tried ▸ events) (by
          rw [tried, List.flatMap_append, List.flatMap_append, List.flatMap_singleton]
          exact List.perm_append_comm)
      simp only [attach, prepared, done]
      exact .inr (.inl ⟨refusal, w, t, rfl, restores⟩)
  | none =>
    obtain ⟨batch, rfl, events⟩ := prepareBlocks_ok bare.blocks prepared
    cases registered : registerBlocks r ps u with | mk refusal result =>
    obtain ⟨k, v⟩ := result
    obtain ⟨first, store, silent, stacked, whole⟩ := registerBlocks_stacked batch.described here
      (.refl (u.registry r)) registered
    rw [List.nil_append] at stacked
    have unsaid : v.events = u.events := by
      rw [Shared.events, silent, Shared.events]
    have same : ps.length = z.blocks.length := by
      rw [← batch.plain, List.length_map]
    have tried : z.attempted env domain s =
        z.blocks.flatMap (Block.computations env domain z.name) := by
      rw [attempted, reached, prepared, same, List.take_of_length_le (Nat.le_succ _)]
    cases refusal with
    | some refusal =>
      obtain ⟨w, t, done, restores⟩ := refuse_restores refusal [] batch
        (List.append_nil _).symm grown here first store stacked
        (by rw [unsaid, events, tried, List.append_nil]) (by rw [tried, List.nil_append])
      simp only [attach, prepared, registered, done]
      exact .inr (.inl ⟨refusal, w, t, rfl, restores⟩)
    | none =>
      simp only [attach, prepared, registered, attachBlocks_eq]
      refine .inr (.inr ⟨ps, u, v, _, _, rfl, batch, grown, events, ?_, unsaid, rfl, ?_⟩)
      · rw [registered, whole rfl, same]
      · rw [← Shared.emit_emit]
        rfl

end Zone

namespace Domain

variable {δ : Type} [Driver δ]

theorem attachZone_cases (env : Surroundings) {d : Domain δ} {z : Zone δ} {s : Shared}
    (bare : z.Bare) (present : d.registry < s.registries.length) :
    d.attachZone env z s = ⟨.error (.fault (.poisonedDomain d.name)), d, s⟩ ∨
      (∃ f t, d.attachZone env z s =
          ⟨.error (.fault f), { d with treePoisoned := true }, t⟩ ∧
        f.unlabelled = true ∧ Zone.Breaks env d.name z s t) ∨
      (∃ refusal w t, d.attachZone env z s = ⟨.error (.refused refusal), d, t⟩ ∧
        z.attach env d.name d.registry ⟨d.id, d.nextZone⟩ s = (.error (.refused refusal), w, t) ∧
        Zone.Restores env d.name z s w t) ∨
      ∃ ps u v w t, d.attachZone env z s =
          ⟨.ok ⟨d.id, d.nextZone⟩,
            { d with
              nextZone := d.nextZone + 1
              valueCount := d.valueCount + w.valueCount
              zones := d.zones ++ [w] }, t⟩ ∧
        z.attach env d.name d.registry ⟨d.id, d.nextZone⟩ s = (.ok (), w, t) ∧
        Zone.Attaches env d.name d.registry ⟨d.id, d.nextZone⟩ z s ps u v w t := by
  simp only [attachZone, locked]
  split
  · exact .inl rfl
  · right
    rcases Zone.attach_cases env d.name ⟨d.id, d.nextZone⟩ bare present with
      ⟨f, w, t, answer, unlabelled, breaks⟩ | ⟨refusal, w, t, answer, restores⟩ |
      ⟨ps, u, v, w, t, answer, attaches⟩
    · simp only [answer]
      exact .inl ⟨f, t, rfl, unlabelled, breaks⟩
    · simp only [answer]
      exact .inr (.inl ⟨refusal, w, t, rfl, rfl, restores⟩)
    · simp only [answer]
      exact .inr (.inr ⟨ps, u, v, w, t, rfl, rfl, attaches⟩)

end Domain

end Telemetry
