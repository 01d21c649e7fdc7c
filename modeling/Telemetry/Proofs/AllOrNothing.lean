import Telemetry.Block.Stock
import Telemetry.Proofs.Reachable

/-! Attaching is all or nothing. A refusal, at whichever block and for whatever reason, leaves the
domain, the registries, everything gathered from them and the zone as they were, no hook has run,
and every value that was computed on the way has been given back once. Where there is no refusal,
every block is registered before the first hook runs, and every attach hook runs once. -/
namespace Telemetry

open Series (Store Registry Entry)

namespace Event

def isHook : Event → Bool
  | .hook _ => true
  | _ => false

def isResolved : Event → Bool
  | .resolved _ _ => true
  | _ => false

def isReleased : Event → Bool
  | .released _ _ => true
  | _ => false

end Event

namespace Computed

theorem filter_resolved (cs : List Computed) :
    (cs.map resolved).filter Event.isResolved = cs.map resolved := by
  apply List.filter_eq_self.mpr
  intro e member
  obtain ⟨c, -, rfl⟩ := List.mem_map.mp member
  rfl

theorem filter_resolved_released (cs : List Computed) :
    (cs.map resolved).filter Event.isReleased = [] := by
  apply List.filter_eq_nil_iff.mpr
  intro e member
  obtain ⟨c, -, rfl⟩ := List.mem_map.mp member
  exact Bool.false_ne_true

theorem resolved_no_hook (cs : List Computed) : ∀ e ∈ cs.map resolved, e.isHook = false := by
  intro e member
  obtain ⟨c, -, rfl⟩ := List.mem_map.mp member
  rfl

theorem givenBack {cs : List Computed} {events : List Event}
    (given : ∀ e ∈ events, e ∈ cs.flatMap released) :
    events.filter Event.isResolved = [] ∧ events.filter Event.isReleased = events ∧
      ∀ e ∈ events, e.isHook = false := by
  have each : ∀ e ∈ events, ∃ c : Computed, e = .released c.key c.value := by
    intro e member
    obtain ⟨c, -, own⟩ := List.mem_flatMap.mp (given e member)
    unfold released at own
    split at own
    · exact ⟨c, List.mem_singleton.mp own⟩
    · cases own
  refine ⟨List.filter_eq_nil_iff.mpr ?_, List.filter_eq_self.mpr ?_, ?_⟩
  all_goals
    intro e member
    obtain ⟨c, rfl⟩ := each e member
  · exact Bool.false_ne_true
  · rfl
  · rfl

end Computed

theorem gather_congr {r t : Registry} {s u : Store} (entries : t.entries = r.entries)
    (kept : ∀ e ∈ r.entries, ∀ i ∈ e.vectors, u.get? i = s.get? i) : t.gather u = r.gather s := by
  have families : (r.entries.flatMap fun e => u.families e.vectors)
      = r.entries.flatMap fun e => s.families e.vectors := by
    apply List.flatMap_congr
    intro e member
    unfold Store.families
    apply List.filterMap_congr
    intro i own
    rw [kept e member i own]
  unfold Registry.gather
  rw [entries, families]

/-- A refused attachment: the domain `e`, the zone `w` and the shared state `t` after it, against
the domain `d`, the zone `z` and the shared state `s` before. -/
structure LeftAlone (env : Surroundings) (d : Domain δ) (z : Zone δ) (s : Shared) (e : Domain δ)
    (w : Zone δ) (t : Shared) : Prop where
  domain : e = d
  zone : w = z
  detached : w.Bare
  entries : ∀ r, (t.registry r).entries = (s.registry r).entries
  identities : ∀ r, (t.registry r).identities = (s.registry r).identities
  gathered : ∀ r, t.gather r = s.gather r
  journal : ∃ events tried, t.events = s.events ++ events ∧ tried <+: z.blocks ∧
    (∀ event ∈ events, event.isHook = false) ∧
    events.filter Event.isResolved
      = (tried.flatMap (Block.computations env d.name z.name)).map Computed.resolved ∧
    (events.filter Event.isReleased).Perm
      ((tried.flatMap (Block.computations env d.name z.name)).flatMap Computed.released)

def AllRegistered (registry : Registry) (domain zone : String) (blocks : List (Block δ)) : Prop :=
  ∀ b ∈ blocks, b.isAttached = true ∧
    (b.metrics ≠ [] → (⟨(b.identities domain zone).sum, b.vectors⟩ : Entry) ∈ registry.entries)

variable {δ : Type} [Driver δ] {env : Surroundings}

/-- An attachment that succeeded. The blocks `ps` are the zone's, prepared; they are all registered
in `u`, which is reached without a hook, and from there every driver is told, in order. -/
structure BroughtIn (d : Domain δ) (z : Zone δ) (s : Shared) (handle : ZoneHandle) (e : Domain δ)
    (w : Zone δ) (t : Shared) : Prop where
  domain : e = { d with
    nextZone := d.nextZone + 1
    valueCount := d.valueCount + w.valueCount
    zones := d.zones ++ [w] }
  handle : handle = ⟨d.id, d.nextZone⟩ ∧ w.handle = some handle
  registered : AllRegistered (t.registry d.registry) d.name z.name w.blocks
  hooks : ∃ ps u before, ps.map Block.plain = z.blocks ∧
    AllRegistered (u.registry d.registry) d.name z.name ps ∧
    u.events = s.events ++ before ∧ (∀ event ∈ before, event.isHook = false) ∧
    Zone.attachBlocks ps u = (w.blocks, u.emit (ps.flatMap Block.introduction)) ∧
    w.blocks = ps.map Block.introduced ∧
    t = u.emit (ps.flatMap Block.introduction ++ [Zone.arrival d.name z])

omit [Driver δ] in
theorem Zone.Restores.said {domain : String} {z w : Zone δ} {s t : Shared}
    (h : Restores env domain z s w t) : ∃ events, t.events = s.events ++ events ∧
      (∀ event ∈ events, event.isHook = false) ∧
      events.filter Event.isResolved = (z.attempted env domain s).map Computed.resolved ∧
      (events.filter Event.isReleased).Perm
        ((z.attempted env domain s).flatMap Computed.released) := by
  obtain ⟨early, late, events, given⟩ := h.journal
  obtain ⟨resolved, released, silent⟩ :=
    Computed.givenBack fun e member => given.mem_iff.mp member
  rw [List.filter_append, List.append_eq_nil_iff] at resolved
  rw [List.filter_append] at released
  refine ⟨_, events, ?_, ?_, ?_⟩
  · intro e member
    simp only [List.mem_append, List.mem_singleton] at member silent
    rcases member with ((computed | first) | rfl) | last
    · exact Computed.resolved_no_hook _ e computed
    · exact silent e (.inl first)
    · rfl
    · exact silent e (.inr last)
  · have record : [z.retreat].filter Event.isResolved = [] := rfl
    simp only [List.filter_append, Computed.filter_resolved, resolved, record, List.append_nil]
  · have record : [z.retreat].filter Event.isReleased = [] := rfl
    simp only [List.filter_append, Computed.filter_resolved_released, record, List.nil_append,
      List.append_nil]
    rw [released]
    exact given

omit [Driver δ] in
theorem Mirror.entry {count : Nat} {xs : List (Mount δ)} {x : Mount δ} {guests : List Guest}
    {s : Shared} (h : Mirror count xs guests s) (member : x ∈ xs) (full : x.block.metrics ≠ []) :
    (⟨x.identities.sum, x.vectors⟩ : Entry) ∈ (s.registry x.registry).entries := by
  have inside : (⟨x.registry, x.vectors, x.identities⟩ : Exhibit) ∈ xs.flatMap Mount.exhibits := by
    refine List.mem_flatMap.mpr ⟨x, member, ?_⟩
    rw [Mount.exhibits_full full]
    exact List.mem_singleton_self _
  rw [(h.ledger.lists x.registry).entries.mem_iff]
  refine List.mem_map.mpr ⟨⟨x.registry, x.vectors, x.identities⟩, ?_, rfl⟩
  exact List.mem_filter.mpr ⟨List.mem_append_left _ inside, by simp⟩

omit [Driver δ] in
theorem Mirror.allRegistered {count r : Nat} {domain zone : String} {ps : List (Block δ)}
    {xs : List (Mount δ)} {guests : List Guest} {s : Shared}
    (h : Mirror count (ps.map (fun p => ⟨r, domain, zone, p⟩) ++ xs) guests s) :
    AllRegistered (s.registry r) domain zone ps := by
  intro p member
  have inside : (⟨r, domain, zone, p⟩ : Mount δ) ∈ ps.map (fun p => ⟨r, domain, zone, p⟩) ++ xs :=
    List.mem_append_left _ (List.mem_map_of_mem member)
  refine ⟨?_, fun full => h.entry inside full⟩
  rw [Block.isAttached, (h.shown _ inside).collector]
  rfl

omit [Driver δ] in
theorem Zone.Restores.leftAlone {count : Nat} {xs : List (Mount δ)} {guests : List Guest}
    {d : Domain δ} {z w : Zone δ} {s t : Shared} (mirror : Mirror count xs guests s)
    (bare : z.Bare) (h : Zone.Restores env d.name z s w t) : LeftAlone env d z s d w t := by
  refine ⟨rfl, h.zone, h.zone ▸ bare, fun r => (h.collectors r).1,
    fun r => (h.collectors r).2, ?_, ?_⟩
  · intro r
    apply gather_congr (h.collectors r).1
    intro e member i own
    exact h.grown.get? (mirror.entries_stored r e member i own)
  · obtain ⟨events, said, silent, resolved, released⟩ := h.said
    exact ⟨events, z.reached env d.name s, said, List.take_prefix _ _, silent, resolved, released⟩

theorem Zone.Attaches.broughtIn {count : Nat} {xs : List (Mount δ)} {guests : List Guest}
    {d : Domain δ} {z w : Zone δ} {s t u v : Shared} {ps : List (Block δ)}
    (mirror : Mirror count xs guests s) (home : d.registry < count)
    (h : Zone.Attaches env d.name d.registry ⟨d.id, d.nextZone⟩ z s ps u v w t) :
    BroughtIn d z s ⟨d.id, d.nextZone⟩
      { d with
        nextZone := d.nextZone + 1
        valueCount := d.valueCount + w.valueCount
        zones := d.zones ++ [w] } w t := by
  have told := (mirror.attaches home h).allRegistered
  have registered := (mirror.registers home h).allRegistered
  have reached := h.silent.trans h.prepared
  have zone := h.zone
  refine ⟨rfl, ⟨rfl, by rw [zone]⟩, ?_, ps, v, _, h.batch.plain, registered, reached,
    Computed.resolved_no_hook _, ?_, by rw [zone], h.told⟩
  · rw [zone] at told ⊢
    exact told
  · rw [zone]
    exact Zone.attachBlocks_eq ps v

def fine : BlockSpec StockDriver :=
  ⟨"a", none, [.simple "x" .gauge (.whole 0 4)], 0, some .lifecycle⟩

def nameless : BlockSpec StockDriver :=
  ⟨"b", none, [.simple "9" .gauge (.whole 0 4)], 0, some .lifecycle⟩

def beforeAttach : List (Surroundings × Action StockDriver) :=
  [(.plain [] 0, .create 0 ⟨"d", 0, false⟩), (.plain [] 0, .make ⟨"z", [fine, nameless]⟩),
    (.plain [] 0, .make ⟨"z", [fine]⟩)]

end Telemetry
