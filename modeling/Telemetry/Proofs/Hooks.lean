import Telemetry.Proofs.Protocol
import Telemetry.Proofs.Registered

/-! Drivers are called by the protocol. Follow a zone from its allocation through any run: the calls
on the driver of each of its blocks are attachments with passes in them. A zone that is loose or
disabled takes no call, nor does one that is refused; and who detaches a zone, or drops its domain,
tells every driver. -/
namespace Telemetry

def Place.isAttached (place : Place) : Bool :=
  match place with
  | .loose _ => false
  | .attached _ _ => true

namespace Block

variable {δ : Type}

theorem resolveLabels_driver (env : Surroundings) (domain zone : String) (b : Block δ)
    (s : Shared) : (b.resolveLabels env domain zone s).2.1.driver = b.driver := rfl

theorem prepare_driver (env : Surroundings) (domain zone : String) (b : Block δ) (s : Shared) :
    (b.prepare env domain zone s).2.1.driver = b.driver := by
  have kept := b.resolveLabels_driver env domain zone s
  unfold prepare
  split
  · rename_i resolved
    rwa [resolved] at kept
  · rename_i c t resolved
    rw [resolved] at kept
    split <;> exact kept

end Block

namespace Zone

variable {δ : Type} {env : Surroundings} {domain : String} {r k : Nat}

theorem prepareBlocks_drivers (env : Surroundings) (domain zone : String) (bs : List (Block δ))
    (s : Shared) :
    let done := prepareBlocks env domain zone bs s
    (done.2.1 ++ done.2.2.1).map (·.driver) = bs.map (·.driver) := by
  induction bs generalizing s with
  | nil => rfl
  | cons b rest ih =>
    have kept := b.prepare_driver env domain zone s
    simp only [prepareBlocks]
    split
    · rename_i prepared
      rw [prepared] at kept
      exact congrArg (· :: _) kept
    · rename_i c t prepared
      rw [prepared] at kept
      exact congrArg₂ List.cons kept (ih t)

theorem refuse_drivers (refusal : Refusal) (ps others : List (Block δ)) (z : Zone δ) (s : Shared) :
    (z.refuse refusal r k ps others s).2.1.blocks.map (·.driver) =
      (ps ++ others).map (·.driver) := by
  have kept : (z.rollback r k ps others s).2.1.blocks.map (·.driver) =
      (ps ++ others).map (·.driver) := by
    simp only [rollback]
    split
    · rfl
    · simp only [unprepareBlocks_eq, List.map_append, List.map_map]
      rfl
  unfold refuse
  split <;> rename_i rolled <;> rwa [rolled] at kept

variable [Driver δ] {z w : Zone δ} {s t : Shared} {handle : ZoneHandle} {e : Failure}

/-- An attachment that fails calls no driver. -/
theorem attach_drivers (failed : z.attach env domain r handle s = (.error e, w, t)) :
    w.blocks.map (·.driver) = z.blocks.map (·.driver) := by
  have kept := prepareBlocks_drivers env domain z.name z.blocks s
  unfold attach at failed
  split at failed
  · rename_i prepared
    rw [prepared] at kept
    cases failed
    exact kept
  · rename_i refusal ps others u prepared
    rw [prepared] at kept
    have out := refuse_drivers (r := r) (k := 0) refusal ps others z u
    rw [failed] at out
    exact out.trans kept
  · rename_i ps others u prepared
    rw [prepared] at kept
    split at failed
    · rename_i refusal registered v refused
      have out := refuse_drivers (r := r) (k := registered) refusal ps others z v
      rw [failed] at out
      exact out.trans kept
    · cases failed

def Keeps (spec : ZoneSpec δ) (attached : Bool) (z : Zone (Recorded δ)) : Prop :=
  List.Forall₂ (fun b c => Block.Keeps b attached c) spec.blocks z.blocks

namespace Keeps

variable {spec : ZoneSpec δ} {z w : Zone (Recorded δ)}

omit [Driver δ] in
theorem alloc (made : Zone.alloc spec.recorded = .ok z) : z.Keeps spec false := by
  obtain ⟨blocks, each, rfl⟩ := Zone.alloc_ok made
  exact (List.forall₂_map_left_iff.mp each).imp fun _ _ => Block.Keeps.alloc

theorem left (h : z.Keeps spec true) : z.left.Keeps spec false :=
  List.forall₂_map_right_iff.mpr (h.imp fun _ _ => Block.Keeps.left)

theorem joined (h : z.Keeps spec false) (joined : z.Joined w) : w.Keeps spec true := by
  obtain ⟨ps, plain, told⟩ := joined
  rw [Keeps, ← plain] at h
  rw [Keeps, told]
  exact List.forall₂_map_right_iff.mpr
    ((List.forall₂_map_right_iff.mp h).imp fun _ _ => Block.Keeps.introduced)

theorem treated {ps : List Pass} (h : z.Keeps spec true) (treated : z.Treated ps w) :
    w.Keeps spec true := by
  cases treated with
  | idle blocks =>
    rw [Keeps, blocks]
    exact h
  | passed p on same done =>
    have each := (Zone.pass_blocks on done).2
    rw [same] at each
    exact forall₂_trans (fun kept ⟨_, _, done⟩ => kept.pass done) h each

theorem turns {place place' : Place} {ps : List Pass} (h : z.Keeps spec place.isAttached)
    (turns : z.Turns place ps place' w) : w.Keeps spec place'.isAttached := by
  cases turns with
  | rests => exact h
  | joins joined => exact h.joined joined
  | takes treated => exact h.treated treated
  | leaves => exact h.left

end Keeps

end Zone

namespace Site

variable {δ : Type} [Driver δ] {s : Site δ} {count i : Nat} {env : Surroundings} {action : Action δ}
  {place : Place} {z : Zone δ} {handle : ZoneHandle}

omit [Driver δ] in
theorem passes_disabled (there : s.kept? (.attached i handle) = some z) (off : z.enabled = false)
    (apart : action ≠ .operate i (.enable handle)) :
    s.passes env action (.attached i handle) = [] := by
  cases action with
  | operate j operation =>
    simp only [passes]
    split
    · rename_i same
      subst same
      split
      · rename_i d y found reached
        cases there.symm.trans (kept?_of_zone? reached)
        cases operation with
        | update clear | start | sample =>
          simp only [Operation.effect]
          split <;> simp [Effect.passes, Effect.treats, Treatment.passes, off]
        | stop => rfl
        | updateZone other clear | disable other =>
          simp only [Operation.effect, Operation.through]
          split
          · rfl
          · by_cases same : other = handle <;>
              simp [Effect.passes, Effect.treats, Treatment.passes, off, same]
        | enable other =>
          have same : other ≠ handle := fun same => apart (same ▸ rfl)
          simp only [Operation.effect, Operation.through]
          split <;> simp [Effect.passes, Effect.treats, same]
      · rfl
    · rfl
  | _ => rfl

theorem Coherent.untouched (h : s.Coherent count) (numbered : s.Numbered)
    (there : s.kept? place = some z) (stays : s.next env action place = some place)
    (calm : s.interrupts env action place = false)
    (idle : ∀ i handle, place = .attached i handle →
      z.enabled = false ∧ action ≠ .operate i (.enable handle)) :
    ∃ w, (s.perform env action).2.kept? place = some w ∧ w.blocks = z.blocks := by
  obtain ⟨w, here, turns⟩ := h.step_turns numbered there calm stays
  refine ⟨w, here, ?_⟩
  cases place with
  | loose k =>
    rw [passes_loose] at turns
    cases turns with
    | rests => rfl
  | attached i handle =>
    obtain ⟨off, apart⟩ := idle i handle rfl
    rw [passes_disabled there off apart] at turns
    cases turns with
    | takes treated =>
      cases treated with
      | idle blocks => exact blocks

end Site

theorem Domain.detachZone_left {δ : Type} [Driver δ] {d : Domain δ} {s : Shared} {count : Nat}
    {rest : List (Mount δ)} {guests : List Guest} {handle : ZoneHandle} {w : Zone δ}
    (mirror : Mirror count (d.mounts ++ rest) guests s)
    (done : (d.detachZone handle s).outcome = .ok w) :
    ∃ z, d.kept? handle = some z ∧ w = z.left := by
  rcases mirror.detach_cases handle with ⟨f, -, answer⟩ | ⟨n, z, t, -, placed, there, answer, -⟩
  all_goals
    rw [answer] at done
    cases done
  exact ⟨z, kept?_placed placed there, rfl⟩

variable {δ : Type} [Driver δ]

/-- **Drivers are called by the protocol.** Follow a zone from its allocation through any run in
which no pass over the domain that has it is cut short: each of its drivers was called by the
protocol, and is attached where the zone is. In every site that can be reached, a zone that is loose
or disabled takes no call but by being attached, detached or enabled, and an attachment that fails
calls no driver. A zone that is detached, or whose domain is dropped with sound locks, has told its
drivers. -/
theorem hooks_follow_protocol (count : Nat)
    (before : List (Surroundings × Action (Recorded δ))) :
    let s := (Site.empty count).run before
    (∀ env action (spec : ZoneSpec δ) place after last ps,
      s.birth env action = some (spec.recorded, place) →
      let born := (s.perform env action).2
      born.follow after place = some (last, ps) → born.smooth after place = true →
      ∃ z, (born.run after).kept? last = some z ∧ z.Keeps spec last.isAttached ∧
        (last.isAttached = true → z.left.Keeps spec false)) ∧
    (∀ env action place z, s.kept? place = some z → s.next env action place = some place →
      s.interrupts env action place = false →
      (∀ i handle, place = .attached i handle →
        z.enabled = false ∧ action ≠ .operate i (.enable handle)) →
      ∃ w, (s.perform env action).2.kept? place = some w ∧ w.blocks = z.blocks) ∧
    (∀ env domain registry handle (z w : Zone (Recorded δ)) t u e,
      z.attach env domain registry handle t = (.error e, w, u) →
      w.blocks.map (·.driver) = z.blocks.map (·.driver)) ∧
    ∀ i d, s.domain? i = some d →
      (∀ handle w, (d.detachZone handle s.shared).outcome = .ok w →
        ∃ z, d.kept? handle = some z ∧ w = z.left) ∧
      (d.treePoisoned = false → d.slotPoisoned = false → ∀ env,
        (s.perform env (.drop i)).1 = .ok none ∧ d.released s.shared = d.zones.map Zone.left) := by
  intro s
  have coherent : s.Coherent count := Site.run_coherent count before
  have numbered : s.Numbered := Site.run_numbered count before
  refine ⟨?_, ?_, ?_, ?_⟩
  · intro env action spec place after last ps born site followed calm
    obtain ⟨z, k, w, made, here, turns⟩ := coherent.born_turns numbered born
    obtain ⟨v, there, kept⟩ := Site.Coherent.follow_keeps
      (P := fun place z => Zone.Keeps spec place.isAttached z) Zone.Keeps.turns
      (Site.perform_coherent action coherent).1 (coherent.perform_numbered numbered action)
      (Site.kept?_of_zone? here) ((Zone.Keeps.alloc made).turns turns) calm followed
    exact ⟨v, there, kept, fun attached => (attached ▸ kept).left⟩
  · intro env action place z there stays calm idle
    exact coherent.untouched numbered there stays calm idle
  · intro env domain registry handle z w t u e failed
    exact Zone.attach_drivers failed
  · intro i d found
    obtain ⟨rest, mirror, -, -, -⟩ := coherent.facing found
    refine ⟨fun handle w done => Domain.detachZone_left mirror done, ?_⟩
    intro tree slot env
    obtain ⟨ended, released⟩ := Domain.destroy_sound mirror tree slot
    refine ⟨?_, released⟩
    simp only [Site.perform, found, ended, Except.map]

def latchedGauge : BlockSpec StockDriver :=
  ⟨"b", some 0, [.simple "x" .gauge (.whole 0 1)], 1, some .lifecycle⟩

def latchedZone : ZoneSpec StockDriver := ⟨"z", [latchedGauge]⟩

def sampledOnce : List (Surroundings × Action (Recorded StockDriver)) :=
  [(showing 0, .attach 0 0), (showing 7, .operate 0 (.update false))]

/-- One pass was made since the zone was attached. -/
theorem hooks_follow_protocol_sampled :
    let born := (((Site.empty 1).run [(showing 0, .create 0 ⟨"d", 0, true⟩)]).perform (showing 0)
      (.make latchedZone.recorded)).2
    ∃ (z : Zone (Recorded StockDriver)) (b : Block (Recorded StockDriver))
      (r : Recorded StockDriver),
      (born.run sampledOnce).kept? (.attached 0 ⟨1, 1⟩) = some z ∧ z.blocks[0]? = some b ∧
      b.driver = some r ∧ Protocol latchedGauge true [[7]] r.calls ∧
      r.calls = [.attach "b", .latch [0] [0], .read (.simple "x" .gauge (.whole 0 1)) [0] [0] [0],
        .convert (.simple "x" .gauge (.whole 0 1)) 7 [0], .release [0]] := by
  obtain ⟨z, there, kept, -⟩ := (hooks_follow_protocol 1 [(showing 0, .create 0 ⟨"d", 0, true⟩)]).1
    (showing 0) (.make latchedZone.recorded) latchedZone (.loose 0) sampledOnce
    (.attached 0 ⟨1, 1⟩) _ rfl rfl (by decide)
  obtain ⟨b, here, keeps⟩ := forall₂_getElem? kept (k := 0) rfl
  cases there
  cases here
  exact ⟨_, _, _, rfl, rfl, rfl, keeps.calls _ rfl, rfl⟩

def abandonedAttached : List (Surroundings × Action (Recorded StockDriver)) :=
  [(showing 0, .create 0 ⟨"d", 0, false⟩), (showing 0, .alloc 0 latchedZone.recorded),
    (showing 0, .abandon 0)]

/-- No pass was made, the domain is gone, and the driver of the zone that it had is attached. -/
theorem abandoned_attached :
    let s := (Site.empty 1).run abandonedAttached
    s.domains = [none] ∧ ∃ d z b r, s.wrecks = [d] ∧ d.zones = [z] ∧ z.blocks = [b] ∧
      b.driver = some r ∧ r.calls = [.attach "b"] ∧ ¬Protocol latchedGauge false b.raws r.calls := by
  refine ⟨rfl, _, _, _, _, rfl, rfl, rfl, rfl, rfl, ?_⟩
  intro kept
  rcases kept.ended with none | ⟨earlier, last⟩
  · cases none
  · have same : [Call.attach "b"] = [.detach "b"] := List.append_inj_right' last rfl
    cases same

end Telemetry
