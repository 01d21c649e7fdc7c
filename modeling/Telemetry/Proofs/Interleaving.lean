import Telemetry.Proofs.Arena
import Telemetry.Proofs.Counters
import Telemetry.Proofs.Registered

/-! Starting, stopping and sampling in any interleaving. At each stage of a start or a stop it is
certain what the running mark, the slot and the threads are; nobody else can change any of them. -/
namespace Telemetry

variable {δ : Type} {d e : Domain δ} {s : Shared} {handle : ZoneHandle}

namespace Domain

structure Steady (d e : Domain δ) : Prop where
  running : e.running = d.running
  slot : e.slotPoisoned = d.slotPoisoned

theorem Steady.refl (d : Domain δ) : d.Steady d := ⟨rfl, rfl⟩

theorem locked_steady {step : Domain δ → Shared → Done δ α} (kept : d.Steady (step d s).domain) :
    d.Steady (d.locked s step).domain := by
  cases poisoned : d.treePoisoned with
  | true =>
    rw [locked_poisoned poisoned]
    exact .refl d
  | false =>
    simp only [locked, poisoned, Bool.false_eq_true, if_false]
    split
    · exact ⟨kept.running, kept.slot⟩
    · exact kept

theorem onZone_steady {step : Nat → Zone δ → Domain δ → Shared → Done δ α}
    (kept : ∀ i z, d.Steady (step i z d s).domain) : d.Steady (d.onZone handle s step).domain := by
  unfold onZone
  split
  · exact .refl d
  · split
    · exact .refl d
    · split
      · exact .refl d
      · exact locked_steady (kept _ _)

variable [Driver δ]

theorem update_steady (env : Surroundings) (clear : Bool) (d : Domain δ) (s : Shared) :
    d.Steady (d.update env clear s).domain :=
  locked_steady ⟨rfl, rfl⟩

theorem attachZone_steady (z : Zone δ) (d : Domain δ) (s : Shared) :
    d.Steady (d.attachZone env z s).domain := by
  refine locked_steady ?_
  simp only
  split <;> exact ⟨rfl, rfl⟩

theorem allocZone_steady (spec : ZoneSpec δ) (d : Domain δ) (s : Shared) :
    d.Steady (d.allocZone env spec s).domain := by
  unfold allocZone
  split
  · exact .refl d
  · exact d.attachZone_steady _ s

theorem detachZone_steady (handle : ZoneHandle) (d : Domain δ) (s : Shared) :
    d.Steady (d.detachZone handle s).domain := by
  refine onZone_steady fun i z => ?_
  simp only
  split <;> exact ⟨rfl, rfl⟩

theorem markRunning_cases (env : Surroundings) (d : Domain δ) (s : Shared) :
    d.treePoisoned = true ∧
        d.markRunning env s = ⟨.error (.fault (.poisonedDomain d.name)), d, s⟩ ∨
      d.treePoisoned = false ∧ d.running = true ∧ d.markRunning env s = ⟨.ok false, d, s⟩ ∨
      d.treePoisoned = false ∧ d.running = false ∧ d.clearOnStart = false ∧
        d.markRunning env s = ⟨.ok true, { d with running := true }, s⟩ ∨
      ∃ fault zones t, d.treePoisoned = false ∧ d.running = false ∧ d.clearOnStart = true ∧
        passOver (Zone.pass env true) d.zones s = (fault, zones, t) ∧
        d.markRunning env s = ⟨(ended fault).map fun _ => true,
          { d with running := true, zones, treePoisoned := fault.isSome }, t⟩ := by
  cases poisoned : d.treePoisoned with
  | true => exact .inl ⟨rfl, locked_poisoned poisoned _ _⟩
  | false =>
    cases on : d.running with
    | true =>
      refine .inr (.inl ⟨rfl, rfl, ?_⟩)
      simp only [markRunning, locked, poisoned, on, Bool.false_eq_true, if_false, if_true]
    | false =>
      cases clears : d.clearOnStart with
      | false =>
        refine .inr (.inr (.inl ⟨rfl, rfl, rfl, ?_⟩))
        simp only [markRunning, locked, poisoned, on, clears, Bool.false_eq_true, if_false]
      | true =>
        cases whole : passOver (Zone.pass env true) d.zones s with | mk fault rest =>
        obtain ⟨zones, t⟩ := rest
        refine .inr (.inr (.inr ⟨fault, zones, t, rfl, rfl, rfl, rfl, ?_⟩))
        simp only [markRunning, locked, poisoned, on, clears, passZones, whole, Bool.false_eq_true,
          if_false, if_true]
        cases fault <;> simp [ended, Except.map]

theorem markRunning_error {env : Surroundings} {e : Failure}
    (failed : (d.markRunning env s).outcome = .error e) : ∃ f, e = .fault f := by
  rcases d.markRunning_cases env s with
    ⟨-, done⟩ | ⟨-, -, done⟩ | ⟨-, -, -, done⟩ | ⟨fault, zones, t, -, -, -, -, done⟩
  all_goals rw [done] at failed
  · cases failed
    exact ⟨_, rfl⟩
  · cases failed
  · cases failed
  · cases fault with
    | none => cases failed
    | some f =>
      cases failed
      exact ⟨f, rfl⟩

omit [Driver δ] in
theorem clearRunning_cases (d : Domain δ) (s : Shared) :
    d.treePoisoned = true ∧
        d.clearRunning s = ⟨.error (.fault (.poisonedDomain d.name)), d, s⟩ ∨
      d.treePoisoned = false ∧ d.clearRunning s = ⟨.ok d.running, { d with running := false }, s⟩ := by
  cases poisoned : d.treePoisoned with
  | true => exact .inl ⟨rfl, locked_poisoned poisoned _ _⟩
  | false =>
    refine .inr ⟨rfl, ?_⟩
    simp only [clearRunning, locked, poisoned, Bool.false_eq_true, if_false]

end Domain

variable [Driver δ]

theorem Errand.run_steady (env : Surroundings) (errand : Errand δ) (d : Domain δ) (s : Shared) :
    d.Steady (errand.run env d s).1 := by
  cases errand with
  | update clear => exact d.update_steady env clear s
  | updateZone handle clear | enable handle | disable handle =>
    exact Domain.onZone_steady fun _ _ => ⟨rfl, rfl⟩
  | attach zone => exact d.attachZone_steady zone s
  | alloc spec => exact d.allocZone_steady spec s
  | detach handle => exact d.detachZone_steady handle s

namespace Arena

/-- Nobody starts or stops the domain: it is running if there is a thread, which is in the slot. -/
def Settled (a : Arena δ) : Prop :=
  a.domain.running = a.slot.isSome ∧ a.threads = a.slot.toList

/-- A start has failed: the domain is marked as running, and no thread will ever be. -/
structure Failed (a : Arena δ) : Prop where
  holder : a.holder = none
  running : a.domain.running = true
  slot : a.slot = none
  threads : a.threads = []
  poisoned : a.domain.slotPoisoned = true

def Ordered (a : Arena δ) : Prop :=
  match a.holder with
  | none => a.Settled ∨ a.Failed
  | some .starting | some .stopping => a.Settled
  | some .spawning => a.domain.running = true ∧ a.slot = none ∧ a.threads = []
  | some (.storing t) => a.domain.running = true ∧ a.slot = none ∧ a.threads = [t]
  | some .taking =>
    a.domain.running = false ∧ ∃ t, a.slot = some t ∧ (a.threads = [t] ∨ a.threads = [])
  | some (.joining t) =>
    a.domain.running = false ∧ a.slot = none ∧ (a.threads = [t] ∨ a.threads = [])

variable {a b : Arena δ} {env : Surroundings} {move : Move δ}

omit [Driver δ] in
theorem initial_ordered (id registry : Nat) (config : DomainConfig) (s : Shared) :
    (initial id registry config s : Arena δ).Ordered :=
  .inl ⟨rfl, rfl⟩

/-- Under the tree lock a start finds a domain that runs, or marks one that does not; with
clear-on-start the mark is set by a clear pass over every enabled zone. -/
inductive Marked (env : Surroundings) (a : Arena δ) : Arena δ → Prop
  | unsound : a.domain.treePoisoned = true →
      Marked env a { a with domain.slotPoisoned := true, holder := none }
  | found : a.domain.treePoisoned = false → a.domain.running = true →
      Marked env a { a with holder := none }
  | unswept : a.domain.treePoisoned = false → a.domain.running = false →
      a.domain.clearOnStart = false →
      Marked env a { a with domain.running := true, holder := some .spawning }
  | swept {zones : List (Zone δ)} {t : Shared} : a.domain.treePoisoned = false →
      a.domain.running = false → a.domain.clearOnStart = true →
      passOver (Zone.pass env true) a.domain.zones a.shared = (none, zones, t) →
      Marked env a { a with
        domain := { a.domain with running := true, zones }
        shared := t
        holder := some .spawning }
  | failed {f : Fault} {zones : List (Zone δ)} {t : Shared} : a.domain.treePoisoned = false →
      a.domain.running = false → a.domain.clearOnStart = true →
      passOver (Zone.pass env true) a.domain.zones a.shared = (some f, zones, t) →
      Marked env a { a with
        domain := { a.domain with running := true, zones, treePoisoned := true, slotPoisoned := true }
        shared := t
        holder := none }

theorem settle_marked (env : Surroundings) (a : Arena δ) :
    Marked env a (a.settle (a.domain.markRunning env a.shared) .spawning) := by
  rcases a.domain.markRunning_cases env a.shared with
    ⟨tree, done⟩ | ⟨tree, running, done⟩ | ⟨tree, running, clears, done⟩ |
    ⟨fault, zones, t, tree, running, clears, whole, done⟩
  · rw [done]
    exact .unsound tree
  · rw [done]
    exact .found tree running
  · rw [done]
    exact .unswept tree running clears
  · rw [done]
    cases fault with
    | none =>
      have kept : { a.domain with running := true, zones, treePoisoned := false } =
          { a.domain with running := true, zones } := by
        rw [← tree]
      simp only [settle, Domain.ended, Except.map, Option.isSome_none, kept, if_true]
      exact .swept tree running clears whole
    | some f => exact .failed tree running clears whole

inductive Cleared (a : Arena δ) : Arena δ → Prop
  | unsound : a.domain.treePoisoned = true →
      Cleared a { a with domain.slotPoisoned := true, holder := none }
  | found : a.domain.treePoisoned = false → a.domain.running = false →
      Cleared a { a with holder := none }
  | cleared : a.domain.treePoisoned = false → a.domain.running = true →
      Cleared a { a with domain.running := false, holder := some .taking }

omit [Driver δ] in
theorem settle_cleared (a : Arena δ) :
    Cleared a (a.settle (a.domain.clearRunning a.shared) .taking) := by
  rcases a.domain.clearRunning_cases a.shared with ⟨tree, done⟩ | ⟨tree, done⟩
  · rw [done]
    exact .unsound tree
  · rw [done]
    cases on : a.domain.running with
    | true => exact .cleared tree on
    | false =>
      have kept : { a.domain with running := false } = a.domain := by
        rw [← on]
      simp only [settle, kept, Bool.false_eq_true, if_false]
      exact .found tree on

/-- How the caller who has the slot goes on. -/
inductive Goes (env : Surroundings) (a : Arena δ) : Arena δ → Prop
  | marks {b : Arena δ} : a.holder = some .starting → Marked env a b → Goes env a b
  | lacks {error : String} : a.holder = some .spawning → env.threadError = some error →
      Goes env a { a with domain.slotPoisoned := true, holder := none }
  | spawns : a.holder = some .spawning → env.threadError = none →
      Goes env a { a with
        threads := a.spawned :: a.threads
        spawned := a.spawned + 1
        holder := some (.storing a.spawned) }
  | stores {t : Nat} : a.holder = some (.storing t) →
      Goes env a { a with
        slot := some t
        domain.sampler := true
        shared := a.shared.log .info s!"started domain {a.domain.name}"
        holder := none }
  | clears {b : Arena δ} : a.holder = some .stopping → Cleared a b → Goes env a b
  | takes {t : Nat} : a.holder = some .taking → a.slot = some t →
      Goes env a { a with slot := none, domain.sampler := false, holder := some (.joining t) }
  | finds : a.holder = some .taking → a.slot = none → Goes env a (proceed.stopped a)
  | joins {t : Nat} : a.holder = some (.joining t) → t ∉ a.threads → Goes env a (proceed.stopped a)

theorem proceed_goes (done : a.proceed env = some b) : a.Goes env b := by
  cases held : a.holder with
  | none =>
    simp only [proceed, held] at done
    cases done
  | some stage =>
    simp only [proceed, held] at done
    cases stage with
    | starting =>
      cases done
      exact .marks held (settle_marked env a)
    | spawning =>
      cases given : env.threadError with
      | some error =>
        simp only [given] at done
        cases done
        exact .lacks held given
      | none =>
        simp only [given] at done
        cases done
        exact .spawns held given
    | storing t =>
      cases done
      exact .stores held
    | stopping =>
      cases done
      exact .clears held (settle_cleared a)
    | taking =>
      cases slot : a.slot with
      | none =>
        simp only [slot] at done
        cases done
        exact .finds held slot
      | some t =>
        simp only [slot] at done
        cases done
        exact .takes held slot
    | joining t =>
      simp only at done
      split at done
      · cases done
      · rename_i gone
        cases done
        exact .joins held gone

omit [Driver δ] in
theorem Settled.idle (h : a.Settled) (off : a.domain.running = false) :
    a.slot = none ∧ a.threads = [] := by
  have empty : a.slot = none := by
    rw [← Option.not_isSome_iff_eq_none, ← h.1, off]
    decide
  exact ⟨empty, by rw [h.2, empty]; rfl⟩

theorem Marked.ordered (h : a.Settled) (marked : Marked env a b) : b.Ordered := by
  cases marked with
  | unsound | found => exact .inl h
  | unswept _ off | swept _ off => exact ⟨rfl, h.idle off⟩
  | failed _ off =>
    obtain ⟨slot, threads⟩ := h.idle off
    exact .inr ⟨rfl, rfl, slot, threads, rfl⟩

omit [Driver δ] in
theorem Cleared.ordered (h : a.Settled) (cleared : Cleared a b) : b.Ordered := by
  cases cleared with
  | unsound | found => exact .inl h
  | cleared _ on =>
    obtain ⟨t, slot⟩ := Option.isSome_iff_exists.mp (h.1.symm.trans on)
    exact ⟨rfl, t, slot, .inl (by rw [h.2, slot]; rfl)⟩

theorem Goes.ordered (h : a.Ordered) (goes : a.Goes env b) : b.Ordered := by
  cases goes with
  | marks held marked =>
    rw [Ordered, held] at h
    exact marked.ordered h
  | lacks held =>
    rw [Ordered, held] at h
    obtain ⟨on, slot, threads⟩ := h
    exact .inr ⟨rfl, on, slot, threads, rfl⟩
  | spawns held =>
    rw [Ordered, held] at h
    obtain ⟨on, slot, threads⟩ := h
    exact ⟨on, slot, by rw [threads]⟩
  | stores held =>
    rw [Ordered, held] at h
    exact .inl ⟨h.1, h.2.2⟩
  | clears held cleared =>
    rw [Ordered, held] at h
    exact cleared.ordered h
  | takes held slot =>
    rw [Ordered, held] at h
    obtain ⟨off, u, full, threads⟩ := h
    cases slot.symm.trans full
    exact ⟨off, rfl, threads⟩
  | finds held slot =>
    rw [Ordered, held] at h
    obtain ⟨-, u, full, -⟩ := h
    cases slot.symm.trans full
  | joins held gone =>
    rw [Ordered, held] at h
    obtain ⟨off, slot, one | ended⟩ := h
    · simp [one] at gone
    · exact .inl ⟨by rw [proceed.stopped, off, slot]; rfl,
        by rw [proceed.stopped, ended, slot]; rfl⟩

structure Beside (a b : Arena δ) : Prop where
  holder : b.holder = a.holder
  domain : a.domain.Steady b.domain
  slot : b.slot = a.slot
  threads : b.threads = a.threads ∨
    a.domain.running = false ∧ ∃ t ∈ a.threads, b.threads = a.threads.erase t

theorem wake_beside {t : Nat} (done : a.wake env t = some b) : t ∈ a.threads ∧ a.Beside b := by
  unfold wake at done
  split at done
  · cases done
  · rename_i alive
    refine ⟨Classical.not_not.mp alive, ?_⟩
    split at done
    · cases done
      exact ⟨rfl, .refl a.domain, rfl, .inl rfl⟩
    · split at done
      · cases done
        exact ⟨rfl, a.domain.update_steady env false a.shared, rfl, .inl rfl⟩
      · rename_i off
        cases done
        exact ⟨rfl, .refl a.domain, rfl,
          .inr ⟨eq_false_of_ne_true off, t, Classical.not_not.mp alive, rfl⟩⟩

theorem step_cases (done : a.step env move = some b) :
    (∃ task, move = .enter task ∧ a.holder = none ∧ a.domain.slotPoisoned = false ∧
        b = { a with holder := some task.stage }) ∨
      move = .proceed ∧ a.Goes env b ∨
      (∀ t, move = .wake t → t ∈ a.threads) ∧ a.Beside b := by
  unfold step at done
  split at done
  · cases done
  · cases move with
    | enter task =>
      simp only at done
      split at done
      · cases done
      · rename_i free
        split at done
        · cases done
          exact .inr (.inr ⟨fun _ other => (by cases other), rfl, .refl a.domain, rfl, .inl rfl⟩)
        · rename_i sound
          cases done
          exact .inl ⟨task, rfl, Option.not_isSome_iff_eq_none.mp free, eq_false_of_ne_true sound, rfl⟩
    | proceed => exact .inr (.inl ⟨rfl, proceed_goes done⟩)
    | wake t =>
      obtain ⟨alive, beside⟩ := wake_beside done
      refine .inr (.inr ⟨fun u same => ?_, beside⟩)
      cases same
      exact alive
    | errand errand =>
      cases done
      exact .inr (.inr ⟨fun _ other => (by cases other), rfl,
        errand.run_steady env a.domain a.shared, rfl, .inl rfl⟩)
    | elsewhere shared =>
      cases done
      exact .inr (.inr ⟨fun _ other => (by cases other), rfl, .refl a.domain, rfl, .inl rfl⟩)

omit [Driver δ] in
/-- Only a thread that a stop waits for can end. -/
theorem Ordered.beside (h : a.Ordered) (beside : a.Beside b) : b.Ordered := by
  obtain ⟨holder, steady, slot, threads⟩ := beside
  have settled (h : a.Settled) : b.Settled := by
    refine ⟨by rw [steady.running, slot, h.1], ?_⟩
    rcases threads with same | ⟨off, t, alive, -⟩
    · rw [same, slot, h.2]
    · rw [(h.idle off).2] at alive
      cases alive
  have ending {u : Nat} (h : a.threads = [u] ∨ a.threads = []) :
      b.threads = [u] ∨ b.threads = [] := by
    rcases threads with same | ⟨-, t, alive, ended⟩
    · rwa [same]
    · rcases h with one | none
      · rw [one] at alive ended
        rw [ended, List.mem_singleton.mp alive]
        exact .inr (List.erase_cons_head _ _)
      · rw [none] at alive
        cases alive
  have running (on : a.domain.running = true) : b.threads = a.threads := by
    rcases threads with same | ⟨off, -⟩
    · exact same
    · rw [on] at off
      cases off
  unfold Ordered at h ⊢
  rw [holder]
  cases held : a.holder with
  | none =>
    rw [held] at h
    refine h.imp settled fun failed => ?_
    exact ⟨holder.trans held, steady.running.trans failed.running, slot.trans failed.slot,
      (running failed.running).trans failed.threads, steady.slot.trans failed.poisoned⟩
  | some stage =>
    rw [held] at h
    cases stage with
    | starting | stopping => exact settled h
    | spawning | storing t =>
      obtain ⟨on, empty, threads⟩ := h
      exact ⟨steady.running.trans on, slot.trans empty, (running on).trans threads⟩
    | taking =>
      obtain ⟨off, t, full, threads⟩ := h
      exact ⟨steady.running.trans off, t, slot.trans full, ending threads⟩
    | joining t =>
      obtain ⟨off, empty, threads⟩ := h
      exact ⟨steady.running.trans off, slot.trans empty, ending threads⟩

theorem step_ordered (h : a.Ordered) (done : a.step env move = some b) : b.Ordered := by
  rcases step_cases done with ⟨task, -, free, sound, rfl⟩ | ⟨-, goes⟩ | ⟨-, beside⟩
  · rw [Ordered, free] at h
    rcases h with settled | failed
    · cases task <;> exact settled
    · cases sound.symm.trans failed.poisoned
  · exact goes.ordered h
  · exact h.beside beside

theorem run_ordered {moves : List (Surroundings × Move δ)} (h : a.Ordered)
    (done : a.run moves = some b) : b.Ordered := by
  induction moves generalizing a with
  | nil =>
    cases done
    exact h
  | cons first rest ih =>
    obtain ⟨c, here, later⟩ := Option.bind_eq_some_iff.mp done
    exact ih (step_ordered h here) later

omit [Driver δ] in
theorem Ordered.one_thread (h : a.Ordered) : a.threads.length ≤ 1 := by
  have settled (h : a.Settled) : a.threads.length ≤ 1 := by
    rw [h.2]
    cases a.slot <;> simp
  have ending {t : Nat} (threads : a.threads = [t] ∨ a.threads = []) : a.threads.length ≤ 1 := by
    rcases threads with one | none
    · rw [one]
      exact Nat.le_refl 1
    · rw [none]
      exact Nat.zero_le 1
  cases held : a.holder with
  | none =>
    rw [Ordered, held] at h
    rcases h with h | h
    · exact settled h
    · exact ending (t := 0) (.inr h.threads)
  | some stage =>
    rw [Ordered, held] at h
    cases stage with
    | starting | stopping => exact settled h
    | spawning => exact ending (t := 0) (.inr h.2.2)
    | storing t => exact ending (.inl h.2.2)
    | taking =>
      obtain ⟨-, t, -, threads⟩ := h
      exact ending threads
    | joining t => exact ending h.2.2

omit [Driver δ] in
theorem Ordered.at_rest (h : a.Ordered) (free : a.holder = none) : a.Settled ∨ a.Failed := by
  rwa [Ordered, free] at h

/-- The step of a start that marks the domain as running. With clear-on-start it is a clear pass over
every enabled zone, and there is no thread before it is over; if it fails there never is, and the
tree lock is poisoned too. -/
def Marks (env : Surroundings) (a b : Arena δ) : Prop :=
  let (fault, zones, t) :=
    if a.domain.clearOnStart then passOver (Zone.pass env true) a.domain.zones a.shared
    else (none, a.domain.zones, a.shared)
  a.holder = some .starting ∧ a.threads = [] ∧ b.threads = [] ∧ b.domain.zones = zones ∧
    b.shared = t ∧
    if fault.isSome then b.Failed ∧ b.domain.treePoisoned = true else b.holder = some .spawning

/-- The step of a start that gets no thread from the system. It leaves the slot lock poisoned. -/
def Lacks (env : Surroundings) (a b : Arena δ) : Prop :=
  a.holder = some .spawning ∧ env.threadError.isSome = true ∧
    b = { a with domain.slotPoisoned := true, holder := none }

theorem Marked.marks (h : a.Settled) (held : a.holder = some .starting) (marked : Marked env a b)
    (off : a.domain.running = false) (on : b.domain.running = true) : a.Marks env b := by
  obtain ⟨slot, threads⟩ := h.idle off
  cases marked with
  | unsound | found => simp_all
  | unswept _ _ clears =>
    simp only [Marks, clears, Bool.false_eq_true, if_false]
    exact ⟨held, threads, threads, trivial, trivial, by simp⟩
  | swept _ _ clears whole =>
    simp only [Marks, clears, if_true, whole]
    exact ⟨held, threads, threads, trivial, trivial, by simp⟩
  | failed _ _ clears whole =>
    simp only [Marks, clears, if_true, whole]
    exact ⟨held, threads, threads, trivial, trivial, ⟨rfl, rfl, slot, threads, rfl⟩, trivial⟩

theorem Ordered.marks (h : a.Ordered) (done : a.step env move = some b)
    (off : a.domain.running = false) (on : b.domain.running = true) : a.Marks env b := by
  have same (running : b.domain.running = a.domain.running) : a.Marks env b := by
    rw [running, off] at on
    cases on
  rcases step_cases done with ⟨task, -, -, -, rfl⟩ | ⟨-, goes⟩ | ⟨-, beside⟩
  · exact same rfl
  · cases goes with
    | marks held marked =>
      rw [Ordered, held] at h
      exact marked.marks h held off on
    | clears held cleared =>
      cases cleared with
      | unsound | found => exact same rfl
      | cleared => cases on
    | lacks | spawns | stores | takes | finds | joins => exact same rfl
  · exact same beside.domain.running

/-- A start can fail when it marks the domain, and for want of a thread; nothing else can. -/
theorem Ordered.failed (h : a.Ordered) (done : a.step env move = some b) (failed : b.Failed) :
    a.Failed ∨ a.Marks env b ∨ a.Lacks env b := by
  cases running : a.domain.running with
  | false => exact .inr (.inl (h.marks done running failed.running))
  | true =>
    have settled (h : a.Settled) (slot : b.slot = a.slot) :
        a.Failed ∨ a.Marks env b ∨ a.Lacks env b := by
      rw [Settled, running, ← slot, failed.slot] at h
      cases h.1
    rcases step_cases done with ⟨task, -, -, -, rfl⟩ | ⟨-, goes⟩ | ⟨-, beside⟩
    · cases failed.holder
    · cases goes with
      | marks held marked =>
        rw [Ordered, held] at h
        cases marked with
        | unsound | found => exact settled h rfl
        | unswept | swept => cases failed.holder
        | failed _ off => 
          rw [running] at off
          cases off
      | clears held cleared =>
        rw [Ordered, held] at h
        cases cleared with
        | unsound | found => exact settled h rfl
        | cleared => cases failed.holder
      | lacks held given => exact .inr (.inr ⟨held, by rw [given]; rfl, rfl⟩)
      | spawns | takes => cases failed.holder
      | stores => cases failed.slot
      | finds held | joins held =>
        rw [Ordered, held, running] at h
        cases h.1
    · exact (h.at_rest (beside.holder.symm.trans failed.holder)).elim (settled · beside.slot) .inl

def Stopping (a : Arena δ) : Prop :=
  a.holder = some .stopping ∨ a.holder = some .taking ∨ ∃ t, a.holder = some (.joining t)

structure Quiet (a : Arena δ) : Prop where
  running : a.domain.running = false
  threads : a.threads = []
  holder : a.holder = none ∨ a.holder = some .stopping

theorem Ordered.stopped (h : a.Ordered) (done : a.step env move = some b) (stopping : a.Stopping)
    (free : b.holder = none) (sound : b.domain.slotPoisoned = false) : b.Quiet := by
  have settled : b.Settled := by
    rcases (step_ordered h done).at_rest free with settled | failed
    · exact settled
    · cases sound.symm.trans failed.poisoned
  have running : b.domain.running = false := by
    have busy : a.holder ≠ none := by
      rcases stopping with held | held | ⟨t, held⟩ <;> simp [held]
    rcases step_cases done with ⟨task, -, -, -, rfl⟩ | ⟨-, goes⟩ | ⟨-, beside⟩
    · cases free
    · cases goes with
      | clears held cleared =>
        cases cleared with
        | unsound => cases sound
        | found _ off => exact off
        | cleared => cases free
      | finds held | joins held =>
        rw [Ordered, held] at h
        exact h.1
      | marks held | lacks held | stores held => simp [Stopping, held] at stopping
      | spawns | takes => cases free
    · exact absurd (beside.holder.symm.trans free) busy
  exact ⟨running, (settled.idle running).2, .inl free⟩

theorem Quiet.step (h : a.Quiet) (done : a.step env move = some b) (other : move ≠ .enter .start) :
    b.Quiet ∧ ∀ t, move ≠ .wake t := by
  obtain ⟨running, threads, holder⟩ := h
  rcases step_cases done with ⟨task, rfl, -, -, rfl⟩ | ⟨rfl, goes⟩ | ⟨alive, beside⟩
  · refine ⟨⟨running, threads, ?_⟩, by simp⟩
    cases task with
    | start => exact absurd rfl other
    | stop => exact .inr rfl
  · refine ⟨?_, by simp⟩
    cases goes with
    | clears _ cleared =>
      cases cleared with
      | unsound | found => exact ⟨running, threads, .inl rfl⟩
      | cleared _ on => cases running.symm.trans on
    | marks held | lacks held | spawns held | stores held | takes held | finds held
    | joins held => simp [held] at holder
  · refine ⟨⟨beside.domain.running.trans running, ?_, ?_⟩, ?_⟩
    · rcases beside.threads with same | ⟨-, t, member, -⟩
      · exact same.trans threads
      · rw [threads] at member
        cases member
    · rwa [beside.holder]
    · intro t same
      have member := alive t same
      rw [threads] at member
      cases member

theorem Quiet.run {moves : List (Surroundings × Move δ)} (h : a.Quiet) (done : a.run moves = some b)
    (other : ∀ x ∈ moves, x.2 ≠ .enter .start) : b.Quiet ∧ ∀ x ∈ moves, ∀ t, x.2 ≠ .wake t := by
  induction moves generalizing a with
  | nil =>
    cases done
    exact ⟨h, by simp⟩
  | cons first rest ih =>
    obtain ⟨c, here, later⟩ := Option.bind_eq_some_iff.mp done
    obtain ⟨quiet, still⟩ := h.step here (other first List.mem_cons_self)
    obtain ⟨ended, all⟩ := ih quiet later fun x member => other x (List.mem_cons_of_mem _ member)
    refine ⟨ended, fun x member => ?_⟩
    rcases List.mem_cons.mp member with rfl | member
    · exact still
    · exact all x member

def alone (env : Surroundings) (moves : List (Move δ)) : List (Surroundings × Move δ) :=
  moves.map (env, ·)

theorem run_enter (free : a.holder = none) (alive : a.halted = false)
    (sound : a.domain.slotPoisoned = false) (task : Task) (rest : List (Surroundings × Move δ)) :
    a.run ((env, .enter task) :: rest) = { a with holder := some task.stage }.run rest := by
  simp [run, step, free, alive, sound]

theorem run_spawning (held : a.holder = some .spawning) (alive : a.halted = false)
    (given : env.threadError = none) :
    a.run (alone env [.proceed, .proceed]) = some { a with
      threads := a.spawned :: a.threads
      spawned := a.spawned + 1
      slot := some a.spawned
      domain.sampler := true
      shared := a.shared.log .info s!"started domain {a.domain.name}"
      holder := none } := by
  simp [alone, run, step, proceed, held, alive, given]

theorem run_lacking {error : String} (held : a.holder = some .spawning) (alive : a.halted = false)
    (given : env.threadError = some error) :
    a.run (alone env [.proceed]) =
      some { a with domain.slotPoisoned := true, holder := none } := by
  simp [alone, run, step, proceed, held, alive, given]

theorem start_alone (free : a.holder = none) (alive : a.halted = false) (env : Surroundings) :
    ∃ moves b, a.run (alone env (.enter .start :: moves)) = some b ∧
      (∀ move ∈ moves, move = .proceed) ∧ b.holder = none ∧
      b.domain = (a.domain.start env a.shared).domain ∧
      b.shared = (a.domain.start env a.shared).shared := by
  cases slot : a.domain.slotPoisoned with
  | true =>
    refine ⟨[], a, by simp [alone, run, step, free, alive, slot], by simp, free, ?_⟩
    rw [Domain.start, Domain.holdingSlot_poisoned slot]
    exact ⟨rfl, rfl⟩
  | false =>
    let marked := { a with holder := some Stage.starting }.settle
      (a.domain.markRunning env a.shared) .spawning
    have first (moves : List (Move δ)) : a.run (alone env (.enter .start :: .proceed :: moves)) =
        marked.run (alone env moves) := by
      rw [alone, List.map_cons, run_enter free alive slot]
      simp [run, step, alive, proceed, marked, Task.stage, alone]
    have becomes := Domain.markRunning_becomes env a.domain a.shared
    simp only [Domain.start, Domain.holdingSlot, slot, Bool.false_eq_true, if_false]
    cases done : a.domain.markRunning env a.shared with | mk outcome d t =>
    rw [done] at becomes
    have name : d.name = a.domain.name := becomes.frame.name
    cases outcome with
    | error e =>
      obtain ⟨f, rfl⟩ := Domain.markRunning_error (congrArg Done.outcome done)
      refine ⟨[.proceed], marked, first [], by simp, ?_⟩
      simp [marked, settle, done]
    | ok goes =>
      cases goes with
      | false =>
        refine ⟨[.proceed], marked, first [], by simp, ?_⟩
        simp [marked, settle, done]
      | true =>
        have went : marked = { a with domain := d, shared := t, holder := some .spawning } := by
          simp [marked, settle, done]
        cases given : env.threadError with
        | some error =>
          have lacking := run_lacking
            (a := { a with domain := d, shared := t, holder := some .spawning }) rfl alive given
          have whole := first [.proceed]
          rw [went, lacking] at whole
          exact ⟨_, _, whole, by simp, rfl, rfl, rfl⟩
        | none =>
        have spawned := run_spawning
          (a := { a with domain := d, shared := t, holder := some .spawning }) rfl alive given
        have logged : t.log .info s!"started domain {d.name}" =
            t.log .info s!"started domain {a.domain.name}" := by
          rw [name]
        have whole := first [.proceed, .proceed]
        rw [went, spawned] at whole
        exact ⟨_, _, whole, by simp, rfl, rfl, logged⟩

theorem run_taking {t : Nat} (held : a.holder = some .taking) (full : a.slot = some t)
    (one : a.threads = [t]) (off : a.domain.running = false) (tree : a.domain.treePoisoned = false)
    (alive : a.halted = false) (env : Surroundings) :
    a.run (alone env [.wake t, .proceed, .proceed]) = some { a with
      threads := []
      slot := none
      domain.sampler := false
      shared := a.shared.log .info s!"stopped domain {a.domain.name}"
      holder := none } := by
  simp [alone, run, step, wake, proceed, proceed.stopped, held, full, one, off, tree, alive]

theorem stop_alone (h : a.Ordered) (free : a.holder = none) (alive : a.halted = false)
    (env : Surroundings) :
    ∃ moves b, a.run (alone env (.enter .stop :: moves)) = some b ∧
      (∀ move ∈ moves, move = .proceed ∨ ∃ t, move = .wake t) ∧ b.holder = none ∧
      b.domain = (a.domain.stop a.shared).domain ∧ b.shared = (a.domain.stop a.shared).shared := by
  cases slot : a.domain.slotPoisoned with
  | true =>
    refine ⟨[], a, by simp [alone, run, step, free, alive, slot], by simp, free, ?_⟩
    rw [Domain.stop, Domain.holdingSlot_poisoned slot]
    exact ⟨rfl, rfl⟩
  | false =>
    let cleared := { a with holder := some Stage.stopping }.settle
      (a.domain.clearRunning a.shared) .taking
    have first (moves : List (Move δ)) : a.run (alone env (.enter .stop :: .proceed :: moves)) =
        cleared.run (alone env moves) := by
      rw [alone, List.map_cons, run_enter free alive slot]
      simp [run, step, alive, proceed, cleared, Task.stage, alone]
    simp only [Domain.stop, Domain.holdingSlot, slot, Bool.false_eq_true, if_false]
    rcases a.domain.clearRunning_cases a.shared with ⟨-, done⟩ | ⟨tree, done⟩
    · refine ⟨[.proceed], cleared, first [], by simp, ?_⟩
      simp [cleared, settle, done]
    · cases on : a.domain.running with
      | false =>
        refine ⟨[.proceed], cleared, first [], by simp, ?_⟩
        simp [cleared, settle, done, on]
      | true =>
        have settled : a.Settled := by
          rcases h.at_rest free with settled | failed
          · exact settled
          · cases slot.symm.trans failed.poisoned
        obtain ⟨t, full⟩ := Option.isSome_iff_exists.mp (settled.1.symm.trans on)
        have one : a.threads = [t] := by
          rw [settled.2, full]
          rfl
        have went : cleared = { a with domain.running := false, holder := some .taking } := by
          simp [cleared, settle, done, on]
        have taken := run_taking (a := { a with domain.running := false, holder := some .taking })
          rfl full one rfl tree alive env
        have whole := first [.wake t, .proceed, .proceed]
        rw [went, taken] at whole
        refine ⟨_, _, whole, by simp, rfl, ?_⟩
        simp [done, on]

/-- A start of a domain that is running, or a stop of one that is not, goes off as it came, but for
the slot if the tree lock is poisoned. -/
theorem Goes.idle (goes : a.Goes env b)
    (idle : a.holder = some .starting ∧ a.domain.running = true ∨
      a.holder = some .stopping ∧ a.domain.running = false) :
    b = { a with holder := none } ∨ a.domain.treePoisoned = true ∧
      b = { a with domain.slotPoisoned := true, holder := none } := by
  cases goes with
  | marks held marked =>
    simp only [held, Option.some.injEq, reduceCtorEq, false_and, or_false, true_and] at idle
    cases marked with
    | found => exact .inl rfl
    | unsound poisoned => exact .inr ⟨poisoned, rfl⟩
    | unswept _ off | swept _ off | failed _ off => cases idle.symm.trans off
  | clears held cleared =>
    simp only [held, Option.some.injEq, reduceCtorEq, false_and, false_or, true_and] at idle
    cases cleared with
    | found => exact .inl rfl
    | unsound poisoned => exact .inr ⟨poisoned, rfl⟩
    | cleared _ on => cases idle.symm.trans on
  | lacks held | spawns held | stores held | takes held | finds held | joins held =>
    simp [held] at idle

end Arena

open Arena

/-- **Starts, stops and the sampler in any interleaving.** At most one sampling thread exists. While
nobody starts or stops the domain it is running if the slot holds a thread, unless a start has
failed: its clear pass, or for want of a thread. After a stop there is no sampling thread until
another start. A start of a domain that is running and a stop of one that is not change nothing, but
that they poison the slot if the tree lock is poisoned. Only a start marks the domain as running,
and with clear-on-start the mark comes with a clear pass over every enabled zone, before there is a
thread. -/
theorem sampling_interleaved (id registry : Nat) (config : DomainConfig) (s : Shared)
    (moves : List (Surroundings × Move δ)) (a : Arena δ)
    (reached : (initial id registry config s).run moves = some a) :
    a.threads.length ≤ 1 ∧
    (a.holder = none → a.domain.running = a.slot.isSome ∨ a.Failed) ∧
    ∀ env move b, a.step env move = some b →
      (b.Failed → a.Failed ∨ a.Marks env b ∨ a.Lacks env b) ∧
      (a.Stopping → b.holder = none → b.domain.slotPoisoned = false →
        b.domain.running = false ∧ b.threads = [] ∧
        ∀ later c, b.run later = some c → (∀ x ∈ later, x.2 ≠ .enter .start) →
          c.domain.running = false ∧ c.threads = [] ∧ ∀ x ∈ later, ∀ t, x.2 ≠ .wake t) ∧
      (move = .proceed →
        a.holder = some .starting ∧ a.domain.running = true ∨
          a.holder = some .stopping ∧ a.domain.running = false →
        b = { a with holder := none } ∨ a.domain.treePoisoned = true ∧
          b = { a with domain.slotPoisoned := true, holder := none }) ∧
      (a.domain.running = false → b.domain.running = true → a.Marks env b) := by
  have ordered : a.Ordered := run_ordered (initial_ordered id registry config s) reached
  refine ⟨ordered.one_thread, ?_, ?_⟩
  · intro free
    exact (ordered.at_rest free).imp_left And.left
  · intro env move b done
    refine ⟨ordered.failed done, ?_, ?_, ordered.marks done⟩
    · intro stopping free sound
      have quiet := ordered.stopped done stopping free sound
      refine ⟨quiet.running, quiet.threads, ?_⟩
      intro later c whole other
      obtain ⟨still, none⟩ := quiet.run whole other
      exact ⟨still.running, still.threads, none⟩
    · rintro rfl idle
      unfold Arena.step at done
      split at done
      · cases done
      · exact (proceed_goes done).idle idle

def sweeping : DomainConfig := ⟨"d", 0, true⟩

def startedInBetween : List (Surroundings × Move StockDriver) :=
  [(showing 0, .errand (.alloc counterZone)), (showing 3, .enter .start), (showing 5, .proceed),
    (showing 6, .errand (.update false)), (showing 7, .proceed), (showing 9, .wake 0),
    (showing 9, .proceed)]

theorem sampling_interleaved_started :
    ∃ a : Arena StockDriver, (initial 1 0 sweeping (.ofRegistries 1)).run startedInBetween = some a ∧
      a.threads = [0] ∧ a.slot = some 0 ∧ a.holder = none ∧
      (a.domain.running = a.slot.isSome ∨ a.Failed) := by
  refine ⟨_, rfl, rfl, rfl, rfl, ?_⟩
  exact (sampling_interleaved 1 0 sweeping (.ofRegistries 1) startedInBetween _ rfl).2.1 rfl

def startedUnreadable : List (Surroundings × Move StockDriver) :=
  [(showing 0, .errand (.alloc unreadable)), (showing 0, .enter .start), (showing 0, .proceed)]

def startedThreadless : List (Surroundings × Move StockDriver) :=
  [(showing 0, .enter .start), (showing 0, .proceed),
    ({ showing 0 with threadError := some "Resource temporarily unavailable" }, .proceed)]

/-- The clear pass of a start has failed, or the system gave it no thread: nobody starts or stops the
domain any more, it is marked as running, and the slot holds no thread. In the second case the tree
lock is sound. -/
theorem failed_start_running :
    (∃ a : Arena StockDriver, (initial 1 0 sweeping (.ofRegistries 1)).run startedUnreadable = some a ∧
      a.holder = none ∧ a.domain.running = true ∧ a.slot = none) ∧
    ∃ a : Arena StockDriver, (initial 1 0 sweeping (.ofRegistries 1)).run startedThreadless = some a ∧
      a.holder = none ∧ a.domain.running = true ∧ a.slot = none ∧ a.domain.treePoisoned = false :=
  ⟨⟨_, rfl, rfl, rfl, rfl⟩, _, rfl, rfl, rfl, rfl, rfl⟩

end Telemetry
