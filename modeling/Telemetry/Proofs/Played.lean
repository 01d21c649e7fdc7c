import Telemetry.Proofs.Timing
import Telemetry.Proofs.Accounting
import Telemetry.Replay.Clock

/-! A replay under virtual time. It takes its turns at the times at which they are due, while others
may change whatever is not its own; it can be stopped at any point. What it has written is then the
beginning of the time table, what it tells of itself agrees with what it has written, and as long as
nobody stops it, it is told by the number of its turns where it stands. -/
namespace Telemetry

open Register (Window)

namespace Replay

/-- All that a replay can come to from its start: turns, what others do in between, and a stop at
any point. Put down are whether it was stopped, its turns, and the rows that it has written. -/
inductive Played (first : Engine) (opening : Scene) :
    Bool → Nat → List Write → Engine → Scene → Prop
  | opens : Played first opening false 0 [] first opening
  | turns {stopped : Bool} {m : Nat} {log : List Write} {e : Engine} {s : Scene} :
      Played first opening stopped m log e s →
      Played first opening stopped (m + 1) (log ++ e.writes) (e.turn s).1 (e.turn s).2
  | others {stopped : Bool} {m : Nat} {log : List Write} {e : Engine} {s t : Scene} :
      Played first opening stopped m log e s →
      (∀ x, e.metrics = some x → x.Spares s.shared.store t.shared.store) →
      Played first opening stopped m log e t
  | halts {stopped : Bool} {m : Nat} {log : List Write} {e : Engine} {s : Scene} :
      Played first opening stopped m log e s → Played first opening true m log e.halt s

structure Engine.Opened (first : Engine) (start : Nat) : Prop where
  position : first.position = 0
  running : first.running = true
  phase : first.phase = .playing start
  rows : first.dataset.rows ≠ []

structure Engine.Started (first : Engine) (start : Nat) : Prop where
  position : first.position = 0
  running : first.running = true
  phase : first.phase = .playing start
  rows : first.dataset.rows ≠ []
  real : first.settings.Real first.dataset

theorem Engine.Started.opened {first : Engine} {start : Nat} (h : first.Started start) :
    first.Opened start := ⟨h.position, h.running, h.phase, h.rows⟩

namespace Played

variable {first e : Engine} {opening s : Scene} {stopped : Bool} {m start : Nat}
  {log : List Write}

theorem kept (h : Played first opening stopped m log e s) : first.Kept e := by
  induction h with
  | opens => exact .refl first
  | turns _ ih => exact ih.trans (Engine.turn_turns _ _).kept
  | others _ _ ih => exact ih
  | halts _ ih => exact ih.trans ⟨rfl, rfl, rfl, rfl⟩

/-- The rows of a replay that loops: each turn but the last of a loop writes the next one. -/
structure Paced (first : Engine) (start m : Nat) (log : List Write) (e : Engine) : Prop where
  position : e.position = m % (first.dataset.rows.length + 1)
  running : e.running = true
  phase : e.phase = .playing (instant first.sleep first.dataset.rows.length start
    (strokes first.dataset.rows.length m))
  log : log = schedule first.sleep first.dataset.rows.length start
    (strokes first.dataset.rows.length m)

structure Looped (first : Engine) (start m : Nat) (log : List Write) (e : Engine) : Prop where
  position : e.position = m % (first.dataset.rows.length + 1)
  running : e.running = true
  phase : e.phase = .playing (moment first.dataset first.settings.lastInterval start
    (strokes first.dataset.rows.length m))
  log : log = timetable first.dataset first.settings.lastInterval start
    (strokes first.dataset.rows.length m)

structure Once (first : Engine) (start m : Nat) (log : List Write) (e : Engine) : Prop where
  position : e.position = min m first.dataset.rows.length
  running : e.running = decide (m ≤ first.dataset.rows.length)
  phase : e.phase = if m ≤ first.dataset.rows.length then
    .playing (moment first.dataset first.settings.lastInterval start m) else .ended
  log : log = timetable first.dataset first.settings.lastInterval start
    (min m first.dataset.rows.length)

theorem paced (h : Played first opening false m log e s) (opened : first.Opened start)
    (looping : first.settings.looping = true) : Paced first start m log e := by
  generalize unstopped : false = b at h
  induction h with
  | opens =>
    refine ⟨opened.position.trans (Nat.zero_mod _).symm, opened.running, ?_, ?_⟩
    · simpa [strokes, instant] using opened.phase
    · simp [strokes, schedule]
  | others _ _ ih => exact ih unstopped
  | halts => cases unstopped
  | @turns b m log e s played ih =>
    obtain ⟨position, running, phase, log⟩ := ih unstopped
    have kept := played.kept
    cases there : e.dataset.rows[e.position]? with
    | none =>
      have behind : m % (first.dataset.rows.length + 1) = first.dataset.rows.length := by
        have short := List.getElem?_eq_none_iff.mp there
        rw [kept.dataset, position] at short
        have least : m % (first.dataset.rows.length + 1) < first.dataset.rows.length + 1 :=
          Nat.mod_lt m (Nat.succ_pos _)
        omega
      obtain ⟨same, again⟩ := strokes_over behind
      have silent : e.writes = [] := by simp [Engine.writes, there]
      rw [e.turn_complete phase running there, silent, List.append_nil, Engine.complete,
        if_pos (kept.settings ▸ looping)]
      exact ⟨again.symm, running, same ▸ phase, same ▸ log⟩
    | some row =>
      have within : m % (first.dataset.rows.length + 1) < first.dataset.rows.length := by
        have inside := (List.getElem?_eq_some_iff.mp there).1
        rwa [kept.dataset, position] at inside
      obtain ⟨more, next, place⟩ := strokes_next within
      have written : e.writes = [⟨instant first.sleep first.dataset.rows.length start
          (strokes first.dataset.rows.length m), e.position⟩] := by
        simp [Engine.writes, Engine.due?, phase, there, running]
      rw [e.turn_play phase running there, written]
      refine ⟨?_, running, ?_, ?_⟩
      · rw [next, ← position]
        rfl
      · rw [more, instant, place, ← position]
        change Phase.playing (_ + e.sleep e.position) = _
        rw [kept.sleep]
      · rw [more, schedule_succ, place, ← position, ← log]

theorem looped (h : Played first opening false m log e s) (started : first.Started start)
    (looping : first.settings.looping = true) : Looped first start m log e := by
  obtain ⟨position, running, phase, log⟩ := h.paced started.opened looping
  have sleeps : first.sleep = rest first.dataset first.settings.lastInterval :=
    funext (Engine.sleep_rest started.real)
  rw [sleeps] at phase log
  exact ⟨position, running, by rw [moment_eq, phase], by rw [timetable_eq, log]⟩

theorem once (h : Played first opening false m log e s) (started : first.Started start)
    (looping : first.settings.looping = false) : Once first start m log e := by
  generalize unstopped : false = b at h
  induction h with
  | opens =>
    refine ⟨started.position, started.running, ?_, ?_⟩
    · simpa [moment] using started.phase
    · simp [timetable]
  | others _ _ ih => exact ih unstopped
  | halts => cases unstopped
  | @turns b m log e s played ih =>
    obtain ⟨position, running, phase, log⟩ := ih unstopped
    have kept := played.kept
    rcases lt_trichotomy m first.dataset.rows.length with within | behind | past
    · rw [if_pos within.le] at phase
      rw [decide_eq_true within.le] at running
      rw [Nat.min_eq_left within.le] at position log
      obtain ⟨row, there⟩ : ∃ row, e.dataset.rows[e.position]? = some row := by
        rw [kept.dataset, position]
        exact ⟨_, List.getElem?_eq_getElem within⟩
      have written : e.writes = [⟨moment first.dataset first.settings.lastInterval start m,
          e.position⟩] := by
        simp [Engine.writes, Engine.due?, phase, there, running]
      have real : e.settings.Real e.dataset := by
        rw [kept.settings, kept.dataset]
        exact started.real
      rw [e.turn_play phase running there, written]
      refine ⟨?_, ?_, ?_, ?_⟩
      · rw [Nat.min_eq_left within, ← position]
        rfl
      · rw [decide_eq_true (show m + 1 ≤ _ from within)]
        exact running
      · rw [if_pos (show m + 1 ≤ _ from within), moment, Nat.mod_eq_of_lt within, ← position]
        change Phase.playing (_ + e.sleep e.position) = _
        rw [Engine.sleep_rest real, kept.dataset, kept.settings]
      · rw [Nat.min_eq_left within, timetable_succ, Nat.mod_eq_of_lt within, position, ← log]
    · subst behind
      rw [if_pos (Nat.le_refl _)] at phase
      rw [decide_eq_true (Nat.le_refl _)] at running
      rw [Nat.min_self] at position log
      have there : e.dataset.rows[e.position]? = none := by
        rw [kept.dataset, position]
        exact List.getElem?_eq_none (Nat.le_refl _)
      have silent : e.writes = [] := by simp [Engine.writes, there]
      rw [e.turn_complete phase running there, silent, List.append_nil, Engine.complete,
        if_neg (by rw [kept.settings, looping]; exact Bool.false_ne_true)]
      refine ⟨?_, ?_, ?_, ?_⟩
      · rw [Nat.min_eq_right (Nat.le_succ _)]
        exact position
      · rw [decide_eq_false (Nat.not_succ_le_self _)]
      · rw [if_neg (Nat.not_succ_le_self _)]
      · rw [Nat.min_eq_right (Nat.le_succ _)]
        exact log
    · have beyond : ¬ m ≤ first.dataset.rows.length := Nat.not_le.mpr past
      rw [if_neg beyond] at phase
      rw [decide_eq_false beyond] at running
      rw [Nat.min_eq_right past.le] at position log
      rw [e.turn_ended phase, e.writes_stopped running, List.append_nil]
      refine ⟨?_, ?_, ?_, ?_⟩
      · rw [Nat.min_eq_right (by omega), position]
      · rw [decide_eq_false (by omega), running]
      · rw [if_neg (by omega), phase]
      · rw [Nat.min_eq_right (by omega), log]

theorem stopped_still (h : Played first opening true m log e s) : e.running = false := by
  generalize unstopped : true = b at h
  induction h with
  | opens => cases unstopped
  | turns _ ih => exact (Engine.turn_stopped (ih unstopped) _).1
  | others _ _ ih => exact ih unstopped
  | halts => rfl

theorem written (h : Played first opening stopped m log e s) (started : first.Started start) :
    e.position ≤ first.dataset.rows.length ∧
      log = timetable first.dataset first.settings.lastInterval start log.length := by
  -- as long as nobody stops it, the number of its turns tells where it stands
  have going {m : Nat} {log : List Write} {e : Engine} {s : Scene}
      (h : Played first opening false m log e s) : e.position ≤ first.dataset.rows.length ∧
        log = timetable first.dataset first.settings.lastInterval start log.length := by
    cases looping : first.settings.looping with
    | true =>
      obtain ⟨position, -, -, same⟩ := h.looped started looping
      refine ⟨?_, ?_⟩
      · rw [position]
        exact Nat.le_of_lt_succ (Nat.mod_lt m (Nat.succ_pos _))
      · rw [same, timetable_length]
    | false =>
      obtain ⟨position, -, -, same⟩ := h.once started looping
      refine ⟨?_, ?_⟩
      · rw [position]
        exact Nat.min_le_right _ _
      · rw [same, timetable_length]
  induction h with
  | opens => exact going .opens
  | others _ _ ih | halts _ ih => exact ih
  | @turns b m log e s played ih =>
    cases b with
    | false => exact going (.turns played)
    | true =>
      have still := played.stopped_still
      rw [Engine.writes_stopped still, List.append_nil, (Engine.turn_stopped still s).2.1]
      exact ih

/-- At any speed, nothing is written but what the schedule says. -/
theorem scheduled (h : Played first opening stopped m log e s) (opened : first.Opened start)
    (looping : first.settings.looping = true) :
    log = schedule first.sleep first.dataset.rows.length start log.length := by
  have going {m : Nat} {log : List Write} {e : Engine} {s : Scene}
      (h : Played first opening false m log e s) :
      log = schedule first.sleep first.dataset.rows.length start log.length := by
    have same := (h.paced opened looping).log
    rw [same, schedule_length]
  induction h with
  | opens => exact going .opens
  | others _ _ ih | halts _ ih => exact ih
  | @turns b m log e s played ih =>
    cases b with
    | false => exact going (.turns played)
    | true =>
      rw [Engine.writes_stopped played.stopped_still, List.append_nil]
      exact ih

theorem tells (h : Played first opening stopped m log e s) {x : SelfMetrics}
    (known : first.metrics = some x) (apart : x.Apart)
    (samples : (opening.shared.store.value? x.samples).isSome)
    (position : (opening.shared.store.value? x.position).isSome) :
    x.Tells (opening.shared.store.count x.samples) log s.shared.store := by
  induction h with
  | opens =>
    obtain ⟨y, samples⟩ := Option.isSome_iff_exists.mp samples
    obtain ⟨z, position⟩ := Option.isSome_iff_exists.mp position
    exact ⟨(UInt64.add_zero _).symm, ⟨y, samples, fun none => absurd rfl none⟩,
      ⟨z, position, fun w last => by cases last⟩⟩
  | others played spared ih => exact ih.spared (spared x (played.kept.metrics.trans known))
  | halts _ ih => exact ih
  | @turns b m log e s played ih =>
    rcases e.turn_writes s with ⟨silent, -, store⟩ | ⟨due, row, -, -, -, written, play⟩
    · rw [silent, List.append_nil, store]
      exact ih
    · rw [written, play]
      have own : e.metrics = some x := played.kept.metrics.trans known
      simp only [Engine.play, Engine.applyRow, own]
      exact ih.plays apart rfl

theorem never_ready (h : Played first opening stopped m log e s) (opened : first.Opened start) :
    e.phase ≠ .ready := by
  induction h with
  | opens =>
    rw [opened.phase]
    exact fun same => by cases same
  | others _ _ ih | halts _ ih => exact ih
  | @turns b m log e s _ ih =>
    have turns := e.turn_turns s
    generalize e.turn s = after at turns
    obtain ⟨f, t⟩ := after
    cases turns with
    | idles => exact ih
    | ends => exact fun same => by cases same
    | @rewinds due playing =>
      change e.phase ≠ _
      rw [playing]
      exact fun same => by cases same
    | finishes => exact fun same => by cases same
    | plays => exact fun same => by cases same

/-! ### Virtual time -/

theorem playUntil_played (h : Played first opening stopped m log e s) (stop fuel : Nat) :
    ∃ j more, j ≤ fuel ∧ Played first opening stopped (m + j) (log ++ more)
        (playUntil stop fuel e s).1 (playUntil stop fuel e s).2 ∧
      (∀ w ∈ more, w.time ≤ stop) ∧
      (j < fuel → ∀ due, (playUntil stop fuel e s).1.due? = some due → stop < due) := by
  have rests {fuel : Nat} {e : Engine} {s : Scene} {m : Nat} {log : List Write}
      (h : Played first opening stopped m log e s)
      (late : 0 < fuel → ∀ due, e.due? = some due → stop < due) :
      ∃ j more, j ≤ fuel ∧ Played first opening stopped (m + j) (log ++ more) e s ∧
        (∀ w ∈ more, w.time ≤ stop) ∧ (j < fuel → ∀ due, e.due? = some due → stop < due) := by
    refine ⟨0, [], Nat.zero_le _, ?_, List.forall_mem_nil _, late⟩
    rw [List.append_nil]
    exact h
  induction fuel generalizing m log e s with
  | zero => exact rests h fun some => absurd some (Nat.lt_irrefl 0)
  | succ fuel ih =>
    cases time : e.due? with
    | none =>
      have idle : playUntil stop (fuel + 1) e s = (e, s) := by simp only [playUntil, time]
      rw [idle]
      exact rests h fun _ due some => by rw [time] at some; cases some
    | some due =>
      by_cases late : stop < due
      · have idle : playUntil stop (fuel + 1) e s = (e, s) := by
          simp only [playUntil, time, if_pos late]
        rw [idle]
        refine rests h fun _ due' some => ?_
        rw [time] at some
        cases some
        exact late
      · have taken : playUntil stop (fuel + 1) e s =
            playUntil stop fuel (e.turn s).1 (e.turn s).2 := by
          simp only [playUntil, time, if_neg late]
        rw [taken]
        obtain ⟨j, more, few, played, timely, done⟩ := ih h.turns
        refine ⟨j + 1, e.writes ++ more, Nat.succ_le_succ few, ?_, ?_, ?_⟩
        · rw [← List.append_assoc, show m + (j + 1) = m + 1 + j by omega]
          exact played
        · refine List.forall_mem_append.mpr ⟨?_, timely⟩
          rcases e.turn_writes s with ⟨silent, -, -⟩ | ⟨due', row, phase, -, -, written, -⟩
          · rw [silent]
            exact List.forall_mem_nil _
          · rw [written, List.forall_mem_singleton]
            rw [Engine.due?, phase] at time
            cases time
            exact Nat.not_lt.mp late
        · exact fun less => done (Nat.lt_of_succ_lt_succ less)

theorem turnBound_loops (h : Played first opening stopped m log e s) {elapsed j : Nat}
    (all : turnBound elapsed e ≤ j) :
    (elapsed + 1) * (first.dataset.rows.length + 1) ≤ j := by
  have total : e.total = first.dataset.rows.length := by rw [Engine.total, h.kept.dataset]
  refine le_trans (Nat.mul_le_mul_left (elapsed + 1) ?_) all
  omega

theorem paced_enough (h : Played first opening false m log e s) (opened : first.Opened start)
    (looping : first.settings.looping = true)
    (lasting : ∃ p < first.dataset.rows.length, 0 < first.sleep p)
    {clock elapsed j : Nat} {more : List Write} {f : Engine} {t : Scene}
    (early : ∀ due, e.due? = some due → clock ≤ due)
    (played : Played first opening false (m + j) more f t) (all : turnBound elapsed e ≤ j) :
    ∀ due, f.due? = some due → clock + elapsed < due := by
  intro due next
  obtain ⟨p, inside, long⟩ := lasting
  have now := (h.paced opened looping).phase
  have later := (played.paced opened looping).phase
  rw [Engine.due?, later] at next
  cases next
  have ready := early _ (by rw [Engine.due?, now])
  calc clock + elapsed
      < instant first.sleep first.dataset.rows.length start
          (strokes first.dataset.rows.length m) + (elapsed + 1) := by omega
    _ ≤ instant first.sleep first.dataset.rows.length start
          (strokes first.dataset.rows.length m + (elapsed + 1) * first.dataset.rows.length) :=
        instant_loops inside long _
    _ ≤ instant first.sleep first.dataset.rows.length start
          (strokes first.dataset.rows.length (m + j)) := by
        apply instant_mono
        rw [← strokes_loops]
        exact strokes_mono _ (Nat.add_le_add_left (h.turnBound_loops all) m)

theorem enough (h : Played first opening false m log e s) (started : first.Started start)
    {clock elapsed j : Nat} {more : List Write} {f : Engine} {t : Scene}
    (early : ∀ due, e.due? = some due → clock ≤ due)
    (lasting : first.settings.looping = true → ∃ p < first.dataset.rows.length,
      0 < rest first.dataset first.settings.lastInterval p)
    (played : Played first opening false (m + j) more f t) (all : turnBound elapsed e ≤ j) :
    ∀ due, f.due? = some due → clock + elapsed < due := by
  cases looping : first.settings.looping with
  | false =>
    intro due next
    have phase := (played.once started looping).phase
    have loops := h.turnBound_loops all
    have beyond : ¬ m + j ≤ first.dataset.rows.length := by
      have one := Nat.le_mul_of_pos_left (first.dataset.rows.length + 1) (Nat.succ_pos elapsed)
      rw [Nat.succ_eq_add_one] at one
      omega
    rw [if_neg beyond] at phase
    rw [Engine.due?, phase] at next
    cases next
  | true =>
    obtain ⟨p, inside, long⟩ := lasting looping
    rw [← Engine.sleep_rest started.real p] at long
    exact h.paced_enough started.opened looping ⟨p, inside, long⟩ early played all

theorem playUntil_stopped (still : e.running = false) (stop fuel : Nat) :
    ∀ due, (playUntil stop (fuel + 2) e s).1.due? = some due → stop < due := by
  intro due next
  obtain ⟨-, -, ended, -⟩ := e.turn_stopped still s
  cases time : e.due? with
  | none =>
    simp only [playUntil, time] at next
    cases next
  | some time' =>
    by_cases late : stop < time'
    · simp only [playUntil, time, if_pos late] at next
      cases next
      exact late
    · simp only [playUntil, time, if_neg late, ended] at next
      cases next

theorem advance_played (h : Played first opening stopped m log e s) (opened : first.Opened start)
    (clock elapsed : Nat) :
    ∃ j more, j ≤ turnBound elapsed e ∧
      Played first opening stopped (m + j) (log ++ more)
        (advance clock elapsed e s).1 (advance clock elapsed e s).2 ∧
      (∀ w ∈ more, w.time ≤ clock + elapsed) ∧
      (j < turnBound elapsed e → ∀ due, (advance clock elapsed e s).1.due? = some due →
        clock + elapsed < due) := by
  have awake : advance clock elapsed e s =
      playUntil (clock + elapsed) (turnBound elapsed e) e s := by
    rw [advance, awaken, if_neg (h.never_ready opened)]
  rw [awake]
  exact h.playUntil_played (clock + elapsed) (turnBound elapsed e)

/-- Virtual time goes on: all rows are written that come due by then, and no others. -/
theorem advances (h : Played first opening stopped m log e s) (started : first.Started start)
    {clock elapsed : Nat} (early : ∀ due, e.due? = some due → clock ≤ due)
    (lasting : first.settings.looping = true → ∃ p < first.dataset.rows.length,
      0 < rest first.dataset first.settings.lastInterval p) :
    ∃ j more, Played first opening stopped (m + j) (log ++ more)
        (advance clock elapsed e s).1 (advance clock elapsed e s).2 ∧
      (∀ w ∈ more, w.time ≤ clock + elapsed) ∧
      ∀ due, (advance clock elapsed e s).1.due? = some due → clock + elapsed < due := by
  obtain ⟨j, more, few, played, timely, done⟩ := h.advance_played started.opened clock elapsed
  refine ⟨j, more, played, timely, ?_⟩
  rcases Nat.lt_or_eq_of_le few with fewer | all
  · exact done fewer
  · cases stopped with
    | false => exact h.enough started early lasting played all.ge
    | true =>
      have two : ∃ fuel, turnBound elapsed e = fuel + 2 :=
        ⟨turnBound elapsed e - 2, by
          have := Nat.le_mul_of_pos_left (2 * e.total + 2) (Nat.succ_pos elapsed)
          rw [Nat.succ_eq_add_one] at this
          rw [turnBound]
          omega⟩
      obtain ⟨fuel, same⟩ := two
      rw [advance, awaken, if_neg (h.never_ready started.opened)]
      simp only [same]
      exact playUntil_stopped h.stopped_still _ _

end Played

end Replay

open Replay (Engine Scene Settings Played timetable moment rest strokes)

/-- **The replay keeps its time table.** Start it in real time, with the exporter's metrics or
without, and let it take its turns, whatever others do that leaves its own series alone. The rows
that it has written are the first of the time table, which has all rows in order, loop after loop,
each as long after the one before it as its pause is, up to the longest sleep; the metrics tell how
many rows there were and which was the last one; and its next turn writes the next one or none.
Unless it is stopped, the number of its turns tells its position: a replay that loops starts over
behind the last row, one that does not ends there. Once it is stopped, it writes no more and ends.
Virtual time takes all turns that are due, if every loop takes time. -/
theorem replay_keeps_timetable (bytes : List UInt8) (d : Dataset) (settings : Settings)
    (window : Nat) (metrics : Option SelfMetrics) (scene : Scene) (start : Nat)
    (read : Dataset.ofBytes? bytes = .ok d) (real : settings.Real d)
    (own : ∀ x, metrics = some x →
      x.Apart ∧ ∀ ref ∈ x.progress, (scene.shared.store.value? ref).isSome) :
    let opening := (Engine.create d settings window metrics).start start scene
    let n := d.rows.length
    let last := settings.lastInterval
    ∀ stopped m log e s, Played opening.1 opening.2 stopped m log e s →
      (e.position ≤ n ∧ log = timetable d last start log.length ∧
        ∀ x, metrics = some x →
          x.Tells (scene.shared.store.count x.samples) log s.shared.store) ∧
      ((e.writes = [] ∧ (e.turn s).2.windows = s.windows) ∨
        ∃ due row, e.writes = [⟨due, e.position⟩] ∧ e.due? = some due ∧
          d.rows[e.position]? = some row ∧ (e.turn s).1.position = e.position + 1 ∧
          (e.turn s).2.windows = s.windows.modify window
            (Engine.writeWords 0 (Engine.rowWords d.columns e.base row.cells))) ∧
      (stopped = false → settings.looping = true →
        e.position = m % (n + 1) ∧ log.length = strokes n m ∧ e.running = true ∧
          e.due? = some (moment d last start log.length)) ∧
      (stopped = false → settings.looping = false →
        e.position = min m n ∧ log.length = min m n ∧ e.running = decide (m ≤ n) ∧
          e.due? = if m ≤ n then some (moment d last start m) else none) ∧
      (stopped = true → e.running = false ∧ e.writes = [] ∧ (e.turn s).1.due? = none ∧
        (e.turn s).2 = s) ∧
      ∀ clock elapsed, (∀ due, e.due? = some due → clock ≤ due) →
        (settings.looping = true → ∃ p < n, 0 < rest d last p) →
        ∃ j more, Played opening.1 opening.2 stopped (m + j) (log ++ more)
            (Replay.advance clock elapsed e s).1 (Replay.advance clock elapsed e s).2 ∧
          (∀ w ∈ more, w.time ≤ clock + elapsed) ∧
          ∀ due, (Replay.advance clock elapsed e s).1.due? = some due → clock + elapsed < due := by
  intro opening n last stopped m log e s played
  have started : opening.1.Started start :=
    ⟨rfl, rfl, rfl, (Dataset.ofBytes?_tabular read).rows, real⟩
  have kept := played.kept
  have rows : e.dataset = d := kept.dataset
  obtain ⟨within, same⟩ := played.written started
  refine ⟨⟨within, same, ?_⟩, ?_, ?_, ?_, ?_, fun clock elapsed => played.advances started⟩
  · intro x known
    obtain ⟨apart, present⟩ := own x known
    exact played.tells known apart (present _ (by simp [SelfMetrics.progress]))
      (present _ (by simp [SelfMetrics.progress]))
  · rcases e.turn_writes s with ⟨silent, windows, -⟩ | ⟨due, row, phase, -, there, written, play⟩
    · exact .inl ⟨silent, windows⟩
    · refine .inr ⟨due, row, written, by rw [Engine.due?, phase], rows ▸ there, ?_, ?_⟩
      · rw [play]
        rfl
      · have own : e.window = window := kept.window
        rw [play, Engine.play, Engine.applyRow, rows, own]
        cases e.metrics <;> rfl
  · intro unstopped looping
    subst unstopped
    obtain ⟨position, running, phase, log⟩ := played.looped started looping
    have length := congrArg List.length log
    rw [Replay.timetable_length] at length
    refine ⟨position, length, running, ?_⟩
    rw [Engine.due?, phase, length]
    rfl
  · intro unstopped once
    subst unstopped
    obtain ⟨position, running, phase, log⟩ := played.once started once
    have length := congrArg List.length log
    rw [Replay.timetable_length] at length
    refine ⟨position, length, running, ?_⟩
    rw [Engine.due?, phase]
    by_cases within : m ≤ n
    · rw [if_pos within, if_pos (show m ≤ opening.1.dataset.rows.length from within)]
      rfl
    · rw [if_neg within, if_neg (show ¬ m ≤ opening.1.dataset.rows.length from within)]
  · intro halted
    subst halted
    have still := played.stopped_still
    obtain ⟨-, -, ended, scene⟩ := Engine.turn_stopped still s
    exact ⟨still, Engine.writes_stopped still, ended, scene⟩

def twoRows : List UInt8 := "timestamp_ms,a\n0,1\n5,2\n".toUTF8.toList

def twoRowsData : Dataset := ⟨[⟨"a", .gauge⟩], [⟨0, [some (.ofNat 1)]⟩, ⟨5, [some (.ofNat 2)]⟩]⟩

def realTime : Settings := ⟨.ofNat 1, true, 7, "replay", "dataset"⟩

theorem realTime_real : realTime.Real twoRowsData := by
  refine ⟨rfl, fun p => ?_⟩
  rcases p with _ | _ | p
  · decide
  · decide
  · exact show 7 < 2 ^ 53 by decide

def rehearsal : Shared := (SelfMetrics.register 0 (Site.empty 1 : Site StockDriver).shared).2

open SelfMetrics (only) in
def rehearsed : SelfMetrics := ⟨only 0, only 1, only 2, only 3, only 4⟩

theorem replay_keeps_timetable_rewound :
    let opening := (Engine.create twoRowsData realTime 0 (some rehearsed)).start 0
      ⟨[.ofSize .memory 8], rehearsal⟩
    ∃ log e s, Played opening.1 opening.2 false 3 log e s ∧ log = [⟨0, 0⟩, ⟨5, 1⟩] ∧
      e.position = 0 ∧ e.due? = some 12 ∧ s.shared.store.count rehearsed.samples = 2 ∧
      s.shared.store.value? rehearsed.position = some (.ofNat 2) := by
  intro opening
  have own : ∀ x, some rehearsed = some x →
      x.Apart ∧ ∀ ref ∈ x.progress, (rehearsal.store.value? ref).isSome := by
    rintro x ⟨⟩
    have done : SelfMetrics.register 0 (Site.empty 1 : Site StockDriver).shared =
        (.ok rehearsed, rehearsal) :=
      Prod.ext (toOption_some (by decide +kernel)) rfl
    exact SelfMetrics.register_ok done
  have read : Dataset.ofBytes? twoRows = .ok twoRowsData := toOption_some (by decide +kernel)
  have played : Played opening.1 opening.2 false 3 _ _ _ := .turns (.turns (.turns .opens))
  obtain ⟨⟨-, same, tells⟩, -, looped, -⟩ := replay_keeps_timetable twoRows twoRowsData realTime 0
    (some rehearsed) ⟨[.ofSize .memory 8], rehearsal⟩ 0 read realTime_real own false 3 _ _ _ played
  obtain ⟨position, length, -, due⟩ := looped rfl rfl
  have two := tells rehearsed rfl
  rw [length] at same due
  refine ⟨_, _, _, played, same, position, due, ?_, ?_⟩
  · rw [two.count, length]
    decide +kernel
  · obtain ⟨x, shown, value⟩ := two.position
    rw [shown, value ⟨5, 1⟩ (by rw [same]; rfl)]

def longPause : List UInt8 := "timestamp_ms,a\n0,1\n9007199254740991,2\n".toUTF8.toList

def longPauseData : Dataset :=
  ⟨[⟨"a", .gauge⟩], [⟨0, [some (.ofNat 1)]⟩, ⟨9007199254740991, [some (.ofNat 2)]⟩]⟩

/-- A pause of three hundred thousand years is over after thirty. -/
theorem long_pause_cut :
    let settings : Settings := ⟨.ofNat 1, false, 1000, "replay", "dataset"⟩
    longPauseData.Accepted longPause ∧ settings.Real longPauseData ∧
      longPauseData.pause 1000 0 = 9007199254740991 ∧
      (Replay.advance 0 946080000000 (.create longPauseData settings 0 none)
        ⟨[.ofSize .memory 8], (Site.empty 1 : Site StockDriver).shared⟩).1.position = 2 := by
  refine ⟨⟨toOption_some (by decide +kernel), by decide⟩, ⟨rfl, fun p => ?_⟩, by decide, ?_⟩
  · rcases p with _ | _ | p
    · decide
    · decide
    · exact show 1000 < 2 ^ 53 by decide
  · decide +kernel

end Telemetry
