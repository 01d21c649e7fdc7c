import Mathlib.Algebra.Order.Group.Nat
import Telemetry.Proofs.Rounding
import Telemetry.Proofs.Turning

/-! The time table of a replay. Row after row it sleeps as long as was recorded, cut to the longest
sleep, and loop after loop it starts with the first row again; so the time at which a row comes is a
sum over the rows before it. A turn of the replay writes the next row of the time table or starts
over, unless the replay was stopped. -/
namespace Telemetry

open Register (Window)

/-- The recorded time from a row to the next one in milliseconds, 0 if that is earlier; the time
that was set behind the last row. -/
def Dataset.pause (d : Dataset) (last : UInt64) (p : Nat) : Nat :=
  match d.rows[p]?, d.rows[p + 1]? with
  | some row, some next => next.time.toNat - row.time.toNat
  | _, _ => last.toNat

namespace Replay

/-- Real time: a replay at speed one, with times that a binary64 word holds. -/
structure Settings.Real (settings : Settings) (d : Dataset) : Prop where
  speed : settings.speed = .ofNat 1
  pauses : ∀ p, d.pause settings.lastInterval p < 2 ^ 53

structure Write where
  time : Nat
  row : Nat

def rest (d : Dataset) (last : UInt64) (p : Nat) : Nat := min (d.pause last p) Engine.longestSleep

def moment (d : Dataset) (last : UInt64) (start : Nat) : Nat → Nat
  | 0 => start
  | j + 1 => moment d last start j + rest d last (j % d.rows.length)

/-- The first `j` rows, loop after loop. -/
def timetable (d : Dataset) (last : UInt64) (start j : Nat) : List Write :=
  (List.range j).map fun i => ⟨moment d last start i, i % d.rows.length⟩

/-- The rows that are written in `m` turns, if every loop over `n` rows takes another turn. -/
def strokes (n m : Nat) : Nat := m / (n + 1) * n + m % (n + 1)

def instant (nap : Nat → Nat) (n start : Nat) : Nat → Nat
  | 0 => start
  | j + 1 => instant nap n start j + nap (j % n)

/-- The first `j` rows of `n`, loop after loop, each with its nap behind it. -/
def schedule (nap : Nat → Nat) (n start j : Nat) : List Write :=
  (List.range j).map fun i => ⟨instant nap n start i, i % n⟩

variable {d : Dataset} {last : UInt64} {nap : Nat → Nat} {start j n m : Nat}

theorem moment_eq (d : Dataset) (last : UInt64) (start j : Nat) :
    moment d last start j = instant (rest d last) d.rows.length start j := by
  induction j with
  | zero => rfl
  | succ j ih => rw [moment, instant, ih]

theorem timetable_eq (d : Dataset) (last : UInt64) (start j : Nat) :
    timetable d last start j = schedule (rest d last) d.rows.length start j := by
  simp only [timetable, schedule, moment_eq]

theorem schedule_succ (nap : Nat → Nat) (n start j : Nat) :
    schedule nap n start (j + 1) = schedule nap n start j ++ [⟨instant nap n start j, j % n⟩] := by
  rw [schedule, List.range_succ, List.map_append]
  rfl

theorem schedule_length (nap : Nat → Nat) (n start j : Nat) :
    (schedule nap n start j).length = j := by
  rw [schedule, List.length_map, List.length_range]

theorem timetable_succ (d : Dataset) (last : UInt64) (start j : Nat) :
    timetable d last start (j + 1) =
      timetable d last start j ++ [⟨moment d last start j, j % d.rows.length⟩] := by
  rw [timetable, List.range_succ, List.map_append]
  rfl

theorem timetable_length (d : Dataset) (last : UInt64) (start j : Nat) :
    (timetable d last start j).length = j := by
  rw [timetable, List.length_map, List.length_range]

theorem strokes_next (within : m % (n + 1) < n) :
    strokes n (m + 1) = strokes n m + 1 ∧ (m + 1) % (n + 1) = m % (n + 1) + 1 ∧
      strokes n m % n = m % (n + 1) := by
  have whole := Nat.div_add_mod m (n + 1)
  obtain ⟨quotient, remainder⟩ := (Nat.div_mod_unique (Nat.succ_pos n)).mpr
    ⟨show m % (n + 1) + 1 + (n + 1) * (m / (n + 1)) = m + 1 by omega, by omega⟩
  refine ⟨?_, remainder, ?_⟩
  · rw [strokes, quotient, remainder, strokes]
    omega
  · rw [strokes, Nat.add_comm, Nat.add_mul_mod_self_right, Nat.mod_eq_of_lt within]

theorem strokes_over (behind : m % (n + 1) = n) :
    strokes n (m + 1) = strokes n m ∧ (m + 1) % (n + 1) = 0 := by
  have whole := Nat.div_add_mod m (n + 1)
  obtain ⟨quotient, remainder⟩ := (Nat.div_mod_unique (Nat.succ_pos n)).mpr
    ⟨show 0 + (n + 1) * (m / (n + 1) + 1) = m + 1 by rw [Nat.mul_succ]; omega, Nat.succ_pos n⟩
  refine ⟨?_, remainder⟩
  rw [strokes, quotient, remainder, strokes, behind, Nat.succ_mul]
  omega

theorem strokes_mono (n : Nat) : Monotone (strokes n) := by
  apply monotone_nat_of_le_succ
  intro m
  have least : m % (n + 1) < n + 1 := Nat.mod_lt m (Nat.succ_pos n)
  rcases Nat.lt_or_eq_of_le (Nat.le_of_lt_succ least) with within | behind
  · rw [(strokes_next within).1]
    exact Nat.le_succ _
  · rw [(strokes_over behind).1]

theorem strokes_loops (n m q : Nat) : strokes n (m + q * (n + 1)) = strokes n m + q * n := by
  rw [strokes, strokes, Nat.add_mul_div_right m q (Nat.succ_pos n), Nat.add_mul_mod_self_right,
    Nat.add_mul, Nat.succ_eq_add_one]
  omega

theorem instant_mono (nap : Nat → Nat) (n start : Nat) : Monotone (instant nap n start) := by
  apply monotone_nat_of_le_succ
  intro j
  exact Nat.le_add_right _ _

/-- A loop takes time if there is a nap behind any row of it. -/
theorem instant_loop {p : Nat} (inside : p < n) (long : 0 < nap p) :
    instant nap n start j + 1 ≤ instant nap n start (j + n) := by
  -- the row comes once among the next ones
  obtain ⟨i, below, same⟩ : ∃ i < n, (j + i) % n = p := by
    have small : j % n < n := Nat.mod_lt _ (Nat.zero_lt_of_lt inside)
    refine ⟨(p + (n - j % n)) % n, Nat.mod_lt _ (by omega), ?_⟩
    have split : j + (p + (n - j % n)) = p + n * (j / n + 1) := by
      have whole := Nat.div_add_mod j n
      rw [Nat.mul_succ]
      omega
    rw [Nat.add_mod_mod, split, Nat.add_mul_mod_self_left, Nat.mod_eq_of_lt inside]
  calc instant nap n start j + 1 ≤ instant nap n start (j + i) + nap p :=
        Nat.add_le_add (instant_mono nap n start (Nat.le_add_right _ _)) long
    _ = instant nap n start (j + i + 1) := by rw [instant, same]
    _ ≤ instant nap n start (j + n) := instant_mono nap n start (by omega)

theorem instant_loops {p : Nat} (inside : p < n) (long : 0 < nap p) (q : Nat) :
    instant nap n start j + q ≤ instant nap n start (j + q * n) := by
  induction q with
  | zero => rw [Nat.zero_mul]; exact Nat.le_refl _
  | succ q ih =>
    have more : instant nap n start (j + q * n) + 1 ≤ instant nap n start (j + q * n + n) :=
      instant_loop inside long
    rw [Nat.succ_mul, ← Nat.add_assoc j]
    omega

theorem instant_still (rows : 0 < n) (still : ∀ p < n, nap p = 0) (start j : Nat) :
    instant nap n start j = start := by
  induction j with
  | zero => rfl
  | succ j ih => rw [instant, ih, still _ (Nat.mod_lt j rows), Nat.add_zero]

namespace Engine

variable {e f : Engine} {s t : Scene}

theorem interval_pause (e : Engine) (p : Nat) :
    (e.interval p).toNat = e.dataset.pause e.settings.lastInterval p := by
  unfold interval Dataset.pause
  cases e.dataset.rows[p]? with
  | none => rfl
  | some row =>
    cases e.dataset.rows[p + 1]? with
    | none => rfl
    | some next =>
      by_cases back : next.time < row.time
      · simp only [if_pos back]
        exact (Nat.sub_eq_zero_of_le (UInt64.lt_iff_toNat_lt.mp back).le).symm
      · simp only [if_neg back]
        exact UInt64.toNat_sub_of_le _ _ (UInt64.le_iff_toNat_le.mpr
          (Nat.not_lt.mp fun less => back (UInt64.lt_iff_toNat_lt.mpr less)))

theorem Kept.sleep (h : e.Kept f) : f.sleep = e.sleep := by
  funext p
  rw [Engine.sleep, Engine.interval, h.dataset, h.settings, Engine.sleep, Engine.interval]

theorem sleep_rest (real : e.settings.Real e.dataset) (p : Nat) :
    e.sleep p = rest e.dataset e.settings.lastInterval p := by
  have exact : ((Binary64.ofWord (e.interval p)).div (.ofNat 1)).value? =
      some ((e.interval p).toNat : ℚ) := by
    rw [Binary64.value_div_one]
    apply Binary64.value_ofNat
    rw [interval_pause]
    exact real.pauses p
  have word : ((Binary64.ofWord (e.interval p)).div (.ofNat 1)).toWord.toNat =
      e.dataset.pause e.settings.lastInterval p := by
    rw [Binary64.toWord_eq exact, Nat.floor_natCast, interval_pause]
    exact Nat.min_eq_left (Nat.le_sub_one_of_lt ((real.pauses p).trans (by decide)))
  rw [sleep, real.speed, word, rest]

def writes (e : Engine) : List Write :=
  match e.due?, e.dataset.rows[e.position]? with
  | some due, some _ => if e.running then [⟨due, e.position⟩] else []
  | _, _ => []

theorem writes_stopped (stopped : e.running = false) : e.writes = [] := by
  unfold writes
  split
  · rw [if_neg (by simp [stopped])]
  · rfl

theorem turn_writes (e : Engine) (s : Scene) :
    (e.writes = [] ∧ (e.turn s).2.windows = s.windows ∧
      (e.turn s).2.shared.store = s.shared.store) ∨
    ∃ due row, e.phase = .playing due ∧ e.running = true ∧
      e.dataset.rows[e.position]? = some row ∧ e.writes = [⟨due, e.position⟩] ∧
      (e.turn s) = e.play due row s := by
  have turns := e.turn_turns s
  generalize whole : e.turn s = after at turns
  obtain ⟨f, t⟩ := after
  cases turns with
  | idles none => exact .inl ⟨by simp [writes, none], rfl, rfl⟩
  | ends _ stopped => exact .inl ⟨writes_stopped stopped, rfl, rfl⟩
  | rewinds _ _ behind => exact .inl ⟨by simp [writes, behind], rfl, rfl⟩
  | finishes _ _ behind => exact .inl ⟨by simp [writes, behind], rfl, rfl⟩
  | @plays due row playing running there =>
    refine .inr ⟨due, row, playing, running, there, ?_, rfl⟩
    simp [writes, due?, playing, there, running]

theorem turn_stopped (stopped : e.running = false) (s : Scene) :
    (e.turn s).1.running = false ∧ (e.turn s).1.position = e.position ∧
      (e.turn s).1.due? = none ∧ (e.turn s).2 = s := by
  have turns := e.turn_turns s
  generalize e.turn s = after at turns
  obtain ⟨f, t⟩ := after
  cases turns with
  | idles none => exact ⟨stopped, rfl, none, rfl⟩
  | ends => exact ⟨stopped, rfl, rfl, rfl⟩
  | rewinds _ running | finishes _ running | plays _ running =>
    rw [stopped] at running
    cases running

theorem turn_play {due : Nat} {row : DataRow} (playing : e.phase = .playing due)
    (running : e.running = true) (there : e.dataset.rows[e.position]? = some row) (s : Scene) :
    e.turn s = e.play due row s := by
  simp [turn, playing, running, there]

theorem turn_complete {due : Nat} (playing : e.phase = .playing due) (running : e.running = true)
    (behind : e.dataset.rows[e.position]? = none) (s : Scene) : e.turn s = e.complete s := by
  simp [turn, playing, running, behind]

theorem turn_ended (ended : e.phase = .ended) (s : Scene) : e.turn s = (e, s) := by
  simp [turn, ended]

end Engine

end Replay

end Telemetry
