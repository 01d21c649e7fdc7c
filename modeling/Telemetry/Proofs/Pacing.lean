import Telemetry.Proofs.Played
import Telemetry.Proofs.Wholes

/-! Whether a replay that loops takes time. A pause is divided by the speed and cut to whole
milliseconds, so nothing is left of it exactly if it is less than the speed, and then there is no
nap behind its row. One nap in a loop is enough for the replay to keep time. If there is none, all
rows of all loops are written at the time of the first one, and the time never goes on. -/
namespace Telemetry

namespace Binary64

variable {x y : Binary64} {n d : Nat} {a b : ℚ}

/-! ### Quotients of one or more -/

theorem nearest_infinite (right : 0 < d) (wide : ¬ rounded n d < 2 ^ (1024 : Int)) :
    nearest false n d = infinity false := by
  rcases Nat.eq_zero_or_pos n with rfl | left
  · rw [rounded_zero right] at wide
    exact absurd (two_zpow_pos _) wide
  obtain ⟨under, -⟩ := quotient_bounds left right
  have most : units n d (unit n d) ≤ 2 ^ 53 := units_le right under.le
  rw [nearest_some false left]
  split
  · rfl
  · rename_i inside
    -- the greatest unit there is, and as many of it as there can be
    have high : (1024 : Int) ≤ unit n d + (53 : Nat) := by
      apply (zpow_le_zpow_iff_right₀ (by norm_num : (1 : ℚ) < 2)).mp
      apply (not_lt.mp wide).trans
      rw [two_zpow_units, rounded]
      exact mul_le_mul_of_nonneg_right (by exact_mod_cast most) (two_zpow_pos _).le
    have last : unit n d = 971 := by
      push_cast at high
      omega
    have all : 2 ^ 53 ≤ units n d (unit n d) := by
      have total := not_lt.mp wide
      have top : (1024 : Int) = unit n d + (53 : Nat) := by rw [last]; rfl
      rw [rounded, top, two_zpow_units] at total
      exact_mod_cast le_of_mul_le_mul_right total (two_zpow_pos _)
    have magnitude : infinityMagnitude ≤
        (unit n d + 1074).toNat * 2 ^ 52 + units n d (unit n d) := by
      rw [last]
      rw [last] at all
      exact le_trans (by decide) (Nat.add_le_add_left all _)
    rw [Nat.min_eq_right magnitude, infinity]

theorem nearest_toWord_pos (right : 0 < d) :
    0 < (nearest false n d).toWord.toNat ↔ 1 ≤ rounded n d := by
  by_cases fits : rounded n d < 2 ^ (1024 : Int)
  · rw [toWord_eq (value_nearest false right fits), withSign, if_neg Bool.false_ne_true,
      Nat.lt_min, and_iff_left (by decide), Nat.floor_pos]
  · rw [nearest_infinite right fits]
    have large : (1 : ℚ) ≤ 2 ^ (1024 : Int) := one_le_zpow₀ (by norm_num) (by decide)
    exact iff_of_true (by decide) (large.trans (not_lt.mp fits))

theorem one_le_rounded_iff (right : 0 < d) (few : min n d < 2 ^ 53) :
    1 ≤ rounded n d ↔ d ≤ n := by
  have positive : (0 : ℚ) < d := by exact_mod_cast right
  constructor
  · intro reached
    by_contra less
    have below : n < d := Nat.not_le.mp less
    rw [Nat.min_eq_left below.le] at few
    have ratio : ((2 ^ 53 - 1 : Nat) : ℚ) / (2 ^ 53 : Nat) =
        (2 ^ 53 - 1 : Nat) * 2 ^ (-53 : Int) := by norm_num
    have order : (n : ℚ) / d ≤ (2 ^ 53 - 1 : Nat) / (2 ^ 53 : Nat) := by
      rw [div_le_div_iff₀ positive (by norm_num)]
      have whole : n * 2 ^ 53 ≤ (2 ^ 53 - 1) * d := by omega
      exact_mod_cast whole
    have nearly := rounded_mono right (by decide) order
    rw [rounded_exact (by decide) (by decide) (by decide) ratio] at nearly
    norm_num at nearly
    linarith
  · intro reached
    have one : ((1 : Nat) : ℚ) / (1 : Nat) = (1 : Nat) * 2 ^ (0 : Int) := by norm_num
    have order : ((1 : Nat) : ℚ) / (1 : Nat) ≤ n / d := by
      rw [Nat.cast_one, div_one, one_le_div positive]
      exact_mod_cast reached
    have least := rounded_mono Nat.one_pos right order
    rwa [rounded_exact Nat.one_pos (by decide) (by decide) one, Nat.cast_one, div_one] at least

theorem datum_positive (known : x.value? = some b) (positive : 0 < b) :
    ∃ m e, x.datum = .finite false m e ∧ 0 < m ∧ b = m * 2 ^ e := by
  obtain ⟨negative, m, e, finite, rfl⟩ := datum_of_value known
  cases negative with
  | true =>
    have below : withSign true (m * 2 ^ e) ≤ 0 :=
      neg_nonpos.mpr (mul_nonneg (Nat.cast_nonneg m) (two_zpow_pos e).le)
    exact absurd positive (not_lt.mpr below)
  | false =>
    refine ⟨m, e, finite, Nat.pos_of_ne_zero ?_, rfl⟩
    rintro rfl
    simp [withSign] at positive

theorem toWord_zero (negative : Bool) : (zero negative).toWord.toNat = 0 := by
  have none : (zero negative).datum = .finite negative 0 (-1074) := by cases negative <;> decide
  have value : (zero negative).value? = some 0 := by
    rw [value_finite none, Nat.cast_zero, zero_mul, withSign, neg_zero, ite_self]
  rw [toWord_eq value, Nat.floor_zero]
  rfl

theorem datum_none (known : x.value? = some 0) : ∃ s e, x.datum = .finite s 0 e := by
  obtain ⟨negative, m, e, finite, same⟩ := datum_of_value known
  have nothing : (m : ℚ) * 2 ^ e = 0 := by
    cases negative with
    | true => exact neg_eq_zero.mp same.symm
    | false => exact same.symm
  have none := (mul_eq_zero.mp nothing).resolve_right (two_zpow_pos e).ne'
  obtain rfl : m = 0 := by exact_mod_cast none
  exact ⟨negative, e, finite⟩

theorem div_finite {m k : Nat} {e f : Int} (left : x.datum = .finite false m e)
    (right : y.datum = .finite false k f) (some : 0 < k) :
    ∃ n d, x.div y = nearest false n d ∧ 0 < d ∧ min n d < 2 ^ 53 ∧
      (d ≤ n ↔ (k : ℚ) * 2 ^ f ≤ m * 2 ^ e) := by
  have mBits := (datum_bounds left).1
  have kBits := (datum_bounds right).1
  have pos : (0 : ℚ) < 2 ^ f := two_zpow_pos f
  have pos' : (0 : ℚ) < 2 ^ e := two_zpow_pos e
  simp only [div, left, right, if_neg some.ne', bne_self_eq_false]
  split
  · rename_i up
    obtain ⟨j, apart⟩ := Int.eq_ofNat_of_zero_le up
    refine ⟨m * 2 ^ j, k, by rw [apart, Int.toNat_natCast], some,
      Nat.lt_of_le_of_lt (Nat.min_le_right _ _) kBits, ?_⟩
    rw [show e = f + j by omega, two_zpow_units, ← mul_assoc, mul_le_mul_iff_left₀ pos]
    exact_mod_cast Iff.rfl
  · rename_i down
    obtain ⟨j, apart⟩ := Int.eq_ofNat_of_zero_le (show 0 ≤ f - e by omega)
    refine ⟨m, k * 2 ^ j, by rw [apart, Int.toNat_natCast], by positivity,
      Nat.lt_of_le_of_lt (Nat.min_le_left _ _) mBits, ?_⟩
    rw [show f = e + j by omega, two_zpow_units, ← mul_assoc, mul_le_mul_iff_left₀ pos']
    exact_mod_cast Iff.rfl

theorem div_toWord_pos (first : x.value? = some b) (second : y.value? = some a) (nonneg : 0 ≤ b)
    (positive : 0 < a) : 0 < (x.div y).toWord.toNat ↔ a ≤ b := by
  obtain ⟨k, f, right, some, rfl⟩ := datum_positive second positive
  rcases nonneg.eq_or_lt with rfl | above
  · refine iff_of_false (Nat.not_lt.mpr (Nat.le_of_eq ?_)) (not_le.mpr positive)
    obtain ⟨s, e, left⟩ := datum_none first
    have divided : ∃ t, x.div y = zero t := by
      simp only [div, left, right, if_neg some.ne', Nat.zero_mul, nearest, if_true, ite_self]
      exact ⟨_, rfl⟩
    obtain ⟨t, divided⟩ := divided
    rw [divided, toWord_zero]
  · obtain ⟨m, e, left, -, rfl⟩ := datum_positive first above
    obtain ⟨n, d, divided, pos, few, order⟩ := div_finite left right some
    rw [divided, nearest_toWord_pos pos, one_le_rounded_iff pos few, order]

theorem le_rounded (known : x.value? = some a) (positive : 0 < a) (right : 0 < d)
    (le : a ≤ n / d) : a ≤ rounded n d := by
  obtain ⟨k, f, finite, -, rfl⟩ := datum_positive known positive
  obtain ⟨bits, least, -⟩ := datum_bounds finite
  obtain ⟨c, b, pos, same⟩ : ∃ c b : Nat, 0 < b ∧ (c : ℚ) / b = k * 2 ^ f := by
    rcases Int.le_total 0 f with up | down
    · obtain ⟨j, rfl⟩ := Int.eq_ofNat_of_zero_le up
      exact ⟨k * 2 ^ j, 1, Nat.one_pos, by push_cast; rw [div_one, zpow_natCast]⟩
    · obtain ⟨j, apart⟩ := Int.eq_ofNat_of_zero_le (Int.neg_nonneg.mpr down)
      obtain rfl : f = -(j : Int) := by omega
      exact ⟨k, 2 ^ j, by positivity, by push_cast; rw [zpow_neg, zpow_natCast, div_eq_mul_inv]⟩
  rw [← same] at le ⊢
  rw [← rounded_exact pos bits least same]
  exact rounded_mono pos right le

end Binary64

namespace Replay

variable {nap : Nat → Nat} {n start j : Nat}

theorem schedule_apart (lasting : ∃ p < n, 0 < nap p) (start j : Nat) :
    (schedule nap n start j).Pairwise fun x y => x.row = y.row → x.time + 1 ≤ y.time := by
  obtain ⟨p, inside, long⟩ := lasting
  rw [schedule, List.pairwise_map]
  refine List.pairwise_lt_range.imp ?_
  intro i k later same
  obtain ⟨q, apart⟩ := Nat.dvd_of_mod_eq_zero (Nat.sub_mod_eq_zero_of_mod_eq (Eq.symm same))
  have some : 0 < q := by
    rcases Nat.eq_zero_or_pos q with rfl | some
    · rw [Nat.mul_zero] at apart
      omega
    · exact some
  have place : k = i + q * n := by
    rw [Nat.mul_comm q n, ← apart]
    omega
  calc instant nap n start i + 1 ≤ instant nap n start i + q := Nat.add_le_add_left some _
    _ ≤ instant nap n start (i + q * n) := instant_loops inside long q
    _ = instant nap n start k := by rw [place]

theorem schedule_still (rows : 0 < n) (still : ∀ p < n, nap p = 0) (start j : Nat) :
    ∀ w ∈ schedule nap n start j, w.time = start := by
  intro w member
  obtain ⟨i, -, rfl⟩ := List.mem_map.mp member
  exact instant_still rows still start i

namespace Engine

variable {e : Engine} {a : ℚ} {p : Nat}

theorem interval_value (e : Engine) (p : Nat) : (Binary64.ofWord (e.interval p)).value? =
    some (Binary64.nearestWhole (e.dataset.pause e.settings.lastInterval p) : ℚ) := by
  have fits := Binary64.rounded_word_fits (e.interval p).toNat_lt.le
  rw [Binary64.ofWord, Binary64.ofNat, Binary64.value_nearest false Nat.one_pos fits,
    Binary64.rounded_whole, interval_pause]
  rfl

/-- There is a nap behind a row exactly if its pause, as a word holds it, is not less than the
speed. -/
theorem sleep_pos (speed : e.settings.speed.value? = some a) (positive : 0 < a) (p : Nat) :
    0 < e.sleep p ↔
      a ≤ Binary64.nearestWhole (e.dataset.pause e.settings.lastInterval p) := by
  rw [sleep, Nat.lt_min, and_iff_left (by decide),
    Binary64.div_toWord_pos (e.interval_value p) speed (Nat.cast_nonneg _) positive]

theorem sleep_pos_of_quotient (speed : e.settings.speed.value? = some a) (positive : 0 < a)
    (long : 1 ≤ ⌊(e.dataset.pause e.settings.lastInterval p : ℚ) / a⌋₊) : 0 < e.sleep p := by
  rw [sleep_pos speed positive, ← Binary64.rounded_whole]
  apply Binary64.le_rounded speed positive Nat.one_pos
  rw [Nat.one_le_floor_iff, one_le_div positive] at long
  rwa [Nat.cast_one, div_one]

theorem quotient_of_sleep_pos (speed : e.settings.speed.value? = some a) (positive : 0 < a)
    (short : e.dataset.pause e.settings.lastInterval p ≤ 2 ^ 53) (long : 0 < e.sleep p) :
    1 ≤ ⌊(e.dataset.pause e.settings.lastInterval p : ℚ) / a⌋₊ := by
  rw [sleep_pos speed positive, Binary64.nearestWhole_small short] at long
  rwa [Nat.one_le_floor_iff, one_le_div positive]

theorem sleep_infinite (speed : e.settings.speed.datum = .infinite false) (p : Nat) :
    e.sleep p = 0 := by
  obtain ⟨s, m, f, finite, -⟩ := Binary64.datum_of_value (e.interval_value p)
  obtain ⟨t, none⟩ : ∃ t, (Binary64.ofWord (e.interval p)).div e.settings.speed = .zero t := by
    simp only [Binary64.div, finite, speed]
    exact ⟨_, rfl⟩
  rw [sleep, none, Binary64.toWord_zero, Nat.zero_min]

end Engine

namespace Played

variable {first e : Engine} {opening s : Scene} {stopped : Bool} {m : Nat} {log : List Write}

/-- With a nap in every loop, virtual time takes all turns that are due. -/
theorem lasting_advances (h : Played first opening false m log e s) (opened : first.Opened start)
    (looping : first.settings.looping = true)
    (lasting : ∃ p < first.dataset.rows.length, 0 < first.sleep p) {clock : Nat}
    (early : ∀ due, e.due? = some due → clock ≤ due) (elapsed : Nat) :
    ∀ due, (advance clock elapsed e s).1.due? = some due → clock + elapsed < due := by
  obtain ⟨j, more, few, played, -, done⟩ := h.advance_played opened clock elapsed
  rcases Nat.lt_or_eq_of_le few with fewer | all
  · exact done fewer
  · exact h.paced_enough opened looping lasting early played all.ge

theorem still_due (h : Played first opening false m log e s) (opened : first.Opened start)
    (looping : first.settings.looping = true)
    (still : ∀ p < first.dataset.rows.length, first.sleep p = 0) : e.due? = some start := by
  have rows := List.length_pos_iff.mpr opened.rows
  rw [Engine.due?, (h.paced opened looping).phase, instant_still rows still]

end Played

end Replay

open Replay (Engine Scene Settings Played schedule instant strokes)

/-- **A replay that loops takes time exactly if some pause is not less than its speed.** Start it at
any speed, with the default interval of a second behind the last row, and let it take its turns,
whatever others do. It writes the rows in order, loop after loop, with a nap behind each. If there
is a nap behind any row, two writes of the same row are always at least a millisecond apart, and
virtual time takes all turns that are due. If there is none, everything is written at the time of
the start, and unless somebody stops it, it is still due then however many turns it takes. There is
a nap behind a row if a millisecond is left of its pause divided by the speed, and for pauses that a
word holds only then: so there always is one up to a thousandfold speed, and never one at infinite
speed. -/
theorem looping_takes_time (bytes : List UInt8) (d : Dataset) (settings : Settings)
    (window : Nat) (metrics : Option SelfMetrics) (scene : Scene) (start : Nat)
    (read : Dataset.ofBytes? bytes = .ok d) (looping : settings.looping = true)
    (default : settings.lastInterval = 1000) :
    let opening := (Engine.create d settings window metrics).start start scene
    let n := d.rows.length
    let nap := opening.1.sleep
    (∀ stopped m log e s, Played opening.1 opening.2 stopped m log e s →
      log = schedule nap n start log.length ∧
      (stopped = false → log.length = strokes n m ∧ e.running = true ∧
        e.due? = some (instant nap n start log.length)) ∧
      ((∃ p < n, 0 < nap p) →
        log.Pairwise (fun x y => x.row = y.row → x.time + 1 ≤ y.time) ∧
        (stopped = false → ∀ clock elapsed, (∀ due, e.due? = some due → clock ≤ due) →
          ∀ due, (Replay.advance clock elapsed e s).1.due? = some due → clock + elapsed < due)) ∧
      ((∀ p < n, nap p = 0) →
        (∀ w ∈ log, w.time = start) ∧
        (stopped = false → e.due? = some start ∧
          ∀ clock elapsed, (Replay.advance clock elapsed e s).1.due? = some start))) ∧
    (∀ a, settings.speed.value? = some a → 0 < a →
      (∀ p, (1 ≤ ⌊(d.pause 1000 p : ℚ) / a⌋₊ → 0 < nap p) ∧
        (d.pause 1000 p ≤ 2 ^ 53 → 0 < nap p → 1 ≤ ⌊(d.pause 1000 p : ℚ) / a⌋₊)) ∧
      (a ≤ 1000 → ∃ p < n, 0 < nap p)) ∧
    (settings.speed.datum = .infinite false → ∀ p, nap p = 0) := by
  intro opening n nap
  have some := (Dataset.ofBytes?_tabular read).rows
  have rows : 0 < n := List.length_pos_iff.mpr some
  have opened : opening.1.Opened start := ⟨rfl, rfl, rfl, some⟩
  have last : opening.1.settings.lastInterval = 1000 := default
  refine ⟨?_, ?_, fun infinite p => Engine.sleep_infinite infinite p⟩
  · intro stopped m log e s played
    have same := played.scheduled opened looping
    refine ⟨same, ?_, ?_, ?_⟩
    · rintro rfl
      obtain ⟨-, running, phase, log⟩ := played.paced opened looping
      have length := congrArg List.length log
      rw [Replay.schedule_length] at length
      refine ⟨length, running, ?_⟩
      rw [Engine.due?, phase, length]
      rfl
    · intro lasting
      refine ⟨?_, ?_⟩
      · rw [same]
        exact Replay.schedule_apart lasting start _
      · rintro rfl clock elapsed early
        exact played.lasting_advances opened looping lasting early elapsed
    · intro still
      refine ⟨?_, ?_⟩
      · rw [same]
        exact Replay.schedule_still rows still start _
      · rintro rfl
        refine ⟨played.still_due opened looping still, fun clock elapsed => ?_⟩
        obtain ⟨j, more, -, later, -⟩ := played.advance_played opened clock elapsed
        exact later.still_due opened looping still
  · intro a speed positive
    have quotient (p : Nat) : 1 ≤ ⌊(d.pause 1000 p : ℚ) / a⌋₊ → 0 < nap p := fun long =>
      Engine.sleep_pos_of_quotient speed positive (last ▸ long)
    refine ⟨fun p => ⟨quotient p, fun short long => ?_⟩, fun slow => ?_⟩
    · have left := Engine.quotient_of_sleep_pos (e := opening.1) (p := p) speed positive
      rw [last] at left
      exact left short long
    · refine ⟨n - 1, Nat.sub_lt rows Nat.one_pos, quotient _ ?_⟩
      have behind : d.rows[n - 1 + 1]? = none :=
        List.getElem?_eq_none (Nat.le_of_eq (Nat.sub_add_cancel rows).symm)
      have pause : d.pause 1000 (n - 1) = 1000 := by
        rw [Dataset.pause, behind]
        split <;> first | rfl | contradiction
      rw [pause, Nat.one_le_floor_iff, one_le_div positive]
      exact slow

def twofold : Settings := ⟨.ofNat 2, true, 1000, "replay", "dataset"⟩

theorem looping_takes_time_twofold :
    let opening := (Engine.create twoRowsData twofold 0 none).start 0
      ⟨[.ofSize .memory 8], rehearsal⟩
    ∃ log e s, Played opening.1 opening.2 false 4 log e s ∧
      log = schedule opening.1.sleep 2 0 3 ∧
      log.Pairwise (fun x y => x.row = y.row → x.time + 1 ≤ y.time) ∧
      e.due? = some (instant opening.1.sleep 2 0 3) ∧ instant opening.1.sleep 2 0 2 = 502 := by
  intro opening
  have read : Dataset.ofBytes? twoRows = .ok twoRowsData := toOption_some (by decide +kernel)
  have played : Played opening.1 opening.2 false 4 _ _ _ :=
    .turns (.turns (.turns (.turns .opens)))
  obtain ⟨runs, speeds, -⟩ := looping_takes_time twoRows twoRowsData twofold 0 none
    ⟨[.ofSize .memory 8], rehearsal⟩ 0 read rfl rfl
  obtain ⟨same, unstopped, lasting, -⟩ := runs false 4 _ _ _ played
  obtain ⟨length, -, due⟩ := unstopped rfl
  have two : twofold.speed.value? = some ((2 : Nat) : ℚ) :=
    Binary64.value_ofNat (n := 2) (by decide)
  have slow := (speeds (2 : Nat) two (by norm_num)).2 (by norm_num)
  have three : strokes twoRowsData.rows.length 4 = 3 := by decide
  rw [length, three] at same due
  exact ⟨_, _, _, played, same, (lasting slow).1, due, by decide +kernel⟩

def oneRow : List UInt8 := "timestamp_ms,a\n0,1\n".toUTF8.toList

def oneRowData : Dataset := ⟨[⟨"a", .gauge⟩], [⟨0, [some (.ofNat 1)]⟩]⟩

def twoThousandfold : Settings := ⟨.ofNat 2000, true, 1000, "replay", "dataset"⟩

/-- Nothing is left of a second then: the row is written twice at the start, and the time does not
go on. -/
theorem second_lost_in_speed :
    let opening := (Engine.create oneRowData twoThousandfold 0 none).start 0
      ⟨[.ofSize .memory 8], rehearsal⟩
    Dataset.ofBytes? oneRow = .ok oneRowData ∧
      twoThousandfold.speed.value? = some 2000 ∧
      (∃ log e s, Played opening.1 opening.2 false 3 log e s ∧ log = [⟨0, 0⟩, ⟨0, 0⟩]) ∧
      (Replay.advance 0 5 opening.1 opening.2).1.due? = some 0 := by
  intro opening
  refine ⟨toOption_some (by decide +kernel), ?_, ?_, ?_⟩
  · exact_mod_cast Binary64.value_ofNat (n := 2000) (by decide)
  · have played : Played opening.1 opening.2 false 3 _ _ _ := .turns (.turns (.turns .opens))
    refine ⟨_, _, _, played, ?_⟩
    have still : ∀ p < 1, opening.1.sleep p = 0 := by decide +kernel
    have log := (played.paced ⟨rfl, rfl, rfl, by decide⟩ rfl).log
    have one : opening.1.dataset.rows.length = 1 := rfl
    have none := Replay.instant_still Nat.one_pos still 0
    rw [log, one, show strokes 1 3 = 2 by decide]
    exact congrArg₂ (fun t u => [(⟨t, 0⟩ : Replay.Write), ⟨u, 0⟩]) (none 0) (none 1)
  · decide +kernel

end Telemetry
