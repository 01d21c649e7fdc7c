import Telemetry.Domain.Config

/-! The interval that is asked for and the one that a domain keeps. Whole milliseconds are kept, so
the two are less than a millisecond apart and stand in the same order, up to the greatest word. Only
what is shorter than a millisecond is not kept at all: nothing is left of it, and nothing stands for
the default. -/
namespace Telemetry

namespace Duration

def perMillisecond : Nat := 1000000

def length (d : Duration) : Nat := d.seconds.toNat * 1000000000 + d.nanoseconds

/-- So many milliseconds are less than one millisecond away from the duration. -/
def Near (d : Duration) (milliseconds : Nat) : Prop :=
  d.length < (milliseconds + 1) * perMillisecond ∧
    milliseconds * perMillisecond < d.length + perMillisecond

theorem milliseconds_eq (d : Duration) : d.milliseconds = d.length / perMillisecond := by
  have small := d.nanoseconds_lt
  simp only [milliseconds, length, perMillisecond]
  omega

end Duration

open Duration (perMillisecond)

def longestInterval : Nat := 2 ^ 64 - 1

namespace DomainConfig

variable {c : DomainConfig} {d : Duration}

theorem withInterval_toNat (c : DomainConfig) (d : Duration) :
    (c.withInterval d).interval.toNat = min (d.length / perMillisecond) longestInterval := by
  rw [withInterval, d.milliseconds_eq]
  exact UInt64.toNat_ofNat_of_lt' (Nat.lt_of_le_of_lt (Nat.min_le_right _ _) (by decide))

theorem effectiveInterval_short (c : DomainConfig) (short : d.length < perMillisecond) :
    (c.withInterval d).effectiveInterval = defaultInterval := by
  have none : (c.withInterval d).interval = 0 := by
    apply UInt64.toNat_inj.mp
    rw [withInterval_toNat, Nat.div_eq_of_lt short]
    rfl
  rw [effectiveInterval, if_pos none]

theorem effectiveInterval_long (c : DomainConfig) (long : perMillisecond ≤ d.length) :
    (c.withInterval d).effectiveInterval = min (d.length / perMillisecond) longestInterval := by
  have whole : 1 ≤ d.length / perMillisecond := (Nat.le_div_iff_mul_le (by decide)).mpr (by omega)
  have some : (c.withInterval d).interval ≠ 0 := by
    intro none
    have kept := withInterval_toNat c d
    rw [none] at kept
    have least : 1 ≤ min (d.length / perMillisecond) longestInterval :=
      Nat.le_min.mpr ⟨whole, by decide⟩
    rw [← kept] at least
    exact absurd least (by decide)
  rw [effectiveInterval, if_neg some, withInterval_toNat]

theorem effectiveInterval_near (c : DomainConfig) (long : perMillisecond ≤ d.length)
    (fits : d.length ≤ longestInterval * perMillisecond) :
    d.Near (c.withInterval d).effectiveInterval := by
  have word : d.length / perMillisecond ≤ longestInterval :=
    Nat.div_le_of_le_mul (by rwa [Nat.mul_comm])
  have below : d.length / perMillisecond * perMillisecond ≤ d.length := Nat.div_mul_le_self _ _
  have above : d.length < (d.length / perMillisecond + 1) * perMillisecond :=
    Nat.lt_mul_of_div_lt (Nat.lt_succ_self _) (by decide)
  rw [effectiveInterval_long c long, Nat.min_eq_left word]
  exact ⟨above, Nat.lt_of_le_of_lt below (Nat.lt_add_of_pos_right (by decide))⟩

theorem not_near_short (c : DomainConfig) (short : d.length < perMillisecond) :
    ¬ d.Near (c.withInterval d).effectiveInterval := by
  rintro ⟨-, close⟩
  rw [effectiveInterval_short c short] at close
  simp only [defaultInterval, perMillisecond] at close short
  omega

end DomainConfig

open DomainConfig

/-- **An interval is honoured to the millisecond**, unless it is shorter than one. What a domain
keeps of an interval that is not nothing, and of no more milliseconds than a word can hold, is less
than a millisecond away from it exactly if it is at least a millisecond long; of a shorter one it
keeps the default, and of a longer one the greatest word. Of two intervals the longer one is kept
longer, unless only the shorter one is below a millisecond and the longer one below the default. -/
theorem interval_honoured (c : DomainConfig) (d e : Duration) :
    let kept (x : Duration) := (c.withInterval x).effectiveInterval
    (0 < d.length → d.length ≤ longestInterval * perMillisecond →
      (d.Near (kept d) ↔ perMillisecond ≤ d.length)) ∧
    (d.length < perMillisecond → kept d = defaultInterval) ∧
    (longestInterval * perMillisecond < d.length → kept d = longestInterval) ∧
    (d.length ≤ e.length →
      (kept d ≤ kept e ↔ perMillisecond ≤ d.length ∨ e.length < perMillisecond ∨
        defaultInterval * perMillisecond ≤ e.length)) := by
  intro kept
  refine ⟨fun _ fits => ?_, effectiveInterval_short c, fun beyond => ?_, fun order => ?_⟩
  · constructor
    · intro near
      exact Nat.le_of_not_lt fun short => not_near_short c short near
    · exact fun long => effectiveInterval_near c long fits
  · have long : perMillisecond ≤ d.length :=
      Nat.le_trans (by decide) (Nat.le_of_lt beyond)
    have word : longestInterval ≤ d.length / perMillisecond :=
      (Nat.le_div_iff_mul_le (by decide)).mpr (Nat.le_of_lt beyond)
    exact (effectiveInterval_long c long).trans (Nat.min_eq_right word)
  · rcases Nat.lt_or_ge d.length perMillisecond with short | long
    · have first : kept d = defaultInterval := effectiveInterval_short c short
      rcases Nat.lt_or_ge e.length perMillisecond with brief | lasting
      · have second : kept e = defaultInterval := effectiveInterval_short c brief
        simp [first, second, brief]
      · have second : kept e = min (e.length / perMillisecond) longestInterval :=
          effectiveInterval_long c lasting
        have word : defaultInterval ≤ longestInterval := by decide
        rw [first, second, Nat.le_min, and_iff_left word, Nat.le_div_iff_mul_le (by decide)]
        simp [Nat.not_le.mpr short, Nat.not_lt.mpr lasting]
    · have first : kept d = min (d.length / perMillisecond) longestInterval :=
        effectiveInterval_long c long
      have second : kept e = min (e.length / perMillisecond) longestInterval :=
        effectiveInterval_long c (Nat.le_trans long order)
      have quotients := Nat.div_le_div_right (c := perMillisecond) order
      have ordered : kept d ≤ kept e := by omega
      exact iff_of_true ordered (.inl long)

/-- A microsecond short of two milliseconds, and two seconds. -/
theorem interval_honoured_fraction :
    let d : Duration := ⟨0, 1999000, by decide⟩
    let e : Duration := ⟨2, 0, by decide⟩
    let kept (x : Duration) := (DomainConfig.standard.withInterval x).effectiveInterval
    0 < d.length ∧ d.Near (kept d) ∧ kept d ≤ kept e := by
  intro d e kept
  obtain ⟨honoured, -, -, ordered⟩ := interval_honoured .standard d e
  exact ⟨by decide, (honoured (by decide) (by decide)).mpr (by decide),
    (ordered (by decide)).mpr (.inl (by decide))⟩

/-- Half a millisecond is kept as a second, which is longer than what is kept of a millisecond. -/
theorem half_millisecond_slow :
    let half : Duration := ⟨0, 500000, by decide⟩
    let whole : Duration := ⟨0, 1000000, by decide⟩
    let kept (x : Duration) := (DomainConfig.standard.withInterval x).effectiveInterval
    0 < half.length ∧ half.length ≤ whole.length ∧
      whole.length ≤ longestInterval * perMillisecond ∧
      kept half = 1000 ∧ ¬ half.Near (kept half) ∧ kept whole = 1 ∧ ¬ kept half ≤ kept whole := by
  refine ⟨by decide, by decide, by decide, by decide, ?_, by decide, by decide⟩
  rintro ⟨-, close⟩
  exact absurd close (by decide)

end Telemetry
