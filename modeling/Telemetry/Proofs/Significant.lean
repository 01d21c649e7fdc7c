import Telemetry.Number.Layout
import Telemetry.Proofs.Rounding

/-! Significant digits. Rounding to so many digits gives the nearest number that they can write, and
where a carry adds a digit the next power of ten. Counting decimal places instead, down to the last
of these digits, gives the same digits: what is rounded twice is rounded alike. -/
namespace Telemetry

/-! ### The nearest whole number -/

theorem divNearest_cases (a b : Nat) :
    (2 * (a % b) < b ∧ divNearest a b = a / b) ∨
    (b < 2 * (a % b) ∧ divNearest a b = a / b + 1) ∨
    (2 * (a % b) = b ∧ divNearest a b = a / b + a / b % 2) := by
  simp only [divNearest]
  split
  · rename_i less
    exact .inl ⟨less, rfl⟩
  · split
    · rename_i more
      exact .inr (.inl ⟨more, rfl⟩)
    · exact .inr (.inr ⟨by omega, rfl⟩)

theorem divNearest_half {b : Nat} (a : Nat) (pos : 0 < b) :
    2 * |(a : ℚ) / b - divNearest a b| ≤ 1 ∧
      (2 * |(a : ℚ) / b - divNearest a b| = 1 → Even (divNearest a b)) := by
  have positive : (0 : ℚ) < b := by exact_mod_cast pos
  have split : (a : ℚ) / b = (a / b : Nat) + (a % b : Nat) / b := by
    rw [div_eq_iff positive.ne', add_mul, div_mul_cancel₀ _ positive.ne']
    exact_mod_cast (Nat.div_add_mod' a b).symm
  have least : (0 : ℚ) ≤ (a % b : Nat) / b := by positivity
  rcases divNearest_cases a b with ⟨rest, same⟩ | ⟨rest, same⟩ | ⟨rest, same⟩
  · have small : 2 * (((a % b : Nat) : ℚ) / b) < 1 := by
      rw [← mul_div_assoc, div_lt_one positive]
      exact_mod_cast rest
    rw [same, split, add_sub_cancel_left, abs_of_nonneg least]
    exact ⟨small.le, fun half => absurd half small.ne⟩
  · have large : 1 < 2 * (((a % b : Nat) : ℚ) / b) := by
      rw [← mul_div_assoc, one_lt_div positive]
      exact_mod_cast rest
    have below : ((a % b : Nat) : ℚ) / b < 1 := by
      rw [div_lt_one positive]
      exact_mod_cast Nat.mod_lt a pos
    have away : |(a : ℚ) / b - (a / b + 1 : Nat)| = 1 - (a % b : Nat) / b := by
      rw [split, abs_of_nonpos (by push_cast; linarith)]
      push_cast
      ring
    rw [same, away]
    exact ⟨by linarith, fun half => by linarith⟩
  · have half : 2 * (((a % b : Nat) : ℚ) / b) = 1 := by
      rw [← mul_div_assoc, div_eq_one_iff_eq positive.ne']
      exact_mod_cast rest
    have even : Even (a / b + a / b % 2) := by
      rw [Nat.even_iff]
      omega
    refine ⟨?_, fun _ => same ▸ even⟩
    rw [same, split]
    rcases Nat.mod_two_eq_zero_or_one (a / b) with zero | one
    · rw [zero, Nat.add_zero, add_sub_cancel_left, abs_of_nonneg least]
      exact half.le
    · rw [one, abs_of_nonpos (by push_cast; linarith)]
      push_cast
      linarith

theorem nearest_of_half {t : ℚ} {m : Nat} (half : 2 * |t - m| ≤ 1) (z : Int) :
    |t - m| ≤ |t - z| := by
  by_cases same : (m : Int) = z
  · rw [← same, Int.cast_natCast]
  · have apart : (1 : ℚ) ≤ |(m : ℚ) - z| := by
      have whole := Int.one_le_abs (sub_ne_zero.mpr same)
      exact_mod_cast whole
    have through := abs_sub_le (m : ℚ) t z
    rw [abs_sub_comm (m : ℚ) t] at through
    linarith

theorem divNearest_eq {a b m : Nat} (pos : 0 < b) (near : 2 * |(a : ℚ) / b - m| < 1) :
    divNearest a b = m := by
  by_contra differ
  have apart : (1 : ℚ) ≤ |(divNearest a b : ℚ) - m| := by
    have whole := Int.one_le_abs (sub_ne_zero.mpr (Nat.cast_injective.ne differ))
    exact_mod_cast whole
  have through := abs_sub_le (divNearest a b : ℚ) ((a : ℚ) / b) m
  rw [abs_sub_comm _ ((a : ℚ) / b)] at through
  have half := (divNearest_half a pos).1
  linarith

namespace Digits

variable {n d p : Nat}

/-! ### Powers of ten -/

theorem ten_zpow_pos (k : Int) : (0 : ℚ) < 10 ^ k := zpow_pos (by norm_num) k

theorem ten_zpow_add (j k : Int) : (10 : ℚ) ^ (j + k) = 10 ^ j * 10 ^ k :=
  zpow_add₀ (by norm_num) j k

theorem ten_zpow_le {j k : Int} (le : j ≤ k) : (10 : ℚ) ^ j ≤ 10 ^ k :=
  zpow_le_zpow_right₀ (by norm_num) le

theorem ten_zpow_lt {j k : Int} : (10 : ℚ) ^ j < 10 ^ k ↔ j < k :=
  zpow_lt_zpow_iff_right₀ (by norm_num)

theorem timesTen_eq (k : Int) (n : Nat) (right : 0 < d) :
    0 < (timesTen k n d).2 ∧
      ((timesTen k n d).1 : ℚ) / (timesTen k n d).2 = n / d * 10 ^ k := by
  unfold timesTen
  split
  · rename_i up
    obtain ⟨j, rfl⟩ := Int.eq_ofNat_of_zero_le up
    refine ⟨right, ?_⟩
    rw [Int.toNat_natCast, zpow_natCast]
    push_cast
    exact mul_div_right_comm _ _ _
  · rename_i down
    obtain ⟨j, same⟩ := Int.eq_ofNat_of_zero_le (show 0 ≤ -k by omega)
    obtain rfl : k = -(j : Int) := by omega
    refine ⟨by positivity, ?_⟩
    rw [neg_neg, Int.toNat_natCast, zpow_neg, zpow_natCast, ← div_eq_mul_inv, div_div]
    push_cast
    rfl

theorem digitCount_bounds (some : 0 < n) :
    10 ^ (digitCount n - 1) ≤ n ∧ n < 10 ^ digitCount n := by
  have pos : 0 < digitCount n := Nat.length_toDigits_pos
  constructor
  · by_contra less
    rcases Nat.eq_zero_or_pos (digitCount n - 1) with none | more
    · rw [none, Nat.pow_zero] at less
      omega
    · have fewer := (Nat.length_toDigits_le_iff (by decide) more).mpr (Nat.not_le.mp less)
      unfold digitCount numeral at fewer pos
      omega
  · exact (Nat.length_toDigits_le_iff (by decide) pos).mp le_rfl

theorem digitCount_powers (some : 0 < n) :
    (10 : ℚ) ^ ((digitCount n : Int) - 1) ≤ n ∧ (n : ℚ) < 10 ^ ((digitCount n : Int) - 1 + 1) := by
  obtain ⟨least, most⟩ := digitCount_bounds some
  have pos : 0 < digitCount n := Nat.length_toDigits_pos
  have exponent : (digitCount n : Int) - 1 = ((digitCount n - 1 : Nat) : Int) := by omega
  rw [sub_add_cancel, exponent, zpow_natCast, zpow_natCast]
  exact ⟨by exact_mod_cast least, by exact_mod_cast most⟩

theorem decimalExponent_spec (left : 0 < n) (right : 0 < d) :
    (10 : ℚ) ^ decimalExponent n d ≤ n / d ∧ (n : ℚ) / d < 10 ^ (decimalExponent n d + 1) := by
  obtain ⟨n_least, n_most⟩ := digitCount_powers left
  obtain ⟨d_least, d_most⟩ := digitCount_powers right
  have between := Binary64.quotient_between (by norm_num) n_least n_most d_least d_most
  rw [sub_sub_sub_cancel_right] at between
  obtain ⟨lower, upper⟩ := between
  have reached_iff (k : Int) : (timesTen (-k) n d).2 ≤ (timesTen (-k) n d).1 ↔
      (10 : ℚ) ^ k ≤ n / d := by
    obtain ⟨below, scaled⟩ := timesTen_eq (-k) n right
    have quotient : (timesTen (-k) n d).2 ≤ (timesTen (-k) n d).1 ↔
        (1 : ℚ) ≤ (timesTen (-k) n d).1 / (timesTen (-k) n d).2 := by
      rw [one_le_div (by exact_mod_cast below)]
      exact_mod_cast Iff.rfl
    rw [quotient, scaled, zpow_neg, ← div_eq_mul_inv, one_le_div (ten_zpow_pos k)]
  simp only [decimalExponent]
  split
  · rename_i reached
    exact ⟨(reached_iff _).mp reached, upper⟩
  · rename_i short
    refine ⟨lower, ?_⟩
    rw [sub_add_cancel]
    exact not_le.mp fun reached => short ((reached_iff _).mpr reached)

/-! ### Counting units -/

def unitsOfTen (k : Int) (n d : Nat) : Nat :=
  divNearest (timesTen k n d).1 (timesTen k n d).2

theorem unitsOfTen_half (k : Int) (n : Nat) (right : 0 < d) :
    2 * |(n : ℚ) / d * 10 ^ k - unitsOfTen k n d| ≤ 1 ∧
      (2 * |(n : ℚ) / d * 10 ^ k - unitsOfTen k n d| = 1 → Even (unitsOfTen k n d)) := by
  obtain ⟨pos, scaled⟩ := timesTen_eq k n right
  rw [← scaled]
  exact divNearest_half _ pos

theorem unitsOfTen_eq {k : Int} {m : Nat} (right : 0 < d)
    (near : 2 * |(n : ℚ) / d * 10 ^ k - m| < 1) : unitsOfTen k n d = m := by
  obtain ⟨pos, scaled⟩ := timesTen_eq k n right
  rw [← scaled] at near
  exact divNearest_eq pos near

theorem le_unitsOfTen {k : Int} {m : Nat} (right : 0 < d) (le : (m : ℚ) ≤ n / d * 10 ^ k) :
    m ≤ unitsOfTen k n d := by
  obtain ⟨pos, scaled⟩ := timesTen_eq k n right
  rw [← scaled, le_div_iff₀ (by exact_mod_cast pos)] at le
  rw [unitsOfTen, ← divNearest_mul m pos]
  exact divNearest_mono pos pos (Nat.mul_le_mul_right _ (by exact_mod_cast le))

theorem unitsOfTen_le {k : Int} {m : Nat} (right : 0 < d) (le : (n : ℚ) / d * 10 ^ k ≤ m) :
    unitsOfTen k n d ≤ m := by
  obtain ⟨pos, scaled⟩ := timesTen_eq k n right
  rw [← scaled, div_le_iff₀ (by exact_mod_cast pos)] at le
  rw [unitsOfTen, ← divNearest_mul m pos]
  exact divNearest_mono pos pos (Nat.mul_le_mul_right _ (by exact_mod_cast le))

theorem atPlaces_eq (places n d : Nat) : atPlaces places n d = unitsOfTen places n d := by
  rw [atPlaces, unitsOfTen, timesTen, if_pos (Int.natCast_nonneg places), Int.toNat_natCast]

/-! ### Rounding to digits -/

def worth (p : Nat) (s : Digits) : ℚ := s.digits * 10 ^ (s.leading + 1 - p)

/-- These are the `p` digits of `v`: no number of so many digits is nearer, and of two that are
equally near it is the one that is even where `v` has its last digit. -/
structure Rounds (p : Nat) (v : ℚ) (s : Digits) : Prop where
  least : 10 ^ (p - 1) ≤ s.digits
  most : s.digits < 10 ^ p
  nearest : ∀ (c : Nat) (k : Int), c < 10 ^ p → |v - s.worth p| ≤ |v - c * 10 ^ k|
  even : ∀ k : Int, 10 ^ (k + p - 1) ≤ v → v < 10 ^ (k + p) → 2 * |v - s.worth p| = 10 ^ k →
    ∃ c : Nat, Even c ∧ s.worth p = c * 10 ^ k

def count (p n d : Nat) : Nat := unitsOfTen (p - 1 - decimalExponent n d) n d

theorem significant_eq (p n d : Nat) :
    significant p n d =
      if count p n d = 10 ^ p then ⟨10 ^ (p - 1), decimalExponent n d + 1⟩
      else ⟨count p n d, decimalExponent n d⟩ := rfl

theorem count_bounds (left : 0 < n) (right : 0 < d) (some : 0 < p) :
    10 ^ (p - 1) ≤ count p n d ∧ count p n d ≤ 10 ^ p := by
  obtain ⟨lower, upper⟩ := decimalExponent_spec left right
  unfold count
  generalize decimalExponent n d = k at *
  have scale := ten_zpow_pos (p - 1 - k)
  constructor
  · apply le_unitsOfTen right
    calc ((10 ^ (p - 1) : Nat) : ℚ) = 10 ^ k * 10 ^ ((p : Int) - 1 - k) := by
          rw [← ten_zpow_add, Nat.cast_pow, Nat.cast_ofNat, ← zpow_natCast]
          congr 1
          omega
      _ ≤ n / d * 10 ^ ((p : Int) - 1 - k) := mul_le_mul_of_nonneg_right lower scale.le
  · apply unitsOfTen_le right
    calc (n : ℚ) / d * 10 ^ ((p : Int) - 1 - k)
        ≤ 10 ^ (k + 1) * 10 ^ ((p : Int) - 1 - k) := mul_le_mul_of_nonneg_right upper.le scale.le
      _ = (10 ^ p : Nat) := by
          rw [← ten_zpow_add, Nat.cast_pow, Nat.cast_ofNat, ← zpow_natCast]
          congr 1
          omega

/-- A carry changes the digits and not what they are worth. -/
theorem worth_significant (n d : Nat) (some : 0 < p) :
    (significant p n d).worth p = count p n d * 10 ^ (decimalExponent n d + 1 - p) := by
  rw [significant_eq]
  split
  · rename_i carried
    rw [carried, worth, Nat.cast_pow, Nat.cast_pow, Nat.cast_ofNat, ← zpow_natCast, ← zpow_natCast,
      ← ten_zpow_add, ← ten_zpow_add]
    congr 1
    dsimp only
    omega
  · rfl

theorem distance_units (v z : ℚ) (k : Int) :
    |v - z * 10 ^ k| = |v * 10 ^ (-k) - z| * 10 ^ k := by
  have pos := ten_zpow_pos k
  rw [← abs_of_pos pos, ← abs_mul, abs_of_pos pos, sub_mul, mul_assoc, ← ten_zpow_add,
    neg_add_cancel, zpow_zero, mul_one]

theorem significant_rounds (left : 0 < n) (right : 0 < d) (some : 0 < p) :
    Rounds p (n / d) (significant p n d) := by
  obtain ⟨lower, upper⟩ := decimalExponent_spec left right
  obtain ⟨least, most⟩ := count_bounds left right some
  obtain ⟨half, tie⟩ := unitsOfTen_half (p - 1 - decimalExponent n d) n right
  have worth := worth_significant n d some
  have digits := significant_eq p n d
  change 2 * |_ - (count p n d : ℚ)| ≤ 1 at half
  change 2 * |_ - (count p n d : ℚ)| = 1 → Even (count p n d) at tie
  have unit : (p : Int) - 1 - decimalExponent n d = -(decimalExponent n d + 1 - p) := by omega
  rw [unit] at half tie
  generalize count p n d = m at *
  generalize (n : ℚ) / d = v at *
  generalize significant p n d = s at *
  generalize decimalExponent n d = k at *
  have one := ten_zpow_pos (k + 1 - p)
  refine ⟨?_, ?_, ?_, ?_⟩
  · rw [digits]
    split
    · exact le_rfl
    · exact least
  · rw [digits]
    split
    · exact Nat.pow_lt_pow_right (by decide) (by omega)
    · rename_i inside
      exact Nat.lt_of_le_of_ne most inside
  · intro c j fits
    rw [worth, distance_units]
    rcases lt_or_ge j (k + 1 - p) with finer | coarser
    · -- not beyond the power of ten in front, which is a count of units too
      have start : ((10 ^ (p - 1) : Nat) : Int) * (10 : ℚ) ^ (k + 1 - (p : Int)) = 10 ^ k := by
        push_cast
        rw [← zpow_natCast, ← ten_zpow_add]
        congr 1
        omega
      have below : (c : ℚ) * 10 ^ j ≤ 10 ^ k := by
        calc (c : ℚ) * 10 ^ j ≤ 10 ^ (p : Int) * 10 ^ j := by
              rw [zpow_natCast]
              exact mul_le_mul_of_nonneg_right (by exact_mod_cast fits.le) (ten_zpow_pos j).le
          _ = 10 ^ (p + j : Int) := (ten_zpow_add _ _).symm
          _ ≤ 10 ^ k := ten_zpow_le (by omega)
      calc |v * 10 ^ (-(k + 1 - (p : Int))) - m| * 10 ^ (k + 1 - (p : Int))
          ≤ |v * 10 ^ (-(k + 1 - (p : Int))) - ((10 ^ (p - 1) : Nat) : Int)| *
              10 ^ (k + 1 - (p : Int)) :=
            mul_le_mul_of_nonneg_right (nearest_of_half half _) one.le
        _ = v - 10 ^ k := by
            rw [← distance_units, start, abs_of_nonneg (sub_nonneg.mpr lower)]
        _ ≤ v - c * 10 ^ j := by linarith
        _ ≤ |v - c * 10 ^ j| := le_abs_self _
    · obtain ⟨i, apart⟩ := Int.eq_ofNat_of_zero_le (Int.sub_nonneg.mpr coarser)
      have multiple : (c : ℚ) * 10 ^ j = ((c * 10 ^ i : Nat) : Int) * 10 ^ (k + 1 - (p : Int)) := by
        rw [show j = i + (k + 1 - p) by omega, ten_zpow_add, zpow_natCast]
        push_cast
        rw [mul_assoc]
      rw [multiple, distance_units]
      exact mul_le_mul_of_nonneg_right (nearest_of_half half _) one.le
  · intro j start stop between
    have same : j = k + 1 - p := by
      have first := ten_zpow_lt.mp (start.trans_lt upper)
      have second := ten_zpow_lt.mp (lower.trans_lt stop)
      omega
    subst same
    refine ⟨m, tie ?_, worth⟩
    rw [worth, distance_units, ← mul_assoc] at between
    exact mul_right_cancel₀ one.ne' (between.trans (one_mul _).symm)

theorem atPlaces_significant (n : Nat) (right : 0 < d) (some : 0 < p)
    (plain : (significant p n d).leading < p) :
    atPlaces (Layout.decimalPlaces p (significant p n d).leading) n d
      = (significant p n d).digits := by
  have half := (unitsOfTen_half (p - 1 - decimalExponent n d) n right).1
  change 2 * |_ - (count p n d : ℚ)| ≤ 1 at half
  have places : (Layout.decimalPlaces p (significant p n d).leading : Int)
      = p - 1 - (significant p n d).leading := by
    unfold Layout.decimalPlaces
    omega
  rw [atPlaces_eq, places]
  by_cases carried : count p n d = 10 ^ p
  · -- a tenth of what is near `10 ^ p` is ten times nearer to `10 ^ (p - 1)`
    rw [significant_eq, if_pos carried]
    dsimp only
    apply unitsOfTen_eq right
    have power : (10 : ℚ) ^ p = 10 ^ (p - 1) * 10 := by
      rw [← pow_succ, Nat.sub_add_cancel some]
    have scale : (10 : ℚ) ^ ((p : Int) - 1 - decimalExponent n d)
        = 10 ^ ((p : Int) - 1 - (decimalExponent n d + 1)) * 10 := by
      rw [← zpow_add_one₀ (by norm_num)]
      congr 1
      omega
    rw [carried, Nat.cast_pow, Nat.cast_ofNat, power, scale, ← mul_assoc, ← sub_mul, abs_mul,
      abs_of_pos (by norm_num : (0 : ℚ) < 10)] at half
    rw [Nat.cast_pow, Nat.cast_ofNat]
    linarith
  · rw [significant_eq, if_neg carried]
    rfl

end Digits

end Telemetry
