import Mathlib.Algebra.Order.Field.Power
import Mathlib.Algebra.Order.Floor.Semifield
import Mathlib.Data.Rat.Floor
import Mathlib.Tactic.FieldSimp
import Mathlib.Tactic.Linarith
import Mathlib.Tactic.Positivity
import Mathlib.Tactic.Ring
import Telemetry.Number.Binary64

/-! What binary64 words are worth. Rounding a quotient of natural numbers depends on its value
alone, never reverses an order, and leaves what a word can hold as it is. So the word nearest to a
number is told by a rational number, and so is its quotient by one and its cut to a word. -/
namespace Telemetry

/-! ### The nearest whole number -/

theorem div_le_divNearest (n d : Nat) : n / d ≤ divNearest n d := by
  simp only [divNearest]
  split
  · exact Nat.le_refl _
  · split <;> omega

theorem divNearest_le (n d : Nat) : divNearest n d ≤ n / d + 1 := by
  simp only [divNearest]
  split
  · omega
  · split <;> omega

theorem divNearest_mul (k : Nat) {d : Nat} (pos : 0 < d) : divNearest (k * d) d = k := by
  simp [divNearest, Nat.mul_div_cancel k pos, pos]

theorem divNearest_mono {n d m c : Nat} (left : 0 < d) (right : 0 < c) (le : n * c ≤ m * d) :
    divNearest n d ≤ divNearest m c := by
  have quotients : n / d ≤ m / c := by
    apply (Nat.le_div_iff_mul_le right).mpr
    apply Nat.le_of_mul_le_mul_right _ left
    calc n / d * c * d = n / d * d * c := Nat.mul_right_comm _ _ _
      _ ≤ n * c := Nat.mul_le_mul_right c (Nat.div_mul_le_self n d)
      _ ≤ m * d := le
  rcases Nat.lt_or_eq_of_le quotients with lt | same
  · exact (divNearest_le n d).trans (lt.trans_le (div_le_divNearest m c))
  · -- what is left over has the order of the whole
    have rests : n % d * c ≤ m % c * d := by
      have first : n * c = (m / c) * d * c + n % d * c := by
        rw [← same, ← Nat.add_mul, Nat.div_add_mod']
      have second : m * d = (m / c) * d * c + m % c * d := by
        rw [Nat.mul_right_comm, ← Nat.add_mul, Nat.div_add_mod']
      omega
    simp only [divNearest, same]
    have bound (half : d ≤ 2 * (n % d)) : c ≤ 2 * (m % c) := by
      apply Nat.le_of_mul_le_mul_right _ left
      calc c * d ≤ 2 * (n % d) * c := by rw [Nat.mul_comm]; exact Nat.mul_le_mul_right c half
        _ = 2 * (n % d * c) := Nat.mul_assoc _ _ _
        _ ≤ 2 * (m % c * d) := Nat.mul_le_mul_left 2 rests
        _ = 2 * (m % c) * d := (Nat.mul_assoc _ _ _).symm
    have strict (half : d < 2 * (n % d)) : c < 2 * (m % c) := by
      apply Nat.lt_of_mul_lt_mul_right
      calc c * d < 2 * (n % d) * c := by
            rw [Nat.mul_comm]
            exact Nat.mul_lt_mul_of_pos_right half right
        _ = 2 * (n % d * c) := Nat.mul_assoc _ _ _
        _ ≤ 2 * (m % c * d) := Nat.mul_le_mul_left 2 rests
        _ = 2 * (m % c) * d := (Nat.mul_assoc _ _ _).symm
    split
    · split
      · exact Nat.le_refl _
      · split <;> omega
    · rename_i much
      have half := bound (Nat.not_lt.mp much)
      rw [if_neg (Nat.not_lt.mpr half)]
      split
      · rename_i most
        rw [if_pos (strict most)]
      · split <;> omega

/-! ### Values -/

namespace Binary64

def withSign (negative : Bool) (a : ℚ) : ℚ := if negative then -a else a

/-- The number that a finite word stands for. -/
def value? (x : Binary64) : Option ℚ :=
  match x.datum with
  | .finite negative m e => some (withSign negative (m * 2 ^ e))
  | .notANumber | .infinite _ => none

variable {x : Binary64} {negative : Bool} {n d m c k : Nat} {e u : Int}

theorem value_finite (known : x.datum = .finite negative m e) :
    x.value? = some (withSign negative (m * 2 ^ e)) := by
  rw [value?, known]

theorem datum_of_value {a : ℚ} (known : x.value? = some a) :
    ∃ negative m e, x.datum = .finite negative m e ∧ a = withSign negative (m * 2 ^ e) := by
  unfold value? at known
  cases finite : x.datum with
  | notANumber | infinite => simp [finite] at known
  | finite negative m e =>
    simp only [finite, Option.some.injEq] at known
    exact ⟨negative, m, e, rfl, known.symm⟩

theorem datum_bounds (finite : x.datum = .finite negative m e) :
    m < 2 ^ 53 ∧ -1074 ≤ e ∧ e ≤ 971 := by
  unfold datum at finite
  have fraction : x.bits.toNat % 2 ^ 52 < 2 ^ 52 := Nat.mod_lt _ (by decide)
  have field : x.bits.toNat / 2 ^ 52 % 2 ^ 11 < 2 ^ 11 := Nat.mod_lt _ (by decide)
  simp only at finite
  split at finite
  · split at finite <;> cases finite
  · split at finite
    · cases finite
      omega
    · cases finite
      omega

theorem datum_pack (negative : Bool) (below : m < infinityMagnitude) :
    (pack negative m).datum =
      if m / 2 ^ 52 = 0 then .finite negative m (-1074)
      else .finite negative (2 ^ 52 + m % 2 ^ 52) ((m / 2 ^ 52 : Nat) - 1075) := by
  have bound : m < 2047 * 2 ^ 52 := below
  have bits : (pack negative m).bits.toNat = (if negative then 2 ^ 63 else 0) + m := by
    apply UInt64.toNat_ofNat_of_lt'
    change _ < 2 ^ 64
    split <;> omega
  have sign : ((pack negative m).bits.toNat / 2 ^ 63 == 1) = negative := by
    rw [bits]
    cases negative <;> simp <;> omega
  have field : (pack negative m).bits.toNat / 2 ^ 52 % 2 ^ 11 = m / 2 ^ 52 := by
    rw [bits]
    split <;> omega
  have fraction : (pack negative m).bits.toNat % 2 ^ 52 = m % 2 ^ 52 := by
    rw [bits]
    split <;> omega
  simp only [datum, sign, field, fraction]
  rw [if_neg (by omega)]
  split
  · rw [Nat.mod_eq_of_lt (by omega)]
  · rfl

/-- Counting units from the word of a binade, also where the count carries into the next one. -/
theorem value_pack (negative : Bool) (whole : u = -1074 ∨ 2 ^ 52 ≤ k) (least : -1074 ≤ u)
    (most : k ≤ 2 ^ 53) (below : (u + 1074).toNat * 2 ^ 52 + k < infinityMagnitude) :
    (pack negative ((u + 1074).toNat * 2 ^ 52 + k)).value? =
      some (withSign negative (k * 2 ^ u)) := by
  obtain ⟨place, rfl⟩ : ∃ place : Nat, u = place - 1074 := ⟨(u + 1074).toNat, by omega⟩
  have back : ((place : Int) - 1074 + 1074).toNat = place := by omega
  rw [back] at below ⊢
  rw [value?, datum_pack negative below]
  rcases Nat.lt_or_ge k (2 ^ 52) with small | normal
  · have start : place = 0 := by omega
    subst start
    have field : (0 * 2 ^ 52 + k) / 2 ^ 52 = 0 := by omega
    rw [if_pos field]
    simp
  · rcases Nat.lt_or_eq_of_le most with inside | carried
    · have field : (place * 2 ^ 52 + k) / 2 ^ 52 = place + 1 := by omega
      have fraction : 2 ^ 52 + (place * 2 ^ 52 + k) % 2 ^ 52 = k := by omega
      rw [field, fraction, if_neg (Nat.succ_ne_zero place)]
      have shifted : ((place + 1 : Nat) : Int) - 1075 = place - 1074 := by omega
      rw [shifted]
    · have field : (place * 2 ^ 52 + k) / 2 ^ 52 = place + 2 := by omega
      have fraction : 2 ^ 52 + (place * 2 ^ 52 + k) % 2 ^ 52 = 2 ^ 52 := by omega
      rw [field, fraction, if_neg (Nat.succ_ne_zero _)]
      have shifted : ((place + 2 : Nat) : Int) - 1075 = ((place : Int) - 1074) + 1 := by omega
      have two : (2 : ℚ) ≠ 0 := by norm_num
      simp only [shifted, carried, zpow_add_one₀ two]
      congr 2
      push_cast
      ring

/-! ### Rounding a quotient -/

def unit (n d : Nat) : Int := max (floorLog2 n d - 52) (-1074)

/-- `n / d` in units of `2 ^ u`, rounded. -/
def units (n d : Nat) (u : Int) : Nat :=
  if 0 ≤ u then divNearest n (d * 2 ^ u.toNat) else divNearest (n * 2 ^ (-u).toNat) d

/-- What `n / d` is rounded to. -/
def rounded (n d : Nat) : ℚ := units n d (unit n d) * 2 ^ unit n d

theorem two_zpow_pos (u : Int) : (0 : ℚ) < 2 ^ u := zpow_pos (by norm_num) u

theorem quotient_between {base n d : ℚ} {p q : Int} (positive : 0 < base) (n_least : base ^ p ≤ n)
    (n_most : n < base ^ (p + 1)) (d_least : base ^ q ≤ d) (d_most : d < base ^ (q + 1)) :
    base ^ (p - q - 1) ≤ n / d ∧ n / d < base ^ (p - q + 1) := by
  have apart : base ≠ 0 := positive.ne'
  have below : 0 < d := (zpow_pos positive q).trans_le d_least
  constructor
  · rw [le_div_iff₀ below]
    calc base ^ (p - q - 1) * d ≤ base ^ (p - q - 1) * base ^ (q + 1) :=
          mul_le_mul_of_nonneg_left d_most.le (zpow_pos positive _).le
      _ = base ^ p := by
        rw [← zpow_add₀ apart]
        congr 1
        ring
      _ ≤ n := n_least
  · rw [div_lt_iff₀ below]
    calc n < base ^ (p + 1) := n_most
      _ = base ^ (p - q + 1) * base ^ q := by
        rw [← zpow_add₀ apart]
        congr 1
        ring
      _ ≤ base ^ (p - q + 1) * d := mul_le_mul_of_nonneg_left d_least (zpow_pos positive _).le

theorem floorLog2_spec (left : 0 < n) (right : 0 < d) :
    (2 : ℚ) ^ floorLog2 n d ≤ n / d ∧ (n : ℚ) / d < 2 ^ (floorLog2 n d + 1) := by
  have pos : (0 : ℚ) < d := by exact_mod_cast right
  have reaches_iff (k : Int) : reaches n d k = true ↔ (2 : ℚ) ^ k ≤ n / d := by
    rw [le_div_iff₀ pos]
    unfold reaches
    split
    · rename_i up
      obtain ⟨j, rfl⟩ := Int.eq_ofNat_of_zero_le up
      rw [decide_eq_true_iff, Int.toNat_natCast, zpow_natCast, mul_comm]
      exact_mod_cast Iff.rfl
    · rename_i down
      obtain ⟨j, same⟩ := Int.eq_ofNat_of_zero_le (show 0 ≤ -k by omega)
      obtain rfl : k = -(j : Int) := by omega
      rw [decide_eq_true_iff, neg_neg, Int.toNat_natCast, zpow_neg, zpow_natCast,
        inv_mul_le_iff₀ (by positivity), mul_comm]
      exact_mod_cast Iff.rfl
  obtain ⟨lower, upper⟩ : (2 : ℚ) ^ ((n.log2 : Int) - d.log2 - 1) ≤ n / d ∧
      (n : ℚ) / d < 2 ^ ((n.log2 : Int) - d.log2 + 1) :=
    quotient_between (by norm_num) (by exact_mod_cast Nat.log2_self_le left.ne')
      (by exact_mod_cast Nat.lt_log2_self) (by exact_mod_cast Nat.log2_self_le right.ne')
      (by exact_mod_cast Nat.lt_log2_self)
  simp only [floorLog2]
  split
  · rename_i reached
    exact ⟨(reaches_iff _).mp reached, upper⟩
  · rename_i short
    refine ⟨lower, ?_⟩
    rw [sub_add_cancel]
    exact not_le.mp fun reached => short ((reaches_iff _).mpr reached)

theorem unit_least (n d : Nat) : -1074 ≤ unit n d := Int.le_max_right _ _

theorem quotient_bounds (left : 0 < n) (right : 0 < d) :
    (n : ℚ) / d < 2 ^ (unit n d + 53) ∧
      (unit n d = -1074 ∨ (2 : ℚ) ^ (unit n d + 52) ≤ n / d) := by
  obtain ⟨lower, upper⟩ := floorLog2_spec left right
  constructor
  · apply upper.trans_le
    apply zpow_le_zpow_right₀ (by norm_num)
    unfold unit
    omega
  · by_cases least : unit n d = -1074
    · exact .inl least
    · have same : unit n d + 52 = floorLog2 n d := by
        unfold unit at least ⊢
        omega
      rw [same]
      exact .inr lower

theorem units_eq (n : Nat) (right : 0 < d) (u : Int) :
    ∃ a b : Nat, 0 < b ∧ units n d u = divNearest a b ∧ (a : ℚ) / b = n / d / 2 ^ u := by
  have pos : (d : ℚ) ≠ 0 := by exact_mod_cast right.ne'
  unfold units
  split
  · rename_i up
    obtain ⟨j, rfl⟩ := Int.eq_ofNat_of_zero_le up
    refine ⟨n, d * 2 ^ j, by positivity, rfl, ?_⟩
    push_cast
    rw [zpow_natCast, div_div]
  · rename_i down
    obtain ⟨j, same⟩ := Int.eq_ofNat_of_zero_le (show 0 ≤ -u by omega)
    obtain rfl : u = -(j : Int) := by omega
    refine ⟨n * 2 ^ j, d, right, by rw [neg_neg, Int.toNat_natCast], ?_⟩
    push_cast
    rw [zpow_neg, zpow_natCast, div_inv_eq_mul, mul_div_right_comm]

theorem units_mono (left : 0 < d) (right : 0 < c) (le : (n : ℚ) / d ≤ m / c) (u : Int) :
    units n d u ≤ units m c u := by
  obtain ⟨a, b, first, units, same⟩ := units_eq n left u
  obtain ⟨a', b', second, units', same'⟩ := units_eq m right u
  rw [units, units']
  apply divNearest_mono first second
  have scaled : (a : ℚ) / b ≤ a' / b' := by
    rw [same, same']
    exact div_le_div_of_nonneg_right le (two_zpow_pos u).le
  rw [div_le_div_iff₀ (by exact_mod_cast first) (by exact_mod_cast second)] at scaled
  exact_mod_cast scaled

theorem units_exact (right : 0 < d) (same : (n : ℚ) / d = k * 2 ^ u) : units n d u = k := by
  obtain ⟨a, b, pos, units, quotient⟩ := units_eq n right u
  rw [units]
  have whole : a = k * b := by
    rw [same, mul_div_cancel_right₀ _ (two_zpow_pos u).ne',
      div_eq_iff (by exact_mod_cast pos.ne')] at quotient
    exact_mod_cast quotient
  rw [whole, divNearest_mul k pos]

theorem two_zpow_units (u : Int) (j : Nat) : (2 : ℚ) ^ (u + j) = (2 ^ j : Nat) * 2 ^ u := by
  rw [zpow_add₀ (by norm_num), zpow_natCast, mul_comm]
  push_cast
  rfl

theorem units_le (right : 0 < d) {j : Nat} (le : (n : ℚ) / d ≤ 2 ^ (u + j)) :
    units n d u ≤ 2 ^ j := by
  obtain ⟨a, b, pos, units, quotient⟩ := units_eq n right u
  rw [units, ← divNearest_mul (2 ^ j) pos]
  apply divNearest_mono pos pos
  apply Nat.mul_le_mul_right
  rw [two_zpow_units, ← div_le_iff₀ (two_zpow_pos u), ← quotient,
    div_le_iff₀ (by exact_mod_cast pos)] at le
  exact_mod_cast le

theorem le_units (right : 0 < d) {j : Nat} (le : (2 : ℚ) ^ (u + j) ≤ n / d) :
    2 ^ j ≤ units n d u := by
  obtain ⟨a, b, pos, units, quotient⟩ := units_eq n right u
  rw [units, ← divNearest_mul (2 ^ j) pos]
  apply divNearest_mono pos pos
  apply Nat.mul_le_mul_right
  rw [two_zpow_units, ← le_div_iff₀ (two_zpow_pos u), ← quotient,
    le_div_iff₀ (by exact_mod_cast pos)] at le
  exact_mod_cast le

theorem rounded_zero (right : 0 < d) : rounded 0 d = 0 := by
  have none : units 0 d (unit 0 d) = 0 := units_exact right (by simp)
  rw [rounded, none, Nat.cast_zero, zero_mul]

theorem rounded_nonneg (n d : Nat) : 0 ≤ rounded n d :=
  mul_nonneg (Nat.cast_nonneg _) (two_zpow_pos _).le

theorem rounded_mono (left : 0 < d) (right : 0 < c) (le : (n : ℚ) / d ≤ m / c) :
    rounded n d ≤ rounded m c := by
  rcases Nat.eq_zero_or_pos n with rfl | first
  · rw [rounded_zero left]
    exact rounded_nonneg m c
  have above : (0 : ℚ) < m / c := (by positivity : (0 : ℚ) < n / d).trans_le le
  have second : 0 < m := by
    rcases Nat.eq_zero_or_pos m with rfl | pos
    · simp at above
    · exact pos
  obtain ⟨under, -⟩ := quotient_bounds first left
  obtain ⟨-, full⟩ := quotient_bounds second right
  have most : units n d (unit n d) ≤ 2 ^ 53 := units_le left under.le
  rcases lt_trichotomy (unit n d) (unit m c) with finer | same | coarser
  · -- the greater one has at least as many of its own, coarser units
    have normal := full.resolve_left (by have := unit_least n d; omega)
    have many : 2 ^ 52 ≤ units m c (unit m c) := le_units right normal
    calc rounded n d ≤ (2 ^ 53 : Nat) * 2 ^ unit n d :=
          mul_le_mul_of_nonneg_right (by exact_mod_cast most) (two_zpow_pos _).le
      _ = 2 ^ (unit n d + (53 : Nat)) := (two_zpow_units _ _).symm
      _ ≤ 2 ^ (unit m c + (52 : Nat)) := zpow_le_zpow_right₀ (by norm_num) (by push_cast; omega)
      _ = (2 ^ 52 : Nat) * 2 ^ unit m c := two_zpow_units _ _
      _ ≤ rounded m c :=
          mul_le_mul_of_nonneg_right (by exact_mod_cast many) (two_zpow_pos _).le
  · rw [rounded, rounded, ← same]
    have counts := units_mono left right le (unit n d)
    exact mul_le_mul_of_nonneg_right (by exact_mod_cast counts) (two_zpow_pos _).le
  · obtain ⟨under', -⟩ := quotient_bounds second right
    obtain ⟨-, full'⟩ := quotient_bounds first left
    have normal := full'.resolve_left (by have := unit_least m c; omega)
    have orders := (normal.trans le).trans_lt under'
    have exponents := (zpow_lt_zpow_iff_right₀ (by norm_num : (1 : ℚ) < 2)).mp orders
    exact absurd exponents (by omega)

theorem rounded_order (le : n ≤ m) : rounded n 1 ≤ rounded m 1 := by
  apply rounded_mono Nat.one_pos Nat.one_pos
  rw [Nat.cast_one, div_one, div_one]
  exact_mod_cast le

/-- What has fifty-three bits, none of them below the least unit, is not rounded. -/
theorem rounded_exact (right : 0 < d) (bits : k < 2 ^ 53) (least : -1074 ≤ e)
    (same : (n : ℚ) / d = k * 2 ^ e) : rounded n d = n / d := by
  rcases Nat.eq_zero_or_pos n with rfl | left
  · rw [rounded_zero right, Nat.cast_zero, zero_div]
  have coarse : unit n d ≤ e := by
    obtain ⟨lower, -⟩ := floorLog2_spec left right
    have below : (n : ℚ) / d < 2 ^ (e + (53 : Nat)) := by
      rw [same, two_zpow_units]
      exact mul_lt_mul_of_pos_right (by exact_mod_cast bits) (two_zpow_pos e)
    have exponents := (zpow_lt_zpow_iff_right₀ (by norm_num : (1 : ℚ) < 2)).mp
      (lower.trans_lt below)
    unfold unit
    push_cast at exponents
    omega
  obtain ⟨j, apart⟩ := Int.eq_ofNat_of_zero_le (Int.sub_nonneg.mpr coarse)
  have finer : (n : ℚ) / d = (k * 2 ^ j : Nat) * 2 ^ unit n d := by
    rw [same, show e = unit n d + j by omega, two_zpow_units]
    push_cast
    ring
  rw [rounded, units_exact right finer, finer]

theorem nearest_some (negative : Bool) (left : 0 < n) (d : Nat) :
    nearest negative n d = if 971 < unit n d then infinity negative
      else pack negative (min ((unit n d + 1074).toNat * 2 ^ 52 + units n d (unit n d))
        infinityMagnitude) := by
  have some : n ≠ 0 := left.ne'
  simp only [nearest, if_neg some]
  rfl

theorem value_nearest (negative : Bool) (right : 0 < d) (fits : rounded n d < 2 ^ (1024 : Int)) :
    (nearest negative n d).value? = some (withSign negative (rounded n d)) := by
  rcases Nat.eq_zero_or_pos n with rfl | left
  · have none : (zero negative).datum = .finite negative 0 (-1074) := by
      cases negative <;> decide
    rw [rounded_zero right, nearest, if_pos rfl, value_finite none, Nat.cast_zero, zero_mul]
  obtain ⟨under, full⟩ := quotient_bounds left right
  have most : units n d (unit n d) ≤ 2 ^ 53 := units_le right under.le
  have normal : unit n d = -1074 ∨ 2 ^ 52 ≤ units n d (unit n d) :=
    full.imp_right fun le => le_units right le
  -- so many units of a binade beyond the last would be too much
  have reach {j : Nat} (many : 2 ^ j ≤ units n d (unit n d)) : unit n d + j < 1024 := by
    apply (zpow_lt_zpow_iff_right₀ (by norm_num : (1 : ℚ) < 2)).mp
    refine lt_of_le_of_lt ?_ fits
    rw [two_zpow_units, rounded]
    exact mul_le_mul_of_nonneg_right (by exact_mod_cast many) (two_zpow_pos _).le
  have least := unit_least n d
  have inside : unit n d ≤ 971 := by
    rcases normal with small | many
    · omega
    · have := reach many
      omega
  have below : (unit n d + 1074).toNat * 2 ^ 52 + units n d (unit n d) < infinityMagnitude := by
    change _ < 2047 * 2 ^ 52
    rcases Nat.lt_or_eq_of_le most with fewer | all
    · omega
    · have := reach all.ge
      omega
  have packed : nearest negative n d
      = pack negative ((unit n d + 1074).toNat * 2 ^ 52 + units n d (unit n d)) := by
    rw [nearest_some negative left, if_neg (not_lt.mpr inside), Nat.min_eq_left below.le]
  rw [packed, value_pack negative normal least most below, rounded]

/-! ### Whole numbers -/

theorem value_ofNat (fits : n < 2 ^ 53) : (ofNat n).value? = some (n : ℚ) := by
  have exact : rounded n 1 = n := by
    rw [rounded_exact (k := n) (e := 0) Nat.one_pos fits (by decide) (by simp), Nat.cast_one,
      div_one]
  have small : rounded n 1 < 2 ^ (1024 : Int) := by
    rw [exact]
    calc (n : ℚ) < 2 ^ 53 := by exact_mod_cast fits
      _ ≤ 2 ^ (1024 : Int) := by
        rw [← zpow_natCast]
        exact zpow_le_zpow_right₀ (by norm_num) (by norm_num)
  rw [ofNat, value_nearest false Nat.one_pos small, exact]
  rfl

theorem datum_one : (ofNat 1).datum = .finite false (2 ^ 52) (-52) := by decide +kernel

theorem datum_fits (known : x.datum = .finite negative m e) :
    (m : ℚ) * 2 ^ e < 2 ^ (1024 : Int) := by
  obtain ⟨bits, -, most⟩ := datum_bounds known
  calc (m : ℚ) * 2 ^ e < (2 ^ 53 : Nat) * 2 ^ e :=
        mul_lt_mul_of_pos_right (by exact_mod_cast bits) (two_zpow_pos e)
    _ = 2 ^ (e + (53 : Nat)) := (two_zpow_units _ _).symm
    _ ≤ 2 ^ (1024 : Int) := zpow_le_zpow_right₀ (by norm_num) (by push_cast; omega)

theorem value_nearest_exact (known : x.datum = .finite negative m e) (right : 0 < d)
    (same : (n : ℚ) / d = m * 2 ^ e) : (nearest negative n d).value? = x.value? := by
  obtain ⟨bits, least, -⟩ := datum_bounds known
  have exact := rounded_exact right bits least same
  have fits : rounded n d < 2 ^ (1024 : Int) := by
    rw [exact, same]
    exact datum_fits known
  rw [value_nearest negative right fits, exact, same, value_finite known]

theorem value_div_one (x : Binary64) : (x.div (ofNat 1)).value? = x.value? := by
  cases known : x.datum with
  | notANumber =>
    have divided : x.div (ofNat 1) = nan := by simp only [div, known]
    rw [divided, value?, value?, known]
    rfl
  | infinite negative =>
    have divided : x.div (ofNat 1) = infinity negative := by
      simp only [div, known, datum_one, Bool.bne_false]
    rw [divided, value?, value?, known]
    cases negative <;> rfl
  | finite negative m e =>
    have divided : x.div (ofNat 1) =
        if 0 ≤ e - -52 then nearest negative (m * 2 ^ (e - -52).toNat) (2 ^ 52)
        else nearest negative m (2 ^ 52 * 2 ^ (-52 - e).toNat) := by
      simp only [div, known, datum_one, Bool.bne_false]
      exact if_neg (by decide)
    rw [divided]
    split
    · rename_i up
      obtain ⟨j, apart⟩ := Int.eq_ofNat_of_zero_le up
      rw [apart, Int.toNat_natCast]
      apply value_nearest_exact known (by decide)
      rw [show e = j - (52 : Nat) by push_cast; omega, zpow_sub₀ (by norm_num), zpow_natCast,
        zpow_natCast]
      push_cast
      rw [mul_div_assoc]
      norm_num
    · rename_i down
      obtain ⟨j, apart⟩ := Int.eq_ofNat_of_zero_le (show 0 ≤ -52 - e by omega)
      rw [apart, Int.toNat_natCast]
      apply value_nearest_exact known (by positivity)
      rw [show e = -((52 + j : Nat) : Int) by push_cast; omega, zpow_neg, zpow_natCast, pow_add]
      push_cast
      rw [div_eq_mul_inv]
      norm_num

/-! ### Signed words -/

def reading (w : UInt64) : ℚ :=
  if w.toNat < 2 ^ 63 then rounded w.toNat 1 else -rounded (2 ^ 64 - w.toNat) 1

theorem rounded_word_fits (le : n ≤ 2 ^ 64) : rounded n 1 < 2 ^ (1024 : Int) := by
  have power : ((2 ^ 64 : Nat) : ℚ) / (1 : Nat) = (1 : Nat) * 2 ^ (64 : Int) := by norm_num
  calc rounded n 1 ≤ rounded (2 ^ 64) 1 := rounded_order le
    _ = (1 : Nat) * 2 ^ (64 : Int) := by
        rw [rounded_exact Nat.one_pos (by norm_num) (by norm_num) power, power]
    _ < 2 ^ (1024 : Int) := by
        rw [Nat.cast_one, one_mul]
        exact zpow_lt_zpow_right₀ (by norm_num) (by norm_num)

theorem value_ofSignedWord (w : UInt64) : (ofSignedWord w).value? = some (reading w) := by
  have bound := w.toNat_lt
  unfold ofSignedWord ofInt reading
  split
  · rename_i low
    have same : Int.bmod (w.toNat : Int) (2 ^ 64) = w.toNat := by
      rw [Int.bmod_eq_of_le] <;> omega
    rw [same, Int.natAbs_natCast, decide_eq_false (by omega),
      value_nearest false Nat.one_pos (rounded_word_fits (by omega))]
    rfl
  · rename_i high
    have same : Int.bmod (w.toNat : Int) (2 ^ 64) = -((2 ^ 64 - w.toNat : Nat) : Int) := by
      rw [Int.bmod_def]
      omega
    rw [same, Int.natAbs_neg, Int.natAbs_natCast, decide_eq_true (by omega),
      value_nearest true Nat.one_pos (rounded_word_fits (by omega))]
    rfl

theorem reading_nonneg_iff (w : UInt64) : 0 ≤ reading w ↔ w.toNat < 2 ^ 63 := by
  have bound := w.toNat_lt
  unfold reading
  split
  · rename_i low
    exact iff_of_true (rounded_nonneg _ _) low
  · rename_i high
    refine iff_of_false ?_ high
    have one : ((1 : Nat) : ℚ) / (1 : Nat) = (1 : Nat) * 2 ^ (0 : Int) := by norm_num
    have least : (1 : ℚ) ≤ rounded (2 ^ 64 - w.toNat) 1 := by
      calc (1 : ℚ) = rounded 1 1 := by
            rw [rounded_exact Nat.one_pos (by norm_num) (by norm_num) one]
            norm_num
        _ ≤ rounded (2 ^ 64 - w.toNat) 1 := rounded_order (by omega)
    linarith

theorem reading_mono {v w : UInt64} (le : v.toNat ≤ w.toNat)
    (half : w.toNat < 2 ^ 63 ∨ 2 ^ 63 ≤ v.toNat) : reading v ≤ reading w := by
  unfold reading
  rcases half with low | high
  · rw [if_pos low, if_pos (lt_of_le_of_lt le low)]
    exact rounded_order le
  · rw [if_neg (by omega), if_neg (by omega)]
    exact neg_le_neg (rounded_order (by omega))

/-! ### Cutting to a word -/

theorem truncated_eq (m : Nat) (e : Int) : truncated m e = ⌊(m : ℚ) * 2 ^ e⌋₊ := by
  unfold truncated
  split
  · rename_i up
    obtain ⟨j, rfl⟩ := Int.eq_ofNat_of_zero_le up
    rw [Int.toNat_natCast, zpow_natCast]
    exact_mod_cast (Nat.floor_natCast (R := ℚ) (m * 2 ^ j)).symm
  · rename_i down
    obtain ⟨j, same⟩ := Int.eq_ofNat_of_zero_le (show 0 ≤ -e by omega)
    obtain rfl : e = -(j : Int) := by omega
    rw [neg_neg, Int.toNat_natCast, zpow_neg, zpow_natCast, ← div_eq_mul_inv]
    exact_mod_cast (Nat.floor_div_eq_div (K := ℚ) m (2 ^ j)).symm

theorem toWord_eq {a : ℚ} (known : x.value? = some a) :
    x.toWord.toNat = min ⌊a⌋₊ (2 ^ 64 - 1) := by
  unfold value? at known
  unfold toWord
  cases finite : x.datum with
  | notANumber | infinite => simp [finite] at known
  | finite negative m e =>
    simp only [finite, Option.some.injEq] at known ⊢
    subst known
    cases negative with
    | true =>
      have below : withSign true (m * 2 ^ e) ≤ 0 :=
        neg_nonpos.mpr (mul_nonneg (Nat.cast_nonneg m) (two_zpow_pos e).le)
      rw [Nat.floor_of_nonpos below]
      rfl
    | false =>
      rw [if_neg Bool.false_ne_true, truncated_eq]
      exact UInt64.toNat_ofNat_of_lt' (lt_of_le_of_lt (Nat.min_le_right _ _) (by decide))

theorem toWord_mono {y : Binary64} {a b : ℚ} (first : x.value? = some a)
    (second : y.value? = some b) (le : a ≤ b) : x.toWord.toNat ≤ y.toWord.toNat := by
  rw [toWord_eq first, toWord_eq second]
  exact min_le_min_right _ (Nat.floor_le_floor le)

end Binary64

end Telemetry
