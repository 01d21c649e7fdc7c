import Telemetry.Proofs.Numerals

/-! What the text of a number denotes. A text with significant digits is a numeral, and in either
form it is worth exactly the digits that the number was rounded to; so read again, before any
rounding, it gives those back, and it ends in no zero that a fraction could do without. -/
namespace Telemetry

open Digits Layout

open Reader (isDigit digitsFrom decimal? denoted?)

open Numeral (ofDigits pointed exponentText)

/-! ### Texts with significant digits -/

theorem numeral_digits (n : Nat) : ∀ c ∈ numeral n, isDigit c = true := fun _ member =>
  Reader.isDigit_of_isDigit (Nat.isDigit_of_mem_toDigits (by decide) (by decide) member)

theorem zeros_digits (n : Nat) : ∀ c ∈ zeros n, isDigit c = true := fun _ member =>
  List.eq_of_mem_replicate member ▸ rfl

theorem trimZeros_ofDigits {digits : List Char} (all : ∀ c ∈ digits, isDigit c = true)
    (places : Nat) :
    trimZeros (digits.take (digits.length - places) ++
      pointed (digits.drop (digits.length - places))) = (ofDigits digits places none).text := by
  rw [Numeral.trimZeros_pointed (fun c member => all c (List.mem_of_mem_take member))
    fun c member => all c (List.mem_of_mem_drop member)]
  exact (List.append_nil _).symm

theorem mantissa_pointed {digits : List Char} (some : digits ≠ []) :
    mantissa digits = digits.take (digits.length - (digits.length - 1)) ++
      pointed (digits.drop (digits.length - (digits.length - 1))) := by
  have one : digits.length - (digits.length - 1) = 1 := by
    have pos := List.length_pos_of_ne_nil some
    omega
  rw [one]
  match digits with
  | [] => exact absurd rfl some
  | [d] => rfl
  | d :: e :: rest => rfl

def placed (places units : Nat) : List Char :=
  zeros (places + 1 - (numeral units).length) ++ numeral units

theorem placed_length (places units : Nat) : places < (placed places units).length := by
  rw [placed, List.length_append, zeros, List.length_replicate]
  omega

theorem placed_digits (places units : Nat) : ∀ c ∈ placed places units, isDigit c = true :=
  List.forall_mem_append.mpr ⟨zeros_digits _, numeral_digits _⟩

theorem withPlaces_pointed (places units : Nat) :
    withPlaces places units =
      (placed places units).take ((placed places units).length - places) ++
        pointed ((placed places units).drop ((placed places units).length - places)) := by
  have long := placed_length places units
  have same : withPlaces places units = if places = 0 then placed places units else
      (placed places units).take ((placed places units).length - places) ++
        '.' :: (placed places units).drop ((placed places units).length - places) := rfl
  rw [same]
  split
  · rename_i none
    subst none
    rw [Nat.sub_zero, List.take_length, List.drop_length]
    exact (List.append_nil _).symm
  · rw [pointed, if_neg]
    apply List.ne_nil_of_length_pos
    rw [List.length_drop]
    omega

theorem digitsFrom_placed (places units : Nat) : digitsFrom 0 (placed places units) = units := by
  rw [placed, Reader.digitsFrom_append, zeros, Reader.digitsFrom_zeros, Nat.mul_zero,
    Reader.digitsFrom_numeral]

def exponentOf (e : Int) : Bool × List Char :=
  (decide (e < 0), zeros (2 - (numeral e.natAbs).length) ++ numeral e.natAbs)

theorem exponentText_exponentOf (e : Int) :
    exponentText (some (exponentOf e)) = 'e' :: signedExponent e := by
  simp [exponentText, exponentOf, signedExponent]

theorem exponentOf_digits (e : Int) :
    2 ≤ (exponentOf e).2.length ∧ ∀ c ∈ (exponentOf e).2, isDigit c = true := by
  constructor
  · rw [exponentOf, List.length_append, zeros, List.length_replicate]
    omega
  · exact List.forall_mem_append.mpr ⟨zeros_digits _, numeral_digits _⟩

theorem power_exponentOf {t : Numeral} {e : Int} (written : t.exponent = some (exponentOf e)) :
    t.power = e := by
  have digits : digitsFrom 0 (exponentOf e).2 = e.natAbs := by
    rw [exponentOf, Reader.digitsFrom_append, zeros, Reader.digitsFrom_zeros, Nat.mul_zero,
      Reader.digitsFrom_numeral]
  simp only [Numeral.power, written, exponentOf] at digits ⊢
  rw [digits]
  split
  · rename_i low
    have negative := of_decide_eq_true low
    omega
  · rename_i high
    have positive := of_decide_eq_false (eq_false_of_ne_true high)
    omega

theorem numeral_length {p c : Nat} (some : 0 < p) (least : 10 ^ (p - 1) ≤ c) (most : c < 10 ^ p) :
    (numeral c).length = p := by
  have short := digitCount_le some most
  have pos : 0 < (numeral c).length := Nat.length_toDigits_pos
  rcases Nat.lt_or_ge (numeral c).length p with fewer | enough
  · have below : c < 10 ^ (p - 1) :=
      (Nat.length_toDigits_le_iff (by decide) (by omega)).mp (Nat.le_sub_one_of_lt fewer)
    omega
  · exact Nat.le_antisymm short enough

def generalNumeral (p n d : Nat) : Numeral :=
  let s := significant p n d
  if isScientific p s.leading then ofDigits (numeral s.digits) (p - 1) (some (exponentOf s.leading))
  else
    let places := decimalPlaces p s.leading
    ofDigits (placed places (atPlaces places n d)) places none

variable {n d p : Nat}

theorem isScientific_iff (p : Nat) (e : Int) : isScientific p e = true ↔ e < -4 ∨ p ≤ e := by
  simp [isScientific]

theorem generalNumeral_exponent (left : 0 < n) (right : 0 < d) (some : 0 < p) :
    let t := generalNumeral p n d
    let X := (significant p n d).leading
    (t.exponent.isSome = true ↔ X < -4 ∨ p ≤ X) ∧
      (t.exponent.isSome = true → t.power = X ∧ t.whole.length = 1) := by
  intro t X
  have digits := significant_rounds left right some
  rw [← isScientific_iff]
  unfold t generalNumeral
  dsimp only
  split
  · rename_i scientific
    refine ⟨iff_of_true rfl scientific, fun _ => ⟨power_exponentOf rfl, ?_⟩⟩
    rw [ofDigits, List.length_take, numeral_length some digits.least digits.most]
    omega
  · rename_i plain
    exact ⟨iff_of_false (by simp [ofDigits]) plain, fun written => by cases written⟩

theorem generalNumeral_tidy (left : 0 < n) (right : 0 < d) (some : 0 < p) :
    (generalNumeral p n d).Tidy := by
  have digits := significant_rounds left right some
  unfold generalNumeral
  dsimp only
  split
  · apply Numeral.ofDigits_tidy (numeral_digits _)
    · rw [numeral_length some digits.least digits.most]
      omega
    · intro negative digits written
      cases written
      exact exponentOf_digits _
  · apply Numeral.ofDigits_tidy (placed_digits _ _) (placed_length _ _)
    intro negative digits written
    cases written

theorem generalNumeral_text (left : 0 < n) (right : 0 < d) (some : 0 < p) :
    (generalNumeral p n d).text = generalMagnitude p n d := by
  have digits := significant_rounds left right some
  unfold generalNumeral generalMagnitude
  dsimp only
  split
  · have count := numeral_length some digits.least digits.most
    have nonempty : numeral (significant p n d).digits ≠ [] := Nat.toDigits_ne_nil
    rw [mantissa_pointed nonempty, trimZeros_ofDigits (numeral_digits _), count,
      ← exponentText_exponentOf]
    exact congrArg (· ++ _) (List.append_nil _).symm
  · rw [withPlaces_pointed, trimZeros_ofDigits (placed_digits _ _)]

/-- In either form it is worth the significant digits, also where rounding has carried. -/
theorem generalNumeral_value (left : 0 < n) (right : 0 < d) (some : 0 < p) :
    (generalNumeral p n d).value = (significant p n d).worth p := by
  have digits := significant_rounds left right some
  unfold generalNumeral
  dsimp only
  split
  · have count := numeral_length some digits.least digits.most
    rw [Numeral.ofDigits_value (by omega), power_exponentOf rfl, Reader.digitsFrom_numeral, worth]
    congr 2
    omega
  · rename_i plain
    have bounds := mt (isScientific_iff p _).mpr plain
    rw [Numeral.ofDigits_value (placed_length _ _).le, digitsFrom_placed,
      atPlaces_significant n right some (by omega), worth]
    congr 2
    change 0 - (decimalPlaces p (significant p n d).leading : Int) = _
    unfold decimalPlaces
    omega

theorem fitGeneral_ok (most : p ≤ 1000) : ∃ places, fitGeneral p n d = .ok places := by
  have further : p - 1 < 2 ^ 16 := by omega
  simp only [fitGeneral, Overflow.unlessFits, if_pos further]
  change ∃ places, (if isScientific p (significant p n d).leading then Except.ok (p - 1) else _) = _
  split
  · exact ⟨_, rfl⟩
  · rename_i plain
    have bounds := mt (isScientific_iff p _).mpr plain
    have places : decimalPlaces p (significant p n d).leading < 2 ^ 16 := by
      unfold decimalPlaces
      omega
    rw [if_pos places]
    exact ⟨_, rfl⟩

theorem quotient_eq (m : Nat) (e : Int) : 0 < (Digits.quotient m e).2 ∧
    ((Digits.quotient m e).1 : ℚ) / (Digits.quotient m e).2 = m * 2 ^ e := by
  unfold Digits.quotient
  split
  · rename_i up
    obtain ⟨j, rfl⟩ := Int.eq_ofNat_of_zero_le up
    refine ⟨Nat.one_pos, ?_⟩
    rw [Int.toNat_natCast, zpow_natCast, Nat.cast_one, div_one]
    push_cast
    rfl
  · rename_i down
    obtain ⟨j, same⟩ := Int.eq_ofNat_of_zero_le (show 0 ≤ -e by omega)
    obtain rfl : e = -(j : Int) := by omega
    refine ⟨by positivity, ?_⟩
    rw [neg_neg, Int.toNat_natCast, zpow_neg, zpow_natCast, ← div_eq_mul_inv]
    push_cast
    rfl

theorem general_numeral {x : Binary64} {negative : Bool} {m : Nat} {e : Int}
    (finite : x.datum = .finite negative m e) (some : 0 < m) (least : 0 < p) :
    let t := generalNumeral p (Digits.quotient m e).1 (Digits.quotient m e).2
    0 < (Digits.quotient m e).1 ∧
      (x.general p).toList = if negative then '-' :: t.text else t.text := by
  intro t
  obtain ⟨right, same⟩ := quotient_eq m e
  have left : 0 < (Digits.quotient m e).1 := by
    apply Nat.pos_of_ne_zero
    intro zero
    have positive : (0 : ℚ) < m * 2 ^ e :=
      mul_pos (by exact_mod_cast some) (Binary64.two_zpow_pos e)
    rw [← same, zero, Nat.cast_zero, zero_div] at positive
    exact lt_irrefl _ positive
  refine ⟨left, ?_⟩
  have precision : max p 1 = p := Nat.max_eq_left least
  simp only [Binary64.general, finite, if_neg some.ne', precision, Binary64.signed, t]
  rw [String.toList_ofList, generalNumeral_text left right least]

/-- **Significant digits as `%g` writes them.** Whatever the number, finite and not zero, and up to a
thousand digits: there is a text, and it denotes exactly the nearest number with so many significant
digits. It is scientific exactly if the exponent of that number is below -4 or not below the
precision, with one digit before the point and two at least in the exponent; and its fraction, if it
has one, ends in no zero. -/
theorem general_denotes_digits {x : Binary64} {v : ℚ} {p : Nat} (known : x.value? = some v)
    (nonzero : v ≠ 0) (least : 1 ≤ p) (most : p ≤ 1000) :
    ∃ (s : Digits) (t : Numeral), s.Rounds p |v| ∧
      x.general? p = .ok (x.general p) ∧
      (x.general p).toList = (if v < 0 then '-' :: t.text else t.text) ∧
      denoted? (x.general p).toList = some (if v < 0 then -s.worth p else s.worth p) ∧
      t.Tidy ∧
      (t.exponent.isSome = true ↔ s.leading < -4 ∨ p ≤ s.leading) ∧
      (t.exponent.isSome = true → t.power = s.leading ∧ t.whole.length = 1) := by
  cases finite : x.datum with
  | notANumber | infinite => simp [Binary64.value?, finite] at known
  | finite negative m e =>
    rw [Binary64.value_finite finite, Option.some.injEq] at known
    subst known
    have some : 0 < m := by
      apply Nat.pos_of_ne_zero
      rintro rfl
      exact nonzero (by cases negative <;> simp [Binary64.withSign])
    have positive : (0 : ℚ) < m * 2 ^ e :=
      mul_pos (by exact_mod_cast some) (Binary64.two_zpow_pos e)
    have size : |Binary64.withSign negative ((m : ℚ) * 2 ^ e)| = m * 2 ^ e := by
      cases negative with
      | true => exact (abs_neg _).trans (abs_of_pos positive)
      | false => exact abs_of_pos positive
    have sign : Binary64.withSign negative ((m : ℚ) * 2 ^ e) < 0 ↔ negative = true := by
      cases negative with
      | true => exact iff_of_true (neg_neg_of_pos positive) rfl
      | false => exact iff_of_false positive.le.not_gt Bool.false_ne_true
    obtain ⟨right, quotient⟩ := quotient_eq m e
    obtain ⟨left, text⟩ := general_numeral finite some least
    have tidy := generalNumeral_tidy left right least
    obtain ⟨form, scientific⟩ := generalNumeral_exponent left right least
    simp only [sign, size]
    refine ⟨_, _, quotient ▸ significant_rounds left right least, ?_, text, ?_, tidy, form,
      scientific⟩
    · obtain ⟨places, fits⟩ := fitGeneral_ok (n := (Digits.quotient m e).1)
        (d := (Digits.quotient m e).2) most
      simp only [Binary64.general?, finite, if_neg some.ne', Nat.max_eq_left least, fits]
      rfl
    · rw [text, Numeral.denoted?_text tidy, generalNumeral_value left right least]
      rfl

/-- Rounding -9999.5 to four digits carries into a fifth one, and so out of the plain form. -/
theorem general_denotes_digits_carried :
    let x : Binary64 := ⟨0xc0c387c000000000⟩
    x.value? = some (-(19999 / 2)) ∧ x.general 4 = "-1e+04" ∧
      ∃ (s : Digits) (t : Numeral), s.Rounds 4 (19999 / 2) ∧ t.Tidy ∧
        "-1e+04".toList = '-' :: t.text ∧ denoted? "-1e+04".toList = some (-s.worth 4) ∧
        (t.exponent.isSome = true ↔ s.leading < -4 ∨ 4 ≤ s.leading) := by
  intro x
  have finite : x.datum = .finite true 5497283260973056 (-39) := by decide +kernel
  have known : x.value? = some (-(19999 / 2)) := by
    rw [Binary64.value_finite finite, Binary64.withSign]
    norm_num
  have text : x.general 4 = "-1e+04" := by decide +kernel
  obtain ⟨s, t, rounds, -, written, denoted, tidy, form, -⟩ :=
    general_denotes_digits known (by norm_num) (by decide : 1 ≤ 4) (by decide)
  have negative : (-(19999 / 2) : ℚ) < 0 := by norm_num
  have size : |(-(19999 / 2) : ℚ)| = 19999 / 2 := by norm_num
  rw [size] at rounds
  rw [text, if_pos negative] at written denoted
  exact ⟨known, text, s, t, rounds, tidy, written, denoted, form⟩

end Telemetry
