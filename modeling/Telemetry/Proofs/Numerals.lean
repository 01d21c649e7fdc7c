import Mathlib.Data.List.DropRight
import Telemetry.Number.Reader
import Telemetry.Proofs.Figures
import Telemetry.Proofs.Significant

/-! Numerals: digits with a point and an exponent, and the rational number that such a text denotes.
Reading one without rounding gives back what it was put together from; leaving out the zeros at its
end, and a point with nothing behind it, changes its text and not its value. -/
namespace Telemetry

open Digits Layout

/-! ### Reading without rounding -/

namespace Reader

def splitFraction : List Char → List Char × List Char
  | '.' :: rest => (rest.takeWhile isDigit, rest.dropWhile isDigit)
  | rest => ([], rest)

def decimal? (text : List Char) : Option (Nat × Int) :=
  let whole := text.takeWhile isDigit
  let tail := splitFraction (text.dropWhile isDigit)
  if whole.isEmpty && tail.1.isEmpty then none
  else (exponent? tail.2).map fun e =>
    (digitsFrom (digitsFrom 0 whole) tail.1, e - tail.1.length)

theorem decimalMagnitude?_eq (negative : Bool) (text : List Char) :
    decimalMagnitude? negative text = (decimal? text).map fun x => ofDecimal negative x.1 x.2 := by
  have parts : decimalMagnitude? negative text =
      if (text.takeWhile isDigit).isEmpty && (splitFraction (text.dropWhile isDigit)).1.isEmpty
      then none
      else (exponent? (splitFraction (text.dropWhile isDigit)).2).map fun e =>
        ofDecimal negative (digitsFrom (digitsFrom 0 (text.takeWhile isDigit))
          (splitFraction (text.dropWhile isDigit)).1)
          (e - (splitFraction (text.dropWhile isDigit)).1.length) := rfl
  rw [parts, decimal?]
  split
  · rfl
  · rw [Option.map_map]
    rfl

def denoted? (text : List Char) : Option ℚ :=
  match text with
  | '-' :: rest => (decimal? rest).map fun x => -(x.1 * 10 ^ x.2)
  | text => (decimal? text).map fun x => x.1 * 10 ^ x.2

theorem isDigit_of_isDigit {c : Char} (digit : c.isDigit = true) : isDigit c = true := by
  simp only [Char.isDigit, Bool.and_eq_true, decide_eq_true_eq] at digit
  simp only [isDigit, Bool.and_eq_true, decide_eq_true_eq]
  exact digit

theorem digitsFrom_append (start : Nat) (a b : List Char) :
    digitsFrom start (a ++ b) = digitsFrom (digitsFrom start a) b := List.foldl_append

theorem digitsFrom_zeros (start n : Nat) :
    digitsFrom start (List.replicate n '0') = 10 ^ n * start := Nat.ofDigitChars_replicate_zero

theorem digitsFrom_numeral (n : Nat) : digitsFrom 0 (numeral n) = n := Nat.ofDigitChars_ten_toDigits

end Reader

open Reader (isDigit digitsFrom decimal? denoted?)

/-! ### Numerals -/

/-- A decimal text in its parts. There is a point before a fraction, and an exponent is a sign and
digits. -/
structure Numeral where
  whole : List Char
  fraction : List Char
  exponent : Option (Bool × List Char)

namespace Numeral

def pointed (fraction : List Char) : List Char :=
  if fraction = [] then [] else '.' :: fraction

def exponentText : Option (Bool × List Char) → List Char
  | none => []
  | some (negative, digits) => 'e' :: (if negative then '-' else '+') :: digits

def text (t : Numeral) : List Char := t.whole ++ pointed t.fraction ++ exponentText t.exponent

def power (t : Numeral) : Int :=
  match t.exponent with
  | none => 0
  | some (negative, digits) => if negative then -digitsFrom 0 digits else digitsFrom 0 digits

def value (t : Numeral) : ℚ :=
  digitsFrom (digitsFrom 0 t.whole) t.fraction * 10 ^ (t.power - t.fraction.length)

/-- Digits where they belong, two at least in an exponent, and no zero at the end of a fraction. -/
structure Tidy (t : Numeral) : Prop where
  whole : t.whole ≠ [] ∧ ∀ c ∈ t.whole, isDigit c = true
  fraction : ∀ c ∈ t.fraction, isDigit c = true
  trimmed : t.fraction.getLast? ≠ some '0'
  exponent : ∀ negative digits, t.exponent = some (negative, digits) →
    2 ≤ digits.length ∧ ∀ c ∈ digits, isDigit c = true

variable {t : Numeral}

theorem exponent?_text (h : t.Tidy) : Reader.exponent? (exponentText t.exponent) = some t.power := by
  unfold power
  cases written : t.exponent with
  | none => rfl
  | some part =>
    obtain ⟨negative, digits⟩ := part
    obtain ⟨two, all⟩ := h.exponent negative digits written
    have read : Reader.digits? digits = some (digitsFrom 0 digits) := by
      have nonempty : digits.isEmpty = false := by
        rw [List.isEmpty_eq_false_iff]
        exact List.ne_nil_of_length_pos (by omega)
      rw [Reader.digits?, nonempty, List.all_eq_true.mpr all]
      rfl
    cases negative <;> simp [Reader.exponent?, exponentText, read]

theorem split_digits {digits rest : List Char} (all : ∀ c ∈ digits, isDigit c = true)
    (stops : ∀ c, rest.head? = some c → isDigit c = false) :
    (digits ++ rest).takeWhile isDigit = digits ∧ (digits ++ rest).dropWhile isDigit = rest := by
  rw [List.takeWhile_append_of_pos all, List.dropWhile_append_of_pos all]
  cases rest with
  | nil => exact ⟨List.append_nil digits, rfl⟩
  | cons c rest =>
    have other := stops c rfl
    rw [List.takeWhile_cons_of_neg (by simp [other]), List.dropWhile_cons_of_neg (by simp [other]),
      List.append_nil]
    exact ⟨rfl, rfl⟩

theorem exponentText_stops (exponent : Option (Bool × List Char)) :
    Reader.splitFraction (exponentText exponent) = ([], exponentText exponent) ∧
      ∀ c, (exponentText exponent).head? = some c → isDigit c = false := by
  cases exponent with
  | none => exact ⟨rfl, fun c first => by cases first⟩
  | some part => exact ⟨rfl, fun c first => by cases first; rfl⟩

theorem decimal?_text (h : t.Tidy) : decimal? t.text =
    some (digitsFrom (digitsFrom 0 t.whole) t.fraction, t.power - t.fraction.length) := by
  obtain ⟨unpointed, stops⟩ := exponentText_stops t.exponent
  have split : t.text.takeWhile isDigit = t.whole ∧
      Reader.splitFraction (t.text.dropWhile isDigit) = (t.fraction, exponentText t.exponent) := by
    unfold text pointed
    by_cases plain : t.fraction = []
    · obtain ⟨taken, left⟩ := split_digits h.whole.2 stops
      rw [if_pos plain, List.append_nil, taken, left, unpointed, plain]
      exact ⟨rfl, rfl⟩
    · have point (c : Char)
          (first : ('.' :: (t.fraction ++ exponentText t.exponent)).head? = some c) :
          isDigit c = false := by
        cases first
        rfl
      obtain ⟨taken, left⟩ := split_digits h.whole.2 point
      obtain ⟨fraction, rest⟩ := split_digits h.fraction stops
      rw [if_neg plain, List.append_assoc, List.cons_append, taken, left, Reader.splitFraction,
        fraction, rest]
      exact ⟨rfl, rfl⟩
  have nonempty : t.whole.isEmpty = false := List.isEmpty_eq_false_iff.mpr h.whole.1
  rw [decimal?, split.1, split.2, nonempty, exponent?_text h]
  rfl

theorem denoted?_text (h : t.Tidy) (negative : Bool) :
    denoted? (if negative then '-' :: t.text else t.text)
      = some (Binary64.withSign negative t.value) := by
  cases negative with
  | true => simp [denoted?, decimal?_text h, value, Binary64.withSign]
  | false =>
    have digit : ∀ rest, t.text ≠ '-' :: rest := by
      intro rest same
      obtain ⟨some, digits⟩ := h.whole
      obtain ⟨c, others, front⟩ := List.exists_cons_of_ne_nil some
      rw [text, front, List.append_assoc, List.cons_append] at same
      have first := digits c (front ▸ List.mem_cons_self)
      rw [(List.cons.inj same).1] at first
      cases first
    unfold denoted?
    simp [decimal?_text h, value, Binary64.withSign]

/-! ### Trimming -/

theorem rdropWhile_zeros (fraction : List Char) :
    ∃ n, fraction = fraction.rdropWhile (· == '0') ++ zeros n := by
  refine ⟨(fraction.rtakeWhile (· == '0')).length, ?_⟩
  have same : fraction.rtakeWhile (· == '0') = zeros (fraction.rtakeWhile (· == '0')).length :=
    List.eq_replicate_of_mem fun c member => by simpa using List.mem_rtakeWhile_imp member
  rw [← same, List.rdropWhile_append_rtakeWhile]

theorem trimZeros_pointed {whole fraction : List Char} (digits : ∀ c ∈ whole, isDigit c = true)
    (more : ∀ c ∈ fraction, isDigit c = true) :
    trimZeros (whole ++ pointed fraction)
      = whole ++ pointed (fraction.rdropWhile (· == '0')) := by
  have undotted {part : List Char} (all : ∀ c ∈ part, isDigit c = true) : '.' ∉ part :=
    fun member => by cases all _ member
  have point : whole.rdropWhile (· == '.') = whole := List.rdropWhile_eq_self_iff.mpr
    fun some last => undotted digits (beq_iff_eq.mp last ▸ List.getLast_mem some)
  unfold pointed
  by_cases none : fraction = []
  · rw [if_pos none, none, List.append_nil, trimZeros,
      if_neg (by simpa using undotted digits), List.rdropWhile_nil, if_pos rfl, List.append_nil]
  · have dotted : (whole ++ '.' :: fraction).contains '.' = true := by simp
    have zeros (rest : List Char) : (whole ++ '.' :: rest).rdropWhile (· == '0')
        = whole ++ '.' :: rest.rdropWhile (· == '0') := by
      induction rest using List.reverseRecOn with
      | nil => exact List.rdropWhile_concat_neg _ _ _ (by decide)
      | append_singleton rest c ih =>
        rw [← List.cons_append, ← List.append_assoc, List.rdropWhile_concat,
          List.rdropWhile_concat, ih]
        split
        · rfl
        · rw [List.append_assoc, List.cons_append]
    have trimmed : trimZeros (whole ++ '.' :: fraction)
        = ((whole ++ '.' :: fraction).rdropWhile (· == '0')).rdropWhile (· == '.') := by
      rw [trimZeros, if_pos dotted, List.rdropWhile, List.rdropWhile, List.reverse_reverse]
    rw [if_neg none, trimmed, zeros]
    by_cases left : fraction.rdropWhile (· == '0') = []
    · rw [left, if_pos rfl, List.append_nil, List.rdropWhile_concat_pos _ _ _ (by decide), point]
    · rw [if_neg left, List.rdropWhile_eq_self_iff]
      intro some last
      have member := List.getLast_mem left
      rw [List.getLast_append_of_ne_nil _ (List.cons_ne_nil _ _), List.getLast_cons left] at last
      exact undotted more (beq_iff_eq.mp last ▸ (List.rdropWhile_prefix _ _).subset member)

def ofDigits (digits : List Char) (places : Nat) (exponent : Option (Bool × List Char)) : Numeral :=
  ⟨digits.take (digits.length - places),
    (digits.drop (digits.length - places)).rdropWhile (· == '0'), exponent⟩

variable {digits : List Char} {places : Nat} {exponent : Option (Bool × List Char)}

theorem ofDigits_tidy (all : ∀ c ∈ digits, isDigit c = true) (inside : places < digits.length)
    (signed : ∀ negative digits, exponent = some (negative, digits) →
      2 ≤ digits.length ∧ ∀ c ∈ digits, isDigit c = true) :
    (ofDigits digits places exponent).Tidy := by
  refine ⟨⟨?_, fun c member => all c (List.mem_of_mem_take member)⟩, ?_, ?_, signed⟩
  · apply List.ne_nil_of_length_pos
    rw [ofDigits, List.length_take]
    omega
  · intro c member
    exact all c (List.mem_of_mem_drop ((List.rdropWhile_prefix _ _).subset member))
  · intro last
    have some := List.ne_nil_of_mem (List.mem_of_getLast? last)
    have other := List.rdropWhile_last_not (· == '0') _ some
    rw [List.getLast?_eq_some_getLast some, Option.some.injEq] at last
    exact other (beq_iff_eq.mpr last)

theorem ofDigits_value (inside : places ≤ digits.length) :
    (ofDigits digits places exponent).value =
      digitsFrom 0 digits * 10 ^ ((ofDigits digits places exponent).power - places) := by
  obtain ⟨n, zeros⟩ := rdropWhile_zeros (digits.drop (digits.length - places))
  have length := congrArg List.length zeros
  rw [List.length_append, Layout.zeros, List.length_replicate, List.length_drop] at length
  have whole : digitsFrom 0 digits = 10 ^ n * digitsFrom (digitsFrom 0 (ofDigits digits places
      exponent).whole) (ofDigits digits places exponent).fraction := by
    conv => lhs; rw [← List.take_append_drop (digits.length - places) digits, zeros]
    rw [Reader.digitsFrom_append, Reader.digitsFrom_append, Layout.zeros, Reader.digitsFrom_zeros]
    rfl
  have shifted : (ofDigits digits places exponent).power -
      (ofDigits digits places exponent).fraction.length =
      n + ((ofDigits digits places exponent).power - places) := by
    have fraction : (ofDigits digits places exponent).fraction.length + n = places := by
      change (List.rdropWhile _ _).length + n = places
      omega
    omega
  rw [value, whole, shifted, ten_zpow_add, zpow_natCast]
  push_cast
  ring

end Numeral

end Telemetry
