import Telemetry.Proofs.Rounding
import Telemetry.Report.Row
import Telemetry.Text.Blank

/-! What stands in the column of values. Whatever the number is, its text has no blanks, it is not
empty, and it is far shorter than a column may be wide. -/
namespace Telemetry

open Layout Digits

def Graphic (c : Char) : Prop := 33 ≤ c.toNat ∧ c.toNat ≤ 126

instance (c : Char) : Decidable (Graphic c) := inferInstanceAs (Decidable (_ ∧ _))

theorem Graphic.isBlank {c : Char} (seen : Graphic c) : Text.isBlank c = false := by
  obtain ⟨low, high⟩ := seen
  simp only [Text.isBlank, Bool.or_eq_false_iff, Bool.and_eq_false_iff, decide_eq_false_iff_not,
    beq_eq_false_iff_ne]
  omega

theorem graphic_of_isDigit {c : Char} (digit : c.isDigit = true) : Graphic c := by
  simp only [Char.isDigit, Bool.and_eq_true, decide_eq_true_eq, UInt32.le_iff_toNat_le] at digit
  have low : 48 ≤ c.toNat := digit.1
  have high : c.toNat ≤ 57 := digit.2
  constructor <;> omega

structure Marks (bound : Nat) (text : List Char) : Prop where
  seen : ∀ c ∈ text, Graphic c
  short : text.length ≤ bound

namespace Marks

variable {m n : Nat} {a b : List Char} {c : Char}

theorem mono (h : Marks m a) (wider : m ≤ n) : Marks n a := ⟨h.seen, h.short.trans wider⟩

theorem append (h : Marks m a) (also : Marks n b) : Marks (m + n) (a ++ b) := by
  refine ⟨List.forall_mem_append.mpr ⟨h.seen, also.seen⟩, ?_⟩
  rw [List.length_append]
  exact Nat.add_le_add h.short also.short

theorem cons (seen : Graphic c) (h : Marks n a) : Marks (n + 1) (c :: a) :=
  ⟨List.forall_mem_cons.mpr ⟨seen, h.seen⟩, Nat.succ_le_succ h.short⟩

theorem sublist (h : Marks n a) (part : b.Sublist a) : Marks n b :=
  ⟨fun c member => h.seen c (part.subset member), part.length_le.trans h.short⟩

theorem zeros (n : Nat) : Marks n (Layout.zeros n) := by
  refine ⟨fun c member => ?_, (List.length_replicate).le⟩
  rw [List.eq_of_mem_replicate member]
  decide

theorem pointed (h : Marks n a) (k : Nat) : Marks (n + 1) (a.take k ++ '.' :: a.drop k) := by
  have whole := h.short
  rw [← List.take_append_drop k a, List.length_append] at whole
  refine ⟨?_, ?_⟩
  · refine List.forall_mem_append.mpr ⟨(h.sublist (List.take_sublist k a)).seen, ?_⟩
    exact List.forall_mem_cons.mpr ⟨by decide, (h.sublist (List.drop_sublist k a)).seen⟩
  · rw [List.length_append, List.length_cons]
    omega

theorem mantissa (h : Marks n a) : Marks (n + 1) (Layout.mantissa a) := by
  match a with
  | [] => exact h.mono (Nat.le_succ n)
  | [d] => exact h.mono (Nat.le_succ n)
  | d :: e :: rest => exact h.pointed 1

theorem trimZeros (h : Marks n a) : Marks n (Layout.trimZeros a) := by
  refine h.sublist ?_
  unfold Layout.trimZeros
  split
  · have kept := (List.dropWhile_sublist (· == '.')).trans
      (List.dropWhile_sublist (l := a.reverse) (· == '0'))
    have whole := kept.reverse
    rwa [List.reverse_reverse] at whole
  · exact List.Sublist.refl a

theorem numeral {k x : Nat} (some : 0 < k) (below : x < 10 ^ k) : Marks k (Digits.numeral x) :=
  ⟨fun _ member => graphic_of_isDigit (Nat.isDigit_of_mem_toDigits (by decide) (by decide) member),
    (Nat.length_toDigits_le_iff (by decide) some).mpr below⟩

end Marks

theorem digitCount_pos (n : Nat) : 0 < digitCount n := Nat.length_toDigits_pos

theorem digitCount_le {n k : Nat} (some : 0 < k) (below : n < 10 ^ k) : digitCount n ≤ k :=
  (Nat.length_toDigits_le_iff (by decide) some).mpr below

section Magnitude

variable {precision n d N D : Nat}

theorem decimalExponent_bounds (hN : 0 < N) (hD : 0 < D) (numerator : n < 10 ^ N)
    (denominator : d < 10 ^ D) : -(D : Int) ≤ decimalExponent n d ∧ decimalExponent n d < N := by
  have n_pos := digitCount_pos n
  have d_pos := digitCount_pos d
  have n_le := digitCount_le hN numerator
  have d_le := digitCount_le hD denominator
  simp only [decimalExponent]
  split <;> omega

theorem divNearest_le_succ (a b : Nat) : divNearest a b ≤ a + 1 := by
  have quotient := Nat.div_le_self a b
  simp only [divNearest]
  split
  · omega
  · split <;> omega

theorem timesTen_lt {k : Int} {m : Nat} (numerator : n < 10 ^ N) (shift : k ≤ m) :
    (timesTen k n d).1 < 10 ^ (N + m) := by
  have wider : 10 ^ k.toNat ≤ 10 ^ m := Nat.pow_le_pow_right (by decide) (by omega)
  rw [Nat.pow_add]
  simp only [timesTen]
  split
  · exact Nat.lt_of_lt_of_le (Nat.mul_lt_mul_of_pos_right numerator (Nat.pow_pos (by decide)))
      (Nat.mul_le_mul_left _ wider)
  · exact Nat.lt_of_lt_of_le numerator (Nat.le_mul_of_pos_right _ (Nat.pow_pos (by decide)))

theorem significant_bounds (precision : Nat) (hN : 0 < N) (hD : 0 < D) (numerator : n < 10 ^ N)
    (denominator : d < 10 ^ D) :
    (significant precision n d).digits < 10 ^ (N + D + precision) ∧
      (significant precision n d).leading.natAbs ≤ N + D := by
  obtain ⟨least, most⟩ := decimalExponent_bounds hN hD numerator denominator
  have shift : precision - 1 - decimalExponent n d ≤ (precision + D - 1 : Nat) := by omega
  have scaled := timesTen_lt (d := d) numerator shift
  have rounded := divNearest_le_succ
    (timesTen (precision - 1 - decimalExponent n d) n d).1
    (timesTen (precision - 1 - decimalExponent n d) n d).2
  have step : 10 ^ (N + (precision + D - 1)) < 10 ^ (N + D + precision) :=
    Nat.pow_lt_pow_right (by decide) (by omega)
  have carried : 10 ^ (precision - 1) < 10 ^ (N + D + precision) :=
    Nat.pow_lt_pow_right (by decide) (by omega)
  simp only [significant]
  split <;> constructor <;> dsimp only <;> omega

theorem signedExponent_marks {e : Int} {k : Nat} (near : e.natAbs ≤ k) :
    Marks (k + 4) (signedExponent e) := by
  have below : e.natAbs < 10 ^ (k + 1) := by
    have power : k + 1 < 10 ^ (k + 1) := Nat.lt_pow_self (by decide)
    omega
  have digits := (Marks.zeros (2 - (numeral e.natAbs).length)).append (.numeral k.succ_pos below)
  refine (Marks.cons ?_ digits).mono (by omega)
  split <;> decide

theorem withPlaces_marks {places units k : Nat} (some : 0 < k) (below : units < 10 ^ k) :
    Marks (places + k + 2) (withPlaces places units) := by
  have digits := (Marks.zeros (places + 1 - (numeral units).length)).append (.numeral some below)
  simp only [withPlaces]
  split
  · exact digits.mono (by omega)
  · exact (digits.pointed _).mono (by omega)

theorem atPlaces_lt {places : Nat} (numerator : n < 10 ^ N) :
    atPlaces places n d < 10 ^ (N + places + 1) := by
  have power : 0 < 10 ^ places := Nat.pow_pos (by decide)
  have scaled := Nat.mul_lt_mul_of_pos_right numerator power
  have rounded := divNearest_le_succ (n * 10 ^ places) d
  have step : 10 ^ (N + places) < 10 ^ (N + places + 1) :=
    Nat.pow_lt_pow_right (by decide) (Nat.lt_succ_self _)
  rw [← Nat.pow_add] at scaled
  unfold atPlaces
  omega

theorem generalMagnitude_marks (hN : 0 < N) (hD : 0 < D) (numerator : n < 10 ^ N)
    (denominator : d < 10 ^ D) :
    Marks (2 * (N + D + precision) + 10) (generalMagnitude precision n d) := by
  obtain ⟨digits, leading⟩ := significant_bounds precision hN hD numerator denominator
  simp only [generalMagnitude]
  split
  · have mantissa := (Marks.numeral (by omega) digits).mantissa.trimZeros
    have exponent := signedExponent_marks leading
    exact (mantissa.append (.cons (by decide) exponent)).mono (by omega)
  · rename_i plain
    have places : decimalPlaces precision (significant precision n d).leading ≤ precision + 3 := by
      simp only [isScientific, Bool.or_eq_true, decide_eq_true_eq, not_or] at plain
      unfold decimalPlaces
      omega
    generalize decimalPlaces precision (significant precision n d).leading = k at *
    have units : atPlaces k n d < 10 ^ (N + k + 1) := atPlaces_lt numerator
    exact (withPlaces_marks (by omega) units).trimZeros.mono (by omega)

theorem suffix_dropWhile {p : Char → Bool} (front back : List Char)
    (stops : ∀ c, back.head? = some c → p c = false) : back <:+ (front ++ back).dropWhile p := by
  induction front with
  | nil =>
    cases back with
    | nil => exact List.suffix_rfl
    | cons c rest =>
      rw [List.nil_append, List.dropWhile_cons_of_neg (by simp [stops c rfl])]
  | cons c rest ih =>
    cases drops : p c with
    | true => rwa [List.cons_append, List.dropWhile_cons_of_pos drops]
    | false =>
      rw [List.cons_append, List.dropWhile_cons_of_neg (by simp [drops])]
      exact List.suffix_append (c :: rest) back

theorem prefix_trimZeros {whole fraction : List Char} (undotted : '.' ∉ whole) :
    whole <+: Layout.trimZeros (whole ++ '.' :: fraction) := by
  have pointed : (whole ++ '.' :: fraction).contains '.' = true := by simp
  have turned : (whole ++ '.' :: fraction).reverse = fraction.reverse ++ '.' :: whole.reverse := by
    simp
  have zeros : '.' :: whole.reverse <:+ (fraction.reverse ++ '.' :: whole.reverse).dropWhile
      (· == '0') := suffix_dropWhile _ _ fun c first => by cases first; rfl
  rw [Layout.trimZeros, if_pos pointed, turned]
  obtain ⟨rest, same⟩ := zeros
  rw [← same, List.append_cons]
  have point := suffix_dropWhile (p := (· == '.')) (rest ++ ['.']) whole.reverse fun c first => by
    refine beq_eq_false_iff_ne.mpr fun dot => undotted ?_
    exact dot ▸ List.mem_reverse.mp (List.mem_of_mem_head? first)
  rw [← List.reverse_suffix, List.reverse_reverse]
  exact point

theorem numeral_undotted (n : Nat) : '.' ∉ numeral n := by
  intro member
  cases Nat.isDigit_of_mem_toDigits (by decide) (by decide) member

theorem withPlaces_whole (places units : Nat) : ∃ whole fraction, whole ≠ [] ∧ '.' ∉ whole ∧
    (withPlaces places units = whole ∨ withPlaces places units = whole ++ '.' :: fraction) := by
  have some : numeral units ≠ [] := Nat.toDigits_ne_nil
  simp only [withPlaces]
  generalize same : zeros (places + 1 - (numeral units).length) ++ numeral units = digits
  have undotted : '.' ∉ digits := by
    rw [← same, List.mem_append, not_or]
    constructor
    · intro member
      exact absurd (List.eq_of_mem_replicate member) (by decide)
    · exact numeral_undotted units
  have long : places + 1 ≤ digits.length := by
    rw [← same, List.length_append, zeros, List.length_replicate]
    omega
  split
  · exact ⟨digits, [], List.ne_nil_of_length_pos (by omega), undotted, .inl rfl⟩
  · refine ⟨digits.take (digits.length - places), _, List.ne_nil_of_length_pos ?_,
      fun member => undotted (List.mem_of_mem_take member), .inr rfl⟩
    rw [List.length_take]
    omega

end Magnitude

theorem generalMagnitude_ne_nil (precision n d : Nat) : generalMagnitude precision n d ≠ [] := by
  simp only [generalMagnitude]
  split
  · simp
  · obtain ⟨whole, fraction, some, undotted, plain | pointed⟩ := withPlaces_whole
      (decimalPlaces precision (significant precision n d).leading)
      (atPlaces (decimalPlaces precision (significant precision n d).leading) n d)
    · rw [plain, Layout.trimZeros, if_neg (by simpa using undotted)]
      exact some
    · rw [pointed]
      exact fun none => some (List.prefix_nil.mp (none ▸ prefix_trimZeros undotted))

/-! ### Values -/

/-- A text that can stand in a column of values. -/
structure Figure (text : String) : Prop where
  marks : Marks 5000 text.toList
  some : text.toList ≠ []

theorem Figure.ofShort {text : String} (seen : ∀ c ∈ text.toList, Graphic c)
    (some : text.toList ≠ []) (short : text.toList.length ≤ 4) : Figure text :=
  ⟨⟨seen, short.trans (by decide)⟩, some⟩

theorem utf8ByteSize_bounds (text : String) :
    text.toList.length ≤ text.utf8ByteSize ∧ text.utf8ByteSize ≤ 4 * text.toList.length := by
  rw [← String.ofList_toList (s := text), String.toList_ofList]
  induction text.toList with
  | nil => exact ⟨Nat.zero_le _, Nat.zero_le _⟩
  | cons c rest ih =>
    have least := c.utf8Size_pos
    have most := c.utf8Size_le_four
    rw [String.ofList_cons, String.utf8ByteSize_append, String.utf8ByteSize_singleton,
      List.length_cons]
    omega

theorem Figure.fits {text : String} (h : Figure text) : text.utf8ByteSize < 2 ^ 16 := by
  have bytes := (utf8ByteSize_bounds text).2
  have short := h.marks.short
  omega

theorem lt_ten_pow {x k n : Nat} (below : x < 2 ^ k) (fits : k ≤ n) : x < 10 ^ n :=
  Nat.lt_of_lt_of_le below ((Nat.pow_le_pow_right (by decide) fits).trans
    (Nat.pow_le_pow_left (by decide) n))

theorem quotient_lt {m : Nat} {e : Int} (small : m < 2 ^ 53) (low : -1074 ≤ e) (high : e ≤ 971) :
    (Digits.quotient m e).1 < 10 ^ 1100 ∧ (Digits.quotient m e).2 < 10 ^ 1100 := by
  have one : 1 < 2 ^ 1 := by decide
  unfold Digits.quotient
  split
  · have scaled := Nat.mul_lt_mul_of_pos_right small (Nat.pow_pos (n := e.toNat) Nat.two_pos)
    rw [← Nat.pow_add] at scaled
    exact ⟨lt_ten_pow (n := 1100) scaled (by omega), lt_ten_pow (n := 1100) one (by decide)⟩
  · have power : 2 ^ (-e).toNat < 2 ^ ((-e).toNat + 1) := Nat.pow_lt_pow_succ (by decide)
    exact ⟨lt_ten_pow (n := 1100) small (by decide), lt_ten_pow (n := 1100) power (by omega)⟩

theorem signed_figure {negative : Bool} {magnitude : List Char} (marks : Marks 4999 magnitude)
    (some : magnitude ≠ []) : Figure (Binary64.signed negative magnitude) := by
  unfold Binary64.signed
  constructor
  · rw [String.toList_ofList]
    split
    · exact .cons (by decide) marks
    · exact marks.mono (Nat.le_succ _)
  · rw [String.toList_ofList]
    split
    · exact List.cons_ne_nil _ _
    · exact some

theorem general_figure (x : Binary64) : Figure (x.general 4) := by
  unfold Binary64.general
  split
  · exact .ofShort (by simp [Graphic]) (by decide) (by decide)
  · have infinite : Marks 3 ['i', 'n', 'f'] := ⟨by simp [Graphic], by decide⟩
    exact signed_figure (infinite.mono (by decide)) (by decide)
  · rename_i negative m e known
    obtain ⟨small, low, high⟩ := Binary64.datum_bounds known
    obtain ⟨numerator, denominator⟩ := quotient_lt small low high
    split
    · exact .ofShort (by simp [Graphic]) (by decide) (by decide)
    · have magnitude : Marks _ (generalMagnitude 4 _ _) :=
        generalMagnitude_marks (by decide) (by decide) numerator denominator
      exact signed_figure (magnitude.mono (by decide)) (generalMagnitude_ne_nil 4 _ _)

theorem valueText_figure (type : MetricType) (e : Element) : Figure (Report.valueText type e) := by
  cases type with
  | flag =>
    simp only [Report.valueText]
    split
    · exact .ofShort (by simp [Graphic]) (by decide) (by decide)
    · exact .ofShort (by simp [Graphic]) (by decide) (by decide)
  | gauge => exact general_figure e.converted
  | counter =>
    have below : e.value.toNat < 10 ^ 20 := Nat.lt_trans e.value.toNat_lt (by decide)
    have digits := Marks.numeral (by decide : 0 < 20) below
    simp only [Report.valueText, Nat.toString_eq_ofList_toDigits]
    refine ⟨?_, ?_⟩
    · rw [String.toList_ofList]
      exact digits.mono (by decide)
    · rw [String.toList_ofList]
      exact Nat.toDigits_ne_nil

end Telemetry
