import Telemetry.Dataset.Basic
import Telemetry.Proofs.Numerals

/-! Which texts are numbers. A decimal is a sign, digits with at most one point among them, and an
exponent, each of which may be left out as long as there is a digit before the exponent. Beside the
decimals, the reader of binary64 words takes the names of infinity and of a NaN, behind a sign and
in any case; it takes nothing else. -/
namespace Telemetry

open Reader (isDigit digits? digitsFrom exponent? decimal? splitFraction)

inductive Sign where
  | absent
  | plus
  | minus

namespace Sign

def text : Sign → List Char
  | absent => []
  | plus => ['+']
  | minus => ['-']

def negative : Sign → Bool
  | minus => true
  | absent | plus => false

end Sign

structure Exponent where
  letter : Char
  sign : Sign
  digits : List Char
  lettered : letter = 'e' ∨ letter = 'E'
  nonempty : digits ≠ []
  all : ∀ c ∈ digits, isDigit c = true

namespace Exponent

def text : Option Exponent → List Char
  | none => []
  | some x => x.letter :: (x.sign.text ++ x.digits)

def power : Option Exponent → Int
  | none => 0
  | some x => if x.sign.negative then -(digitsFrom 0 x.digits : Int) else digitsFrom 0 x.digits

end Exponent

structure Magnitude where
  whole : List Char
  fraction : Option (List Char)
  exponent : Option Exponent
  whole_all : ∀ c ∈ whole, isDigit c = true
  fraction_all : ∀ c ∈ fraction.getD [], isDigit c = true
  nonempty : whole ≠ [] ∨ fraction.getD [] ≠ []

namespace Magnitude

def pointed : Option (List Char) → List Char
  | none => []
  | some digits => '.' :: digits

def text (m : Magnitude) : List Char := m.whole ++ (pointed m.fraction ++ Exponent.text m.exponent)

def digits (m : Magnitude) : Nat := digitsFrom (digitsFrom 0 m.whole) (m.fraction.getD [])

def last (m : Magnitude) : Int := Exponent.power m.exponent - (m.fraction.getD []).length

end Magnitude

def infinityNames : List (List Char) := ["inf".toList, "infinity".toList]

def nanName : List Char := "nan".toList

/-- What a text is read as: a decimal by rounding, an infinity or a NaN by its name. -/
inductive Reads : List Char → Binary64 → Prop
  | decimal (s : Sign) (m : Magnitude) :
      Reads (s.text ++ m.text) (Reader.ofDecimal s.negative m.digits m.last)
  | infinity (s : Sign) {name : List Char} : name.map Char.toLower ∈ infinityNames →
      Reads (s.text ++ name) (.infinity s.negative)
  | nan (s : Sign) {name : List Char} : name.map Char.toLower = nanName →
      Reads (s.text ++ name) .nan

def IsDecimal (text : List Char) : Prop := ∃ (s : Sign) (m : Magnitude), text = s.text ++ m.text

def IsInfinity (negative : Bool) (text : List Char) : Prop :=
  ∃ (s : Sign) (name : List Char), s.negative = negative ∧
    name.map Char.toLower ∈ infinityNames ∧ text = s.text ++ name

def IsNaN (text : List Char) : Prop :=
  ∃ (s : Sign) (name : List Char), name.map Char.toLower = nanName ∧ text = s.text ++ name

/-! ### Digits and exponents -/

theorem digits?_iff {text : List Char} {n : Nat} :
    digits? text = some n ↔
      text ≠ [] ∧ (∀ c ∈ text, isDigit c = true) ∧ digitsFrom 0 text = n := by
  unfold digits?
  cases text with
  | nil => simp
  | cons c rest =>
    cases all : (c :: rest).all isDigit with
    | true =>
      have each := List.all_eq_true.mp all
      simp only [List.isEmpty_cons, Bool.not_false, Bool.and_self, if_true, Option.some.injEq]
      exact ⟨fun same => ⟨List.cons_ne_nil _ _, each, same⟩, fun h => h.2.2⟩
    | false =>
      refine iff_of_false (by simp) fun h => ?_
      rw [List.all_eq_true.mpr h.2.1] at all
      cases all

theorem exponent?_letter {c : Char} (letter : c = 'e' ∨ c = 'E') (rest : List Char) :
    exponent? (c :: rest) = match rest with
      | '+' :: digits => (digits? digits).map Int.ofNat
      | '-' :: digits => (digits? digits).map fun n => -(n : Int)
      | digits => (digits? digits).map Int.ofNat := by
  rcases letter with rfl | rfl <;> rfl

theorem exponent?_text (x : Option Exponent) : exponent? (Exponent.text x) = some (Exponent.power x)
    := by
  cases x with
  | none => rfl
  | some x =>
    have read : digits? x.digits = some (digitsFrom 0 x.digits) :=
      digits?_iff.mpr ⟨x.nonempty, x.all, rfl⟩
    rw [Exponent.text, exponent?_letter x.lettered, Exponent.power]
    cases sign : x.sign with
    | plus | minus => simp [Sign.text, Sign.negative, read]
    | absent =>
      obtain ⟨c, rest, front⟩ := List.exists_cons_of_ne_nil x.nonempty
      have digit : isDigit c = true := x.all c (front ▸ List.mem_cons_self)
      rw [Sign.text, List.nil_append]
      split
      · rename_i same
        rw [same] at front
        cases (List.cons.inj front).1
        cases digit
      · rename_i same
        rw [same] at front
        cases (List.cons.inj front).1
        cases digit
      · rw [read]
        rfl

theorem exponent?_sound {text : List Char} {e : Int} (read : exponent? text = some e) :
    ∃ x, Exponent.text x = text ∧ Exponent.power x = e := by
  have signed {c : Char} (letter : c = 'e' ∨ c = 'E') (s : Sign) {digits : List Char} {n : Nat}
      (known : digits? digits = some n) : ∃ x, Exponent.text x = c :: (s.text ++ digits) ∧
        Exponent.power x = if s.negative then -(n : Int) else n := by
    obtain ⟨some, all, rfl⟩ := digits?_iff.mp known
    exact ⟨Option.some ⟨c, s, digits, letter, some, all⟩, rfl, rfl⟩
  unfold exponent? at read
  split at read
  · cases read
    exact ⟨none, rfl, rfl⟩
  · rename_i c rest
    split at read
    · rename_i either
      have letter : c = 'e' ∨ c = 'E' := by simpa using either
      split at read
      · obtain ⟨n, known, rfl⟩ := Option.map_eq_some_iff.mp read
        exact signed letter .plus known
      · rename_i digits
        cases known : digits? digits with
        | none =>
          rw [known] at read
          cases read
        | some n =>
          rw [known] at read
          cases read
          exact signed letter .minus known
      · obtain ⟨n, known, rfl⟩ := Option.map_eq_some_iff.mp read
        exact signed letter .absent known
    · cases read

/-! ### Decimals -/

namespace Magnitude

theorem exponent_stops (x : Option Exponent) :
    splitFraction (Exponent.text x) = ([], Exponent.text x) ∧
      ∀ c, (Exponent.text x).head? = some c → isDigit c = false := by
  cases x with
  | none => exact ⟨rfl, fun c first => by cases first⟩
  | some x =>
    rw [Exponent.text]
    rcases x.lettered with letter | letter
    all_goals
      rw [letter]
      exact ⟨rfl, fun c first => by cases first; rfl⟩

theorem decimal?_text (m : Magnitude) : decimal? m.text = some (m.digits, m.last) := by
  obtain ⟨unpointed, stops⟩ := exponent_stops m.exponent
  have split : m.text.takeWhile isDigit = m.whole ∧
      splitFraction (m.text.dropWhile isDigit) =
        (m.fraction.getD [], Exponent.text m.exponent) := by
    unfold text
    cases plain : m.fraction with
    | none =>
      obtain ⟨taken, left⟩ := Numeral.split_digits m.whole_all stops
      rw [pointed, List.nil_append, taken, left, unpointed]
      exact ⟨rfl, rfl⟩
    | some digits =>
      have all := m.fraction_all
      rw [plain] at all
      have point (c : Char)
          (first : ('.' :: (digits ++ Exponent.text m.exponent)).head? = some c) :
          isDigit c = false := by
        cases first
        rfl
      obtain ⟨taken, left⟩ := Numeral.split_digits m.whole_all point
      obtain ⟨fraction, rest⟩ := Numeral.split_digits all stops
      rw [pointed, List.cons_append, taken, left, splitFraction]
      exact ⟨rfl, Prod.ext fraction rest⟩
  have some : (m.whole.isEmpty && (m.fraction.getD []).isEmpty) = false := by
    rw [Bool.and_eq_false_iff, List.isEmpty_eq_false_iff, List.isEmpty_eq_false_iff]
    exact m.nonempty
  rw [decimal?, split.1, split.2, some, exponent?_text]
  rfl

theorem splitFraction_spec (text : List Char) :
    ∃ fraction : Option (List Char), fraction.getD [] = (splitFraction text).1 ∧
      pointed fraction ++ (splitFraction text).2 = text ∧
      ∀ c ∈ fraction.getD [], isDigit c = true := by
  unfold splitFraction
  split
  · rename_i rest
    refine ⟨some (rest.takeWhile isDigit), rfl, ?_, fun c member => List.mem_takeWhile_imp member⟩
    rw [pointed, List.cons_append, List.takeWhile_append_dropWhile]
  · exact ⟨none, rfl, rfl, List.forall_mem_nil _⟩

theorem decimal?_sound {text : List Char} {n : Nat} {e : Int} (read : decimal? text = some (n, e)) :
    ∃ m : Magnitude, m.text = text ∧ m.digits = n ∧ m.last = e := by
  obtain ⟨fraction, front, whole, all⟩ := splitFraction_spec (text.dropWhile isDigit)
  simp only [decimal?] at read
  split at read
  · cases read
  · rename_i some
    obtain ⟨power, known, same⟩ := Option.map_eq_some_iff.mp read
    obtain ⟨x, written, rfl⟩ := exponent?_sound known
    cases same
    rw [Bool.not_eq_true, Bool.and_eq_false_iff, List.isEmpty_eq_false_iff,
      List.isEmpty_eq_false_iff, ← front] at some
    refine ⟨⟨_, fraction, x, fun c member => List.mem_takeWhile_imp member, all, some⟩, ?_, ?_, ?_⟩
    · rw [Magnitude.text, written, whole, List.takeWhile_append_dropWhile]
    · rw [Magnitude.digits, front]
    · rw [Magnitude.last, front]

theorem text_head (m : Magnitude) : ∃ c, m.text.head? = some c ∧ (isDigit c = true ∨ c = '.') := by
  cases digits : m.whole with
  | cons c rest =>
    have digit : isDigit c = true := m.whole_all c (digits ▸ List.mem_cons_self)
    exact ⟨c, by rw [text, digits]; rfl, .inl digit⟩
  | nil =>
    cases point : m.fraction with
    | none =>
      have nothing := m.nonempty
      rw [digits, point] at nothing
      rcases nothing with none | none <;> exact absurd rfl none
    | some fraction => exact ⟨'.', by rw [text, digits, point]; rfl, .inr rfl⟩

end Magnitude

/-! ### Names -/

namespace Reader

theorem magnitude?_eq (negative : Bool) (text : List Char) : magnitude? negative text =
    if text.map Char.toLower ∈ infinityNames then some (.infinity negative)
    else if text.map Char.toLower = nanName then some .nan
    else decimalMagnitude? negative text := by
  have named (name : String) :
      String.ofList (text.map Char.toLower) = name ↔ text.map Char.toLower = name.toList := by
    constructor
    · rintro rfl
      rw [String.toList_ofList]
    · intro same
      rw [same, String.ofList_toList]
  unfold magnitude?
  split
  · rename_i inf
    rw [if_pos ((named _).mp inf ▸ List.mem_cons_self)]
  · rename_i infinity
    rw [if_pos ((named _).mp infinity ▸ List.mem_cons_of_mem _ List.mem_cons_self)]
  · rename_i nan
    have same : text.map Char.toLower = nanName := (named _).mp nan
    rw [same, if_neg (by decide), if_pos rfl]
  · rename_i inf infinity nan
    have infinite : text.map Char.toLower ∉ infinityNames := by
      intro member
      rcases List.mem_cons.mp member with same | member
      · exact inf ((named _).mpr same)
      · exact infinity ((named _).mpr (List.mem_singleton.mp member))
    have number : text.map Char.toLower ≠ nanName := fun same => nan ((named _).mpr same)
    rw [if_neg infinite, if_neg number]

theorem toLower_digit {c : Char} (digit : isDigit c = true) : c.toLower = c := by
  simp only [isDigit, Bool.and_eq_true, decide_eq_true_eq, Char.le_def, UInt32.le_iff_toNat_le]
    at digit
  unfold Char.toLower
  rw [dif_neg]
  rintro ⟨least, -⟩
  rw [ge_iff_le, UInt32.le_iff_toNat_le] at least
  exact absurd (least.trans digit.2) (by decide)

theorem isDigit_head {c : Char} (first : isDigit c = true ∨ c = '.') {d : Char}
    (other : isDigit d = false ∧ d ≠ '.') : c ≠ d := by
  rintro rfl
  rcases first with digit | point
  · exact absurd (digit.symm.trans other.1) (by decide)
  · exact other.2 point

theorem name_apart (m : Magnitude) :
    m.text.map Char.toLower ∉ infinityNames ∧ m.text.map Char.toLower ≠ nanName := by
  obtain ⟨c, first, kind⟩ := m.text_head
  have lower : (m.text.map Char.toLower).head? = some c := by
    rw [List.head?_map, first]
    rcases kind with digit | rfl
    · exact congrArg some (toLower_digit digit)
    · rfl
  have other {d : Char} (name : isDigit d = false ∧ d ≠ '.') (rest : List Char) :
      m.text.map Char.toLower ≠ d :: rest := by
    intro same
    rw [same] at lower
    exact isDigit_head kind name (Option.some.inj lower).symm
  refine ⟨fun member => ?_, other (by decide) _⟩
  rcases List.mem_cons.mp member with same | member
  · exact other (by decide) _ same
  · exact other (by decide) _ (List.mem_singleton.mp member)

theorem magnitude?_iff {negative : Bool} {text : List Char} {x : Binary64} :
    magnitude? negative text = some x ↔
      (text.map Char.toLower ∈ infinityNames ∧ x = .infinity negative) ∨
      (text.map Char.toLower = nanName ∧ x = .nan) ∨
      ∃ m : Magnitude, m.text = text ∧ x = ofDecimal negative m.digits m.last := by
  rw [magnitude?_eq]
  constructor
  · intro read
    split at read
    · rename_i infinite
      exact .inl ⟨infinite, (Option.some.inj read).symm⟩
    · split at read
      · rename_i number
        exact .inr (.inl ⟨number, (Option.some.inj read).symm⟩)
      · rw [decimalMagnitude?_eq] at read
        obtain ⟨⟨n, e⟩, known, rfl⟩ := Option.map_eq_some_iff.mp read
        obtain ⟨m, same, rfl, rfl⟩ := Magnitude.decimal?_sound known
        exact .inr (.inr ⟨m, same, rfl⟩)
  · rintro (⟨infinite, rfl⟩ | ⟨number, rfl⟩ | ⟨m, rfl, rfl⟩)
    · rw [if_pos infinite]
    · rw [number, if_neg (by decide), if_pos rfl]
    · rw [if_neg (name_apart m).1, if_neg (name_apart m).2, decimalMagnitude?_eq,
        m.decimal?_text]
      rfl

theorem magnitude?_head {text : List Char} {negative : Bool} {x : Binary64}
    (read : magnitude? negative text = some x) :
    text.head? ≠ some '+' ∧ text.head? ≠ some '-' := by
  have named {d : Char} {rest : List Char} (lower : text.map Char.toLower = d :: rest)
      {sign : Char} (other : sign.toLower ≠ d) : text.head? ≠ some sign := by
    intro first
    have head := congrArg List.head? lower
    rw [List.head?_map, first] at head
    exact other (Option.some.inj head)
  rcases magnitude?_iff.mp read with ⟨infinite, -⟩ | ⟨number, -⟩ | ⟨m, rfl, -⟩
  · rcases List.mem_cons.mp infinite with same | member
    · exact ⟨named same (by decide), named same (by decide)⟩
    · have same := List.mem_singleton.mp member
      exact ⟨named same (by decide), named same (by decide)⟩
  · exact ⟨named number (by decide), named number (by decide)⟩
  · obtain ⟨c, first, kind⟩ := m.text_head
    rw [first]
    exact ⟨fun same => isDigit_head kind (by decide) (Option.some.inj same),
      fun same => isDigit_head kind (by decide) (Option.some.inj same)⟩

theorem reads_iff {text : List Char} {x : Binary64} :
    Reads text x ↔
      ∃ s rest, text = Sign.text s ++ rest ∧ magnitude? s.negative rest = some x := by
  constructor
  · intro reads
    cases reads with
    | decimal s m => exact ⟨s, _, rfl, magnitude?_iff.mpr (.inr (.inr ⟨m, rfl, rfl⟩))⟩
    | infinity s infinite => exact ⟨s, _, rfl, magnitude?_iff.mpr (.inl ⟨infinite, rfl⟩)⟩
    | nan s number => exact ⟨s, _, rfl, magnitude?_iff.mpr (.inr (.inl ⟨number, rfl⟩))⟩
  · rintro ⟨s, rest, rfl, read⟩
    rcases magnitude?_iff.mp read with ⟨infinite, rfl⟩ | ⟨number, rfl⟩ | ⟨m, rfl, rfl⟩
    · exact .infinity s infinite
    · exact .nan s number
    · exact .decimal s m

/-- A text is read as a binary64 word just if it is a decimal or a name, and as what that stands
for. -/
theorem binary64?_iff {text : String} {x : Binary64} :
    binary64? text = some x ↔ Reads text.toList x := by
  rw [reads_iff]
  constructor
  · intro read
    unfold binary64? at read
    split at read
    · rename_i rest signed
      exact ⟨.plus, rest, signed, read⟩
    · rename_i rest signed
      exact ⟨.minus, rest, signed, read⟩
    · exact ⟨.absent, text.toList, rfl, read⟩
  · rintro ⟨s, rest, spelled, read⟩
    unfold binary64?
    rw [spelled]
    cases s with
    | plus | minus => exact read
    | absent =>
      obtain ⟨plus, minus⟩ := magnitude?_head read
      rw [Sign.text, List.nil_append]
      split
      · exact absurd rfl plus
      · exact absurd rfl minus
      · exact read

end Reader

/-! ### Missing cells -/

def trimmed (text : String) : List Char := Text.trim text.toList

/-- A cell with no number in it, neither in digits nor by a name. -/
structure IsMissing (text : String) : Prop where
  decimal : ¬ IsDecimal (trimmed text)
  infinity : ∀ negative, ¬ IsInfinity negative (trimmed text)
  nan : ¬ IsNaN (trimmed text)

theorem cell_iff {text : String} {x : Binary64} :
    DataRow.cell text = some x ↔ Reads (trimmed text) x := by
  rw [DataRow.cell, Reader.binary64?_iff, String.toList_ofList, trimmed]

theorem cell_infinity {text : String} {negative : Bool}
    (infinite : IsInfinity negative (trimmed text)) :
    DataRow.cell text = some (.infinity negative) := by
  obtain ⟨s, name, rfl, named, spelled⟩ := infinite
  rw [cell_iff, spelled]
  exact .infinity s named

theorem cell_nan {text : String} (number : IsNaN (trimmed text)) :
    DataRow.cell text = some .nan := by
  obtain ⟨s, name, named, spelled⟩ := number
  rw [cell_iff, spelled]
  exact .nan s named

theorem cell_none_iff {text : String} : DataRow.cell text = none ↔ IsMissing text := by
  constructor
  · intro none
    have unread {plain : List Char} {x : Binary64} (spelled : trimmed text = plain)
        (reads : Reads plain x) : False := by
      rw [cell_iff.mpr (spelled ▸ reads)] at none
      cases none
    refine ⟨?_, ?_, ?_⟩
    · rintro ⟨s, m, spelled⟩
      exact unread spelled (.decimal s m)
    · rintro negative ⟨s, name, -, named, spelled⟩
      exact unread spelled (.infinity s named)
    · rintro ⟨s, name, named, spelled⟩
      exact unread spelled (.nan s named)
  · intro missing
    rw [Option.eq_none_iff_forall_not_mem]
    intro x read
    have reads : Reads (trimmed text) x := cell_iff.mp read
    generalize spelled : trimmed text = plain at reads
    cases reads with
    | decimal s m => exact missing.decimal ⟨s, m, spelled⟩
    | infinity s named => exact missing.infinity _ ⟨s, _, rfl, named, spelled⟩
    | nan s named => exact missing.nan ⟨s, _, named, spelled⟩

end Telemetry
