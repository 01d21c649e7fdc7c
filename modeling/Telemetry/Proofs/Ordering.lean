import Mathlib.Data.List.TakeWhile
import Telemetry.Text.NaturalOrder

/-! Natural order is lexicographic order on tokens: a run of digits is one token, compared by its
value, and every other byte is one. So it is a total preorder on texts, and sorting by it is
stable: texts that compare equal stay in order. -/
namespace Telemetry

namespace NaturalOrder

/-! ### Runs of digits -/

def digitValue (b : UInt8) : Nat := b.toNat - 48

/-- The number that a run of digits stands for, of any length. -/
def runValue (run : List UInt8) : Nat := run.foldl (fun n b => 10 * n + digitValue b) 0

theorem foldl_digits (run : List UInt8) (n : Nat) :
    run.foldl (fun n b => 10 * n + digitValue b) n = 10 ^ run.length * n + runValue run := by
  induction run generalizing n with
  | nil => simp [runValue]
  | cons b rest ih =>
    have here : runValue (b :: rest) = 10 ^ rest.length * digitValue b + runValue rest := by
      rw [runValue, List.foldl_cons, ih, Nat.mul_zero, Nat.zero_add]
    rw [List.foldl_cons, ih, here, List.length_cons, Nat.pow_succ, Nat.mul_add]
    rw [Nat.mul_assoc, Nat.add_assoc]

theorem runValue_cons (b : UInt8) (rest : List UInt8) :
    runValue (b :: rest) = 10 ^ rest.length * digitValue b + runValue rest := by
  rw [runValue, List.foldl_cons, foldl_digits, Nat.mul_zero, Nat.zero_add]

theorem isDigit_iff {b : UInt8} : isDigit b = true ↔ 48 ≤ b.toNat ∧ b.toNat ≤ 57 := by
  simp [isDigit, UInt8.le_iff_toNat_le]

theorem runValue_lt {run : List UInt8} (digits : ∀ b ∈ run, isDigit b = true) :
    runValue run < 10 ^ run.length := by
  induction run with
  | nil => decide
  | cons b rest ih =>
    obtain ⟨first, others⟩ := List.forall_mem_cons.mp digits
    have digit : digitValue b ≤ 9 := by
      have range := isDigit_iff.mp first
      unfold digitValue
      omega
    have small := ih others
    have scaled := Nat.mul_le_mul_left (10 ^ rest.length) digit
    rw [runValue_cons, List.length_cons, Nat.pow_succ]
    omega

theorem runValue_significant (run : List UInt8) : runValue (significant run) = runValue run := by
  induction run with
  | nil => rfl
  | cons b rest ih =>
    unfold significant at *
    cases zero : b == 48 with
    | false => rw [List.dropWhile_cons_of_neg (by simp [zero])]
    | true =>
      have same : digitValue b = 0 := by
        rw [beq_iff_eq.mp zero]
        rfl
      rw [List.dropWhile_cons_of_pos (by exact zero), ih, runValue_cons, same, Nat.mul_zero,
        Nat.zero_add]

theorem compare_toNat (x y : UInt8) : compare x y = compare x.toNat y.toNat := by
  have same : (x = y) = (x.toNat = y.toNat) := propext UInt8.toNat_inj.symm
  simp only [compare, compareOfLessAndEq, UInt8.lt_iff_toNat_lt, same]

theorem compare_places {base x y u v : Nat} (low : u < base) (high : v < base) :
    (compare x y).then (compare u v) = compare (base * x + u) (base * y + v) := by
  rcases Nat.lt_trichotomy x y with less | same | more
  · have step := Nat.mul_le_mul_left base (Nat.succ_le_of_lt less)
    have whole : base * x + u < base * y + v := by
      rw [Nat.mul_succ] at step
      omega
    rw [Nat.compare_eq_lt.mpr less, Nat.compare_eq_lt.mpr whole]
    rfl
  · subst same
    simp only [Nat.compare_eq_ite_lt, Nat.lt_irrefl, if_false, Nat.add_lt_add_iff_left]
    rfl
  · have step := Nat.mul_le_mul_left base (Nat.succ_le_of_lt more)
    have whole : base * y + v < base * x + u := by
      rw [Nat.mul_succ] at step
      omega
    rw [Nat.compare_eq_gt.mpr more, Nat.compare_eq_gt.mpr whole]
    rfl

theorem compareBytes_runs {a b : List UInt8} (same : a.length = b.length)
    (left : ∀ x ∈ a, isDigit x = true) (right : ∀ y ∈ b, isDigit y = true) :
    compareBytes a b = compare (runValue a) (runValue b) := by
  induction a generalizing b with
  | nil =>
    cases b with
    | nil => rfl
    | cons y ys => cases same
  | cons x xs ih =>
    cases b with
    | nil => cases same
    | cons y ys =>
      obtain ⟨x_digit, xs_digits⟩ := List.forall_mem_cons.mp left
      obtain ⟨y_digit, ys_digits⟩ := List.forall_mem_cons.mp right
      have length : xs.length = ys.length := Nat.succ.inj same
      have low := runValue_lt xs_digits
      have high := runValue_lt ys_digits
      rw [← length] at high
      have first : compare x y = compare (digitValue x) (digitValue y) := by
        have x_range := isDigit_iff.mp x_digit
        have y_range := isDigit_iff.mp y_digit
        have less : digitValue x < digitValue y ↔ x.toNat < y.toNat := by
          unfold digitValue
          omega
        have more : digitValue y < digitValue x ↔ y.toNat < x.toNat := by
          unfold digitValue
          omega
        simp only [compare_toNat, Nat.compare_eq_ite_lt, less, more]
      rw [compareBytes, runValue_cons, runValue_cons, ih length xs_digits ys_digits, first,
        ← length]
      exact compare_places low high

theorem significant_digits {run : List UInt8} (digits : ∀ x ∈ run, isDigit x = true) :
    ∀ x ∈ significant run, isDigit x = true := fun x member =>
  digits x ((List.dropWhile_sublist _).subset member)

theorem significant_head (run : List UInt8) {y : UInt8} {ys : List UInt8}
    (front : significant run = y :: ys) : y ≠ 48 := by
  induction run with
  | nil => cases front
  | cons b rest ih =>
    unfold significant at *
    cases zero : b == 48 with
    | true =>
      rw [List.dropWhile_cons_of_pos (by exact zero)] at front
      exact ih front
    | false =>
      rw [List.dropWhile_cons_of_neg (by simp [zero])] at front
      cases front
      exact beq_eq_false_iff_ne.mp zero

theorem runValue_lt_of_length {a b : List UInt8} (left : ∀ x ∈ a, isDigit x = true)
    (right : ∀ y ∈ b, isDigit y = true) (longer : (significant a).length < (significant b).length) :
    runValue a < runValue b := by
  rw [← runValue_significant a, ← runValue_significant b]
  have below := runValue_lt (significant_digits left)
  cases front : significant b with
  | nil =>
    rw [front] at longer
    cases longer
  | cons y ys =>
    have digit : isDigit y = true := by
      apply significant_digits right
      rw [front]
      exact List.mem_cons_self
    have nonzero := significant_head b front
    have leading : 1 ≤ digitValue y := by
      have range := isDigit_iff.mp digit
      have apart : y.toNat ≠ 48 := fun same => nonzero (UInt8.toNat_inj.mp same)
      unfold digitValue
      omega
    rw [front, List.length_cons] at longer
    have power : 10 ^ (significant a).length ≤ 10 ^ ys.length :=
      Nat.pow_le_pow_right (by decide) (Nat.le_of_lt_succ longer)
    have scaled := Nat.mul_le_mul_left (10 ^ ys.length) leading
    rw [runValue_cons]
    omega

theorem compareRuns_eq {a b : List UInt8} (left : ∀ x ∈ a, isDigit x = true)
    (right : ∀ y ∈ b, isDigit y = true) : compareRuns a b = compare (runValue a) (runValue b) := by
  rcases Nat.lt_trichotomy (significant a).length (significant b).length with less | same | more
  · have value := runValue_lt_of_length left right less
    rw [compareRuns, Nat.compare_eq_lt.mpr less, Nat.compare_eq_lt.mpr value]
    rfl
  · rw [compareRuns, Nat.compare_eq_eq.mpr same, compareBytes_runs same (significant_digits left)
      (significant_digits right), runValue_significant, runValue_significant]
    rfl
  · have value := runValue_lt_of_length right left more
    rw [compareRuns, Nat.compare_eq_gt.mpr more, Nat.compare_eq_gt.mpr value]
    rfl

/-! ### Tokens -/

inductive Token where
  /-- A run of digits. -/
  | number (value : Nat)
  | byte (b : UInt8)
deriving DecidableEq

namespace Token

/-- Where a token stands among bytes: a number stands where digits do. -/
def rank : Token → Nat
  | .number _ => 48
  | .byte b => b.toNat

def value : Token → Nat
  | .number value => value
  | .byte _ => 0

protected def compare : Token → Token → Ordering :=
  compareLex (compareOn rank) (compareOn value)

instance : Std.TransCmp Token.compare :=
  inferInstanceAs (Std.TransCmp (compareLex (compareOn rank) (compareOn value)))

theorem compare_of_rank {first second : Token} (apart : first.rank ≠ second.rank) :
    Token.compare first second = compare first.rank second.rank := by
  rw [Token.compare, compareLex, compareOn]
  cases order : compare first.rank second.rank with
  | lt => rfl
  | gt => rfl
  | eq => exact absurd (Nat.compare_eq_eq.mp order) apart

end Token

/-- The tokens of a text: each run of digits is taken whole. -/
def tokens : List UInt8 → List Token
  | [] => []
  | x :: xs =>
    if isDigit x then
      .number (runValue (x :: xs.takeWhile isDigit)) :: tokens (xs.dropWhile isDigit)
    else .byte x :: tokens xs
termination_by bytes => bytes.length
decreasing_by
  · have := (List.dropWhile_sublist (l := xs) isDigit).length_le
    simp; omega
  · simp

theorem tokens_digit {x : UInt8} (xs : List UInt8) (digit : isDigit x = true) :
    tokens (x :: xs) =
      .number (runValue (x :: xs.takeWhile isDigit)) :: tokens (xs.dropWhile isDigit) := by
  rw [tokens, if_pos digit]

theorem tokens_byte {x : UInt8} (xs : List UInt8) (other : isDigit x = false) :
    tokens (x :: xs) = .byte x :: tokens xs := by
  rw [tokens, other]
  rfl

def firstRank (x : UInt8) : Nat := if isDigit x then 48 else x.toNat

theorem tokens_cons (x : UInt8) (xs : List UInt8) :
    ∃ first rest, tokens (x :: xs) = first :: rest ∧ first.rank = firstRank x := by
  unfold firstRank
  cases digit : isDigit x with
  | true => exact ⟨_, _, tokens_digit xs digit, rfl⟩
  | false => exact ⟨_, _, tokens_byte xs digit, rfl⟩

theorem run_digits {x : UInt8} (xs : List UInt8) (digit : isDigit x = true) :
    ∀ y ∈ x :: xs.takeWhile isDigit, isDigit y = true := by
  intro y member
  rcases List.mem_cons.mp member with rfl | member
  · exact digit
  · exact List.mem_takeWhile_imp member

theorem compare_firstRank {x y : UInt8} (apart : (isDigit x && isDigit y) = false)
    (differ : x ≠ y) : compare x y = compare (firstRank x) (firstRank y) ∧
      firstRank x ≠ firstRank y := by
  have differ : x.toNat ≠ y.toNat := fun same => differ (UInt8.toNat_inj.mp same)
  have x_range := isDigit_iff (b := x)
  have y_range := isDigit_iff (b := y)
  have less : firstRank x < firstRank y ↔ x.toNat < y.toNat := by
    unfold firstRank
    split <;> split <;> simp_all <;> omega
  have more : firstRank y < firstRank x ↔ y.toNat < x.toNat := by
    unfold firstRank
    split <;> split <;> simp_all <;> omega
  constructor
  · simp only [compare_toNat, Nat.compare_eq_ite_lt, less, more]
  · omega

/-- Natural order is the lexicographic order of tokens. -/
theorem compareTexts_eq (a b : List UInt8) :
    compareTexts a b = List.compareLex Token.compare (tokens a) (tokens b) := by
  fun_induction compareTexts a b with
  | case1 =>
    rw [tokens, List.compareLex_nil_nil]
  | case2 y ys =>
    obtain ⟨first, rest, cut, -⟩ := tokens_cons y ys
    rw [cut, tokens, List.compareLex_nil_cons]
  | case3 x xs =>
    obtain ⟨first, rest, cut, -⟩ := tokens_cons x xs
    rw [cut, tokens, List.compareLex_cons_nil]
  | case4 x xs y ys digits ih =>
    obtain ⟨x_digit, y_digit⟩ := Bool.and_eq_true_iff.mp digits
    rw [tokens_digit xs x_digit, tokens_digit ys y_digit, List.compareLex_cons_cons, ← ih,
      compareRuns_eq (run_digits xs x_digit) (run_digits ys y_digit)]
    rfl
  | case5 xs x ys digits ih =>
    have other : isDigit x = false := by simpa using digits
    have self : Token.compare (.byte x) (.byte x) = .eq := Std.ReflCmp.compare_self
    rw [tokens_byte xs other, tokens_byte ys other, List.compareLex_cons_cons, ← ih, self]
    rfl
  | case6 x xs y ys digits differ =>
    obtain ⟨same, apart⟩ := compare_firstRank (Bool.eq_false_iff.mpr digits) differ
    obtain ⟨first, rest, x_cut, x_rank⟩ := tokens_cons x xs
    obtain ⟨second, others, y_cut, y_rank⟩ := tokens_cons y ys
    rw [← x_rank, ← y_rank] at same apart
    rw [x_cut, y_cut, List.compareLex_cons_cons, same, Token.compare_of_rank apart]
    cases order : compare first.rank second.rank with
    | lt => rfl
    | gt => rfl
    | eq => exact absurd (Nat.compare_eq_eq.mp order) apart

end NaturalOrder

theorem naturalCompare_eq (a b : String) :
    naturalCompare a b = List.compareLex NaturalOrder.Token.compare
      (NaturalOrder.tokens a.toUTF8.toList) (NaturalOrder.tokens b.toUTF8.toList) :=
  NaturalOrder.compareTexts_eq _ _

instance : Std.TransCmp naturalCompare where
  eq_swap := by
    intro a b
    rw [naturalCompare_eq, naturalCompare_eq]
    exact Std.OrientedCmp.eq_swap
  isLE_trans := by
    intro a b c
    rw [naturalCompare_eq, naturalCompare_eq, naturalCompare_eq]
    exact Std.TransCmp.isLE_trans

/-! ### Sorting -/

section Sorting

variable {α : Type} (key : α → String) (items : List α)

def keepsOrder (a b : α) : Bool := naturalCompare (key a) (key b) != .gt

theorem keepsOrder_eq_isLE (a b : α) :
    keepsOrder key a b = (naturalCompare (key a) (key b)).isLE := by
  unfold keepsOrder
  cases naturalCompare (key a) (key b) <;> rfl

theorem keepsOrder_trans (a b c : α) (first : keepsOrder key a b = true)
    (second : keepsOrder key b c = true) : keepsOrder key a c = true := by
  rw [keepsOrder_eq_isLE] at *
  exact Std.TransCmp.isLE_trans first second

theorem keepsOrder_total (a b : α) : (keepsOrder key a b || keepsOrder key b a) = true := by
  have swapped : naturalCompare (key a) (key b) = (naturalCompare (key b) (key a)).swap :=
    Std.OrientedCmp.eq_swap
  unfold keepsOrder
  rw [swapped]
  cases naturalCompare (key b) (key a) <;> rfl

theorem naturalSort_perm : (naturalSort key items).Perm items := List.mergeSort_perm _ _

theorem naturalSort_ascending :
    (naturalSort key items).Pairwise fun a b => naturalCompare (key a) (key b) ≠ .gt := by
  have sorted := List.pairwise_mergeSort (keepsOrder_trans key) (keepsOrder_total key) items
  exact sorted.imp fun ordered => bne_iff_ne.mp ordered

theorem naturalSort_filter (text : String) :
    (naturalSort key items).filter (fun a => naturalCompare text (key a) == .eq) =
      items.filter fun a => naturalCompare text (key a) == .eq := by
  let alike (a : α) : Bool := naturalCompare text (key a) == .eq
  have inside : (items.filter alike).Sublist (naturalSort key items) := by
    apply List.sublist_mergeSort (keepsOrder_trans key) (keepsOrder_total key)
    · refine List.pairwise_filter.mpr (List.pairwise_of_forall fun a b first second => ?_)
      have back : naturalCompare (key a) text = .eq :=
        Std.OrientedCmp.eq_symm (beq_iff_eq.mp first)
      have same := Std.TransCmp.eq_trans back (beq_iff_eq.mp second)
      rw [keepsOrder, same]
      rfl
    · exact List.filter_sublist
  have fitted := inside.filter alike
  rw [List.filter_filter, List.filter_congr fun a _ => Bool.and_self (alike a)] at fitted
  exact (fitted.eq_of_length ((naturalSort_perm key items).filter alike).length_eq.symm).symm

/-- Items that compare equal stay in the order they came in. -/
theorem naturalSort_stable {R : α → α → Prop} (ordered : items.Pairwise R) :
    (naturalSort key items).Pairwise fun a b => naturalCompare (key a) (key b) = .eq → R a b := by
  rw [List.pairwise_iff_forall_sublist]
  intro a b placed same
  have kept : ((naturalSort key items).filter
      fun x => naturalCompare (key a) (key x) == .eq).Pairwise R := by
    rw [naturalSort_filter]
    exact ordered.filter _
  have pair := List.pairwise_iff_forall_sublist.mp (List.pairwise_filter.mp kept) placed
  exact pair (beq_iff_eq.mpr Std.ReflCmp.compare_self) (beq_iff_eq.mpr same)

end Sorting

end Telemetry
