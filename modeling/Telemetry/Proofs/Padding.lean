import Telemetry.Proofs.Ordering

/-! Texts that compare equal. Natural order takes two texts for the same exactly if they differ in
nothing but zeros in front of their numbers; all else tells them apart. -/
namespace Telemetry

namespace NaturalOrder

/-! ### Runs of one value -/

theorem compareBytes_eq {a b : List UInt8} : compareBytes a b = .eq ↔ a = b := by
  induction a generalizing b with
  | nil => cases b <;> simp [compareBytes]
  | cons x xs ih =>
    cases b with
    | nil => simp [compareBytes]
    | cons y ys =>
      rw [compareBytes, Ordering.then_eq_eq, ih, compare_toNat, Nat.compare_eq_eq,
        UInt8.toNat_inj, List.cons.injEq]

theorem significant_eq {a b : List UInt8} (left : ∀ x ∈ a, isDigit x = true)
    (right : ∀ y ∈ b, isDigit y = true) (same : runValue a = runValue b) :
    significant a = significant b := by
  have runs := compareRuns_eq left right
  rw [Nat.compare_eq_eq.mpr same, compareRuns, Ordering.then_eq_eq] at runs
  exact compareBytes_eq.mp runs.2

theorem zeros_significant (run : List UInt8) :
    ∃ n, run = List.replicate n 48 ++ significant run := by
  refine ⟨(run.takeWhile (· == 48)).length, ?_⟩
  have zeros : run.takeWhile (· == 48) = List.replicate (run.takeWhile (· == 48)).length 48 :=
    List.eq_replicate_of_mem fun x member => by simpa using List.mem_takeWhile_imp member
  rw [← zeros]
  exact (List.takeWhile_append_dropWhile).symm

theorem runValue_zeros (n : Nat) (digits : List UInt8) :
    runValue (List.replicate n 48 ++ digits) = runValue digits := by
  induction n with
  | zero => rfl
  | succ n ih =>
    have zero : digitValue 48 = 0 := rfl
    rw [List.replicate_succ, List.cons_append, runValue_cons, ih, zero, Nat.mul_zero, Nat.zero_add]

theorem same_digits {a b : List UInt8} (left : ∀ x ∈ a, isDigit x = true)
    (right : ∀ y ∈ b, isDigit y = true) (first : a ≠ []) (second : b ≠ [])
    (same : runValue a = runValue b) :
    ∃ m n digits, digits ≠ [] ∧ a = List.replicate m 48 ++ digits ∧
      b = List.replicate n 48 ++ digits := by
  obtain ⟨m, front⟩ := zeros_significant a
  obtain ⟨n, front'⟩ := zeros_significant b
  have kept := significant_eq left right same
  rw [← kept] at front'
  cases digits : significant a with
  | cons d rest =>
    rw [digits] at front front'
    exact ⟨m, n, d :: rest, List.cons_ne_nil _ _, front, front'⟩
  | nil =>
    rw [digits, List.append_nil] at front front'
    obtain ⟨m, rfl⟩ : ∃ k, m = k + 1 := Nat.exists_eq_succ_of_ne_zero fun zero => first (by
      rw [front, zero, List.replicate_zero])
    obtain ⟨n, rfl⟩ : ∃ k, n = k + 1 := Nat.exists_eq_succ_of_ne_zero fun zero => second (by
      rw [front', zero, List.replicate_zero])
    refine ⟨m, n, [48], List.cons_ne_nil _ _, ?_, ?_⟩
    · rw [front, List.replicate_succ']
    · rw [front', List.replicate_succ']

/-! ### Texts of the same tokens -/

def EndsRun (text : List UInt8) : Prop := ∀ b, text.head? = some b → isDigit b = false

/-- Texts that differ in nothing but zeros in front of their runs of digits. Runs are whole, and
some digit stays of each. -/
inductive ZerosApart : List UInt8 → List UInt8 → Prop
  | nil : ZerosApart [] []
  | byte {b : UInt8} {xs ys : List UInt8} :
      isDigit b = false → ZerosApart xs ys → ZerosApart (b :: xs) (b :: ys)
  | run {digits xs ys : List UInt8} (m n : Nat) :
      digits ≠ [] → (∀ d ∈ digits, isDigit d = true) → EndsRun xs → EndsRun ys →
      ZerosApart xs ys →
      ZerosApart (List.replicate m 48 ++ digits ++ xs) (List.replicate n 48 ++ digits ++ ys)

theorem endsRun_dropWhile (text : List UInt8) : EndsRun (text.dropWhile isDigit) := by
  intro b first
  have stops := List.head?_dropWhile_not isDigit text
  rw [first] at stops
  simpa using stops

theorem tokens_run {run rest : List UInt8} (some : run ≠ [])
    (digits : ∀ d ∈ run, isDigit d = true) (whole : EndsRun rest) :
    tokens (run ++ rest) = .number (runValue run) :: tokens rest := by
  cases run with
  | nil => exact absurd rfl some
  | cons x xs =>
    obtain ⟨first, others⟩ := List.forall_mem_cons.mp digits
    have ends : rest.takeWhile isDigit = [] ∧ rest.dropWhile isDigit = rest := by
      cases rest with
      | nil => exact ⟨rfl, rfl⟩
      | cons b rest =>
        have other := whole b rfl
        exact ⟨List.takeWhile_cons_of_neg (by simp [other]),
          List.dropWhile_cons_of_neg (by simp [other])⟩
    rw [List.cons_append, tokens_digit _ first, List.takeWhile_append_of_pos others,
      List.dropWhile_append_of_pos others, ends.1, ends.2, List.append_nil]

def Token.Cut : Token → Prop
  | .number _ => True
  | .byte b => isDigit b = false

theorem tokens_cut (text : List UInt8) : ∀ t ∈ tokens text, t.Cut := by
  fun_induction tokens text with
  | case1 => exact List.forall_mem_nil _
  | case2 x xs digit ih => exact List.forall_mem_cons.mpr ⟨trivial, ih⟩
  | case3 x xs other ih => exact List.forall_mem_cons.mpr ⟨eq_false_of_ne_true other, ih⟩

namespace Token

theorem compare_numbers (v w : Nat) : Token.compare (.number v) (.number w) = compare v w := rfl

theorem compare_bytes (x y : UInt8) : Token.compare (.byte x) (.byte y) = compare x y := by
  rw [compare_toNat]
  exact Ordering.then_eq

theorem compare_number_byte {d b : UInt8} (v : Nat) (digit : isDigit d = true)
    (other : isDigit b = false) : Token.compare (.number v) (.byte b) = compare d b := by
  have apart : d ≠ b := by
    rintro rfl
    cases digit.symm.trans other
  obtain ⟨same, ranks⟩ := compare_firstRank (by rw [other, Bool.and_false]) apart
  have left : firstRank d = 48 := by rw [firstRank, if_pos digit]
  have right : firstRank b = b.toNat := by rw [firstRank, other]; rfl
  rw [left, right] at same ranks
  rw [same]
  exact compare_of_rank ranks

theorem eq_of_compare {t u : Token} (left : t.Cut) (right : u.Cut)
    (same : Token.compare t u = .eq) : t = u := by
  cases t with
  | number v =>
    cases u with
    | number w =>
      rw [compare_numbers, Nat.compare_eq_eq] at same
      rw [same]
    | byte b =>
      rw [compare_number_byte (d := 48) v rfl right, compare_toNat, Nat.compare_eq_eq,
        UInt8.toNat_inj] at same
      subst same
      cases right
  | byte x =>
    cases u with
    | number w =>
      have turned : Token.compare (.byte x) (.number w) =
          (Token.compare (.number w) (.byte x)).swap := Std.OrientedCmp.eq_swap
      rw [turned, Ordering.swap_eq_eq, compare_number_byte (d := 48) w rfl left, compare_toNat,
        Nat.compare_eq_eq, UInt8.toNat_inj] at same
      subst same
      cases left
    | byte y =>
      rw [compare_bytes, compare_toNat, Nat.compare_eq_eq, UInt8.toNat_inj] at same
      rw [same]

end Token

theorem compareLex_tokens {ts us : List Token} (left : ∀ t ∈ ts, t.Cut) (right : ∀ u ∈ us, u.Cut) :
    List.compareLex Token.compare ts us = .eq ↔ ts = us := by
  constructor
  · intro same
    induction ts generalizing us with
    | nil =>
      cases us with
      | nil => rfl
      | cons u us => cases same
    | cons t ts ih =>
      cases us with
      | nil => cases same
      | cons u us =>
        rw [List.compareLex_cons_cons, Ordering.then_eq_eq] at same
        obtain ⟨first, rest⟩ := List.forall_mem_cons.mp left
        obtain ⟨second, others⟩ := List.forall_mem_cons.mp right
        rw [Token.eq_of_compare first second same.1, ih rest others same.2]
  · rintro rfl
    exact Std.ReflCmp.compare_self

/-- Texts have the same tokens exactly if zeros in front of runs are all that they differ in. -/
theorem tokens_eq_iff (a b : List UInt8) : tokens a = tokens b ↔ ZerosApart a b := by
  constructor
  · intro same
    fun_induction tokens a generalizing b with
    | case1 =>
      cases b with
      | nil => exact .nil
      | cons y ys =>
        obtain ⟨first, rest, cut, -⟩ := tokens_cons y ys
        rw [cut] at same
        cases same
    | case2 x xs digit ih =>
      cases b with
      | nil => rw [tokens] at same; cases same
      | cons y ys =>
        cases other : isDigit y with
        | false => rw [tokens_byte ys other] at same; cases same
        | true =>
          rw [tokens_digit ys other] at same
          obtain ⟨value, rest⟩ := List.cons.inj same
          obtain ⟨m, n, digits, some, left, right⟩ := same_digits (run_digits xs digit)
            (run_digits ys other) (List.cons_ne_nil _ _) (List.cons_ne_nil _ _)
            (Token.number.inj value)
          have within : ∀ d ∈ digits, isDigit d = true := fun d member =>
            run_digits xs digit d (left ▸ List.mem_append_right _ member)
          have split (z : UInt8) (zs : List UInt8) :
              z :: zs = (z :: zs.takeWhile isDigit) ++ zs.dropWhile isDigit := by
            rw [List.cons_append, List.takeWhile_append_dropWhile]
          rw [split x xs, split y ys, left, right]
          exact .run m n some within (endsRun_dropWhile xs) (endsRun_dropWhile ys) (ih _ rest)
    | case3 x xs other ih =>
      cases b with
      | nil => rw [tokens] at same; cases same
      | cons y ys =>
        cases digit : isDigit y with
        | true => rw [tokens_digit ys digit] at same; cases same
        | false =>
          rw [tokens_byte ys digit] at same
          obtain ⟨byte, rest⟩ := List.cons.inj same
          cases byte
          exact .byte digit (ih _ rest)
  · intro apart
    induction apart with
    | nil => rfl
    | byte other _ ih => rw [tokens_byte _ other, tokens_byte _ other, ih]
    | @run digits xs ys m n some within left right _ ih =>
      have whole (k : Nat) : ∀ d ∈ List.replicate k 48 ++ digits, isDigit d = true :=
        List.forall_mem_append.mpr ⟨fun d member => List.eq_of_mem_replicate member ▸ rfl, within⟩
      have nonempty (k : Nat) : List.replicate k (48 : UInt8) ++ digits ≠ [] :=
        fun none => some (List.append_eq_nil_iff.mp none).2
      rw [tokens_run (nonempty m) (whole m) left, tokens_run (nonempty n) (whole n) right,
        runValue_zeros, runValue_zeros, ih]

end NaturalOrder

open NaturalOrder in
theorem naturalCompare_eq_iff (a b : String) :
    naturalCompare a b = .eq ↔ ZerosApart a.toUTF8.toList b.toUTF8.toList := by
  rw [naturalCompare_eq, compareLex_tokens (tokens_cut _) (tokens_cut _), tokens_eq_iff]

open NaturalOrder in
/-- **Natural order is a total preorder in which numbers count by value**, for all texts. It is the
lexicographic order of tokens: a whole run of digits is one token, compared by its value, of any
length; every other byte is one, which stands to a number as it does to any digit. Equal are those
texts that differ only in zeros in front of their numbers. -/
theorem natural_order_numeric :
    (∀ a b, naturalCompare a b = (naturalCompare b a).swap) ∧
    (∀ a b c, (naturalCompare a b).isLE → (naturalCompare b c).isLE →
      (naturalCompare a c).isLE) ∧
    Equivalence (fun a b => naturalCompare a b = .eq) ∧
    (∀ a b, naturalCompare a b =
      List.compareLex Token.compare (tokens a.toUTF8.toList) (tokens b.toUTF8.toList)) ∧
    (∀ v w, Token.compare (.number v) (.number w) = compare v w) ∧
    (∀ x y, Token.compare (.byte x) (.byte y) = compare x y) ∧
    (∀ v d b, isDigit d = true → isDigit b = false →
      Token.compare (.number v) (.byte b) = compare d b ∧
      Token.compare (.byte b) (.number v) = compare b d) ∧
    ∀ a b, naturalCompare a b = .eq ↔ ZerosApart a.toUTF8.toList b.toUTF8.toList := by
  refine ⟨fun _ _ => Std.OrientedCmp.eq_swap, fun _ _ _ => Std.TransCmp.isLE_trans, ?_,
    naturalCompare_eq, Token.compare_numbers, Token.compare_bytes, ?_, naturalCompare_eq_iff⟩
  · exact ⟨fun _ => Std.ReflCmp.compare_self, Std.OrientedCmp.eq_symm, Std.TransCmp.eq_trans⟩
  · intro v d b digit other
    have forward := Token.compare_number_byte v digit other
    refine ⟨forward, ?_⟩
    have turned : Token.compare (.byte b) (.number v) =
        (Token.compare (.number v) (.byte b)).swap := Std.OrientedCmp.eq_swap
    rw [turned, forward]
    exact Std.OrientedCmp.eq_swap.symm

example : naturalCompare "q02x" "q2x" = .eq := by cbv

end Telemetry
