import Telemetry.Proofs.Figures
import Telemetry.Proofs.Naming

/-! The report as a whole. It has one line of its own for each element that the filter takes, in the
arrangement of the names shown, with all names flush right; widths are counted in bytes and blanks in
characters, and bytes are never fewer. -/
namespace Telemetry

namespace Report

open Text

/-! ### Widths -/

theorem foldl_max_lt {sizes : List Nat} {least bound : Nat} :
    sizes.foldl max least < bound ↔ least < bound ∧ ∀ size ∈ sizes, size < bound := by
  induction sizes generalizing least with
  | nil => simp
  | cons size rest ih =>
    rw [List.foldl_cons, ih, Nat.max_lt, List.forall_mem_cons, and_assoc]

theorem widest_lt {texts : List String} {bound : Nat} (some : 0 < bound) :
    widest texts < bound ↔ ∀ text ∈ texts, text.utf8ByteSize < bound := by
  rw [widest, foldl_max_lt, List.forall_mem_map]
  exact and_iff_right some

/-! ### Ends of lines -/

theorem trimEnd_marked (text : List Char) {c : Char} (seen : isBlank c = false) :
    trimEnd (text ++ [c]) = text ++ [c] := by
  rw [trimEnd, List.reverse_append, List.reverse_singleton, List.singleton_append,
    List.dropWhile_cons_of_neg (by simp [seen]), List.reverse_cons, List.reverse_reverse]

theorem trimEnd_padded (text : List Char) (n : Nat) :
    trimEnd (text ++ List.replicate n ' ') = trimEnd text := by
  induction n with
  | zero => simp
  | succ n ih =>
    rw [List.replicate_succ', ← List.append_assoc, trimEnd, List.reverse_append,
      List.reverse_singleton, List.singleton_append, List.dropWhile_cons_of_pos (by decide)]
    exact ih

theorem trimEnd_figure (text : List Char) {value : String} (figure : Figure value) :
    trimEnd (text ++ value.toList) = text ++ value.toList := by
  rw [← List.dropLast_append_getLast figure.some, ← List.append_assoc]
  exact trimEnd_marked _ (figure.marks.seen _ (List.getLast_mem figure.some)).isBlank

/-! ### The rules of a line -/

def Entry.Aliased (options : Options) (x : Entry) (name : String) : Prop :=
  options.aliases = true ∧ name ≠ "" ∧ Label.find? x.element.labels "alias" = some name

/-- What an element is called within its block: its alias if it has one, or else the name of its
metric, with the number of the element in an array. -/
inductive Entry.Called (options : Options) (x : Entry) : String → Prop
  | alias {name : String} (has : x.Aliased options name) : Called options x name
  | single (none : ∀ name, ¬ x.Aliased options name)
      (plain : x.visit.metric.spec.flags.array = false) :
      Called options x x.visit.metric.spec.name
  | numbered (none : ∀ name, ¬ x.Aliased options name)
      (array : x.visit.metric.spec.flags.array = true) :
      Called options x (x.visit.metric.spec.name ++ "[" ++ toString x.index ++ "]")

/-- The names of an element that is called `short` within its block. -/
def Entry.nameAt (x : Entry) (short : String) : Level → String
  | .short => short
  | .partialName => x.visit.block ++ "." ++ short
  | .long => x.visit.zone ++ "." ++ (x.visit.block ++ "." ++ short)

/-- The first level at which no other element has the name that this one has there; the last if
there is none, or if long names are wanted. -/
def shortest {n : Nat} (options : Options) (names : Fin n → Level → String) (k : Fin n) : Level :=
  if options.longNames then .long
  else if Alone (fun j => names j .short) k then .short
  else if Alone (fun j => names j .partialName) k then .partialName
  else .long

def Entry.Reads (x : Entry) (text : String) : Prop :=
  match x.visit.metric.spec.type with
  | .flag => text = if x.element.value = 0 then "no" else "yes"
  | .gauge => text = x.element.converted.general 4
  | .counter => text.toList = Nat.toDigits 10 x.element.value.toNat

def Entry.Updated (x : Entry) (text : String) : Prop :=
  match x.visit.lastUpdate with
  | none => text = "never"
  | some time => text = toString (time / 10 ^ 9) ++ "s." ++ toString (time % 10 ^ 9) ++ "ns"

/-- The line with the value of an element. The name ends where the column does, and the colon
follows. -/
def Entry.ValueLine (options : Options) (column width : Nat) (name : String) (x : Entry)
    (line : List Char) : Prop :=
  ∃ value time blanks gap, x.Reads value ∧ x.Updated time ∧
    blanks + name.toList.length = column ∧ gap + value.toList.length = width ∧
    line = List.replicate blanks ' ' ++ name.toList ++ [':', ' '] ++ value.toList ++
      if options.lastUpdate then
        List.replicate gap ' ' ++ "    [".toList ++ time.toList ++ [']']
      else []

/-- The lines below it: one for each exported label, in order, if labels are wanted. -/
def Entry.LabelLines (options : Options) (column : Nat) (x : Entry) (lines : List (List Char)) :
    Prop :=
  ∃ pairs : List (String × String),
    pairs.Perm ((x.element.labels.filter (!·.internal)).map fun l => (l.key, l.value)) ∧
    pairs.Pairwise (fun a b => a.1 < b.1 ∨ a.1 = b.1 ∧ a.2 ≤ b.2) ∧
    lines = if options.labels then pairs.map fun label => List.replicate column ' ' ++
        "  <".toList ++ label.1.toList ++ "=\"".toList ++ label.2.toList ++ "\">".toList
      else []

/-! ### Rows keep the rules -/

section Rules

variable {options : Options} {x : Entry}

theorem alias?_eq_some_iff {name : String} :
    alias? options x.element = some name ↔ x.Aliased options name := by
  simp only [alias?, Entry.Aliased, aliasKey, Option.filter_eq_some_iff, Bool.and_eq_true,
    Bool.not_eq_true', String.isEmpty_eq_false_iff]
  tauto

theorem row_called (options : Options) (x : Entry) : x.Called options (x.row options).short := by
  change x.Called options (shortName options x.visit.metric.spec x.element x.index)
  unfold shortName
  cases named : alias? options x.element with
  | some name => exact .alias (alias?_eq_some_iff.mp named)
  | none =>
    have none (name : String) : ¬ x.Aliased options name := fun has => by
      simp [alias?_eq_some_iff.mpr has] at named
    cases array : x.visit.metric.spec.flags.array with
    | true => exact .numbered none array
    | false => exact .single none array

theorem row_named (options : Options) (x : Entry) :
    (x.row options).named = x.nameAt (x.row options).short := by
  funext level
  cases level <;> rfl

theorem level_eq {n : Nat} (options : Options) (x : Fin n → Entry) (k : Fin n) :
    level options (fun j => (x j).row options) k =
      shortest options (fun j => (x j).nameAt ((x j).row options).short) k := rfl

theorem row_reads (options : Options) (x : Entry) : x.Reads (x.row options).value := by
  change x.Reads (valueText x.visit.metric.spec.type x.element)
  unfold Entry.Reads
  cases x.visit.metric.spec.type with
  | flag => by_cases zero : x.element.value = 0 <;> simp [valueText, zero]
  | gauge => rfl
  | counter => simp [valueText]

theorem row_updated (options : Options) (x : Entry) : x.Updated (x.row options).lastUpdate := by
  change x.Updated (timeText x.visit.lastUpdate)
  unfold Entry.Updated
  cases x.visit.lastUpdate <;> rfl

theorem valueLine_laid {column width : Nat} {name : String}
    (fits : name.toList.length ≤ column)
    (inside : (x.row options).value.toList.length ≤ width)
    (figure : Figure (x.row options).value) :
    x.ValueLine options column width name
      (valueLine options column width name (x.row options)) := by
  refine ⟨_, _, column - name.toList.length, width - (x.row options).value.toList.length,
    row_reads options x, row_updated options x, by omega, by omega, ?_⟩
  unfold valueLine padLeft padRight
  split
  · have time : s!"    [{(x.row options).lastUpdate}]".toList =
        "    [".toList ++ (x.row options).lastUpdate.toList ++ [']'] := by
      change ("    [" ++ (x.row options).lastUpdate ++ "]").toList = _
      rw [String.toList_append, String.toList_append]
      rfl
    simp only [time, ← List.append_assoc]
    exact trimEnd_marked _ (by decide)
  · simp only [← List.append_assoc, List.append_nil]
    rw [trimEnd_padded]
    exact trimEnd_figure _ figure

theorem pairLE_iff {a b : String × String} :
    pairLE a b = true ↔ a.1 < b.1 ∨ a.1 = b.1 ∧ a.2 ≤ b.2 := by
  unfold pairLE
  split
  · rename_i same
    simp [same]
  · rename_i other
    simp only [decide_eq_true_eq, other, false_and, or_false]
    exact ⟨fun le => lt_of_le_of_ne le other, le_of_lt⟩

theorem pairLE_trans (a b c : String × String) (first : pairLE a b = true)
    (second : pairLE b c = true) : pairLE a c = true := by
  rw [pairLE_iff] at first second ⊢
  rcases first with less | ⟨same, le⟩ <;> rcases second with more | ⟨like, also⟩
  · exact .inl (less.trans more)
  · exact .inl (like ▸ less)
  · exact .inl (same ▸ more)
  · exact .inr ⟨same.trans like, le.trans also⟩

theorem pairLE_total (a b : String × String) : (pairLE a b || pairLE b a) = true := by
  rw [Bool.or_eq_true, pairLE_iff, pairLE_iff]
  rcases lt_trichotomy a.1 b.1 with less | same | more
  · exact .inl (.inl less)
  · rcases le_total a.2 b.2 with le | ge
    · exact .inl (.inr ⟨same, le⟩)
    · exact .inr (.inr ⟨same.symm, ge⟩)
  · exact .inr (.inl more)

theorem labelLines_laid (options : Options) (column : Nat) (x : Entry) :
    x.LabelLines options column
      (if options.labels then (x.row options).labels.map (labelLine column) else []) := by
  refine ⟨(x.row options).labels, List.mergeSort_perm _ _,
    (List.pairwise_mergeSort pairLE_trans pairLE_total _).imp pairLE_iff.mp, ?_⟩
  split
  · refine List.map_congr_left fun label _ => ?_
    change padLeft column [] ++ ("  <" ++ label.1 ++ "=\"" ++ label.2 ++ "\">").toList = _
    simp [padLeft, String.toList_append]
  · rfl

end Rules

/-! ### The whole report -/

section Whole

variable {n : Nat} {options : Options} {row : Fin n → Row} {name : Fin n → String}

theorem widest_names_lt (named : ∀ k, displayName options (List.ofFn row) (row k) = name k)
    (bound : Nat) (some : 0 < bound) :
    widest ((naturalSort Group.name (groups options (List.ofFn row))).map (·.name)) < bound ↔
      ∀ k, (name k).utf8ByteSize < bound := by
  rw [widest_lt some]
  constructor
  · intro fit k
    exact fit (name k) ((mem_sorted_groups named _).mpr ⟨k, rfl⟩)
  · intro fit text member
    obtain ⟨k, rfl⟩ := (mem_sorted_groups named text).mp member
    exact fit k

theorem widest_values_lt (row : Fin n → Row) (bound : Nat) (some : 0 < bound) :
    widest ((List.ofFn row).map (·.value)) < bound ↔
      ∀ k, (row k).value.utf8ByteSize < bound := by
  rw [widest_lt some, List.forall_mem_map, List.forall_mem_ofFn_iff]

theorem length_le_of_lt {text : String} {width : Nat} (below : text.utf8ByteSize < width + 1) :
    text.toList.length ≤ width :=
  (utf8ByteSize_bounds text).1.trans (Nat.le_of_lt_succ below)

theorem lines_eq (named : ∀ k, displayName options (List.ofFn row) (row k) = name k)
    (figure : ∀ k, Figure (row k).value) : ∃ column width : Nat,
      (∀ k, (name k).toList.length ≤ column) ∧ (∀ k, (row k).value.toList.length ≤ width) ∧
      lines options (List.ofFn row) =
        if ∃ k, 2 ^ 16 ≤ (name k).utf8ByteSize then .error .layout
        else .ok ((arrangement name).flatMap fun k =>
          rowLines options column width (name k) (row k)) := by
  have values : widest ((List.ofFn row).map (·.value)) < 2 ^ 16 :=
    (widest_values_lt row _ (by decide)).mpr fun k => (figure k).fits
  have names := widest_names_lt named (2 ^ 16) (by decide)
  have below := (widest_names_lt named _ (Nat.succ_pos _)).mp (Nat.lt_succ_self _)
  have inside := (widest_values_lt row _ (Nat.succ_pos _)).mp (Nat.lt_succ_self _)
  simp only [lines, Overflow.unlessFits, if_pos values, names, groups_arrangement named]
  generalize widest ((naturalSort Group.name (groups options (List.ofFn row))).map (·.name)) =
    column at below
  generalize widest ((List.ofFn row).map (·.value)) = width at inside
  refine ⟨column, width, fun k => length_le_of_lt (below k), fun k => length_le_of_lt (inside k), ?_⟩
  by_cases exceeds : ∃ k, 2 ^ 16 ≤ (name k).utf8ByteSize
  · have wide : ¬ ∀ k, (name k).utf8ByteSize < 2 ^ 16 := by
      obtain ⟨k, size⟩ := exceeds
      exact fun fit => Nat.not_lt.mpr size (fit k)
    rw [if_pos exceeds, if_neg wide]
    rfl
  · have narrow : ∀ k, (name k).utf8ByteSize < 2 ^ 16 := fun k =>
      Nat.not_le.mp fun size => exceeds ⟨k, size⟩
    rw [if_neg exceeds, if_pos narrow]
    rfl

end Whole

end Report

namespace Domain

variable {δ : Type}

theorem report_eq (filter : MetricFilter) (options : Report.Options) (d : Domain δ) (s : Shared) :
    d.report filter options s =
      if d.treePoisoned then .error (.fault (.poisonedDomain d.name))
      else match Report.lines options
          (List.ofFn fun k => ((d.reported filter).get k).row options) with
        | .ok lines => .ok (Report.text lines)
        | .error overflow => .error (.fault (.overflow overflow)) := by
  rw [report, d.reportRows_eq, ← d.ofFn_reported filter options, answering]
  cases d.treePoisoned with
  | true => rfl
  | false =>
    cases laid : Report.lines options
        (List.ofFn fun k => ((d.reported filter).get k).row options) with
    | ok lines =>
      change ((Report.lines options _).mapError _).bind _ = _
      rw [laid]
      rfl
    | error overflow =>
      change ((Report.lines options _).mapError _).bind _ = _
      rw [laid]
      rfl

end Domain

end Telemetry
