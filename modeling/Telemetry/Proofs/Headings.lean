import Telemetry.Proofs.Missing

/-! Headings with white space around them. The name of a metric is that of its heading, trimmed. Its
type is told by the heading as it stands: white space before it makes no difference, but behind an
ending that makes a counter it makes a gauge, which has the name of a counter and is replayed
without a base. -/
namespace Telemetry

open Replay (Course Engine Scene)
open Replay.Engine (create windowSize)

namespace Text

def AllBlank (text : List Char) : Prop := ∀ c ∈ text, isBlank c = true

variable {l r text : List Char}

theorem trimEnd_append (text : List Char) (right : AllBlank r) :
    trimEnd (text ++ r) = trimEnd text := by
  rw [trimEnd, List.reverse_append, List.dropWhile_append_of_pos, trimEnd]
  intro c member
  exact right c (List.mem_reverse.mp member)

theorem trim_surrounded (text : List Char) (left : AllBlank l) (right : AllBlank r) :
    trim (l ++ (text ++ r)) = trim text := by
  have start : trimStart (l ++ (text ++ r)) = trimStart (text ++ r) :=
    List.dropWhile_append_of_pos left
  rw [trim, start, trimStart, List.dropWhile_append, trim, trimStart]
  split
  · rename_i blank
    have nothing : r.dropWhile isBlank = [] := List.dropWhile_eq_nil_iff.mpr right
    rw [nothing, List.isEmpty_iff.mp blank]
  · exact trimEnd_append _ right

theorem exists_surrounding (text : List Char) :
    ∃ l r, AllBlank l ∧ AllBlank r ∧ text = l ++ (trim text ++ r) := by
  refine ⟨text.takeWhile isBlank, (trimStart text).rtakeWhile isBlank,
    fun c member => List.mem_takeWhile_imp member,
    fun c member => List.mem_rtakeWhile_imp member, ?_⟩
  have back : trim text ++ (trimStart text).rtakeWhile isBlank = trimStart text :=
    List.rdropWhile_append_rtakeWhile
  rw [back, trimStart, List.takeWhile_append_dropWhile]

end Text

open Text (AllBlank isBlank)

def surrounded (l : List Char) (heading : String) (r : List Char) : String :=
  String.ofList (l ++ (heading.toList ++ r))

namespace Column

variable {l r : List Char} {heading : String}

theorem metricName_surrounded (left : AllBlank l) (right : AllBlank r) :
    metricName (surrounded l heading r) = metricName heading := by
  rw [metricName, surrounded, String.toList_ofList, Text.trim_surrounded _ left right, metricName]

theorem ofHeading_type (heading : String) : (ofHeading heading).type =
    if counterEnding.isSuffixOf heading.toList then .counter else .gauge := rfl

/-- The ending has no white space in it, so none before a heading can belong to it. -/
theorem ending_behind_blanks (text : List Char) (left : AllBlank l) :
    counterEnding <:+ l ++ text ↔ counterEnding <:+ text := by
  constructor
  · intro ends
    rcases List.suffix_or_suffix_of_suffix ends (List.suffix_append l text) with inside | ⟨x, whole⟩
    · exact inside
    · -- the rest of the ending would be white space
      obtain ⟨y, split⟩ := ends
      rw [← whole, ← List.append_assoc] at split
      have front := List.append_cancel_right split
      cases x with
      | nil => exact ⟨[], whole.symm⟩
      | cons c x =>
        have first : c = '_' := (List.cons.inj whole).1
        have blank := left c (front ▸ List.mem_append_right y List.mem_cons_self)
        rw [first] at blank
        cases blank
  · intro ends
    exact ends.trans (List.suffix_append l text)

theorem ending_before_blank (text : List Char) (right : AllBlank r) (some : r ≠ []) :
    ¬ counterEnding <:+ text ++ r := by
  rintro ⟨y, whole⟩
  have last := congrArg List.getLast? whole
  rw [List.getLast?_append_of_ne_nil _ some, List.getLast?_append_of_ne_nil _ (by decide),
    List.getLast?_eq_some_getLast some] at last
  have blank := right _ (List.getLast_mem some)
  rw [← Option.some.inj last] at blank
  cases blank

theorem type_surrounded (left : AllBlank l) (right : AllBlank r) :
    (ofHeading (surrounded l heading r)).type =
      if r = [] then (ofHeading heading).type else .gauge := by
  simp only [ofHeading_type, surrounded, String.toList_ofList, List.isSuffixOf_iff_suffix]
  by_cases plain : r = []
  · rw [plain, List.append_nil, if_pos rfl]
    simp only [ending_behind_blanks _ left]
  · rw [if_neg plain, if_neg]
    rw [← List.append_assoc]
    exact ending_before_blank _ right plain

/-- There is white space at the end of a heading. -/
def blankBehind (heading : String) : Bool := heading.toList.getLast?.any isBlank

theorem type_trimmed {heading : String} (ends : counterEnding <:+ trimmed heading) :
    (ofHeading heading).type = if blankBehind heading then .gauge else .counter := by
  obtain ⟨l, r, left, right, split⟩ := Text.exists_surrounding heading.toList
  have whole : heading = surrounded l (String.ofList (trimmed heading)) r := by
    rw [surrounded, String.toList_ofList, trimmed, ← split, String.ofList_toList]
  have counter : (ofHeading (String.ofList (trimmed heading))).type = .counter := by
    rw [ofHeading_type, String.toList_ofList, if_pos (List.isSuffixOf_iff_suffix.mpr ends)]
  have type : (ofHeading heading).type =
      if r = [] then (ofHeading (String.ofList (trimmed heading))).type else .gauge := by
    rw [← type_surrounded left right, ← whole]
  rw [counter] at type
  rw [type]
  by_cases plain : r = []
  · obtain ⟨front, last⟩ := ends
    have bare : blankBehind heading = false := by
      rw [blankBehind, split, plain, List.append_nil, ← trimmed, ← last, ← List.append_assoc,
        List.getLast?_append_of_ne_nil _ (by decide)]
      rfl
    rw [if_pos plain, bare]
    rfl
  · have blank : blankBehind heading = true := by
      rw [blankBehind, split, ← List.append_assoc, List.getLast?_append_of_ne_nil _ plain,
        List.getLast?_eq_some_getLast plain]
      exact right _ (List.getLast_mem plain)
    rw [if_neg plain, blank]
    rfl

theorem name_trimmed {heading : String} (ends : counterEnding <:+ trimmed heading) :
    counterEnding <:+ (ofHeading heading).name.toList := by
  have guarded (text : List Char) (some : text ≠ []) : text <:+ guardStart text := by
    cases text with
    | nil => exact absurd rfl some
    | cons c rest =>
      simp only [guardStart]
      split
      · exact List.suffix_cons _ _
      · exact List.suffix_rfl
  have kept : counterEnding.map (fun c => if isAsciiAlphanumeric c then c else '_') =
      counterEnding := by decide
  have mapped := ends.map fun c => if isAsciiAlphanumeric c then c else '_'
  rw [kept] at mapped
  have name : (ofHeading heading).name.toList =
      guardStart ((trimmed heading).map fun c => if isAsciiAlphanumeric c then c else '_') := by
    rw [ofHeading, metricName, String.toList_ofList, trimmed]
  rw [name]
  refine mapped.trans (guarded _ fun none => ?_)
  rw [none] at mapped
  exact absurd (List.suffix_nil.mp mapped) (by decide)

end Column

open Column (counterEnding blankBehind)

/-- **White space behind a heading takes the type of a counter from it.** White space around a
heading changes nothing else: the name of the metric is the same, and so is the type as long as
there is none behind. A column whose trimmed heading ends in `_total` has the name of a counter; it
is one, and is replayed on a base that grows with every loop, just if no white space follows that
ending. -/
theorem heading_ending_counts (bytes : List UInt8) (t : Sheet) (d : Dataset)
    (settings : Replay.Settings) (window : Nat) (metrics : Option SelfMetrics) (opening : Scene)
    (accepted : d.Accepted bytes) (spelled : t.Spelled bytes)
    (own : opening.windows[window]? = some (.ofSize .memory (windowSize d))) :
    (∀ i heading l r, t.headings[i]? = some heading → AllBlank l → AllBlank r →
      d.columns[i]? = some (Column.ofHeading heading) ∧
      ∀ others, (t.withHeading i (surrounded l heading r)).Spelled others →
        Dataset.ofBytes? others = .ok ⟨d.columns.set i ⟨(Column.ofHeading heading).name,
          if r = [] then (Column.ofHeading heading).type else .gauge⟩, d.rows⟩) ∧
    ∀ k log e s, Course (create d settings window metrics) opening k log e s →
      ∀ i heading, t.headings[i]? = some heading → counterEnding <:+ trimmed heading →
      ∃ column, d.columns[i]? = some column ∧ counterEnding <:+ column.name.toList ∧
        if blankBehind heading then column.type = .gauge ∧ e.base[i]? = some 0
        else column.type = .counter ∧ e.base[i]? = some (UInt64.ofNat (k * d.total i)) := by
  have read : t.dataset? = .ok d := spelled.ofBytes?.symm.trans accepted.read
  have column {i : Nat} {heading : String} (there : t.headings[i]? = some heading) :
      d.columns[i]? = some (Column.ofHeading heading) := by
    rw [Sheet.getElem?_columns read, there, Option.map_some]
  constructor
  · intro i heading l r there left right
    refine ⟨column there, fun others spelled => ?_⟩
    have same : Column.ofHeading (surrounded l heading r) = ⟨(Column.ofHeading heading).name,
        if r = [] then (Column.ofHeading heading).type else .gauge⟩ := by
      rw [← Column.type_surrounded left right]
      exact congrArg (Column.mk · _) (Column.metricName_surrounded left right)
    rw [spelled.ofBytes?, Sheet.withHeading_dataset? read, same]
  · intro k log e s course i heading there ends
    have opens := Replay.create_opens accepted settings metrics own
    have based := course.getElem?_base opens (column there)
    refine ⟨_, column there, Column.name_trimmed ends, ?_⟩
    rw [based, Column.type_trimmed ends, Dataset.base, Column.type_trimmed ends]
    cases blankBehind heading with
    | true => exact ⟨rfl, rfl⟩
    | false => exact ⟨rfl, rfl⟩

def spacedHeadings : List UInt8 := "timestamp_ms,c_total ,\tb_total\n0,5,7\n".toUTF8.toList

def spacedSheet : Sheet := ⟨["c_total ", "\tb_total"], [⟨"0", ["5", "7"]⟩]⟩

def spacedData : Dataset :=
  ⟨[⟨"c_total", .gauge⟩, ⟨"b_total", .counter⟩], [⟨0, [some (.ofNat 5), some (.ofNat 7)]⟩]⟩

theorem spacedData_accepted : spacedData.Accepted spacedHeadings :=
  ⟨toOption_some (by decide +kernel), by decide⟩

def blankPair : Scene := ⟨[.ofSize .memory 16], (Site.empty 1 : Site StockDriver).shared⟩

theorem heading_ending_counts_spaced :
    ∃ e, Course (create spacedData loopingSettings 0 none) blankPair 1 [] e blankPair ∧
      e.base[0]? = some 0 ∧ e.base[1]? = some 7 ∧
      spacedData.columns[0]? = some ⟨"c_total", .gauge⟩ := by
  have headings := heading_ending_counts spacedHeadings spacedSheet spacedData loopingSettings 0
    none blankPair spacedData_accepted (by decide +kernel) rfl
  have course : Course (create spacedData loopingSettings 0 none) blankPair 1 [] _ blankPair :=
    .rewinds .opens
  obtain ⟨_, -, -, spaced⟩ := headings.2 _ _ _ _ course 0 "c_total " rfl (by decide +kernel)
  obtain ⟨_, -, -, bare⟩ := headings.2 _ _ _ _ course 1 "\tb_total" rfl (by decide +kernel)
  have first := (headings.1 0 "c_total " [] [] rfl (List.forall_mem_nil _)
    (List.forall_mem_nil _)).1
  refine ⟨_, course, spaced.2, bare.2.trans (by decide +kernel), first.trans ?_⟩
  decide +kernel

/-- A column with a blank behind its heading is a gauge, in fixed point and without a base; it has
the name of a counter, and is one without the blank. -/
theorem blank_behind_counter :
    let e := create spacedData loopingSettings 0 none
    spacedData.Accepted spacedHeadings ∧ spacedSheet.Spelled spacedHeadings ∧
      spacedSheet.headings[0]? = some (surrounded [] "c_total" [' ']) ∧ AllBlank [' '] ∧
      Column.ofHeading "c_total" = ⟨"c_total", .counter⟩ ∧
      spacedData.columns[0]? = some ⟨"c_total", .gauge⟩ ∧
      (Replay.advance 0 0 e blankPair).2.register? 0 0 = some 5000 ∧
      e.rewind.base[0]? = some 0 := by
  refine ⟨spacedData_accepted, by decide +kernel, by decide +kernel, ?_, by decide +kernel, rfl,
    by decide +kernel, by decide +kernel⟩
  intro c member
  rw [List.mem_singleton.mp member]
  rfl

end Telemetry
