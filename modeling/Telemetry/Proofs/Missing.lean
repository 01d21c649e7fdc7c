import Telemetry.Proofs.Courses
import Telemetry.Proofs.Decimals
import Telemetry.Proofs.Replayed
import Telemetry.Proofs.Sheets

/-! Missing cells. A cell that is empty, blank or a word has no part in a replay: its row leaves the
register of its column as it is, a rewind looks past it, and an empty cell in its place makes the
same dataset. That is not so of a cell that names an infinity or a NaN, which is written like a
number. -/
namespace Telemetry

open Replay (Course Engine Scene)
open Replay.Engine (lastCell? create windowSize cellWord)

namespace Sheet

structure LastPresent (t : Sheet) (i : Nat) (text : String) : Prop where
  present : ¬ IsMissing text
  last : ∃ p, t.cell? p i = some text ∧
    ∀ q later, p < q → t.cell? q i = some later → IsMissing later

variable {t : Sheet} {d : Dataset} {i : Nat} {text : String}

theorem cell_missing (read : t.dataset? = .ok d) {q : Nat} {row : DataRow}
    (there : d.rows[q]? = some row) (inside : i < d.columns.length)
    (missing : ∀ later, t.cell? q i = some later → IsMissing later) :
    (row.cells[i]?).join = none := by
  rw [cell_read read there inside]
  cases known : t.cell? q i with
  | none => rfl
  | some later =>
    rw [Option.bind_some]
    exact cell_none_iff.mpr (missing later known)

theorem lastCell?_missing {rows : List DataRow}
    (missing : ∀ row ∈ rows, (row.cells[i]?).join = none) : lastCell? rows i = none := by
  rw [lastCell?, List.findSome?_eq_none_iff]
  intro row member
  exact missing row (List.mem_reverse.mp member)

theorem LastPresent.lastCell? (h : t.LastPresent i text) (read : t.dataset? = .ok d)
    (inside : i < d.columns.length) : lastCell? d.rows i = DataRow.cell text := by
  obtain ⟨p, known, later⟩ := h.last
  obtain ⟨columns, each⟩ := dataset?_ok read
  obtain ⟨texts, here, -⟩ := Option.bind_eq_some_iff.mp known
  obtain ⟨row, there, -⟩ := forall₂_getElem? each here
  obtain ⟨split, -⟩ := split_at there
  have behind : Replay.Engine.lastCell? (d.rows.drop (p + 1)) i = none := by
    apply lastCell?_missing
    intro after member
    obtain ⟨j, same⟩ := List.getElem?_of_mem member
    rw [List.getElem?_drop] at same
    exact cell_missing read same inside fun other => later _ other (by omega)
  have own : (row.cells[i]?).join = DataRow.cell text := by
    rw [cell_read read there inside, known, Option.bind_some]
  rw [split, List.append_cons, Dataset.lastCell?_append, behind, Option.none_or,
    Dataset.lastCell?_snoc, own]
  cases present : DataRow.cell text with
  | none => exact absurd (cell_none_iff.mp present) h.present
  | some x => rfl

end Sheet

/-- What a missing cell comes to, in a state of a replay whose texts are those of a sheet, and what
the cells come to that name an infinity or a NaN. -/
structure Sheet.Inert (t : Sheet) (d : Dataset) (window : Nat) (e : Engine) (s : Scene) : Prop where
  row : ∀ p row i column text, d.rows[p]? = some row → d.columns[i]? = some column →
    t.cell? p i = some text → IsMissing text →
    (e.applyRow row s).register? window i = s.register? window i
  infinity : ∀ p row i column base text negative, d.rows[p]? = some row →
    d.columns[i]? = some column → e.base[i]? = some base → t.cell? p i = some text →
    IsInfinity negative (trimmed text) →
    (e.applyRow row s).register? window i = some (
      if column.type = .counter then (if negative then base else base + UInt64.ofNat (2 ^ 64 - 1))
      else if negative then UInt64.ofNat (2 ^ 63) else UInt64.ofNat (2 ^ 63 - 1))
  nan : ∀ p row i column base text, d.rows[p]? = some row →
    d.columns[i]? = some column → e.base[i]? = some base → t.cell? p i = some text →
    IsNaN (trimmed text) →
    (e.applyRow row s).register? window i = some (if column.type = .counter then base else 0)
  rewind : ∀ i column base, d.columns[i]? = some column → column.type = .counter →
    e.base[i]? = some base →
    (∀ text x, t.LastPresent i text → Reads (trimmed text) x →
      e.rewind.base[i]? = some (base + x.toWord)) ∧
    ((∀ p text, t.cell? p i = some text → IsMissing text) → e.rewind.base[i]? = some base)

/-! ### Words of named cells -/

theorem cellWord_nan {type : MetricType} (types : type = .counter ∨ type = .gauge) (base : UInt64) :
    cellWord type base .nan = if type = .counter then base else 0 := by
  rcases types with rfl | rfl
  · exact UInt64.add_zero base
  · exact (by decide +kernel : (Binary64.nan.mul (.ofWord Replay.gaugeScale)).roundToSignedWord = 0)

theorem cellWord_infinity {type : MetricType} (types : type = .counter ∨ type = .gauge)
    (base : UInt64) (negative : Bool) :
    cellWord type base (.infinity negative) =
      if type = .counter then (if negative then base else base + UInt64.ofNat (2 ^ 64 - 1))
      else if negative then UInt64.ofNat (2 ^ 63) else UInt64.ofNat (2 ^ 63 - 1) := by
  have scaled (negative : Bool) :
      ((Binary64.infinity negative).mul (.ofWord Replay.gaugeScale)).roundToSignedWord =
        if negative then UInt64.ofNat (2 ^ 63) else UInt64.ofNat (2 ^ 63 - 1) := by
    cases negative <;> decide +kernel
  rcases types with rfl | rfl
  · cases negative with
    | true => exact UInt64.add_zero base
    | false => rfl
  · exact scaled negative

theorem Replay.Course.inert {first e : Engine} {opening s : Scene} {k : Nat} {log : Replay.Log}
    {t : Sheet} (h : Course first opening k log e s) (opens : Replay.Opens first opening)
    (read : t.dataset? = .ok first.dataset) : t.Inert first.dataset first.window e s := by
  have written {p i : Nat} {row : DataRow} {column : Column}
      (there : first.dataset.rows[p]? = some row)
      (known : first.dataset.columns[i]? = some column) :=
    h.applyRow_register? opens (List.mem_of_getElem? there) known
  have own {p i : Nat} {row : DataRow} {column : Column} {text : String}
      (there : first.dataset.rows[p]? = some row) (known : first.dataset.columns[i]? = some column)
      (cell : t.cell? p i = some text) : (row.cells[i]?).join = DataRow.cell text := by
    rw [Sheet.cell_read read there (List.getElem?_eq_some_iff.mp known).1, cell, Option.bind_some]
  have types {i : Nat} {column : Column} (known : first.dataset.columns[i]? = some column) :=
    opens.table.types column (List.mem_of_getElem? known)
  have based {i : Nat} {column : Column} {base : UInt64}
      (known : first.dataset.columns[i]? = some column) (here : e.base[i]? = some base) :
      first.dataset.base k i column = base :=
    Option.some.inj ((h.getElem?_base opens known).symm.trans here)
  refine ⟨?_, ?_, ?_, ?_⟩
  · intro p row i column text there known cell missing
    rw [written there known, own there known cell, cell_none_iff.mpr missing]
  · intro p row i column base text negative there known here cell infinite
    rw [written there known, own there known cell, cell_infinity infinite, based known here,
      ← cellWord_infinity (types known)]
  · intro p row i column base text there known here cell number
    rw [written there known, own there known cell, cell_nan number, based known here,
      ← cellWord_nan (types known)]
  · intro i column base known counter here
    have inside := (List.getElem?_eq_some_iff.mp known).1
    rw [h.rewind_base opens known, if_pos counter, based known here, Dataset.lastWord]
    constructor
    · intro text x last reads
      rw [last.lastCell? read inside, cell_iff.mpr reads]
      rfl
    · intro missing
      have none : lastCell? first.dataset.rows i = none := by
        apply Sheet.lastCell?_missing
        intro row member
        obtain ⟨q, there⟩ := List.getElem?_of_mem member
        exact Sheet.cell_missing read there inside (missing q)
      rw [none, Option.map_none, Option.getD_none, UInt64.add_zero]

/-- **Missing cells have no part in a replay.** In every state that a replay can come to, the row of
a missing cell leaves the register of its column as it is, and a rewind adds the last cell that is
not missing; an empty cell in its place makes the same dataset, so the same replay. Beside the
finite numbers, a cell is only present that names an infinity or a NaN. -/
theorem missing_cells_inert (bytes : List UInt8) (t : Sheet) (d : Dataset)
    (settings : Replay.Settings) (window : Nat) (metrics : Option SelfMetrics) (opening : Scene)
    (accepted : d.Accepted bytes) (spelled : t.Spelled bytes)
    (own : opening.windows[window]? = some (.ofSize .memory (windowSize d))) :
    (∀ k log e s, Course (create d settings window metrics) opening k log e s →
      t.Inert d window e s) ∧
    ∀ p i text, t.cell? p i = some text → IsMissing text →
      (t.withCell p i "").dataset? = .ok d ∧
        ∀ others, (t.withCell p i "").Spelled others → Dataset.ofBytes? others = .ok d := by
  have read : t.dataset? = .ok d := spelled.ofBytes?.symm.trans accepted.read
  have opens := Replay.create_opens accepted settings metrics own
  refine ⟨fun k log e s course => course.inert opens read, ?_⟩
  intro p i text there missing
  have empty : DataRow.cell "" = none := rfl
  have same : (t.withCell p i "").dataset? = .ok d := by
    rw [Sheet.withCell_dataset? there (empty.trans (cell_none_iff.mpr missing).symm), read]
  exact ⟨same, fun others spelled => spelled.ofBytes?.trans same⟩

def halfEmptySheet : Sheet := ⟨["c_total"], [⟨"0", ["5"]⟩, ⟨"1", [""]⟩]⟩

theorem halfEmptySheet_spelled : halfEmptySheet.Spelled halfEmpty := by decide +kernel

def blankScene : Scene := ⟨[.ofSize .memory 8], (Site.empty 1 : Site StockDriver).shared⟩

theorem missing_cells_inert_half_empty :
    ∃ log e s row, Course (create halfEmptyData loopingSettings 0 none) blankScene 0 log e s ∧
      halfEmptyData.rows[1]? = some row ∧ s.register? 0 0 = some 5 ∧
      (e.applyRow row s).register? 0 0 = some 5 ∧ e.rewind.base[0]? = some 5 := by
  have first : (⟨0, [some (.ofNat 5)]⟩ : DataRow) ∈ halfEmptyData.rows := List.mem_cons_self
  have written : Course (create halfEmptyData loopingSettings 0 none) blankScene 0 _ _ _ :=
    .writes .opens first
  have inert := (missing_cells_inert halfEmpty halfEmptySheet halfEmptyData loopingSettings 0 none
    blankScene halfEmpty_accepted halfEmptySheet_spelled rfl).1 _ _ _ _ written
  have empty : IsMissing "" := cell_none_iff.mp rfl
  have five : Reads (trimmed "5") (.ofNat 5) := cell_iff.mp (by decide +kernel)
  have last : halfEmptySheet.LastPresent 0 "5" := by
    refine ⟨fun missing => ?_, 0, rfl, ?_⟩
    · cases (cell_iff.mpr five).symm.trans (cell_none_iff.mpr missing)
    · intro q later behind there
      match q, behind with
      | 1, _ =>
        cases there
        exact empty
  have register : ((create halfEmptyData loopingSettings 0 none).applyRow
      ⟨0, [some (.ofNat 5)]⟩ blankScene).register? 0 0 = some 5 := by decide +kernel
  refine ⟨_, _, _, _, written, rfl, register, ?_, ?_⟩
  · exact (inert.row 1 _ 0 _ "" rfl rfl rfl empty).trans register
  · exact (inert.rewind 0 _ 0 rfl rfl rfl).1 "5" _ last five

def nanCell : List UInt8 := "timestamp_ms,c_total\n0,5\n1,nan\n".toUTF8.toList

def nanCellSheet : Sheet := ⟨["c_total"], [⟨"0", ["5"]⟩, ⟨"1", ["nan"]⟩]⟩

def nanCellData : Dataset :=
  ⟨[⟨"c_total", .counter⟩], [⟨0, [some (.ofNat 5)]⟩, ⟨1, [some .nan]⟩]⟩

theorem nan_no_decimal : ¬ IsDecimal (trimmed "nan") := by
  rintro ⟨s, m, spelled⟩
  cases s with
  | absent => exact (Reader.name_apart m).2 (congrArg (List.map Char.toLower) spelled).symm
  | plus | minus => cases spelled

/-- A counter goes back to its base at a cell that is no number, and stays where it is at an empty
one. -/
theorem nan_cell_written :
    let after (d : Dataset) :=
      (Replay.advance 0 1 (create d loopingSettings 0 none) blankScene).2.register? 0 0
    nanCellData.Accepted nanCell ∧ nanCellSheet.Spelled nanCell ∧
      nanCellSheet.cell? 1 0 = some "nan" ∧ ¬ IsDecimal (trimmed "nan") ∧
      (nanCellSheet.withCell 1 0 "").dataset? = .ok halfEmptyData ∧
      after nanCellData = some 0 ∧ after halfEmptyData = some 5 := by
  exact ⟨⟨toOption_some (by decide +kernel), by decide⟩, by decide +kernel, rfl, nan_no_decimal,
    toOption_some (by decide +kernel), by decide +kernel, by decide +kernel⟩

end Telemetry
