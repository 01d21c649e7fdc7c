import Telemetry.Dataset.Basic
import Telemetry.Proofs.Sequences

/-! Datasets as tables of texts. A file that can be read is the sheet that its records spell: a
heading for every column, and rows of a time and as many cells. The dataset is told by the sheet,
each column by its heading and each cell by its own text, so two texts that stand for the same cell
are interchangeable. -/
namespace Telemetry

structure SheetRow where
  time : String
  cells : List String

/-- A table before its texts are read. -/
structure Sheet where
  headings : List String
  rows : List SheetRow

namespace Sheet

/-- These bytes hold this sheet. -/
def Spelled (bytes : List UInt8) (t : Sheet) : Prop :=
  ∃ header records, Csv.records bytes = header :: records ∧
    header.texts = .ok (timeHeading :: t.headings) ∧
    List.Forall₂ (fun r row => r.row header.fields.length = .ok (row.time :: row.cells))
      records t.rows

def dataset? (t : Sheet) : Except DatasetError Dataset :=
  match t.rows.mapM fun row => DataRow.ofFields? t.headings.length (row.time :: row.cells) with
  | .error e => .error e
  | .ok [] => .error .empty
  | .ok rows => .ok ⟨t.headings.map Column.ofHeading, rows⟩

def cell? (t : Sheet) (p i : Nat) : Option String := (t.rows[p]?).bind (·.cells[i]?)

def withCell (t : Sheet) (p i : Nat) (text : String) : Sheet :=
  { t with rows := t.rows.modify p fun row => { row with cells := row.cells.set i text } }

def withHeading (t : Sheet) (i : Nat) (heading : String) : Sheet :=
  { t with headings := t.headings.set i heading }

variable {bytes : List UInt8} {t : Sheet} {d : Dataset} {p i : Nat} {text other : String}

theorem mapM_readRow {fields columns : Nat} {records : List Csv.Record} {rows : List SheetRow}
    (each : List.Forall₂ (fun r row => r.row fields = .ok (row.time :: row.cells)) records rows) :
    records.mapM (Dataset.readRow fields columns) =
      rows.mapM fun row => DataRow.ofFields? columns (row.time :: row.cells) := by
  induction each with
  | nil => rfl
  | cons head _ ih =>
    rw [List.mapM_cons, List.mapM_cons, ih, Dataset.readRow, head]

/-- A file is read as its sheet, faults included. -/
theorem Spelled.ofBytes? (spelled : t.Spelled bytes) : Dataset.ofBytes? bytes = t.dataset? := by
  obtain ⟨header, records, file, heading, each⟩ := spelled
  simp only [Dataset.ofBytes?, Dataset.ofRecords?, file, heading, ne_eq, not_true_eq_false,
    if_false, mapM_readRow each]
  rfl

theorem readRows_spelled {fields columns : Nat} {records : List Csv.Record} {rows : List DataRow}
    (each : List.Forall₂ (fun r row => Dataset.readRow fields columns r = .ok row) records rows) :
    ∃ texts : List SheetRow,
      List.Forall₂ (fun r row => r.row fields = .ok (row.time :: row.cells)) records texts := by
  induction each with
  | nil => exact ⟨[], .nil⟩
  | cons head _ ih =>
    obtain ⟨texts, rest⟩ := ih
    unfold Dataset.readRow at head
    split at head
    · cases head
    · rename_i fields taken
      cases fields with
      | nil => cases head
      | cons time cells => exact ⟨⟨time, cells⟩ :: texts, .cons taken rest⟩

theorem exists_spelled (read : Dataset.ofBytes? bytes = .ok d) : ∃ t : Sheet, t.Spelled bytes := by
  unfold Dataset.ofBytes? Dataset.ofRecords? at read
  split at read
  · cases read
  · rename_i header records file
    split at read
    · cases read
    · cases read
    · rename_i first headings heading
      split at read
      · cases read
      · rename_i time
        split at read
        · cases read
        · cases read
        · rename_i rows _ all
          obtain ⟨texts, each⟩ := readRows_spelled (mapM_forall₂ all)
          exact ⟨⟨headings, texts⟩, header, records, file, not_not.mp time ▸ heading, each⟩

def spells (t : Sheet) (bytes : List UInt8) : Bool :=
  match Csv.records bytes with
  | [] => false
  | header :: records =>
    header.texts.toOption == some (timeHeading :: t.headings) &&
      records.map (fun r => (r.row header.fields.length).toOption) ==
        t.rows.map fun row => some (row.time :: row.cells)

theorem toOption_iff {x : Except ε α} {a : α} : x.toOption = some a ↔ x = .ok a :=
  ⟨toOption_some, fun done => congrArg Except.toOption done⟩

theorem spells_iff : t.spells bytes = true ↔ t.Spelled bytes := by
  have rows (n : Nat) (records : List Csv.Record) :
      records.map (fun r => (r.row n).toOption) =
        (t.rows.map fun row => some (row.time :: row.cells)) ↔
      List.Forall₂ (fun r row => r.row n = .ok (row.time :: row.cells)) records t.rows := by
    rw [← List.forall₂_eq_eq_eq, List.forall₂_map_left_iff, List.forall₂_map_right_iff]
    simp only [toOption_iff]
  unfold spells Spelled
  cases Csv.records bytes with
  | nil => simp
  | cons header records =>
    simp only [Bool.and_eq_true, beq_iff_eq, toOption_iff, rows, List.cons.injEq]
    constructor
    · intro h
      exact ⟨header, records, ⟨rfl, rfl⟩, h⟩
    · rintro ⟨_, _, ⟨rfl, rfl⟩, h⟩
      exact h

instance : Decidable (t.Spelled bytes) := decidable_of_iff _ spells_iff

/-! ### What a sheet is read as -/

theorem ofFields?_cells {columns : Nat} {texts : SheetRow} {row : DataRow}
    (read : DataRow.ofFields? columns (texts.time :: texts.cells) = .ok row) :
    row.cells = (List.range columns).map fun i => (texts.cells[i]?).bind DataRow.cell := by
  simp only [DataRow.ofFields?] at read
  split at read
  · cases read
  · cases read
    rfl

theorem dataset?_ok (read : t.dataset? = .ok d) :
    d.columns = t.headings.map Column.ofHeading ∧
      List.Forall₂ (fun texts row =>
        DataRow.ofFields? t.headings.length (texts.time :: texts.cells) = .ok row)
        t.rows d.rows := by
  unfold dataset? at read
  split at read
  · cases read
  · cases read
  · rename_i rows _ all
    cases read
    exact ⟨rfl, mapM_forall₂ all⟩

theorem getElem?_columns (read : t.dataset? = .ok d) (i : Nat) :
    d.columns[i]? = (t.headings[i]?).map Column.ofHeading := by
  rw [(dataset?_ok read).1, List.getElem?_map]

theorem cell_read (read : t.dataset? = .ok d) {row : DataRow} (there : d.rows[p]? = some row)
    (inside : i < d.columns.length) :
    (row.cells[i]?).join = (t.cell? p i).bind DataRow.cell := by
  obtain ⟨columns, each⟩ := dataset?_ok read
  rw [columns, List.length_map] at inside
  obtain ⟨texts, known, made⟩ := forall₂_getElem? each.flip there
  rw [ofFields?_cells made, cell?, known, List.getElem?_map, List.getElem?_range inside]
  rfl

theorem dataset?_congr {u : Sheet} (columns : u.headings = t.headings)
    (rows : u.rows.map (fun row => DataRow.ofFields? t.headings.length (row.time :: row.cells)) =
      t.rows.map fun row => DataRow.ofFields? t.headings.length (row.time :: row.cells)) :
    u.dataset? = t.dataset? := by
  have one (rows : List SheetRow) (f : SheetRow → Except DatasetError DataRow) :
      rows.mapM f = (rows.map f).mapM id := by
    rw [List.mapM_map]
    rfl
  rw [dataset?, dataset?, columns, one u.rows, one t.rows, rows]

/-- A text in the place of one that is read alike changes nothing. -/
theorem withCell_dataset? (there : t.cell? p i = some text)
    (same : DataRow.cell other = DataRow.cell text) :
    (t.withCell p i other).dataset? = t.dataset? := by
  obtain ⟨row, known, own⟩ := Option.bind_eq_some_iff.mp there
  refine dataset?_congr (u := t.withCell p i other) rfl ?_
  apply List.ext_getElem?
  intro q
  rw [withCell, List.getElem?_map, List.getElem?_map, List.getElem?_modify]
  by_cases here : p = q
  · subst here
    have cells (j : Nat) : ((row.cells.set i other)[j]?).bind DataRow.cell =
        (row.cells[j]?).bind DataRow.cell := by
      by_cases hit : i = j
      · subst hit
        rw [List.getElem?_set_self (List.getElem?_eq_some_iff.mp own).1, own, Option.bind_some,
          Option.bind_some, same]
      · rw [List.getElem?_set_ne hit]
    simp only [known, Option.map_eq_map, Option.map_some, if_true, DataRow.ofFields?, cells]
  · simp only [if_neg here, Option.map_eq_map, Option.map_id']

theorem withHeading_dataset? (read : t.dataset? = .ok d) (heading : String) :
    (t.withHeading i heading).dataset? =
      .ok { d with columns := d.columns.set i (Column.ofHeading heading) } := by
  unfold dataset? at read ⊢
  simp only [withHeading, List.length_set, List.map_set]
  split at read
  · cases read
  · cases read
  · cases read
    rfl

end Sheet

end Telemetry
