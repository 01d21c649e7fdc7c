import Telemetry.Proofs.Sequences
import Telemetry.Proofs.Words

/-! What a replay writes, in closed form. After so many loops and so many rows of the next one, a
counter's register holds the last cell of the column once for each loop, and the last cell of these
rows on top; a gauge's holds the last cell that was written at all. A row leads from one such state
to the next whatever cells it misses, and starting over leaves the registers as they are. -/
namespace Telemetry

open Register (Window)
open Replay (registerSize)
open Replay.Engine (lastCell? cellWord rowWords writeWords nextBase windowSize)

namespace Dataset

/-- Every row has a cell for each column, and each column is a counter or a gauge. -/
structure Tabular (d : Dataset) : Prop where
  rows : d.rows ≠ []
  cells : ∀ row ∈ d.rows, row.cells.length = d.columns.length
  types : ∀ column ∈ d.columns, column.type = .counter ∨ column.type = .gauge

theorem readRow_cells {fields columns : Nat} {r : Csv.Record} {row : DataRow}
    (read : readRow fields columns r = .ok row) : row.cells.length = columns := by
  unfold readRow at read
  split at read
  · cases read
  · unfold DataRow.ofFields? at read
    split at read
    · cases read
    · split at read
      · cases read
      · cases read
        rw [List.length_map, List.length_range]

theorem ofBytes?_tabular {bytes : List UInt8} {d : Dataset} (read : ofBytes? bytes = .ok d) :
    d.Tabular := by
  unfold ofBytes? ofRecords? at read
  split at read
  · cases read
  · rename_i header records _
    split at read
    · cases read
    · cases read
    · rename_i first headings _
      split at read
      · cases read
      · split at read
        · cases read
        · cases read
        · rename_i rows some all
          cases read
          refine ⟨some, ?_, ?_⟩
          · intro row member
            obtain ⟨r, -, done⟩ := forall₂_mem (mapM_forall₂ all) row member
            rw [readRow_cells done, List.length_map]
          · intro column member
            obtain ⟨heading, -, rfl⟩ := List.mem_map.mp member
            unfold Column.ofHeading
            split
            · exact .inl rfl
            · exact .inr rfl

/-- A dataset that was read, with registers that have their places in memory. -/
structure Accepted (bytes : List UInt8) (d : Dataset) : Prop where
  read : ofBytes? bytes = .ok d
  fits : windowSize d < 2 ^ 64

def lastWord (rows : List DataRow) (i : Nat) : UInt64 :=
  ((lastCell? rows i).map Binary64.toWord).getD 0

def total (d : Dataset) (i : Nat) : Nat := (lastWord d.rows i).toNat

/-- What a counter shows of its current loop. -/
def part (d : Dataset) (p i : Nat) : Nat := (lastWord (d.rows.take p) i).toNat

def written (d : Dataset) (k p : Nat) : List DataRow :=
  (List.replicate k d.rows).flatten ++ d.rows.take p

def register (d : Dataset) (k p i : Nat) (column : Column) : UInt64 :=
  match column.type with
  | .gauge => ((lastCell? (d.written k p) i).map (cellWord .gauge 0)).getD 0
  | _ => UInt64.ofNat (k * d.total i + d.part p i)

def registers (d : Dataset) (k p : Nat) : List UInt64 := d.columns.mapIdx (d.register k p)

def base (d : Dataset) (k i : Nat) (column : Column) : UInt64 :=
  if column.type = .counter then UInt64.ofNat (k * d.total i) else 0

def bases (d : Dataset) (k : Nat) : List UInt64 := d.columns.mapIdx (d.base k)

variable {d : Dataset} {i k p : Nat} {column : Column}

theorem registers_length (d : Dataset) (k p : Nat) :
    (d.registers k p).length = d.columns.length := List.length_mapIdx

theorem getElem?_registers (d : Dataset) (k p i : Nat) :
    (d.registers k p)[i]? = (d.columns[i]?).map (d.register k p i) := List.getElem?_mapIdx

theorem register_counter (counter : column.type = .counter) :
    d.register k p i column = UInt64.ofNat (k * d.total i + d.part p i) := by
  rw [register, counter]

theorem register_gauge (gauge : column.type = .gauge) :
    d.register k p i column =
      ((lastCell? (d.written k p) i).map (cellWord .gauge 0)).getD 0 := by
  rw [register, gauge]

theorem base_counter (counter : column.type = .counter) :
    d.base k i column = UInt64.ofNat (k * d.total i) := if_pos counter

theorem registers_start (table : d.Tabular) :
    d.registers 0 0 = List.replicate d.columns.length 0 := by
  apply List.ext_getElem?
  intro i
  rw [getElem?_registers, List.getElem?_replicate]
  cases there : d.columns[i]? with
  | none => rw [if_neg (Nat.not_lt.mpr (List.getElem?_eq_none_iff.mp there))]; rfl
  | some column =>
    rw [if_pos (List.getElem?_eq_some_iff.mp there).1]
    rcases table.types column (List.mem_of_getElem? there) with counter | gauge
    · rw [Option.map_some, register_counter counter, Nat.zero_mul]
      rfl
    · rw [Option.map_some, register_gauge gauge]
      rfl

theorem bases_start (d : Dataset) : d.bases 0 = List.replicate d.columns.length 0 := by
  apply List.ext_getElem
  · simp [bases]
  · intro i left right
    simp [bases, base]

/-! ### The last cell -/

theorem lastCell?_append (front behind : List DataRow) (i : Nat) :
    lastCell? (front ++ behind) i = (lastCell? behind i).or (lastCell? front i) := by
  rw [lastCell?, List.reverse_append, List.findSome?_append]
  rfl

theorem lastCell?_snoc (rows : List DataRow) (row : DataRow) (i : Nat) :
    lastCell? (rows ++ [row]) i = (row.cells[i]?).join.or (lastCell? rows i) := by
  rw [lastCell?_append, lastCell?, List.reverse_singleton, List.findSome?_singleton]

theorem lastWord_snoc (rows : List DataRow) (row : DataRow) (i : Nat) :
    lastWord (rows ++ [row]) i =
      ((row.cells[i]?).join.map Binary64.toWord).getD (lastWord rows i) := by
  rw [lastWord, lastCell?_snoc]
  cases (row.cells[i]?).join <;> rfl

theorem take_next {row : DataRow} (there : d.rows[p]? = some row) :
    d.rows.take (p + 1) = d.rows.take p ++ [row] := by
  rw [List.take_add_one, there]
  rfl

theorem written_next {row : DataRow} (there : d.rows[p]? = some row) :
    d.written k (p + 1) = d.written k p ++ [row] := by
  rw [written, take_next there, ← List.append_assoc]
  rfl

theorem written_rewind (d : Dataset) (k : Nat) :
    d.written (k + 1) 0 = d.written k d.rows.length := by
  rw [written, written, List.replicate_succ', List.flatten_append, List.flatten_singleton,
    List.take_length, List.take_zero, List.append_nil]

/-! ### Starting over -/

theorem part_zero (d : Dataset) (i : Nat) : d.part 0 i = 0 := rfl

theorem part_whole (d : Dataset) (i : Nat) : d.part d.rows.length i = d.total i := by
  rw [part, List.take_length, total]

theorem register_rewind (types : column.type = .counter ∨ column.type = .gauge) :
    d.register (k + 1) 0 i column = d.register k d.rows.length i column := by
  rcases types with counter | gauge
  · rw [register_counter counter, register_counter counter, part_zero, part_whole, Nat.add_zero,
      Nat.succ_mul]
  · rw [register_gauge gauge, register_gauge gauge, written_rewind]

theorem registers_rewind (table : d.Tabular) (k : Nat) :
    d.registers (k + 1) 0 = d.registers k d.rows.length := by
  apply List.ext_getElem?
  intro i
  rw [getElem?_registers, getElem?_registers]
  cases there : d.columns[i]? with
  | none => rfl
  | some column =>
    exact congrArg some (register_rewind (table.types column (List.mem_of_getElem? there)))

theorem nextBase_base (d : Dataset) (k i : Nat) (column : Column) :
    nextBase d.rows column i (d.base k i column) = d.base (k + 1) i column := by
  unfold nextBase base
  split
  · have next : UInt64.ofNat ((k + 1) * d.total i)
        = UInt64.ofNat (k * d.total i) + lastWord d.rows i := by
      rw [Nat.succ_mul, UInt64.ofNat_add, total, UInt64.ofNat_toNat]
    rw [next, lastWord]
    cases lastCell? d.rows i <;> rfl
  · rfl

theorem bases_rewind (d : Dataset) (k : Nat) :
    (d.columns.zip (d.bases k)).mapIdx (fun i x => nextBase d.rows x.1 i x.2)
      = d.bases (k + 1) := by
  apply List.ext_getElem
  · simp [bases]
  · intro i left right
    simp only [bases, List.getElem_mapIdx, List.getElem_zip, nextBase_base]

/-! ### Writing a row -/

theorem register_next (types : column.type = .counter ∨ column.type = .gauge) {row : DataRow}
    (there : d.rows[p]? = some row) :
    ((row.cells[i]?).join.map (cellWord column.type (d.base k i column))).getD
        (d.register k p i column) = d.register k (p + 1) i column := by
  rcases types with counter | gauge
  · rw [register_counter counter, register_counter counter, counter, base_counter counter, part,
      part, take_next there, lastWord_snoc]
    cases (row.cells[i]?).join with
    | none => rfl
    | some cell =>
      simp only [Option.map_some, Option.getD_some, cellWord]
      rw [UInt64.ofNat_add, UInt64.ofNat_toNat]
  · rw [register_gauge gauge, register_gauge gauge, gauge, written_next there, lastCell?_snoc]
    cases (row.cells[i]?).join <;> rfl

theorem rowWords_length (table : d.Tabular) {row : DataRow} (member : row ∈ d.rows) (k : Nat) :
    (rowWords d.columns (d.bases k) row.cells).length = d.columns.length := by
  simp [rowWords, bases, table.cells row member]

theorem getElem?_rowWords (table : d.Tabular) {row : DataRow} (member : row ∈ d.rows) (k i : Nat) :
    (rowWords d.columns (d.bases k) row.cells)[i]? =
      (d.columns[i]?).map fun column =>
        (row.cells[i]?).join.map (cellWord column.type (d.base k i column)) := by
  have sized := table.cells row member
  rw [rowWords, List.getElem?_map, List.zip, List.getElem?_zipWith, List.zip,
    List.getElem?_zipWith, bases, List.getElem?_mapIdx]
  cases there : d.columns[i]? with
  | none => rfl
  | some column =>
    have below : i < row.cells.length := sized ▸ (List.getElem?_eq_some_iff.mp there).1
    rw [List.getElem?_eq_getElem below]
    rfl

theorem registers_next (table : d.Tabular) {row : DataRow} (there : d.rows[p]? = some row)
    (k : Nat) :
    List.zipWith Option.getD (rowWords d.columns (d.bases k) row.cells) (d.registers k p)
      = d.registers k (p + 1) := by
  apply List.ext_getElem?
  intro i
  rw [List.getElem?_zipWith, getElem?_rowWords table (List.mem_of_getElem? there),
    getElem?_registers, getElem?_registers]
  cases column : d.columns[i]? with
  | none => rfl
  | some c =>
    exact congrArg some (register_next (table.types c (List.mem_of_getElem? column)) there)

theorem writeWords_ofWords (words : List (Option UInt64)) (front old : List UInt64)
    (same : words.length = old.length) (fits : (front ++ old).length * registerSize < 2 ^ 64) :
    writeWords front.length words (.ofWords (front ++ old))
      = .ofWords (front ++ List.zipWith Option.getD words old) := by
  induction words generalizing front old with
  | nil =>
    rw [List.length_eq_zero_iff.mp same.symm]
    rfl
  | cons word rest ih =>
    cases old with
    | nil => cases same
    | cons w ws =>
      have size : (front ++ w :: ws).length = front.length + ws.length + 1 := by
        rw [List.length_append, List.length_cons, Nat.add_assoc]
      -- the words up to and with this one are in front of the others
      have later (x : UInt64) : writeWords (front.length + 1) rest (.ofWords (front ++ x :: ws))
          = .ofWords (front ++ x :: List.zipWith Option.getD rest ws) := by
        have moved := ih (front ++ [x]) ws (Nat.succ.inj same) (by
          rw [List.append_assoc, List.singleton_append]
          simpa using fits)
        rwa [List.length_append, List.append_assoc, List.append_assoc] at moved
      cases word with
      | none => exact later w
      | some x =>
        have reach : Window.Reach (front ++ w :: ws) front.length :=
          ⟨by rw [size]; omega, fits⟩
        rw [writeWords, Window.write_word reach x, List.set_append_right _ _ (Nat.le_refl _),
          Nat.sub_self]
        exact later x

theorem writeWords_registers (table : d.Tabular) (fits : windowSize d < 2 ^ 64) {row : DataRow}
    (there : d.rows[p]? = some row) (k : Nat) :
    writeWords 0 (rowWords d.columns (d.bases k) row.cells) (.ofWords (d.registers k p))
      = .ofWords (d.registers k (p + 1)) := by
  have sized := rowWords_length table (List.mem_of_getElem? there) k
  have same := sized.trans (d.registers_length k p).symm
  have whole := writeWords_ofWords _ [] (d.registers k p) same (by
    rw [List.nil_append, registers_length]
    exact fits)
  rw [List.nil_append, List.nil_append, registers_next table there k] at whole
  exact whole

end Dataset

end Telemetry
