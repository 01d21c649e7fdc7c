import Telemetry.Dataset.Csv
import Telemetry.Metric.Spec
import Telemetry.Number.Reader
import Telemetry.Text.Blank

/-!
Datasets: recorded series of register values. The first column of the table holds times in
milliseconds; every other one is a metric, a counter if its heading ends in `_total` and a gauge
if not. A cell that is empty or no number is missing.
-/

namespace Telemetry

structure Column where
  name : String
  type : MetricType
deriving DecidableEq

structure DataRow where
  /-- Milliseconds. -/
  time : UInt64
  cells : List (Option Binary64)
deriving DecidableEq

structure Dataset where
  columns : List Column
  rows : List DataRow
deriving DecidableEq

inductive DatasetError where
  | missing (path : String)
  | directory
  | csv (error : Csv.Error)
  | noTimeColumn
  | badTime
  | empty
deriving DecidableEq

namespace DatasetError

def message : DatasetError → String
  | .missing path => s!"File not found: {path}"
  | .directory => "CSV error: Is a directory (os error 21)"
  | .csv error => s!"CSV error: {error.message}"
  | .noTimeColumn => "Invalid format: First column must be 'timestamp_ms'"
  | .badTime => "Invalid format: Invalid timestamp"
  | .empty => "Empty dataset"

end DatasetError

def timeHeading : String := "timestamp_ms"

def isAsciiAlphanumeric (c : Char) : Bool :=
  ('0' ≤ c && c ≤ '9') || ('a' ≤ c && c ≤ 'z') || ('A' ≤ c && c ≤ 'Z')

/-- The name of a metric behind an underscore, if it is empty or begins with a digit. -/
def guardStart : List Char → List Char
  | [] => ['_']
  | c :: rest => if Reader.isDigit c then '_' :: c :: rest else c :: rest

/-- A heading as the name of a metric: trimmed, with an underscore for all that no name can hold. -/
def metricName (heading : String) : String :=
  let trimmed := Text.trim heading.toList
  String.ofList (guardStart (trimmed.map fun c => if isAsciiAlphanumeric c then c else '_'))

namespace Column

def counterEnding : List Char := "_total".toList

def ofHeading (heading : String) : Column :=
  ⟨metricName heading,
    if counterEnding.isSuffixOf heading.toList then .counter else .gauge⟩

end Column

namespace DataRow

def cell (text : String) : Option Binary64 :=
  Reader.binary64? (String.ofList (Text.trim text.toList))

def ofFields? (columns : Nat) : List String → Except DatasetError DataRow
  | [] => .error .badTime
  | time :: cells =>
    match Reader.word? time with
    | none => .error .badTime
    | some time => .ok ⟨time, (List.range columns).map fun i => (cells[i]?).bind cell⟩

end DataRow

namespace Dataset

def readRow (fields columns : Nat) (r : Csv.Record) : Except DatasetError DataRow :=
  match r.row fields with
  | .error e => .error (.csv e)
  | .ok texts => DataRow.ofFields? columns texts

def ofRecords? : List Csv.Record → Except DatasetError Dataset
  | [] => .error .noTimeColumn
  | header :: records =>
    match header.texts with
    | .error e => .error (.csv e)
    | .ok [] => .error .noTimeColumn
    | .ok (first :: headings) =>
      if first ≠ timeHeading then .error .noTimeColumn
      else
        match records.mapM (readRow header.fields.length headings.length) with
        | .error e => .error e
        | .ok [] => .error .empty
        | .ok rows => .ok ⟨headings.map Column.ofHeading, rows⟩

def ofBytes? (bytes : List UInt8) : Except DatasetError Dataset := ofRecords? (Csv.records bytes)

def duration (d : Dataset) : Nat :=
  match d.rows.head?, d.rows.getLast? with
  | some first, some last => last.time.toNat - first.time.toNat
  | _, _ => 0

end Dataset

structure DatasetInfo where
  columnCount : Nat
  sampleCount : Nat
  /-- Milliseconds. -/
  duration : Nat
  columns : List String
deriving DecidableEq

def Dataset.info (d : Dataset) : DatasetInfo :=
  ⟨d.columns.length, d.rows.length, d.duration, d.columns.map (·.name)⟩

end Telemetry
