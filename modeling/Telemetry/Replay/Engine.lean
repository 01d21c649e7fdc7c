import Telemetry.Block.Stock
import Telemetry.Dataset.Basic
import Telemetry.Number.Layout
import Telemetry.SelfMetrics
import Telemetry.Zone.Basic

/-!
Replay of a dataset: its rows are written to a register window, one word per column, in time.

Gauge cells are written in fixed point and read back by the matching driver. Counter cells are
written as whole numbers on top of a base, which grows by the last cell of the column whenever the
dataset starts over, so the registers keep counting up. A missing cell leaves its register as it is.
-/

namespace Telemetry

namespace Replay

def registerSize : Nat := 8

/-- The fixed-point scale of gauge registers. -/
def gaugeScale : UInt64 := 1000

structure Settings where
  /-- How many times faster than recorded. -/
  speed : Binary64
  looping : Bool
  /-- The time behind the last row, in milliseconds. -/
  lastInterval : UInt64
  zone : String
  block : String

inductive Phase where
  | ready
  /-- The time of the next turn, in milliseconds. -/
  | playing (due : Nat)
  | ended
deriving DecidableEq

structure Engine where
  dataset : Dataset
  settings : Settings
  window : Nat
  metrics : Option SelfMetrics
  /-- What the counters of each column start from in the current loop. -/
  base : List UInt64
  /-- The number of rows of the current loop that are written. -/
  position : Nat
  running : Bool
  phase : Phase

structure Scene where
  windows : List Register.Window
  shared : Shared

namespace Engine

def create (dataset : Dataset) (settings : Settings) (window : Nat) (metrics : Option SelfMetrics) :
    Engine :=
  ⟨dataset, settings, window, metrics, List.replicate dataset.columns.length 0, 0, false, .ready⟩

def windowSize (dataset : Dataset) : Nat := dataset.columns.length * registerSize

def metricSpec (column : Column) (index : Nat) : MetricSpec :=
  let offset := UInt64.ofNat (index * registerSize)
  let field := Register.Field.whole offset (UInt64.ofNat registerSize)
  { MetricSpec.simple column.name column.type field with
    data := if column.type = .gauge then gaugeScale else 1 }

def zoneSpec (e : Engine) : ZoneSpec StockDriver :=
  ⟨e.settings.zone,
    [⟨e.settings.block, some e.window, e.dataset.columns.zipIdx.map fun x => metricSpec x.1 x.2, 0,
      some .fixedPoint⟩]⟩

def total (e : Engine) : Nat := e.dataset.rows.length

def cellWord (type : MetricType) (base : UInt64) (cell : Binary64) : UInt64 :=
  match type with
  | .gauge => (cell.mul (.ofWord gaugeScale)).roundToSignedWord
  | _ => base + cell.toWord

def rowWords (columns : List Column) (base : List UInt64) (cells : List (Option Binary64)) :
    List (Option UInt64) :=
  (columns.zip (base.zip cells)).map fun (column, base, cell) =>
    cell.map (cellWord column.type base)

def writeWords (index : Nat) : List (Option UInt64) → Register.Window → Register.Window
  | [], w => w
  | none :: rest, w => writeWords (index + 1) rest w
  | some word :: rest, w =>
    writeWords (index + 1) rest
      (w.write (UInt64.ofNat (index * registerSize)) (Register.bytesOf registerSize word)).2

def applyRow (e : Engine) (row : DataRow) (s : Scene) : Scene :=
  let shared := s.shared.log .debug s!"Writing row {e.position} at timestamp {row.time.toNat}"
  let words := rowWords e.dataset.columns e.base row.cells
  { windows := s.windows.modify e.window (writeWords 0 words)
    shared := match e.metrics with
      | some m => m.countSample shared
      | none => shared }

def lastCell? (rows : List DataRow) (index : Nat) : Option Binary64 :=
  rows.reverse.findSome? fun row => (row.cells[index]?).join

def nextBase (rows : List DataRow) (column : Column) (index : Nat) (base : UInt64) : UInt64 :=
  if column.type = .counter then
    base + (match lastCell? rows index with
      | some cell => cell.toWord
      | none => 0)
  else base

def rewind (e : Engine) : Engine :=
  { e with
    base := (e.dataset.columns.zip e.base).mapIdx fun i x => nextBase e.dataset.rows x.1 i x.2
    position := 0 }

def interval (e : Engine) (position : Nat) : UInt64 :=
  match e.dataset.rows[position]?, e.dataset.rows[position + 1]? with
  | some row, some next => if next.time < row.time then 0 else next.time - row.time
  | _, _ => e.settings.lastInterval

/-- The longest sleep in milliseconds, which is thirty years of 365 days. -/
def longestSleep : Nat := 946080000000

/--
How long to sleep behind a row: the recorded time over the speed, in whole milliseconds, but never
longer than the longest sleep.
-/
def sleep (e : Engine) (position : Nat) : Nat :=
  min ((Binary64.ofWord (e.interval position)).div e.settings.speed).toWord.toNat longestSleep

def start (now : Nat) (e : Engine) (s : Scene) : Engine × Scene :=
  let message := s!"Starting replay: speed={e.settings.speed.plain}, loop={e.settings.looping}"
  ({ e with running := true, phase := .playing now },
    { s with shared := s.shared.log .info message })

/-- The turn behind the last row: the dataset starts over, or the replay ends. -/
def complete (e : Engine) (s : Scene) : Engine × Scene :=
  if e.settings.looping then
    (e.rewind, { s with shared := s.shared.log .info "Dataset complete, looping..." })
  else
    ({ e with running := false, phase := .ended },
      { s with shared := s.shared.log .info "Dataset complete, stopping" })

def play (due : Nat) (row : DataRow) (e : Engine) (s : Scene) : Engine × Scene :=
  let s := e.applyRow row s
  ({ e with position := e.position + 1, phase := .playing (due + e.sleep e.position) },
    match e.metrics with
    | some m => { s with shared := m.setReplay (e.position + 1) e.total e.settings.speed s.shared }
    | none => s)

def turn (e : Engine) (s : Scene) : Engine × Scene :=
  match e.phase with
  | .ready | .ended => (e, s)
  | .playing due =>
    if !e.running then ({ e with phase := .ended }, s)
    else
      match e.dataset.rows[e.position]? with
      | none => e.complete s
      | some row => e.play due row s

def due? (e : Engine) : Option Nat :=
  match e.phase with
  | .playing due => some due
  | .ready | .ended => none

def halt (e : Engine) : Engine := { e with running := false }

end Engine

end Replay

end Telemetry
