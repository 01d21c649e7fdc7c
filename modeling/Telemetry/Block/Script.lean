import Telemetry.Block.Driver
import Telemetry.Register.Window
import Telemetry.Text.Hex

/-!
Scripts: drivers that stand in for hardware. A script says what the latch leaves in the scratch
buffer, how each metric is read, how raw values are converted, and which hooks are journalled.
-/

namespace Telemetry

open Register (overlay)

/-- The hooks that write lines; attach goes with detach, and latch with release. -/
inductive Topic where
  | attach
  | latch
  | read
  | convert
deriving DecidableEq

inductive ReadRule where
  /-- One row per read, the last one again and again; a missing row declines. -/
  | rows (rows : List (Option (List UInt64)))
  /-- Consecutive values from the metric's own data word. -/
  | counted
  /-- One byte of scratch each. -/
  | latched
  /-- Leaves some values behind and declines. -/
  | declined (row : List UInt64)

inductive Conversion where
  | quotient (divisor : UInt64)
  /-- The raw value in two's complement, over the metric's data word. -/
  | fixedPoint
  | bits
  | offsetByScratch
  | value

structure Script where
  topics : List Topic
  latched : List UInt8
  /-- Whether each read counts itself in the first byte of scratch. -/
  countsReads : Bool
  reads : List (String × ReadRule)
  conversion : Conversion

/-- The value of a fixed-point register whose scale is the metric's data word. -/
def fixedPoint (spec : MetricSpec) (raw : UInt64) : Binary64 :=
  (Binary64.ofSignedWord raw).div (.ofWord (max spec.data 1))

def Conversion.apply (c : Conversion) (spec : MetricSpec) (raw : UInt64) (scratch : List UInt8) :
    Binary64 :=
  match c with
  | .quotient divisor => (Binary64.ofWord raw).div (.ofWord divisor)
  | .fixedPoint => Telemetry.fixedPoint spec raw
  | .bits => ⟨raw⟩
  | .offsetByScratch => (Binary64.ofWord raw).add (.ofNat (scratch.map UInt8.toNat).sum)
  | .value => .ofWord raw

namespace Script

def rule? (script : Script) (metric : String) : Option ReadRule :=
  (script.reads.find? (·.1 = metric)).map (·.2)

def write (script : Script) (topic : Topic) (line : String) : List String :=
  if script.topics.contains topic then [line] else []

/-- The scratch buffer after a read has counted itself. -/
def countRead (script : Script) (scratch : List UInt8) : List UInt8 :=
  if script.countsReads then scratch.modify 0 (· + 1) else scratch

/-- The row for a read that was preceded by `earlier` reads of the metric. -/
def row (rows : List (Option (List UInt64))) (earlier : Nat) : Option (List UInt64) :=
  (rows[min earlier (rows.length - 1)]?).join

def samples (script : Script) (earlier : Nat) (spec : MetricSpec) (values : List UInt64)
    (scratch : List UInt8) : Bool × List UInt64 :=
  match script.rule? spec.name with
  | none => (false, values)
  | some (.rows rows) =>
    match row rows earlier with
    | none => (false, values)
    | some row => (true, overlay row values)
  | some .counted => (true, values.mapIdx fun i _ => spec.data + UInt64.ofNat i)
  | some .latched => (true, values.mapIdx fun i _ => ((scratch[i]?).getD 0).toUInt64)
  | some (.declined row) => (false, overlay row values)

end Script

/-- A script under way, with the names of the metrics read so far. -/
structure Performance where
  script : Script
  reads : List String

namespace Performance

def say (p : Performance) (topic : Topic) (line : String) : Reply Performance Unit :=
  ⟨p, p.script.write topic line, ()⟩

def readLine (metric : String) (values : List UInt64) : String :=
  s!"read {metric} [" ++ ", ".intercalate (values.map fun v => toString v.toNat) ++ "]"

def read (spec : MetricSpec) (values : List UInt64) (scratch : List UInt8) (p : Performance) :
    Reply Performance Reading :=
  let scratch := p.script.countRead scratch
  let (supplied, left) := p.script.samples (p.reads.count spec.name) spec values scratch
  ⟨{ p with reads := spec.name :: p.reads },
    p.script.write .read (readLine spec.name values),
    ⟨supplied, left, scratch⟩⟩

instance : Driver Performance where
  attach block p := p.say .attach s!"attach {block}"
  detach block p := p.say .attach s!"detach {block}"
  latch scratch p :=
    ⟨p, p.script.write .latch s!"latch {Hex.encode scratch}", p.script.latched⟩
  release scratch p :=
    ⟨p, p.script.write .latch s!"release {Hex.encode scratch}", []⟩
  read := read
  convert spec raw scratch p :=
    ⟨p, p.script.write .convert s!"convert {spec.name} {raw.toNat}",
      p.script.conversion.apply spec raw scratch⟩

end Performance

end Telemetry
