import Telemetry.Block.Pass

/-!
Zones: named groups of blocks that attach to a domain as one unit. A zone is made detached, keeps
its values across detach and attach, and takes part in passes only while it is enabled.
-/

namespace Telemetry

structure ZoneSpec (δ : Type) where
  name : String
  blocks : List (BlockSpec δ)

structure Zone (δ : Type) where
  name : String
  enabled : Bool
  blocks : List (Block δ)
  valueCount : Nat
  /-- Present while attached. -/
  handle : Option ZoneHandle

structure Visit where
  domain : String
  zone : String
  block : String
  metric : Metric
  lastUpdate : Option Nat

namespace Zone

variable {δ : Type}

def alloc (spec : ZoneSpec δ) : Except Fault (Zone δ) :=
  (spec.blocks.mapM Block.alloc).map fun blocks =>
    ⟨spec.name, true, blocks, (blocks.map Block.valueCount).sum, none⟩

def isAttached (z : Zone δ) : Bool := z.handle.isSome

def values (z : Zone δ) : List MetricValue := z.blocks.flatMap Block.values

def fillBlocks : List (Block δ) → List MetricValue → List MetricValue × List MetricValue
  | [], out => ([], out)
  | b :: rest, out =>
    let (written, out) := b.fill out
    if out.isEmpty then (written, out)
    else
      let (more, out) := fillBlocks rest out
      (written ++ more, out)

def fill (z : Zone δ) (out : List MetricValue) : List MetricValue × List MetricValue :=
  fillBlocks z.blocks out

def visits (domain : String) (z : Zone δ) : List Visit :=
  z.blocks.flatMap fun b => b.metrics.map fun m => ⟨domain, z.name, b.name, m, b.lastUpdate⟩

variable [Driver δ]

def pass (env : Surroundings) (clear : Bool) (z : Zone δ) (s : Shared) :
    Option Fault × Zone δ × Shared :=
  if z.enabled then
    let (fault, blocks, s) := passOver (Block.pass env clear) z.blocks s
    (fault, { z with blocks }, s)
  else (none, z, s)

/-- Enables the zone, with a clear pass if that is asked for and the zone was disabled. -/
def enable (env : Surroundings) (clear : Bool) (z : Zone δ) (s : Shared) :
    Option Fault × Zone δ × Shared :=
  if !z.enabled && clear then { z with enabled := true }.pass env true s
  else (none, { z with enabled := true }, s)

def disable (z : Zone δ) : Zone δ := { z with enabled := false }

end Zone

/--
Walks over visits with a callback, until it fails: the callback's state after the last call, and
its error.
-/
def walk (callback : Visit → σ → Option ε × σ) : List Visit → σ → Option ε × σ
  | [], s => (none, s)
  | v :: rest, s =>
    match callback v s with
    | (some e, s) => (some e, s)
    | (none, s) => walk callback rest s

end Telemetry
