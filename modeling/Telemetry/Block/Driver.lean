import Telemetry.Metric.Spec
import Telemetry.Number.Binary64

/-!
Drivers of blocks: hooks that run at attach, in every pass and at detach.

A hook is a step on the driver's own state that may write lines to the journal. A hook that gets a
buffer answers with bytes, or words, to put over the start of it, so no hook can resize a buffer.
A block without a driver has hooks that do nothing, decline to read and convert by value.
-/

namespace Telemetry

structure Reply (δ α : Type) where
  driver : δ
  lines : List String
  result : α

/-- The answer of a read hook: whether it supplied the samples, and what it left in its buffers. -/
structure Reading where
  supplied : Bool
  values : List UInt64
  scratch : List UInt8

class Driver (δ : Type) where
  attach : String → δ → Reply δ Unit
  detach : String → δ → Reply δ Unit
  latch : List UInt8 → δ → Reply δ (List UInt8)
  release : List UInt8 → δ → Reply δ (List UInt8)
  read : MetricSpec → List UInt64 → List UInt8 → δ → Reply δ Reading
  convert : MetricSpec → UInt64 → List UInt8 → δ → Reply δ Binary64

namespace Driver

variable {δ : Type} [Driver δ]

/-- A hook of a driver that may be missing; `result` is what the missing one answers. -/
def ask (driver : Option δ) (hook : δ → Reply δ α) (result : α) : Reply (Option δ) α :=
  match driver with
  | none => ⟨none, [], result⟩
  | some d =>
    let reply := hook d
    ⟨some reply.driver, reply.lines, reply.result⟩

end Driver

end Telemetry
