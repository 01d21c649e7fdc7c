import Telemetry.Proofs.Site

/-! Drivers that write down how they are called. A recorded driver hands every call on to the one it
records and answers what that one answers; beside it grows the list of the calls, each with what the
hook was given and, for a hook that may write to scratch, what it left there. -/
namespace Telemetry

inductive Call where
  | attach (block : String)
  | detach (block : String)
  | latch (given left : List UInt8)
  | read (spec : MetricSpec) (values : List UInt64) (given left : List UInt8)
  | convert (spec : MetricSpec) (raw : UInt64) (given : List UInt8)
  | release (given : List UInt8)

structure Recorded (δ : Type) where
  driver : δ
  /-- The calls so far, in order. -/
  calls : List Call

namespace Recorded

variable {δ : Type}

def fresh (d : δ) : Recorded δ := ⟨d, []⟩

def answer (r : Recorded δ) (call : α → Call) (reply : Reply δ α) : Reply (Recorded δ) α :=
  ⟨⟨reply.driver, r.calls ++ [call reply.result]⟩, reply.lines, reply.result⟩

open Register (overlay)

instance [Driver δ] : Driver (Recorded δ) where
  attach block r := r.answer (fun _ => .attach block) (Driver.attach block r.driver)
  detach block r := r.answer (fun _ => .detach block) (Driver.detach block r.driver)
  latch given r :=
    r.answer (fun left => .latch given (overlay left given)) (Driver.latch given r.driver)
  release given r := r.answer (fun _ => .release given) (Driver.release given r.driver)
  read spec values given r :=
    r.answer (fun reading => .read spec values given (overlay reading.scratch given))
      (Driver.read spec values given r.driver)
  convert spec raw given r :=
    r.answer (fun _ => .convert spec raw given) (Driver.convert spec raw given r.driver)

end Recorded

variable {δ : Type}

def BlockSpec.recorded (b : BlockSpec δ) : BlockSpec (Recorded δ) :=
  { b with driver := b.driver.map .fresh }

def ZoneSpec.recorded (z : ZoneSpec δ) : ZoneSpec (Recorded δ) :=
  ⟨z.name, z.blocks.map (·.recorded)⟩

end Telemetry
