import Telemetry.Register.Window
import Telemetry.Series.Rejection

/-!
How an operation fails. A fault is a programming error in the layer above, a source of labels that
fails, a thread that the system does not give, or a lock that an earlier fault has poisoned; the
operation stops where it stands. A refusal is an ordinary error of the exporter, which names the
block it is about.
-/

namespace Telemetry

/-- Identifies a zone attached to a domain; both are numbered from 1. -/
structure ZoneHandle where
  domain : Nat
  zone : Nat
deriving DecidableEq

def ZoneHandle.text (h : ZoneHandle) : String := s!"zone#{h.zone}@domain#{h.domain}"

structure Refusal where
  block : String
  cause : Series.Rejection
deriving DecidableEq

def Refusal.message (r : Refusal) : String :=
  s!"Exporter error for block {r.block}: {r.cause.message}"

inductive Fault where
  | window (fault : Register.WindowFault)
  | overflow (cause : Overflow)
  | source (message : String)
  | noElements (metric block : String)
  | noWindow (metric block : String)
  | tooWide (size : UInt64) (metric block : String) (offset : UInt64)
  | undecodable (metric block : String) (offset : UInt64) (error : Register.DecodeError)
  | notUnregistered (refusal : Refusal)
  | notSpawned (domain error : String)
  | poisonedDomain (domain : String)
  | poisonedSlot (domain : String)
  | foreignHandle (handle : ZoneHandle) (domain : String)
  | staleHandle (handle : ZoneHandle) (domain : String)
deriving DecidableEq

namespace Fault

open Register (hexadecimal)

def message : Fault → String
  | .window fault => fault.message
  | .overflow cause => cause.message
  | .source message => message
  | .noElements metric block => s!"array metric {metric} in block {block} declares zero elements"
  | .noWindow metric block =>
    s!"metric {metric} in block {block} has no driver read and the block has no register window"
  | .tooWide size metric block offset =>
    s!"invalid size {size} bytes for metric {metric} in block {block} at offset " ++
      hexadecimal offset.toNat
  | .undecodable metric block offset error =>
    s!"decode failed for metric {metric} in block {block} at offset " ++
      s!"{hexadecimal offset.toNat}: {error.message}"
  | .notUnregistered refusal => s!"failed to unregister block {refusal.block}: {refusal.message}"
  | .notSpawned domain error => s!"failed to spawn sampling thread for {domain}: {error}"
  | .poisonedDomain domain => s!"domain {domain} lock poisoned"
  | .poisonedSlot domain => s!"domain {domain} thread slot poisoned"
  | .foreignHandle handle domain => s!"{handle.text} does not belong to domain {domain}"
  | .staleHandle handle domain => s!"{handle.text} is not attached to domain {domain}"

/-- Whether the fault is written to the log before the operation stops. -/
def diagnosed : Fault → Bool
  | .window fault => fault.diagnosed
  | .overflow _ | .source _ => false
  | _ => true

end Fault

inductive Failure where
  | fault (fault : Fault)
  | refused (refusal : Refusal)
deriving DecidableEq

abbrev Outcome (α : Type) := Except Failure α

end Telemetry
