import Telemetry.Number.Digits
import Telemetry.Number.Word

/-!
Settings of a domain, and the sampling interval that follows from them. An interval is kept in
whole milliseconds; none at all means the default.
-/

namespace Telemetry

def defaultInterval : Nat := 1000

/-- A length of time; the nanoseconds are less than a second. -/
structure Duration where
  seconds : UInt64
  nanoseconds : Nat
  nanoseconds_lt : nanoseconds < 1000000000 := by omega
deriving DecidableEq

namespace Duration

def ofParts (seconds : UInt64) (nanoseconds : UInt32) : Except Overflow Duration := do
  let carried ← Overflow.duration.unlessFits 64
    (seconds.toNat + nanoseconds.toNat / 1000000000)
  .ok ⟨UInt64.ofNat carried, nanoseconds.toNat % 1000000000, Nat.mod_lt _ (by decide)⟩

def milliseconds (d : Duration) : Nat := d.seconds.toNat * 1000 + d.nanoseconds / 1000000

end Duration

structure DomainConfig where
  name : String
  interval : UInt64
  clearOnStart : Bool
deriving DecidableEq

namespace DomainConfig

def standard : DomainConfig := ⟨"default", UInt64.ofNat defaultInterval, true⟩

def named (name : String) : DomainConfig := { standard with name }

def withInterval (interval : Duration) (c : DomainConfig) : DomainConfig :=
  { c with interval := UInt64.ofNat (min interval.milliseconds (2 ^ 64 - 1)) }

def withClearOnStart (clearOnStart : Bool) (c : DomainConfig) : DomainConfig :=
  { c with clearOnStart }

def effectiveInterval (c : DomainConfig) : Nat :=
  if c.interval = 0 then defaultInterval else c.interval.toNat

end DomainConfig

/-- A duration in milliseconds: in seconds from one second up, without trailing zeros. -/
def intervalText (milliseconds : Nat) : String :=
  if milliseconds < 1000 then s!"{milliseconds}ms"
  else
    let thousandths := Digits.numeral (1000 + milliseconds % 1000)
    let fraction := ((thousandths.drop 1).reverse.dropWhile (· == '0')).reverse
    let seconds := milliseconds / 1000
    if fraction.isEmpty then s!"{seconds}s" else s!"{seconds}.{String.ofList fraction}s"

end Telemetry
