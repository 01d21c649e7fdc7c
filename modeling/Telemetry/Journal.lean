/-!
What happens beside the values: log records, lines that driver hooks write, and label values
resolved by and released to their sources. The journal keeps them in order.
-/

namespace Telemetry

inductive Level where
  | trace
  | debug
  | info
  | warn
  | error
deriving DecidableEq

def Level.text : Level → String
  | .trace => "TRACE"
  | .debug => "DEBUG"
  | .info => "INFO"
  | .warn => "WARN"
  | .error => "ERROR"

/-- How grave a record is, the gravest being 0. -/
def Level.rank : Level → Nat
  | .error => 0
  | .warn => 1
  | .info => 2
  | .debug => 3
  | .trace => 4

/-- The level that a setting names, in any case of its letters; `info` if it names none. -/
def Level.ofSetting (text : String) : Level :=
  match [Level.trace, .debug, .info, .warn, .error].find? (·.text = text.toUpper) with
  | some level => level
  | none => .info

inductive Event where
  | record (level : Level) (message : String)
  | hook (line : String)
  | resolved (key value : String)
  | released (key value : String)
deriving DecidableEq

namespace Event

def record? : Event → Option String
  | .record level message => some s!"{level.text} {message}"
  | _ => none

def isShown (level : Level) : Event → Bool
  | .record l _ => l.rank ≤ level.rank
  | _ => false

def line? : Event → Option String
  | .record _ _ => none
  | .hook line => some line
  | .resolved key value => some s!"resolve {key}={value}"
  | .released key value => some s!"release {key}={value}"

end Event

end Telemetry
