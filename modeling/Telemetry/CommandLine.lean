import Telemetry.Number.Reader

/-!
The command line: options with a value, behind the name or attached to it, and switches.

A value that stands behind its option is looked at only when the next known option or the end of
the line comes; an argument that is not known is reported before that.
-/

namespace Telemetry

structure Arguments where
  port : Nat
  csv : Option String
  speed : Binary64
  looping : Bool
  domain : String
  /-- Milliseconds. -/
  interval : UInt64
  noClearOnStart : Bool
  logLevel : String

namespace Arguments

def standard : Arguments :=
  ⟨9100, none, .ofNat 1, true, "regstats", 1000, false, "info"⟩

end Arguments

inductive ArgumentError where
  | unknownArgument
  | missingValue
  | badValue
  | unneededValue
  | repeated
  | help
  | version
deriving DecidableEq

/-- Names of options, and of switches from `noLoop` on. -/
inductive OptionName where
  | port
  | csv
  | speed
  | domain
  | interval
  | logLevel
  | noLoop
  | noClearOnStart
  | help
  | version
deriving DecidableEq

namespace OptionName

def ofLong? : String → Option OptionName
  | "port" => some .port
  | "csv" => some .csv
  | "speed" => some .speed
  | "domain" => some .domain
  | "interval-ms" => some .interval
  | "log-level" => some .logLevel
  | "no-loop" => some .noLoop
  | "no-clear-on-start" => some .noClearOnStart
  | "help" => some .help
  | "version" => some .version
  | _ => none

def ofShort? : Char → Option OptionName
  | 'p' => some .port
  | 'c' => some .csv
  | 's' => some .speed
  | 'h' => some .help
  | 'V' => some .version
  | _ => none

def takesValue : OptionName → Bool
  | .noLoop | .noClearOnStart | .help | .version => false
  | _ => true

end OptionName

namespace CommandLine

/-- The options so far; the one that came last may still wait for its value. -/
structure State where
  arguments : Arguments
  seen : List OptionName
  pending : Option (OptionName × Option String)

def greatestPort : Int := 65535

def port? (text : String) : Option Nat :=
  ((Reader.integer? text).filter fun n => 0 ≤ n && n ≤ greatestPort).map Int.toNat

/-- The arguments with the value of an option, if it is a good one. -/
def withValue (name : OptionName) (value : String) (a : Arguments) : Option Arguments :=
  match name with
  | .port => (port? value).map fun port => { a with port }
  | .csv => some { a with csv := some value }
  | .speed => (Reader.binary64? value).map fun speed => { a with speed }
  | .domain => some { a with domain := value }
  | .interval => (Reader.word? value).map fun interval => { a with interval }
  | .logLevel => some { a with logLevel := value }
  | .noLoop => some { a with looping := false }
  | .noClearOnStart => some { a with noClearOnStart := true }
  | .help | .version => none

/-- Takes an option, which may come only once. -/
def take (name : OptionName) (value : String) (s : State) : Except ArgumentError State :=
  if s.seen.contains name then .error .repeated
  else
    match withValue name value s.arguments with
    | some arguments => .ok { s with arguments, seen := name :: s.seen }
    | none => .error .badValue

def settle (s : State) : Except ArgumentError State :=
  match s.pending with
  | none => .ok s
  | some (_, none) => .error .missingValue
  | some (name, some value) => take name value { s with pending := none }

/-- An option with an attached value, or one whose value is to follow. -/
def onOption (name : OptionName) (value : Option String) (s : State) :
    Except ArgumentError State := do
  let s ← settle s
  match value with
  | some value => take name value s
  | none => .ok { s with pending := some (name, none) }

def onSwitch (name : OptionName) (s : State) : Except ArgumentError State := do
  let s ← settle s
  match name with
  | .help => .error .help
  | .version => .error .version
  | name => take name "" s

def onLong (text : List Char) (s : State) : Except ArgumentError State :=
  let name := text.takeWhile (· ≠ '=')
  let value := match text.dropWhile (· ≠ '=') with
    | [] => none
    | _ :: value => some (String.ofList value)
  match OptionName.ofLong? (String.ofList name) with
  | none => .error .unknownArgument
  | some name =>
    if name.takesValue then onOption name value s
    else if value.isSome then .error .unneededValue
    else onSwitch name s

def onShort : List Char → State → Except ArgumentError State
  | [], s => .ok s
  | c :: rest, s =>
    match OptionName.ofShort? c with
    | none => .error .unknownArgument
    | some name =>
      if name.takesValue then
        match rest with
        | [] => onOption name none s
        | '=' :: value => onOption name (some (String.ofList value)) s
        | value => onOption name (some (String.ofList value)) s
      else do onShort rest (← onSwitch name s)

/-- An argument that is no option: the value that one waits for, or else unknown. -/
def onValue (text : String) (s : State) : Except ArgumentError State :=
  match s.pending with
  | some (name, none) => .ok { s with pending := some (name, some text) }
  | _ => .error .unknownArgument

def onArgument (text : String) (s : State) : Except ArgumentError State :=
  match text.toList with
  | '-' :: '-' :: long => onLong long s
  | ['-'] => onValue text s
  | '-' :: short => onShort short s
  | _ => onValue text s

def takeAll : List String → State → Except ArgumentError State
  | [], s => settle s
  | text :: rest, s =>
    if text = "--" then
      if rest.isEmpty then settle s else .error .unknownArgument
    else do takeAll rest (← onArgument text s)

end CommandLine

def Arguments.ofList? (texts : List String) : Except ArgumentError Arguments :=
  (CommandLine.takeAll texts ⟨.standard, [], none⟩).map (·.arguments)

end Telemetry
