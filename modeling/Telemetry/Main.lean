import Telemetry.CommandLine
import Telemetry.Http.Wire

/-!
The program: serves a domain whose registers are replayed from a dataset.

Requests are read from standard input, one target per line, and answered on standard output; log
records go to standard error. Before each request the replay is brought up to the time that has
passed, and the sampler makes a pass.
-/

namespace Telemetry

namespace Program

/-- A host with its one domain, and the times of the start and of the last request. -/
structure Service where
  host : Host
  level : Level
  started : Nat
  reached : Nat

def host? (arguments : Arguments) : Except Series.Rejection Host :=
  match SelfMetrics.register 0 (.ofRegistries 1) with
  | (.error e, _) => .error e
  | (.ok metrics, shared) =>
    let config : DomainConfig :=
      ⟨arguments.domain, arguments.interval, !arguments.noClearOnStart⟩
    .ok (Host.addDomain 0 config ⟨[], shared, [], metrics, none, 0, 0⟩)

def settings (arguments : Arguments) : Replay.Settings :=
  ⟨arguments.speed, arguments.looping, 1000, "replay", "dataset"⟩

def note (message : String) (h : Host) : Host :=
  { h with shared := h.shared.log .error message }

def startReplay (arguments : Arguments) (bytes : List UInt8) (h : Host) : Host :=
  match h.loadDataset bytes with
  | (.error e, h) => note s!"Failed to load dataset: {e.message}" h
  | (.ok dataset, h) =>
    match h.domain? 0 with
    | none => h
    | some d =>
      match h.addReplay 0 d dataset (settings arguments) (some h.selfMetrics) with
      | (.ok _, h) => h
      | (.error e, h) => note s!"Failed to load dataset: {Http.failureMessage e}" h

def startDomain (h : Host) : Host :=
  match h.domain? 0 with
  | some d => (h.onDomain 0 d fun env d s => d.start env s).2
  | none => h

def answer (line : String) (now : Nat) (s : Service) : String × Service :=
  let elapsed := now / 1000000 - s.reached
  let host := ({ s.host with now }.advance elapsed).sample
  let s := { s with host, reached := s.reached + elapsed }
  match Http.Target.ofText? line, host.domain? 0 with
  | some target, some d =>
    let (r, host) := Http.answer target d host
    (r.render ((s.reached - s.started) / 1000), { s with host })
  | _, _ => ("400 " ++ Http.plainType ++ "\n", s)

def takeRecords (s : Service) : List String × Service :=
  ((s.host.shared.events.filter (Event.isShown s.level)).filterMap Event.record?,
    { s with host.shared := s.host.shared.withoutEvents })

def usage : String :=
  "usage: [-p|--port PORT] [-c|--csv FILE] [-s|--speed FACTOR] [--no-loop] [--domain NAME] " ++
    "[--interval-ms MS] [--no-clear-on-start] [--log-level LEVEL]"

def showRecords (s : Service) : IO Service := do
  let (records, s) := takeRecords s
  for record in records do IO.eprintln record
  return s

partial def serve (input : IO.FS.Stream) (s : Service) : IO Unit := do
  let line ← input.getLine
  if line.isEmpty then return
  let (text, s) := answer line.trimAsciiEnd.toString (← IO.monoNanosNow) s
  IO.println text
  serve input (← showRecords s)

def run (arguments : Arguments) : IO UInt32 := do
  match host? arguments with
  | .error e =>
    IO.eprintln e.message
    return 1
  | .ok host =>
    let host ← match arguments.csv with
      | none => pure host
      | some path =>
        try
          let bytes ← IO.FS.readBinFile path
          pure (startReplay arguments bytes.toList host)
        catch _ =>
          let missing := DatasetError.missing path
          pure (note s!"Failed to load dataset: {missing.message}" host)
    let started := (← IO.monoNanosNow) / 1000000
    let s : Service := ⟨startDomain host, .ofSetting arguments.logLevel, started, started⟩
    serve (← IO.getStdin) (← showRecords s)
    return 0

end Program

end Telemetry

open Telemetry in
def main (args : List String) : IO UInt32 := do
  match Arguments.ofList? args with
  | .ok arguments => Program.run arguments
  | .error .help =>
    IO.println Program.usage
    return 0
  | .error .version =>
    IO.println Http.version
    return 0
  | .error _ =>
    IO.eprintln Program.usage
    return 2
