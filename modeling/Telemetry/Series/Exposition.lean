import Telemetry.Number.Layout
import Telemetry.Series.Vector

/-!
The text exposition of gathered families: a help line and a type line for each, then a line per
sample with its labels, if it has any, and its value.
-/

namespace Telemetry

namespace Series

def escapeHelp (text : String) : String :=
  String.ofList (text.toList.flatMap fun
    | '\\' => ['\\', '\\']
    | '\n' => ['\\', 'n']
    | c => [c])

def escapeValue (text : String) : String :=
  String.ofList (text.toList.flatMap fun
    | '\\' => ['\\', '\\']
    | '\n' => ['\\', 'n']
    | '"' => ['\\', '"']
    | c => [c])

def Sample.labelText (s : Sample) : String :=
  match s.labels with
  | [] => ""
  | labels =>
    let pairs := labels.map fun (name, value) => s!"{name}=\"{escapeValue value}\""
    "\x7b" ++ ",".intercalate pairs ++ "\x7d"

def Family.text (f : Family) : String :=
  s!"# HELP {f.name} {escapeHelp f.help}\n# TYPE {f.name} {f.kind.text}\n" ++
    String.join (f.samples.map fun s => s!"{f.name}{s.labelText} {s.value.plain}\n")

def exposition (families : List Family) : String := String.join (families.map Family.text)

end Series

end Telemetry
