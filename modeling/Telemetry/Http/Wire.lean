import Telemetry.Http.Service

/-!
Responses as text: a line with the code and the type of the content, and the body. The status is
written as JSON.
-/

namespace Telemetry

namespace Http

def jsonChar (c : Char) : List Char :=
  match c with
  | '"' => ['\\', '"']
  | '\\' => ['\\', '\\']
  | '\n' => ['\\', 'n']
  | '\r' => ['\\', 'r']
  | '\t' => ['\\', 't']
  | '\x08' => ['\\', 'b']
  | '\x0c' => ['\\', 'f']
  | c =>
    if c.toNat < 0x20 then
      ['\\', 'u', '0', '0', Nat.digitChar (c.toNat / 16), Nat.digitChar (c.toNat % 16)]
    else [c]

def jsonText (text : String) : String :=
  String.ofList (['"'] ++ text.toList.flatMap jsonChar ++ ['"'])

def jsonObject (fields : List (String × String)) : String :=
  let members := fields.map fun (name, value) => s!"{jsonText name}:{value}"
  "\x7b" ++ ",".intercalate members ++ "\x7d"

def jsonArray (items : List String) : String := "[" ++ ",".intercalate items ++ "]"

def datasetJson (d : DatasetInfo) : String :=
  jsonObject [("column_count", toString d.columnCount), ("sample_count", toString d.sampleCount),
    ("duration_ms", toString d.duration), ("columns", jsonArray (d.columns.map jsonText))]

def replayJson (r : ReplayStatus) : String :=
  jsonObject [("running", toString r.running), ("position", toString r.position),
    ("total_samples", toString r.total), ("progress_percent", r.progress.literal),
    ("dataset", datasetJson r.dataset)]

def domainJson (d : DomainStatus) : String :=
  jsonObject [("name", jsonText d.name), ("running", toString d.running),
    ("interval_ms", toString d.interval), ("zones", toString d.zones),
    ("values", toString d.values)]

def statusJson (uptime : Nat) (s : Status) : String :=
  let replay := match s.replay with
    | some r => [("replay", replayJson r)]
    | none => []
  jsonObject ([("version", jsonText s.version), ("uptime_secs", toString uptime),
    ("domain", domainJson s.domain)] ++ replay)

def Body.render (uptime : Nat) (body : Body) : String :=
  match body with
  | .text content => content
  | .status s => statusJson uptime s

def Response.render (uptime : Nat) (r : Response) : String :=
  s!"{r.code} {r.contentType}\n{r.body.render uptime}"

end Http

end Telemetry
