import Telemetry.Domain.Basic
import Telemetry.Number.Layout
import Telemetry.Text.Quoted

/-!
Outlines: the texts in which specifications and the objects made from them are listed for
inspection. A record is its name and its fields in braces, a sequence its members in brackets, an
optional value `None` or `Some` of it.
-/

namespace Telemetry

namespace Outline

open Text (quoted)

def record (name : String) (fields : List (String × String)) : String :=
  match fields with
  | [] => name
  | fields =>
    let texts := fields.map fun (field, value) => s!"{field}: {value}"
    name ++ " \x7b " ++ ", ".intercalate texts ++ " \x7d"

def wrapped (name value : String) : String := s!"{name}({value})"

def sequence (items : List String) : String := "[" ++ ", ".intercalate items ++ "]"

def optional : Option String → String
  | none => "None"
  | some value => wrapped "Some" value

def flag (b : Bool) : String := if b then "true" else "false"

def word (w : UInt64) : String := toString w.toNat

def field (f : Register.Field) : String :=
  record "RegisterField" [("offset", word f.offset), ("size", word f.size),
    ("width", toString f.width.toNat), ("shift", toString f.shift.toNat), ("invert", flag f.invert)]

def flags (f : MetricFlags) : String :=
  record "MetricFlags" [("array", flag f.array), ("clear_on_read", flag f.clearOnRead),
    ("never_clear", flag f.neverClear)]

def labelSpec (l : LabelSpec) : String :=
  let value := match l.value with
    | .fixed text => wrapped "Fixed" (quoted text)
    | .computed _ => wrapped "Computed" ".."
  record "LabelSpec" [("key", quoted l.key), ("value", value), ("internal", flag l.internal)]

def indexLabel (l : IndexLabel) : String :=
  record "IndexLabel" [("key", quoted l.key), ("custom_format", flag l.format.isSome),
    ("internal", flag l.internal)]

def metricSpec (s : MetricSpec) : String :=
  record "MetricSpec" [("name", quoted s.name), ("desc", quoted s.desc),
    ("metric_type", s.type.name), ("flags", flags s.flags), ("nelements", toString s.nelements),
    ("init_value", word s.init), ("field", field s.field),
    ("labels", sequence (s.labels.map labelSpec)), ("index_label", indexLabel s.indexLabel),
    ("data", word s.data)]

def label (l : Label) : String :=
  record "Label" [("key", quoted l.key), ("value", quoted l.value), ("internal", flag l.internal)]

def element (e : Element) : String :=
  record "Element" [("value", word e.value), ("last", word e.last),
    ("converted", e.converted.literal),
    ("labels", record "LabelSet" [("labels", sequence (e.labels.map label))]),
    ("exported", flag e.series.isSome)]

def metric (m : Metric) : String :=
  let computed := m.computed.map fun (index, value) => s!"({index}, {quoted value})"
  record "Metric" [("spec", metricSpec m.spec), ("elements", sequence (m.elements.map element)),
    ("computed", sequence computed)]

def collector (c : Collector) : String :=
  record "BlockCollector" [("block", quoted c.block), ("metrics", toString c.vectors.length)]

def handle (h : ZoneHandle) : String :=
  record "ZoneHandle" [("domain", toString h.domain), ("zone", toString h.zone)]

variable {δ : Type}

def block (b : Block δ) : String :=
  record "Block" [("name", quoted b.name), ("metrics", sequence (b.metrics.map metric)),
    ("last_update", optional (b.lastUpdate.map toString)),
    ("collector", optional (b.collector.map collector))]

def zone (z : Zone δ) : String :=
  record "Zone" [("name", quoted z.name), ("enabled", flag z.enabled),
    ("blocks", sequence (z.blocks.map block)), ("handle", optional (z.handle.map handle))]

/-- The size of a block's window takes the place of the window. -/
def blockSpec (windows : List Register.Window) (b : BlockSpec δ) : String :=
  let size := (b.window.bind (windows[·]?)).map fun w => toString w.bytes.length
  record "BlockSpec" [("name", quoted b.name), ("io", optional size),
    ("metrics", toString b.metrics.length), ("latch_buffer_size", toString b.scratchSize),
    ("driver", flag b.driver.isSome)]

def zoneSpec (windows : List Register.Window) (z : ZoneSpec δ) : String :=
  record "ZoneSpec"
    [("name", quoted z.name), ("blocks", sequence (z.blocks.map (blockSpec windows)))]

def domain (d : Domain δ) : String :=
  record "Domain" [("id", toString d.id), ("name", quoted d.name),
    ("interval", intervalText d.interval)]

end Outline

end Telemetry
