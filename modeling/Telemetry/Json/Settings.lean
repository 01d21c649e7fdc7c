import Telemetry.Domain.Config
import Telemetry.Json.Record
import Telemetry.Report.Filter

/-!
Settings read from JSON texts. Domain settings and filters have standard values for all fields;
register fields and flags have to be complete.
-/

namespace Telemetry

namespace Json

def greatestWord : Nat := 2 ^ 64 - 1

def greatestHalfWord : Nat := 2 ^ 32 - 1

def domainFields : List Field :=
  [⟨"name", .text, some (.text DomainConfig.standard.name)⟩,
    ⟨"interval_ms", .word greatestWord, some (.word DomainConfig.standard.interval.toNat)⟩,
    ⟨"clear_on_start", .flag, some (.flag DomainConfig.standard.clearOnStart)⟩]

def domainConfig? (text : String) : Except Failure DomainConfig := do
  match ← whole (readRecord domainFields) text with
  | [.text name, .word interval, .flag clearOnStart] =>
    .ok ⟨name, UInt64.ofNat interval, clearOnStart⟩
  | _ => .error .mismatch

def registerFields : List Field :=
  [⟨"offset", .word greatestWord, none⟩, ⟨"size", .word greatestWord, none⟩,
    ⟨"width", .word greatestHalfWord, none⟩, ⟨"shift", .word greatestHalfWord, none⟩,
    ⟨"invert", .flag, none⟩]

def registerField? (text : String) : Except Failure Register.Field := do
  match ← whole (readRecord registerFields) text with
  | [.word offset, .word size, .word width, .word shift, .flag invert] =>
    .ok ⟨UInt64.ofNat offset, UInt64.ofNat size, UInt32.ofNat width, UInt32.ofNat shift, invert⟩
  | _ => .error .mismatch

def flagFields : List Field :=
  [⟨"array", .flag, none⟩, ⟨"clear_on_read", .flag, none⟩, ⟨"never_clear", .flag, none⟩]

def metricFlags? (text : String) : Except Failure MetricFlags := do
  match ← whole (readRecord flagFields) text with
  | [.flag array, .flag clearOnRead, .flag neverClear] => .ok ⟨array, clearOnRead, neverClear⟩
  | _ => .error .mismatch

def filterFields : List Field :=
  [⟨"non_zero", .flag, some (.flag false)⟩, ⟨"types", .types, some (.types [])⟩]

def metricFilter? (text : String) : Except Failure MetricFilter := do
  match ← whole (readRecord filterFields) text with
  | [.flag nonZero, .types types] => .ok ⟨nonZero, types⟩
  | _ => .error .mismatch

def metricType? (text : String) : Except Failure MetricType := whole readType text

end Json

end Telemetry
