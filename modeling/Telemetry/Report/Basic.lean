import Telemetry.Domain.Basic
import Telemetry.Report.Layout

/-!
The report of a domain: its rows are collected on one walk under the lock and laid out after it.
-/

namespace Telemetry

namespace Domain

variable {δ : Type}

def reportRows (filter : MetricFilter) (options : Report.Options) (d : Domain δ) (s : Shared) :
    Outcome (List Report.Row) :=
  let collect (v : Visit) (rows : List Report.Row) : Option Empty × List Report.Row :=
    (none, rows ++ Report.rowsOf filter options v)
  (d.forEachMetric collect [] s).outcome.map (·.2)

def report (filter : MetricFilter) (options : Report.Options) (d : Domain δ) (s : Shared) :
    Outcome String := do
  let rows ← d.reportRows filter options s
  let lines ← (Report.lines options rows).mapError fun overflow => .fault (.overflow overflow)
  .ok (Report.text lines)

end Domain

end Telemetry
