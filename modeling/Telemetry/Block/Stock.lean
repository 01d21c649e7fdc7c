import Telemetry.Block.Script

/-!
The drivers at hand: one that only tells of its attachments, one for fixed-point registers, and one
that performs a script.
-/

namespace Telemetry

inductive StockDriver where
  | lifecycle
  | fixedPoint
  | scripted (performance : Performance)

namespace StockDriver

def pass (d : StockDriver) (result : α) : Reply StockDriver α := ⟨d, [], result⟩

def perform (reply : Reply Performance α) : Reply StockDriver α :=
  ⟨.scripted reply.driver, reply.lines, reply.result⟩

instance : Driver StockDriver where
  attach block
    | .lifecycle => ⟨.lifecycle, [s!"attach {block}"], ()⟩
    | .fixedPoint => pass .fixedPoint ()
    | .scripted p => perform (Driver.attach block p)
  detach block
    | .lifecycle => ⟨.lifecycle, [s!"detach {block}"], ()⟩
    | .fixedPoint => pass .fixedPoint ()
    | .scripted p => perform (Driver.detach block p)
  latch scratch
    | .scripted p => perform (Driver.latch scratch p)
    | d => pass d []
  release scratch
    | .scripted p => perform (Driver.release scratch p)
    | d => pass d []
  read spec values scratch
    | .scripted p => perform (Driver.read spec values scratch p)
    | d => pass d ⟨false, [], []⟩
  convert spec raw scratch
    | .scripted p => perform (Driver.convert spec raw scratch p)
    | .fixedPoint => pass .fixedPoint (Telemetry.fixedPoint spec raw)
    | .lifecycle => pass .lifecycle (.ofWord raw)

end StockDriver

end Telemetry
