/-!
Machine words: numbers that have to fit a number of bits. A sum, a product, a duration, or a width
or number of places for the layout of a text is an overflow where it does not fit; nothing wraps
around.
-/

namespace Telemetry

-- A power or a sum is read the same way here as beside a wider algebra that has its own instances.
attribute [instance (20000), default_instance 20000] instPowNat
attribute [instance (20000)] Zero.ofOfNat0

inductive Overflow where
  | sum
  | product
  | duration
  | layout
deriving DecidableEq

namespace Overflow

def message : Overflow → String
  | .sum => "attempt to add with overflow"
  | .product => "attempt to multiply with overflow"
  | .duration => "overflow in Duration::new"
  | .layout => "Formatting argument out of range"

/-- The number itself, where it fits the bits; otherwise the overflow. -/
def unlessFits (overflow : Overflow) (bits n : Nat) : Except Overflow Nat :=
  if n < 2 ^ bits then .ok n else .error overflow

end Overflow

end Telemetry
