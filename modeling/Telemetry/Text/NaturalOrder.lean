/-!
Natural order of texts: byte by byte, but a run of ASCII digits counts as one number, of any
length, so that `q2` comes before `q10`. Two runs of equal value compare equal whatever zeros lead
them.
-/

namespace Telemetry

namespace NaturalOrder

def isDigit (b : UInt8) : Bool := 48 ≤ b && b ≤ 57

def compareBytes : List UInt8 → List UInt8 → Ordering
  | [], [] => .eq
  | [], _ :: _ => .lt
  | _ :: _, [] => .gt
  | x :: xs, y :: ys => (compare x y).then (compareBytes xs ys)

def significant (run : List UInt8) : List UInt8 := run.dropWhile (· == 48)

/-- The order of the values of two runs of digits: the longer significant run is the greater. -/
def compareRuns (a b : List UInt8) : Ordering :=
  (compare (significant a).length (significant b).length).then
    (compareBytes (significant a) (significant b))

def compareTexts : List UInt8 → List UInt8 → Ordering
  | [], [] => .eq
  | [], _ :: _ => .lt
  | _ :: _, [] => .gt
  | x :: xs, y :: ys =>
    if isDigit x && isDigit y then
      (compareRuns (x :: xs.takeWhile isDigit) (y :: ys.takeWhile isDigit)).then
        (compareTexts (xs.dropWhile isDigit) (ys.dropWhile isDigit))
    else if x = y then compareTexts xs ys
    else compare x y
termination_by a _ => a.length
decreasing_by
  · have := (List.dropWhile_sublist (l := xs) isDigit).length_le
    simp; omega
  · simp

end NaturalOrder

def naturalCompare (a b : String) : Ordering :=
  NaturalOrder.compareTexts a.toUTF8.toList b.toUTF8.toList

/-- Sorted in natural order of a key, equal keys as they came. -/
def naturalSort (key : α → String) (items : List α) : List α :=
  items.mergeSort fun a b => naturalCompare (key a) (key b) != .gt

end Telemetry
