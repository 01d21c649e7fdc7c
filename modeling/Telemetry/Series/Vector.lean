import Telemetry.Number.Binary64
import Telemetry.Series.Descriptor

/-!
Vectors of exported series. A vector finds its children by the fingerprint of their label values, so
two tuples share a child if their concatenations agree, or if just the fingerprints of these do. A
child bears the values it was made for.

All vectors live in one store and are referred to by their number there: a collector, its copy in a
registry and the elements that publish to it see the same children.
-/

namespace Telemetry

namespace Series

inductive Kind where
  | counter
  | gauge
deriving DecidableEq

def Kind.text : Kind → String
  | .counter => "counter"
  | .gauge => "gauge"

structure Child where
  values : List String
  value : Binary64
deriving DecidableEq

def Child.key (c : Child) : Fingerprint := .ofJoined c.values

structure Vector where
  descriptor : Descriptor
  kind : Kind
  children : List Child
deriving DecidableEq

structure Ref where
  vector : Nat
  key : Fingerprint
deriving DecidableEq

structure Store where
  vectors : List Vector
  /-- How far counters of whole numbers have come, each of which is a word. -/
  counts : List (Ref × UInt64)

/-- One exported value with its labels, in order of their names. -/
structure Sample where
  labels : List (String × String)
  value : Binary64
deriving DecidableEq

structure Family where
  name : String
  help : String
  kind : Kind
  samples : List Sample
deriving DecidableEq

namespace Vector

/-- Makes a child for a tuple of label values, unless there is one with its fingerprint. -/
def bind (v : Vector) (values : List String) : Except Rejection Vector :=
  if values.length ≠ v.descriptor.labelNames.length then
    .error (.cardinality v.descriptor.labelNames.length values.length)
  else if v.children.any (·.key == .ofJoined values) then .ok v
  else .ok { v with children := v.children ++ [⟨values, .zero false⟩] }

def set (v : Vector) (key : Fingerprint) (value : Binary64) : Vector :=
  { v with children := v.children.map fun c => if c.key = key then { c with value } else c }

def clear (v : Vector) : Vector := { v with children := [] }

def sample (v : Vector) (c : Child) : Sample :=
  let labels := v.descriptor.labelNames.zip c.values ++ v.descriptor.constants
  ⟨labels.mergeSort (fun a b => a.1 ≤ b.1), c.value⟩

def family (v : Vector) : Family :=
  ⟨v.descriptor.name, v.descriptor.help, v.kind, v.children.map v.sample⟩

end Vector

namespace Store

def empty : Store := ⟨[], []⟩

def get? (s : Store) (i : Nat) : Option Vector := s.vectors[i]?

def add (s : Store) (v : Vector) : Nat × Store :=
  (s.vectors.length, { s with vectors := s.vectors ++ [v] })

def modify (s : Store) (i : Nat) (f : Vector → Vector) : Store :=
  { s with vectors := s.vectors.modify i f }

def set (s : Store) (ref : Ref) (value : Binary64) : Store :=
  s.modify ref.vector (·.set ref.key value)

def value? (s : Store) (ref : Ref) : Option Binary64 :=
  (s.get? ref.vector).bind fun v => (v.children.find? (·.key = ref.key)).map (·.value)

def count (s : Store) (ref : Ref) : UInt64 :=
  ((s.counts.find? (·.1 = ref)).map (·.2)).getD 0

/-- Counts one more; what is shown is the word nearest to the count. -/
def increment (s : Store) (ref : Ref) : Store :=
  let count := s.count ref + 1
  { s.set ref (.ofWord count) with
    counts := (ref, count) :: s.counts.filter (·.1 ≠ ref) }

def clear (s : Store) (vectors : List Nat) : Store :=
  vectors.foldl (fun s i => s.modify i Vector.clear) s

def descriptors (s : Store) (vectors : List Nat) : List Descriptor :=
  vectors.filterMap fun i => (s.get? i).map (·.descriptor)

def families (s : Store) (vectors : List Nat) : List Family :=
  vectors.filterMap fun i => (s.get? i).map (·.family)

end Store

end Series

end Telemetry
