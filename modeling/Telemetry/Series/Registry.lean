import Telemetry.Series.Vector

/-!
Registries of collectors. A collector is known by the sum of its descriptors' identities, modulo
`2 ^ 64`: two collectors with one sum count as the same, and the one that is removed frees its own
identities only. A registry remembers the dimensions of every metric name from the moment it first
walks over a descriptor of that name, and forgets them never: not when the registration fails
further on, nor when the collector is removed again.
-/

namespace Telemetry

namespace Series

/-- A registered collector: the sum of its identities, and its vectors. -/
structure Entry where
  identity : Fingerprint
  vectors : List Nat
deriving DecidableEq

structure Registry where
  entries : List Entry
  identities : List Fingerprint
  dimensions : List (String × Fingerprint)

namespace Registry

def empty : Registry := ⟨[], [], []⟩

def dimensions? (r : Registry) (name : String) : Option Fingerprint :=
  (r.dimensions.find? (·.1 = name)).map (·.2)

def holds (r : Registry) (identity : Fingerprint) : Bool :=
  r.entries.any (·.identity = identity)

/--
Walks over the descriptors of a collector, recording dimensions. `seen` holds the identities of
those before, latest first.
-/
def enroll (r : Registry) (seen : List Fingerprint) :
    List Descriptor → Except Rejection Unit × Registry
  | [] => (.ok (), r)
  | d :: rest =>
    if r.identities.contains d.identity then (.error .duplicateCollector, r)
    else if (r.dimensions? d.name).any (· ≠ d.dimensions) then (.error .dimensions, r)
    else
      let r :=
        if (r.dimensions? d.name).isSome then r
        else { r with dimensions := r.dimensions ++ [(d.name, d.dimensions)] }
      if seen.contains d.identity then (.error (.repeatedDescriptor d.name), r)
      else r.enroll (d.identity :: seen) rest

def register (r : Registry) (descriptors : List Descriptor) (vectors : List Nat) :
    Except Rejection Unit × Registry :=
  match r.enroll [] descriptors with
  | (.error e, r) => (.error e, r)
  | (.ok (), r) =>
    let identities := descriptors.map (·.identity)
    if r.holds identities.sum then (.error .duplicateCollector, r)
    else
      (.ok (), { r with
        entries := r.entries ++ [⟨identities.sum, vectors⟩]
        identities := r.identities ++ identities })

/-- Removes the collector that is known by these descriptors, each identity counted once. -/
def unregister (r : Registry) (descriptors : List Descriptor) : Except Rejection Unit × Registry :=
  let identities := (descriptors.map (·.identity)).eraseDups
  if r.holds identities.sum then
    (.ok (), { r with
      entries := r.entries.filter (·.identity ≠ identities.sum)
      identities := r.identities.filter (· ∉ identities) })
  else (.error .notRegistered, r)

def merge (f : Family) : List Family → List Family
  | [] => [f]
  | g :: rest =>
    if g.name = f.name then { g with samples := g.samples ++ f.samples } :: rest
    else g :: merge f rest

def valuesLE : List String → List String → Bool
  | [], _ => true
  | _ :: _, [] => false
  | x :: xs, y :: ys => if x = y then valuesLE xs ys else x ≤ y

/-- Everything there is to export: families by name, without empty ones, samples by label values. -/
def gather (r : Registry) (s : Store) : List Family :=
  let all := (r.entries.flatMap fun e => s.families e.vectors).filter (!·.samples.isEmpty)
  let merged := all.foldl (fun families f => merge f families) []
  let sorted := merged.map fun f =>
    { f with samples := f.samples.mergeSort fun a b =>
        valuesLE (a.labels.map (·.2)) (b.labels.map (·.2)) }
  sorted.mergeSort fun a b => a.name ≤ b.name

end Registry

end Series

end Telemetry
