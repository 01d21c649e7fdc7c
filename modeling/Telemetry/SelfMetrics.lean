import Telemetry.Block.Basic

/-!
The exporter's metrics about itself: scrapes served, dataset rows written, and how far the replay
has come. Each is a collector of one series without labels.
-/

namespace Telemetry

structure SelfMetrics where
  scrapes : Series.Ref
  samples : Series.Ref
  position : Series.Ref
  totalSamples : Series.Ref
  speed : Series.Ref
deriving DecidableEq

namespace SelfMetrics

open Series (Rejection Ref Vector)

def only (vector : Nat) : Ref := ⟨vector, .ofJoined []⟩

def vector (kind : Series.Kind) (name help : String) : Vector :=
  ⟨⟨name, help, [], []⟩, kind, [⟨[], .zero false⟩]⟩

def scrapesVector : Vector :=
  vector .counter "regstats_exporter_scrapes_total" "Total metrics scrapes served"

def samplesVector : Vector :=
  vector .counter "regstats_exporter_samples_total" "Total dataset rows written to registers"

def positionVector : Vector :=
  vector .gauge "regstats_exporter_replay_position" "Current replay position (row index)"

def totalSamplesVector : Vector :=
  vector .gauge "regstats_exporter_replay_total_samples" "Total rows in the replay dataset"

def speedVector : Vector :=
  vector .gauge "regstats_exporter_replay_speed" "Replay speed multiplier"

/-- Adds a vector to the store and registers it; it stays in the store if it is turned away. -/
def registerOne (registry : Nat) (v : Vector) (s : Shared) : Except Rejection Ref × Shared :=
  let (i, store) := s.store.add v
  let (result, r) := (s.registry registry).register [v.descriptor] [i]
  (result.map fun _ => only i, { s with store }.setRegistry registry r)

def registerAll (registry : Nat) : List Vector → Shared → Except Rejection (List Ref) × Shared
  | [], s => (.ok [], s)
  | v :: rest, s =>
    match registerOne registry v s with
    | (.error e, s) => (.error e, s)
    | (.ok ref, s) =>
      match registerAll registry rest s with
      | (.error e, s) => (.error e, s)
      | (.ok refs, s) => (.ok (ref :: refs), s)

def vectors : List Vector :=
  [scrapesVector, samplesVector, positionVector, totalSamplesVector, speedVector]

def register (registry : Nat) (s : Shared) : Except Rejection SelfMetrics × Shared :=
  match registerAll registry vectors s with
  | (.error e, s) => (.error e, s)
  | (.ok [scrapes, samples, position, totalSamples, speed], s) =>
    (.ok ⟨scrapes, samples, position, totalSamples, speed⟩, s)
  | (.ok _, s) => (.error .notRegistered, s)

def countScrape (m : SelfMetrics) (s : Shared) : Shared :=
  { s with store := s.store.increment m.scrapes }

def countSample (m : SelfMetrics) (s : Shared) : Shared :=
  { s with store := s.store.increment m.samples }

def setReplay (m : SelfMetrics) (position total : Nat) (speed : Binary64) (s : Shared) : Shared :=
  let store := s.store.set m.position (.ofNat position)
  let store := store.set m.totalSamples (.ofNat total)
  { s with store := store.set m.speed speed }

end SelfMetrics

end Telemetry
