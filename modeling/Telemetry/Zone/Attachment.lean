import Telemetry.Block.Attachment
import Telemetry.Zone.Basic

/-!
Attaching a zone is all or nothing. Every block is prepared, then every block is registered, and
only then does any driver hear of it. When a block is refused, the registrations made so far are
taken back, then the preparations. A fault in between is the end of the zone: nothing is taken back.
-/

namespace Telemetry

namespace Zone

variable {δ : Type}

/--
Prepares blocks in order. On a failure, gives the blocks prepared before it and those from the
one that failed on; a refused one is left detached.
-/
def prepareBlocks (env : Surroundings) (domain zone : String) : List (Block δ) → Shared →
    Option Failure × List (Block δ) × List (Block δ) × Shared
  | [], s => (none, [], [], s)
  | b :: rest, s =>
    match b.prepare env domain zone s with
    | (some e, b, s) => (some e, [], b :: rest, s)
    | (none, b, s) =>
      let (failure, prepared, others, s) := prepareBlocks env domain zone rest s
      (failure, b :: prepared, others, s)

/-- Registers blocks in order: the refusal of one, if any, and how many were registered before. -/
def registerBlocks (registry : Nat) : List (Block δ) → Shared → Option Refusal × Nat × Shared
  | [], s => (none, 0, s)
  | b :: rest, s =>
    match b.register registry s with
    | (some r, s) => (some r, 0, s)
    | (none, s) =>
      let (refusal, count, s) := registerBlocks registry rest s
      (refusal, count + 1, s)

def unregisterBlocks (registry : Nat) : List (Block δ) → Shared → Option Fault × Shared
  | [], s => (none, s)
  | b :: rest, s =>
    match b.unregister registry s with
    | (some f, s) => (some f, s)
    | (none, s) => unregisterBlocks registry rest s

def unprepareBlocks : List (Block δ) → Shared → List (Block δ) × Shared
  | [], s => ([], s)
  | b :: rest, s =>
    let (b, s) := b.unprepare s
    let (rest, s) := unprepareBlocks rest s
    (b :: rest, s)

/-- Undoes the preparation of the blocks in `prepared` and the registration of the first ones. -/
def rollback (registry registered : Nat) (prepared others : List (Block δ)) (z : Zone δ)
    (s : Shared) : Option Fault × Zone δ × Shared :=
  let s := s.log .warn s!"rolling back attach of zone {z.name}"
  match unregisterBlocks registry (prepared.take registered) s with
  | (some f, s) => (some f, { z with blocks := prepared ++ others }, s)
  | (none, s) =>
    let (prepared, s) := unprepareBlocks prepared s
    (none, { z with blocks := prepared ++ others }, s)

/-- Rolls back on account of a refusal, which is the outcome unless a fault gets in the way. -/
def refuse (refusal : Refusal) (registry registered : Nat) (prepared others : List (Block δ))
    (z : Zone δ) (s : Shared) : Outcome Unit × Zone δ × Shared :=
  match z.rollback registry registered prepared others s with
  | (some f, z, s) => (.error (.fault f), z, s)
  | (none, z, s) => (.error (.refused refusal), z, s)

variable [Driver δ]

def attachBlocks : List (Block δ) → Shared → List (Block δ) × Shared
  | [], s => ([], s)
  | b :: rest, s =>
    let (b, s) := b.attach s
    let (rest, s) := attachBlocks rest s
    (b :: rest, s)

def attach (env : Surroundings) (domain : String) (registry : Nat) (handle : ZoneHandle)
    (z : Zone δ) (s : Shared) : Outcome Unit × Zone δ × Shared :=
  match prepareBlocks env domain z.name z.blocks s with
  | (some (.fault f), prepared, others, s) =>
    (.error (.fault f), { z with blocks := prepared ++ others }, s)
  | (some (.refused r), prepared, others, s) => z.refuse r registry 0 prepared others s
  | (none, prepared, others, s) =>
    match registerBlocks registry prepared s with
    | (some r, registered, s) => z.refuse r registry registered prepared others s
    | (none, _, s) =>
      let (blocks, s) := attachBlocks prepared s
      (.ok (), { z with blocks, handle := some handle },
        s.log .info s!"attached zone {z.name} to domain {domain} ({z.valueCount} values)")

def detach (registry : Nat) (z : Zone δ) (s : Shared) : Option Fault × Zone δ × Shared :=
  match passOver (Block.detach registry) z.blocks s with
  | (some f, blocks, s) => (some f, { z with blocks }, s)
  | (none, blocks, s) =>
    (none, { z with blocks, handle := none }, s.log .info s!"detached zone {z.name}")

end Zone

end Telemetry
