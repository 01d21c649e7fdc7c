import Telemetry.Block.Buffer
import Telemetry.Proofs.Direct
import Telemetry.Proofs.Sampled

/-! The read buffer of a block keeps its metrics apart. It has room for every metric, and a metric
writes all of its slots before it looks at them; so a pass through the buffer is a pass in which each
metric has zeros of its own, whatever other metrics and earlier passes have left behind. -/
namespace Telemetry

open Register (overlay)

namespace Block

theorem fillSlots_eq (w : Register.Window) (name : String) (spec : MetricSpec) (index : Nat)
    (slots : List UInt64) :
    (fillSlots w name spec index slots).2.length = slots.length ∧
      (List.range' index slots.length).mapM (readElement w name spec) =
        match fillSlots w name spec index slots with
        | (some f, _) => .error f
        | (none, values) => .ok values := by
  induction slots generalizing index with
  | nil => exact ⟨rfl, rfl⟩
  | cons slot rest ih =>
    obtain ⟨length, same⟩ := ih (index + 1)
    simp only [List.length_cons, List.range'_succ, List.mapM_cons, fillSlots]
    cases readElement w name spec index with
    | error f => exact ⟨rfl, rfl⟩
    | ok value =>
      simp only [same]
      cases filled : fillSlots w name spec (index + 1) rest with | mk fault values =>
      rw [filled] at length
      cases fault with
      | some f => exact ⟨congrArg Nat.succ length, rfl⟩
      | none => exact ⟨congrArg Nat.succ length, rfl⟩

theorem readInto_eq (env : Surroundings) (name : String) (window : Option Nat) (spec : MetricSpec)
    (slots : List UInt64) :
    (readInto env name window spec slots).2.length = slots.length ∧
      readSamples env name window spec slots.length =
        (readInto env name window spec slots).1.map
          ((readInto env name window spec slots).2, ·) := by
  simp only [readInto, readSamples, readDirect]
  cases window.bind (env.windows[·]?) with
  | none => exact ⟨rfl, rfl⟩
  | some w =>
    obtain ⟨length, same⟩ := fillSlots_eq w name spec 0 slots
    rw [List.range_eq_range']
    simp only [same]
    cases filled : fillSlots w name spec 0 slots with | mk fault values =>
    rw [filled] at length
    cases fault with
    | some f => exact ⟨length, rfl⟩
    | none => cases spec.field.valueMask <;> exact ⟨length, rfl⟩

variable {δ : Type} [Driver δ] (env : Surroundings) (name : String) (window : Option Nat)
  (clear : Bool) {m : Metric} {s : ReadState δ}

def readSlots (m : Metric) (s : PassState δ) : Except Fault UInt64 × List UInt64 :=
  let slots := overlay (readReply m s).result.values (List.replicate m.elements.length 0)
  if (readReply m s).result.supplied then (.ok m.spec.field.widthMask, slots)
  else readInto env name window m.spec slots

theorem readBuffered_room (room : m.elements.length ≤ s.raw.length) :
    readBuffered env name window m s = ((readSlots env name window m s.pass).1,
      ⟨asked m s.pass,
        (readSlots env name window m s.pass).2 ++ s.raw.drop m.elements.length⟩) := by
  have zeros : (s.raw.take m.elements.length).map (fun _ => (0 : UInt64)) =
      List.replicate m.elements.length 0 := by
    rw [List.map_const', List.length_take, Nat.min_eq_left room]
  simp only [readBuffered, if_neg (Nat.not_lt.mpr room), zeros]
  rfl

theorem readSlots_eq (m : Metric) (s : PassState δ) :
    (readSlots env name window m s).2.length = m.elements.length ∧
      readMetric env name window m s = ((readSlots env name window m s).1.map
        ((readSlots env name window m s).2, ·), asked m s) := by
  have sized : (overlay (readReply m s).result.values
      (List.replicate m.elements.length (0 : UInt64))).length = m.elements.length := by
    rw [Register.overlay_length, List.length_replicate]
  obtain ⟨length, same⟩ := readInto_eq env name window m.spec (overlay
    (readReply m s).result.values (List.replicate m.elements.length 0))
  rw [sized] at length same
  simp only [readMetric_eq, readSlots]
  cases (readReply m s).result.supplied with
  | true => exact ⟨sized, rfl⟩
  | false => exact ⟨length, congrArg (·, asked m s) same⟩

theorem sampleBuffered_eq (room : m.elements.length ≤ s.raw.length) :
    ∃ raw, sampleBuffered env name window clear m s =
        ((sampleMetric env name window clear m s.pass).1,
          ⟨(sampleMetric env name window clear m s.pass).2, raw⟩) ∧
      raw.length = s.raw.length := by
  obtain ⟨length, read⟩ := readSlots_eq env name window m s.pass
  refine ⟨(readSlots env name window m s.pass).2 ++ s.raw.drop m.elements.length, ?_, ?_⟩
  · simp only [sampleBuffered, sampleMetric, readBuffered_room env name window room, read]
    cases (readSlots env name window m s.pass).1 with
    | error f => rfl
    | ok mask => simp only [Except.map, List.take_left' length]
  · rw [List.length_append, List.length_drop, length]
    omega

theorem sweep_buffered {ms : List Metric}
    (room : ∀ m ∈ ms, m.elements.length ≤ s.raw.length) :
    ∃ raw, sweep (sampleBuffered env name window clear) ms s =
        ((sweep (sampleMetric env name window clear) ms s.pass).1,
          (sweep (sampleMetric env name window clear) ms s.pass).2.1,
          ⟨(sweep (sampleMetric env name window clear) ms s.pass).2.2, raw⟩) ∧
      raw.length = s.raw.length := by
  induction ms generalizing s with
  | nil => exact ⟨s.raw, rfl, rfl⟩
  | cons m rest ih =>
    obtain ⟨raw, same, length⟩ :=
      sampleBuffered_eq env name window clear (room m List.mem_cons_self)
    simp only [sweep, same]
    cases sampleMetric env name window clear m s.pass with | mk result t =>
    cases result with
    | error f => exact ⟨raw, rfl, length⟩
    | ok n =>
      have left (m : Metric) (member : m ∈ rest) : m.elements.length ≤ raw.length := by
        rw [length]
        exact room m (List.mem_cons_of_mem _ member)
      obtain ⟨raw', later, length'⟩ := ih (s := ⟨t, raw⟩) left
      exact ⟨raw', by simp only [later], length'.trans length⟩

/-- A read buffer has room for every metric of a block. -/
def HasRoom (b : Block δ) (raw : List UInt64) : Prop :=
  ∀ m ∈ b.metrics, m.elements.length ≤ raw.length

omit [Driver δ] in
theorem readBuffer_hasRoom (b : Block δ) : b.HasRoom (readBuffer b.metrics) := by
  intro m member
  rw [readBuffer, List.length_replicate]
  exact List.le_max?_getD_of_mem (List.mem_map_of_mem member)

/-- A pass through a read buffer that has room does what a pass does, and keeps the buffer. -/
theorem passBuffered_eq {b : Block δ} {raw : List UInt64} (room : b.HasRoom raw) (u : Shared) :
    ∃ raw', b.passBuffered env clear raw u =
        ((b.pass env clear u).1, (b.pass env clear u).2.1, raw', (b.pass env clear u).2.2) ∧
      raw'.length = raw.length ∧ (b.pass env clear u).2.1.HasRoom raw' := by
  obtain ⟨raw', swept, length⟩ :=
    sweep_buffered env b.name b.window clear (s := ⟨b.latched clear u, raw⟩) room
  have kept : (b.pass env clear u).2.1.HasRoom raw' := by
    intro n member
    obtain ⟨m, there, -, sized⟩ := pass_member (Prod.eta _).symm member
    rw [length, ← sized]
    exact room m there
  refine ⟨raw', ?_, length, kept⟩
  simp only [latched] at swept
  simp only [passBuffered, pass, swept]
  generalize sweep (sampleMetric env b.name b.window clear) b.metrics
    (_ : PassState δ) = done
  obtain ⟨fault, metrics, t⟩ := done
  cases fault <;> rfl

end Block

end Telemetry
