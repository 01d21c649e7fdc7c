import Telemetry.Proofs.Decoding
import Telemetry.Proofs.Publishing

/-! How a metric is read: by its driver, or directly if the read hook declines. The window, the
decoder and the read buffer have checks of their own; over memory that is not poisoned they come down
to a register of a supported size and a last element inside the window. -/
namespace Telemetry

namespace Register

variable {w : Window} {field : Field} {offset : UInt64} {length i : Nat}

theorem Field.elementOffset_ok (within : field.offset.toNat + field.size.toNat * i < 2 ^ 64) :
    ∃ offset, field.elementOffset (UInt64.ofNat i) = .ok offset ∧
      offset.toNat = field.offset.toNat + field.size.toNat * i := by
  have index : field.size.toNat * (UInt64.ofNat i).toNat = field.size.toNat * i := by
    rcases Nat.eq_zero_or_pos field.size.toNat with none | some
    · simp only [none, Nat.zero_mul]
    · have small : i ≤ field.size.toNat * i := Nat.le_mul_of_pos_left i some
      have word : i < UInt64.size := by
        simp only [UInt64.size]
        omega
      simp only [UInt64.toNat_ofNat_of_lt' word]
  have distance : field.size.toNat * i < 2 ^ 64 := by omega
  simp only [elementOffset, index, Overflow.unlessFits, if_pos distance, if_pos within, Except.bind,
    bind]
  exact ⟨_, rfl, UInt64.toNat_ofNat_of_lt' within⟩

theorem supported_narrow {size : UInt64} (supported : size ∈ supportedSizes) : ¬ 8 < size := by
  intro wide
  have bits := (supported_bits supported).2
  have bytes : 8 < size.toNat := UInt64.lt_iff_toNat_lt.mp wide
  omega

theorem Window.read_memory (memory : w.kind = .memory) (sound : w.poisoned = false)
    (within : offset.toNat + length < 2 ^ 64) :
    w.read offset length =
      if w.bytes.length < offset.toNat + length then
        .error (.readOutside length offset w.bytes.length)
      else .ok (slice w.bytes offset.toNat length) := by
  have stop : accessEnd offset length = .ok (offset.toNat + length) := by
    simp only [accessEnd, Overflow.unlessFits, if_pos within, Except.mapError]
  simp only [read, memory, readMemory, sound, stop]
  rfl

theorem Window.slice_length {bytes : List UInt8} {start : Nat}
    (inside : start + length ≤ bytes.length) : (slice bytes start length).length = length := by
  simp only [slice, List.length_take, List.length_drop]
  omega

end Register

open Register (supportedSizes Window overlay)

/-- Why a metric of so many elements cannot be read directly. -/
inductive Unreadable (env : Surroundings) (window : Option Nat) (spec : MetricSpec) (count : Nat) :
    Prop
  | missing (absent : window.bind (env.windows[·]?) = none)
  | size (odd : spec.field.size ∉ [1, 2, 4, 8])
  | outside {w : Window} (found : window.bind (env.windows[·]?) = some w)
      (beyond : w.bytes.length < spec.field.offset.toNat + spec.field.size.toNat * count)

def Surroundings.SoundMemory (env : Surroundings) (window : Option Nat) : Prop :=
  ∀ w, window.bind (env.windows[·]?) = some w → w.kind = .memory ∧ w.poisoned = false

namespace Block

variable {env : Surroundings} {name : String} {window : Option Nat} {spec : MetricSpec}
  {w : Window} {i count : Nat}

theorem readElement_isOk (memory : w.kind = .memory) (sound : w.poisoned = false)
    (within : spec.field.offset.toNat + spec.field.size.toNat * (i + 1) < 2 ^ 64) :
    (∃ x, readElement w name spec i = .ok x) ↔ spec.field.size ∈ supportedSizes ∧
      spec.field.offset.toNat + spec.field.size.toNat * (i + 1) ≤ w.bytes.length := by
  simp only [Nat.mul_succ] at within ⊢
  have start : spec.field.offset.toNat + spec.field.size.toNat * i < 2 ^ 64 := by omega
  obtain ⟨offset, placed, value⟩ := Register.Field.elementOffset_ok start
  have stop : offset.toNat + spec.field.size.toNat < 2 ^ 64 := by omega
  have read := Window.read_memory memory sound stop
  simp only [readElement]
  by_cases wide : 8 < spec.field.size
  · have odd : spec.field.size ∉ supportedSizes := fun supported =>
      Register.supported_narrow supported wide
    simp [wide, odd]
  · simp only [if_neg wide, placed, read, Except.mapError, bind, Except.bind]
    by_cases short : w.bytes.length < offset.toNat + spec.field.size.toNat
    · have outside : ¬ spec.field.offset.toNat +
          (spec.field.size.toNat * i + spec.field.size.toNat) ≤ w.bytes.length := by omega
      simp [short, outside]
    · have inside : spec.field.offset.toNat +
          (spec.field.size.toNat * i + spec.field.size.toNat) ≤ w.bytes.length := by omega
      have length := Window.slice_length (Nat.le_of_not_lt short)
      simp only [if_neg short, inside, and_true, Register.Field.decode]
      rcases Register.extract_cases
          (Window.slice w.bytes offset.toNat spec.field.size.toNat) spec.field.size
          spec.field.shift spec.field.width spec.field.invert with
        ⟨under, -⟩ | ⟨-, odd, failed⟩ | ⟨-, supported, x, done, -⟩
      · omega
      · simp [failed, odd]
      · simp [done, supported]

theorem readSamples_isOk (sound : env.SoundMemory window) (positive : 0 < count)
    (within : spec.field.offset.toNat + spec.field.size.toNat * count < 2 ^ 64) :
    (∃ reading, readSamples env name window spec count = .ok reading) ↔
      ¬ Unreadable env window spec count := by
  have upTo (i : Nat) (below : i < count) :
      spec.field.size.toNat * (i + 1) ≤ spec.field.size.toNat * count :=
    Nat.mul_le_mul_left _ below
  constructor
  · rintro ⟨⟨values, mask⟩, read⟩ bad
    obtain ⟨w, found, -, each⟩ := readSamples_ok read
    obtain ⟨memory, unpoisoned⟩ := sound w found
    have last : count - 1 < count := by omega
    obtain ⟨x, -, done⟩ := forall₂_getElem? each (List.getElem?_range last)
    have whole : count - 1 + 1 = count := by omega
    obtain ⟨supported, inside⟩ := (readElement_isOk memory unpoisoned
      (by rw [whole]; exact within)).mp ⟨x, done⟩
    rw [whole] at inside
    cases bad with
    | missing absent => cases absent.symm.trans found
    | size odd => exact odd supported
    | outside here beyond =>
      cases here.symm.trans found
      omega
  · intro good
    cases found : window.bind (env.windows[·]?) with
    | none => exact absurd (.missing found) good
    | some w =>
      obtain ⟨memory, unpoisoned⟩ := sound w found
      have supported : spec.field.size ∈ supportedSizes :=
        Decidable.byContradiction fun odd => good (.size odd)
      have inside : spec.field.offset.toNat + spec.field.size.toNat * count ≤ w.bytes.length :=
        Nat.le_of_not_lt fun beyond => good (.outside found beyond)
      have elements (i : Nat) (member : i ∈ List.range count) :
          ∃ x, readElement w name spec i = .ok x := by
        have reach := upTo i (List.mem_range.mp member)
        exact (readElement_isOk memory unpoisoned (by omega)).mpr ⟨supported, by omega⟩
      obtain ⟨values, read⟩ := mapM_isOk elements
      obtain ⟨mask, word, -⟩ := Register.Field.valueMask_toNat supported
      simp only [readSamples, readDirect, found, read, word]
      exact ⟨_, rfl⟩

/-! ### By the driver or directly -/

variable {δ : Type} [Driver δ]

def readReply (m : Metric) (s : PassState δ) : Reply (Option δ) Reading :=
  Driver.ask s.driver (Driver.read m.spec (List.replicate m.elements.length 0) s.scratch)
    ⟨false, [], []⟩

def asked (m : Metric) (s : PassState δ) : PassState δ :=
  ⟨(readReply m s).driver, overlay (readReply m s).result.scratch s.scratch,
    s.shared.hooks (readReply m s).lines⟩

theorem readMetric_eq (env : Surroundings) (name : String) (window : Option Nat) (m : Metric)
    (s : PassState δ) :
    readMetric env name window m s =
      (if (readReply m s).result.supplied then
        .ok (overlay (readReply m s).result.values (List.replicate m.elements.length 0),
          m.spec.field.widthMask)
      else readSamples env name window m.spec m.elements.length, asked m s) :=
  (apply_ite (·, asked m s) _ _ _).symm

/-- A metric cannot be sampled where its read hook declines and it cannot be read directly. -/
theorem sampleMetric_fails {m : Metric} {s : PassState δ} {clear : Bool}
    (sound : env.SoundMemory window) (filled : m.elements ≠ [])
    (within : m.spec.field.offset.toNat + m.spec.field.size.toNat * m.elements.length < 2 ^ 64) :
    (∃ f t, sampleMetric env name window clear m s = (.error f, t)) ↔
      (readReply m s).result.supplied = false ∧
        Unreadable env window m.spec m.elements.length := by
  have direct : (∃ reading, readSamples env name window m.spec m.elements.length = .ok reading) ↔ _ :=
    readSamples_isOk sound (List.length_pos_iff.mpr filled) within
  simp only [sampleMetric, readMetric_eq]
  cases supplied : (readReply m s).result.supplied with
  | true => simp
  | false =>
    cases read : readSamples env name window m.spec m.elements.length with
    | error f =>
      have bad : Unreadable env window m.spec m.elements.length := by
        refine Classical.byContradiction fun good => ?_
        obtain ⟨reading, done⟩ := direct.mpr good
        cases read.symm.trans done
      simp [bad]
    | ok reading =>
      have good := direct.mp ⟨reading, read⟩
      simp [good]

end Block

end Telemetry
