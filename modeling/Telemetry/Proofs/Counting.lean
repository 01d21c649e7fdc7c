import Mathlib.Order.Monotone.Basic
import Telemetry.Metric.Element

/-! A counter follows its register. The decoded field is a true count modulo a power of two; if the
count has grown by less than that since the last sample, the masked difference of two samples is what
it has grown by, whether or not the register has wrapped in between. -/
namespace Telemetry

namespace Register

theorem lowBits_toNat {width : UInt32} (fits : width.toNat ≤ 64) :
    (lowBits width).toNat = 2 ^ width.toNat - 1 := by
  unfold lowBits
  split
  · rename_i whole
    have same : width.toNat = 64 := Nat.le_antisymm fits (UInt32.le_iff_toNat_le.mp whole)
    rw [same]
    rfl
  · rename_i part
    have below : width.toNat < 64 := by
      rw [UInt32.not_le] at part
      exact UInt32.lt_iff_toNat_lt.mp part
    have power : 2 ^ width.toNat < 2 ^ 64 := Nat.pow_lt_pow_right (by decide) below
    have positive : 0 < 2 ^ width.toNat := Nat.two_pow_pos _
    have one : ((1 : UInt64) <<< width.toUInt64).toNat = 2 ^ width.toNat := by
      simp only [UInt64.toNat_shiftLeft, UInt32.toNat_toUInt64, UInt64.toNat_one,
        Nat.mod_eq_of_lt below, Nat.one_shiftLeft]
      exact Nat.mod_eq_of_lt power
    rw [UInt64.toNat_sub_of_le, one]
    · rfl
    · exact UInt64.le_iff_toNat_le.mpr (by rw [one]; exact positive)

theorem lowBits_toNat_min (width : UInt32) :
    (lowBits width).toNat = 2 ^ min width.toNat 64 - 1 := by
  rcases Nat.le_total width.toNat 64 with fits | wide
  · rw [lowBits_toNat fits, Nat.min_eq_left fits]
  · have whole : (64 : UInt32) ≤ width := UInt32.le_iff_toNat_le.mpr wide
    rw [lowBits, if_pos whole, Nat.min_eq_right wide]
    rfl

theorem mem_supportedSizes {size : UInt64} :
    size ∈ supportedSizes ↔ size = 1 ∨ size = 2 ∨ size = 4 ∨ size = 8 := by
  simp [supportedSizes]

namespace Field

def bits (field : Field) : Nat :=
  if field.width = 0 then 8 * field.size.toNat else field.width.toNat

structure Inside (field : Field) : Prop where
  size : field.size ∈ supportedSizes
  field : field.width = 0 ∨ field.shift.toNat + field.width.toNat ≤ 8 * field.size.toNat

variable {field : Field}

theorem Inside.bits_le (h : field.Inside) : field.bits ≤ 64 := by
  have sizes : field.size.toNat ≤ 8 := by
    rcases mem_supportedSizes.mp h.size with same | same | same | same <;> rw [same] <;> decide
  unfold bits
  split
  · omega
  · rename_i part
    rcases h.field with whole | inside
    · exact absurd whole part
    · omega

theorem valueMask_toNat (supported : field.size ∈ supportedSizes) :
    ∃ mask, field.valueMask = .ok mask ∧ mask.toNat =
      2 ^ (if field.width = 0 then 8 * field.size.toNat else min field.width.toNat 64) - 1 := by
  unfold Field.valueMask
  split
  · rcases mem_supportedSizes.mp supported with same | same | same | same <;>
      rw [same] <;> exact ⟨_, rfl, by decide⟩
  · exact ⟨_, rfl, lowBits_toNat_min _⟩

theorem Inside.valueMask (h : field.Inside) :
    ∃ mask, field.valueMask = .ok mask ∧ mask.toNat = 2 ^ field.bits - 1 := by
  obtain ⟨mask, word, value⟩ := valueMask_toNat h.size
  have narrow := h.bits_le
  refine ⟨mask, word, ?_⟩
  rw [value]
  unfold bits at *
  split
  · rfl
  · rename_i part
    rw [if_neg part] at narrow
    rw [Nat.min_eq_left narrow]

end Field

end Register

theorem masked_difference {last current mask : UInt64} {a b w : Nat} (fits : w ≤ 64)
    (masked : mask.toNat = 2 ^ w - 1) (before : last.toNat = a % 2 ^ w)
    (now : current.toNat = b % 2 ^ w) (grown : a ≤ b) (small : b < a + 2 ^ w) :
    ((current - last) &&& mask).toNat = b - a := by
  have whole : 2 ^ w ∣ 2 ^ 64 := Nat.pow_dvd_pow 2 fits
  have positive : 0 < 2 ^ w := Nat.two_pow_pos w
  rw [UInt64.toNat_and, masked, Nat.and_two_pow_sub_one_eq_mod, UInt64.toNat_sub,
    Nat.mod_mod_of_dvd _ whole, before, now]
  obtain ⟨q, power⟩ := whole
  obtain ⟨d, rfl⟩ := Nat.exists_eq_add_of_le grown
  rw [power, Nat.add_sub_cancel_left]
  generalize 2 ^ w = base at *
  have step : d < base := Nat.lt_of_add_lt_add_left small
  have rest : a % base < base := Nat.mod_lt a positive
  cases q with
  | zero => simp at power
  | succ q =>
    rw [Nat.mul_succ, ← Nat.mod_add_mod a base d]
    -- whether the register has wrapped
    rcases Nat.lt_or_ge (a % base + d) base with inside | wrapped
    · have sum : base * q + base - a % base + (a % base + d) = d + base * (q + 1) := by
        rw [Nat.mul_succ]
        omega
      rw [Nat.mod_eq_of_lt inside, sum, Nat.add_mul_mod_self_left, Nat.mod_eq_of_lt step]
    · have sum : base * q + base - a % base + (a % base + d - base) = d + base * q := by omega
      have below : a % base + d - base < base := by omega
      rw [Nat.mod_eq_sub_mod wrapped, Nat.mod_eq_of_lt below, sum, Nat.add_mul_mod_self_left,
        Nat.mod_eq_of_lt step]

namespace MetricSpec

/-- How many passes there were up to the last one that put the initial value back. -/
def lastReset (spec : MetricSpec) (clears : List Bool) : Nat :=
  (clears.reverse.dropWhile fun clear => !(clear && !spec.flags.neverClear)).length

theorem lastReset_snoc (spec : MetricSpec) (clears : List Bool) (clear : Bool) :
    spec.lastReset (clears ++ [clear]) =
      if clear && !spec.flags.neverClear then clears.length + 1 else spec.lastReset clears := by
  unfold lastReset
  rw [List.reverse_append, List.reverse_singleton, List.singleton_append, List.dropWhile_cons]
  cases clear && !spec.flags.neverClear <;> simp

theorem lastReset_le (spec : MetricSpec) (clears : List Bool) :
    spec.lastReset clears ≤ clears.length := by
  rw [← List.length_reverse]
  exact (List.dropWhile_sublist _).length_le

end MetricSpec

/-- The value and the last sample of a counter after so many passes, where `c` is the true count at
each pass. The first pass may have found any count if the value was put back since. -/
structure Counted (spec : MetricSpec) (c : Nat → Nat) (clears : List Bool) (value last : UInt64) :
    Prop where
  last : last.toNat = c clears.length % 2 ^ spec.field.bits
  value : (0 < clears.length → spec.lastReset clears = 0 → c 1 < 2 ^ spec.field.bits) →
    value.toNat = (spec.init.toNat + (c clears.length - c (spec.lastReset clears))) % 2 ^ 64

namespace Counted

variable {spec : MetricSpec} {c : Nat → Nat} {clears : List Bool} {e : Element}
  {current mask : UInt64}

theorem start (zero : c 0 = 0) : Counted spec c [] spec.init 0 := by
  constructor
  · simp [zero]
  · intro _
    simp [MetricSpec.lastReset]

theorem step (h : Counted spec c clears e.value e.last) (counter : spec.type = .counter)
    (accumulates : spec.flags.clearOnRead = false) (inside : spec.field.Inside)
    (masked : mask.toNat = 2 ^ spec.field.bits - 1) (grows : Monotone c) (zero : c 0 = 0)
    (small : 1 ≤ clears.length →
      c (clears.length + 1) < c clears.length + 2 ^ spec.field.bits)
    (sampled : current.toNat = c (clears.length + 1) % 2 ^ spec.field.bits) (clear : Bool) :
    Counted spec c (clears ++ [clear]) (e.apply spec current mask clear).value
      (e.apply spec current mask clear).last := by
  have length : (clears ++ [clear]).length = clears.length + 1 := by simp
  have last : (e.apply spec current mask clear).last = current := by
    simp [Element.apply, counter, accumulates]
  constructor
  · rw [last, length, sampled]
  · intro first
    rw [MetricSpec.lastReset_snoc] at first ⊢
    rw [length]
    cases reset : clear && !spec.flags.neverClear with
    | true =>
      have value : (e.apply spec current mask clear).value = spec.init := by
        simp [Element.apply, counter, reset]
      have fits : spec.init.toNat < 2 ^ 64 := spec.init.toNat_lt
      rw [value, if_pos rfl, Nat.sub_self, Nat.add_zero, Nat.mod_eq_of_lt fits]
    | false =>
      have value : (e.apply spec current mask clear).value
          = e.value + ((current - e.last) &&& mask) := by
        simp [Element.apply, Element.increase, counter, accumulates, reset]
      rw [length, reset, if_neg Bool.false_ne_true] at first
      have now := first (Nat.succ_pos _)
      have gap : c (clears.length + 1) < c clears.length + 2 ^ spec.field.bits := by
        cases clears with
        | nil =>
          have bound := now rfl
          simpa [zero] using bound
        | cons _ rest => exact small (by simp)
      have grown : c clears.length ≤ c (clears.length + 1) := grows (Nat.le_succ _)
      have base : c (spec.lastReset clears) ≤ c clears.length := grows (spec.lastReset_le clears)
      have moved := masked_difference inside.bits_le masked h.last sampled grown gap
      rw [value, UInt64.toNat_add, moved, h.value fun _ => now, Nat.mod_add_mod,
        if_neg Bool.false_ne_true]
      congr 1
      omega

end Counted

end Telemetry
