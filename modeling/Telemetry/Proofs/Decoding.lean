import Telemetry.Proofs.Counting

/-! Decoding computes the field. In numbers it is a quotient and a remainder: the value of the
register, or what is missing to its greatest one, shifted by a division and cut by a modulus. So a
decoded value fits the mask of its field, which is what differences of counters are taken by, and
depends on nothing behind the register. -/
namespace Telemetry

namespace Register

/-! ### Words as numbers -/

theorem littleEndian_lt (bytes : List UInt8) : littleEndian bytes < 2 ^ (8 * bytes.length) := by
  induction bytes with
  | nil => decide
  | cons b rest ih =>
    have byte : b.toNat < 256 := b.toNat_lt
    have power : 2 ^ (8 * (rest.length + 1)) = 256 * 2 ^ (8 * rest.length) := by
      rw [Nat.mul_succ, Nat.pow_add, Nat.mul_comm]
    change b.toNat + 256 * littleEndian rest < 2 ^ (8 * (rest.length + 1))
    omega

theorem and_lowBits_toNat (word : UInt64) (width : UInt32) :
    (word &&& lowBits width).toNat = word.toNat % 2 ^ min width.toNat 64 := by
  rw [UInt64.toNat_and, lowBits_toNat_min, Nat.and_two_pow_sub_one_eq_mod]

theorem shiftRight_toNat (word : UInt64) (shift : UInt32) :
    (shiftRight word shift).toNat = word.toNat / 2 ^ shift.toNat := by
  unfold shiftRight
  split
  · rename_i far
    have beyond : 64 ≤ shift.toNat := UInt32.le_iff_toNat_le.mp far
    have small : word.toNat < 2 ^ shift.toNat :=
      Nat.lt_of_lt_of_le word.toNat_lt (Nat.pow_le_pow_right (by decide) beyond)
    rw [Nat.div_eq_of_lt small]
    rfl
  · rename_i near
    have inside : shift.toNat < 64 := UInt32.lt_iff_toNat_lt.mp (UInt32.not_le.mp near)
    rw [UInt64.toNat_shiftRight, UInt32.toNat_toUInt64, Nat.mod_eq_of_lt inside,
      Nat.shiftRight_eq_div_pow]

theorem complement_mod {value bits : Nat} (fits : bits ≤ 64) (small : value < 2 ^ bits) :
    (2 ^ 64 - 1 - value) % 2 ^ bits = 2 ^ bits - 1 - value := by
  obtain ⟨rest, sum⟩ := Nat.exists_eq_add_of_le fits
  have power : 2 ^ 64 = 2 ^ bits * 2 ^ rest := by rw [sum, Nat.pow_add]
  have positive : 0 < 2 ^ rest := Nat.two_pow_pos rest
  have split : 2 ^ 64 - 1 - value = (2 ^ bits - 1 - value) + 2 ^ bits * (2 ^ rest - 1) := by
    have parts : 2 ^ bits * 2 ^ rest = 2 ^ bits * (2 ^ rest - 1) + 2 ^ bits := by
      rw [← Nat.mul_succ]
      congr 1
      omega
    omega
  rw [split, Nat.add_mul_mod_self_left]
  exact Nat.mod_eq_of_lt (by omega)

/-! ### The register and its field -/

/-- The number in a register of `size` bytes; an inverted one counts down from its greatest. -/
def registerValue (bytes : List UInt8) (size : UInt64) (invert : Bool) : Nat :=
  let value := littleEndian (bytes.take size.toNat)
  if invert then 2 ^ (8 * size.toNat) - 1 - value else value

/-- The number in a field of a register. Without a width it is the register's own. -/
def fieldValue (value : Nat) (shift width : UInt32) : Nat :=
  if width = 0 then value else value / 2 ^ shift.toNat % 2 ^ min width.toNat 64

variable {bytes : List UInt8} {size : UInt64} {shift width : UInt32} {invert : Bool}

theorem supported_bits (supported : size ∈ supportedSizes) :
    (8 * size.toUInt32).toNat = 8 * size.toNat ∧ 8 * size.toNat ≤ 64 := by
  rcases mem_supportedSizes.mp supported with rfl | rfl | rfl | rfl <;> decide

theorem register_lt (bytes : List UInt8) (size : UInt64) :
    littleEndian (bytes.take size.toNat) < 2 ^ (8 * size.toNat) := by
  have small := littleEndian_lt (bytes.take size.toNat)
  have short : (bytes.take size.toNat).length ≤ size.toNat := List.length_take_le _ _
  exact Nat.lt_of_lt_of_le small (Nat.pow_le_pow_right (by decide) (Nat.mul_le_mul_left 8 short))

theorem registerValue_lt (bytes : List UInt8) (size : UInt64) (invert : Bool) :
    registerValue bytes size invert < 2 ^ (8 * size.toNat) := by
  have small := register_lt bytes size
  unfold registerValue
  cases invert with
  | false => exact small
  | true =>
    simp only [if_true]
    omega

theorem register_toNat (bytes : List UInt8) (invert : Bool) (supported : size ∈ supportedSizes) :
    let register := UInt64.ofNat (littleEndian (bytes.take size.toNat))
    (if invert then ~~~register &&& lowBits (8 * size.toUInt32) else register).toNat
      = registerValue bytes size invert := by
  intro register
  obtain ⟨bits, fits⟩ := supported_bits supported
  have small := register_lt bytes size
  have word : register.toNat = littleEndian (bytes.take size.toNat) := by
    apply UInt64.toNat_ofNat_of_lt'
    exact Nat.lt_of_lt_of_le small (Nat.pow_le_pow_right (by decide) fits)
  cases invert with
  | false => exact word
  | true =>
    simp only [if_true, registerValue]
    rw [and_lowBits_toNat, bits, Nat.min_eq_left fits, UInt64.toNat_not, word]
    exact complement_mod fits small

theorem extract_short (short : bytes.length < size.toNat) :
    extract bytes size shift width invert = .error (.short size bytes.length) := if_pos short

theorem extract_unsupported (long : size.toNat ≤ bytes.length) (odd : size ∉ supportedSizes) :
    extract bytes size shift width invert = .error (.unsupportedSize size) := by
  rw [extract, if_neg (Nat.not_lt.mpr long), if_neg odd]

theorem extract_supported (long : size.toNat ≤ bytes.length) (supported : size ∈ supportedSizes) :
    ∃ x, extract bytes size shift width invert = .ok x ∧
      x.toNat = fieldValue (registerValue bytes size invert) shift width := by
  have register := register_toNat bytes invert supported
  simp only [extract, if_neg (Nat.not_lt.mpr long), if_pos supported, fieldValue]
  by_cases whole : width = 0
  · rw [if_pos whole, if_pos whole]
    exact ⟨_, rfl, register⟩
  · rw [if_neg whole, if_neg whole]
    refine ⟨_, rfl, ?_⟩
    rw [and_lowBits_toNat, shiftRight_toNat]
    exact congrArg (· / 2 ^ shift.toNat % 2 ^ min width.toNat 64) register

/-- What can come out of decoding, and when. -/
theorem extract_cases (bytes : List UInt8) (size : UInt64) (shift width : UInt32) (invert : Bool) :
    bytes.length < size.toNat ∧
      extract bytes size shift width invert = .error (.short size bytes.length) ∨
    size.toNat ≤ bytes.length ∧ size ∉ supportedSizes ∧
      extract bytes size shift width invert = .error (.unsupportedSize size) ∨
    size.toNat ≤ bytes.length ∧ size ∈ supportedSizes ∧
      ∃ x, extract bytes size shift width invert = .ok x ∧
        x.toNat = fieldValue (registerValue bytes size invert) shift width := by
  rcases Nat.lt_or_ge bytes.length size.toNat with short | long
  · exact .inl ⟨short, extract_short short⟩
  · by_cases supported : size ∈ supportedSizes
    · exact .inr (.inr ⟨long, supported, extract_supported long supported⟩)
    · exact .inr (.inl ⟨long, supported, extract_unsupported long supported⟩)

theorem fieldValue_le {value bits : Nat} (small : value < 2 ^ bits) (shift width : UInt32) :
    fieldValue value shift width ≤ 2 ^ (if width = 0 then bits else min width.toNat 64) - 1 := by
  unfold fieldValue
  split
  · omega
  · have positive : 0 < 2 ^ min width.toNat 64 := Nat.two_pow_pos _
    exact Nat.le_sub_one_of_lt (Nat.mod_lt _ positive)

theorem extract_append (long : size.toNat ≤ bytes.length) (tail : List UInt8) :
    extract (bytes.take size.toNat ++ tail) size shift width invert
      = extract bytes size shift width invert := by
  have length : (bytes.take size.toNat).length = size.toNat := List.length_take_of_le long
  have whole : ¬ (bytes.take size.toNat ++ tail).length < size.toNat := by
    rw [List.length_append, length]
    omega
  have register : (bytes.take size.toNat ++ tail).take size.toNat = bytes.take size.toNat := by
    rw [List.take_append_of_le_length (Nat.le_of_eq length.symm), List.take_take, Nat.min_self]
  unfold extract
  rw [if_neg whole, if_neg (Nat.not_lt.mpr long), register]

/-- **Decoding computes the field**, whatever the bytes, the size, the shift, the width and the
inversion. Too few bytes are an error, then a size that is none of a register; every other input
has a value, which is the field of the register in numbers. It fits the mask of every field of this
size and width, and the bytes behind the register do not matter. -/
theorem decoding_computes_field (bytes : List UInt8) (size : UInt64) (shift width : UInt32)
    (invert : Bool) :
    let decoded := extract bytes size shift width invert
    ((∃ e, decoded = .error e ∧ e.kind = .invalidSpec) ↔ bytes.length < size.toNat) ∧
    ((∃ e, decoded = .error e ∧ e.kind = .unsupportedSize) ↔
      size.toNat ≤ bytes.length ∧ size ∉ [1, 2, 4, 8]) ∧
    ((∃ x, decoded = .ok x) ↔ size.toNat ≤ bytes.length ∧ size ∈ [1, 2, 4, 8]) ∧
    ∀ x, decoded = .ok x →
      x.toNat = fieldValue (registerValue bytes size invert) shift width ∧
      (∀ field : Field, field.size = size → field.width = width →
        ∃ mask, field.valueMask = .ok mask ∧ x ≤ mask) ∧
      ∀ tail, extract (bytes.take size.toNat ++ tail) size shift width invert = .ok x := by
  intro decoded
  rcases extract_cases bytes size shift width invert with
    ⟨short, done⟩ | ⟨long, odd, done⟩ | ⟨long, supported, x, done, value⟩
  · have same : decoded = .error (.short size bytes.length) := done
    refine ⟨?_, ?_, ?_, ?_⟩
    · simp [same, short, DecodeError.kind]
    · simp [same, Nat.not_le.mpr short, DecodeError.kind]
    · simp [same, Nat.not_le.mpr short]
    · simp [same]
  · have same : decoded = .error (.unsupportedSize size) := done
    have odd : size ∉ [1, 2, 4, 8] := odd
    refine ⟨?_, ?_, ?_, ?_⟩
    · simp [same, Nat.not_lt.mpr long, DecodeError.kind]
    · simp only [same, long, odd, not_false_eq_true, and_self, iff_true]
      exact ⟨_, rfl, rfl⟩
    · simp [same, odd]
    · simp [same]
  · have same : decoded = .ok x := done
    have supported' : size ∈ [1, 2, 4, 8] := supported
    refine ⟨?_, ?_, ?_, ?_⟩
    · simp [same, Nat.not_lt.mpr long]
    · simp [same, supported']
    · simp only [same, long, supported', and_self, iff_true]
      exact ⟨x, rfl⟩
    · intro y here
      cases same.symm.trans here
      refine ⟨value, ?_, fun tail => (extract_append long tail).trans done⟩
      rintro field rfl rfl
      obtain ⟨mask, word, bound⟩ := field.valueMask_toNat supported
      refine ⟨mask, word, UInt64.le_iff_toNat_le.mpr ?_⟩
      rw [value, bound]
      exact fieldValue_le (registerValue_lt bytes field.size invert) shift field.width

end Register

end Telemetry
