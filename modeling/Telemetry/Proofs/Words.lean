import Telemetry.Replay.Engine

/-! Memory as a row of registers. A window that holds whole words, one behind the other, is read and
written word by word: a write at a register's offset changes that register and no other. -/
namespace Telemetry

namespace Register

open Replay (registerSize)

theorem littleEndian_bytesOf (count : Nat) (word : UInt64) :
    littleEndian (bytesOf count word) = word.toNat % 256 ^ count := by
  induction count generalizing word with
  | zero => rw [Nat.pow_zero, Nat.mod_one]; rfl
  | succ count ih =>
    have low : word.toUInt8.toNat = word.toNat % 256 := by simp
    have high : (word >>> 8).toNat = word.toNat / 256 := by
      simp [Nat.shiftRight_eq_div_pow]
    change word.toUInt8.toNat + 256 * littleEndian (bytesOf count (word >>> 8)) = _
    rw [ih, low, high, Nat.pow_succ', Nat.mod_mul]

theorem bytesOf_length (count : Nat) (word : UInt64) : (bytesOf count word).length = count := by
  induction count generalizing word with
  | zero => rfl
  | succ count ih => exact congrArg (· + 1) (ih _)

def bytesOfAll (words : List UInt64) : List UInt8 := words.flatMap (bytesOf registerSize)

theorem bytesOfAll_length (words : List UInt64) :
    (bytesOfAll words).length = words.length * registerSize := by
  induction words with
  | nil => rfl
  | cons word rest ih =>
    have head := bytesOf_length registerSize word
    simp only [bytesOfAll, List.flatMap_cons, List.length_append, List.length_cons] at ih ⊢
    rw [head, ih, Nat.succ_mul, Nat.add_comm]

theorem bytesOfAll_append (left right : List UInt64) :
    bytesOfAll (left ++ right) = bytesOfAll left ++ bytesOfAll right := List.flatMap_append

theorem bytesOfAll_split {words : List UInt64} {i : Nat} {word : UInt64}
    (there : words[i]? = some word) :
    bytesOfAll words =
      bytesOfAll (words.take i) ++ bytesOf registerSize word ++ bytesOfAll (words.drop (i + 1)) ∧
    (bytesOfAll (words.take i)).length = i * registerSize := by
  obtain ⟨below, rfl⟩ := List.getElem?_eq_some_iff.mp there
  constructor
  · have split : words = words.take i ++ words[i] :: words.drop (i + 1) := by
      rw [List.getElem_cons_drop, List.take_append_drop]
    conv => lhs; rw [split]
    rw [bytesOfAll_append, List.append_assoc]
    rfl
  · rw [bytesOfAll_length, List.length_take, Nat.min_eq_left (Nat.le_of_lt below)]

namespace Window

def ofWords (words : List UInt64) : Window := ⟨.memory, bytesOfAll words, false⟩

theorem ofSize_words (count : Nat) :
    ofSize .memory (count * registerSize) = ofWords (List.replicate count 0) := by
  have zeros : bytesOf registerSize 0 = List.replicate registerSize 0 := rfl
  have bytes : bytesOfAll (List.replicate count 0) = List.replicate (count * registerSize) 0 := by
    induction count with
    | zero => rw [Nat.zero_mul]; rfl
    | succ count ih =>
      rw [List.replicate_succ, Nat.succ_mul, Nat.add_comm, ← List.replicate_append_replicate, ← ih,
        ← zeros]
      rfl
  rw [ofSize, ofWords, bytes]

structure Reach (words : List UInt64) (i : Nat) : Prop where
  inside : i < words.length
  fits : words.length * registerSize < 2 ^ 64

variable {words : List UInt64} {i : Nat}

theorem Reach.offset (h : Reach words i) :
    (UInt64.ofNat (i * registerSize)).toNat = i * registerSize := by
  have inside := h.inside
  have fits := h.fits
  have below : i * registerSize < UInt64.size := by
    simp only [registerSize, UInt64.size] at *
    omega
  exact UInt64.toNat_ofNat_of_lt' below

theorem Reach.accessEnd (h : Reach words i) :
    accessEnd (UInt64.ofNat (i * registerSize)) registerSize
      = .ok (i * registerSize + registerSize) := by
  have inside := h.inside
  have fits := h.fits
  have below : i * registerSize + registerSize < 2 ^ 64 := by
    simp only [registerSize] at *
    omega
  rw [Window.accessEnd, h.offset, Overflow.unlessFits, if_pos below]
  rfl

theorem Reach.stop (h : Reach words i) :
    ¬ (bytesOfAll words).length < i * registerSize + registerSize := by
  have inside := h.inside
  rw [bytesOfAll_length]
  simp only [registerSize]
  omega

theorem replaced_middle (front old behind new : List UInt8) (same : new.length = old.length) :
    replaced (front ++ old ++ behind) front.length new = front ++ new ++ behind := by
  have start : (front ++ old ++ behind).take front.length = front := by
    rw [List.append_assoc, List.take_left]
  have rest : (front ++ old ++ behind).drop (front.length + new.length) = behind := by
    rw [same, ← List.length_append, List.drop_left]
  rw [replaced, start, rest]

theorem slice_middle (front own behind : List UInt8) :
    slice (front ++ own ++ behind) front.length own.length = own := by
  rw [slice, List.append_assoc, List.drop_left, List.take_left]

theorem write_word (h : Reach words i) (word : UInt64) :
    (ofWords words).write (UInt64.ofNat (i * registerSize)) (bytesOf registerSize word)
      = (.ok (), ofWords (words.set i word)) := by
  have inside := h.inside
  obtain ⟨split, before⟩ := bytesOfAll_split (List.getElem?_eq_getElem inside)
  obtain ⟨after, -⟩ := bytesOfAll_split (List.getElem?_set_self (a := word) inside)
  rw [List.take_set_of_le (Nat.le_refl i), List.drop_set_of_lt (Nat.lt_succ_self i)] at after
  have length := bytesOf_length registerSize
  have replaced : replaced (bytesOfAll words) (i * registerSize) (bytesOf registerSize word)
      = bytesOfAll (words.set i word) := by
    rw [after, split, ← before]
    exact replaced_middle _ _ _ _ (by rw [length, length])
  have written : memoryAfter (bytesOfAll words) (UInt64.ofNat (i * registerSize))
      (bytesOf registerSize word) = .ok (bytesOfAll (words.set i word)) := by
    rw [memoryAfter, length word, h.accessEnd, h.offset, replaced]
    exact if_neg h.stop
  simp only [write, writeMemory, ofWords, written]
  rfl

theorem read_word (h : Reach words i) {word : UInt64} (there : words[i]? = some word) :
    (ofWords words).read (UInt64.ofNat (i * registerSize)) registerSize
      = .ok (bytesOf registerSize word) := by
  obtain ⟨split, before⟩ := bytesOfAll_split there
  have slice : slice (bytesOfAll words) (i * registerSize) registerSize
      = bytesOf registerSize word := by
    have own := slice_middle (bytesOfAll (words.take i)) (bytesOf registerSize word)
      (bytesOfAll (words.drop (i + 1)))
    rwa [before, bytesOf_length, ← split] at own
  simp only [read, readMemory, ofWords]
  rw [h.accessEnd, h.offset, slice]
  exact if_neg h.stop

end Window

theorem Field.decode_whole (offset word : UInt64) :
    (Field.whole offset (UInt64.ofNat registerSize)).decode (bytesOf registerSize word)
      = .ok word := by
  have whole : littleEndian (bytesOf registerSize word) = word.toNat := by
    rw [littleEndian_bytesOf]
    exact Nat.mod_eq_of_lt word.toNat_lt
  have bytes : (bytesOf registerSize word).take registerSize = bytesOf registerSize word :=
    List.take_of_length_le (Nat.le_of_eq (bytesOf_length _ _))
  have value : UInt64.ofNat (littleEndian ((bytesOf registerSize word).take registerSize))
      = word := by
    rw [bytes, whole, UInt64.ofNat_toNat]
  have long : ¬ (bytesOf registerSize word).length < registerSize := by
    rw [bytesOf_length]
    exact Nat.lt_irrefl _
  unfold Field.decode extract Field.whole
  exact (if_neg long).trans (congrArg Except.ok value)

end Register

end Telemetry
