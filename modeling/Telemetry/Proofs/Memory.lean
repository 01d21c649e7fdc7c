import Telemetry.Host
import Telemetry.Proofs.Direct
import Telemetry.Proofs.Replayed

/-! Windows of memory are byte memory. Everyone who knows a window by its number writes to the same
bytes: a read finds at each address what was written there last, whoever wrote it and however the
writes overlap. What would reach beyond the window faults and changes nothing, but a write that does
so poisons the window. A register that is written whole is decoded as the field of what was written,
as long as no later write covers any of it. -/
namespace Telemetry

namespace Register

/-- Bytes to be written, and where. -/
structure Patch where
  offset : UInt64
  data : List UInt8
deriving DecidableEq

namespace Patch

def ofWord (size : Nat) (offset word : UInt64) : Patch := ⟨offset, bytesOf size word⟩

def stop (p : Patch) : Nat := p.offset.toNat + p.data.length

def Covers (p : Patch) (address : Nat) : Prop := p.offset.toNat ≤ address ∧ address < p.stop

instance (p : Patch) (address : Nat) : Decidable (p.Covers address) :=
  inferInstanceAs (Decidable (_ ∧ _))

def byte? (p : Patch) (address : Nat) : Option UInt8 :=
  if p.offset.toNat ≤ address then p.data[address - p.offset.toNat]? else none

variable {p : Patch} {address : Nat}

theorem byte?_covered (covered : p.Covers address) :
    p.byte? address = p.data[address - p.offset.toNat]? := if_pos covered.1

theorem byte?_uncovered (uncovered : ¬ p.Covers address) : p.byte? address = none := by
  unfold byte?
  split
  · rename_i after
    apply List.getElem?_eq_none
    have beyond : ¬ address < p.stop := fun before => uncovered ⟨after, before⟩
    simp only [stop] at beyond
    omega
  · rfl

theorem stop_ofWord (size : Nat) (offset word : UInt64) :
    (ofWord size offset word).stop = offset.toNat + size := by
  rw [stop, ofWord, bytesOf_length]

end Patch

/-- The byte that was written last at an address, 0 if there is none. -/
def lastWritten (ps : List Patch) (address : Nat) : UInt8 :=
  (ps.reverse.findSome? (·.byte? address)).getD 0

theorem lastWritten_snoc (ps : List Patch) (p : Patch) (address : Nat) :
    lastWritten (ps ++ [p]) address = (p.byte? address).getD (lastWritten ps address) := by
  rw [lastWritten, List.reverse_append, List.reverse_singleton, List.singleton_append,
    List.findSome?_cons]
  cases p.byte? address <;> rfl

theorem lastWritten_spared {later : List Patch} {address : Nat}
    (spared : ∀ q ∈ later, ¬ q.Covers address) (ps : List Patch) :
    lastWritten (ps ++ later) address = lastWritten ps address := by
  have none : later.reverse.findSome? (·.byte? address) = none := by
    rw [List.findSome?_eq_none_iff]
    intro q member
    exact Patch.byte?_uncovered (spared q (List.mem_reverse.mp member))
  rw [lastWritten, List.reverse_append, List.findSome?_append, none, Option.none_or, lastWritten]

/-! ### One window -/

namespace Window

def written (size : Nat) (ps : List Patch) : Window :=
  ⟨.memory, (List.range size).map (lastWritten ps), false⟩

variable {w : Window} {size length : Nat} {ps : List Patch} {p : Patch} {offset : UInt64}

theorem ofSize_written (size : Nat) : ofSize .memory size = written size [] := by
  have zeros : (List.range size).map (lastWritten []) = List.replicate size 0 := by
    rw [List.eq_replicate_iff, List.length_map, List.length_range]
    refine ⟨rfl, fun b member => ?_⟩
    obtain ⟨i, -, rfl⟩ := List.mem_map.mp member
    rfl
  rw [ofSize, written, zeros]

theorem written_length (size : Nat) (ps : List Patch) : (written size ps).bytes.length = size := by
  rw [written, List.length_map, List.length_range]

theorem replaced_written (within : p.stop ≤ size) :
    replaced ((List.range size).map (lastWritten ps)) p.offset.toNat p.data =
      (List.range size).map (lastWritten (ps ++ [p])) := by
  simp only [Patch.stop] at within
  apply List.ext_getElem?
  intro i
  have old : ((List.range size).map (lastWritten ps))[i]? =
      if i < size then some (lastWritten ps i) else none := by
    rw [List.getElem?_map]
    split <;> simp [*]
  have new : ((List.range size).map (lastWritten (ps ++ [p])))[i]? =
      if i < size then some ((p.byte? i).getD (lastWritten ps i)) else none := by
    rw [List.getElem?_map, ← lastWritten_snoc]
    split <;> simp [*]
  have front : (((List.range size).map (lastWritten ps)).take p.offset.toNat).length =
      p.offset.toNat := by
    rw [List.length_take, List.length_map, List.length_range]
    omega
  rw [new, replaced, List.append_assoc, List.getElem?_append, front]
  split
  · rename_i before
    have spared : ¬ p.Covers i := fun covered => Nat.not_lt.mpr covered.1 before
    rw [List.getElem?_take_of_lt before, old, Patch.byte?_uncovered spared, Option.getD_none]
  · rename_i after
    rw [List.getElem?_append]
    split
    · rename_i inside
      have covered : p.Covers i := ⟨by omega, by simp only [Patch.stop]; omega⟩
      rw [Patch.byte?_covered covered, List.getElem?_eq_getElem inside, if_pos (by omega),
        Option.getD_some]
    · rename_i behind
      have spared : ¬ p.Covers i := by
        rintro ⟨-, before⟩
        simp only [Patch.stop] at before
        omega
      have place : p.offset.toNat + p.data.length + (i - p.offset.toNat - p.data.length) = i := by
        omega
      rw [List.getElem?_drop, place, old, Patch.byte?_uncovered spared, Option.getD_none]

theorem write_written (word : size < 2 ^ 64) (within : p.stop ≤ size) :
    (written size ps).write p.offset p.data = (.ok (), written size (ps ++ [p])) := by
  have fits : p.offset.toNat + p.data.length < 2 ^ 64 := Nat.lt_of_le_of_lt within word
  have stop : accessEnd p.offset p.data.length = .ok p.stop := by
    simp only [accessEnd, Overflow.unlessFits, if_pos fits, Except.mapError, Patch.stop]
  have inside : ¬ (written size ps).bytes.length < p.stop := by
    rw [written_length]
    exact Nat.not_lt.mpr within
  have bytes : memoryAfter (written size ps).bytes p.offset p.data =
      .ok (written size (ps ++ [p])).bytes := by
    rw [memoryAfter, stop]
    exact (if_neg inside).trans (congrArg Except.ok (replaced_written within))
  simp only [write, written, writeMemory] at bytes ⊢
  simp only [bytes, Bool.false_eq_true, if_false]

theorem write_beyond (memory : w.kind = .memory) (sound : w.poisoned = false)
    (beyond : w.bytes.length < p.stop) :
    ∃ f, w.write p.offset p.data = (.error f, { w with poisoned := true }) := by
  have refused : ∃ f, memoryAfter w.bytes p.offset p.data = .error f := by
    simp only [memoryAfter, accessEnd, Overflow.unlessFits]
    split
    · exact ⟨_, if_pos beyond⟩
    · exact ⟨_, rfl⟩
  obtain ⟨f, refused⟩ := refused
  refine ⟨f, ?_⟩
  simp only [write, memory, writeMemory, sound, refused, Bool.false_eq_true, if_false]

theorem read_beyond (memory : w.kind = .memory) (sound : w.poisoned = false)
    (beyond : w.bytes.length < offset.toNat + length) : ∃ f, w.read offset length = .error f := by
  rcases Nat.lt_or_ge (offset.toNat + length) (2 ^ 64) with word | wide
  · rw [read_memory memory sound word, if_pos beyond]
    exact ⟨_, rfl⟩
  · simp only [read, memory, readMemory, sound, accessEnd, Overflow.unlessFits,
      if_neg (Nat.not_lt.mpr wide)]
    exact ⟨_, rfl⟩

theorem read_written (word : size < 2 ^ 64) (within : offset.toNat + length ≤ size) :
    (written size ps).read offset length =
      .ok ((List.range length).map fun i => lastWritten ps (offset.toNat + i)) := by
  have inside : ¬ (written size ps).bytes.length < offset.toNat + length := by
    rw [written_length]
    exact Nat.not_lt.mpr within
  have bytes : slice (written size ps).bytes offset.toNat length =
      (List.range length).map fun i => lastWritten ps (offset.toNat + i) := by
    apply List.ext_getElem?
    intro i
    rw [slice, written, List.getElem?_take, List.getElem?_drop, List.getElem?_map,
      List.getElem?_map]
    split
    · rename_i below
      rw [List.getElem?_range (by omega), List.getElem?_range below]
      rfl
    · rename_i behind
      rw [List.getElem?_eq_none (by rw [List.length_range]; omega)]
      rfl
  rw [read_memory rfl rfl (Nat.lt_of_le_of_lt within word), if_neg inside, bytes]

theorem read_poisoned (memory : w.kind = .memory) (poisoned : w.poisoned = true)
    (offset : UInt64) (length : Nat) : w.read offset length = .error .poisoned := by
  simp only [read, memory, readMemory, poisoned, if_true]

theorem read_register (word : size < 2 ^ 64) {count : Nat} {value : UInt64} {later : List Patch}
    (within : offset.toNat + count ≤ size)
    (spared : ∀ q ∈ later, ∀ i < count, ¬ q.Covers (offset.toNat + i)) :
    (written size (ps ++ [.ofWord count offset value] ++ later)).read offset count =
      .ok (bytesOf count value) := by
  have length := bytesOf_length count value
  rw [read_written word within]
  congr 1
  apply List.ext_getElem
  · rw [List.length_map, List.length_range, length]
  · intro i below inside
    rw [List.length_map, List.length_range] at below
    have there : (Patch.ofWord count offset value).Covers (offset.toNat + i) :=
      ⟨Nat.le_add_right _ _, by rw [Patch.stop_ofWord]; omega⟩
    have apart (q : Patch) (member : q ∈ later) : ¬ q.Covers (offset.toNat + i) :=
      spared q member i below
    have place : offset.toNat + i - offset.toNat = i := Nat.add_sub_cancel_left _ _
    rw [List.getElem_map, List.getElem_range, lastWritten_spared apart, lastWritten_snoc,
      Patch.byte?_covered there]
    simp only [Patch.ofWord, place, List.getElem?_eq_getElem inside, Option.getD_some]

end Window

def storedValue (value : UInt64) (size : Nat) (invert : Bool) : Nat :=
  let stored := value.toNat % 2 ^ (8 * size)
  if invert then 2 ^ (8 * size) - 1 - stored else stored

theorem registerValue_bytesOf (value size : UInt64) (invert : Bool) :
    registerValue (bytesOf size.toNat value) size invert =
      storedValue value size.toNat invert := by
  have whole : (bytesOf size.toNat value).take size.toNat = bytesOf size.toNat value :=
    List.take_of_length_le (Nat.le_of_eq (bytesOf_length _ _))
  rw [registerValue, whole, littleEndian_bytesOf, storedValue, Nat.pow_mul]

end Register

/-! ### The windows of a host -/

open Register (Window Patch lastWritten storedValue)

namespace Host

variable {h : Host} {k size : Nat} {ps : List Patch}

def writeAll (writes : List (Nat × Patch)) (h : Host) : Host :=
  writes.foldl (fun h x => (h.write x.1 x.2.offset x.2.data).2) h

def onWindow (k : Nat) (writes : List (Nat × Patch)) : List Patch :=
  (writes.filter fun x => x.1 = k).map (·.2)

theorem conclude_windows (outcome : Outcome α) (h : Host) :
    (conclude outcome h).2.windows = h.windows := by
  unfold conclude
  split
  · unfold diagnose
    split <;> rfl
  · rfl

theorem conclude_outcome (outcome : Outcome α) (h : Host) : (conclude outcome h).1 = outcome := by
  unfold conclude
  split <;> rfl

variable {w v : Window} {p : Patch} {offset : UInt64} {length : Nat}

theorem write_found {result : Except Register.WindowFault Unit} (found : h.windows[k]? = some w)
    (wrote : w.write p.offset p.data = (result, v)) :
    (h.write k p.offset p.data).1 = result.mapError (fun f => .fault (.window f)) ∧
      (h.write k p.offset p.data).2.windows = h.windows.set k v := by
  simp only [write, found, wrote, conclude_windows, conclude_outcome, and_self]

theorem read_found (found : h.windows[k]? = some w) :
    (h.read k offset length).1 = (w.read offset length).mapError fun f => .fault (.window f) := by
  simp only [read, found, conclude_outcome]

theorem read_windows (h : Host) (k : Nat) (offset : UInt64) (length : Nat) :
    (h.read k offset length).2.windows = h.windows := by
  unfold read
  split
  · rfl
  · exact conclude_windows _ h

theorem write_elsewhere {j : Nat} (other : j ≠ k) :
    (h.write j p.offset p.data).2.windows[k]? = h.windows[k]? := by
  unfold write
  split
  · rfl
  · rw [conclude_windows]
    exact List.getElem?_set_ne other

theorem write_written (word : size < 2 ^ 64) (found : h.windows[k]? = some (.written size ps))
    (within : p.stop ≤ size) :
    (h.write k p.offset p.data).1 = .ok () ∧
      (h.write k p.offset p.data).2.windows[k]? = some (.written size (ps ++ [p])) := by
  obtain ⟨outcome, windows⟩ := write_found found (Window.write_written word within)
  have below := (List.getElem?_eq_some_iff.mp found).1
  rw [outcome, windows, List.getElem?_set_self below]
  exact ⟨rfl, rfl⟩

/-- A window takes the writes that are for it, whatever becomes of the others. -/
theorem writeAll_written (word : size < 2 ^ 64) {writes : List (Nat × Patch)}
    (found : h.windows[k]? = some (.written size ps))
    (within : ∀ x ∈ writes, x.1 = k → x.2.stop ≤ size) :
    (h.writeAll writes).windows[k]? = some (.written size (ps ++ onWindow k writes)) := by
  induction writes generalizing h ps with
  | nil =>
    rw [onWindow, List.filter_nil, List.map_nil, List.append_nil]
    exact found
  | cons x rest ih =>
    have later : ∀ y ∈ rest, y.1 = k → y.2.stop ≤ size := fun y member =>
      within y (List.mem_cons_of_mem x member)
    by_cases own : x.1 = k
    · have first := (write_written word found (within x List.mem_cons_self own)).2
      rw [← own] at first
      have whole : onWindow k (x :: rest) = [x.2] ++ onWindow k rest := by simp [onWindow, own]
      rw [whole, ← List.append_assoc]
      exact ih (own ▸ first) later
    · have same : onWindow k (x :: rest) = onWindow k rest := by simp [onWindow, own]
      rw [same]
      exact ih ((write_elsewhere own).trans found) later

end Host

theorem Block.readDirect_register {env : Surroundings} {k size : Nat} {before after : List Patch}
    {spec : MetricSpec} {value : UInt64} (word : size < 2 ^ 64)
    (found : env.windows[k]? = some (.written size
      (before ++ [.ofWord spec.field.size.toNat spec.field.offset value] ++ after)))
    (supported : spec.field.size ∈ Register.supportedSizes)
    (within : spec.field.offset.toNat + spec.field.size.toNat ≤ size)
    (spared : ∀ q ∈ after, ∀ i < spec.field.size.toNat, ¬ q.Covers (spec.field.offset.toNat + i))
    (name : String) :
    ∃ x, readDirect env name (some k) spec 1 = .ok [x] ∧
      x.toNat = Register.fieldValue
        (storedValue value spec.field.size.toNat spec.field.invert)
        spec.field.shift spec.field.width := by
  have start : spec.field.offset.toNat + spec.field.size.toNat * 0 < 2 ^ 64 := by omega
  obtain ⟨offset, placed, place⟩ := Register.Field.elementOffset_ok start
  obtain rfl : offset = spec.field.offset := UInt64.toNat_inj.mp place
  have bytes := Register.bytesOf_length spec.field.size.toNat value
  obtain ⟨x, decoded, field⟩ : ∃ x, spec.field.decode (Register.bytesOf _ value) = .ok x ∧ _ :=
    Register.extract_supported bytes.ge supported
  rw [Register.registerValue_bytesOf] at field
  have read : (Window.written size (before ++ [_] ++ after)).read spec.field.offset _ =
      .ok (Register.bytesOf _ value) := Window.read_register word within spared
  have element := readElement_ok name (Register.supported_narrow supported) placed read decoded
  refine ⟨x, ?_, field⟩
  simp only [readDirect, Option.bind_some, found, List.range_one, List.mapM_cons, List.mapM_nil,
    element]
  rfl

/-- **A window of memory is byte memory.** Take a new one and any writes, to this window and to
others; those to this one stay inside it. Then a read inside the window finds at each address what
was written there last, 0 where nothing was; and what reaches beyond it faults and changes no byte,
while a write that does so leaves the window poisoned, so that nothing is read any more. A block
that reads a register directly finds the field of the value that was written to it, counted down
from the greatest one if it is inverted, whatever later writes have changed beside it. -/
theorem windows_are_memory (h : Host) (k size : Nat) (word : size < 2 ^ 64)
    (fresh : h.windows[k]? = some (.ofSize .memory size)) (writes : List (Nat × Patch))
    (within : ∀ x ∈ writes, x.1 = k → x.2.stop ≤ size) :
    let done := h.writeAll writes
    let ps := Host.onWindow k writes
    (∀ offset length, offset.toNat + length ≤ size →
      (done.read k offset length).1 =
        .ok ((List.range length).map fun i => lastWritten ps (offset.toNat + i))) ∧
    (∀ p : Patch, p.stop ≤ size → (done.write k p.offset p.data).1 = .ok ()) ∧
    (∀ offset length, (done.read k offset length).2.windows = done.windows ∧
      (size < offset.toNat + length →
        ∃ f, (done.read k offset length).1 = .error (.fault (.window f)))) ∧
    (∀ p : Patch, size < p.stop →
      let after := (done.write k p.offset p.data).2
      (∃ f, (done.write k p.offset p.data).1 = .error (.fault (.window f))) ∧
      after.windows.map (·.bytes) = done.windows.map (·.bytes) ∧
      ∀ offset length, (after.read k offset length).1 = .error (.fault (.window .poisoned))) ∧
    ∀ (spec : MetricSpec) (before after : List Patch) (value : UInt64) (name : String),
      spec.field.size ∈ [1, 2, 4, 8] →
      ps = before ++ [.ofWord spec.field.size.toNat spec.field.offset value] ++ after →
      (∀ q ∈ after, ∀ i < spec.field.size.toNat, ¬ q.Covers (spec.field.offset.toNat + i)) →
      ∃ x, Block.readDirect done.surroundings name (some k) spec 1 = .ok [x] ∧
        x.toNat = Register.fieldValue
          (storedValue value spec.field.size.toNat spec.field.invert)
          spec.field.shift spec.field.width := by
  intro done ps
  have found : done.windows[k]? = some (.written size ps) := by
    rw [Window.ofSize_written] at fresh
    simpa using Host.writeAll_written word fresh within
  have length := Window.written_length size ps
  refine ⟨?_, ?_, ?_, ?_, ?_⟩
  · intro offset count inside
    rw [Host.read_found found, Window.read_written word inside]
    rfl
  · exact fun p inside => (Host.write_written word found inside).1
  · intro offset count
    refine ⟨Host.read_windows done k offset count, fun beyond => ?_⟩
    obtain ⟨f, refused⟩ :=
      Window.read_beyond (w := .written size ps) rfl rfl (length.symm ▸ beyond)
    rw [Host.read_found found, refused]
    exact ⟨f, rfl⟩
  · intro p beyond after
    obtain ⟨f, refused⟩ :=
      Window.write_beyond (w := .written size ps) rfl rfl (length.symm ▸ beyond)
    obtain ⟨outcome, windows⟩ := Host.write_found found refused
    have below := (List.getElem?_eq_some_iff.mp found).1
    have poisoned : after.windows[k]? = some { Window.written size ps with poisoned := true } := by
      rw [windows, List.getElem?_set_self below]
    refine ⟨⟨f, outcome⟩, ?_, ?_⟩
    · rw [windows]
      apply List.ext_getElem?
      intro j
      rw [List.getElem?_map, List.getElem?_map]
      by_cases own : k = j
      · subst own
        rw [List.getElem?_set_self below, found]
        rfl
      · rw [List.getElem?_set_ne own]
    · intro offset count
      rw [Host.read_found poisoned, Window.read_poisoned rfl rfl]
      rfl
  · intro spec before after value name supported split spared
    rw [split] at found
    have own : Patch.ofWord spec.field.size.toNat spec.field.offset value ∈ ps := by
      rw [split]
      simp
    obtain ⟨x, member, same⟩ := List.mem_map.mp own
    obtain ⟨there, window⟩ := List.mem_filter.mp member
    have inside := within x there (by simpa using window)
    rw [same, Patch.stop_ofWord] at inside
    exact Block.readDirect_register word found supported inside spared name

def sixteenBytes : Host :=
  ⟨[.ofSize .memory 16], Shared.ofRegistries 1, [], ownMetrics, none, 0, 0⟩

def overlapping : List (Nat × Patch) :=
  [(0, .ofWord 8 0 0x1122334455667788), (0, .ofWord 4 6 0xaabbccdd), (0, .ofWord 2 2 0xeeff),
    (0, ⟨16, []⟩)]

def invertedField : MetricSpec := .simple "x" .gauge ⟨6, 4, 4, 8, true⟩

theorem windows_are_memory_overlapping :
    let done := sixteenBytes.writeAll overlapping
    (done.read 0 1 8).1 = .ok [0x77, 0xff, 0xee, 0x44, 0x33, 0xdd, 0xcc, 0xbb] ∧
    (done.write 0 12 [1, 2, 3, 4]).1 = .ok () ∧
    (∃ f, (done.read 0 9 8).1 = .error (.fault (.window f))) ∧
    (∃ f, (done.write 0 17 []).1 = .error (.fault (.window f))) ∧
    ∃ x, Block.readDirect done.surroundings "b" (some 0) invertedField 1 = .ok [x] ∧
      x.toNat = 0x3 := by
  intro done
  obtain ⟨reads, writes, loud, failing, fields⟩ := windows_are_memory sixteenBytes 0 16 (by decide)
    rfl overlapping (by decide)
  obtain ⟨x, direct, value⟩ := fields invertedField [.ofWord 8 0 0x1122334455667788]
    [.ofWord 2 2 0xeeff, ⟨16, []⟩] 0xaabbccdd "b" (by decide) rfl (by decide +kernel)
  exact ⟨reads 1 8 (by decide), writes ⟨12, [1, 2, 3, 4]⟩ (by decide), (loud 9 8).2 (by decide),
    (failing ⟨17, []⟩ (by decide)).1, x, direct, value⟩

end Telemetry
