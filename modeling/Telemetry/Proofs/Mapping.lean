import Telemetry.Proofs.Direct

/-! What a read of mapped registers loads. The bound is checked on the end of the access, and the
end is a sum: whether it is the end depends on what becomes of a sum that is no machine word. Where
that is an overflow, nothing outside the mapping is ever loaded, and mapped registers read as memory
of the same bytes does. Where the sum wraps, an access across the top of the address space ends near
the base, the check lets it pass, and only memory stops at the slice that ends before it starts. -/
namespace Telemetry

/-- What becomes of a number that is no machine word. -/
inductive Arithmetic where
  | checked
  | wrapping
deriving DecidableEq

namespace Arithmetic

def word : Arithmetic → Overflow → Nat → Except Overflow Nat
  | .checked, overflow, n => overflow.unlessFits 64 n
  | .wrapping, _, n => .ok (n % 2 ^ 64)

theorem word_fits (a : Arithmetic) (overflow : Overflow) {n : Nat} (fits : n < 2 ^ 64) :
    a.word overflow n = .ok n := by
  cases a with
  | checked => exact if_pos fits
  | wrapping => exact congrArg Except.ok (Nat.mod_eq_of_lt fits)

end Arithmetic

namespace Register

variable {a : Arithmetic} {offset : UInt64} {length : Nat} {bytes : List UInt8}

def Field.placed (a : Arithmetic) (field : Field) (index : UInt64) : Except Overflow UInt64 := do
  let distance ← a.word .product (field.size.toNat * index.toNat)
  let offset ← a.word .sum (field.offset.toNat + distance)
  .ok (UInt64.ofNat offset)

theorem Field.placed_checked (field : Field) (index : UInt64) :
    field.placed .checked index = field.elementOffset index := rfl

theorem Field.placed_wrapping (field : Field) (index : UInt64) :
    field.placed .wrapping index = .ok (field.offset + field.size * index) := by
  refine congrArg Except.ok (UInt64.toNat_inj.mp ?_)
  rw [UInt64.toNat_ofNat', UInt64.toNat_add, UInt64.toNat_mul, Nat.mod_mod]

def accessStop (a : Arithmetic) (offset : UInt64) (length : Nat) : Except WindowFault Nat :=
  (a.word .sum (offset.toNat + length)).mapError .overflow

theorem accessStop_fits (a : Arithmetic) (fits : offset.toNat + length < 2 ^ 64) :
    accessStop a offset length = .ok (offset.toNat + length) := by
  rw [accessStop, a.word_fits .sum fits]
  rfl

theorem accessStop_checked (wide : 2 ^ 64 ≤ offset.toNat + length) :
    accessStop .checked offset length = .error (.overflow .sum) := by
  simp only [accessStop, Arithmetic.word, Overflow.unlessFits, if_neg (Nat.not_lt.mpr wide),
    Except.mapError]

theorem accessStop_wrapping (wide : 2 ^ 64 ≤ offset.toNat + length) (short : length ≤ 2 ^ 64) :
    accessStop .wrapping offset length = .ok (offset.toNat + length - 2 ^ 64) := by
  have word := offset.toNat_lt
  have rest : (offset.toNat + length) % 2 ^ 64 = offset.toNat + length - 2 ^ 64 := by omega
  rw [accessStop, Arithmetic.word, rest]
  rfl

theorem access_short (one : length ∈ [1, 2, 4, 8]) : length < 2 ^ 64 := by
  simp only [List.mem_cons, List.not_mem_nil, or_false] at one
  omega

/-! ### Memory -/

inductive MemoryFault where
  | window (fault : WindowFault)
  | reversed (start stop : Nat)
deriving DecidableEq

def memoryRead (a : Arithmetic) (bytes : List UInt8) (offset : UInt64) (length : Nat) :
    Except MemoryFault (List UInt8) := do
  let stop ← (accessStop a offset length).mapError .window
  if bytes.length < stop then .error (.window (.readOutside length offset bytes.length))
  else if stop < offset.toNat then .error (.reversed offset.toNat stop)
  else .ok (Window.slice bytes offset.toNat (stop - offset.toNat))

theorem memoryRead_within (a : Arithmetic) (word : bytes.length < 2 ^ 64)
    (within : offset.toNat + length ≤ bytes.length) :
    memoryRead a bytes offset length = .ok (Window.slice bytes offset.toNat length) := by
  have forward : ¬ offset.toNat + length < offset.toNat := by omega
  have whole : offset.toNat + length - offset.toNat = length := Nat.add_sub_cancel_left _ _
  simp only [memoryRead, accessStop_fits a (Nat.lt_of_le_of_lt within word), Except.mapError, bind,
    Except.bind, if_neg (Nat.not_lt.mpr within), if_neg forward, whole]

theorem memoryRead_beyond (a : Arithmetic) (short : length < 2 ^ 64)
    (beyond : bytes.length < offset.toNat + length) :
    ∃ f, memoryRead a bytes offset length = .error f := by
  rcases Nat.lt_or_ge (offset.toNat + length) (2 ^ 64) with fits | wide
  · simp only [memoryRead, accessStop_fits a fits, Except.mapError, bind, Except.bind,
      if_pos beyond]
    exact ⟨_, rfl⟩
  · cases a with
    | checked =>
      rw [memoryRead, accessStop_checked wide]
      exact ⟨_, rfl⟩
    | wrapping =>
      have reversed : offset.toNat + length - 2 ^ 64 < offset.toNat := by omega
      simp only [memoryRead, accessStop_wrapping wide (Nat.le_of_lt short), Except.mapError, bind,
        Except.bind, if_pos reversed]
      split <;> exact ⟨_, rfl⟩

theorem memoryRead_checked {w : Window} (sound : w.poisoned = false) (offset : UInt64)
    (length : Nat) :
    memoryRead .checked w.bytes offset length =
      (w.readMemory offset length).mapError .window := by
  simp only [Window.readMemory, sound, Bool.false_eq_true, if_false, memoryRead]
  change (accessStop .checked offset length).mapError MemoryFault.window >>= _ =
    (accessStop .checked offset length >>= _).mapError MemoryFault.window
  rcases Nat.lt_or_ge (offset.toNat + length) (2 ^ 64) with fits | wide
  · have forward : ¬ offset.toNat + length < offset.toNat := by omega
    have whole : offset.toNat + length - offset.toNat = length := Nat.add_sub_cancel_left _ _
    simp only [accessStop_fits .checked fits, Except.mapError, bind, Except.bind, if_neg forward,
      whole]
    split <;> rfl
  · rw [accessStop_checked wide]
    rfl

/-! ### Mapped registers -/

/-- Registers mapped somewhere in an address space, and what lies around them. Addresses are counted
from the first register on and go round. -/
structure Mapping where
  bytes : List UInt8
  around : UInt64 → UInt8

namespace Mapping

variable {m : Mapping} {spec : MetricSpec} {count : Nat}

def Maps (m : Mapping) (address : UInt64) : Prop := address.toNat < m.bytes.length

instance (m : Mapping) (address : UInt64) : Decidable (m.Maps address) :=
  inferInstanceAs (Decidable (_ < _))

def load (m : Mapping) (address : UInt64) : UInt8 :=
  (m.bytes[address.toNat]?).getD (m.around address)

def addresses (offset : UInt64) (length : Nat) : List UInt64 :=
  (List.range length).map fun i => offset + UInt64.ofNat i

def read (a : Arithmetic) (m : Mapping) (offset : UInt64) (length : Nat) :
    Except WindowFault (List UInt8) := do
  let stop ← accessStop a offset length
  if m.bytes.length < stop then .error (.loadOutside length offset m.bytes.length)
  else if length ∈ [1, 2, 4, 8] then .ok ((addresses offset length).map m.load)
  else .error (.loadWidth length offset)

def readElement (a : Arithmetic) (m : Mapping) (block : String) (spec : MetricSpec) (index : Nat) :
    Except Fault UInt64 :=
  let field := spec.field
  if 8 < field.size then .error (.tooWide field.size spec.name block field.offset)
  else do
    let offset ← (field.placed a (UInt64.ofNat index)).mapError .overflow
    let bytes ← (m.read a offset field.size.toNat).mapError .window
    (field.decode bytes).mapError (.undecodable spec.name block field.offset)

def readDirect (a : Arithmetic) (m : Mapping) (block : String) (spec : MetricSpec) (count : Nat) :
    Except Fault (List UInt64) :=
  (List.range count).mapM (m.readElement a block spec)

def window (m : Mapping) : Window := ⟨.mapped, m.bytes, false⟩

/-- An access inside the mapping. -/
def Within (m : Mapping) (offset : UInt64) (length : Nat) : Prop :=
  offset.toNat + length ≤ m.bytes.length

/-- An access across the top of the address space that ends in the mapping again. -/
def Around (m : Mapping) (offset : UInt64) (length : Nat) : Prop :=
  2 ^ 64 ≤ offset.toNat + length ∧ offset.toNat + length ≤ 2 ^ 64 + m.bytes.length

instance (m : Mapping) (offset : UInt64) (length : Nat) : Decidable (m.Within offset length) :=
  inferInstanceAs (Decidable (_ ≤ _))

instance (m : Mapping) (offset : UInt64) (length : Nat) : Decidable (m.Around offset length) :=
  inferInstanceAs (Decidable (_ ∧ _))

theorem mem_addresses {address : UInt64} (fits : offset.toNat + length ≤ 2 ^ 64)
    (member : address ∈ addresses offset length) :
    offset.toNat ≤ address.toNat ∧ address.toNat < offset.toNat + length := by
  obtain ⟨i, below, rfl⟩ := List.mem_map.mp member
  have small := List.mem_range.mp below
  rw [UInt64.toNat_add, UInt64.toNat_ofNat', Nat.mod_eq_of_lt (by omega),
    Nat.mod_eq_of_lt (by omega)]
  omega

theorem maps_within (word : m.bytes.length < 2 ^ 64) (within : m.Within offset length) :
    ∀ x ∈ addresses offset length, m.Maps x := fun _ member =>
  Nat.lt_of_lt_of_le (mem_addresses (Nat.le_of_lt (Nat.lt_of_le_of_lt within word)) member).2 within

theorem addresses_load (word : m.bytes.length < 2 ^ 64) (within : m.Within offset length) :
    (addresses offset length).map m.load = Window.slice m.bytes offset.toNat length := by
  have inside := within
  unfold Within at inside
  apply List.ext_getElem
  · rw [List.length_map, addresses, List.length_map, List.length_range,
      Window.slice_length inside]
  · intro i below _
    simp only [addresses, List.length_map, List.length_range] at below
    have place : (offset + UInt64.ofNat i).toNat = offset.toNat + i := by
      rw [UInt64.toNat_add, UInt64.toNat_ofNat', Nat.mod_eq_of_lt (by omega),
        Nat.mod_eq_of_lt (by omega)]
    have here : offset.toNat + i < m.bytes.length := by omega
    simp only [addresses, List.getElem_map, List.getElem_range, load, place,
      List.getElem?_eq_getElem here, Option.getD_some, Window.slice, List.getElem_take,
      List.getElem_drop]

theorem read_within (a : Arithmetic) (word : m.bytes.length < 2 ^ 64)
    (one : length ∈ [1, 2, 4, 8]) (within : m.Within offset length) :
    m.read a offset length = .ok (Window.slice m.bytes offset.toNat length) := by
  simp only [read, accessStop_fits a (Nat.lt_of_le_of_lt within word), bind, Except.bind,
    if_neg (Nat.not_lt.mpr within), if_pos one, addresses_load word within]

theorem read_beyond (short : length < 2 ^ 64) (beyond : ¬ m.Within offset length)
    (apart : ¬ (a = .wrapping ∧ m.Around offset length)) :
    m.read a offset length = (accessStop a offset length >>= fun _ =>
      .error (.loadOutside length offset m.bytes.length)) := by
  rcases Nat.lt_or_ge (offset.toNat + length) (2 ^ 64) with fits | wide
  · simp only [read, accessStop_fits a fits, bind, Except.bind, if_pos (Nat.not_le.mp beyond)]
  · cases a with
    | checked =>
      rw [read, accessStop_checked wide]
      rfl
    | wrapping =>
      have outside : m.bytes.length < offset.toNat + length - 2 ^ 64 := by
        have across : ¬ offset.toNat + length ≤ 2 ^ 64 + m.bytes.length := fun near =>
          apart ⟨rfl, wide, near⟩
        omega
      simp only [read, accessStop_wrapping wide (Nat.le_of_lt short), bind, Except.bind,
        if_pos outside]

theorem read_around (one : length ∈ [1, 2, 4, 8]) (across : m.Around offset length) :
    m.read .wrapping offset length = .ok ((addresses offset length).map m.load) := by
  obtain ⟨wide, near⟩ := across
  have short := access_short one
  have passes : ¬ m.bytes.length < offset.toNat + length - 2 ^ 64 := by omega
  simp only [read, accessStop_wrapping wide (Nat.le_of_lt short), bind, Except.bind,
    if_neg passes, if_pos one]

/-- The last address of all is among them, and no mapping reaches it. -/
theorem around_unmapped (word : m.bytes.length < 2 ^ 64) (across : m.Around offset length) :
    ∃ x ∈ addresses offset length, ¬ m.Maps x := by
  have wide := across.1
  have high := offset.toNat_lt
  refine ⟨_, List.mem_map_of_mem (List.mem_range.mpr
    (show 2 ^ 64 - 1 - offset.toNat < length by omega)), ?_⟩
  rw [Maps, UInt64.toNat_add, UInt64.toNat_ofNat']
  omega

theorem not_within_around (word : m.bytes.length < 2 ^ 64) (across : m.Around offset length) :
    ¬ m.Within offset length := by
  have wide := across.1
  unfold Within
  omega

/-! ### What lies around -/

/-- A read that does not wrap around gives the same whatever lies around the mapping. -/
theorem read_surrounded (around : UInt64 → UInt8) (word : m.bytes.length < 2 ^ 64)
    (apart : ¬ (a = .wrapping ∧ m.Around offset length)) :
    ({ m with around } : Mapping).read a offset length = m.read a offset length := by
  by_cases one : length ∈ [1, 2, 4, 8]
  · by_cases within : m.Within offset length
    · rw [read_within a word one within]
      exact read_within (m := { m with around }) a word one within
    · rw [read_beyond (access_short one) within apart]
      exact read_beyond (m := { m with around }) (access_short one) within apart
  · simp only [read, if_neg one]

theorem window_read (m : Mapping) (offset : UInt64) (length : Nat) :
    m.window.read offset length =
      ({ m with around := fun _ => 0 } : Mapping).read .checked offset length := by
  simp only [read, addresses, List.map_map]
  rfl

theorem read_checked (word : m.bytes.length < 2 ^ 64) (offset : UInt64) (length : Nat) :
    m.read .checked offset length = m.window.read offset length := by
  rw [window_read]
  exact (read_surrounded _ word (fun wraps => absurd wraps.1 (by decide))).symm

theorem readElement_surrounded (around : UInt64 → UInt8) (word : m.bytes.length < 2 ^ 64)
    {spec : MetricSpec} {index : Nat}
    (apart : ¬ (a = .wrapping ∧
      m.Around (spec.field.offset + spec.field.size * UInt64.ofNat index) spec.field.size.toNat))
    (block : String) :
    ({ m with around } : Mapping).readElement a block spec index =
      m.readElement a block spec index := by
  have same (offset : UInt64)
      (placed : spec.field.placed a (UInt64.ofNat index) = .ok offset) :
      ({ m with around } : Mapping).read a offset spec.field.size.toNat =
        m.read a offset spec.field.size.toNat := by
    apply read_surrounded around word
    rintro ⟨rfl, across⟩
    rw [Field.placed_wrapping] at placed
    cases placed
    exact apart ⟨rfl, across⟩
  simp only [readElement]
  split
  · rfl
  · cases placed : spec.field.placed a (UInt64.ofNat index) with
    | error f => rfl
    | ok offset =>
      simp only [Except.mapError, bind, Except.bind, same offset placed]

theorem readElement_checked (word : m.bytes.length < 2 ^ 64) (block : String) (spec : MetricSpec)
    (index : Nat) :
    m.readElement .checked block spec index = Block.readElement m.window block spec index := by
  simp only [readElement, Block.readElement, read_checked word, Field.placed_checked]

end Mapping

end Register

open Register (Mapping)

/-- **What is loaded lies inside the mapping, unless a sum wraps around to it.** An access of a
register's width that lies inside gives the bytes that memory gives, and every other one is refused
by memory whatever becomes of the sum. Mapped registers refuse it too, but for one that ends in the
mapping again behind the top of the address space in wrapping arithmetic: that one is loaded, and
not all of it is mapped. So a metric that is read directly is read as the running program reads it,
whatever lies around the mapping, if sums are checked; if they wrap, then as long as no element goes
across the top. -/
theorem mapped_reads_inside (m : Mapping) (word : m.bytes.length < 2 ^ 64) :
    (∀ (a : Arithmetic) (offset : UInt64) (n : Nat), n ∈ [1, 2, 4, 8] →
      (m.Within offset n →
        m.read a offset n = .ok (Register.Window.slice m.bytes offset.toNat n) ∧
        Register.memoryRead a m.bytes offset n =
          .ok (Register.Window.slice m.bytes offset.toNat n) ∧
        ∀ x ∈ Mapping.addresses offset n, m.Maps x) ∧
      (¬ m.Within offset n →
        (∃ f, Register.memoryRead a m.bytes offset n = .error f) ∧
        ((∃ f, m.read a offset n = .error f) ↔ ¬ (a = .wrapping ∧ m.Around offset n))) ∧
      (m.Around offset n → ¬ m.Within offset n ∧
        m.read .wrapping offset n = .ok ((Mapping.addresses offset n).map m.load) ∧
        ∃ x ∈ Mapping.addresses offset n, ¬ m.Maps x)) ∧
    (∀ (offset : UInt64) (n : Nat), m.read .checked offset n = m.window.read offset n ∧
      Register.memoryRead .checked m.bytes offset n =
        (({ m.window with kind := .memory } : Register.Window).read offset n).mapError .window) ∧
    (∀ (env : Surroundings) (k : Nat), env.windows[k]? = some m.window →
      ∀ (block : String) (spec : MetricSpec) (count : Nat),
        m.readDirect .checked block spec count =
          Block.readDirect env block (some k) spec count) ∧
    ∀ (around : UInt64 → UInt8) (block : String) (spec : MetricSpec) (count : Nat),
      (∀ i < count, ¬ m.Around (spec.field.offset + spec.field.size * UInt64.ofNat i)
        spec.field.size.toNat) →
      ({ m with around } : Mapping).readDirect .wrapping block spec count =
        m.readDirect .wrapping block spec count := by
  refine ⟨fun a offset n one => ⟨?_, ?_, ?_⟩, fun offset n => ⟨?_, ?_⟩, ?_, ?_⟩
  · intro within
    exact ⟨m.read_within a word one within, Register.memoryRead_within a word within,
      m.maps_within word within⟩
  · intro beyond
    have short := Register.access_short one
    refine ⟨Register.memoryRead_beyond a short (Nat.not_le.mp beyond), ?_, ?_⟩
    · rintro ⟨f, refused⟩ ⟨rfl, across⟩
      rw [Mapping.read_around one across] at refused
      cases refused
    · intro apart
      rw [Mapping.read_beyond short beyond apart]
      cases Register.accessStop a offset n <;> exact ⟨_, rfl⟩
  · exact fun across => ⟨m.not_within_around word across, Mapping.read_around one across,
      Mapping.around_unmapped word across⟩
  · exact m.read_checked word offset n
  · exact Register.memoryRead_checked (w := { m.window with kind := .memory }) rfl offset n
  · intro env k found block spec count
    simp only [Block.readDirect, Option.bind_some, found, Mapping.readDirect]
    exact mapM_congr fun i _ => Mapping.readElement_checked word block spec i
  · intro around block spec count apart
    refine mapM_congr fun i member => ?_
    exact Mapping.readElement_surrounded around word
      (fun wraps => apart i (List.mem_range.mp member) wraps.2) block

def sixteenMapped : Mapping := ⟨List.replicate 16 0, fun _ => 7⟩

def lastByte : MetricSpec := .simple "x" .gauge ⟨UInt64.ofNat (2 ^ 64 - 1), 1, 0, 0, false⟩

def wideGauge : MetricSpec := .simple "y" .gauge ⟨0, 8, 0, 0, false⟩

theorem mapped_reads_inside_sixteen :
    let env : Surroundings := .plain [sixteenMapped.window] 0
    sixteenMapped.read .wrapping 12 4 = .ok [0, 0, 0, 0] ∧
    (∃ f, sixteenMapped.read .wrapping 13 4 = .error f) ∧
    (∃ f, sixteenMapped.read .checked lastByte.field.offset 1 = .error f) ∧
    (∃ x ∈ Mapping.addresses lastByte.field.offset 1, ¬ sixteenMapped.Maps x) ∧
    sixteenMapped.readDirect .checked "b" lastByte 1 =
      Block.readDirect env "b" (some 0) lastByte 1 ∧
    ({ sixteenMapped with around := fun _ => 8 } : Mapping).readDirect .wrapping "b" wideGauge 2 =
      sixteenMapped.readDirect .wrapping "b" wideGauge 2 := by
  intro env
  obtain ⟨reads, -, direct, surrounded⟩ := mapped_reads_inside sixteenMapped (by decide)
  obtain ⟨inside, -, -⟩ := reads .wrapping 12 4 (by decide)
  obtain ⟨-, beyond, -⟩ := reads .wrapping 13 4 (by decide)
  obtain ⟨-, checked, around⟩ := reads .checked lastByte.field.offset 1 (by decide)
  exact ⟨(inside (by decide)).1, (beyond (by decide)).2.mpr (by decide),
    (checked (by decide)).2.mpr (by decide), (around (by decide)).2.2,
    direct env 0 rfl "b" lastByte 1, surrounded (fun _ => 8) "b" wideGauge 2 (by decide)⟩

/-- With sums that wrap, the byte before the first register is loaded, where memory stops. -/
theorem loaded_before_base :
    ¬ sixteenMapped.Within lastByte.field.offset 1 ∧
    sixteenMapped.read .wrapping lastByte.field.offset 1 = .ok [7] ∧
    Register.memoryRead .wrapping sixteenMapped.bytes lastByte.field.offset 1 =
      .error (.reversed (2 ^ 64 - 1) 0) ∧
    sixteenMapped.readDirect .wrapping "b" lastByte 1 = .ok [7] := by
  decide +kernel

end Telemetry
