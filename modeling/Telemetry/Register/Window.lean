import Telemetry.Register.Field

/-!
Byte-addressed windows onto registers: ordinary memory, or the mapped registers of a device.

Memory is guarded by a lock. A write that does not fit stops inside the lock and leaves it
poisoned, and nothing reads or writes the window after that; a read that does not fit poisons
nothing. A mapped window takes only loads of a whole register and has no lock.

The end of an access has to be a machine word, whatever the size of the window.
-/

namespace Telemetry

namespace Register

inductive WindowKind where
  | memory
  | mapped
deriving DecidableEq

structure Window where
  kind : WindowKind
  bytes : List UInt8
  poisoned : Bool
deriving DecidableEq

inductive WindowFault where
  | poisoned
  | overflow (cause : Overflow)
  | writeOutside (length : Nat) (offset : UInt64) (size : Nat)
  | readOutside (length : Nat) (offset : UInt64) (size : Nat)
  | loadOutside (length : Nat) (offset : UInt64) (size : Nat)
  | loadWidth (length : Nat) (offset : UInt64)
  | startOutside (start size : Nat)
  | stopOutside (stop size : Nat)
deriving DecidableEq

def hexadecimal (n : Nat) : String := String.ofList ('0' :: 'x' :: Nat.toDigits 16 n)

namespace WindowFault

def message : WindowFault → String
  | .poisoned => "register window lock poisoned: poisoned lock: another task failed inside"
  | .overflow cause => cause.message
  | .writeOutside length offset size =>
    s!"register write of {length} bytes at {hexadecimal offset.toNat} outside {size}-byte window"
  | .readOutside length offset size =>
    s!"register read of {length} bytes at {hexadecimal offset.toNat} outside {size}-byte window"
  | .loadOutside length offset size =>
    s!"mmio read of {length} bytes at {hexadecimal offset.toNat} outside {size}-byte window"
  | .loadWidth length offset =>
    s!"unsupported mmio read width {length} at {hexadecimal offset.toNat}"
  | .startOutside start size =>
    s!"range start index {start} out of range for slice of length {size}"
  | .stopOutside stop size => s!"range end index {stop} out of range for slice of length {size}"

/-- Whether the fault is diagnosed by the window, and not by arithmetic or indexing below it. -/
def diagnosed : WindowFault → Bool
  | .overflow _ | .startOutside _ _ | .stopOutside _ _ => false
  | _ => true

end WindowFault

/-- `new` over the start of `old`, as much of it as fits. -/
def overlay (new old : List α) : List α := new.take old.length ++ old.drop new.length

namespace Window

def ofSize (kind : WindowKind) (size : Nat) : Window := ⟨kind, List.replicate size 0, false⟩

def accessEnd (offset : UInt64) (length : Nat) : Except WindowFault Nat :=
  (Overflow.sum.unlessFits 64 (offset.toNat + length)).mapError .overflow

def slice (bytes : List UInt8) (offset length : Nat) : List UInt8 := (bytes.drop offset).take length

def readMemory (w : Window) (offset : UInt64) (length : Nat) : Except WindowFault (List UInt8) :=
  if w.poisoned then .error .poisoned
  else do
    let stop ← accessEnd offset length
    if w.bytes.length < stop then .error (.readOutside length offset w.bytes.length)
    else .ok (slice w.bytes offset.toNat length)

/-- The byte at an address relative to the base of a mapping, 0 where nothing is mapped. -/
def load (w : Window) (address : UInt64) : UInt8 := (w.bytes[address.toNat]?).getD 0

def readMapped (w : Window) (offset : UInt64) (length : Nat) : Except WindowFault (List UInt8) := do
  let stop ← accessEnd offset length
  if w.bytes.length < stop then .error (.loadOutside length offset w.bytes.length)
  else if length ∈ [1, 2, 4, 8] then
    .ok ((List.range length).map fun i => w.load (offset + UInt64.ofNat i))
  else .error (.loadWidth length offset)

def read (w : Window) (offset : UInt64) (length : Nat) : Except WindowFault (List UInt8) :=
  match w.kind with
  | .memory => w.readMemory offset length
  | .mapped => w.readMapped offset length

def size (w : Window) : Except WindowFault Nat :=
  if w.poisoned then .error .poisoned else .ok w.bytes.length

def replaced (bytes : List UInt8) (offset : Nat) (data : List UInt8) : List UInt8 :=
  bytes.take offset ++ data ++ bytes.drop (offset + data.length)

def memoryAfter (bytes : List UInt8) (offset : UInt64) (data : List UInt8) :
    Except WindowFault (List UInt8) := do
  let stop ← accessEnd offset data.length
  if bytes.length < stop then .error (.writeOutside data.length offset bytes.length)
  else .ok (replaced bytes offset.toNat data)

def writeMemory (w : Window) (offset : UInt64) (data : List UInt8) :
    Except WindowFault Unit × Window :=
  if w.poisoned then (.error .poisoned, w)
  else
    match memoryAfter w.bytes offset data with
    | .error fault => (.error fault, { w with poisoned := true })
    | .ok bytes => (.ok (), { w with bytes })

/-- The bytes after a device has changed its own registers. -/
def registersAfter (bytes : List UInt8) (offset : UInt64) (data : List UInt8) :
    Except WindowFault (List UInt8) := do
  let stop ← accessEnd offset data.length
  if bytes.length < offset.toNat then .error (.startOutside offset.toNat bytes.length)
  else if bytes.length < stop then .error (.stopOutside stop bytes.length)
  else .ok (replaced bytes offset.toNat data)

def writeMapped (w : Window) (offset : UInt64) (data : List UInt8) :
    Except WindowFault Unit × Window :=
  match registersAfter w.bytes offset data with
  | .error fault => (.error fault, w)
  | .ok bytes => (.ok (), { w with bytes })

def write (w : Window) (offset : UInt64) (data : List UInt8) : Except WindowFault Unit × Window :=
  match w.kind with
  | .memory => w.writeMemory offset data
  | .mapped => w.writeMapped offset data

end Window

end Register

end Telemetry
