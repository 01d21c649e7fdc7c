import Telemetry.Number.Word

/-!
Fields of device registers: where a field lies, the masks of its values, and its extraction from
the little-endian bytes of its register.

Offsets and sizes are machine words, and so are the offsets of array elements: one that is not is
an overflow.
-/

namespace Telemetry

namespace Register

/-- Location and shape of a field. A width of 0 means the whole register: no shift, no mask. -/
structure Field where
  offset : UInt64
  size : UInt64
  width : UInt32
  shift : UInt32
  invert : Bool
deriving DecidableEq

inductive DecodeError where
  | short (size : UInt64) (returned : Nat)
  | unsupportedSize (size : UInt64)
deriving DecidableEq

namespace DecodeError

/-- The class of specification mistake that an error belongs to. -/
inductive Kind where
  | invalidSpec
  | unsupportedSize
deriving DecidableEq

def kind : DecodeError → Kind
  | .short _ _ => .invalidSpec
  | .unsupportedSize _ => .unsupportedSize

def message : DecodeError → String
  | .short size returned =>
    s!"Invalid specification: register read of {size} bytes returned {returned}"
  | .unsupportedSize size => s!"Unsupported register size: {size} bytes"

end DecodeError

/-- The `width` low bits, all of them from 64 up. -/
def lowBits (width : UInt32) : UInt64 :=
  if 64 ≤ width then UInt64.ofNat (2 ^ 64 - 1) else ((1 : UInt64) <<< width.toUInt64) - 1

def littleEndian (bytes : List UInt8) : Nat :=
  bytes.foldr (fun b n => b.toNat + 256 * n) 0

def bytesOf : Nat → UInt64 → List UInt8
  | 0, _ => []
  | count + 1, word => word.toUInt8 :: bytesOf count (word >>> 8)

/-- The word shifted right; nothing is left of it from 64 up. -/
def shiftRight (word : UInt64) (shift : UInt32) : UInt64 :=
  if 64 ≤ shift then 0 else word >>> shift.toUInt64

def supportedSizes : List UInt64 := [1, 2, 4, 8]

/--
The value of a field of a register of `size` bytes. Inversion complements the whole register; the
shift and the mask apply only to a field that has a width.
-/
def extract (bytes : List UInt8) (size : UInt64) (shift width : UInt32) (invert : Bool) :
    Except DecodeError UInt64 :=
  if bytes.length < size.toNat then .error (.short size bytes.length)
  else if size ∈ supportedSizes then
    let register := UInt64.ofNat (littleEndian (bytes.take size.toNat))
    let register :=
      if invert then ~~~register &&& lowBits (8 * size.toUInt32) else register
    if width = 0 then .ok register else .ok (shiftRight register shift &&& lowBits width)
  else .error (.unsupportedSize size)

namespace Field

/-- The whole register of `size` bytes at `offset`. -/
def whole (offset size : UInt64) : Field := ⟨offset, size, 0, 0, false⟩

def elementOffset (field : Field) (index : UInt64) : Except Overflow UInt64 := do
  let distance ← Overflow.product.unlessFits 64 (field.size.toNat * index.toNat)
  let offset ← Overflow.sum.unlessFits 64 (field.offset.toNat + distance)
  .ok (UInt64.ofNat offset)

/-- The number of bits of a register. It is a half word, as is what is left of the size there. -/
def bitCount (size : UInt64) : Except Overflow UInt32 :=
  (Overflow.product.unlessFits 32 (8 * size.toUInt32.toNat)).map UInt32.ofNat

/-- The bits that a decoded value can occupy: the field's width, else the register's size. -/
def valueMask (field : Field) : Except Overflow UInt64 :=
  if field.width = 0 then (bitCount field.size).map lowBits else .ok (lowBits field.width)

/-- The bits of the declared width, all of them for a whole register. -/
def widthMask (field : Field) : UInt64 :=
  if field.width = 0 then UInt64.ofNat (2 ^ 64 - 1) else lowBits field.width

def decode (field : Field) (bytes : List UInt8) : Except DecodeError UInt64 :=
  extract bytes field.size field.shift field.width field.invert

end Field

end Register

end Telemetry
