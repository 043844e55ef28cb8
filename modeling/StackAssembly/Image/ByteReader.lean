import StackAssembly.Image.DecodeError
import StackAssembly.Image.Field
import StackAssembly.Nesting

/-!
# Reading fields from bytes

A reader goes through a sequence of bytes from the front.  A failed read keeps
the reader where the failure was found, so that its place can be reported.
-/

namespace StackAssembly
namespace Image

/-- A place in a sequence of bytes. -/
structure ByteReader where
  /-- The number of bytes read so far. -/
  offset : Nat
  /-- The bytes that are still to be read. -/
  rest : List UInt8
  /-- The number of values and operations that are open. -/
  depth : Nat
  /-- The number of values and operations whose reading was begun. -/
  reads : Nat
  deriving DecidableEq

/-- The reader at the start of a sequence of bytes. -/
def ByteReader.ofBytes (bytes : List UInt8) : ByteReader where
  offset := 0
  rest := bytes
  depth := 0
  reads := 0

/-- The reader behind the next `count` bytes. -/
def ByteReader.skip (reader : ByteReader) (count : Nat) : ByteReader :=
  { reader with
    offset := reader.offset + count
    rest := reader.rest.drop count }

/-- Whether all bytes have been read. -/
def ByteReader.atEnd (reader : ByteReader) : Bool :=
  reader.rest.isEmpty

/-- The next byte, which stays unread. -/
def ByteReader.peek? (reader : ByteReader) : Option UInt8 :=
  reader.rest.head?

/-- Whether `count` bytes are still to be read. -/
def ByteReader.hasAtLeast (reader : ByteReader) (count : Nat) : Bool :=
  decide (count ≤ reader.rest.length)

/-- Close the innermost open value or operation. -/
def ByteReader.leave (reader : ByteReader) : ByteReader :=
  { reader with depth := reader.depth - 1 }

/-- A computation that reads bytes and may find a defect. -/
abbrev Decoder (α : Type) := EStateM DecodeError ByteReader α

namespace Decoder

/-- Report a defect at the given place. -/
def failAt {α : Type} (offset : Nat) (defect : Defect) : Decoder α :=
  throw { offset, defect }

/-- The place of the next byte. -/
def offset : Decoder Nat := do
  return (← get).offset

/-- Report a defect at the next byte. -/
def fail {α : Type} (defect : Defect) : Decoder α := do
  failAt (← offset) defect

/-- Open one more value or operation. -/
def enter : Decoder Unit := do
  let reader ← get
  if maxNesting ≤ reader.depth then
    fail .nestingTooDeep
  else
    set { reader with depth := reader.depth + 1 }

/-- Read one byte. -/
def byte : Decoder UInt8 := do
  let reader ← get
  match reader.rest with
  | [] => fail .endOfStream
  | first :: _ =>
      set (reader.skip 1)
      return first

/-- Read the given number of bytes. -/
def bytes (count : Nat) : Decoder (List UInt8) := do
  let reader ← get
  let taken := reader.rest.take count
  if taken.length < count then
    fail (.tooFewBytes count reader.rest.length)
  else
    set (reader.skip count)
    return taken

/-- Read a number of the given width. -/
def number (width : Nat) : Decoder Nat := do
  if width = 0 ∨ 8 < width then
    fail (.invalidWidth width)
  else
    return numberOfBytes (← bytes width)

/-- Read a length or a count. -/
def length : Decoder Nat :=
  number numberWidth

/-- Read a truth value: every byte other than zero stands for truth. -/
def boolean : Decoder Bool := do
  return (← byte) != 0

/-- Read the bytes in front of a delimiter, and the delimiter. -/
def untilByte (delimiter : UInt8) : Decoder (List UInt8) := do
  let reader ← get
  let taken := reader.rest.takeWhile (· != delimiter)
  if (reader.rest.drop taken.length).isEmpty then
    fail .unterminatedField
  else
    set (reader.skip (taken.length + 1))
    return taken

/-- The text with the given bytes, which started at the given place. -/
def text (start : Nat) (defect : Defect) (raw : List UInt8) :
    Decoder String :=
  match String.fromUTF8? raw.toByteArray with
  | some decoded => return decoded
  | none => failAt start defect

/-- Read a name whose opening delimiter has been read. -/
def nameBody : Decoder String := do
  let start ← offset
  let raw ← untilByte nameDelimiter
  text start .nameNotText raw

/-- Read a name. -/
def name : Decoder String := do
  let start ← offset
  let opening ← byte
  if opening = nameDelimiter then
    nameBody
  else
    failAt start .expectedName

/-- Read a text after its length. -/
def data : Decoder String := do
  let count ← length
  let start ← offset
  let raw ← bytes count
  text start .stringNotText raw

/-- Read one item after the other, as many as stated. -/
def many {α : Type} (item : Decoder α) : Nat → Decoder (List α)
  | 0 => return []
  | count + 1 => do
      let first ← item
      let later ← many item count
      return first :: later

/-- Read a count and as many items. -/
def counted {α : Type} (item : Decoder α) : Decoder (List α) := do
  many item (← length)

end Decoder
end Image
end StackAssembly
