/-!
# Fields of an image

An image is a sequence of fields: bytes, numbers of a fixed width with the
most significant byte first, names between delimiters, and texts preceded by
their length.
-/

namespace StackAssembly
namespace Image

/-- The byte that stands on both sides of a name. -/
def nameDelimiter : UInt8 := 0x27

/-- The first byte of every image. -/
def formatVersion : UInt8 := 1

/-- The width of a number value and of every length. -/
def numberWidth : Nat := 8

/-- The width of a character code. -/
def characterWidth : Nat := 4

/-- The width of the tag of an operation. -/
def tagWidth : Nat := 4

/-- The bytes of a text in UTF-8. -/
def textBytes (text : String) : List UInt8 :=
  text.toUTF8.data.toList

/-- The lowest `width` bytes of a number, the most significant one first. -/
def numberField : (width : Nat) → (number : Nat) → List UInt8
  | 0, _ => []
  | width + 1, number =>
      UInt8.ofNat (number >>> (8 * width)) :: numberField width number

/-- The number that a sequence of bytes denotes, the most significant one
first. -/
def numberOfBytes (bytes : List UInt8) : Nat :=
  bytes.foldl (fun number byte => number * 256 + byte.toNat) 0

/-- A length or a count. -/
def lengthField (length : Nat) : List UInt8 :=
  numberField numberWidth length

/-- A truth value. -/
def booleanField (truth : Bool) : List UInt8 :=
  [if truth then 1 else 0]

/-- A name between delimiters.  A name that contains the delimiter cannot be
read back. -/
def nameField (name : String) : List UInt8 :=
  nameDelimiter :: (textBytes name ++ [nameDelimiter])

/-- A text after its length in bytes. -/
def textField (text : String) : List UInt8 :=
  lengthField (textBytes text).length ++ textBytes text

end Image
end StackAssembly
