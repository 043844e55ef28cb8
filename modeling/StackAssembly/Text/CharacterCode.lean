/-!
# Character codes

A character value holds any 32-bit code.  Only the Unicode scalar values
among them are characters of a text.
-/

namespace StackAssembly
namespace Text

/-- The character with the given code, when the code is a scalar value. -/
def scalar? (code : UInt32) : Option Char :=
  if valid : code.isValidChar then some ⟨code, valid⟩ else none

/-- The code of a character. -/
def code (character : Char) : UInt32 :=
  character.val

end Text
end StackAssembly
