import StackAssembly.Unicode.Alphabetic

/-!
# Identifiers

Names of values, slots, natives and atoms, as they can be written in a source
text.
-/

namespace StackAssembly
namespace Text

/-- Whether an identifier can start with the character. -/
def isIdentifierStart (character : Char) : Bool :=
  Unicode.isAlphabetic character || character == '_' || character == '$' ||
    character == '.' || character == ':' || character == '/'

/-- Whether an identifier can go on with the character. -/
def isIdentifierChar (character : Char) : Bool :=
  isIdentifierStart character || character.isDigit

/-- Whether a text is one identifier and nothing else. -/
def isIdentifier (text : String) : Bool :=
  match text.toList with
  | [] => false
  | first :: rest => isIdentifierStart first && rest.all isIdentifierChar

end Text
end StackAssembly
