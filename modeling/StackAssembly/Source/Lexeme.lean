import StackAssembly.Text.Numeral
import StackAssembly.Text.Quoted

/-!
# Lexemes

The words and marks of which a source text consists.  Text that is no lexeme
becomes a malformed one, so that scanning never fails.
-/

namespace StackAssembly
namespace Source

/-- Why a sequence of digits denotes no 64-bit number. -/
inductive NumeralDefect where
  | empty
  | invalidDigit
  | tooLarge
  deriving DecidableEq

/-- Why a piece of text is no lexeme. -/
inductive LexemeDefect where
  | expectedArrow
  | unexpectedCharacter (character : Char)
  | unterminatedString
  | endInEscape
  | invalidEscape (character : Char)
  | expectedHexDigits
  | invalidCodePoint (code : UInt32)
  | emptyCharacter
  | unterminatedCharacter
  | expectedCodeLiteral
  | invalidInteger (text : String) (defect : NumeralDefect)
  deriving DecidableEq

/-- A word or mark of a source text. -/
inductive Lexeme where
  | openParen
  | closeParen
  | openBracket
  | closeBracket
  | openBrace
  | closeBrace
  | comma
  | semicolon
  | arrow
  | identifier (name : String)
  | integer (word : UInt64)
  | string (text : String)
  | character (code : UInt32)
  | comment (text : String)
  | endOfInput
  | malformed (defect : LexemeDefect)
  deriving DecidableEq

/-- The wording of a defect of a number. -/
def NumeralDefect.message : NumeralDefect → String
  | .empty => "cannot parse integer from empty string"
  | .invalidDigit => "invalid digit found in string"
  | .tooLarge => "number too large to fit in target type"

/-- The wording of a defect. -/
def LexemeDefect.message : LexemeDefect → String
  | .expectedArrow => "expected '->'"
  | .unexpectedCharacter character =>
      "unexpected character: " ++ String.singleton character
  | .unterminatedString => "unterminated string literal"
  | .endInEscape => "unexpected end of input in escape"
  | .invalidEscape character =>
      "invalid escape sequence: \\" ++ String.singleton character
  | .expectedHexDigits => "expected hexadecimal digits"
  | .invalidCodePoint code =>
      "invalid code point: 0x" ++ Text.lowerHex code.toNat
  | .emptyCharacter => "empty character literal"
  | .unterminatedCharacter => "unterminated character literal"
  | .expectedCodeLiteral => "expected '\\u' character literal"
  | .invalidInteger text defect =>
      "invalid integer " ++ text ++ ": " ++ defect.message

namespace Lexeme

/-- What a lexeme is called in messages. -/
def description : Lexeme → String
  | .openParen => "'('"
  | .closeParen => "')'"
  | .openBracket => "'['"
  | .closeBracket => "']'"
  | .openBrace => "'\x7b'"
  | .closeBrace => "'\x7d'"
  | .comma => "','"
  | .semicolon => "';'"
  | .arrow => "'->'"
  | .identifier _ => "identifier"
  | .integer _ => "integer"
  | .string _ => "string"
  | .character _ => "character"
  | .comment _ => "comment"
  | .endOfInput => "end of input"
  | .malformed _ => "error"

/-- How a lexeme is shown in the context of an error. -/
def display : Lexeme → String
  | .openParen => "("
  | .closeParen => ")"
  | .openBracket => "["
  | .closeBracket => "]"
  | .openBrace => "\x7b"
  | .closeBrace => "\x7d"
  | .comma => ","
  | .semicolon => ";"
  | .arrow => "->"
  | .identifier name => name
  | .integer word => Text.decimal word.toNat
  | .string text => Text.quoted '"' text
  | .character code => "\\u" ++ Text.paddedUpperHex 4 code.toNat
  | .comment text => text
  | .endOfInput => "<eof>"
  | .malformed defect => "<error: " ++ defect.message ++ ">"

/-- Whether a lexeme is the given word. -/
def isWord (lexeme : Lexeme) (word : String) : Bool :=
  match lexeme with
  | .identifier name => name == word
  | _ => false

/-- Whether a lexeme is a comment, which the grammar does not see. -/
def isComment : Lexeme → Bool
  | .comment _ => true
  | _ => false

end Lexeme
end Source
end StackAssembly
