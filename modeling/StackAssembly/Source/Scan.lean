import StackAssembly.Source.Lexeme
import StackAssembly.Text.CharacterCode
import StackAssembly.Text.Identifier

/-!
# Recognising a lexeme

The lexeme at the front of a text and the number of characters it takes.  A
malformed lexeme ends where its defect was found, and scanning goes on there.
-/

namespace StackAssembly
namespace Source

/-- A recognised lexeme and its width in characters. -/
structure Scan where
  /-- The lexeme. -/
  lexeme : Lexeme
  /-- The number of characters it takes. -/
  width : Nat
  deriving DecidableEq

/-- The value of a digit in the given radix, up to 36. -/
def digitValue? (radix : Nat) (character : Char) : Option Nat :=
  let value :=
    if character.isDigit then character.toNat - '0'.toNat
    else if character.isLower then character.toNat - 'a'.toNat + 10
    else if character.isUpper then character.toNat - 'A'.toNat + 10
    else radix
  if value < radix then some value else none

/-- The number that digits denote behind those already read.  The first digit
that is wrong or that exceeds 64 bits decides. -/
def readDigits (radix : Nat) : Nat → List Char → Except NumeralDefect Nat
  | number, [] => .ok number
  | number, digit :: digits =>
      match digitValue? radix digit with
      | none => .error .invalidDigit
      | some value =>
          let next := number * radix + value
          if next < UInt64.size then readDigits radix next digits
          else .error .tooLarge

/-- The number that a sequence of digits denotes. -/
def numeral (radix : Nat) (digits : List Char) : Except NumeralDefect Nat :=
  match digits with
  | [] => .error .empty
  | _ => readDigits radix 0 digits

/-- Whether a character goes on with a number: letters are taken along, to be
refused as digits. -/
def isNumberChar (character : Char) : Bool :=
  character.isAlphanum || character == '_'

/-- Whether a text starts with the mark of hexadecimal numbers. -/
def startsHex : List Char → Bool
  | '0' :: 'x' :: _ => true
  | '0' :: 'X' :: _ => true
  | _ => false

/-- Recognise a number, in which underscores may separate digits. -/
def scanNumber (text : List Char) : Scan :=
  let start := if startsHex text then 2 else 0
  let radix := if startsHex text then 16 else 10
  let body := (text.drop start).takeWhile isNumberChar
  let width := start + body.length
  match numeral radix (body.filter (· != '_')) with
  | .ok number => ⟨.integer (UInt64.ofNat number), width⟩
  | .error defect =>
      ⟨.malformed (.invalidInteger (String.ofList (text.take width)) defect),
        width⟩

/-- The hexadecimal digits, at most eight, at the front of a text. -/
def hexDigits (text : List Char) : List Char :=
  (text.take 8).takeWhile fun character =>
    (digitValue? 16 character).isSome

/-- The code that at most eight hexadecimal digits denote. -/
def hexCode (digits : List Char) : UInt32 :=
  UInt32.ofNat <|
    digits.foldl
      (fun number digit => number * 16 + (digitValue? 16 digit).getD 0) 0

/-- Recognise the rest of an escape behind its backslash. -/
def scanEscape : List Char → Except LexemeDefect Char × Nat
  | [] => (.error .endInEscape, 0)
  | 'n' :: _ => (.ok '\n', 1)
  | 'r' :: _ => (.ok '\r', 1)
  | 't' :: _ => (.ok '\t', 1)
  | '0' :: _ => (.ok '\x00', 1)
  | '\\' :: _ => (.ok '\\', 1)
  | '"' :: _ => (.ok '"', 1)
  | '\'' :: _ => (.ok '\'', 1)
  | 'u' :: rest =>
      match hexDigits rest with
      | [] => (.error .expectedHexDigits, 1)
      | digits =>
          match Text.scalar? (hexCode digits) with
          | some character => (.ok character, 1 + digits.length)
          | none =>
              (.error (.invalidCodePoint (hexCode digits)), 1 + digits.length)
  | character :: _ => (.error (.invalidEscape character), 1)

/-- Recognise the rest of a string behind its opening quotation mark, leaving
out the given number of characters.  The answer is the text of the string and
the number of characters up to and with the closing mark. -/
def scanStringBody :
    (skipped : Nat) → List Char → Except LexemeDefect (List Char) × Nat
  | 0, [] => (.error .unterminatedString, 0)
  | _ + 1, [] => (.error .unterminatedString, 0)
  | skipped + 1, _ :: rest =>
      let body := scanStringBody skipped rest
      (body.1, body.2 + 1)
  | 0, '"' :: _ => (.ok [], 1)
  | 0, '\\' :: rest =>
      match scanEscape rest with
      | (.ok character, width) =>
          let body := scanStringBody width rest
          (body.1.map (character :: ·), body.2 + 1)
      | (.error defect, width) => (.error defect, width + 1)
  | 0, character :: rest =>
      let body := scanStringBody 0 rest
      (body.1.map (character :: ·), body.2 + 1)

/-- Recognise a string behind its opening quotation mark. -/
def scanString (rest : List Char) : Scan :=
  match scanStringBody 0 rest with
  | (.ok text, width) => ⟨.string (String.ofList text), width + 1⟩
  | (.error defect, width) => ⟨.malformed defect, width + 1⟩

/-- Close a character literal of the given width so far. -/
def closeCharacter (character : Char) (width : Nat) (rest : List Char) :
    Scan :=
  match rest with
  | '\'' :: _ => ⟨.character (Text.code character), width + 1⟩
  | _ => ⟨.malformed .unterminatedCharacter, width⟩

/-- Recognise a character literal behind its opening quotation mark. -/
def scanCharacter : List Char → Scan
  | [] => ⟨.malformed .emptyCharacter, 1⟩
  | '\'' :: _ => ⟨.malformed .emptyCharacter, 1⟩
  | '\\' :: rest =>
      match scanEscape rest with
      | (.ok character, width) =>
          closeCharacter character (width + 2) (rest.drop width)
      | (.error defect, width) => ⟨.malformed defect, width + 2⟩
  | character :: rest => closeCharacter character 2 rest

/-- Recognise a literal for any 32-bit code behind its backslash. -/
def scanCode : List Char → Scan
  | 'u' :: rest =>
      match hexDigits rest with
      | [] => ⟨.malformed .expectedHexDigits, 2⟩
      | digits => ⟨.character (hexCode digits), digits.length + 2⟩
  | _ => ⟨.malformed .expectedCodeLiteral, 1⟩

/-- Recognise an arrow behind its hyphen. -/
def scanArrow : List Char → Scan
  | '>' :: _ => ⟨.arrow, 2⟩
  | _ => ⟨.malformed .expectedArrow, 1⟩

/-- Recognise a comment, which lasts up to the end of the line. -/
def scanComment (text : List Char) : Scan :=
  let body := text.takeWhile (· != '\n')
  ⟨.comment (String.ofList body), body.length⟩

/-- Recognise an identifier. -/
def scanIdentifier (text : List Char) : Scan :=
  let name := text.takeWhile Text.isIdentifierChar
  ⟨.identifier (String.ofList name), name.length⟩

/-- Recognise the lexeme that starts with the given character. -/
def scan (first : Char) (rest : List Char) : Scan :=
  match first with
  | '(' => ⟨.openParen, 1⟩
  | ')' => ⟨.closeParen, 1⟩
  | '[' => ⟨.openBracket, 1⟩
  | ']' => ⟨.closeBracket, 1⟩
  | '{' => ⟨.openBrace, 1⟩
  | '}' => ⟨.closeBrace, 1⟩
  | ',' => ⟨.comma, 1⟩
  | ';' => ⟨.semicolon, 1⟩
  | '-' => scanArrow rest
  | '#' => scanComment (first :: rest)
  | '"' => scanString rest
  | '\'' => scanCharacter rest
  | '\\' => scanCode rest
  | _ =>
      if first.isDigit then scanNumber (first :: rest)
      else if Text.isIdentifierStart first then scanIdentifier (first :: rest)
      else ⟨.malformed (.unexpectedCharacter first), 1⟩

end Source
end StackAssembly
