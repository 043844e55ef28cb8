import StackAssembly.Source.Scan
import StackAssembly.Unicode.WhiteSpace

/-!
# Tokens

A token is a lexeme with its place in the source text.  The tokens of a text
are its lexemes in order, with the white space between them left out, and an
end-of-input token behind the last one.
-/

namespace StackAssembly
namespace Source

/-- A place in a source text. -/
structure Position where
  /-- The number of bytes before the place. -/
  offset : Nat
  /-- The line, counted from one. -/
  line : Nat
  /-- The column in characters, counted from one. -/
  column : Nat
  deriving DecidableEq

namespace Position

/-- The place of the first character. -/
def start : Position := ⟨0, 1, 1⟩

/-- The place behind a character. -/
def after (position : Position) (character : Char) : Position where
  offset := position.offset + character.utf8Size
  line := if character = '\n' then position.line + 1 else position.line
  column := if character = '\n' then 1 else position.column + 1

/-- The place behind a sequence of characters. -/
def afterAll (position : Position) (characters : List Char) : Position :=
  characters.foldl after position

/-- How a place is shown in messages. -/
def display (position : Position) : String :=
  Text.decimal position.line ++ ":" ++ Text.decimal position.column

end Position

/-- A lexeme with the place where it starts. -/
structure Token where
  /-- The lexeme. -/
  lexeme : Lexeme
  /-- The place of its first character. -/
  position : Position
  deriving DecidableEq

/-- A lexeme of a text, with the text it takes and the white space in front
of it. -/
structure Piece where
  /-- The white space in front of the lexeme. -/
  blank : List Char
  /-- The text that the lexeme takes. -/
  body : List Char
  /-- The lexeme. -/
  lexeme : Lexeme
  deriving DecidableEq

/-- Cut a text into pieces and the white space behind the last one.  Every
lexeme takes a character, so the fuel lasts if it exceeds their number. -/
def piecesWithin : (fuel : Nat) → List Char → List Piece × List Char
  | 0, text => ([], text)
  | fuel + 1, text =>
      let blank := text.takeWhile Unicode.isWhiteSpace
      match text.drop blank.length with
      | [] => ([], blank)
      | first :: rest =>
          let found := scan first rest
          let body := (first :: rest).take found.width
          let later :=
            piecesWithin fuel ((first :: rest).drop found.width)
          (⟨blank, body, found.lexeme⟩ :: later.1, later.2)

/-- The pieces of a text and the white space behind the last one. -/
def pieces (text : List Char) : List Piece × List Char :=
  piecesWithin (text.length + 1) text

/-- The tokens of pieces that start at the given place. -/
def tokensOfPieces (trailing : List Char) :
    Position → List Piece → List Token
  | position, [] => [⟨.endOfInput, position.afterAll trailing⟩]
  | position, piece :: later =>
      let place := position.afterAll piece.blank
      ⟨piece.lexeme, place⟩ ::
        tokensOfPieces trailing (place.afterAll piece.body) later

/-- The tokens of a text. -/
def tokens (text : String) : List Token :=
  let cut := pieces text.toList
  tokensOfPieces cut.2 .start cut.1

end Source
end StackAssembly
