import StackAssembly.Source.ParseError

/-!
# Reading tokens

A cursor goes through the tokens of a text, comments left out.  Behind the
last token it meets the end of input, again and again.  A parser moves the
cursor and either yields a result or stops at an error, where it leaves the
cursor.
-/

namespace StackAssembly
namespace Source

/-- The number of lexemes shown as the context of an error. -/
def contextWidth : Nat := 8

/-- A place in a sequence of tokens. -/
structure TokenCursor where
  /-- The tokens still to be read, without the end of input. -/
  rest : List Token
  /-- The place of the end of input. -/
  ending : Position
  /-- The lexemes read so far, the last one first. -/
  consumed : List Lexeme
  /-- The number of payloads and operations that are open. -/
  depth : Nat
  deriving DecidableEq

/-- The end-of-input place among tokens: that of the last token. -/
def endingOf (tokens : List Token) : Position :=
  match tokens.getLast? with
  | some token => token.position
  | none => .start

namespace TokenCursor

/-- The cursor at the first token of a text. -/
def ofText (text : String) : TokenCursor where
  rest := (tokens text).filter fun token =>
    !(token.lexeme.isComment || token.lexeme == .endOfInput)
  ending := endingOf (tokens text)
  consumed := []
  depth := 0

/-- The next token. -/
def next (cursor : TokenCursor) : Token :=
  cursor.rest.headD ⟨.endOfInput, cursor.ending⟩

/-- The next lexeme. -/
def peek (cursor : TokenCursor) : Lexeme :=
  cursor.next.lexeme

/-- Whether all tokens have been read. -/
def atEnd (cursor : TokenCursor) : Bool :=
  cursor.rest.isEmpty

/-- The cursor behind the next token. -/
def advance (cursor : TokenCursor) : TokenCursor :=
  { cursor with
    rest := cursor.rest.tail
    consumed := cursor.peek :: cursor.consumed }

/-- The lexemes read last, in the order of reading. -/
def context (cursor : TokenCursor) : String :=
  String.intercalate " "
    (((cursor.consumed.take contextWidth).reverse).map Lexeme.display)

/-- Move a cursor to the next `value` keyword, or to the end. -/
def seekStatement (cursor : TokenCursor) : TokenCursor :=
  let skipped := cursor.rest.takeWhile fun token =>
    !token.lexeme.isWord "value"
  { cursor with
    rest := cursor.rest.drop skipped.length
    consumed := (skipped.map Token.lexeme).reverse ++ cursor.consumed }

/-- Go on behind a failed statement: pass over the token at which it failed
and everything up to the next `value` keyword. -/
def recover (cursor : TokenCursor) : TokenCursor :=
  (if cursor.atEnd then cursor else cursor.advance).seekStatement

end TokenCursor

/-- A computation that reads tokens and may stop at an error. -/
abbrev Parser (α : Type) := EStateM ParseError TokenCursor α

namespace Parser

/-- Stop at a defect. -/
def fail {α : Type} (defect : ParseDefect) : Parser α := do
  let cursor ← get
  throw
    { defect
      context := cursor.context
      position := cursor.next.position }

/-- Stop because something else was expected in place of the next lexeme. -/
def unexpected {α : Type} (what : String) : Parser α := do
  fail (.expected what (← get).peek)

/-- Read the next token. -/
def advance : Parser Unit :=
  modify TokenCursor.advance

/-- Read the given lexeme if it is the next one. -/
def nextIf (lexeme : Lexeme) : Parser Bool := do
  if (← get).peek = lexeme then
    advance
    return true
  else
    return false

/-- Read the given word if it is next. -/
def nextIfWord (word : String) : Parser Bool := do
  if (← get).peek.isWord word then
    advance
    return true
  else
    return false

/-- Read the given lexeme. -/
def expect (lexeme : Lexeme) : Parser Unit := do
  if ← nextIf lexeme then
    return ()
  else
    unexpected lexeme.description

/-- Read an identifier, which stands for the named thing. -/
def identifier (what : String) : Parser String := do
  match (← get).peek with
  | .identifier name =>
      advance
      return name
  | _ => unexpected what

/-- Read an integer. -/
def integer : Parser UInt64 := do
  match (← get).peek with
  | .integer word =>
      advance
      return word
  | _ => unexpected "integer"

/-- Read a string. -/
def string : Parser String := do
  match (← get).peek with
  | .string text =>
      advance
      return text
  | _ => unexpected "string"

/-- Read the items of a list behind its opening mark, and the closing mark.
Every item takes a token, so the fuel lasts if it exceeds their number. -/
def listItems {α : Type} (close : Lexeme) (item : Parser α) :
    (fuel : Nat) → Parser (List α)
  | 0 => return []
  | fuel + 1 => do
      if ← nextIf close then
        return []
      let first ← item
      if ← nextIf .comma then
        return first :: (← listItems close item fuel)
      else
        expect close
        return [first]

/-- Read a list between marks.  Commas separate the items, and one may follow
the last item. -/
def list {α : Type} («open» close : Lexeme) (item : Parser α) :
    Parser (List α) := do
  expect «open»
  listItems close item ((← get).rest.length + 1)

/-- Read names separated by commas. -/
def names (what : String) : (fuel : Nat) → Parser (List String)
  | 0 => return []
  | fuel + 1 => do
      let first ← identifier what
      if ← nextIf .comma then
        return first :: (← names what fuel)
      else
        return [first]

end Parser
end Source
end StackAssembly
