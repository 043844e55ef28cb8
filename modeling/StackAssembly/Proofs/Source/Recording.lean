import StackAssembly.Source.Program

/-!
# Parsers that record their errors

A parser stops at an error and is given as many levels of nesting as are left.
A *recording* reads the same grammar in another way.  It goes from session to
session.  At a defect it records an error in the session and answers nothing,
which whoever has called it passes on.  The payloads and operations that are
open are counted up when one is entered and down when it is left, whether
anything was answered or not.  Each recording has the name of its parser.

Nothing in this form prevents that an error is recorded twice or not at all,
that the count is not taken back or that a loop has no end.  A recording may
therefore have no outcome: the depth of the recursion is bounded by fuel, and
so are the loops, by more rounds than there are tokens.
-/

namespace StackAssembly
namespace Source

/-- The error for a defect found at a cursor. -/
def TokenCursor.errorAt (cursor : TokenCursor) (defect : ParseDefect) :
    ParseError where
  defect := defect
  context := cursor.context
  position := cursor.next.position

namespace Session

/-- The session with another cursor. -/
def moveTo (session : Session) (cursor : TokenCursor) : Session :=
  { session with cursor }

/-- Record an error for a defect at the cursor. -/
def record (session : Session) (defect : ParseDefect) : Session :=
  { session with errors := session.errors ++ [session.cursor.errorAt defect] }

/-- Count one more payload or operation as open. -/
def enter (session : Session) : Session :=
  session.moveTo { session.cursor with depth := session.cursor.depth + 1 }

/-- Count one payload or operation less as open. -/
def leave (session : Session) : Session :=
  session.moveTo { session.cursor with depth := session.cursor.depth - 1 }

end Session

/-- A computation on a session that may have no outcome.  If it has one, it
answers something or nothing. -/
abbrev Recording (α : Type) := OptionT (StateT Session Option) α

namespace Recording

/-- The computation without an outcome. -/
def endless {α : Type} : Recording α :=
  fun _ => none

/-- Record a defect and answer nothing. -/
def fail {α : Type} (defect : ParseDefect) : Recording α := do
  modify fun session => session.record defect
  failure

/-- Record that something else was expected in place of the next lexeme. -/
def unexpected {α : Type} (what : String) : Recording α := do
  fail (.expected what (← get).cursor.peek)

def advance : Recording Unit :=
  modify fun session => session.moveTo session.cursor.advance

def nextIf (lexeme : Lexeme) : Recording Bool := do
  if (← get).cursor.peek = lexeme then
    advance
    return true
  else
    return false

def nextIfWord (word : String) : Recording Bool := do
  if (← get).cursor.peek.isWord word then
    advance
    return true
  else
    return false

def expect (lexeme : Lexeme) : Recording Unit := do
  if ← nextIf lexeme then
    return ()
  else
    unexpected lexeme.description

def identifier (what : String) : Recording String := do
  match (← get).cursor.peek with
  | .identifier name =>
      advance
      return name
  | _ => unexpected what

def integer : Recording UInt64 := do
  match (← get).cursor.peek with
  | .integer word =>
      advance
      return word
  | _ => unexpected "integer"

def string : Recording String := do
  match (← get).cursor.peek with
  | .string text =>
      advance
      return text
  | _ => unexpected "string"

/-- Read the items of a list behind its opening mark, and the closing mark,
in a bounded number of rounds. -/
def listItems {α : Type} (close : Lexeme) (item : Recording α) :
    (rounds : Nat) → Recording (List α)
  | 0 => endless
  | rounds + 1 => do
      if ← nextIf close then
        return []
      let first ← item
      if ← nextIf .comma then
        return first :: (← listItems close item rounds)
      else
        expect close
        return [first]

def list {α : Type} («open» close : Lexeme) (item : Recording α) :
    Recording (List α) := do
  expect «open»
  listItems close item ((← get).cursor.rest.length + 1)

/-- Read names separated by commas, in a bounded number of rounds. -/
def names (what : String) : (rounds : Nat) → Recording (List String)
  | 0 => endless
  | rounds + 1 => do
      let first ← identifier what
      if ← nextIf .comma then
        return first :: (← names what rounds)
      else
        return [first]

def slots : Recording (List String) := do
  if ← nextIfWord "slots" then
    names "slot name" ((← get).cursor.rest.length + 1)
  else
    return []

def separator : Recording Unit := do
  if ← nextIf .comma then
    return ()
  else
    discard (nextIf .semicolon)

def boolean : Recording Bool := do
  if ← nextIfWord "true" then
    return true
  else if ← nextIfWord "false" then
    return false
  else
    fail .expectedBoolean

def character : Recording UInt32 := do
  match (← get).cursor.peek with
  | .character code =>
      advance
      return code
  | .integer word =>
      advance
      if word.toNat < UInt32.size then
        return word.toUInt32
      else
        fail (.characterTooLarge word)
  | _ => fail .expectedCharacter

def errorCode : Recording ErrorCode := do
  let word ← identifier "error code"
  match ErrorCode.ofToken? word with
  | some code => return code
  | none => fail (.unknownErrorCode word)

def valueKind : Recording ValueKind := do
  let word ← identifier "type name"
  match ValueKind.ofKeyword? word with
  | some kind => return kind
  | none => fail (.unknownKind word)

/-- The recordings for the parts of a payload. -/
structure Parts where
  value : Recording Value
  operation : Recording Operation

namespace Parts

def tupleBody (parts : Parts) : Recording (List Value) :=
  list .openParen .closeParen parts.value

def entry (parts : Parts) : Recording (Value × Value) := do
  let key ← parts.value
  expect .arrow
  let value ← parts.value
  return (key, value)

def tableBody (parts : Parts) : Recording Entries := do
  return Entries.ofPairs (← list .openBracket .closeBracket parts.entry)

def setBody (parts : Parts) : Recording Members := do
  return Members.ofValues (← list .openBracket .closeBracket parts.value)

/-- Read the operations of a block and its closing brace, in a bounded number
of rounds. -/
def operations (parts : Parts) : (rounds : Nat) → Recording (List Operation)
  | 0 => endless
  | rounds + 1 => do
      if ← nextIf .closeBrace then
        return []
      if (← get).cursor.atEnd then
        fail .unterminatedBlock
      let first ← parts.operation
      separator
      return first :: (← operations parts rounds)

def blockBody (parts : Parts) : Recording Operation := do
  let names ← slots
  expect .openBrace
  let body ← operations parts ((← get).cursor.rest.length + 1)
  return .block names body

def binding (parts : Parts) : Recording Operation := do
  let value ← parts.value
  let target ← parts.value
  match target.callable? with
  | some callable => return .partialBind value callable
  | none => fail (.notCallable target.kind)

def valueBody (parts : Parts) : ValueKind → Recording Value
  | .empty => return .empty
  | .number => do return .number (← integer)
  | .boolean => do return .boolean (← boolean)
  | .character => do return .character (← character)
  | .string => do return .string (← string)
  | .atom => do return .atom (← identifier "atom name")
  | .error => do return .error (← errorCode)
  | .type => do return .type (← valueKind)
  | .tuple => do return .tuple (← parts.tupleBody)
  | .table => do return .table (← parts.tableBody)
  | .set => do return .set (← parts.setBody)
  | .operation => do return .operation (← parts.operation)
  | .block => do return .operation (← parts.blockBody)
  | .bind => do return .operation (← parts.binding)

def arguments (parts : Parts) : Recording (List Value) := do
  if (← get).cursor.peek = .openParen then
    parts.tupleBody
  else
    return []

def alternative (parts : Parts) : Recording (Option Operation) := do
  if ← nextIfWord "else" then
    return some (← parts.operation)
  else
    return none

def operationBody (parts : Parts) (kind : OperationKind) :
    (form : OperationKind) → Recording Operation
  | .primitive _ =>
      match Operation.ofKind? kind with
      | some operation => return operation
      | none => fail (.missingPayload kind)
  | .push => do return .push (← parts.value)
  | .ifTrue => do return .ifTrue (← parts.operation)
  | .select => do
      let cases ← parts.tableBody
      let otherwise ← parts.alternative
      return .select cases otherwise
  | .named _ => do
      let name ← identifier "name"
      match kind with
      | .named use => return .named use name
      | _ => fail (.unexpectedName kind)
  | .call => do
      let target ← identifier "call target"
      let values ← parts.arguments
      return .call target values
  | .loadNative => do return .loadNative (← string)
  | .native => do
      let bucket ← identifier "native bucket"
      let name ← identifier "native operation"
      return .native bucket name
  | .block => parts.blockBody
  | .partialBind => do
      let value ← parts.value
      let callable ← parts.operation
      return .partialBind value callable

def openValue (dialect : Dialect) (parts : Parts) : Recording Value := do
  let keyword ← identifier "value type"
  match dialect.valueFormOfKeyword? keyword with
  | some form => parts.valueBody form
  | none => fail (.unknownValueKind keyword)

def openOperation (dialect : Dialect) (parts : Parts) :
    Recording Operation := do
  let keyword ← identifier "operation"
  match dialect.operationFormOfKeyword? keyword with
  | some (kind, form) => parts.operationBody kind form
  | none => fail (.unknownOperation keyword)

end Parts

/-- Count a payload or an operation as open, unless too many are. -/
def enter : Recording Unit := do
  if (← get).cursor.depth < maxNesting then
    modify Session.enter
  else
    fail .nestingTooDeep

/-- Run a recording and count one payload or operation less as open, whatever
it has answered. -/
def leaving {α : Type} (body : Recording α) : Recording α := OptionT.mk do
  let answer ← body.run
  modify Session.leave
  return answer

/-- Read a payload or an operation that counts as open meanwhile. -/
def nested {α : Type} (body : Recording α) : Recording α := do
  enter
  leaving body

/-- The recordings of payloads and operations, with the recursion going no
deeper than the fuel. -/
def within (dialect : Dialect) : (fuel : Nat) → Parts
  | 0 => { value := endless, operation := endless }
  | fuel + 1 =>
      let parts := within dialect fuel
      { value := nested (parts.openValue dialect)
        operation := nested (parts.openOperation dialect) }

/-- Read a payload. -/
def payload (dialect : Dialect) (fuel : Nat) : Recording Value :=
  (within dialect fuel).value

/-- Read an operation. -/
def operation (dialect : Dialect) (fuel : Nat) : Recording Operation :=
  (within dialect fuel).operation

/-- Read a statement, which gives a name to a value. -/
def statement (dialect : Dialect) (fuel : Nat) :
    Recording (String × Value) := do
  if ← nextIfWord "value" then
    let name ← identifier "value name"
    let value ← payload dialect fuel
    return (name, value)
  else
    fail (.expectedStatement (← get).cursor.peek)

/-- Reading statements up to the end leads from a session to another, with
some entries and a number of statements that have failed. -/
inductive Program (dialect : Dialect) (fuel : Nat) :
    Session → List (String × Value) → Nat → Session → Prop where
  | finish {session} (ended : session.cursor.atEnd = true) :
      Program dialect fuel session [] 0 session
  | read {session entry next entries failed last}
      (more : session.cursor.atEnd = false)
      (answer : statement dialect fuel session = some (some entry, next))
      (later : Program dialect fuel next entries failed last) :
      Program dialect fuel session (entry :: entries) failed last
  | recover {session next entries failed last}
      (more : session.cursor.atEnd = false)
      (failure : statement dialect fuel session = some (none, next))
      (later : Program dialect fuel (next.moveTo next.cursor.recover) entries
        failed last) :
      Program dialect fuel session entries (failed + 1) last

/-- The error that a text which is no payload is answered with if none was
recorded. -/
def invalidValue (text : String) : HostError where
  failure := .parse "invalid value" text

/-- Read a text that is one payload, the first recorded error counting. -/
def text (dialect : Dialect) (fuel : Nat) (text : String) :
    Option (Except HostError Value) :=
  (payload dialect fuel (.ofText text)).map fun (answer, session) =>
    match session.errors.head?, answer with
    | some failure, _ => .error failure.toHostError
    | none, some value =>
        if session.cursor.atEnd then
          .ok value
        else
          .error { failure := .parse "trailing input after value" text }
    | none, none => .error (invalidValue text)

end Recording
end Source
end StackAssembly
