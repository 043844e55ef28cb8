import StackAssembly.Dialect
import StackAssembly.Nesting
import StackAssembly.Source.Parser
import StackAssembly.Value.Keyed

/-!
# The grammar of values and operations

A payload is a keyword for the kind of a value and what the kind requires, and
an operation is a keyword and what its kind requires; the dialect tells the
form of what follows.  Payloads and operations hold further ones, and no more
than `maxNesting` of them may be open at once.  The parsers of the parts are
built level by level, the number of levels being what the open payloads and
operations leave.
-/

namespace StackAssembly
namespace Source

namespace Parser

/-- Read the slot names of a block, if there are any. -/
def slots : Parser (List String) := do
  if ← nextIfWord "slots" then
    names "slot name" ((← get).rest.length + 1)
  else
    return []

/-- Pass over one separator of operations, if there is one. -/
def separator : Parser Unit := do
  if ← nextIf .comma then
    return ()
  else
    discard (nextIf .semicolon)

/-- Read a truth value. -/
def boolean : Parser Bool := do
  if ← nextIfWord "true" then
    return true
  else if ← nextIfWord "false" then
    return false
  else
    fail .expectedBoolean

/-- Read a character, given by itself or by its code. -/
def character : Parser UInt32 := do
  match (← get).peek with
  | .character code =>
      advance
      return code
  | .integer word =>
      advance
      if word.toNat < UInt32.size then
        return word.toUInt32
      else
        fail (.characterTooLarge word)
  | _ => fail .expectedCharacter

/-- Read the word of an error code. -/
def errorCode : Parser ErrorCode := do
  let word ← identifier "error code"
  match ErrorCode.ofToken? word with
  | some code => return code
  | none => fail (.unknownErrorCode word)

/-- Read the keyword of a kind of values. -/
def valueKind : Parser ValueKind := do
  let word ← identifier "type name"
  match ValueKind.ofKeyword? word with
  | some kind => return kind
  | none => fail (.unknownKind word)

end Parser

/-- The parsers for the parts of a payload. -/
structure PartParsers where
  /-- The parser of a nested payload. -/
  value : Parser Value
  /-- The parser of a nested operation. -/
  operation : Parser Operation

namespace PartParsers

/-- Read the items of a tuple. -/
def tupleBody (parts : PartParsers) : Parser (List Value) :=
  Parser.list .openParen .closeParen parts.value

/-- Read a key, an arrow and a value. -/
def entry (parts : PartParsers) : Parser (Value × Value) := do
  let key ← parts.value
  Parser.expect .arrow
  let value ← parts.value
  return (key, value)

/-- Read the entries of a table, of which the first for a key counts. -/
def tableBody (parts : PartParsers) : Parser Entries := do
  return Entries.ofPairs
    (← Parser.list .openBracket .closeBracket parts.entry)

/-- Read the members of a set. -/
def setBody (parts : PartParsers) : Parser Members := do
  return Members.ofValues
    (← Parser.list .openBracket .closeBracket parts.value)

/-- Read the operations of a block and its closing brace.  Every operation
takes a token, so the fuel lasts if it exceeds their number. -/
def operations (parts : PartParsers) : (fuel : Nat) → Parser (List Operation)
  | 0 => return []
  | fuel + 1 => do
      if ← Parser.nextIf .closeBrace then
        return []
      if (← get).atEnd then
        Parser.fail .unterminatedBlock
      let first ← parts.operation
      Parser.separator
      return first :: (← operations parts fuel)

/-- Read the slots and operations of a block. -/
def blockBody (parts : PartParsers) : Parser Operation := do
  let names ← Parser.slots
  Parser.expect .openBrace
  let body ← operations parts ((← get).rest.length + 1)
  return .block names body

/-- Read a value and the callable value that is to receive it. -/
def binding (parts : PartParsers) : Parser Operation := do
  let value ← parts.value
  let target ← parts.value
  match target.callable? with
  | some callable => return .partialBind value callable
  | none => Parser.fail (.notCallable target.kind)

/-- Read what follows the keyword of a value written in the given form. -/
def valueBody (parts : PartParsers) : ValueKind → Parser Value
  | .empty => return .empty
  | .number => do return .number (← Parser.integer)
  | .boolean => do return .boolean (← Parser.boolean)
  | .character => do return .character (← Parser.character)
  | .string => do return .string (← Parser.string)
  | .atom => do return .atom (← Parser.identifier "atom name")
  | .error => do return .error (← Parser.errorCode)
  | .type => do return .type (← Parser.valueKind)
  | .tuple => do return .tuple (← parts.tupleBody)
  | .table => do return .table (← parts.tableBody)
  | .set => do return .set (← parts.setBody)
  | .operation => do return .operation (← parts.operation)
  | .block => do return .operation (← parts.blockBody)
  | .bind => do return .operation (← parts.binding)

/-- Read the arguments of a call, if there are any. -/
def arguments (parts : PartParsers) : Parser (List Value) := do
  if (← get).peek = .openParen then
    parts.tupleBody
  else
    return []

/-- Read the operation that a selection falls back to, if there is one. -/
def alternative (parts : PartParsers) : Parser (Option Operation) := do
  if ← Parser.nextIfWord "else" then
    return some (← parts.operation)
  else
    return none

/-- Read what follows the keyword of an operation of the given kind, written
in the given form. -/
def operationBody (parts : PartParsers) (kind : OperationKind) :
    (form : OperationKind) → Parser Operation
  | .primitive _ =>
      match Operation.ofKind? kind with
      | some operation => return operation
      | none => Parser.fail (.missingPayload kind)
  | .push => do return .push (← parts.value)
  | .ifTrue => do return .ifTrue (← parts.operation)
  | .select => do
      let cases ← parts.tableBody
      let otherwise ← parts.alternative
      return .select cases otherwise
  | .named _ => do
      let name ← Parser.identifier "name"
      match kind with
      | .named use => return .named use name
      | _ => Parser.fail (.unexpectedName kind)
  | .call => do
      let target ← Parser.identifier "call target"
      let values ← parts.arguments
      return .call target values
  | .loadNative => do return .loadNative (← Parser.string)
  | .native => do
      let bucket ← Parser.identifier "native bucket"
      let name ← Parser.identifier "native operation"
      return .native bucket name
  | .block => parts.blockBody
  | .partialBind => do
      let value ← parts.value
      let callable ← parts.operation
      return .partialBind value callable

/-- Read a payload whose parts are read as given. -/
def openValue (dialect : Dialect) (parts : PartParsers) : Parser Value := do
  let keyword ← Parser.identifier "value type"
  match dialect.valueFormOfKeyword? keyword with
  | some form => parts.valueBody form
  | none => Parser.fail (.unknownValueKind keyword)

/-- Read an operation whose parts are read as given. -/
def openOperation (dialect : Dialect) (parts : PartParsers) :
    Parser Operation := do
  let keyword ← Parser.identifier "operation"
  match dialect.operationFormOfKeyword? keyword with
  | some (kind, form) => parts.operationBody kind form
  | none => Parser.fail (.unknownOperation keyword)

/-- The parsers of parts that may be nested `levels` deep. -/
def within (dialect : Dialect) : (levels : Nat) → PartParsers
  | 0 =>
      { value := Parser.fail .nestingTooDeep
        operation := Parser.fail .nestingTooDeep }
  | levels + 1 =>
      let parts := within dialect levels
      { value := parts.openValue dialect
        operation := parts.openOperation dialect }

end PartParsers

/-- Run a parser of parts with the levels of nesting that are left. -/
def withParts {α : Type} (dialect : Dialect)
    (parse : PartParsers → Parser α) : Parser α := do
  let cursor ← get
  parse (PartParsers.within dialect (maxNesting - cursor.depth))

/-- Read a payload: a value introduced by the keyword of its kind. -/
def parsePayload (dialect : Dialect) : Parser Value :=
  withParts dialect PartParsers.value

/-- Read an operation. -/
def parseOperation (dialect : Dialect) : Parser Operation :=
  withParts dialect PartParsers.operation

/-- Read a statement, which gives a name to a value. -/
def parseStatement (dialect : Dialect) : Parser (String × Value) := do
  if ← Parser.nextIfWord "value" then
    let name ← Parser.identifier "value name"
    let value ← parsePayload dialect
    return (name, value)
  else
    Parser.fail (.expectedStatement (← get).peek)

end Source
end StackAssembly
