import StackAssembly.ErrorCode
import StackAssembly.OperationKind
import StackAssembly.Source.Token
import StackAssembly.ValueKind

/-!
# Errors in source texts
-/

namespace StackAssembly
namespace Source

/-- What is wrong with a source text. -/
inductive ParseDefect where
  | expected (what : String) (found : Lexeme)
  | expectedStatement (found : Lexeme)
  | unknownValueKind (word : String)
  | unknownOperation (word : String)
  | nestingTooDeep
  | expectedBoolean
  | expectedCharacter
  | characterTooLarge (word : UInt64)
  | unknownErrorCode (word : String)
  | unknownKind (word : String)
  | notCallable (kind : ValueKind)
  | unterminatedBlock
  | missingPayload (kind : OperationKind)
  | unexpectedName (kind : OperationKind)
  | other (message : String)
  deriving DecidableEq

/-- What stands in place of an expected lexeme: the defect of a malformed one
and the description of any other. -/
def Lexeme.unexpected : Lexeme → String
  | .malformed defect => defect.message
  | lexeme => lexeme.description

/-- The wording of a defect. -/
def ParseDefect.message : ParseDefect → String
  | .expected what found =>
      "expected " ++ what ++ ", found " ++ found.unexpected
  | .expectedStatement found =>
      "expected 'value', found " ++ found.description
  | .unknownValueKind word => "unknown value type '" ++ word ++ "'"
  | .unknownOperation word => "unknown operation '" ++ word ++ "'"
  | .nestingTooDeep => "nesting too deep"
  | .expectedBoolean => "expected 'true' or 'false'"
  | .expectedCharacter => "expected character literal or code"
  | .characterTooLarge word =>
      "character code " ++ Text.decimal word.toNat ++
        " does not fit in 32 bits"
  | .unknownErrorCode word => ErrorCode.unknownMessage word
  | .unknownKind word => "unknown type '" ++ word ++ "'"
  | .notCallable kind => "cannot bind to a non-callable " ++ kind.keyword
  | .unterminatedBlock => "unterminated block"
  | .missingPayload kind =>
      "operation " ++ kind.keyword ++ " needs a payload"
  | .unexpectedName kind => "operation " ++ kind.keyword ++ " takes no name"
  | .other message => message

/-- A defect at a place of a source text. -/
structure ParseError where
  /-- What is wrong. -/
  defect : ParseDefect
  /-- The lexemes read last before the defect was found. -/
  context : String
  /-- The place of the first lexeme that had not been read. -/
  position : Position
  deriving DecidableEq

namespace ParseError

/-- The place and the wording of an error. -/
def located (error : ParseError) : String :=
  error.position.display ++ ": " ++ error.defect.message

/-- How an error is shown. -/
def display (error : ParseError) : String :=
  error.located ++ " (after `" ++ error.context ++ "`)"

end ParseError
end Source
end StackAssembly
