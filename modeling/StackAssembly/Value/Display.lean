import StackAssembly.Text.CharacterCode
import StackAssembly.Text.Quoted
import StackAssembly.Value.Basic

/-!
# The display of values

A short text for a value or an operation, meant for messages and reports.  It
is not the textual grammar: it need not be readable back.
-/

namespace StackAssembly

/-- The display of a character code: the quoted character, or the code when it
is no scalar value. -/
def displayCharacter (code : UInt32) : String :=
  match Text.scalar? code with
  | some character => Text.quoted '\'' (String.singleton character)
  | none => "\\u" ++ Text.paddedUpperHex 4 code.toNat

/-- The display of a truth value. -/
def displayBoolean (truth : Bool) : String :=
  if truth then "true" else "false"

/-- The list of slot names that starts the display of a block. -/
def displaySlots (slots : List String) : String :=
  match slots with
  | [] => ""
  | _ => "slots " ++ String.intercalate ", " slots ++ " "

mutual

/-- The display of a value. -/
def Value.display : Value → String
  | .empty => "empty"
  | .number word => Text.decimal word.toNat
  | .boolean truth => displayBoolean truth
  | .character code => displayCharacter code
  | .string text => Text.quoted '"' text
  | .atom name => name
  | .error code => "error(" ++ code.token ++ ")"
  | .type kind => "type(" ++ kind.keyword ++ ")"
  | .tuple items => "(" ++ String.intercalate ", " (displayItems items) ++ ")"
  | .table entries =>
      "[" ++ String.intercalate ", " (displayEntries entries) ++ "]"
  | .set members =>
      "set[" ++ String.intercalate ", " (displayItems members) ++ "]"
  | .operation body => body.display
  termination_by structural value => value

/-- The displays of a list of values. -/
def displayItems : List Value → List String
  | [] => []
  | value :: values => value.display :: displayItems values
  termination_by structural values => values

/-- The displays of a list of entries. -/
def displayEntries : List (Value × Value) → List String
  | [] => []
  | (key, value) :: entries =>
      (key.display ++ " -> " ++ value.display) :: displayEntries entries
  termination_by structural entries => entries

/-- The display of an operation. -/
def Operation.display : Operation → String
  | .primitive which => which.keyword
  | .push value => "push " ++ value.display
  | .ifTrue body => "iftrue " ++ body.display
  | .select cases otherwise =>
      "select [" ++ String.intercalate ", " (displayEntries cases) ++ "]" ++
        displayAlternative otherwise
  | .named use name => use.keyword ++ " " ++ name
  | .call target arguments =>
      "call " ++ target ++
        " (" ++ String.intercalate ", " (displayItems arguments) ++ ")"
  | .loadNative path => "loadnative " ++ Text.quoted '"' path
  | .native bucket name => "native " ++ bucket ++ " " ++ name
  | .block slots operations =>
      "block " ++ displaySlots slots ++ "\x7b" ++
        String.intercalate ";" (displayOperations operations) ++ " \x7d"
  | .partialBind value callable =>
      "bind(" ++ value.display ++ ", " ++ callable.display ++ ")"
  termination_by structural operation => operation

/-- The display of the operation that a selection falls back to. -/
def displayAlternative : Option Operation → String
  | none => ""
  | some operation => " else " ++ operation.display
  termination_by structural operation => operation

/-- The displays of the operations of a block, each after a space. -/
def displayOperations : List Operation → List String
  | [] => []
  | operation :: operations =>
      (" " ++ operation.display) :: displayOperations operations
  termination_by structural operations => operations

end

end StackAssembly
