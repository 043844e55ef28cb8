import StackAssembly.Text.CharacterCode
import StackAssembly.Text.Numeral
import StackAssembly.Unicode.Printable
import StackAssembly.Value.Display

/-!
# Listings

The textual form of values, operations and programs in the grammar, so that
what is listed can be read back.
-/

namespace StackAssembly
namespace Source

/-- How blocks are laid out. -/
structure Layout where
  /-- The number of spaces by which each level is indented. -/
  indentWidth : Nat := 4
  /-- Whether each operation of a block stands on a line of its own. -/
  multiLine : Bool := false
  deriving DecidableEq

/-- The layout of a disassembled image. -/
def Layout.listing : Layout where
  multiLine := true

/-- The start of a line at a level of indentation. -/
def Layout.newline (layout : Layout) (level : Nat) : String :=
  String.ofList ('\n' :: List.replicate (level * layout.indentWidth) ' ')

/-- How a character of a string is written. -/
def listedStringCharacter (character : Char) : String :=
  if character = '"' then "\\\""
  else if character = '\\' then "\\\\"
  else if character = '\n' then "\\n"
  else if character = '\r' then "\\r"
  else if character = '\t' then "\\t"
  else if Unicode.isControl character then
    "\\u" ++ Text.paddedUpperHex 8 character.toNat
  else String.singleton character

/-- How a string is written. -/
def listedString (text : String) : String :=
  "\"" ++ String.join (text.toList.map listedStringCharacter) ++ "\""

/-- Whether a character can stand in a character literal as it is. -/
def isPlainCharacter (character : Char) : Bool :=
  decide ('!' ≤ character) && decide (character ≤ '~') &&
    character != '\'' && character != '\\'

/-- How a character code is written: as a literal if it is plain, else as a
number. -/
def listedCharacter (code : UInt32) : String :=
  match Text.scalar? code with
  | some character =>
      if isPlainCharacter character then
        "'" ++ String.singleton character ++ "'"
      else
        Text.decimal code.toNat
  | none => Text.decimal code.toNat

/-- The part of a block in front of its operations. -/
def listedBlockHead (slots : List String) : String :=
  "block " ++ displaySlots slots ++ "\x7b"

/-- The operations of a block and its closing brace. -/
def listedBlockBody (layout : Layout) (level : Nat)
    (operations : List String) : String :=
  match operations with
  | [] => " \x7d"
  | _ =>
      if layout.multiLine then
        String.join (operations.map (layout.newline (level + 1) ++ ·)) ++
          layout.newline level ++ "\x7d"
      else
        " " ++ String.intercalate "; " operations ++ " \x7d"

/-- The keyword that makes an operation a payload. -/
def payloadMark (asPayload : Bool) : String :=
  if asPayload then "operation " else ""

mutual

/-- A value as a payload, at a level of indentation. -/
def listedValue (layout : Layout) : (level : Nat) → Value → String
  | _, .empty => "empty"
  | _, .number word => "number " ++ Text.decimal word.toNat
  | _, .boolean truth => "boolean " ++ displayBoolean truth
  | _, .character code => "character " ++ listedCharacter code
  | _, .string text => "string " ++ listedString text
  | _, .atom name => "atom " ++ name
  | _, .error code => "error " ++ code.token
  | _, .type kind => "type " ++ kind.keyword
  | level, .tuple items =>
      "tuple (" ++ String.intercalate ", " (listedItems layout level items) ++
        ")"
  | level, .table entries =>
      "table [" ++
        String.intercalate ", " (listedEntries layout level entries) ++ "]"
  | level, .set members =>
      "set [" ++ String.intercalate ", " (listedItems layout level members) ++
        "]"
  | level, .operation body => listedOperation layout true level body
  termination_by structural _ value => value

/-- The payloads of a list of values. -/
def listedItems (layout : Layout) :
    (level : Nat) → List Value → List String
  | _, [] => []
  | level, value :: values =>
      listedValue layout level value :: listedItems layout level values
  termination_by structural _ values => values

/-- The entries of a table. -/
def listedEntries (layout : Layout) :
    (level : Nat) → List (Value × Value) → List String
  | _, [] => []
  | level, (key, value) :: entries =>
      (listedValue layout level key ++ " -> " ++
          listedValue layout level value) ::
        listedEntries layout level entries
  termination_by structural _ entries => entries

/-- An operation, either as a payload or as it stands in a block.  Partial
applications have a keyword of their own in either place. -/
def listedOperation (layout : Layout) (asPayload : Bool) :
    (level : Nat) → Operation → String
  | _, .primitive which => payloadMark asPayload ++ which.keyword
  | level, .push value =>
      payloadMark asPayload ++ "push " ++ listedValue layout level value
  | level, .ifTrue body =>
      payloadMark asPayload ++ "iftrue " ++
        listedOperation layout false level body
  | level, .select cases otherwise =>
      payloadMark asPayload ++ "select [" ++
        String.intercalate ", " (listedEntries layout level cases) ++ "]" ++
        listedAlternative layout level otherwise
  | _, .named use name =>
      payloadMark asPayload ++ use.keyword ++ " " ++ name
  | level, .call target arguments =>
      payloadMark asPayload ++ "call " ++ target ++ " (" ++
        String.intercalate ", " (listedItems layout level arguments) ++ ")"
  | _, .loadNative path =>
      payloadMark asPayload ++ "loadnative " ++ listedString path
  | _, .native bucket name =>
      payloadMark asPayload ++ "native " ++ bucket ++ " " ++ name
  | level, .block slots operations =>
      listedBlockHead slots ++
        listedBlockBody layout level
          (listedOperations layout (level + 1) operations)
  | level, .partialBind value callable =>
      (if asPayload then "bind " else "partial ") ++
        listedValue layout level value ++ " " ++
        listedOperation layout asPayload level callable
  termination_by structural _ operation => operation

/-- The operation that a selection falls back to. -/
def listedAlternative (layout : Layout) :
    (level : Nat) → Option Operation → String
  | _, none => ""
  | level, some operation =>
      " else " ++ listedOperation layout false level operation
  termination_by structural _ operation => operation

/-- The operations of a block. -/
def listedOperations (layout : Layout) :
    (level : Nat) → List Operation → List String
  | _, [] => []
  | level, operation :: operations =>
      listedOperation layout false level operation ::
        listedOperations layout level operations
  termination_by structural _ operations => operations

end

/-- The payload of a value. -/
def listValue (layout : Layout) (value : Value) : String :=
  listedValue layout 0 value

/-- The text of an operation. -/
def listOperation (layout : Layout) (operation : Operation) : String :=
  listedOperation layout false 0 operation

/-- A statement on a line of its own. -/
def listEntry (layout : Layout) (name : String) (value : Value) : String :=
  "value " ++ name ++ " " ++ listValue layout value ++ "\n"

/-- The statements of a program. -/
def listProgram (layout : Layout) (entries : List (String × Value)) :
    String :=
  String.join (entries.map fun entry => listEntry layout entry.1 entry.2)

end Source
end StackAssembly
