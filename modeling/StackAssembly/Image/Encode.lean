import StackAssembly.Image.Field
import StackAssembly.Value.Basic

/-!
# The binary form of values and operations

A value is written as the marker of its kind and a payload.  An atom is the
exception: its name brings its own delimiters, the first of which is the
marker.  An operation is written as the tag of its kind and a payload.
-/

namespace StackAssembly

open Image

/-- The tag of a kind of operations. -/
def tagField (kind : OperationKind) : List UInt8 :=
  numberField tagWidth kind.tag.toNat

mutual

/-- The bytes of a value. -/
def Value.encode : Value → List UInt8
  | .empty => [0x45]
  | .number word => 0x23 :: numberField numberWidth word.toNat
  | .boolean truth => 0x3f :: booleanField truth
  | .character code => 0x63 :: numberField characterWidth code.toNat
  | .string text => 0x24 :: textField text
  | .atom name => nameField name
  | .error code => [0x40, code.toByte]
  | .type kind => [0x54, kind.code]
  | .tuple items =>
      0x28 :: (lengthField items.length ++ encodeItems items)
  | .table entries =>
      0x5b :: (lengthField entries.length ++ encodeEntries entries)
  | .set members =>
      0x55 :: (lengthField members.length ++ encodeItems members)
  | .operation body => 0x4f :: body.encode
  termination_by structural value => value

/-- The bytes of a sequence of values. -/
def encodeItems : List Value → List UInt8
  | [] => []
  | value :: values => value.encode ++ encodeItems values
  termination_by structural values => values

/-- The bytes of a sequence of entries. -/
def encodeEntries : List (Value × Value) → List UInt8
  | [] => []
  | (key, value) :: entries =>
      key.encode ++ (value.encode ++ encodeEntries entries)
  termination_by structural entries => entries

/-- The bytes of an operation. -/
def Operation.encode : Operation → List UInt8
  | .primitive which => tagField (.primitive which)
  | .push value => tagField .push ++ value.encode
  | .ifTrue body => tagField .ifTrue ++ body.encode
  | .select cases otherwise =>
      tagField .select ++
        (lengthField cases.length ++
          (encodeEntries cases ++ encodeAlternative otherwise))
  | .named use name => tagField (.named use) ++ nameField name
  | .call target arguments =>
      tagField .call ++
        (nameField target ++
          (lengthField arguments.length ++ encodeItems arguments))
  | .loadNative path => tagField .loadNative ++ textField path
  | .native bucket name =>
      tagField .native ++ (nameField bucket ++ nameField name)
  | .block slots operations =>
      tagField .block ++
        (lengthField slots.length ++
          (slots.flatMap nameField ++
            (lengthField operations.length ++ encodeOperations operations)))
  | .partialBind value callable =>
      tagField .partialBind ++ (value.encode ++ callable.encode)
  termination_by structural operation => operation

/-- The bytes of an optional operation, after a flag for its presence. -/
def encodeAlternative : Option Operation → List UInt8
  | none => booleanField false
  | some operation => booleanField true ++ operation.encode
  termination_by structural operation => operation

/-- The bytes of a sequence of operations. -/
def encodeOperations : List Operation → List UInt8
  | [] => []
  | operation :: operations =>
      operation.encode ++ encodeOperations operations
  termination_by structural operations => operations

end

/-- The bytes of a named value. -/
def encodeEntry (name : String) (value : Value) : List UInt8 :=
  nameField name ++ value.encode

end StackAssembly
