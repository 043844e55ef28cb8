import StackAssembly.Dialect
import StackAssembly.Image.ByteReader
import StackAssembly.Value.Keyed

/-!
# Reading values and operations from an image

A value is read by its marker and an operation by its tag; the dialect tells
the form of the payload.  Payloads hold further values and operations, and no
more than `maxNesting` of them may be open at once.  The readers of the parts
of a payload are built level by level, the number of levels being what the
open values and operations leave.
-/

namespace StackAssembly
namespace Image

/-- Read the error code that a byte stands for. -/
def Decoder.errorCode : Decoder ErrorCode := do
  let start ← Decoder.offset
  let byte ← Decoder.byte
  match ErrorCode.ofByte? byte with
  | some code => return code
  | none => Decoder.failAt start (.unknownErrorCode byte)

/-- Read the kind of values that a byte stands for. -/
def Decoder.valueKind : Decoder ValueKind := do
  let start ← Decoder.offset
  let byte ← Decoder.byte
  match ValueKind.ofCode? byte with
  | some kind => return kind
  | none => Decoder.failAt start (.unknownKindCode byte)

/-- Count the beginning of a value or an operation. -/
def Decoder.begin : Decoder Unit :=
  modify fun reader => { reader with reads := reader.reads + 1 }

/-- Refuse to read a part that would be nested too deep. -/
def Decoder.refuse {α : Type} : Decoder α := do
  Decoder.begin
  Decoder.fail .nestingTooDeep

/-- The readers for the parts of a payload. -/
structure PartDecoders where
  /-- The reader of a nested value. -/
  value : Decoder Value
  /-- The reader of a nested operation. -/
  operation : Decoder Operation

namespace PartDecoders

/-- Read the items of a tuple. -/
def tuplePayload (parts : PartDecoders) : Decoder (List Value) :=
  Decoder.counted parts.value

/-- Read a key and its value. -/
def entry (parts : PartDecoders) : Decoder (Value × Value) := do
  let key ← parts.value
  let value ← parts.value
  return (key, value)

/-- Read the entries of a table, of which the first for a key counts. -/
def tablePayload (parts : PartDecoders) : Decoder Entries := do
  return Entries.ofPairs (← Decoder.counted parts.entry)

/-- Read the members of a set. -/
def setPayload (parts : PartDecoders) : Decoder Members := do
  return Members.ofValues (← Decoder.counted parts.value)

/-- Read the slots and operations of a block. -/
def blockPayload (parts : PartDecoders) : Decoder Operation := do
  let slots ← Decoder.counted Decoder.name
  let operations ← Decoder.counted parts.operation
  return .block slots operations

/-- Read the operation to fall back to, after a flag for its presence. -/
def alternative (parts : PartDecoders) : Decoder (Option Operation) := do
  if ← Decoder.boolean then
    return some (← parts.operation)
  else
    return none

/-- Read the payload of a value written in the given form. -/
def valuePayload (parts : PartDecoders) : ValueKind → Decoder Value
  | .empty => return .empty
  | .number => do
      return .number (UInt64.ofNat (← Decoder.number numberWidth))
  | .boolean => do return .boolean (← Decoder.boolean)
  | .character => do
      return .character (UInt32.ofNat (← Decoder.number characterWidth))
  | .string => do return .string (← Decoder.data)
  | .atom => do return .atom (← Decoder.nameBody)
  | .error => do return .error (← Decoder.errorCode)
  | .type => do return .type (← Decoder.valueKind)
  | .tuple => do return .tuple (← parts.tuplePayload)
  | .table => do return .table (← parts.tablePayload)
  | .set => do return .set (← parts.setPayload)
  | .operation | .block | .bind => do return .operation (← parts.operation)

/-- Read the payload of an operation of the given kind, written in the given
form. -/
def operationPayload (parts : PartDecoders) (kind : OperationKind) :
    (form : OperationKind) → Decoder Operation
  | .primitive _ =>
      match Operation.ofKind? kind with
      | some operation => return operation
      | none => Decoder.fail (.missingPayload kind)
  | .push => do return .push (← parts.value)
  | .ifTrue => do return .ifTrue (← parts.operation)
  | .select => do
      let cases ← parts.tablePayload
      let otherwise ← parts.alternative
      return .select cases otherwise
  | .named _ => do
      let start ← Decoder.offset
      let name ← Decoder.name
      match kind with
      | .named use => return .named use name
      | _ => Decoder.failAt start (.unexpectedName kind)
  | .call => do
      let target ← Decoder.name
      let arguments ← parts.tuplePayload
      return .call target arguments
  | .loadNative => do return .loadNative (← Decoder.data)
  | .native => do
      let bucket ← Decoder.name
      let name ← Decoder.name
      return .native bucket name
  | .block => parts.blockPayload
  | .partialBind => do
      let value ← parts.value
      let callable ← parts.operation
      return .partialBind value callable

/-- Read a value whose parts are read as given. -/
def openValue (dialect : Dialect) (parts : PartDecoders) :
    Decoder Value := do
  Decoder.begin
  let start ← Decoder.offset
  let marker ← Decoder.byte
  match dialect.valueFormOfMarker? marker with
  | some form => parts.valuePayload form
  | none => Decoder.failAt start (.unknownMarker marker)

/-- Read an operation whose parts are read as given. -/
def openOperation (dialect : Dialect) (parts : PartDecoders) :
    Decoder Operation := do
  Decoder.begin
  let start ← Decoder.offset
  let tag ← Decoder.number tagWidth
  match dialect.operationFormOfTag? (UInt32.ofNat tag) with
  | some (kind, form) => parts.operationPayload kind form
  | none => Decoder.failAt start (.unknownTag tag)

/-- The readers of parts that may be nested `levels` deep. -/
def within (dialect : Dialect) : (levels : Nat) → PartDecoders
  | 0 => { value := Decoder.refuse, operation := Decoder.refuse }
  | levels + 1 =>
      let parts := within dialect levels
      { value := parts.openValue dialect
        operation := parts.openOperation dialect }

end PartDecoders

/-- Run a reader of parts with the levels of nesting that are left. -/
def withParts {α : Type} (dialect : Dialect)
    (read : PartDecoders → Decoder α) : Decoder α := do
  let reader ← get
  read (PartDecoders.within dialect (maxNesting - reader.depth))

/-- Read a value. -/
def decodeValue (dialect : Dialect) : Decoder Value :=
  withParts dialect PartDecoders.value

/-- Read an operation. -/
def decodeOperation (dialect : Dialect) : Decoder Operation :=
  withParts dialect PartDecoders.operation

/-- Read a name and a value.  A defect of the value is reported together with
the name. -/
def decodeEntry (dialect : Dialect) : Decoder (String × Value) := do
  let name ← Decoder.name
  fun reader =>
    match decodeValue dialect reader with
    | .ok value next => .ok (name, value) next
    | .error failure next => .error { failure with entry := some name } next

end Image
end StackAssembly
