import StackAssembly.Text.CharacterCode
import StackAssembly.Text.Identifier
import StackAssembly.Value.Display
import StackAssembly.Value.Keyed

/-!
# Conversions between kinds

A value can be cast to its own kind, and a callable one to an operation.
Beyond that only the conversions listed here exist.
-/

namespace StackAssembly

/-- The operations of a list of values that are all callable. -/
def callables? (values : List Value) : Option (List Operation) :=
  values.mapM Value.callable?

/-- The pairs of a list of values that are all tuples of two. -/
def pairs? (values : List Value) : Option (List (Value × Value)) :=
  values.mapM Value.pair?

/-- Convert a value into one of another kind. -/
def Value.convert? (value : Value) (kind : ValueKind) : Option Value :=
  match value, kind with
  | .boolean truth, .string => some (.string (displayBoolean truth))
  | .character code, .string =>
      (Text.scalar? code).map fun character =>
        .string (String.singleton character)
  | .atom name, .string => some (.string name)
  | .string text, .atom =>
      if Text.isIdentifier text then some (.atom text) else none
  | .number word, .character =>
      if word.toNat < UInt32.size then some (.character word.toUInt32) else none
  | .tuple items, .block =>
      (callables? items).map fun operations =>
        .operation (.block [] operations)
  | .tuple items, .table =>
      (pairs? items).map fun pairs => .table (Entries.ofPairs pairs)
  | .table entries, .tuple =>
      some (.tuple (entries.map fun entry => .pair entry.1 entry.2))
  | _, _ => none

/-- Cast a value to a kind. -/
def Value.cast? (value : Value) (kind : ValueKind) : Option Value :=
  if value.kind = kind ∨ (kind = .operation ∧ value.isCallable) then
    some value
  else
    value.convert? kind

end StackAssembly
