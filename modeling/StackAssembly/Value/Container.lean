import StackAssembly.Text.CharacterCode
import StackAssembly.Value.Keyed

/-!
# Containers

Tuples, tables, sets and strings share two abilities: their elements can be
read by position and they can grow by one value.
-/

namespace StackAssembly

/-- A value that a container refused, with the reason. -/
structure Rejection where
  /-- The refused value. -/
  value : Value
  /-- Why the container cannot hold it. -/
  code : ErrorCode

namespace Value

/-- The elements of a container in order: a table has its entries as pairs and
a string its characters. -/
def elements? : Value → Option (List Value)
  | .tuple items => some items
  | .table entries => some (entries.map fun entry => pair entry.1 entry.2)
  | .set members => some members
  | .string text =>
      some (text.toList.map fun letter => .character (Text.code letter))
  | _ => none

/-- The number of elements of a container. -/
def size? (container : Value) : Option Nat :=
  container.elements?.map List.length

/-- The element of a container at a position. -/
def elementAt? (container : Value) (position : Nat) : Option Value :=
  container.elements?.bind fun elements => elements[position]?

/-- The empty container of the same kind. -/
def emptied? : Value → Option Value
  | .tuple _ => some (.tuple [])
  | .table _ => some (.table [])
  | .set _ => some (.set [])
  | .string _ => some (.string "")
  | _ => none

/-- Grow a container by one value.  A table takes pairs and a string takes
strings and scalar characters; nothing else can grow. -/
def append (container value : Value) : Except Rejection Value :=
  match container with
  | .tuple items => .ok (.tuple (items ++ [value]))
  | .table entries =>
      match value.pair? with
      | some (key, item) => .ok (.table (Entries.insert entries key item))
      | none => .error ⟨value, .typeMismatch⟩
  | .set members => .ok (.set (Members.insert members value))
  | .string text =>
      match value with
      | .string more => .ok (.string (text ++ more))
      | .character code =>
          match Text.scalar? code with
          | some letter => .ok (.string (text.push letter))
          | none => .error ⟨value, .typeMismatch⟩
      | _ => .error ⟨value, .typeMismatch⟩
  | _ => .error ⟨value, .typeMismatch⟩

end Value
end StackAssembly
