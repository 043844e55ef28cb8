import Mathlib.Order.MinMax
import StackAssembly.Proofs.Value.Parts

/-!
# Nesting in texts

The *text nesting* of a value is the greatest number of payloads and
operations that its listing has open at once.  A block or a partial
application that is a payload is opened by its own keyword.  Any other
operation that is a payload is opened by the keyword of payloads and then by
its own.  So no listing opens more than there are values and operations on a
path through the value, and what nests no deeper than allowed in an image does
so in a text.
-/

namespace StackAssembly

/-- The number of payloads and operations that an operation with a keyword of
its own opens. -/
def openedBy (asPayload : Bool) : Nat :=
  if asPayload then 2 else 1

mutual

/-- The greatest number of payloads and operations that are open at once in
the listing of a value. -/
def Value.textNesting : Value → Nat
  | .tuple items => itemsTextNesting items + 1
  | .table entries => entriesTextNesting entries + 1
  | .set members => itemsTextNesting members + 1
  | .operation body => body.textNesting true
  | _ => 1
  termination_by structural value => value

/-- The greatest text nesting among a sequence of values. -/
def itemsTextNesting : List Value → Nat
  | [] => 0
  | value :: values => max value.textNesting (itemsTextNesting values)
  termination_by structural values => values

/-- The greatest text nesting among the keys and values of entries. -/
def entriesTextNesting : List (Value × Value) → Nat
  | [] => 0
  | (key, value) :: entries =>
      max (max key.textNesting value.textNesting) (entriesTextNesting entries)
  termination_by structural entries => entries

/-- The greatest number of payloads and operations that are open at once in
the listing of an operation, either as a payload or as it stands in a
block. -/
def Operation.textNesting (asPayload : Bool) : Operation → Nat
  | .push value => value.textNesting + openedBy asPayload
  | .ifTrue body => body.textNesting false + openedBy asPayload
  | .select cases otherwise =>
      max (entriesTextNesting cases) (alternativeTextNesting otherwise) +
        openedBy asPayload
  | .call _ arguments => itemsTextNesting arguments + openedBy asPayload
  | .block _ operations => operationsTextNesting operations + 1
  | .partialBind value callable =>
      max value.textNesting (callable.textNesting asPayload) + 1
  | _ => openedBy asPayload
  termination_by structural operation => operation

/-- The text nesting of an operation that may be absent. -/
def alternativeTextNesting : Option Operation → Nat
  | none => 0
  | some operation => operation.textNesting false
  termination_by structural operation => operation

/-- The greatest text nesting among the operations of a block. -/
def operationsTextNesting : List Operation → Nat
  | [] => 0
  | operation :: operations =>
      max (operation.textNesting false) (operationsTextNesting operations)
  termination_by structural operations => operations

end

theorem openedBy_pos (asPayload : Bool) : 0 < openedBy asPayload := by
  cases asPayload <;> decide

mutual

/-- A listing nests no deeper than the value itself. -/
theorem Value.textNesting_le_nesting :
    (value : Value) → value.textNesting ≤ value.nesting
  | .tuple items => Nat.succ_le_succ (itemsTextNesting_le_nesting items)
  | .table entries =>
      Nat.succ_le_succ (entriesTextNesting_le_nesting entries)
  | .set members => Nat.succ_le_succ (itemsTextNesting_le_nesting members)
  | .operation body =>
      -- The payload opens two at once, the value and the operation.
      Nat.le_of_succ_le_succ (Operation.textNesting_lt true body)
  | .empty | .number _ | .boolean _ | .character _ | .string _ | .atom _
  | .error _ | .type _ => Nat.le_refl 1
  termination_by structural value => value

theorem itemsTextNesting_le_nesting :
    (values : List Value) → itemsTextNesting values ≤ itemsNesting values
  | [] => Nat.le_refl 0
  | value :: values =>
      max_le_max value.textNesting_le_nesting
        (itemsTextNesting_le_nesting values)
  termination_by structural values => values

theorem entriesTextNesting_le_nesting :
    (entries : List (Value × Value)) →
      entriesTextNesting entries ≤ entriesNesting entries
  | [] => Nat.le_refl 0
  | (key, value) :: entries =>
      max_le_max
        (max_le_max key.textNesting_le_nesting value.textNesting_le_nesting)
        (entriesTextNesting_le_nesting entries)
  termination_by structural entries => entries

/-- A listed operation nests no deeper than the operation itself, apart from
what its keywords open. -/
theorem Operation.textNesting_lt (asPayload : Bool) :
    (operation : Operation) →
      operation.textNesting asPayload < operation.nesting + openedBy asPayload
  | .push value => by
      have part := value.textNesting_le_nesting
      simp only [Operation.textNesting, Operation.nesting]
      omega
  | .ifTrue body => by
      have part := Operation.textNesting_lt false body
      have single : openedBy false = 1 := rfl
      simp only [Operation.textNesting, Operation.nesting]
      omega
  | .select cases otherwise => by
      have table := entriesTextNesting_le_nesting cases
      have fallback := alternativeTextNesting_le_nesting otherwise
      simp only [Operation.textNesting, Operation.nesting]
      omega
  | .call _ arguments => by
      have parts := itemsTextNesting_le_nesting arguments
      simp only [Operation.textNesting, Operation.nesting]
      omega
  | .block _ operations => by
      have parts := operationsTextNesting_le_nesting operations
      have opened := openedBy_pos asPayload
      simp only [Operation.textNesting, Operation.nesting]
      omega
  | .partialBind value callable => by
      have bound := value.textNesting_le_nesting
      have part := Operation.textNesting_lt asPayload callable
      have opened := openedBy_pos asPayload
      simp only [Operation.textNesting, Operation.nesting]
      omega
  | .primitive _ | .named _ _ | .loadNative _ | .native _ _ => by
      simp [Operation.textNesting, Operation.nesting]
  termination_by structural operation => operation

theorem alternativeTextNesting_le_nesting :
    (otherwise : Option Operation) →
      alternativeTextNesting otherwise ≤ alternativeNesting otherwise
  | none => Nat.le_refl 0
  | some operation =>
      Nat.le_of_lt_succ (Operation.textNesting_lt false operation)
  termination_by structural otherwise => otherwise

theorem operationsTextNesting_le_nesting :
    (operations : List Operation) →
      operationsTextNesting operations ≤ operationsNesting operations
  | [] => Nat.le_refl 0
  | operation :: operations =>
      max_le_max (Nat.le_of_lt_succ (Operation.textNesting_lt false operation))
        (operationsTextNesting_le_nesting operations)
  termination_by structural operations => operations

end

theorem Operation.textNesting_pos (asPayload : Bool)
    (operation : Operation) : 0 < operation.textNesting asPayload := by
  cases asPayload <;> cases operation <;>
    simp [Operation.textNesting, openedBy]

theorem Value.textNesting_pos (value : Value) : 0 < value.textNesting := by
  cases value with
  | operation body => exact body.textNesting_pos true
  | _ => simp [Value.textNesting]

end StackAssembly
