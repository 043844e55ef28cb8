import StackAssembly.Value.Basic

/-!
# The parts of values and operations

Values and operations are trees, whose parts are again values and operations.
A condition holds *throughout* a tree if it holds of the tree and of all its
parts.  The *nesting* of a tree is the greatest number of values and
operations on a path from its root: a value that holds an operation counts
beside the operation it holds.
-/

namespace StackAssembly

/-- A condition on values together with one on operations. -/
structure PartCondition where
  /-- The condition on a value, leaving its parts aside. -/
  onValue : Value → Prop
  /-- The condition on an operation, leaving its parts aside. -/
  onOperation : Operation → Prop

mutual

/-- Whether a condition holds of a value and of all its parts. -/
def Value.Throughout (condition : PartCondition) : Value → Prop
  | .tuple items =>
      condition.onValue (.tuple items) ∧ itemsThroughout condition items
  | .table entries =>
      condition.onValue (.table entries) ∧
        entriesThroughout condition entries
  | .set members =>
      condition.onValue (.set members) ∧ itemsThroughout condition members
  | .operation body =>
      condition.onValue (.operation body) ∧ body.Throughout condition
  | value => condition.onValue value
  termination_by structural value => value

/-- Whether a condition holds throughout every value of a sequence. -/
def itemsThroughout (condition : PartCondition) : List Value → Prop
  | [] => True
  | value :: values =>
      value.Throughout condition ∧ itemsThroughout condition values
  termination_by structural values => values

/-- Whether a condition holds throughout every key and value of a sequence of
entries. -/
def entriesThroughout (condition : PartCondition) :
    List (Value × Value) → Prop
  | [] => True
  | (key, value) :: entries =>
      (key.Throughout condition ∧ value.Throughout condition) ∧
        entriesThroughout condition entries
  termination_by structural entries => entries

/-- Whether a condition holds of an operation and of all its parts. -/
def Operation.Throughout (condition : PartCondition) : Operation → Prop
  | .push value =>
      condition.onOperation (.push value) ∧ value.Throughout condition
  | .ifTrue body =>
      condition.onOperation (.ifTrue body) ∧ body.Throughout condition
  | .select cases otherwise =>
      condition.onOperation (.select cases otherwise) ∧
        entriesThroughout condition cases ∧
        alternativeThroughout condition otherwise
  | .call target arguments =>
      condition.onOperation (.call target arguments) ∧
        itemsThroughout condition arguments
  | .block slots operations =>
      condition.onOperation (.block slots operations) ∧
        operationsThroughout condition operations
  | .partialBind value callable =>
      condition.onOperation (.partialBind value callable) ∧
        value.Throughout condition ∧ callable.Throughout condition
  | operation => condition.onOperation operation
  termination_by structural operation => operation

/-- Whether a condition holds throughout an operation that may be absent. -/
def alternativeThroughout (condition : PartCondition) :
    Option Operation → Prop
  | none => True
  | some operation => operation.Throughout condition
  termination_by structural operation => operation

/-- Whether a condition holds throughout every operation of a sequence. -/
def operationsThroughout (condition : PartCondition) :
    List Operation → Prop
  | [] => True
  | operation :: operations =>
      operation.Throughout condition ∧
        operationsThroughout condition operations
  termination_by structural operations => operations

end

mutual

/-- The greatest number of values and operations on a path through a value. -/
def Value.nesting : Value → Nat
  | .tuple items => itemsNesting items + 1
  | .table entries => entriesNesting entries + 1
  | .set members => itemsNesting members + 1
  | .operation body => body.nesting + 1
  | _ => 1
  termination_by structural value => value

/-- The greatest nesting among a sequence of values. -/
def itemsNesting : List Value → Nat
  | [] => 0
  | value :: values => max value.nesting (itemsNesting values)
  termination_by structural values => values

/-- The greatest nesting among the keys and values of entries. -/
def entriesNesting : List (Value × Value) → Nat
  | [] => 0
  | (key, value) :: entries =>
      max (max key.nesting value.nesting) (entriesNesting entries)
  termination_by structural entries => entries

/-- The greatest number of values and operations on a path through an
operation. -/
def Operation.nesting : Operation → Nat
  | .push value => value.nesting + 1
  | .ifTrue body => body.nesting + 1
  | .select cases otherwise =>
      max (entriesNesting cases) (alternativeNesting otherwise) + 1
  | .call _ arguments => itemsNesting arguments + 1
  | .block _ operations => operationsNesting operations + 1
  | .partialBind value callable => max value.nesting callable.nesting + 1
  | _ => 1
  termination_by structural operation => operation

/-- The nesting of an operation that may be absent. -/
def alternativeNesting : Option Operation → Nat
  | none => 0
  | some operation => operation.nesting
  termination_by structural operation => operation

/-- The greatest nesting among a sequence of operations. -/
def operationsNesting : List Operation → Nat
  | [] => 0
  | operation :: operations =>
      max operation.nesting (operationsNesting operations)
  termination_by structural operations => operations

end

section Throughout

variable {condition : PartCondition}

@[simp]
theorem itemsThroughout_iff {values : List Value} :
    itemsThroughout condition values ↔
      ∀ value ∈ values, value.Throughout condition := by
  induction values with
  | nil => simp [itemsThroughout]
  | cons value values ih => simp [itemsThroughout, ih]

@[simp]
theorem entriesThroughout_iff {entries : List (Value × Value)} :
    entriesThroughout condition entries ↔
      ∀ entry ∈ entries,
        entry.1.Throughout condition ∧ entry.2.Throughout condition := by
  induction entries with
  | nil => simp [entriesThroughout]
  | cons entry entries ih =>
      obtain ⟨key, value⟩ := entry
      rw [entriesThroughout, ih, List.forall_mem_cons]

@[simp]
theorem operationsThroughout_iff {operations : List Operation} :
    operationsThroughout condition operations ↔
      ∀ operation ∈ operations, operation.Throughout condition := by
  induction operations with
  | nil => simp [operationsThroughout]
  | cons operation operations ih => simp [operationsThroughout, ih]

end Throughout

/-- Whether a condition follows from two others, of every tree by itself. -/
structure PartCondition.Follows (first second both : PartCondition) :
    Prop where
  onValue : ∀ value, first.onValue value → second.onValue value →
    both.onValue value
  onOperation : ∀ operation, first.onOperation operation →
    second.onOperation operation → both.onOperation operation

section Combine

variable {first second both : PartCondition}

mutual

/-- Two conditions that hold throughout a value establish whatever follows
from them part by part. -/
theorem Value.Throughout.combine
    (follows : PartCondition.Follows first second both) :
    (value : Value) →
    value.Throughout first → value.Throughout second →
      value.Throughout both
  | .tuple items, one, other =>
      ⟨follows.onValue _ one.1 other.1,
        itemsThroughout.combine follows items one.2 other.2⟩
  | .table entries, one, other =>
      ⟨follows.onValue _ one.1 other.1,
        entriesThroughout.combine follows entries one.2 other.2⟩
  | .set members, one, other =>
      ⟨follows.onValue _ one.1 other.1,
        itemsThroughout.combine follows members one.2 other.2⟩
  | .operation body, one, other =>
      ⟨follows.onValue _ one.1 other.1,
        Operation.Throughout.combine follows body one.2 other.2⟩
  | .empty, one, other => follows.onValue _ one other
  | .number _, one, other => follows.onValue _ one other
  | .boolean _, one, other => follows.onValue _ one other
  | .character _, one, other => follows.onValue _ one other
  | .string _, one, other => follows.onValue _ one other
  | .atom _, one, other => follows.onValue _ one other
  | .error _, one, other => follows.onValue _ one other
  | .type _, one, other => follows.onValue _ one other
  termination_by structural value => value

theorem itemsThroughout.combine
    (follows : PartCondition.Follows first second both) :
    (values : List Value) →
    itemsThroughout first values → itemsThroughout second values →
      itemsThroughout both values
  | [], _, _ => trivial
  | value :: values, one, other =>
      ⟨Value.Throughout.combine follows value one.1 other.1,
        itemsThroughout.combine follows values one.2 other.2⟩
  termination_by structural values => values

theorem entriesThroughout.combine
    (follows : PartCondition.Follows first second both) :
    (entries : List (Value × Value)) →
    entriesThroughout first entries → entriesThroughout second entries →
      entriesThroughout both entries
  | [], _, _ => trivial
  | (key, value) :: entries, one, other =>
      ⟨⟨Value.Throughout.combine follows key one.1.1 other.1.1,
          Value.Throughout.combine follows value one.1.2 other.1.2⟩,
        entriesThroughout.combine follows entries one.2 other.2⟩
  termination_by structural entries => entries

theorem Operation.Throughout.combine
    (follows : PartCondition.Follows first second both) :
    (operation : Operation) →
    operation.Throughout first → operation.Throughout second →
      operation.Throughout both
  | .push value, one, other =>
      ⟨follows.onOperation _ one.1 other.1,
        Value.Throughout.combine follows value one.2 other.2⟩
  | .ifTrue body, one, other =>
      ⟨follows.onOperation _ one.1 other.1,
        Operation.Throughout.combine follows body one.2 other.2⟩
  | .select cases otherwise, one, other =>
      ⟨follows.onOperation _ one.1 other.1,
        entriesThroughout.combine follows cases one.2.1 other.2.1,
        alternativeThroughout.combine follows otherwise one.2.2 other.2.2⟩
  | .call _ arguments, one, other =>
      ⟨follows.onOperation _ one.1 other.1,
        itemsThroughout.combine follows arguments one.2 other.2⟩
  | .block _ operations, one, other =>
      ⟨follows.onOperation _ one.1 other.1,
        operationsThroughout.combine follows operations one.2 other.2⟩
  | .partialBind value callable, one, other =>
      ⟨follows.onOperation _ one.1 other.1,
        Value.Throughout.combine follows value one.2.1 other.2.1,
        Operation.Throughout.combine follows callable one.2.2 other.2.2⟩
  | .primitive _, one, other => follows.onOperation _ one other
  | .named _ _, one, other => follows.onOperation _ one other
  | .loadNative _, one, other => follows.onOperation _ one other
  | .native _ _, one, other => follows.onOperation _ one other
  termination_by structural operation => operation

theorem alternativeThroughout.combine
    (follows : PartCondition.Follows first second both) :
    (otherwise : Option Operation) →
    alternativeThroughout first otherwise →
      alternativeThroughout second otherwise →
        alternativeThroughout both otherwise
  | none, _, _ => trivial
  | some operation, one, other =>
      Operation.Throughout.combine follows operation one other
  termination_by structural otherwise => otherwise

theorem operationsThroughout.combine
    (follows : PartCondition.Follows first second both) :
    (operations : List Operation) →
    operationsThroughout first operations →
      operationsThroughout second operations →
        operationsThroughout both operations
  | [], _, _ => trivial
  | operation :: operations, one, other =>
      ⟨Operation.Throughout.combine follows operation one.1 other.1,
        operationsThroughout.combine follows operations one.2 other.2⟩
  termination_by structural operations => operations

end

end Combine

@[simp]
theorem itemsNesting_le_iff {values : List Value} {bound : Nat} :
    itemsNesting values ≤ bound ↔ ∀ value ∈ values, value.nesting ≤ bound := by
  induction values with
  | nil => simp [itemsNesting]
  | cons value values ih =>
      rw [itemsNesting, Nat.max_le, ih, List.forall_mem_cons]

@[simp]
theorem entriesNesting_le_iff {entries : List (Value × Value)}
    {bound : Nat} :
    entriesNesting entries ≤ bound ↔
      ∀ entry ∈ entries,
        entry.1.nesting ≤ bound ∧ entry.2.nesting ≤ bound := by
  induction entries with
  | nil => simp [entriesNesting]
  | cons entry entries ih =>
      obtain ⟨key, value⟩ := entry
      rw [entriesNesting, Nat.max_le, Nat.max_le, ih, List.forall_mem_cons]

@[simp]
theorem operationsNesting_le_iff {operations : List Operation}
    {bound : Nat} :
    operationsNesting operations ≤ bound ↔
      ∀ operation ∈ operations, operation.nesting ≤ bound := by
  induction operations with
  | nil => simp [operationsNesting]
  | cons operation operations ih =>
      rw [operationsNesting, Nat.max_le, ih, List.forall_mem_cons]

theorem Value.nesting_pos (value : Value) : 0 < value.nesting := by
  cases value <;> simp [Value.nesting]

theorem Operation.nesting_pos (operation : Operation) :
    0 < operation.nesting := by
  cases operation <;> simp [Operation.nesting]

end StackAssembly
