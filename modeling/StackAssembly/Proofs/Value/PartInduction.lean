import StackAssembly.Value.Basic

/-!
# Induction over parts

Values and operations contain one another, so what holds of all values is shown
together with what holds of all operations.  The cases of such an induction are
collected in one structure: those of values and operations without parts, and
one for each way of holding parts, with what holds of the parts at hand.
-/

namespace StackAssembly

/-- Whether a value has no parts. -/
def Value.isPlain : Value → Bool
  | .tuple _ | .table _ | .set _ | .operation _ => false
  | _ => true

/-- Whether an operation has no parts. -/
def Operation.isPlain : Operation → Bool
  | .primitive _ | .named _ _ | .loadNative _ | .native _ _ => true
  | _ => false

/-- The cases of an induction over values and operations. -/
structure PartCases (ofValue : Value → Prop) (ofOperation : Operation → Prop) :
    Prop where
  /-- A value has no parts. -/
  plainValue : ∀ value, value.isPlain = true → ofValue value
  /-- A tuple holds items. -/
  tuple : ∀ items, (∀ item ∈ items, ofValue item) → ofValue (.tuple items)
  /-- A table holds keys and values. -/
  table : ∀ entries,
    (∀ entry ∈ entries, ofValue entry.1 ∧ ofValue entry.2) →
      ofValue (.table entries)
  /-- A set holds members. -/
  set : ∀ members, (∀ member ∈ members, ofValue member) →
    ofValue (.set members)
  /-- A value is an operation. -/
  operation : ∀ body, ofOperation body → ofValue (.operation body)
  /-- An operation has no parts. -/
  plainOperation : ∀ operation, operation.isPlain = true →
    ofOperation operation
  /-- A value is pushed. -/
  push : ∀ value, ofValue value → ofOperation (.push value)
  /-- An operation is guarded. -/
  ifTrue : ∀ body, ofOperation body → ofOperation (.ifTrue body)
  /-- A case is selected. -/
  select : ∀ cases otherwise,
    (∀ entry ∈ cases, ofValue entry.1 ∧ ofValue entry.2) →
      (∀ operation ∈ otherwise, ofOperation operation) →
        ofOperation (.select cases otherwise)
  /-- Arguments are passed. -/
  call : ∀ target arguments, (∀ argument ∈ arguments, ofValue argument) →
    ofOperation (.call target arguments)
  /-- A block holds operations. -/
  block : ∀ slots operations,
    (∀ operation ∈ operations, ofOperation operation) →
      ofOperation (.block slots operations)
  /-- A value is bound. -/
  partialBind : ∀ value callable, ofValue value → ofOperation callable →
    ofOperation (.partialBind value callable)

namespace PartCases

variable {ofValue : Value → Prop} {ofOperation : Operation → Prop}

mutual

/-- What the cases show of every value. -/
theorem value (cases : PartCases ofValue ofOperation) :
    (value : Value) → ofValue value
  | .tuple items => cases.tuple items (cases.items items)
  | .table entries => cases.table entries (cases.entries entries)
  | .set members => cases.set members (cases.items members)
  | .operation body => cases.operation body (cases.ofBody body)
  | .empty => cases.plainValue _ rfl
  | .number _ => cases.plainValue _ rfl
  | .boolean _ => cases.plainValue _ rfl
  | .character _ => cases.plainValue _ rfl
  | .string _ => cases.plainValue _ rfl
  | .atom _ => cases.plainValue _ rfl
  | .error _ => cases.plainValue _ rfl
  | .type _ => cases.plainValue _ rfl
  termination_by structural value => value

theorem items (cases : PartCases ofValue ofOperation) :
    (items : List Value) → ∀ item ∈ items, ofValue item
  | [] => List.forall_mem_nil _
  | value :: values =>
      List.forall_mem_cons.mpr ⟨cases.value value, cases.items values⟩
  termination_by structural items => items

theorem entries (cases : PartCases ofValue ofOperation) :
    (entries : List (Value × Value)) →
      ∀ entry ∈ entries, ofValue entry.1 ∧ ofValue entry.2
  | [] => List.forall_mem_nil _
  | (key, value) :: entries =>
      List.forall_mem_cons.mpr
        ⟨⟨cases.value key, cases.value value⟩, cases.entries entries⟩
  termination_by structural entries => entries

/-- What the cases show of every operation. -/
theorem ofBody (cases : PartCases ofValue ofOperation) :
    (operation : Operation) → ofOperation operation
  | .push value => cases.push value (cases.value value)
  | .ifTrue body => cases.ifTrue body (cases.ofBody body)
  | .select table otherwise =>
      cases.select table otherwise (cases.entries table)
        (cases.alternative otherwise)
  | .call target arguments =>
      cases.call target arguments (cases.items arguments)
  | .block slots operations =>
      cases.block slots operations (cases.operations operations)
  | .partialBind value callable =>
      cases.partialBind value callable (cases.value value)
        (cases.ofBody callable)
  | .primitive _ => cases.plainOperation _ rfl
  | .named _ _ => cases.plainOperation _ rfl
  | .loadNative _ => cases.plainOperation _ rfl
  | .native _ _ => cases.plainOperation _ rfl
  termination_by structural operation => operation

theorem alternative (cases : PartCases ofValue ofOperation) :
    (otherwise : Option Operation) →
      ∀ operation ∈ otherwise, ofOperation operation
  | none => nofun
  | some operation => fun _ same =>
      Option.mem_some.mp same ▸ cases.ofBody operation
  termination_by structural otherwise => otherwise

theorem operations (cases : PartCases ofValue ofOperation) :
    (operations : List Operation) →
      ∀ operation ∈ operations, ofOperation operation
  | [] => List.forall_mem_nil _
  | operation :: operations =>
      List.forall_mem_cons.mpr
        ⟨cases.ofBody operation, cases.operations operations⟩
  termination_by structural operations => operations

end

end PartCases
end StackAssembly
