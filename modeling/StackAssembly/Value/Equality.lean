import StackAssembly.Value.Basic

/-!
# Equality of values

Two values are equal when they have the same shape and equal parts.  The order
of insertion does not matter: two tables are equal when they have equally many
entries and every key of the first has an equal value in the second, and two
sets are equal when they have equally many members and every member of the
first occurs in the second.
-/

namespace StackAssembly

mutual

/-- Whether two values are equal, whatever the order in which their tables and
sets were filled. -/
def Value.equal : Value → Value → Bool
  | .empty, .empty => true
  | .number left, .number right => left == right
  | .boolean left, .boolean right => left == right
  | .character left, .character right => left == right
  | .string left, .string right => left == right
  | .atom left, .atom right => left == right
  | .error left, .error right => left == right
  | .type left, .type right => left == right
  | .tuple left, .tuple right => itemsEqual left right
  | .table left, .table right =>
      left.length == right.length && entriesWithin left right
  | .set left, .set right =>
      left.length == right.length && membersWithin left right
  | .operation left, .operation right => left.equal right
  | _, _ => false
  termination_by structural value => value

/-- Whether two sequences of values are equal position by position. -/
def itemsEqual : List Value → List Value → Bool
  | [], [] => true
  | left :: lefts, right :: rights =>
      left.equal right && itemsEqual lefts rights
  | _, _ => false
  termination_by structural values => values

/-- Whether every value of the first list occurs in the second. -/
def membersWithin : List Value → List Value → Bool
  | [], _ => true
  | member :: members, others =>
      others.any (fun other => member.equal other) &&
        membersWithin members others
  termination_by structural values => values

/-- Whether every key of the first list has an equal value in the second. -/
def entriesWithin :
    List (Value × Value) → List (Value × Value) → Bool
  | [], _ => true
  | (key, value) :: entries, others =>
      (match others.find? (fun other => key.equal other.1) with
        | some other => value.equal other.2
        | none => false) &&
        entriesWithin entries others
  termination_by structural entries => entries

/-- Whether two operations are of one kind and have equal payloads. -/
def Operation.equal : Operation → Operation → Bool
  | .primitive left, .primitive right => left == right
  | .push left, .push right => left.equal right
  | .ifTrue left, .ifTrue right => left.equal right
  | .select leftCases leftElse, .select rightCases rightElse =>
      leftCases.length == rightCases.length &&
        entriesWithin leftCases rightCases &&
        alternativesEqual leftElse rightElse
  | .named leftUse leftName, .named rightUse rightName =>
      leftUse == rightUse && leftName == rightName
  | .call leftTarget leftArguments, .call rightTarget rightArguments =>
      leftTarget == rightTarget && itemsEqual leftArguments rightArguments
  | .loadNative left, .loadNative right => left == right
  | .native leftBucket leftName, .native rightBucket rightName =>
      leftBucket == rightBucket && leftName == rightName
  | .block leftSlots leftBody, .block rightSlots rightBody =>
      leftSlots == rightSlots && operationsEqual leftBody rightBody
  | .partialBind leftValue leftBody, .partialBind rightValue rightBody =>
      leftValue.equal rightValue && leftBody.equal rightBody
  | _, _ => false
  termination_by structural operation => operation

/-- Whether two optional operations are both absent or equal. -/
def alternativesEqual : Option Operation → Option Operation → Bool
  | none, none => true
  | some left, some right => left.equal right
  | _, _ => false
  termination_by structural operation => operation

/-- Whether two sequences of operations are equal position by position. -/
def operationsEqual : List Operation → List Operation → Bool
  | [], [] => true
  | left :: lefts, right :: rights =>
      left.equal right && operationsEqual lefts rights
  | _, _ => false
  termination_by structural operations => operations

end

instance : BEq Value := ⟨Value.equal⟩

instance : BEq Operation := ⟨Operation.equal⟩

end StackAssembly
