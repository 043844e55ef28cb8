import StackAssembly.Image.Field
import StackAssembly.Proofs.Value.Insertion
import StackAssembly.Proofs.Value.Parts

/-!
# Well-formed values and their names

A *well-formed* value or operation is one that a program can build: its tables
and sets hold no key and no member twice, and the length of everything in it
is expressed by a 64-bit word.  The *names* of a value or an operation are its
atoms and the names that its operations mention.
-/

namespace StackAssembly

/-- Whether a 64-bit word expresses a length. -/
def Countable (length : Nat) : Prop :=
  length < UInt64.size

instance (length : Nat) : Decidable (Countable length) :=
  inferInstanceAs (Decidable (length < UInt64.size))

/-- Whether a 64-bit word expresses the length of a text in bytes. -/
def CountableText (text : String) : Prop :=
  Countable (Image.textBytes text).length

instance (text : String) : Decidable (CountableText text) :=
  inferInstanceAs (Decidable (Countable _))

/-- The condition that the texts and the lengths among the parts have
properties, and that tables and sets repeat nothing. -/
def PartCondition.sized (written : String → Prop) (counted : Nat → Prop) :
    PartCondition where
  onValue
    | .string text => written text
    | .tuple items => counted items.length
    | .table entries => counted entries.length ∧ Entries.Distinct entries
    | .set members => counted members.length ∧ Members.Distinct members
    | _ => True
  onOperation
    | .select cases _ => counted cases.length ∧ Entries.Distinct cases
    | .call _ arguments => counted arguments.length
    | .loadNative path => written path
    | .block slots operations =>
        counted slots.length ∧ counted operations.length
    | _ => True

/-- The condition on the parts of what a program can build. -/
def PartCondition.wellFormed : PartCondition :=
  .sized CountableText Countable

/-- The condition that tables and sets among the parts repeat nothing. -/
def PartCondition.distinct : PartCondition where
  onValue
    | .table entries => Entries.Distinct entries
    | .set members => Members.Distinct members
    | _ => True
  onOperation
    | .select cases _ => Entries.Distinct cases
    | _ => True

/-- The condition that the names among the parts have a property. -/
def PartCondition.names (property : String → Prop) : PartCondition where
  onValue
    | .atom name => property name
    | _ => True
  onOperation
    | .named _ name => property name
    | .call target _ => property target
    | .native bucket name => property bucket ∧ property name
    | .block slots _ => ∀ slot ∈ slots, property slot
    | _ => True

/-- The condition that two conditions hold of every part. -/
def PartCondition.and (first second : PartCondition) : PartCondition where
  onValue value := first.onValue value ∧ second.onValue value
  onOperation operation :=
    first.onOperation operation ∧ second.onOperation operation

/-- Whether a program can build a value. -/
def Value.WellFormed (value : Value) : Prop :=
  value.Throughout .wellFormed

/-- Whether a program can build an operation. -/
def Operation.WellFormed (operation : Operation) : Prop :=
  operation.Throughout .wellFormed

/-- Whether the tables and sets in a value repeat nothing. -/
def Value.RepeatsNothing (value : Value) : Prop :=
  value.Throughout .distinct

/-- Whether the tables and sets in an operation repeat nothing. -/
def Operation.RepeatsNothing (operation : Operation) : Prop :=
  operation.Throughout .distinct

/-- Whether all names in a value have a property. -/
def Value.NamesAre (property : String → Prop) (value : Value) : Prop :=
  value.Throughout (.names property)

/-- Whether all names in an operation have a property. -/
def Operation.NamesAre (property : String → Prop) (operation : Operation) :
    Prop :=
  operation.Throughout (.names property)

theorem PartCondition.follows_and (first second : PartCondition) :
    Follows first second (first.and second) where
  onValue _ one other := ⟨one, other⟩
  onOperation _ one other := ⟨one, other⟩

/-- Names with a property also have any weaker one. -/
theorem PartCondition.names_follows {property weaker : String → Prop}
    (implies : ∀ name, property name → weaker name)
    (condition : PartCondition) :
    Follows (.names property) condition (.names weaker) where
  onValue value holds _ := by
    cases value <;> simp only [names] at holds ⊢
    exact implies _ holds
  onOperation operation holds _ := by
    cases operation <;> simp only [names] at holds ⊢
    case named => exact implies _ holds
    case call => exact implies _ holds
    case native => exact ⟨implies _ holds.1, implies _ holds.2⟩
    case block => exact fun slot member => implies _ (holds slot member)

end StackAssembly
