import StackAssembly.Machine.Attempt
import StackAssembly.Proofs.Machine.Loading
import StackAssembly.Proofs.Source.TextNames
import StackAssembly.Proofs.Value.Names

/-!
# Names on a machine

The names on a machine are those in its values, the global names and the
slots.  Moving values about brings no new name onto the machine, and the rules
of the stack make only names that are identifiers.
-/

namespace StackAssembly

variable {ν : Type} {property : String → Prop}

/-- Whether the bound names and the names in their values have a property. -/
def Bindings.NamesAre (property : String → Prop) (bindings : Bindings) :
    Prop :=
  ∀ entry ∈ bindings.entries, property entry.1 ∧ entry.2.NamesAre property

namespace Bindings.NamesAre

variable {bindings : Bindings} {name : String} {value : Value}

theorem empty : Bindings.empty.NamesAre property :=
  nofun

theorem get? (named : bindings.NamesAre property)
    (found : bindings.get? name = some value) : value.NamesAre property := by
  obtain ⟨entry, there, rfl⟩ := Option.map_eq_some_iff.mp found
  exact (named entry (List.mem_of_find?_eq_some there)).2

theorem set (named : bindings.NamesAre property) (bound : property name)
    (also : value.NamesAre property) :
    (bindings.set name value).NamesAre property := by
  intro entry member
  rcases mem_of_mem_putEntry member with rfl | old
  · exact ⟨bound, also⟩
  · exact named entry old

theorem define? (named : bindings.NamesAre property) (bound : property name)
    (also : value.NamesAre property) {next : Bindings}
    (defined : bindings.define? name value = some next) :
    next.NamesAre property := by
  rw [Bindings.define?] at defined
  split at defined
  · cases defined
  · cases defined
    exact named.set bound also

theorem erase (named : bindings.NamesAre property) (name : String) :
    (bindings.erase name).NamesAre property :=
  fun entry member => named entry (List.mem_filter.mp member).1

theorem setAll {pairs : List (String × Value)}
    (named : bindings.NamesAre property)
    (also : ∀ pair ∈ pairs, property pair.1 ∧ pair.2.NamesAre property) :
    (bindings.setAll pairs).NamesAre property := by
  induction pairs generalizing bindings with
  | nil => exact named
  | cons pair pairs ih =>
      obtain ⟨first, later⟩ := List.forall_mem_cons.mp also
      exact ih (named.set first.1 first.2) later

theorem of_set? {frames later : Frames}
    (named : ∀ frame ∈ frames, frame.NamesAre property)
    (bound : property name) (also : value.NamesAre property)
    (changed : frames.set? name value = some later) :
    ∀ frame ∈ later, frame.NamesAre property := by
  cases frames with
  | nil => cases changed
  | cons frame outer =>
      cases changed
      obtain ⟨first, others⟩ := List.forall_mem_cons.mp named
      exact List.forall_mem_cons.mpr ⟨first.set bound also, others⟩

end Bindings.NamesAre

/-- Whether all names on a machine have a property: those in its values, the
global names and the slots. -/
structure Machine.NamesAre (property : String → Prop) (machine : Machine ν) :
    Prop where
  stack : ∀ value ∈ machine.stack, value.NamesAre property
  frames : ∀ frame ∈ machine.frames, frame.NamesAre property
  store : machine.store.NamesAre property

namespace Machine.NamesAre

variable {machine : Machine ν}

theorem empty : ({} : Machine ν).NamesAre property :=
  ⟨nofun, nofun, .empty⟩

theorem withStack (named : machine.NamesAre property) {stack : List Value}
    (each : ∀ value ∈ stack, value.NamesAre property) :
    { machine with stack }.NamesAre property :=
  ⟨each, named.frames, named.store⟩

/-- The value on top and the machine without it. -/
theorem uncons (named : machine.NamesAre property) {value : Value}
    {rest : List Value} (here : machine.stack = value :: rest) :
    value.NamesAre property ∧
      { machine with stack := rest }.NamesAre property := by
  have each := named.stack
  rw [here] at each
  obtain ⟨first, below⟩ := List.forall_mem_cons.mp each
  exact ⟨first, named.withStack below⟩

theorem pushAll (named : machine.NamesAre property) {values : List Value}
    (each : ∀ value ∈ values, value.NamesAre property) :
    (machine.pushAll values).NamesAre property :=
  named.withStack (List.forall_mem_append.mpr ⟨each, named.stack⟩)

theorem push (named : machine.NamesAre property) {value : Value}
    (also : value.NamesAre property) :
    (machine.push value).NamesAre property :=
  named.withStack (List.forall_mem_cons.mpr ⟨also, named.stack⟩)

theorem raise (named : machine.NamesAre property) {fault : Fault}
    (each : ∀ operand ∈ fault.operands, operand.NamesAre property) :
    (machine.raise fault).NamesAre property :=
  named.pushAll (List.forall_mem_cons.mpr ⟨trivial, each⟩)

theorem truncate (named : machine.NamesAre property) (length : Nat) :
    (machine.truncate length).NamesAre property :=
  named.withStack fun value member =>
    named.stack value (List.mem_of_mem_drop member)

theorem notify (named : machine.NamesAre property) (event : BlockEvent)
    (slots : List String) (operations : List Operation) :
    (machine.notify event slots operations).NamesAre property := by
  rw [Machine.notify]
  split
  · exact named
  · exact ⟨named.stack, named.frames, named.store⟩

theorem takeTop? (named : machine.NamesAre property) {count : Nat}
    {values : List Value} {below : Machine ν}
    (taken : machine.takeTop? count = some (values, below)) :
    (∀ value ∈ values, value.NamesAre property) ∧
      below.NamesAre property := by
  simp only [Machine.takeTop?] at taken
  split at taken
  · cases taken
  · cases taken
    constructor
    · intro value member
      exact named.stack value (List.mem_of_mem_take (List.mem_reverse.mp member))
    · exact named.withStack fun value member =>
        named.stack value (List.mem_of_mem_drop member)

theorem pushFrame (named : machine.NamesAre property) {slots : List String}
    {values : List Value} (bound : ∀ slot ∈ slots, property slot)
    (each : ∀ value ∈ values, value.NamesAre property) :
    (machine.pushFrame (slots.zip values)).NamesAre property := by
  refine ⟨named.stack, List.forall_mem_cons.mpr ⟨?_, named.frames⟩,
    named.store⟩
  refine Bindings.NamesAre.empty.setAll fun pair member => ?_
  obtain ⟨left, right⟩ := List.of_mem_zip member
  exact ⟨bound _ left, each _ right⟩

theorem popFrame (named : machine.NamesAre property) :
    machine.popFrame.NamesAre property :=
  ⟨named.stack, fun frame member =>
    named.frames frame (List.mem_of_mem_tail member), named.store⟩

end Machine.NamesAre

/-- Whether all names in what takes the place of operands have a property. -/
def RuleResult.NamesAre (property : String → Prop) : RuleResult → Prop
  | .ok results => ∀ result ∈ results, result.NamesAre property
  | .error _ => True

/-- Whether a rule keeps a property of names. -/
def StackRule.KeepsNames (property : String → Prop) : StackRule → Prop
  | .unary rule =>
      ∀ value, value.NamesAre property → RuleResult.NamesAre property (rule value)
  | .binary rule =>
      ∀ first second, first.NamesAre property → second.NamesAre property →
        RuleResult.NamesAre property (rule first second)

namespace StackRule

theorem namesAre_single {value : Value} (named : value.NamesAre property) :
    RuleResult.NamesAre property (.ok [value]) :=
  List.forall_mem_singleton.mpr named

theorem keepsNames_arithmetic
    (operation : UInt64 → UInt64 → Except ErrorCode UInt64) :
    (arithmetic operation).KeepsNames property := by
  rintro first second - -
  dsimp only
  split
  · next left right =>
      cases operation left right with
      | ok result => exact namesAre_single trivial
      | error code => trivial
  · trivial

theorem keepsNames_logic (onTruth : Bool → Bool → Bool)
    (onWords : UInt64 → UInt64 → UInt64) :
    (logic onTruth onWords).KeepsNames property := by
  intro first second _ _
  dsimp only
  split
  · exact namesAre_single trivial
  · exact namesAre_single trivial
  · trivial

theorem namesAre_complement (value : Value) :
    RuleResult.NamesAre property (complement value) := by
  rw [complement.eq_def]
  split
  · exact namesAre_single trivial
  · exact namesAre_single trivial
  · trivial

theorem namesAre_spread {value : Value} (named : value.NamesAre property) :
    RuleResult.NamesAre property (spread value) := by
  cases value with
  | tuple items =>
      intro item member
      exact Value.namesAre_tuple.mp named item (List.mem_reverse.mp member)
  | _ => trivial

theorem namesAre_count (container : Value) :
    RuleResult.NamesAre property (count container) := by
  rw [count]
  split
  · exact namesAre_single trivial
  · trivial

theorem namesAre_element (key : Value) {container : Value}
    (named : container.NamesAre property) :
    RuleResult.NamesAre property (element key container) := by
  rw [element.eq_def]
  split
  · split
    · next entries value found =>
        exact namesAre_single
          (Entries.namesAre_of_lookup? (Value.namesAre_table.mp named) found)
    · trivial
  all_goals first
    | trivial
    | (split
       · split
         · next found => exact namesAre_single (named.elementAt? found)
         · trivial
       · trivial)

theorem namesAre_position (found : Option Nat) :
    RuleResult.NamesAre property (position found) := by
  cases found with
  | some index => exact namesAre_single trivial
  | none => trivial

theorem namesAre_search (needle : Value) {container : Value}
    (named : container.NamesAre property) :
    RuleResult.NamesAre property (search needle container) := by
  rw [search.eq_def]
  split
  · exact namesAre_position _
  · split
    · exact namesAre_position _
    · trivial
  · next entries =>
      refine namesAre_single ?_
      cases found : Entries.lookup? entries needle with
      | some value =>
          exact Entries.namesAre_of_lookup? (Value.namesAre_table.mp named)
            found
      | none => exact trivial
  · exact namesAre_single trivial
  · trivial

theorem namesAre_grow {value container : Value}
    (named : value.NamesAre property) (also : container.NamesAre property) :
    RuleResult.NamesAre property (grow value container) := by
  rw [grow]
  split
  · next grown appended => exact namesAre_single (also.append named appended)
  · trivial

theorem namesAre_bind {callable value : Value}
    (named : callable.NamesAre property) (also : value.NamesAre property) :
    RuleResult.NamesAre property (bind callable value) := by
  rw [bind]
  split
  · next operation found =>
      refine namesAre_single (Value.namesAre_operation.mpr ?_)
      exact ⟨trivial, also, named.callable? found⟩
  · trivial

variable (identifiers : ∀ name, Text.isIdentifier name = true → property name)

include identifiers

theorem namesAre_cast (target : Value) {value : Value}
    (named : value.NamesAre property) :
    RuleResult.NamesAre property (cast target value) := by
  rw [cast.eq_def]
  split
  · split
    · next converted found =>
        exact namesAre_single (named.cast? identifiers found)
    · trivial
  · trivial

theorem namesAre_parse (dialect : Dialect) (value : Value) :
    RuleResult.NamesAre property (parse dialect value) := by
  rw [parse.eq_def]
  split
  · split
    · next result parsed =>
        exact namesAre_single
          ((Source.namesAre_of_parseText parsed).imp identifiers)
    · trivial
  · trivial

/-- The rules of primitives make no names but identifiers. -/
theorem keepsNames_ofPrimitive? {dialect : Dialect} {which : Primitive}
    {rule : StackRule} (found : ofPrimitive? dialect which = some rule) :
    rule.KeepsNames property := by
  cases which <;> cases found
  case pop => exact fun _ _ => nofun
  case dup =>
    exact fun _ named => List.forall_mem_cons.mpr
      ⟨named, List.forall_mem_singleton.mpr named⟩
  case swap =>
    exact fun _ _ named also => List.forall_mem_cons.mpr
      ⟨also, List.forall_mem_singleton.mpr named⟩
  case add | sub | mul | div | mod => exact keepsNames_arithmetic _
  case and | or | xor => exact keepsNames_logic _ _
  case not => exact fun value _ => namesAre_complement value
  case eq => exact fun _ _ _ _ => namesAre_single trivial
  case bind => exact fun _ _ named also => namesAre_bind named also
  case typeOf => exact fun _ _ => namesAre_single trivial
  case typeCast =>
    exact fun target _ _ also => namesAre_cast identifiers target also
  case unpack => exact fun _ named => namesAre_spread named
  case element => exact fun key _ _ also => namesAre_element key also
  case find => exact fun needle _ _ also => namesAre_search needle also
  case append => exact fun _ _ named also => namesAre_grow named also
  case size => exact fun container _ => namesAre_count container
  case parse =>
    exact fun value _ => namesAre_parse identifiers dialect value

end StackRule
end StackAssembly
