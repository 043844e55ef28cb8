import StackAssembly.Proofs.Value.Matching
import StackAssembly.Proofs.Value.PartInduction
import StackAssembly.Proofs.Value.WellFormed
import StackAssembly.Value.Digest

/-!
# Equality is sound

Equality of tables and sets is checked in one direction: they must be equally
large, and what is in the first must be found in the second.  If nothing is
repeated this is an equivalence.  Two values are then equal exactly if the
second is the first with its tables and sets filled in another order, at
whatever depth, and equal values feed the same words to every digest.
-/

namespace StackAssembly

/-- Whether two values are equal. -/
abbrev Value.Same (left right : Value) : Prop :=
  left.equal right = true

/-- Whether two operations are equal. -/
abbrev Operation.Same (left right : Operation) : Prop :=
  left.equal right = true

namespace Entries

/-- Whether two entries have equal keys and equal values. -/
def SameEntry (left right : Value × Value) : Prop :=
  left.1.Same right.1 ∧ left.2.Same right.2

/-- Whether two tables are equal. -/
def Same (left right : Entries) : Prop :=
  left.length = right.length ∧ entriesWithin left right = true

/-- Whether neither a table nor the tables and sets in it repeat anything. -/
def RepeatsNothing (entries : Entries) : Prop :=
  entries.Distinct ∧
    ∀ entry ∈ entries, entry.1.RepeatsNothing ∧ entry.2.RepeatsNothing

end Entries

/-- Whether neither a set nor the tables and sets in it repeat anything. -/
def Members.RepeatsNothing (members : Members) : Prop :=
  members.Distinct ∧ ∀ member ∈ members, member.RepeatsNothing

section RepeatsNothing

theorem repeatsNothing_of_plain {value : Value}
    (plain : value.isPlain = true) : value.RepeatsNothing := by
  cases value <;> cases plain <;> trivial

@[simp]
theorem repeatsNothing_tuple {items : List Value} :
    (Value.tuple items).RepeatsNothing ↔
      ∀ item ∈ items, item.RepeatsNothing := by
  simp [Value.RepeatsNothing, Value.Throughout, PartCondition.distinct]

@[simp]
theorem repeatsNothing_table {entries : Entries} :
    (Value.table entries).RepeatsNothing ↔ entries.RepeatsNothing := by
  simp [Value.RepeatsNothing, Entries.RepeatsNothing, Value.Throughout,
    PartCondition.distinct]

@[simp]
theorem repeatsNothing_set {members : Members} :
    (Value.set members).RepeatsNothing ↔ members.RepeatsNothing := by
  simp [Value.RepeatsNothing, Members.RepeatsNothing, Value.Throughout,
    PartCondition.distinct]

theorem repeatsNothing_set_of_plain {members : Members}
    (distinct : members.Distinct)
    (plain : ∀ member ∈ members, member.isPlain = true) :
    (Value.set members).RepeatsNothing :=
  repeatsNothing_set.mpr ⟨distinct, fun member among =>
    repeatsNothing_of_plain (plain member among)⟩

@[simp]
theorem repeatsNothing_operation {body : Operation} :
    (Value.operation body).RepeatsNothing ↔ body.RepeatsNothing := by
  simp [Value.RepeatsNothing, Operation.RepeatsNothing, Value.Throughout,
    PartCondition.distinct]

@[simp]
theorem repeatsNothing_push {value : Value} :
    (Operation.push value).RepeatsNothing ↔ value.RepeatsNothing := by
  simp [Value.RepeatsNothing, Operation.RepeatsNothing, Operation.Throughout,
    PartCondition.distinct]

@[simp]
theorem repeatsNothing_ifTrue {body : Operation} :
    (Operation.ifTrue body).RepeatsNothing ↔ body.RepeatsNothing := by
  simp [Operation.RepeatsNothing, Operation.Throughout,
    PartCondition.distinct]

@[simp]
theorem repeatsNothing_select {cases : Entries}
    {otherwise : Option Operation} :
    (Operation.select cases otherwise).RepeatsNothing ↔
      cases.RepeatsNothing ∧
        ∀ operation ∈ otherwise, operation.RepeatsNothing := by
  cases otherwise <;>
    simp [Value.RepeatsNothing, Operation.RepeatsNothing,
      Entries.RepeatsNothing, Operation.Throughout, alternativeThroughout,
      PartCondition.distinct, and_assoc]

@[simp]
theorem repeatsNothing_call {target : String} {arguments : List Value} :
    (Operation.call target arguments).RepeatsNothing ↔
      ∀ argument ∈ arguments, argument.RepeatsNothing := by
  simp [Value.RepeatsNothing, Operation.RepeatsNothing, Operation.Throughout,
    PartCondition.distinct]

@[simp]
theorem repeatsNothing_block {slots : List String}
    {operations : List Operation} :
    (Operation.block slots operations).RepeatsNothing ↔
      ∀ operation ∈ operations, operation.RepeatsNothing := by
  simp [Operation.RepeatsNothing, Operation.Throughout,
    PartCondition.distinct]

@[simp]
theorem repeatsNothing_partialBind {value : Value} {callable : Operation} :
    (Operation.partialBind value callable).RepeatsNothing ↔
      value.RepeatsNothing ∧ callable.RepeatsNothing := by
  simp [Value.RepeatsNothing, Operation.RepeatsNothing, Operation.Throughout,
    PartCondition.distinct]

end RepeatsNothing

section Lists

@[simp]
theorem itemsEqual_iff {left right : List Value} :
    itemsEqual left right = true ↔ List.Forall₂ Value.Same left right := by
  induction left generalizing right with
  | nil => cases right <;> simp [itemsEqual]
  | cons value left ih => cases right <;> simp [itemsEqual, ih]

@[simp]
theorem operationsEqual_iff {left right : List Operation} :
    operationsEqual left right = true ↔
      List.Forall₂ Operation.Same left right := by
  induction left generalizing right with
  | nil => cases right <;> simp [operationsEqual]
  | cons operation left ih => cases right <;> simp [operationsEqual, ih]

@[simp]
theorem alternativesEqual_iff {left right : Option Operation} :
    alternativesEqual left right = true ↔
      Option.Rel Operation.Same left right := by
  cases left <;> cases right <;> simp [alternativesEqual]

@[simp]
theorem membersWithin_iff {left right : List Value} :
    membersWithin left right = true ↔
      ∀ member ∈ left, ∃ other ∈ right, member.Same other := by
  induction left with
  | nil => simp [membersWithin]
  | cons member left ih => simp [membersWithin, ih]

theorem entriesWithin_iff_find? {left right : Entries} :
    entriesWithin left right = true ↔
      ∀ entry ∈ left, ∃ other,
        right.find? (fun other => entry.1.equal other.1) = some other ∧
          entry.2.Same other.2 := by
  induction left with
  | nil => simp [entriesWithin]
  | cons entry left ih =>
      obtain ⟨key, value⟩ := entry
      rw [entriesWithin, Bool.and_eq_true, ih, List.forall_mem_cons]
      refine and_congr_left fun _ => ?_
      cases right.find? fun other => key.equal other.1 <;> simp

/-- If only one item has a property, it is the one that is found. -/
theorem find?_of_unshared {α : Type} {property : α → Bool} {items : List α}
    {item : α} (unshared : items.Pairwise fun first second =>
      ¬ (property first = true ∧ property second = true))
    (member : item ∈ items) (holds : property item = true) :
    items.find? property = some item := by
  obtain ⟨before, behind, rfl⟩ := List.append_of_mem member
  rw [List.find?_eq_some_iff_append]
  refine ⟨holds, before, behind, rfl, fun earlier among => ?_⟩
  have apart := (List.pairwise_append.mp unshared).2.2 earlier among item
    List.mem_cons_self
  rw [Bool.not_eq_true']
  exact Bool.eq_false_iff.mpr fun also => apart ⟨also, holds⟩

end Lists

namespace Entries

variable {left right entries : Entries}

/-- No two entries of a table have equal keys. -/
theorem Distinct.keys (distinct : entries.Distinct) :
    (entries.map Prod.fst).Pairwise fun earlier later =>
      ¬ later.Same earlier := by
  rw [List.pairwise_map]
  exact distinct.imp fun apart => Bool.eq_false_iff.mp apart

theorem Distinct.apart (distinct : entries.Distinct) :
    entries.Pairwise fun earlier later => ¬ SameEntry later earlier :=
  (List.pairwise_map.mp distinct.keys).imp fun differ same => differ same.1

/-- Tables in which no two entries answer to one key are equal if they
match. -/
theorem same_iff_matched
    (unshared : ∀ entry ∈ left, right.Pairwise fun first second =>
      ¬ (entry.1.Same first.1 ∧ entry.1.Same second.1)) :
    Same left right ↔ Matched SameEntry left right := by
  have within : entriesWithin left right = true ↔
      ∀ entry ∈ left, ∃ other ∈ right, SameEntry entry other := by
    rw [entriesWithin_iff_find?]
    refine forall₂_congr fun entry member => exists_congr fun other => ?_
    constructor
    · rintro ⟨found, same⟩
      have key := List.find?_some found
      exact ⟨List.mem_of_find?_eq_some found, key, same⟩
    · rintro ⟨among, key, value⟩
      exact ⟨find?_of_unshared (unshared entry member) among key, value⟩
  rw [Same, within]
  exact ⟨fun ⟨length, found⟩ => ⟨length, found⟩,
    fun matched => ⟨matched.length, matched.within⟩⟩

/-- A comparison of values that is coherent at the keys and the values of a
table is coherent at the table. -/
theorem coherentAt_same
    (coherent : ∀ entry ∈ entries,
      CoherentAt Value.RepeatsNothing Value.Same entry.1 ∧
        CoherentAt Value.RepeatsNothing Value.Same entry.2)
    (unrepeated : entries.RepeatsNothing) :
    CoherentAt RepeatsNothing Same entries := by
  have ofMatched : CoherentAt
      (fun others =>
        (∀ other ∈ others,
          other.1.RepeatsNothing ∧ other.2.RepeatsNothing) ∧
        others.Pairwise fun earlier later => ¬ SameEntry later earlier)
      (Matched SameEntry) entries :=
    .matched (fun entry member => (coherent entry member).1.prod
      (coherent entry member).2) unrepeated.2 unrepeated.1.apart
  -- No key of the table is that of two entries of another one.
  have forward : ∀ others : Entries, others.RepeatsNothing → ∀ entry ∈ entries,
      others.Pairwise fun first second =>
        ¬ (entry.1.Same first.1 ∧ entry.1.Same second.1) := by
    intro others good entry member
    refine List.pairwise_map.mp ((coherent entry member).1.unshared ?_
      good.1.keys)
    exact List.forall_mem_map.mpr fun other among => (good.2 other among).1
  have same_iff : ∀ others : Entries, others.RepeatsNothing →
      (Same entries others ↔ Matched SameEntry entries others) :=
    fun others good => same_iff_matched (forward others good)
  have symm : ∀ others : Entries, others.RepeatsNothing →
      (Matched SameEntry entries others ↔
        Matched SameEntry others entries) :=
    fun others good => ofMatched.symm others ⟨good.2, good.1.apart⟩
  constructor
  · intro others good
    rw [same_iff others good, symm others good, same_iff_matched]
    -- Nor is any key of the other table that of two entries of this one.
    intro other among
    have unshared := List.pairwise_map.mp (CoherentAt.unsharedBy
      (List.forall_mem_map.mpr fun entry member => (coherent entry member).1)
      (List.forall_mem_map.mpr fun entry member =>
        (unrepeated.2 entry member).1)
      (good.2 other among).1 unrepeated.1.keys)
    refine unshared.imp_of_mem fun {first second} one two apart both =>
      apart ⟨?_, ?_⟩
    · exact ((coherent first one).1.symm _ (good.2 other among).1).mpr both.1
    · exact ((coherent second two).1.symm _ (good.2 other among).1).mpr
        both.2
  · intro others thirds good goodThirds same
    have matched := (same_iff others good).mp same
    rw [same_iff thirds goodThirds, ofMatched.congr others thirds
      ⟨good.2, good.1.apart⟩ ⟨goodThirds.2, goodThirds.1.apart⟩ matched,
      same_iff_matched]
    -- A key of the second table is equal to one of the first.
    intro other among
    obtain ⟨entry, member, key, -⟩ :=
      ((symm others good).mp matched).within other among
    have back := ((coherent entry member).1.symm _
      (good.2 other among).1).mpr key
    refine (forward thirds goodThirds entry member).imp_of_mem
      fun {first second} one two apart both => apart ⟨?_, ?_⟩
    · exact ((coherent entry member).1.congr _ _ (good.2 other among).1
        (goodThirds.2 first one).1 back).mpr both.1
    · exact ((coherent entry member).1.congr _ _ (good.2 other among).1
        (goodThirds.2 second two).1 back).mpr both.2

end Entries

theorem Members.Distinct.apart {members : Members}
    (distinct : members.Distinct) :
    members.Pairwise fun earlier later => ¬ later.Same earlier :=
  distinct.imp fun apart => Bool.eq_false_iff.mp apart

attribute [local simp] Value.equal Operation.equal

section Shapes

theorem same_tuple_iff {items : List Value} {other : Value} :
    (Value.tuple items).Same other ↔
      ∃ others, other = .tuple others ∧
        List.Forall₂ Value.Same items others := by
  cases other <;> simp [Value.Same]

theorem same_table_iff {entries : Entries} {other : Value} :
    (Value.table entries).Same other ↔
      ∃ others, other = .table others ∧ Entries.Same entries others := by
  cases other <;> simp [Value.Same, Entries.Same]

theorem same_set_iff {members : Members} {other : Value} :
    (Value.set members).Same other ↔
      ∃ others, other = .set others ∧ Matched Value.Same members others := by
  cases other <;> simp [Value.Same, matched_iff]

theorem same_operation_iff {body : Operation} {other : Value} :
    (Value.operation body).Same other ↔
      ∃ next, other = .operation next ∧ body.Same next := by
  cases other <;> simp [Value.Same]

theorem same_push_iff {value : Value} {other : Operation} :
    (Operation.push value).Same other ↔
      ∃ next, other = .push next ∧ value.Same next := by
  cases other <;> simp [Operation.Same]

theorem same_ifTrue_iff {body other : Operation} :
    (Operation.ifTrue body).Same other ↔
      ∃ next, other = .ifTrue next ∧ body.Same next := by
  cases other <;> simp [Operation.Same]

theorem same_select_iff {content : Entries × Option Operation}
    {other : Operation} :
    (Operation.select content.1 content.2).Same other ↔
      ∃ next : Entries × Option Operation, other = .select next.1 next.2 ∧
        Entries.Same content.1 next.1 ∧
          Option.Rel Operation.Same content.2 next.2 := by
  cases other <;> simp [Operation.Same, Entries.Same]

theorem same_call_iff {content : String × List Value} {other : Operation} :
    (Operation.call content.1 content.2).Same other ↔
      ∃ next : String × List Value, other = .call next.1 next.2 ∧
        content.1 = next.1 ∧ List.Forall₂ Value.Same content.2 next.2 := by
  cases other <;> simp [Operation.Same]

theorem same_block_iff {content : List String × List Operation}
    {other : Operation} :
    (Operation.block content.1 content.2).Same other ↔
      ∃ next : List String × List Operation, other = .block next.1 next.2 ∧
        content.1 = next.1 ∧
          List.Forall₂ Operation.Same content.2 next.2 := by
  cases other <;> simp [Operation.Same]

theorem same_partialBind_iff {content : Value × Operation}
    {other : Operation} :
    (Operation.partialBind content.1 content.2).Same other ↔
      ∃ next : Value × Operation, other = .partialBind next.1 next.2 ∧
        content.1.Same next.1 ∧ content.2.Same next.2 := by
  cases other <;> simp [Operation.Same]

end Shapes

section Plain

theorem Value.equal_iff_of_plain {value : Value}
    (plain : value.isPlain = true) (other : Value) :
    (value.Same other ↔ value = other) ∧
      (other.Same value ↔ other = value) := by
  cases value <;> cases plain <;> cases other <;>
    simp [Value.Same]

theorem Operation.equal_iff_of_plain {operation : Operation}
    (plain : operation.isPlain = true) (other : Operation) :
    (operation.Same other ↔ operation = other) ∧
      (other.Same operation ↔ other = operation) := by
  cases operation <;> cases plain <;> cases other <;>
    simp [Operation.Same]

end Plain

/-- Equality is coherent at whatever repeats nothing. -/
theorem coherent_equality :
    PartCases
      (fun value => value.RepeatsNothing →
        CoherentAt Value.RepeatsNothing Value.Same value)
      (fun operation => operation.RepeatsNothing →
        CoherentAt Operation.RepeatsNothing Operation.Same operation) where
  plainValue value plain _ :=
    .ofAlone (fun other => (Value.equal_iff_of_plain plain other).1)
      fun other => (Value.equal_iff_of_plain plain other).2
  tuple items ih unrepeated := by
    have each := repeatsNothing_tuple.mp unrepeated
    refine .ofShape Value.tuple (fun _ _ => same_tuple_iff) ?_
      (fun _ => repeatsNothing_tuple.mp)
      (.forall₂ fun item member => ih item member (each item member))
    intro first other
    cases other <;> simp [Value.Same]
  table entries ih unrepeated := by
    have each := repeatsNothing_table.mp unrepeated
    refine .ofShape Value.table (fun _ _ => same_table_iff) ?_
      (fun _ => repeatsNothing_table.mp)
      (Entries.coherentAt_same (fun entry member =>
        ⟨(ih entry member).1 (each.2 entry member).1,
          (ih entry member).2 (each.2 entry member).2⟩) each)
    intro first other
    cases other <;> simp [Value.Same, Entries.Same]
  set members ih unrepeated := by
    have each := repeatsNothing_set.mp unrepeated
    refine .ofShape Value.set (fun _ _ => same_set_iff) ?_
      (fun _ good => ?_)
      (.matched (fun member among => ih member among (each.2 member among))
        each.2 each.1.apart)
    · intro first other
      cases other <;> simp [Value.Same, matched_iff]
    · have good := repeatsNothing_set.mp good
      exact ⟨good.2, good.1.apart⟩
  operation body ih unrepeated := by
    refine .ofShape Value.operation (fun _ _ => same_operation_iff) ?_
      (fun _ => repeatsNothing_operation.mp)
      (ih (repeatsNothing_operation.mp unrepeated))
    intro first other
    cases other <;> simp [Value.Same]
  plainOperation operation plain _ :=
    .ofAlone (fun other => (Operation.equal_iff_of_plain plain other).1)
      fun other => (Operation.equal_iff_of_plain plain other).2
  push value ih unrepeated := by
    refine .ofShape Operation.push (fun _ _ => same_push_iff) ?_
      (fun _ => repeatsNothing_push.mp)
      (ih (repeatsNothing_push.mp unrepeated))
    intro first other
    cases other <;> simp [Operation.Same]
  ifTrue body ih unrepeated := by
    refine .ofShape Operation.ifTrue (fun _ _ => same_ifTrue_iff) ?_
      (fun _ => repeatsNothing_ifTrue.mp)
      (ih (repeatsNothing_ifTrue.mp unrepeated))
    intro first other
    cases other <;> simp [Operation.Same]
  select cases otherwise ih ihElse unrepeated := by
    obtain ⟨each, eachElse⟩ := repeatsNothing_select.mp unrepeated
    refine .ofShape
      (fun content : Entries × Option Operation =>
        Operation.select content.1 content.2)
      (fun _ _ => same_select_iff) ?_
      (fun _ => repeatsNothing_select.mp)
      ((Entries.coherentAt_same (fun entry member =>
        ⟨(ih entry member).1 (each.2 entry member).1,
          (ih entry member).2 (each.2 entry member).2⟩) each).prod
        (.option fun operation member =>
          ihElse operation member (eachElse operation member)))
    rintro ⟨first, firstElse⟩ other
    cases other <;> simp [Operation.Same, Entries.Same]
  call target arguments ih unrepeated := by
    have each := repeatsNothing_call.mp unrepeated
    refine .ofShape
      (fun content : String × List Value =>
        Operation.call content.1 content.2)
      (fun _ _ => same_call_iff) ?_
      (fun _ good => ⟨trivial, repeatsNothing_call.mp good⟩)
      ((CoherentAt.ofEq target).prod
        (.forall₂ fun item member => ih item member (each item member)))
    rintro ⟨first, firstArguments⟩ other
    cases other <;> simp [Operation.Same]
  block slots operations ih unrepeated := by
    have each := repeatsNothing_block.mp unrepeated
    refine .ofShape
      (fun content : List String × List Operation =>
        Operation.block content.1 content.2)
      (fun _ _ => same_block_iff) ?_
      (fun _ good => ⟨trivial, repeatsNothing_block.mp good⟩)
      ((CoherentAt.ofEq slots).prod
        (.forall₂ fun item member => ih item member (each item member)))
    rintro ⟨first, firstOperations⟩ other
    cases other <;> simp [Operation.Same]
  partialBind value callable ih ihCallable unrepeated := by
    obtain ⟨one, two⟩ := repeatsNothing_partialBind.mp unrepeated
    refine .ofShape
      (fun content : Value × Operation =>
        Operation.partialBind content.1 content.2)
      (fun _ _ => same_partialBind_iff) ?_
      (fun _ => repeatsNothing_partialBind.mp)
      ((ih one).prod (ihCallable two))
    rintro ⟨first, firstCallable⟩ other
    cases other <;> simp [Operation.Same]

end StackAssembly
