import StackAssembly.Proofs.Value.WellFormed
import StackAssembly.Value.Cast
import StackAssembly.Value.Container

/-!
# Names in values

Taking values apart and putting them together brings no new name into them.
Only a cast makes names: it turns a string into an atom if the string is an
identifier.  So a property of names that identifiers have is kept by
everything that is done with values.
-/

namespace StackAssembly

variable {property : String → Prop}

/-- What is found for all items of a list is found for one of them each. -/
theorem exists_of_mem_mapM {α β : Type} {find : α → Option β}
    {items : List α} {results : List β}
    (found : items.mapM find = some results) :
    ∀ result ∈ results, ∃ item ∈ items, find item = some result := by
  induction items generalizing results with
  | nil =>
      cases found
      exact nofun
  | cons item items ih =>
      rw [List.mapM_cons] at found
      obtain ⟨first, here, rest⟩ := Option.bind_eq_some_iff.mp found
      obtain ⟨later, there, made⟩ := Option.bind_eq_some_iff.mp rest
      cases made
      refine List.forall_mem_cons.mpr
        ⟨⟨item, List.mem_cons_self, here⟩, fun result member => ?_⟩
      obtain ⟨other, among, same⟩ := ih there result member
      exact ⟨other, List.mem_cons_of_mem item among, same⟩

namespace Value

@[simp]
theorem namesAre_tuple {items : List Value} :
    (Value.tuple items).NamesAre property ↔
      ∀ item ∈ items, item.NamesAre property :=
  (and_iff_right trivial).trans itemsThroughout_iff

@[simp]
theorem namesAre_table {entries : List (Value × Value)} :
    (Value.table entries).NamesAre property ↔
      ∀ entry ∈ entries,
        entry.1.NamesAre property ∧ entry.2.NamesAre property :=
  (and_iff_right trivial).trans entriesThroughout_iff

@[simp]
theorem namesAre_set {members : List Value} :
    (Value.set members).NamesAre property ↔
      ∀ member ∈ members, member.NamesAre property :=
  (and_iff_right trivial).trans itemsThroughout_iff

@[simp]
theorem namesAre_operation {body : Operation} :
    (Value.operation body).NamesAre property ↔ body.NamesAre property :=
  and_iff_right trivial

@[simp]
theorem namesAre_pair {first second : Value} :
    (pair first second).NamesAre property ↔
      first.NamesAre property ∧ second.NamesAre property := by
  simp [pair]

namespace NamesAre

variable {value container : Value}

theorem imp {weaker : String → Prop} (named : value.NamesAre property)
    (implies : ∀ name, property name → weaker name) :
    value.NamesAre weaker :=
  Value.Throughout.combine (PartCondition.names_follows implies _) value named
    named

theorem callable? (named : value.NamesAre property) {operation : Operation}
    (found : value.callable? = some operation) :
    operation.NamesAre property := by
  cases value with
  | operation body =>
      cases found
      exact namesAre_operation.mp named
  | _ => cases found

theorem pair? (named : value.NamesAre property) {pair : Value × Value}
    (found : value.pair? = some pair) :
    pair.1.NamesAre property ∧ pair.2.NamesAre property := by
  rw [Value.pair?.eq_def] at found
  split at found
  · cases found
    exact namesAre_pair.mp named
  · cases found

theorem elements? (named : container.NamesAre property)
    {elements : List Value} (found : container.elements? = some elements) :
    ∀ element ∈ elements, element.NamesAre property := by
  cases container with
  | tuple items =>
      cases found
      exact namesAre_tuple.mp named
  | table entries =>
      cases found
      intro element member
      obtain ⟨entry, among, rfl⟩ := List.mem_map.mp member
      exact namesAre_pair.mpr (namesAre_table.mp named entry among)
  | set members =>
      cases found
      exact namesAre_set.mp named
  | string text =>
      cases found
      intro element member
      obtain ⟨letter, -, rfl⟩ := List.mem_map.mp member
      exact trivial
  | _ => cases found

theorem elementAt? (named : container.NamesAre property) {position : Nat}
    {element : Value} (found : container.elementAt? position = some element) :
    element.NamesAre property := by
  obtain ⟨elements, listed, there⟩ := Option.bind_eq_some_iff.mp found
  exact named.elements? listed element (List.mem_of_getElem? there)

theorem emptied? (container : Value) {emptied : Value}
    (found : container.emptied? = some emptied) :
    emptied.NamesAre property := by
  cases container with
  | tuple | table | set =>
      cases found
      exact ⟨trivial, trivial⟩
  | string =>
      cases found
      exact trivial
  | _ => cases found

theorem append (named : container.NamesAre property)
    (also : value.NamesAre property) {grown : Value}
    (appended : container.append value = .ok grown) :
    grown.NamesAre property := by
  cases container with
  | tuple items =>
      cases appended
      rw [namesAre_tuple] at named ⊢
      intro item member
      rcases List.mem_append.mp member with old | new
      · exact named item old
      · rw [List.mem_singleton.mp new]
        exact also
  | table entries =>
      simp only [Value.append] at appended
      split at appended
      · next key item paired =>
          cases appended
          have both := also.pair? paired
          rw [namesAre_table] at named ⊢
          intro entry member
          rcases Entries.mem_of_mem_insert member with old | rfl
          · exact named entry old
          · exact both
      · cases appended
  | set members =>
      cases appended
      rw [namesAre_set] at named ⊢
      intro member among
      rcases Members.mem_of_mem_insert among with old | rfl
      · exact named member old
      · exact also
  | string text =>
      simp only [Value.append] at appended
      repeat' split at appended
      all_goals cases appended
      all_goals exact trivial
  | _ => cases appended

/-- Casting makes names of identifiers only. -/
theorem cast? (identifiers : ∀ name, Text.isIdentifier name = true →
      property name) (named : value.NamesAre property) {kind : ValueKind}
    {result : Value} (found : value.cast? kind = some result) :
    result.NamesAre property := by
  rw [Value.cast?] at found
  split at found
  · cases found
    exact named
  rw [Value.convert?.eq_def] at found
  split at found
  · cases found
    exact trivial
  · obtain ⟨letter, -, rfl⟩ := Option.map_eq_some_iff.mp found
    exact trivial
  · cases found
    exact trivial
  · split at found
    · next identifier =>
        cases found
        exact identifiers _ identifier
    · cases found
  · split at found
    · cases found
      exact trivial
    · cases found
  · obtain ⟨operations, all, rfl⟩ := Option.map_eq_some_iff.mp found
    refine ⟨trivial, nofun, operationsThroughout_iff.mpr ?_⟩
    intro operation member
    obtain ⟨item, among, called⟩ := exists_of_mem_mapM all operation member
    exact (namesAre_tuple.mp named item among).callable? called
  · obtain ⟨pairs, all, rfl⟩ := Option.map_eq_some_iff.mp found
    refine namesAre_table.mpr fun entry member => ?_
    obtain ⟨item, among, paired⟩ := exists_of_mem_mapM all entry
      (Entries.mem_of_mem_ofPairs member)
    exact (namesAre_tuple.mp named item among).pair? paired
  · cases found
    refine namesAre_tuple.mpr fun item member => ?_
    obtain ⟨entry, among, rfl⟩ := List.mem_map.mp member
    exact namesAre_pair.mpr (namesAre_table.mp named entry among)
  · cases found

end NamesAre
end Value

theorem Entries.namesAre_of_lookup? {entries : Entries}
    (named : ∀ entry ∈ entries,
      entry.1.NamesAre property ∧ entry.2.NamesAre property) {key value : Value}
    (found : entries.lookup? key = some value) :
    value.NamesAre property := by
  obtain ⟨entry, there, rfl⟩ := Option.map_eq_some_iff.mp found
  exact (named entry (List.mem_of_find?_eq_some there)).2

end StackAssembly
