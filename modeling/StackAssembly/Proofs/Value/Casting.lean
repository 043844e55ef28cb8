import Mathlib.Data.Set.List
import StackAssembly.Proofs.Value.Extensionality
import StackAssembly.Value.Cast

/-!
# Casts keep what the kinds share

What a cast gives is of the kind asked for, so that casting it again changes
nothing.  Two ways lead there and back: a table is the tuple of its entries,
and an atom is the text of its name.  The way back to the table loses nothing,
and neither does the way back to the text.  In the other direction a tuple of
pairs comes back without the pairs whose key stood before, and an atom comes
back if its name is an identifier.
-/

namespace StackAssembly

/-- Taking all values of a list apart gives the parts of which they are made,
if there are any. -/
theorem mapM_eq_some_iff_map {α β : Type} {part? : α → Option β}
    {whole : β → α}
    (inverse : ∀ value part, part? value = some part ↔ value = whole part)
    {values : List α} {parts : List β} :
    values.mapM part? = some parts ↔ values = parts.map whole := by
  induction values generalizing parts with
  | nil => cases parts <;> simp
  | cons value values ih =>
      rw [List.mapM_cons]
      cases parts with
      | nil => simp [Option.bind_eq_some_iff]
      | cons part parts =>
          simp [Option.bind_eq_some_iff, inverse, ih]

theorem callables?_eq_some_iff {values : List Value}
    {operations : List Operation} :
    callables? values = some operations ↔
      values = operations.map .operation :=
  mapM_eq_some_iff_map fun value operation => by
    cases value <;> simp [Value.callable?]

theorem pairs?_eq_some_iff {values : List Value}
    {pairs : List (Value × Value)} :
    pairs? values = some pairs ↔
      values = pairs.map fun entry => .pair entry.1 entry.2 :=
  mapM_eq_some_iff_map fun value components =>
    ⟨Value.pair_of_pair?_eq_some, by rintro rfl; rfl⟩

theorem Entries.firsts_ofPairs {pairs : Entries}
    (sound : ∀ pair ∈ pairs, pair.1.RepeatsNothing) :
    Firsts sameKey pairs (ofPairs pairs) := by
  rw [ofPairs, insertAll_eq_appendNew]
  exact firsts_appendNew sound

namespace Value

variable {value result : Value} {kind : ValueKind} {items : List Value}

theorem kind_of_convert? (converts : value.convert? kind = some result) :
    result.kind = kind := by
  rw [convert?.eq_def] at converts
  split at converts
  · cases converts
    rfl
  · obtain ⟨letter, -, rfl⟩ := Option.map_eq_some_iff.mp converts
    rfl
  · cases converts
    rfl
  · split at converts <;> cases converts
    rfl
  · split at converts <;> cases converts
    rfl
  · obtain ⟨operations, -, rfl⟩ := Option.map_eq_some_iff.mp converts
    rfl
  · obtain ⟨pairs, -, rfl⟩ := Option.map_eq_some_iff.mp converts
    rfl
  · cases converts
    rfl
  · cases converts

theorem cast?_of_kind (isKind : value.kind = kind) :
    value.cast? kind = some value :=
  if_pos (.inl isKind)

/-- A cast leads to the kind asked for, except that what is callable counts as
an operation. -/
theorem kind_of_cast? (casts : value.cast? kind = some result) :
    result.kind = kind ∨
      kind = .operation ∧ result = value ∧ value.isCallable = true := by
  rw [cast?] at casts
  split at casts
  · next suits =>
      cases casts
      exact suits.imp id fun callable => ⟨callable.1, rfl, callable.2⟩
  · exact .inl (kind_of_convert? casts)

theorem cast?_again (casts : value.cast? kind = some result) :
    result.cast? kind = some result := by
  rcases kind_of_cast? casts with isKind | ⟨rfl, rfl, -⟩
  · exact cast?_of_kind isKind
  · exact casts

theorem cast?_table_tuple (entries : Entries) :
    (Value.table entries).cast? .tuple =
      some (.tuple (entries.map fun entry => .pair entry.1 entry.2)) :=
  rfl

/-- A tuple is cast to a table by inserting the pairs that it is made of. -/
theorem cast?_tuple_table_eq_some_iff :
    (Value.tuple items).cast? .table = some result ↔
      ∃ pairs, items = pairs.map (fun entry => .pair entry.1 entry.2) ∧
        result = .table (Entries.ofPairs pairs) := by
  change (pairs? items).map _ = some result ↔ _
  simp only [Option.map_eq_some_iff, pairs?_eq_some_iff, eq_comm (a := result)]

theorem cast?_tuple_block_eq_some_iff :
    (Value.tuple items).cast? .block = some result ↔
      ∃ operations, items = operations.map .operation ∧
        result = .operation (.block [] operations) := by
  change (callables? items).map _ = some result ↔ _
  simp only [Option.map_eq_some_iff, callables?_eq_some_iff,
    eq_comm (a := result)]

theorem exists_operations_iff :
    (∃ operations : List Operation, items = operations.map .operation) ↔
      ∀ item ∈ items, item.isCallable = true := by
  have made := congrArg (items ∈ ·) (Set.range_list_map Value.operation)
  simp only [Set.mem_range, Set.mem_ofPred_eq, eq_iff_iff] at made
  rw [exists_congr fun _ => eq_comm, made]
  refine forall₂_congr fun item _ => ?_
  cases item <;> simp [isCallable, callable?]

theorem cast?_atom_string (name : String) :
    (Value.atom name).cast? .string = some (.string name) :=
  rfl

theorem cast?_string_atom_eq_some_iff {text : String} :
    (Value.string text).cast? .atom = some result ↔
      Text.isIdentifier text = true ∧ result = .atom text := by
  change (if _ then some (Value.atom text) else none) = some result ↔ _
  split
  · next identifier => simp [identifier, eq_comm]
  · next other => simp [other]

end Value

/-- Casts lead to the kind asked for, and casting again changes nothing.
Between tables and tuples, between texts and atoms and from tuples to blocks
they are exactly the conversions that keep what both kinds can hold. -/
theorem casts_keep_what_kinds_share :
    (∀ (value result : Value) (kind : ValueKind),
      value.cast? kind = some result →
        (result.kind = kind ∨
          kind = .operation ∧ result = value ∧ value.isCallable = true) ∧
        result.cast? kind = some result) ∧
    (∀ entries : Entries, entries.Distinct →
      ∃ tuple, (Value.table entries).cast? .tuple = some tuple ∧
        tuple.cast? .table = some (.table entries)) ∧
    (∀ (items : List Value) (table : Value),
      (Value.tuple items).RepeatsNothing →
      (Value.tuple items).cast? .table = some table →
        ∃ pairs firsts : Entries,
          items = pairs.map (fun entry => .pair entry.1 entry.2) ∧
          Firsts Entries.sameKey pairs firsts ∧
          table.cast? .tuple =
            some (.tuple (firsts.map fun entry => .pair entry.1 entry.2))) ∧
    (∀ (text : String) (atom : Value),
      (Value.string text).cast? .atom = some atom →
        atom.cast? .string = some (.string text)) ∧
    (∀ name : String, ∃ text,
      (Value.atom name).cast? .string = some text ∧
        (Text.isIdentifier name = true →
          text.cast? .atom = some (.atom name)) ∧
        (Text.isIdentifier name = false → text.cast? .atom = none)) ∧
    ∀ items : List Value,
      ((∃ block, (Value.tuple items).cast? .block = some block) ↔
        ∀ item ∈ items, item.isCallable = true) ∧
      ∀ block, (Value.tuple items).cast? .block = some block →
        ∃ operations, items = operations.map .operation ∧
          block = .operation (.block [] operations) := by
  refine ⟨?_, ?_, ?_, ?_, ?_, ?_⟩
  · intro value result kind casts
    exact ⟨Value.kind_of_cast? casts, Value.cast?_again casts⟩
  · intro entries distinct
    refine ⟨_, Value.cast?_table_tuple entries, ?_⟩
    refine Value.cast?_tuple_table_eq_some_iff.mpr ⟨entries, rfl, ?_⟩
    rw [Entries.ofPairs_of_distinct distinct]
  · intro items table sound casts
    obtain ⟨pairs, rfl, rfl⟩ := Value.cast?_tuple_table_eq_some_iff.mp casts
    refine ⟨pairs, Entries.ofPairs pairs, rfl, ?_,
      Value.cast?_table_tuple _⟩
    refine Entries.firsts_ofPairs fun pair member => ?_
    have soundPair := repeatsNothing_tuple.mp sound _
      (List.mem_map_of_mem member)
    exact repeatsNothing_tuple.mp soundPair pair.1 List.mem_cons_self
  · intro text atom casts
    obtain ⟨-, rfl⟩ := Value.cast?_string_atom_eq_some_iff.mp casts
    exact Value.cast?_atom_string text
  · intro name
    refine ⟨_, Value.cast?_atom_string name, fun identifier => ?_,
      fun other => ?_⟩
    · exact Value.cast?_string_atom_eq_some_iff.mpr ⟨identifier, rfl⟩
    · rw [Option.eq_none_iff_forall_ne_some]
      intro result casts
      obtain ⟨identifier, -⟩ := Value.cast?_string_atom_eq_some_iff.mp casts
      exact absurd identifier (Bool.eq_false_iff.mp other)
  · intro items
    refine ⟨?_, fun block => Value.cast?_tuple_block_eq_some_iff.mp⟩
    rw [← Value.exists_operations_iff]
    constructor
    · rintro ⟨block, casts⟩
      obtain ⟨operations, made, -⟩ :=
        Value.cast?_tuple_block_eq_some_iff.mp casts
      exact ⟨operations, made⟩
    · rintro ⟨operations, made⟩
      exact ⟨_, Value.cast?_tuple_block_eq_some_iff.mpr
        ⟨operations, made, rfl⟩⟩

/-- Of two pairs whose keys are one set, filled in two orders, the tuple that
comes back has the first.  A name with a blank does not come back as an atom,
and a block can be a part of a block. -/
theorem reorderedKey_does_not_come_back :
    let key : Value := .set [.number 1, .number 2]
    let again : Value := .set [.number 2, .number 1]
    let table : Value := .table [(key, .string "a"), (.number 3, .empty)]
    let items : List Value := [.pair key (.string "a"),
      .pair again (.string "b")]
    let body : Value := .operation (.block ["x"] [])
    (∃ tuple, table.cast? .tuple = some tuple ∧
      tuple.cast? .table = some table) ∧
    (∃ table, (Value.tuple items).cast? .table = some table ∧
      ∃ pairs firsts : Entries,
        items = pairs.map (fun entry => .pair entry.1 entry.2) ∧
        Firsts Entries.sameKey pairs firsts ∧
        table.cast? .tuple =
          some (.tuple (firsts.map fun entry => .pair entry.1 entry.2)) ∧
        table.cast? .tuple = some (.tuple [.pair key (.string "a")])) ∧
    (Value.atom "ok").cast? .string = some (.string "ok") ∧
    (∃ text, (Value.atom "not ok").cast? .string = some text ∧
      text.cast? .atom = none) ∧
    body.cast? .operation = some body ∧
    ∃ operations : List Operation,
      [.operation (.primitive .dup), body] = operations.map .operation ∧
      (Value.tuple [.operation (.primitive .dup), body]).cast? .block =
        some (.operation (.block [] operations)) := by
  intro key again table items body
  obtain ⟨lawful, back, firsts, names, texts, blocks⟩ :=
    casts_keep_what_kinds_share
  have soundKey : key.RepeatsNothing :=
    repeatsNothing_set_of_plain (by decide) (by decide)
  have soundAgain : again.RepeatsNothing :=
    repeatsNothing_set_of_plain (by decide) (by decide)
  have soundPair : ∀ key text, key.RepeatsNothing →
      (Value.pair key (.string text)).RepeatsNothing :=
    fun key text sound => repeatsNothing_tuple.mpr
      (List.forall_mem_cons.mpr ⟨sound, List.forall_mem_singleton.mpr
        (repeatsNothing_of_plain rfl)⟩)
  have sound : (Value.tuple items).RepeatsNothing :=
    repeatsNothing_tuple.mpr (List.forall_mem_cons.mpr
      ⟨soundPair key "a" soundKey, List.forall_mem_singleton.mpr
        (soundPair again "b" soundAgain)⟩)
  refine ⟨back _ (by decide), ⟨_, rfl, ?_⟩, names "ok" _ rfl, ?_,
    (lawful body body .operation rfl).2, ?_⟩
  · obtain ⟨pairs, kept, made, first, casts⟩ := firsts items _ sound rfl
    exact ⟨pairs, kept, made, first, casts, rfl⟩
  · obtain ⟨text, casts, -, refused⟩ := texts "not ok"
    exact ⟨text, casts, refused rfl⟩
  · obtain ⟨operations, made, same⟩ :=
      (blocks [.operation (.primitive .dup), body]).2 _ rfl
    exact ⟨operations, made, congrArg some same⟩

end StackAssembly
