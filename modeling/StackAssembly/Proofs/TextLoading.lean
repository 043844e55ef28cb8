import Mathlib.Data.List.Infix
import StackAssembly.Proofs.Gathering

/-!
# Two ways to load a text

Loading a text into the store of a machine stops at the first statement that
fails or whose name is bound, while an assembly goes on behind it.  Both read
the same statements as long as they go along with each other.  So what is
loaded is the longest part of the text without a failure and without a
repeated name, and an assembly has all of it.
-/

namespace StackAssembly

open Source

/-- Whether entries are the results of the first statements, with names that
are free and differ. -/
structure Loadable (store : Bindings) (results : List StatementResult)
    (entries : List (String × Value)) : Prop where
  read : entries.map Except.ok <+: results
  free : ∀ entry ∈ entries, store.contains entry.1 = false
  distinct : (entries.map Prod.fst).Nodup

/-- Whether entries are as many as can be loaded. -/
structure LongestLoadable (store : Bindings)
    (results : List StatementResult) (entries : List (String × Value)) :
    Prop extends Loadable store results entries where
  longest : ∀ others, Loadable store results others → others <+: entries

namespace Loadable

variable {store : Bindings} {results : List StatementResult}
  {entries : List (String × Value)} {name : String} {value : Value}

theorem nil (store : Bindings) (results : List StatementResult) :
    Loadable store results [] :=
  ⟨List.nil_prefix, List.forall_mem_nil _, List.nodup_nil⟩

/-- The first entry is free, and the others are loadable behind it. -/
theorem cons_iff {entry : String × Value} :
    Loadable store (.ok (name, value) :: results) (entry :: entries) ↔
      entry = (name, value) ∧ store.contains name = false ∧
        Loadable (store.set name value) results entries := by
  constructor
  · rintro ⟨read, free, distinct⟩
    rw [List.map_cons, List.cons_prefix_cons] at read
    obtain ⟨same, read⟩ := read
    cases same
    obtain ⟨freeHere, freeLater⟩ := List.forall_mem_cons.mp free
    obtain ⟨fresh, distinct⟩ := List.nodup_cons.mp distinct
    refine ⟨rfl, freeHere, read, fun other member => ?_, distinct⟩
    refine Bindings.contains_set_eq_false_iff.mpr
      ⟨fun same => ?_, freeLater other member⟩
    exact fresh (List.mem_map.mpr ⟨other, member, same⟩)
  · rintro ⟨rfl, freeHere, read, free, distinct⟩
    refine ⟨?_, ?_, ?_⟩
    · rw [List.map_cons, List.cons_prefix_cons]
      exact ⟨rfl, read⟩
    · refine List.forall_mem_cons.mpr ⟨freeHere, fun other member => ?_⟩
      exact (Bindings.contains_set_eq_false_iff.mp (free other member)).2
    · rw [List.map_cons, List.nodup_cons]
      refine ⟨fun member => ?_, distinct⟩
      obtain ⟨other, among, same⟩ := List.mem_map.mp member
      exact (Bindings.contains_set_eq_false_iff.mp (free other among)).1 same

theorem not_of_nil {entry : String × Value} :
    ¬ Loadable store [] (entry :: entries) := by
  rintro ⟨read, -, -⟩
  exact List.cons_ne_nil _ _ (List.prefix_nil.mp read)

theorem not_of_error {failure : ParseError} {entry : String × Value} :
    ¬ Loadable store (.error failure :: results) (entry :: entries) := by
  rintro ⟨read, -, -⟩
  rw [List.map_cons, List.cons_prefix_cons] at read
  cases read.1

theorem not_of_taken {entry : String × Value}
    (taken : store.contains name = true) :
    ¬ Loadable store (.ok (name, value) :: results) (entry :: entries) := by
  intro loadable
  rw [cons_iff, taken] at loadable
  cases loadable.2.1

end Loadable

namespace LongestLoadable

variable {store : Bindings} {results : List StatementResult}
  {entries : List (String × Value)} {name : String} {value : Value}

/-- Nothing is loadable if the first statement is not. -/
theorem nil (ends : ∀ entry entries,
    ¬ Loadable store results (entry :: entries)) :
    LongestLoadable store results [] where
  toLoadable := .nil store results
  longest others loadable := by
    cases others with
    | nil => exact List.prefix_rfl
    | cons entry entries => exact absurd loadable (ends entry entries)

theorem cons (free : store.contains name = false)
    (later : LongestLoadable (store.set name value) results entries) :
    LongestLoadable store (.ok (name, value) :: results)
      ((name, value) :: entries) where
  toLoadable := Loadable.cons_iff.mpr ⟨rfl, free, later.toLoadable⟩
  longest others loadable := by
    cases others with
    | nil => exact List.nil_prefix
    | cons entry others =>
        obtain ⟨rfl, -, rest⟩ := Loadable.cons_iff.mp loadable
        rw [List.cons_prefix_cons]
        exact ⟨rfl, later.longest others rest⟩

end LongestLoadable

/-- Loading takes the statements as they come up to the first that cannot be
loaded. -/
theorem loadStatements_longest (dialect : Dialect) (fuel : Nat)
    (store : Bindings) (session : Session) :
    let loaded := loadStatements dialect fuel store session
    ∃ entries,
      LongestLoadable store
        (statementsFrom dialect fuel session.cursor).1 entries ∧
      loaded.1.entries.Perm (store.entries ++ entries) ∧
      loaded.2.1 = entries.length := by
  -- Both readers spend their fuel statement by statement.
  induction fuel generalizing store session with
  | zero =>
      exact ⟨[], .nil fun _ _ => Loadable.not_of_nil,
        by simp [loadStatements], rfl⟩
  | succ fuel ih =>
      rw [loadStatements, statementsFrom]
      split
      · exact ⟨[], .nil fun _ _ => Loadable.not_of_nil, by simp, rfl⟩
      · unfold Session.attempt
        cases parseStatement dialect session.cursor with
        | error failure next =>
            exact ⟨[], .nil fun _ _ => Loadable.not_of_error, by simp, rfl⟩
        | ok entry next =>
            obtain ⟨name, value⟩ := entry
            dsimp only
            rw [Bindings.define?]
            cases taken : store.contains name with
            | true =>
                exact ⟨[], .nil fun _ _ => Loadable.not_of_taken taken,
                  by simp, rfl⟩
            | false =>
                obtain ⟨entries, longest, permuted, count⟩ :=
                  ih (store.set name value) { session with cursor := next }
                refine ⟨(name, value) :: entries, longest.cons taken, ?_, ?_⟩
                · have put := store.perm_set_of_free taken value
                  exact (permuted.trans (put.append_right entries)).trans
                    List.perm_middle.symm
                · rw [List.length_cons, ← count]
                  rfl

theorem Machine.loadSource_longest {ν : Type} (machine : Machine ν)
    (session : Session) :
    ∃ entries,
      LongestLoadable machine.store
        (statements machine.dialect session.cursor).1 entries ∧
      (machine.loadSource session).1.store.entries.Perm
        (machine.store.entries ++ entries) ∧
      (machine.loadSource session).2.1 = entries.length :=
  loadStatements_longest machine.dialect (session.cursor.rest.length + 1)
    machine.store session

/-- What a fresh machine loads from a text, compared with what an assembly
makes of it. -/
structure LoadersAgree {ν : Type} (text : String)
    (loaded : Machine ν × Nat × Session) (assembly : Assembly) : Prop where
  /-- What is loaded has the same value in the assembly. -/
  within : ∀ {name value}, loaded.1.store.get? name = some value →
    assembly.store.get? name = some value
  /-- Loaded are the statements in front of the first one that fails or
  repeats a name. -/
  longest : ∃ entries,
    LongestLoadable .empty (statements .standard (.ofText text)).1 entries ∧
      entries <+: (parseProgram .standard text).1 ∧
      loaded.1.store.entries.Perm entries ∧ loaded.2.1 = entries.length
  /-- If the assembly reports no error, everything is loaded. -/
  whole : (∀ report ∈ assembly.reports, report.errors = 0) →
    loaded.1.store = assembly.store ∧ loaded.2.1 = assembly.size

/-- Entries that were read first are the first of all entries. -/
theorem prefix_entriesOf {results : List StatementResult}
    {entries : List (String × Value)}
    (read : entries.map Except.ok <+: results) :
    entries <+: entriesOf results := by
  obtain ⟨rest, rfl⟩ := read
  refine ⟨entriesOf rest, ?_⟩
  rw [entriesOf, entriesOf, List.filterMap_append, List.filterMap_map]
  congr 1
  exact List.filterMap_some.symm

/-- If no statement fails, the entries are all results. -/
theorem map_ok_entriesOf {results : List StatementResult}
    (read : results.countP (fun result => !result.isOk) = 0) :
    (entriesOf results).map Except.ok = results := by
  rw [List.countP_eq_zero] at read
  induction results with
  | nil => rfl
  | cons result results ih =>
      obtain ⟨here, later⟩ := List.forall_mem_cons.mp read
      cases result with
      | error failure => exact absurd rfl here
      | ok entry => exact congrArg (Except.ok entry :: ·) (ih later)

/-- If the names differ, each of them has the value of its entry. -/
theorem lookup_eq_some_iff_mem {entries : List (String × Value)}
    (distinct : (entries.map Prod.fst).Nodup) {name : String}
    {value : Value} :
    entries.lookup name = some value ↔ (name, value) ∈ entries := by
  rw [List.lookup_eq_some_iff]
  constructor
  · rintro ⟨before, after, rfl, -⟩
    exact List.mem_append_cons_self
  · intro member
    obtain ⟨before, after, rfl⟩ := List.append_of_mem member
    refine ⟨before, after, rfl, fun entry earlier => ?_⟩
    rw [List.map_append, List.nodup_append] at distinct
    have differs := distinct.2.2 entry.1 (List.mem_map_of_mem earlier) name
      (by simp)
    simpa using differs.symm

/-- An assembly that reports no error for its only source has read all of its
statements, and their names differ. -/
theorem Assembly.loadable_of_errorless {source text : String}
    (errorless : ∀ report ∈ (addSource {} source text).reports,
      report.errors = 0) :
    Loadable .empty (statements .standard (.ofText text)).1
      (parseProgram .standard text).1 := by
  have reports := @reports_addSource {} [] (by simp [Bindings.contains])
    (source, text)
  have counted : (reportOn [] (source, text)).errors = 0 := by
    refine errorless _ ?_
    rw [reports]
    exact List.mem_append_right _ List.mem_cons_self
  obtain ⟨unfailing, unrepeated⟩ := Nat.add_eq_zero_iff.mp counted
  refine ⟨?_, fun _ _ => rfl, (countRepeated_eq_zero_iff.mp unrepeated).1⟩
  exact (map_ok_entriesOf unfailing).symm ▸ List.prefix_rfl

/-- A machine and an assembly agree on every text, up to where the machine
stops. -/
theorem text_loaders_agree {ν : Type} (source text : String) :
    LoadersAgree text (({} : Machine ν).loadSource (.ofText text))
      (Assembly.addSource {} source text) := by
  obtain ⟨entries, longest, permuted, count⟩ :=
    ({} : Machine ν).loadSource_longest (.ofText text)
  generalize ({} : Machine ν).loadSource (.ofText text) = loaded at *
  have parsed : entries <+: (parseProgram .standard text).1 :=
    prefix_entriesOf longest.read
  have inMachine : ∀ name value,
      loaded.1.store.get? name = some value ↔ (name, value) ∈ entries := by
    intro name value
    rw [Bindings.get?_eq_some_iff, permuted.mem_iff]
    rfl
  have inAssembly : ∀ name,
      (Assembly.addSource {} source text).store.get? name =
        (parseProgram .standard text).1.lookup name := by
    intro name
    rw [Assembly.store_addSource, Bindings.get?_gather]
    exact Option.none_or
  refine ⟨?_, ⟨entries, longest, parsed, permuted, count⟩, ?_⟩
  · intro name value found
    obtain ⟨rest, split⟩ := parsed
    have first := (lookup_eq_some_iff_mem longest.distinct).mpr
      ((inMachine name value).mp found)
    rw [inAssembly, ← split, List.lookup_append, first, Option.some_or]
  · intro errorless
    have whole := Assembly.loadable_of_errorless errorless
    have all : entries = (parseProgram .standard text).1 :=
      parsed.sublist.antisymm (longest.longest _ whole).sublist
    have same : loaded.1.store =
        (Assembly.addSource {} source text).store := by
      refine Bindings.eq_of_get?_eq fun name => Option.ext fun value => ?_
      rw [inAssembly, inMachine, ← all,
        lookup_eq_some_iff_mem longest.distinct]
    refine ⟨same, ?_⟩
    rw [count, Assembly.size, ← same]
    exact permuted.length_eq.symm

/-- A machine stops at the second statement for a name, an assembly goes on
behind it. -/
theorem loaders_part_at_repeated_name :
    let text :=
      "value a number 1 value b empty value a number 2 value c empty"
    let loaded := ({} : Machine Empty).loadSource (.ofText text)
    let assembly := Assembly.addSource {} "letters" text
    loaded.2.1 = 2 ∧ assembly.size = 3 ∧
      LoadersAgree text loaded assembly := by
  intro text loaded assembly
  have count : loaded.2.1 = 2 := by decide +kernel
  have size : assembly.size = 3 := by decide +kernel
  exact ⟨count, size, text_loaders_agree "letters" text⟩

end StackAssembly
