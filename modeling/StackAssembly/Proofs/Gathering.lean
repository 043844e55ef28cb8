import Mathlib.Data.List.Basic
import StackAssembly.Proofs.Assembly
import StackAssembly.Proofs.Machine.Bindings

/-!
# What an assembly gathers

The sources of an assembly are one sequence of statements, source by source.
Of each name the first statement counts, and everything else is left out and
reported with the source it stands in.  Nothing is lost between the store and
the reports.  The order of sources matters only for names that several of them
define.
-/

namespace StackAssembly

/-- The number of names that are given or stand in front of themselves. -/
def countRepeated (given : List String) : List String → Nat
  | [] => 0
  | name :: names =>
      (if name ∈ given then 1 else 0) + countRepeated (name :: given) names

/-- No name is repeated if the names differ from each other and from those
given. -/
theorem countRepeated_eq_zero_iff {given names : List String} :
    countRepeated given names = 0 ↔
      names.Nodup ∧ ∀ name ∈ names, name ∉ given := by
  induction names generalizing given with
  | nil => simp [countRepeated]
  | cons name names ih =>
      rw [countRepeated, Nat.add_eq_zero_iff, ih, List.nodup_cons,
        List.forall_mem_cons]
      simp only [ite_eq_right_iff, Nat.one_ne_zero, imp_false, List.mem_cons,
        not_or]
      constructor
      · rintro ⟨fresh, distinct, others⟩
        exact ⟨⟨fun member => (others name member).1 rfl, distinct⟩, fresh,
          fun other member => (others other member).2⟩
      · rintro ⟨⟨absent, distinct⟩, fresh, others⟩
        exact ⟨fresh, distinct, fun other member =>
          ⟨fun same => absent (same ▸ member), others other member⟩⟩

namespace Bindings

/-- Gathering binds the first entry, if its name is free, and then the
others. -/
theorem gather_cons (store : Bindings) (entry : String × Value)
    (entries : List (String × Value)) :
    store.gather (entry :: entries) =
      let later := (store.setIfFree entry.1 entry.2).gather entries
      (later.1,
        if store.contains entry.1 then entry.1 :: later.2 else later.2) := by
  obtain ⟨name, value⟩ := entry
  rw [gather, setIfFree, define?]
  cases store.contains name <;> rfl

/-- What is bound stays, and of each other name the first value counts. -/
theorem get?_gather (store : Bindings) (entries : List (String × Value))
    (name : String) :
    (store.gather entries).1.get? name =
      (store.get? name).or (entries.lookup name) := by
  induction entries generalizing store with
  | nil => rw [gather, List.lookup_nil, Option.or_none]
  | cons entry entries ih =>
      rw [gather_cons]
      dsimp only
      rw [ih, get?_setIfFree, Option.or_assoc, List.lookup_cons]
      split
      · next same => rw [beq_iff_eq.mpr same, Option.some_or]
      · next differs => rw [beq_false_of_ne differs, Option.none_or]

/-- The names that gathering leaves out are those that occur in front. -/
theorem length_repeated (store : Bindings)
    (entries : List (String × Value)) {given : List String}
    (bound : ∀ name, store.contains name = true ↔ name ∈ given) :
    (store.gather entries).2.length =
      countRepeated given (entries.map Prod.fst) := by
  induction entries generalizing store given with
  | nil => rfl
  | cons entry entries ih =>
      have boundLater : ∀ name,
          (store.setIfFree entry.1 entry.2).contains name = true ↔
            name ∈ entry.1 :: given := by
        intro name
        rw [contains_setIfFree, bound, List.mem_cons]
      rw [gather_cons, List.map_cons, countRepeated, ← ih _ boundLater]
      split
      · next taken =>
          rw [if_pos ((bound _).mp taken), List.length_cons, Nat.add_comm]
      · next free =>
          rw [if_neg fun member => free ((bound _).mpr member), Nat.zero_add]

/-- What gathering leaves out are names of entries. -/
theorem repeated_sublist (store : Bindings)
    (entries : List (String × Value)) :
    (store.gather entries).2.Sublist (entries.map Prod.fst) := by
  induction entries generalizing store with
  | nil => exact List.Sublist.slnil
  | cons entry entries ih =>
      rw [gather_cons, List.map_cons]
      split
      · exact (ih _).cons_cons entry.1
      · exact (ih _).cons entry.1

/-- Every entry is either bound or left out. -/
theorem size_gather (store : Bindings) (entries : List (String × Value)) :
    (store.gather entries).1.size + (store.gather entries).2.length =
      store.size + entries.length := by
  induction entries generalizing store with
  | nil => rfl
  | cons entry entries ih =>
      have later := ih (store.setIfFree entry.1 entry.2)
      rw [gather_cons, List.length_cons]
      cases taken : store.contains entry.1 with
      | true =>
          rw [setIfFree_of_taken taken] at later ⊢
          simp only [if_true, List.length_cons]
          omega
      | false =>
          rw [setIfFree_of_free taken] at later ⊢
          rw [size_set_of_free taken] at later
          simp only [Bool.false_eq_true, if_false]
          omega

end Bindings

namespace Assembly

/-- The statements of a source that can be read. -/
def statementsIn (source : String × String) : List (String × Value) :=
  (Source.parseProgram .standard source.2).1

/-- The names of these statements. -/
def namesIn (source : String × String) : List String :=
  (statementsIn source).map Prod.fst

/-- The number of statements of a source that fail. -/
def failuresIn (source : String × String) : Nat :=
  (Source.statements .standard (.ofText source.2)).1.countP
    fun result => !result.isOk

/-- The report about a source, given the names of the statements in front of
it. -/
def reportOn (given : List String) (source : String × String) :
    SourceReport :=
  let repeated := countRepeated given (namesIn source)
  { source := source.1
    loaded := (namesIn source).length - repeated
    errors := failuresIn source + repeated }

theorem mem_namesIn_of_lookup {source : String × String} {name : String}
    {value : Value} (found : (statementsIn source).lookup name = some value) :
    name ∈ namesIn source := by
  obtain ⟨before, after, split, -⟩ := List.lookup_eq_some_iff.mp found
  rw [namesIn, split]
  simp

theorem length_parseErrors (source : String × String) :
    (Source.parseProgram .standard source.2).2.length =
      failuresIn source := by
  simp only [Source.parseProgram, Source.errorsOf, failuresIn,
    List.length_filterMap_eq_countP]
  refine List.countP_congr fun result member => ?_
  cases result <;> simp [Except.isOk, Except.toBool]

section Sources

variable (assembly : Assembly)

theorem addSources_append (first second : List (String × String)) :
    assembly.addSources (first ++ second) =
      (assembly.addSources first).addSources second :=
  List.foldl_append

theorem addSources_cons (source : String × String)
    (sources : List (String × String)) :
    assembly.addSources (source :: sources) =
      (assembly.addSource source.1 source.2).addSources sources :=
  rfl

theorem get?_addSources (sources : List (String × String)) (name : String) :
    (assembly.addSources sources).store.get? name =
      (assembly.store.get? name).or
        ((sources.flatMap statementsIn).lookup name) := by
  induction sources generalizing assembly with
  | nil => exact Option.or_none.symm
  | cons source sources ih =>
      rw [addSources_cons, ih, store_addSource, Bindings.get?_gather,
        Option.or_assoc, List.flatMap_cons, List.lookup_append, statementsIn]

/-- The bound names are those of the statements. -/
theorem contains_addSources (sources : List (String × String))
    (name : String) :
    (addSources {} sources).store.contains name = true ↔
      name ∈ sources.flatMap namesIn := by
  have found : (addSources {} sources).store.get? name =
      (sources.flatMap statementsIn).lookup name :=
    get?_addSources {} sources name
  have named : sources.flatMap namesIn =
      (sources.flatMap statementsIn).map Prod.fst :=
    List.map_flatMap.symm
  rw [Bindings.contains, found, List.lookup_isSome_iff, named, List.mem_map]
  constructor
  · rintro ⟨entry, member, same⟩
    exact ⟨entry, member, (beq_iff_eq.mp same).symm⟩
  · rintro ⟨entry, member, same⟩
    exact ⟨entry, member, beq_iff_eq.mpr same.symm⟩

variable {assembly}

/-- A source is reported on with the names of the store as those given. -/
theorem reports_addSource {given : List String}
    (bound : ∀ name, assembly.store.contains name = true ↔ name ∈ given)
    (source : String × String) :
    (assembly.addSource source.1 source.2).reports =
      assembly.reports ++ [reportOn given source] := by
  have repeated := assembly.store.length_repeated (statementsIn source) bound
  rw [reportOn, namesIn, ← repeated]
  simp only [addSource, List.length_append, List.length_map,
    length_parseErrors, statementsIn]

/-- Reports stay when more sources are added. -/
theorem reports_kept_addSources (sources : List (String × String)) :
    assembly.reports <+: (assembly.addSources sources).reports := by
  induction sources generalizing assembly with
  | nil => exact List.prefix_rfl
  | cons source sources ih =>
      have added : assembly.reports <+:
          (assembly.addSource source.1 source.2).reports :=
        List.prefix_append _ _
      exact added.trans ih

theorem length_reports_addSources (sources : List (String × String)) :
    (assembly.addSources sources).reports.length =
      assembly.reports.length + sources.length := by
  induction sources generalizing assembly with
  | nil => rfl
  | cons source sources ih =>
      rw [addSources_cons, ih, addSource, List.length_append,
        List.length_singleton, List.length_cons, Nat.add_assoc,
        Nat.add_comm 1]

end Sources

/-- Whether nothing is lost between the store, the reports and the
diagnostics. -/
structure Balanced (assembly : Assembly) : Prop where
  loaded : (assembly.reports.map SourceReport.loaded).sum = assembly.size
  noted : assembly.diagnostics.length =
    (assembly.reports.map SourceReport.errors).sum

theorem Balanced.addSource {assembly : Assembly}
    (balanced : assembly.Balanced) (source : String × String) :
    (assembly.addSource source.1 source.2).Balanced := by
  obtain ⟨loaded, noted⟩ := balanced
  have each := assembly.store.size_gather (statementsIn source)
  have few := (assembly.store.repeated_sublist (statementsIn source)).length_le
  simp only [size] at loaded
  constructor
  · simp only [Assembly.addSource, size, List.map_append, List.map_cons,
      List.map_nil, List.sum_append, List.sum_singleton, List.length_map,
      loaded, statementsIn] at each few ⊢
    omega
  · simp only [Assembly.addSource, List.map_append, List.map_cons,
      List.map_nil, List.sum_append, List.sum_singleton, List.length_append,
      List.length_map, noted]

theorem balanced_addSources {assembly : Assembly}
    (balanced : assembly.Balanced) (sources : List (String × String)) :
    (assembly.addSources sources).Balanced := by
  induction sources generalizing assembly with
  | nil => exact balanced
  | cons source sources ih => exact ih (balanced.addSource source)

/-- Whether no name is defined by two of the sources. -/
def Apart (sources : List (String × String)) : Prop :=
  sources.Pairwise fun first second =>
    (namesIn first).Disjoint (namesIn second)

/-- If no name is defined by two sources, a name has the value that the one
source gives it. -/
theorem lookup_flatMap_eq_some_iff {sources : List (String × String)}
    (apart : Apart sources) {name : String} {value : Value} :
    (sources.flatMap statementsIn).lookup name = some value ↔
      ∃ source ∈ sources, (statementsIn source).lookup name = some value := by
  induction sources with
  | nil => simp
  | cons source sources ih =>
      obtain ⟨others, apartLater⟩ := List.pairwise_cons.mp apart
      rw [List.flatMap_cons, List.lookup_append, List.exists_mem_cons_iff,
        ← ih apartLater]
      cases found : (statementsIn source).lookup name with
      | none => simp
      | some first =>
          rw [Option.some_or]
          refine ⟨.inl, fun either => either.elim id fun foundLater => ?_⟩
          obtain ⟨other, member, foundThere⟩ := (ih apartLater).mp foundLater
          exact (others other member (mem_namesIn_of_lookup found)
            (mem_namesIn_of_lookup foundThere)).elim

/-- What an assembly of sources holds and reports. -/
structure GathersFirst (sources : List (String × String))
    (assembly : Assembly) : Prop where
  /-- Each name has the value of its first statement, and no other name is
  bound. -/
  store : ∀ name, assembly.store.get? name =
    (sources.flatMap statementsIn).lookup name
  /-- There is a report for each source. -/
  reported : assembly.reports.length = sources.length
  /-- It counts as errors the statements that fail and those whose names occur
  in front, be it in the same source or in one added before. -/
  report : ∀ {before source after}, sources = before ++ source :: after →
    assembly.reports[before.length]? =
      some (reportOn (before.flatMap namesIn) source)
  /-- The reports count each gathered value once. -/
  loaded : (assembly.reports.map SourceReport.loaded).sum = assembly.size
  /-- There is a diagnostic for each error. -/
  noted : assembly.diagnostics.length =
    (assembly.reports.map SourceReport.errors).sum
  /-- If no name is defined by two of the sources, their order does not
  matter. -/
  image : Apart sources → ∀ others, others.Perm sources →
    (addSources {} others).image = assembly.image

/-- Sources are gathered into the first values of their names, with reports
that account for everything else. -/
theorem sources_are_gathered (sources : List (String × String)) :
    GathersFirst sources (addSources {} sources) := by
  have bound : ∀ sources : List (String × String), ∀ name,
      (addSources {} sources).store.get? name =
        (sources.flatMap statementsIn).lookup name :=
    get?_addSources {}
  have balanced := @balanced_addSources {} ⟨rfl, rfl⟩ sources
  refine ⟨bound sources, ?_, ?_, balanced.loaded, balanced.noted, ?_⟩
  · rw [length_reports_addSources]
    exact Nat.zero_add _
  · rintro before source after rfl
    rw [addSources_append, addSources_cons]
    have first := reports_addSource (contains_addSources before) source
    have count : (addSources {} before).reports.length = before.length := by
      rw [length_reports_addSources]
      exact Nat.zero_add _
    have kept := @reports_kept_addSources
      ((addSources {} before).addSource source.1 source.2) after
    obtain ⟨more, split⟩ := kept
    rw [← split, first, ← count, List.append_assoc,
      List.getElem?_append_right (Nat.le_refl _), Nat.sub_self]
    rfl
  · intro apart others permuted
    have apartToo : Apart others :=
      (permuted.pairwise_iff List.disjoint_symm).mpr apart
    have same : (addSources {} others).store =
        (addSources {} sources).store := by
      refine Bindings.eq_of_get?_eq fun name => Option.ext fun value => ?_
      rw [bound, bound, lookup_flatMap_eq_some_iff apart,
        lookup_flatMap_eq_some_iff apartToo]
      simp only [permuted.mem_iff]
    rw [image, same, image]

/-- Two sources of which the first has a repeated and a failing statement. -/
theorem shapes_and_colors_are_gathered :
    let shapes :=
      ("shapes", "value side number 2 value side number 3 value")
    let colors := ("colors", "value red empty")
    let assembly := addSources {} [shapes, colors]
    Apart [shapes, colors] ∧
      assembly.reports =
        [{ source := "shapes", loaded := 1, errors := 2 },
          { source := "colors", loaded := 1, errors := 0 }] ∧
      assembly.size = 2 ∧ assembly.diagnostics.length = 2 ∧
      (addSources {} [colors, shapes]).image = assembly.image := by
  intro shapes colors assembly
  have inShapes : namesIn shapes = ["side", "side"] := by decide +kernel
  have inColors : namesIn colors = ["red"] := by decide +kernel
  have apart : Apart [shapes, colors] := by
    refine List.pairwise_pair.mpr ?_
    rw [inShapes, inColors]
    simp
  have reports : assembly.reports =
      [{ source := "shapes", loaded := 1, errors := 2 },
        { source := "colors", loaded := 1, errors := 0 }] := by
    decide +kernel
  have gathered := sources_are_gathered [shapes, colors]
  refine ⟨apart, reports, ?_, ?_,
    gathered.image apart _ (.swap shapes colors [])⟩
  · rw [← gathered.loaded, reports]
    rfl
  · rw [gathered.noted, reports]
    rfl

end Assembly
end StackAssembly
