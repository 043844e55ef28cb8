import StackAssembly.Proofs.Value.Reordering

/-!
# Equality is extensional

Tables are equal exactly if every key finds equal values in them, and sets
exactly if they have the same members.  In which order they were filled leaves
no trace.  Altogether, equality of whatever programs can build is an
equivalence that ignores the order of insertion and nothing else, and digests
respect it.
-/

namespace StackAssembly

section Laws

variable {first second third : Value}

theorem Value.RepeatsNothing.same_self (sound : first.RepeatsNothing) :
    first.Same first :=
  (reordering_equality.value first sound first sound).mpr
    (reflexive_reordering.value first)

theorem Value.RepeatsNothing.same_comm (one : first.RepeatsNothing)
    (two : second.RepeatsNothing) : first.Same second ↔ second.Same first :=
  one.coherentAt.symm second two

/-- Equal values are equal to the same others. -/
theorem Value.RepeatsNothing.same_congr (one : first.RepeatsNothing)
    (two : second.RepeatsNothing) (last : third.RepeatsNothing)
    (same : first.Same second) : first.Same third ↔ second.Same third :=
  one.coherentAt.congr second third two last same

/-- What is kept of items that are told apart by keys are the first with each
key. -/
theorem firsts_appendNew {α : Type} {key : α → Value} {items : List α}
    (sound : ∀ item ∈ items, (key item).RepeatsNothing) :
    Firsts (fun later earlier => (key later).equal (key earlier)) items
      (appendNew (fun later earlier => (key later).equal (key earlier)) []
        items) := by
  refine (keepsFirst_appendNew items).firsts sound ?_
  intro first second third one two last same onward
  exact (Value.RepeatsNothing.same_congr one two last same).mpr onward

end Laws

namespace Entries

variable {left right entries : Entries} {key : Value}

/-- What is found under a key belongs to the entry with an equal key. -/
theorem lookup?_eq_some_iff (unrepeated : entries.RepeatsNothing)
    (sound : key.RepeatsNothing) {value : Value} :
    entries.lookup? key = some value ↔
      ∃ entry ∈ entries, key.Same entry.1 ∧ entry.2 = value := by
  rw [lookup?, Option.map_eq_some_iff]
  refine exists_congr fun entry => ?_
  constructor
  · rintro ⟨found, rfl⟩
    have same := List.find?_some found
    exact ⟨List.mem_of_find?_eq_some found, same, rfl⟩
  · rintro ⟨member, same, rfl⟩
    exact ⟨find?_of_unshared (unrepeated.unshared sound) member same, rfl⟩

theorem lookup?_eq_none_iff :
    entries.lookup? key = none ↔ ∀ entry ∈ entries, ¬ key.Same entry.1 := by
  rw [lookup?, Option.map_eq_none_iff, List.find?_eq_none]

/-- Tables are equal if every key finds equal values in them, or nothing. -/
theorem same_iff_lookup? (one : left.RepeatsNothing)
    (two : right.RepeatsNothing) :
    Same left right ↔ ∀ key : Value, key.RepeatsNothing →
      Option.Rel Value.Same (left.lookup? key) (right.lookup? key) := by
  rw [same_iff one two]
  constructor
  · intro matched key sound
    cases found : left.lookup? key with
    | none =>
        rw [lookup?_eq_none_iff] at found
        have missing : right.lookup? key = none := by
          rw [lookup?_eq_none_iff]
          intro other among same
          have back := (one.coherentAt.symm right two).mp
            ((same_iff one two).mpr matched)
          obtain ⟨entry, member, keys, -⟩ :=
            ((same_iff two one).mp back).within other among
          exact found entry member ((sound.same_congr (two.2 other among).1
            (one.2 entry member).1 same).mpr keys)
        rw [missing]
        exact .none
    | some value =>
        obtain ⟨entry, member, same, rfl⟩ :=
          (lookup?_eq_some_iff one sound).mp found
        obtain ⟨other, among, keys, values⟩ := matched.within entry member
        have foundOther : right.lookup? key = some other.2 :=
          (lookup?_eq_some_iff two sound).mpr ⟨other, among,
            (sound.same_congr (one.2 entry member).1 (two.2 other among).1
              same).mpr keys, rfl⟩
        rw [foundOther]
        exact .some values
  · intro agree
    have within : ∀ entry ∈ left, ∃ other ∈ right, SameEntry entry other := by
      intro entry member
      have found := (lookup?_eq_some_iff one (one.2 entry member).1).mpr
        ⟨entry, member, (one.2 entry member).1.same_self, rfl⟩
      have both := agree entry.1 (one.2 entry member).1
      rw [found] at both
      cases foundOther : right.lookup? entry.1 with
      | none => rw [foundOther] at both; cases both
      | some value =>
          rw [foundOther] at both
          cases both with
          | some values =>
              obtain ⟨other, among, keys, rfl⟩ :=
                (lookup?_eq_some_iff two (one.2 entry member).1).mp foundOther
              exact ⟨other, among, keys, values⟩
    have back : ∀ other ∈ right, ∃ entry ∈ left, SameEntry entry other := by
      intro other among
      have found := (lookup?_eq_some_iff two (two.2 other among).1).mpr
        ⟨other, among, (two.2 other among).1.same_self, rfl⟩
      have both := agree other.1 (two.2 other among).1
      rw [found] at both
      cases foundEntry : left.lookup? other.1 with
      | none => rw [foundEntry] at both; cases both
      | some value =>
          rw [foundEntry] at both
          cases both with
          | some values =>
              obtain ⟨entry, member, keys, rfl⟩ :=
                (lookup?_eq_some_iff one (two.2 other among).1).mp foundEntry
              exact ⟨entry, member, ((two.2 other among).1.same_comm
                (one.2 entry member).1).mp keys, values⟩
    refine ⟨Nat.le_antisymm ?_ ?_, within⟩
    · exact length_le_of_within
        (fun other among => one.unsharedBy (two.2 other among)) within
    · refine length_le_of_within (fun entry member => ?_) back
      exact (two.unshared (one.2 entry member).1).imp
        fun apart both => apart ⟨both.1.1, both.2.1⟩

/-- Entries without repetition have none in any order. -/
theorem RepeatsNothing.perm {others : Entries}
    (unrepeated : entries.RepeatsNothing) (permutes : entries.Perm others) :
    others.RepeatsNothing := by
  have sound : ∀ entry ∈ others,
      entry.1.RepeatsNothing ∧ entry.2.RepeatsNothing :=
    fun entry member => unrepeated.2 entry (permutes.mem_iff.mpr member)
  refine ⟨?_, sound⟩
  have apart : others.Pairwise fun earlier later =>
      earlier.1.RepeatsNothing → later.1.RepeatsNothing →
        ¬ later.1.Same earlier.1 := by
    refine (permutes.pairwise_iff ?_).mp
      ((List.pairwise_map.mp unrepeated.1.keys).imp
        fun apart _ _ => apart)
    intro first second apart one two same
    exact apart two one ((two.same_comm one).mp same)
  refine apart.imp_of_mem fun one two apart => Bool.eq_false_iff.mpr ?_
  exact apart (sound _ one).1 (sound _ two).1

/-- Entries without repetition make equal tables in any order. -/
theorem same_of_perm {others : Entries} (unrepeated : entries.RepeatsNothing)
    (permutes : entries.Perm others) : Same entries others := by
  refine (same_iff unrepeated (unrepeated.perm permutes)).mpr
    (.ofOrder permutes (List.forall₂_same.mpr fun entry member => ?_))
  exact ⟨(unrepeated.2 entry member).1.same_self,
    (unrepeated.2 entry member).2.same_self⟩

/-- Inserting pairs one by one makes a table that repeats nothing. -/
theorem repeatsNothing_ofPairs {pairs : Entries}
    (sound : ∀ pair ∈ pairs,
      pair.1.RepeatsNothing ∧ pair.2.RepeatsNothing) :
    (ofPairs pairs).RepeatsNothing :=
  ⟨distinct_ofPairs pairs, fun pair member =>
    sound pair (mem_of_mem_ofPairs member)⟩

end Entries

namespace Members

variable {left right members values : Members} {value : Value}

theorem has_iff :
    members.has value = true ↔ ∃ member ∈ members, value.Same member := by
  rw [has, List.any_eq_true]

/-- Sets are equal if they have the same members. -/
theorem matched_iff_has (one : left.RepeatsNothing)
    (two : right.RepeatsNothing) :
    Matched Value.Same left right ↔ ∀ value : Value, value.RepeatsNothing →
      left.has value = right.has value := by
  have coherent := CoherentAt.matched
    (fun member among => (one.2 member among).coherentAt) one.2 one.1.apart
  constructor
  · intro matched value sound
    have back := (coherent.symm right ⟨two.2, two.1.apart⟩).mp matched
    rw [Bool.eq_iff_iff, has_iff, has_iff]
    constructor
    · rintro ⟨member, among, same⟩
      obtain ⟨other, found, onward⟩ := matched.within member among
      exact ⟨other, found, (sound.same_congr (one.2 member among)
        (two.2 other found) same).mpr onward⟩
    · rintro ⟨other, found, same⟩
      obtain ⟨member, among, onward⟩ := back.within other found
      exact ⟨member, among, (sound.same_congr (two.2 other found)
        (one.2 member among) same).mpr onward⟩
  · intro agree
    have within : ∀ member ∈ left, ∃ other ∈ right, member.Same other := by
      intro member among
      have sound := one.2 member among
      rw [← has_iff, ← agree member sound, has_iff]
      exact ⟨member, among, sound.same_self⟩
    have back : ∀ other ∈ right, ∃ member ∈ left, other.Same member := by
      intro other among
      have sound := two.2 other among
      rw [← has_iff, agree other sound, has_iff]
      exact ⟨other, among, sound.same_self⟩
    exact ⟨Nat.le_antisymm
      (length_le_of_within
        (fun other among => one.unsharedBy (two.2 other among)) within)
      (length_le_of_within
        (fun member among => two.unsharedBy (one.2 member among)) back),
      within⟩

/-- Inserting values one by one makes a set that repeats nothing. -/
theorem repeatsNothing_ofValues
    (sound : ∀ value ∈ values, value.RepeatsNothing) :
    (ofValues values).RepeatsNothing :=
  ⟨distinct_ofValues values, fun value member =>
    sound value (mem_of_mem_ofValues member)⟩

/-- A set has exactly the values that were put in. -/
theorem has_ofValues (sound : ∀ value ∈ values, value.RepeatsNothing)
    (good : value.RepeatsNothing) :
    (ofValues values).has value = true ↔
      ∃ other ∈ values, value.Same other := by
  rw [has_iff]
  constructor
  · rintro ⟨member, among, same⟩
    exact ⟨member, mem_of_mem_ofValues among, same⟩
  · rintro ⟨other, among, same⟩
    rw [ofValues, insertAll_eq_appendNew]
    rcases @mem_appendNew_or_repeated _ Value.equal [] values other among with
      kept | ⟨earlier, kept, repeated⟩
    · exact ⟨other, kept, same⟩
    · have goodEarlier : earlier.RepeatsNothing := by
        refine sound earlier ?_
        simpa using mem_of_mem_appendNew kept
      exact ⟨earlier, kept, (good.same_congr (sound other among) goodEarlier
        same).mpr repeated⟩

/-- Values make equal sets in any order, with repetitions or without. -/
theorem matched_ofValues_of_perm {others : Members}
    (sound : ∀ value ∈ values, value.RepeatsNothing)
    (permutes : values.Perm others) :
    Matched Value.Same (ofValues values) (ofValues others) := by
  have soundOthers : ∀ value ∈ others, value.RepeatsNothing :=
    fun value member => sound value (permutes.mem_iff.mpr member)
  refine (matched_iff_has (repeatsNothing_ofValues sound)
    (repeatsNothing_ofValues soundOthers)).mpr fun value good => ?_
  rw [Bool.eq_iff_iff, has_ofValues sound good, has_ofValues soundOthers good]
  exact exists_congr fun other => and_congr_left fun _ => permutes.mem_iff

end Members

/-- What makes a comparison of things of some kind sound: it is an equivalence
that ignores the order of insertion, at whatever depth, and nothing else, and
equal things feed the same words to every digest. -/
structure SoundComparison {α : Type} (sound : α → Prop)
    (equal : α → α → Bool) (reordered : α → α → Prop)
    (words : DigestFunction → α → List UInt64) : Prop where
  refl : ∀ item, sound item → equal item item = true
  symm : ∀ first second, sound first → sound second →
    equal first second = equal second first
  trans : ∀ first second third, sound first → sound second → sound third →
    equal first second = true → equal second third = true →
      equal first third = true
  upToOrder : ∀ first second, sound first → sound second →
    (equal first second = true ↔ reordered first second)
  sameWords : ∀ first second, sound first → sound second →
    equal first second = true → ∀ digest, words digest first =
      words digest second

/-- A comparison that is coherent, and that comes to reordering, is sound if
reorderings feed the same words. -/
theorem SoundComparison.ofCoherent {α : Type} {sound : α → Prop}
    {equal : α → α → Bool} {reordered : α → α → Prop}
    {words : DigestFunction → α → List UInt64}
    (coherent : ∀ item, sound item →
      CoherentAt sound (fun first second => equal first second = true) item)
    (upToOrder : ∀ first, sound first → ∀ second, sound second →
      (equal first second = true ↔ reordered first second))
    (refl : ∀ item, reordered item item)
    (same : ∀ digest first second, reordered first second →
      words digest first = words digest second) :
    SoundComparison sound equal reordered words where
  refl item good := (upToOrder item good item good).mpr (refl item)
  symm first second one two :=
    Bool.eq_iff_iff.mpr ((coherent first one).symm second two)
  trans first second third one two last here there :=
    ((coherent first one).congr second third two last here).mpr there
  upToOrder first second one two := upToOrder first one second two
  sameWords first second one two equals digest :=
    same digest first second ((upToOrder first one second two).mp equals)

/-- Equality of values and of operations is sound if they repeat nothing, as
nothing does that is built by inserting.  Tables are equal exactly if every
key finds equal values in them or nothing in either, and sets exactly if they
have the same members, so values make equal sets and entries with distinct
keys make equal tables in whatever order they are inserted. -/
theorem equality_is_extensional :
    SoundComparison Value.RepeatsNothing Value.equal Value.Reordered
      Value.words ∧
    SoundComparison Operation.RepeatsNothing Operation.equal
      Operation.Reordered Operation.words ∧
    (∀ left right : Entries,
      (Value.table left).RepeatsNothing →
      (Value.table right).RepeatsNothing →
        ((Value.table left).equal (.table right) = true ↔
          ∀ key : Value, key.RepeatsNothing →
            Option.Rel Value.Same (left.lookup? key) (right.lookup? key))) ∧
    (∀ left right : Members,
      (Value.set left).RepeatsNothing → (Value.set right).RepeatsNothing →
        ((Value.set left).equal (.set right) = true ↔
          ∀ value : Value, value.RepeatsNothing →
            left.has value = right.has value)) ∧
    (∀ pairs others : List (Value × Value),
      (∀ pair ∈ pairs, pair.1.RepeatsNothing ∧ pair.2.RepeatsNothing) →
      pairs.Perm others →
        (Value.table (Entries.ofPairs pairs)).RepeatsNothing ∧
        (Entries.Distinct pairs →
          (Value.table (Entries.ofPairs pairs)).equal
            (.table (Entries.ofPairs others)) = true)) ∧
    (∀ values others : List Value,
      (∀ value ∈ values, value.RepeatsNothing) → values.Perm others →
        (Value.set (Members.ofValues values)).RepeatsNothing ∧
        (Value.set (Members.ofValues values)).equal
          (.set (Members.ofValues others)) = true) := by
  refine ⟨?_, ?_, ?_, ?_, ?_, ?_⟩
  · exact .ofCoherent coherent_equality.value reordering_equality.value
      reflexive_reordering.value
      fun digest => (words_of_reordering digest).value
  · exact .ofCoherent coherent_equality.ofBody reordering_equality.ofBody
      reflexive_reordering.ofBody
      fun digest => (words_of_reordering digest).ofBody
  · intro left right one two
    rw [← Entries.same_iff_lookup? (repeatsNothing_table.mp one)
      (repeatsNothing_table.mp two)]
    exact same_table_iff.trans (by simp)
  · intro left right one two
    rw [← Members.matched_iff_has (repeatsNothing_set.mp one)
      (repeatsNothing_set.mp two)]
    exact same_set_iff.trans (by simp)
  · intro pairs others sound permutes
    refine ⟨repeatsNothing_table.mpr (Entries.repeatsNothing_ofPairs sound),
      fun distinct => ?_⟩
    have unrepeated : Entries.RepeatsNothing pairs := ⟨distinct, sound⟩
    rw [Entries.ofPairs_of_distinct distinct,
      Entries.ofPairs_of_distinct (unrepeated.perm permutes).1]
    exact same_table_iff.mpr ⟨others, rfl, Entries.same_of_perm unrepeated
      permutes⟩
  · intro values others sound permutes
    exact ⟨repeatsNothing_set.mpr (Members.repeatsNothing_ofValues sound),
      same_set_iff.mpr ⟨_, rfl,
        Members.matched_ofValues_of_perm sound permutes⟩⟩

/-- A set under which a block stands that pushes another set. -/
def setUnderSet (members others : List Value) : Value :=
  .table [(.set members, .operation (.block [] [.push (.set others)]))]

theorem repeatsNothing_setUnderSet {members others : Members}
    (distinct : members.Distinct) (distinctOthers : others.Distinct)
    (plain : ∀ member ∈ members, member.isPlain = true)
    (plainOthers : ∀ member ∈ others, member.isPlain = true) :
    (setUnderSet members others).RepeatsNothing := by
  have sound := repeatsNothing_set_of_plain distinct plain
  have soundOthers := repeatsNothing_set_of_plain distinctOthers plainOthers
  simpa [setUnderSet, Entries.RepeatsNothing, Entries.Distinct, Unrepeated]
    using ⟨repeatsNothing_set.mp sound, repeatsNothing_set.mp soundOthers⟩

/-- A key and a constant in the value under it may both be filled in another
order. -/
theorem setUnderSet_in_other_order :
    let first := setUnderSet [.number 1, .number 2] [.empty, .number 3]
    let second := setUnderSet [.number 2, .number 1] [.number 3, .empty]
    first.RepeatsNothing ∧ second.RepeatsNothing ∧
      first.equal second = true ∧ first.Reordered second ∧
      ∀ digest, first.words digest = second.words digest := by
  intro first second
  have one : first.RepeatsNothing :=
    repeatsNothing_setUnderSet (by decide) (by decide) (by decide)
      (by decide)
  have two : second.RepeatsNothing :=
    repeatsNothing_setUnderSet (by decide) (by decide) (by decide)
      (by decide)
  have equal : first.equal second = true := by decide
  obtain ⟨values, -⟩ := equality_is_extensional
  exact ⟨one, two, equal, (values.upToOrder first second one two).mp equal,
    values.sameWords first second one two equal⟩

end StackAssembly
