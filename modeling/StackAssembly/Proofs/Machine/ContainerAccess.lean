import Mathlib.Order.Bounds.Basic
import StackAssembly.Proofs.Machine.ElementwiseMap
import StackAssembly.Proofs.Value.Extensionality

/-!
# Containers tell one story

What a container holds is what it has at its positions, of which there are as
many as its size.  The primitives that read an element, that search and that
append all speak of these positions, each with a way of its own to say that
something is missing: a table is read and searched by its keys, a set only
says whether it has a member, and the others answer with the first position.
Appending leaves all positions as they are and puts what is new behind them.
-/

namespace StackAssembly

/-- On every stack with the given operands on top, a primitive puts results in
their place or, if it refuses them, an error code above them.  Nothing else of
the machine is changed. -/
def Answers {ν : Type} (host : Host ν) (machine : Machine ν)
    (which : Primitive) (operands : List Value) (result : RuleResult) : Prop :=
  ∀ stack fuel,
    execute host (fuel + 1) (.primitive which)
      { machine with stack := operands ++ stack } =
    some (match result with
      | .ok results =>
          (.success, { machine with stack := results ++ stack })
      | .error code =>
          (.error,
            { machine with stack := .error code :: operands ++ stack }))

section Rules

variable {ν : Type} {machine : Machine ν} {which : Primitive}

/-- A rule that is applied to operands has the last word about them. -/
theorem answers_of_rule {host : Host ν} {rule : StackRule}
    {operands : List Value} {result : RuleResult}
    (rules : StackRule.ofPrimitive? machine.dialect which = some rule)
    (applied : ∀ stack,
      Attempt.apply { machine with stack := operands ++ stack } rule =
        .replace { machine with stack } operands result) :
    Answers host machine which operands result := by
  intro stack fuel
  simp only [execute, tryOperation, tryPrimitive, rules, applied]
  cases result <;> rfl

theorem answers_unary {rule : Value → RuleResult}
    (rules : StackRule.ofPrimitive? machine.dialect which =
      some (.unary rule)) (host : Host ν) (operand : Value) :
    Answers host machine which [operand] (rule operand) :=
  answers_of_rule rules fun _ => rfl

theorem answers_binary {rule : Value → Value → RuleResult}
    (rules : StackRule.ofPrimitive? machine.dialect which =
      some (.binary rule)) (host : Host ν) (first second : Value) :
    Answers host machine which [first, second] (rule first second) :=
  answers_of_rule rules fun _ => rfl

theorem answers_size (host : Host ν) (machine : Machine ν)
    (container : Value) :
    Answers host machine .size [container] (StackRule.count container) :=
  answers_unary rfl host container

theorem answers_element (host : Host ν) (machine : Machine ν)
    (key container : Value) :
    Answers host machine .element [key, container]
      (StackRule.element key container) :=
  answers_binary rfl host key container

theorem answers_find (host : Host ν) (machine : Machine ν)
    (needle container : Value) :
    Answers host machine .find [needle, container]
      (StackRule.search needle container) :=
  answers_binary rfl host needle container

theorem answers_append (host : Host ν) (machine : Machine ν)
    (value container : Value) :
    Answers host machine .append [value, container]
      (StackRule.grow value container) :=
  answers_binary rfl host value container

end Rules

namespace Value

variable {container value needle grown : Value} {elements : List Value}

/-- The positions at which a container has an element that equals a value. -/
def positions (container needle : Value) : Set Nat :=
  {position | ∃ element, container.elementAt? position = some element ∧
    element.Same needle}

/-- The elements that appending a value puts behind those of a container. -/
inductive Adds : Value → Value → List Value → Prop where
  | item {items value} : Adds (.tuple items) value [value]
  | member {members value}
      (new : ∀ member ∈ members, ¬ Value.Same value member) :
      Adds (.set members) value [value]
  | repeatedMember {members value}
      (repeated : ∃ member ∈ members, Value.Same value member) :
      Adds (.set members) value []
  | entry {entries key item}
      (new : ∀ entry ∈ entries, ¬ Value.Same key entry.1) :
      Adds (.table entries) (.pair key item) [.pair key item]
  | repeatedEntry {entries key item}
      (repeated : ∃ entry ∈ entries, Value.Same key entry.1) :
      Adds (.table entries) (.pair key item) []
  | text {text value written} (writes : value.Writes written) :
      Adds (.string text) value
        (written.toList.map fun letter => .character (Text.code letter))

theorem exists_members_of_kind (isSet : container.kind = .set) :
    ∃ members, container = .set members := by
  cases container with
  | set members => exact ⟨members, rfl⟩
  | operation body => cases body <;> cases isSet
  | _ => cases isSet

theorem exists_entries_of_kind (isTable : container.kind = .table) :
    ∃ entries, container = .table entries := by
  cases container with
  | table entries => exact ⟨entries, rfl⟩
  | operation body => cases body <;> cases isTable
  | _ => cases isTable

theorem elementAt?_eq (held : container.elements? = some elements)
    (position : Nat) :
    container.elementAt? position = elements[position]? := by
  rw [elementAt?, held, Option.bind_some]

theorem mem_positions_iff (held : container.elements? = some elements)
    {position : Nat} :
    position ∈ container.positions needle ↔
      ∃ element, elements[position]? = some element ∧
        element.Same needle := by
  simp only [positions, Set.mem_ofPred_eq, elementAt?_eq held]

theorem positions_nonempty_iff (held : container.elements? = some elements) :
    (container.positions needle).Nonempty ↔
      ∃ element ∈ elements, element.Same needle := by
  constructor
  · rintro ⟨position, here⟩
    obtain ⟨element, stands, same⟩ := (mem_positions_iff held).mp here
    exact ⟨element, List.mem_of_getElem? stands, same⟩
  · rintro ⟨element, member, same⟩
    obtain ⟨position, stands⟩ := List.getElem?_of_mem member
    exact ⟨position, (mem_positions_iff held).mpr ⟨element, stands, same⟩⟩

/-- The first element that equals a value is found at the least position. -/
theorem findIdx?_of_isLeast (held : container.elements? = some elements)
    {position : Nat} (least : IsLeast (container.positions needle) position) :
    elements.findIdx? (fun element => element.equal needle) =
      some position := by
  obtain ⟨element, stands, same⟩ := (mem_positions_iff held).mp least.1
  obtain ⟨inside, rfl⟩ := List.getElem?_eq_some_iff.mp stands
  refine List.findIdx?_eq_some_iff_getElem.mpr ⟨inside, same, ?_⟩
  intro earlier before also
  have stood := List.getElem?_eq_getElem (Nat.lt_trans before inside)
  have bound := least.2 ((mem_positions_iff held).mpr ⟨_, stood, also⟩)
  exact Nat.not_lt.mpr bound before

theorem findIdx?_of_empty (held : container.elements? = some elements)
    (nowhere : container.positions needle = ∅) :
    elements.findIdx? (fun element => element.equal needle) = none := by
  rw [List.findIdx?_eq_none_iff]
  intro element member
  rw [Set.eq_empty_iff_forall_notMem] at nowhere
  obtain ⟨position, stands⟩ := List.getElem?_of_mem member
  refine Bool.eq_false_iff.mpr fun same => nowhere position ?_
  exact (mem_positions_iff held).mpr ⟨element, stands, same⟩

/-- What is appended comes behind the elements, and the kind stays. -/
theorem adds_of_append (held : container.elements? = some elements)
    (appended : container.append value = .ok grown) :
    ∃ added, container.Adds value added ∧ grown.kind = container.kind ∧
      grown.elements? = some (elements ++ added) := by
  cases container with
  | tuple items =>
      cases held
      cases appended
      exact ⟨_, .item, rfl, rfl⟩
  | table entries =>
      cases held
      simp only [append] at appended
      split at appended
      · next key item paired =>
          obtain rfl := pair_of_pair?_eq_some paired
          cases appended
          rw [Entries.insert]
          split
          · next present =>
              obtain ⟨entry, member, same⟩ := List.any_eq_true.mp present
              exact ⟨_, .repeatedEntry ⟨entry, member, same⟩, rfl,
                by simp [elements?]⟩
          · next absent =>
              refine ⟨_, .entry fun entry member same => absent ?_, rfl,
                by simp [elements?]⟩
              exact List.any_eq_true.mpr ⟨entry, member, same⟩
      · cases appended
  | set members =>
      cases held
      cases appended
      rw [Members.insert]
      split
      · next present =>
          obtain ⟨member, among, same⟩ := List.any_eq_true.mp present
          exact ⟨_, .repeatedMember ⟨member, among, same⟩, rfl,
            by simp [elements?]⟩
      · next absent =>
          refine ⟨_, .member fun member among same => absent ?_, rfl, rfl⟩
          exact List.any_eq_true.mpr ⟨member, among, same⟩
  | string text =>
      cases held
      cases value with
      | string more =>
          cases appended
          exact ⟨_, .text .string, rfl, by simp [elements?]⟩
      | character code =>
          simp only [append] at appended
          split at appended
          · next letter scalar =>
              cases appended
              exact ⟨_, .text (writes_of_scalar? scalar), rfl,
                by simp [elements?]⟩
          · cases appended
      | _ => cases appended
  | _ => cases held

theorem Adds.accepts {added : List Value}
    (adds : container.Adds value added) : container.Accepts value := by
  cases adds with
  | item => exact .tuple
  | member => exact .set
  | repeatedMember => exact .set
  | entry => exact .table
  | repeatedEntry => exact .table
  | text writes => exact .string writes

/-- A container grows exactly by the values that it can take. -/
theorem exists_append_iff (held : container.elements? = some elements) :
    (∃ grown, container.append value = .ok grown) ↔
      container.Accepts value := by
  constructor
  · rintro ⟨grown, appended⟩
    obtain ⟨added, adds, -⟩ := adds_of_append held appended
    exact adds.accepts
  · intro accepts
    cases accepts with
    | tuple => exact ⟨_, rfl⟩
    | set => exact ⟨_, rfl⟩
    | table => exact ⟨_, rfl⟩
    | string writes =>
        cases writes with
        | string => exact ⟨_, rfl⟩
        | @character letter =>
            have scalar : Text.scalar? (Text.code letter) = some letter :=
              dif_pos letter.valid
            exact ⟨_, by simp only [append, scalar]; rfl⟩

/-- What is refused is handed back. -/
theorem rejection_of_append {rejection : Rejection}
    (rejected : container.append value = .error rejection) :
    rejection = ⟨value, .typeMismatch⟩ := by
  rw [append.eq_def] at rejected
  split at rejected
  · cases rejected
  · split at rejected <;> cases rejected
    rfl
  · cases rejected
  · split at rejected
    · cases rejected
    · split at rejected <;> cases rejected
      rfl
    · cases rejected
      rfl
  · cases rejected
    rfl

theorem elementAt?_table_eq_some_iff {entries : Entries} {position : Nat}
    {key item : Value} :
    (Value.table entries).elementAt? position = some (.pair key item) ↔
      entries[position]? = some (key, item) := by
  rw [elementAt?_eq rfl, List.getElem?_map, Option.map_eq_some_iff]
  constructor
  · rintro ⟨entry, here, same⟩
    exact @pair_injective entry (key, item) same ▸ here
  · intro here
    exact ⟨(key, item), here, rfl⟩

end Value

namespace Entries

variable {entries : Entries} {key found item : Value} {position : Nat}

/-- What stands under a key is found, wherever it stands. -/
theorem lookup?_of_position (unrepeated : entries.RepeatsNothing)
    (sound : key.RepeatsNothing)
    (stands : entries[position]? = some (found, item))
    (same : found.Same key) : entries.lookup? key = some item := by
  have member := List.mem_of_getElem? stands
  refine (lookup?_eq_some_iff unrepeated sound).mpr ⟨_, member, ?_, rfl⟩
  exact ((unrepeated.2 _ member).1.same_comm sound).mp same

/-- A key stands at one position only. -/
theorem position_unique (unrepeated : entries.RepeatsNothing)
    (sound : key.RepeatsNothing) {other : Nat} {found' item' : Value}
    (stands : entries[position]? = some (found, item))
    (same : found.Same key) (stands' : entries[other]? = some (found', item'))
    (same' : found'.Same key) : other = position := by
  have apart := List.pairwise_iff_getElem.mp (unrepeated.unshared sound)
  have back := ((unrepeated.2 _ (List.mem_of_getElem? stands)).1.same_comm
    sound).mp same
  have back' := ((unrepeated.2 _ (List.mem_of_getElem? stands')).1.same_comm
    sound).mp same'
  obtain ⟨inside, here⟩ := List.getElem?_eq_some_iff.mp stands
  obtain ⟨inside', here'⟩ := List.getElem?_eq_some_iff.mp stands'
  rcases Nat.lt_trichotomy other position with before | equal | behind
  · exact absurd ⟨by rwa [here'], by rwa [here]⟩
      (apart other position inside' inside before)
  · exact equal
  · exact absurd ⟨by rwa [here], by rwa [here']⟩
      (apart position other inside inside' behind)

/-- A key that stands nowhere is not found. -/
theorem lookup?_of_nowhere (unrepeated : entries.RepeatsNothing)
    (sound : key.RepeatsNothing)
    (nowhere : ∀ (position : Nat) (found item : Value),
      entries[position]? = some (found, item) → ¬ found.Same key) :
    entries.lookup? key = none := by
  rw [lookup?_eq_none_iff]
  intro entry member same
  obtain ⟨position, stands⟩ := List.getElem?_of_mem member
  exact nowhere position entry.1 entry.2 stands
    ((sound.same_comm (unrepeated.2 entry member).1).mp same)

end Entries

namespace StackRule

variable {container needle : Value} {elements : List Value}

theorem element_number (held : container.elements? = some elements)
    (noTable : container.kind ≠ .table) (word : UInt64) :
    element (.number word) container =
      match container.elementAt? word.toNat with
      | some element => .ok [element]
      | none => .error .outOfBounds := by
  cases container with
  | tuple => rfl
  | set => rfl
  | string => rfl
  | table => exact absurd rfl noTable
  | _ => cases held

/-- A search for a position goes through the elements. -/
theorem search_eq_position (held : container.elements? = some elements)
    (searchable : container.kind = .tuple ∨
      container.kind = .string ∧ needle.kind = .character) :
    search needle container =
      position (elements.findIdx? fun element => element.equal needle) := by
  cases container with
  | tuple =>
      cases held
      rfl
  | string text =>
      cases held
      cases needle with
      | character code =>
          rw [List.findIdx?_map]
          rfl
      | operation body =>
          cases body <;> simp [Value.kind, Operation.valueKind] at searchable
      | _ => simp [Value.kind] at searchable
  | table => simp [Value.kind] at searchable
  | set => simp [Value.kind] at searchable
  | _ => cases held

end StackRule

section Keyed

variable {ν : Type} {host : Host ν} {machine : Machine ν}

/-- A set says whether a value stands anywhere in it. -/
theorem answers_find_set {members : Members} {needle : Value}
    (unrepeated : members.RepeatsNothing) (sound : needle.RepeatsNothing) :
    ∃ truth, Answers host machine .find [needle, .set members]
        (.ok [.boolean truth]) ∧
      (truth = true ↔ ((Value.set members).positions needle).Nonempty) := by
  refine ⟨members.has needle, answers_find host machine needle _, ?_⟩
  rw [Members.has_iff, Value.positions_nonempty_iff rfl]
  exact exists_congr fun member => and_congr_right fun among =>
    sound.same_comm (unrepeated.2 member among)

variable {entries : Entries} {key : Value}

/-- A table answers with the value under a key, which stands once. -/
theorem answers_table_of_position (unrepeated : entries.RepeatsNothing)
    (sound : key.RepeatsNothing) {position : Nat} {found item : Value}
    (stands : (Value.table entries).elementAt? position =
      some (.pair found item)) (same : found.Same key) :
    Answers host machine .element [key, .table entries] (.ok [item]) ∧
    Answers host machine .find [key, .table entries] (.ok [item]) ∧
    ∀ other found' item',
      (Value.table entries).elementAt? other = some (.pair found' item') →
      found'.Same key → other = position := by
  have reads := answers_element host machine key (.table entries)
  have searches := answers_find host machine key (.table entries)
  rw [Value.elementAt?_table_eq_some_iff] at stands
  have looked := Entries.lookup?_of_position unrepeated sound stands same
  simp only [StackRule.element, StackRule.search, looked] at reads searches
  refine ⟨reads, searches, fun other found' item' stands' same' => ?_⟩
  rw [Value.elementAt?_table_eq_some_iff] at stands'
  exact Entries.position_unique unrepeated sound stands same stands' same'

/-- Reading a table fails under a key that stands nowhere, and searching it
gives the empty value. -/
theorem answers_table_of_nowhere (unrepeated : entries.RepeatsNothing)
    (sound : key.RepeatsNothing)
    (nowhere : ∀ position found item,
      (Value.table entries).elementAt? position =
        some (.pair found item) → ¬ Value.Same found key) :
    Answers host machine .element [key, .table entries]
      (.error .notFound) ∧
    Answers host machine .find [key, .table entries] (.ok [.empty]) := by
  have reads := answers_element host machine key (.table entries)
  have searches := answers_find host machine key (.table entries)
  have missed := Entries.lookup?_of_nowhere unrepeated sound
    fun position found item stands => nowhere position found item
      (Value.elementAt?_table_eq_some_iff.mpr stands)
  simp only [StackRule.element, StackRule.search, missed] at reads searches
  exact ⟨reads, searches⟩

end Keyed

/-- What a machine says of a container of a certain size. -/
structure Coheres {ν : Type} (host : Host ν) (machine : Machine ν)
    (container : Value) (size : Nat) : Prop where
  /-- It has elements at the positions below its size. -/
  occupied : ∀ position,
    (container.elementAt? position).isSome = true ↔ position < size
  /-- Its size is counted. -/
  counted : Answers host machine .size [container]
    (.ok [.number (.ofNat size)])
  /-- Unless it is a table, its elements are read by their positions. -/
  read : container.kind ≠ .table → ∀ word : UInt64,
    (∀ element, container.elementAt? word.toNat = some element →
      Answers host machine .element [.number word, container]
        (.ok [element])) ∧
    (container.elementAt? word.toNat = none →
      Answers host machine .element [.number word, container]
        (.error .outOfBounds))
  /-- In a tuple any value, and in a string any character, is found at the
  first position where it stands. -/
  searched : ∀ needle : Value,
    container.kind = .tuple ∨
      container.kind = .string ∧ needle.kind = .character →
    (∀ position, IsLeast (container.positions needle) position →
      Answers host machine .find [needle, container]
        (.ok [.number (.ofNat position)])) ∧
    (container.positions needle = ∅ →
      Answers host machine .find [needle, container] (.error .notFound))
  /-- A set says whether a value stands anywhere. -/
  asked : container.kind = .set → ∀ needle : Value, needle.RepeatsNothing →
    ∃ truth, Answers host machine .find [needle, container]
        (.ok [.boolean truth]) ∧
      (truth = true ↔ (container.positions needle).Nonempty)
  /-- A table is read and searched by its keys, none of which stands twice. -/
  keyed : container.kind = .table → ∀ key : Value, key.RepeatsNothing →
    (∀ position found item,
      container.elementAt? position = some (.pair found item) →
      found.Same key →
        Answers host machine .element [key, container] (.ok [item]) ∧
        Answers host machine .find [key, container] (.ok [item]) ∧
        ∀ other found' item',
          container.elementAt? other = some (.pair found' item') →
          found'.Same key → other = position) ∧
    ((∀ position found item,
      container.elementAt? position = some (.pair found item) →
        ¬ Value.Same found key) →
      Answers host machine .element [key, container] (.error .notFound) ∧
      Answers host machine .find [key, container] (.ok [.empty]))
  /-- It grows by the values that it can take, and by no others. -/
  takes : ∀ value, (∃ grown, container.append value = .ok grown) ↔
    container.Accepts value
  /-- Growing leaves its elements where they are and puts new ones behind. -/
  grown : ∀ value grown, container.append value = .ok grown →
    Answers host machine .append [value, container] (.ok [grown]) ∧
    grown.kind = container.kind ∧
    (∀ position < size,
      grown.elementAt? position = container.elementAt? position) ∧
    ∃ added, container.Adds value added ∧
      ∀ position, grown.elementAt? (size + position) = added[position]?
  /-- A value that is refused is handed back beside the container. -/
  refused : ∀ value rejection, container.append value = .error rejection →
    rejection.value = value ∧
    Answers host machine .append [value, container] (.error .typeMismatch)

/-- The primitives that count, read, search and append agree on what any
container of which nothing is repeated holds, and where. -/
theorem container_primitives_cohere {ν : Type} (host : Host ν)
    (machine : Machine ν) {container : Value} {size : Nat}
    (sized : container.size? = some size)
    (sound : container.RepeatsNothing) :
    Coheres host machine container size := by
  obtain ⟨elements, held, rfl⟩ := Option.map_eq_some_iff.mp sized
  constructor
  · intro position
    rw [Value.elementAt?_eq held]
    simp
  · have answers := answers_size host machine container
    rwa [StackRule.count, sized] at answers
  · intro noTable word
    have answers := answers_element host machine (.number word) container
    rw [StackRule.element_number held noTable] at answers
    constructor
    · intro element here
      rwa [here] at answers
    · intro missing
      rwa [missing] at answers
  · intro needle searchable
    have answers := answers_find host machine needle container
    rw [StackRule.search_eq_position held searchable] at answers
    constructor
    · intro position least
      rwa [Value.findIdx?_of_isLeast held least] at answers
    · intro nowhere
      rwa [Value.findIdx?_of_empty held nowhere] at answers
  · intro isSet needle soundNeedle
    obtain ⟨members, rfl⟩ := Value.exists_members_of_kind isSet
    exact answers_find_set (repeatsNothing_set.mp sound) soundNeedle
  · intro isTable key soundKey
    obtain ⟨entries, rfl⟩ := Value.exists_entries_of_kind isTable
    have unrepeated := repeatsNothing_table.mp sound
    exact ⟨fun position found item stands same =>
        answers_table_of_position unrepeated soundKey stands same,
      answers_table_of_nowhere unrepeated soundKey⟩
  · intro value
    exact Value.exists_append_iff held
  · intro value grown appended
    obtain ⟨added, adds, kind, all⟩ := Value.adds_of_append held appended
    have answers := answers_append host machine value container
    rw [StackRule.grow, appended] at answers
    refine ⟨answers, kind, fun position inside => ?_, added, adds,
      fun position => ?_⟩
    · rw [Value.elementAt?_eq all, Value.elementAt?_eq held,
        List.getElem?_append_left inside]
    · rw [Value.elementAt?_eq all,
        List.getElem?_append_right (Nat.le_add_right _ _),
        Nat.add_sub_cancel_left]
  · intro value rejection rejected
    obtain rfl := Value.rejection_of_append rejected
    have answers := answers_append host machine value container
    rw [StackRule.grow, rejected] at answers
    exact ⟨rfl, answers⟩

/-- A table is read under a set that was filled in another order than its key,
and it has nothing under a number.  In a text a letter is found where it
stands first, and a position behind the text is out of bounds. -/
theorem greetings_are_searched :
    let host : Host Empty := nofun
    let machine : Machine Empty := {}
    let key : Value := .set [.number 1, .number 2]
    let again : Value := .set [.number 2, .number 1]
    let table : Value := .table [(key, .string "a"), (.number 3, .empty)]
    let text : Value := .string "héllo"
    Answers host machine .element [again, table] (.ok [.string "a"]) ∧
    Answers host machine .find [again, table] (.ok [.string "a"]) ∧
    Answers host machine .element [.number 4, table] (.error .notFound) ∧
    Answers host machine .find [.number 4, table] (.ok [.empty]) ∧
    Answers host machine .append [.number 4, table] (.error .typeMismatch) ∧
    Answers host machine .size [text] (.ok [.number 5]) ∧
    Answers host machine .find [.character 0x6C, text] (.ok [.number 2]) ∧
    Answers host machine .element [.number 5, text] (.error .outOfBounds) ∧
    Answers host machine .append [.character 0x21, text]
      (.ok [.string "héllo!"]) := by
  intro host machine key again table text
  have soundKey : key.RepeatsNothing :=
    repeatsNothing_set_of_plain (by decide) (by decide)
  have soundAgain : again.RepeatsNothing :=
    repeatsNothing_set_of_plain (by decide) (by decide)
  have soundNumber : ∀ word, (Value.number word).RepeatsNothing :=
    fun _ => repeatsNothing_of_plain rfl
  have soundText : ∀ text, (Value.string text).RepeatsNothing :=
    fun _ => repeatsNothing_of_plain rfl
  have soundTable : table.RepeatsNothing :=
    repeatsNothing_table.mpr ⟨by decide, List.forall_mem_cons.mpr
      ⟨⟨soundKey, soundText "a"⟩, List.forall_mem_singleton.mpr
        ⟨soundNumber 3, repeatsNothing_of_plain rfl⟩⟩⟩
  have ofTable : Coheres host machine table 2 :=
    container_primitives_cohere host machine rfl soundTable
  have ofText : Coheres host machine text 5 :=
    container_primitives_cohere host machine rfl (soundText _)
  obtain ⟨reads, searches, -⟩ :=
    (ofTable.keyed rfl again soundAgain).1 0 key (.string "a") rfl rfl
  obtain ⟨fails, misses⟩ := (ofTable.keyed rfl (.number 4) (soundNumber 4)).2
    (by
      rintro (_ | _ | position) found item stands same
      · cases stands
        cases same
      · cases stands
        cases same
      · cases stands)
  refine ⟨reads, searches, fails, misses, (ofTable.refused _ _ rfl).2,
    ofText.counted, ?_, (ofText.read nofun 5).2 rfl,
    (ofText.grown _ _ rfl).1⟩
  refine ((ofText.searched (.character 0x6C) (.inr ⟨rfl, rfl⟩)).1 2 ⟨?_, ?_⟩)
  · exact ⟨.character 0x6C, rfl, rfl⟩
  · rintro (_ | _ | position) ⟨element, stands, same⟩
    · cases stands
      cases same
    · cases stands
      cases same
    · exact Nat.le_add_left 2 position

end StackAssembly
