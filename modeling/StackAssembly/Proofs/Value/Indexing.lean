import StackAssembly.Proofs.Value.Extensionality
import StackAssembly.Value.Indexed

/-!
# Collections hold the first items

However a table or a set was filled, it holds, of all items offered to it,
those with a key that none before them has, in the order in which they came.
At every moment the index says of a key what going through the items would
say.  So the search by index is the search that values do without one, and what
it finds under a key is what the first offer under this key brought.
-/

namespace StackAssembly

/-- Whether a map tells keys apart by their equality.  Nothing is asked about
keys that repeat something, which no program builds. -/
structure KeyMap.Lawful {μ : Type} (map : KeyMap μ) : Prop where
  find?_empty : ∀ key : Value, key.RepeatsNothing →
    map.find? map.empty key = none
  find?_insert : ∀ (content : map.Content) (key : Value) (mark : μ)
    (other : Value), key.RepeatsNothing → other.RepeatsNothing →
    map.find? (map.insert content key mark) other =
      if other.equal key then some mark else map.find? content other

theorem KeyMap.lawful_ofList (μ : Type) : (ofList μ).Lawful where
  find?_empty _ _ := rfl
  find?_insert content key mark other _ _ := by
    change List (Value × μ) at content
    cases same : other.equal key <;> simp [ofList, same]

namespace CollectionKind

variable {α μ : Type}

/-- Whether an item has the key of another. -/
def repeats (kind : CollectionKind α μ) (later earlier : α) : Bool :=
  (kind.key later).equal (kind.key earlier)

/-- Whether the key of an item is one that programs build. -/
def Sound (kind : CollectionKind α μ) (item : α) : Prop :=
  (kind.key item).RepeatsNothing

/-- Whether the containers of a kind are made of items: they grow by them and
have them as their elements. -/
structure Contains (kind : CollectionKind α μ) : Prop where
  append : ∀ items value, (kind.container items).append value =
    match kind.item? value with
    | some item => .ok (kind.container
        (if items.any (kind.repeats item) then items else items ++ [item]))
    | none => .error ⟨value, .typeMismatch⟩
  elements : ∀ items,
    (kind.container items).elements? = some (items.map kind.element)

theorem contains_table : table.Contains where
  append entries value := by
    simp only [table, Value.append]
    cases value.pair? <;> rfl
  elements _ := rfl

theorem contains_set : set.Contains where
  append _ _ := rfl
  elements members := by simp [set, Value.elements?]

end CollectionKind

namespace Indexed

variable {α μ : Type} {map : KeyMap μ} {kind : CollectionKind α μ}
  {collection : Indexed map α} {offered : List α} {item : α}

/-- Whether the index has a mark for the keys of the items, each made at the
position of the item, and for no other key. -/
def Mirrored (kind : CollectionKind α μ) (collection : Indexed map α) :
    Prop :=
  ∀ key : Value, key.RepeatsNothing → ∀ mark,
    map.find? collection.index key = some mark ↔
      ∃ position item, collection.items[position]? = some item ∧
        key.Same (kind.key item) ∧ kind.mark position = mark

theorem Mirrored.contains_iff (mirrored : collection.Mirrored kind)
    {key : Value} (sound : key.RepeatsNothing) :
    collection.contains key = true ↔
      ∃ item ∈ collection.items, key.Same (kind.key item) := by
  rw [contains, Option.isSome_iff_exists]
  constructor
  · rintro ⟨mark, found⟩
    obtain ⟨position, item, here, same, -⟩ :=
      (mirrored key sound mark).mp found
    exact ⟨item, List.mem_of_getElem? here, same⟩
  · rintro ⟨item, member, same⟩
    obtain ⟨position, here⟩ := List.getElem?_of_mem member
    exact ⟨kind.mark position,
      (mirrored key sound _).mpr ⟨position, item, here, same, rfl⟩⟩

/-- The index answers as going through the items would. -/
theorem Mirrored.contains_eq_any (mirrored : collection.Mirrored kind)
    (sound : kind.Sound item) :
    collection.contains (kind.key item) =
      collection.items.any (kind.repeats item) := by
  rw [Bool.eq_iff_iff, mirrored.contains_iff sound, List.any_eq_true]
  rfl

theorem mirrored_empty (lawful : map.Lawful) :
    ({} : Indexed map α).Mirrored kind := by
  intro key sound mark
  simp [lawful.find?_empty key sound]

/-- A new item and its mark are put where they belong. -/
theorem Mirrored.insert (mirrored : collection.Mirrored kind)
    (lawful : map.Lawful) (sound : kind.Sound item)
    (soundHeld : ∀ held ∈ collection.items, kind.Sound held) :
    (collection.insert kind item).1.Mirrored kind := by
  rw [Indexed.insert]
  split
  · exact mirrored
  · next new =>
      intro key soundKey mark
      rw [mirrored.contains_iff sound] at new
      rw [lawful.find?_insert _ _ _ _ sound soundKey]
      split
      · next same =>
          -- Whatever has this key is the new item, which stands at the end.
          constructor
          · intro found
            exact ⟨collection.items.length, item, by simp, same,
              Option.some_inj.mp found⟩
          · rintro ⟨position, held, here, sameHeld, rfl⟩
            rcases getElem?_concat_eq_some_iff.mp here with
              old | ⟨rfl, -⟩
            · have among := List.mem_of_getElem? old
              exact absurd ⟨held, among, (soundKey.same_congr sound
                (soundHeld held among) same).mp sameHeld⟩ new
            · rfl
      · next differs =>
          rw [mirrored key soundKey mark]
          constructor
          · rintro ⟨position, held, here, same, rfl⟩
            exact ⟨position, held, getElem?_concat_eq_some_iff.mpr (.inl here),
              same, rfl⟩
          · rintro ⟨position, held, here, same, rfl⟩
            rcases getElem?_concat_eq_some_iff.mp here with
              old | ⟨-, rfl⟩
            · exact ⟨position, held, old, same, rfl⟩
            · exact absurd same differs

/-- Whether a collection was filled with items, in this order: it keeps each
that repeats none kept before, and its index mirrors them. -/
structure FilledWith (kind : CollectionKind α μ) (offered : List α)
    (collection : Indexed map α) : Prop where
  items : collection.items = appendNew kind.repeats [] offered
  mirrored : collection.Mirrored kind

theorem FilledWith.mem_offered (filled : collection.FilledWith kind offered)
    (member : item ∈ collection.items) : item ∈ offered := by
  rw [filled.items] at member
  simpa using mem_of_mem_appendNew member

/-- What was offered is there, or what it repeats. -/
theorem FilledWith.mem_or_repeated
    (filled : collection.FilledWith kind offered) (member : item ∈ offered) :
    item ∈ collection.items ∨
      ∃ earlier ∈ collection.items, kind.repeats item earlier = true := by
  rw [filled.items]
  exact mem_appendNew_or_repeated member

theorem filledWith_nil (lawful : map.Lawful) :
    ({} : Indexed map α).FilledWith kind [] where
  items := rfl
  mirrored := mirrored_empty lawful

theorem FilledWith.insert (filled : collection.FilledWith kind offered)
    (lawful : map.Lawful) (sound : ∀ other ∈ offered, kind.Sound other)
    (soundItem : kind.Sound item) :
    (collection.insert kind item).1.FilledWith kind (offered ++ [item]) where
  items := by
    rw [appendNew_concat, ← filled.items, Indexed.insert,
      filled.mirrored.contains_eq_any soundItem]
    split <;> rfl
  mirrored := filled.mirrored.insert lawful soundItem fun held member =>
    sound held (filled.mem_offered member)

/-- One growth offers one item or, if a value is refused, none. -/
theorem FilledWith.grow {growth : Growth α}
    (filled : collection.FilledWith kind offered) (lawful : map.Lawful)
    (sound : ∀ other ∈ offered ++ (growth.item? kind).toList,
      kind.Sound other) :
    (collection.grow kind growth).FilledWith kind
      (offered ++ (growth.item? kind).toList) := by
  obtain ⟨soundBefore, soundItem⟩ := List.forall_mem_append.mp sound
  cases growth with
  | insert item =>
      exact filled.insert lawful soundBefore
        (soundItem item (by simp [Growth.item?]))
  | append value =>
      simp only [Indexed.grow, append, Growth.item?] at soundItem ⊢
      cases stands : kind.item? value with
      | none => simpa using filled
      | some item =>
          exact filled.insert lawful soundBefore
            (soundItem item (by simp [stands]))

/-- A run of growths offers the items that its growths stand for. -/
theorem FilledWith.growAll (filled : collection.FilledWith kind offered)
    (lawful : map.Lawful) (growths : List (Growth α))
    (sound : ∀ other ∈ offered ++ growths.filterMap (Growth.item? kind),
      kind.Sound other) :
    (collection.growAll kind growths).FilledWith kind
      (offered ++ growths.filterMap (Growth.item? kind)) := by
  induction growths generalizing collection offered with
  | nil => simpa [Indexed.growAll] using filled
  | cons growth growths ih =>
      have split : offered ++
          (growth :: growths).filterMap (Growth.item? kind) =
            (offered ++ (growth.item? kind).toList) ++
              growths.filterMap (Growth.item? kind) := by
        cases stands : growth.item? kind <;> simp [stands]
      rw [split] at sound ⊢
      exact ih (filled.grow lawful (List.forall_mem_append.mp sound).1) sound

theorem filledWith_collect (lawful : map.Lawful) {items : List α}
    (sound : ∀ item ∈ items, kind.Sound item) :
    (collect map kind items).FilledWith kind items := by
  have offers : (items.map Growth.insert).filterMap (Growth.item? kind) =
      items := by
    simp [List.filterMap_map, Function.comp_def, Growth.item?]
  have filled := @FilledWith.growAll _ _ _ kind _ _ (filledWith_nil lawful)
    lawful (items.map .insert)
  rw [List.nil_append, offers] at filled
  exact filled sound

/-- What a collection answers if it holds the first of the items offered to
it. -/
structure Answers (kind : CollectionKind α μ) (offered : List α)
    (collection : Indexed map α) : Prop where
  /-- It holds the items that have a key which none before them has. -/
  items : Firsts kind.repeats offered collection.items
  /-- The index has the keys of the items with their positions' marks. -/
  index : ∀ key : Value, key.RepeatsNothing → ∀ mark,
    map.find? collection.index key = some mark ↔
      ∃ position item, collection.items[position]? = some item ∧
        key.Same (kind.key item) ∧ kind.mark position = mark
  /-- It contains the keys that were offered. -/
  contains : ∀ key : Value, key.RepeatsNothing →
    (collection.contains key = true ↔
      ∃ item ∈ offered, key.Same (kind.key item))
  /-- An insertion says whether the key of the item is new. -/
  insert : ∀ item, kind.Sound item →
    ((collection.insert kind item).2 = true ↔
      ∀ earlier ∈ offered, ¬ (kind.key item).Same (kind.key earlier))
  /-- Appending is appending to the container of the items. -/
  append : ∀ value, (∀ item ∈ kind.item? value, kind.Sound item) →
    (kind.container collection.items).append value =
      (collection.append kind value).map
        fun grown => kind.container grown.items
  /-- Its elements are those of the container of the items. -/
  elementAt : ∀ position,
    collection.elementAt? kind position =
      (kind.container collection.items).elementAt? position
  /-- Its size is that of the container of the items. -/
  size : (kind.container collection.items).size? = some collection.size

theorem FilledWith.contains_iff (filled : collection.FilledWith kind offered)
    (sound : ∀ other ∈ offered, kind.Sound other) {key : Value}
    (soundKey : key.RepeatsNothing) :
    collection.contains key = true ↔
      ∃ item ∈ offered, key.Same (kind.key item) := by
  rw [filled.mirrored.contains_iff soundKey]
  constructor
  · rintro ⟨item, member, same⟩
    exact ⟨item, filled.mem_offered member, same⟩
  · rintro ⟨item, member, same⟩
    rcases filled.mem_or_repeated member with
      isHeld | ⟨earlier, isHeld, repeated⟩
    · exact ⟨item, isHeld, same⟩
    · have soundEarlier := sound earlier (filled.mem_offered isHeld)
      exact ⟨earlier, isHeld, (soundKey.same_congr (sound item member)
        soundEarlier same).mpr repeated⟩

theorem FilledWith.firsts (filled : collection.FilledWith kind offered)
    (sound : ∀ other ∈ offered, kind.Sound other) :
    Firsts kind.repeats offered collection.items := by
  rw [filled.items]
  exact firsts_appendNew sound

theorem FilledWith.answers (filled : collection.FilledWith kind offered)
    (made : kind.Contains) (sound : ∀ other ∈ offered, kind.Sound other) :
    collection.Answers kind offered where
  items := filled.firsts sound
  index := filled.mirrored
  contains _ := filled.contains_iff sound
  insert item soundItem := by
    have known := filled.contains_iff sound soundItem
    rw [Indexed.insert]
    split <;> simp_all
  append value soundItem := by
    rw [made.append, Indexed.append]
    cases stands : kind.item? value with
    | none => rfl
    | some item =>
        have known := filled.mirrored.contains_eq_any (soundItem item stands)
        simp only [Indexed.insert, known]
        split <;> rfl
  elementAt position := by
    rw [Value.elementAt?, made.elements, Option.bind_some, List.getElem?_map]
    rfl
  size := by
    rw [Value.size?, made.elements, Option.map_some, List.length_map]
    rfl

/-- Searching a table by its index finds what going through it would. -/
theorem Mirrored.lookup?_eq {map : KeyMap Nat}
    {table : Indexed map (Value × Value)} (mirrored : table.Mirrored .table)
    {key : Value} (sound : key.RepeatsNothing) :
    table.lookup? key = Entries.lookup? table.items key := by
  rw [Entries.lookup?]
  cases found : table.items.find? fun entry => key.equal entry.1 with
  | none =>
      have missing : map.find? table.index key = none := by
        rw [Option.eq_none_iff_forall_ne_some]
        intro position stands
        obtain ⟨place, entry, here, same, -⟩ :=
          (mirrored key sound position).mp stands
        exact List.find?_eq_none.mp found entry (List.mem_of_getElem? here)
          same
      simp [lookup?, missing]
  | some entry =>
      obtain ⟨position, here⟩ :=
        List.getElem?_of_mem (List.mem_of_find?_eq_some found)
      have same : key.equal entry.1 = true := by
        simpa using List.find?_some found
      have stands : map.find? table.index key = some position :=
        (mirrored key sound position).mpr ⟨position, entry, here, same, rfl⟩
      simp [lookup?, stands, here]

/-- What is found under a key is what the first pair with this key brought. -/
theorem FilledWith.lookup?_eq {map : KeyMap Nat} {pairs : Entries}
    {table : Indexed map (Value × Value)}
    (filled : table.FilledWith .table pairs)
    (sound : ∀ pair ∈ pairs, pair.1.RepeatsNothing) {key : Value}
    (soundKey : key.RepeatsNothing) :
    table.lookup? key =
      (pairs.find? fun pair => key.equal pair.1).map Prod.snd := by
  rw [filled.mirrored.lookup?_eq soundKey, Entries.lookup?,
    (filled.firsts sound).find?_eq sound]
  intro later earlier one two repeated same
  exact (soundKey.same_congr one two same).mpr repeated

end Indexed

/-- Whichever pairs are collected, inserted and appended, a table answers from
the first pair of every key, and so does a set from the first of equal values.
What either holds is what inserting without an index makes of the same items,
and the searches by index find the same. -/
theorem collections_hold_first_items :
    (∀ (map : KeyMap Nat) (pairs : List (Value × Value))
        (growths : List (Growth (Value × Value))), map.Lawful →
      let offered := pairs ++ growths.filterMap (Growth.item? .table)
      let table := (Indexed.collect map .table pairs).growAll .table growths
      (∀ pair ∈ offered, pair.1.RepeatsNothing) →
        table.Answers .table offered ∧
        table.items = Entries.ofPairs offered ∧
        ∀ key : Value, key.RepeatsNothing →
          table.lookup? key =
            (offered.find? fun pair => key.equal pair.1).map Prod.snd ∧
          table.lookup? key = Entries.lookup? table.items key ∧
          table.contains key = Entries.hasKey table.items key) ∧
    (∀ (map : KeyMap Unit) (values : List Value)
        (growths : List (Growth Value)), map.Lawful →
      let offered := values ++ growths.filterMap (Growth.item? .set)
      let set := (Indexed.collect map .set values).growAll .set growths
      (∀ value ∈ offered, value.RepeatsNothing) →
        set.Answers .set offered ∧
        set.items = Members.ofValues offered ∧
        ∀ value : Value, value.RepeatsNothing →
          set.contains value = Members.has set.items value) := by
  constructor
  · intro map pairs growths lawful offered table sound
    obtain ⟨soundPairs, -⟩ := List.forall_mem_append.mp sound
    have filled : table.FilledWith .table offered :=
      (Indexed.filledWith_collect lawful soundPairs).growAll lawful growths
        sound
    refine ⟨filled.answers CollectionKind.contains_table sound, ?_, ?_⟩
    · rw [Entries.ofPairs, Entries.insertAll_eq_appendNew]
      exact filled.items
    · intro key soundKey
      exact ⟨filled.lookup?_eq sound soundKey,
        filled.mirrored.lookup?_eq soundKey,
        @Indexed.Mirrored.contains_eq_any _ _ _ _ _ (key, .empty)
          filled.mirrored soundKey⟩
  · intro map values growths lawful offered set sound
    obtain ⟨soundValues, -⟩ := List.forall_mem_append.mp sound
    have filled : set.FilledWith .set offered :=
      (Indexed.filledWith_collect lawful soundValues).growAll lawful growths
        sound
    refine ⟨filled.answers CollectionKind.contains_set sound, ?_, ?_⟩
    · rw [Members.ofValues, Members.insertAll_eq_appendNew]
      exact filled.items
    · intro value soundValue
      exact filled.mirrored.contains_eq_any soundValue

/-- A set that was filled in another order is the same key and the same
member, so what it brings is left out. -/
theorem reorderedSet_is_left_out :
    let first : Value := .set [.number 1, .number 2]
    let again : Value := .set [.number 2, .number 1]
    let growths : List (Growth (Value × Value)) :=
      [.append (.pair again (.string "b")), .append (.number 4),
        .insert (.number 3, .empty)]
    let table := (Indexed.collect (.ofList Nat) .table
      [(first, .string "a")]).growAll .table growths
    let set := (Indexed.collect (.ofList Unit) .set [first]).growAll .set
      [.insert again, .append (.number 3)]
    table.Answers .table [(first, .string "a"), (again, .string "b"),
      (.number 3, .empty)] ∧
    table.items = [(first, .string "a"), (.number 3, .empty)] ∧
    table.lookup? again = some (.string "a") ∧
    set.Answers .set [first, again, .number 3] ∧
    set.items = [first, .number 3] ∧ set.contains again = true := by
  intro first again growths table set
  have sound : first.RepeatsNothing :=
    repeatsNothing_set_of_plain (by decide) (by decide)
  have soundAgain : again.RepeatsNothing :=
    repeatsNothing_set_of_plain (by decide) (by decide)
  have soundNumber : (Value.number 3).RepeatsNothing :=
    repeatsNothing_of_plain rfl
  obtain ⟨answers, -, finds⟩ := collections_hold_first_items.1 (.ofList Nat)
    [(first, .string "a")] growths (KeyMap.lawful_ofList Nat)
    (List.forall_mem_cons.mpr ⟨sound, List.forall_mem_cons.mpr
      ⟨soundAgain, List.forall_mem_singleton.mpr soundNumber⟩⟩)
  obtain ⟨setAnswers, -, -⟩ := collections_hold_first_items.2 (.ofList Unit)
    [first] [.insert again, .append (.number 3)] (KeyMap.lawful_ofList Unit)
    (List.forall_mem_cons.mpr ⟨sound, List.forall_mem_cons.mpr
      ⟨soundAgain, List.forall_mem_singleton.mpr soundNumber⟩⟩)
  exact ⟨answers, rfl, (finds again soundAgain).1, setAnswers, rfl, rfl⟩

end StackAssembly
