import Mathlib.Data.List.Induction
import StackAssembly.Value.Keyed

/-!
# Insertion without repetition

Tables and sets grow in the same way: an item is put behind the others unless
it repeats one of them.  What holds of both is shown here for lists whose
items may repeat one another, a table being the case in which an entry repeats
another if their keys are equal.
-/

namespace StackAssembly

/-- An item behind a list stands at the position that is the list's length. -/
theorem getElem?_concat_eq_some_iff {α : Type} {items : List α}
    {item held : α} {position : Nat} :
    (items ++ [item])[position]? = some held ↔
      items[position]? = some held ∨
        position = items.length ∧ item = held := by
  rw [List.getElem?_append]
  split
  · next inside => simp [Nat.ne_of_lt inside]
  · next outside =>
      rw [List.getElem?_singleton,
        List.getElem?_eq_none_iff.mpr (Nat.not_lt.mp outside)]
      by_cases last : position = items.length
      · simp [last]
      · have behind : position - items.length ≠ 0 := by omega
        simp only [if_neg behind, last, false_and, reduceCtorEq, or_self]

section Repetition

variable {α : Type} (repeats : α → α → Bool)

/-- Whether no item of a list repeats an earlier one. -/
def Unrepeated (items : List α) : Prop :=
  items.Pairwise fun earlier later => repeats later earlier = false

instance (items : List α) : Decidable (Unrepeated repeats items) :=
  inferInstanceAs (Decidable (items.Pairwise _))

/-- Put items behind those kept so far, leaving out those that repeat one. -/
def appendNew (kept : List α) : List α → List α
  | [] => kept
  | item :: items =>
      appendNew (if kept.any (repeats item) then kept else kept ++ [item])
        items

variable {repeats}

theorem Unrepeated.step {kept : List α} (unrepeated : Unrepeated repeats kept)
    (item : α) :
    Unrepeated repeats
      (if kept.any (repeats item) then kept else kept ++ [item]) := by
  split
  · exact unrepeated
  · next new =>
      refine List.pairwise_append.mpr
        ⟨unrepeated, List.pairwise_singleton _ _, ?_⟩
      intro earlier member later same
      rw [List.mem_singleton.mp same]
      simp only [List.any_eq_true, not_exists, not_and] at new
      exact Bool.eq_false_iff.mpr (new earlier member)

/-- Whatever is put in, no item of the result repeats an earlier one. -/
theorem Unrepeated.appendNew {kept : List α}
    (unrepeated : Unrepeated repeats kept) (items : List α) :
    Unrepeated repeats (appendNew repeats kept items) := by
  induction items generalizing kept with
  | nil => exact unrepeated
  | cons item items ih => exact ih (unrepeated.step item)

/-- An item of a list without repetition repeats none of those before it. -/
theorem Unrepeated.any_eq_false {front back kept : List α} {item : α}
    (unrepeated : Unrepeated repeats (front ++ item :: back))
    (among : kept ⊆ front) : kept.any (repeats item) = false := by
  rw [List.any_eq_false]
  intro earlier member
  have apart := (List.pairwise_append.mp unrepeated).2.2 earlier
    (among member) item List.mem_cons_self
  simp [apart]

/-- Nothing is left out of a list without repetition. -/
theorem appendNew_of_unrepeated {kept items : List α}
    (unrepeated : Unrepeated repeats (kept ++ items)) :
    appendNew repeats kept items = kept ++ items := by
  induction items generalizing kept with
  | nil => simp [appendNew]
  | cons item items ih =>
      have new := unrepeated.any_eq_false (List.Subset.refl kept)
      rw [StackAssembly.appendNew, new, if_neg Bool.false_ne_true,
        ih (by simpa using unrepeated)]
      simp

/-- What is kept stands in its old order. -/
theorem appendNew_sublist (kept items : List α) :
    (appendNew repeats kept items).Sublist (kept ++ items) := by
  induction items generalizing kept with
  | nil => simp [appendNew]
  | cons item items ih =>
      refine (ih _).trans ?_
      split
      · exact (List.sublist_cons_self item items).append_left kept
      · simp only [List.append_assoc, List.singleton_append, List.Sublist.refl]

theorem mem_appendNew_of_mem {kept : List α} {item : α} (items : List α)
    (member : item ∈ kept) : item ∈ appendNew repeats kept items := by
  induction items generalizing kept with
  | nil => exact member
  | cons next items ih =>
      refine ih ?_
      split
      · exact member
      · exact List.mem_append_left _ member

/-- What is left out repeats something that is kept. -/
theorem mem_appendNew_or_repeated {kept items : List α} {item : α}
    (member : item ∈ items) :
    item ∈ appendNew repeats kept items ∨
      ∃ earlier ∈ appendNew repeats kept items,
        repeats item earlier = true := by
  induction items generalizing kept with
  | nil => cases member
  | cons next items ih =>
      rcases List.mem_cons.mp member with rfl | later
      · rw [appendNew]
        split
        · next repeated =>
            obtain ⟨earlier, among, same⟩ := List.any_eq_true.mp repeated
            exact .inr ⟨earlier, mem_appendNew_of_mem items among, same⟩
        · exact .inl (mem_appendNew_of_mem items
            (List.mem_append_right kept (List.mem_singleton_self item)))
      · exact ih later

theorem mem_of_mem_appendNew {kept items : List α} {item : α}
    (member : item ∈ appendNew repeats kept items) :
    item ∈ kept ∨ item ∈ items :=
  List.mem_append.mp ((appendNew_sublist kept items).mem member)

theorem length_appendNew_le (kept items : List α) :
    (appendNew repeats kept items).length ≤ kept.length + items.length := by
  rw [← List.length_append]
  exact (appendNew_sublist kept items).length_le

/-- What is kept of a list if every item is left out that repeats one kept
before it. -/
inductive KeepsFirst (repeats : α → α → Bool) : List α → List α → Prop where
  | nil : KeepsFirst repeats [] []
  | keep {items kept : List α} {item : α}
      (before : KeepsFirst repeats items kept)
      (new : ∀ earlier ∈ kept, repeats item earlier = false) :
      KeepsFirst repeats (items ++ [item]) (kept ++ [item])
  | leave {items kept : List α} {item : α}
      (before : KeepsFirst repeats items kept)
      (repeated : ∃ earlier ∈ kept, repeats item earlier = true) :
      KeepsFirst repeats (items ++ [item]) kept

theorem appendNew_concat (kept items : List α) (item : α) :
    appendNew repeats kept (items ++ [item]) =
      if (appendNew repeats kept items).any (repeats item) then
        appendNew repeats kept items
      else
        appendNew repeats kept items ++ [item] := by
  induction items generalizing kept with
  | nil => rfl
  | cons first items ih => exact ih _

theorem KeepsFirst.eq_appendNew {items kept : List α}
    (keeps : KeepsFirst repeats items kept) :
    kept = StackAssembly.appendNew repeats [] items := by
  induction keeps with
  | nil => rfl
  | keep before new ih =>
      rw [appendNew_concat, ← ih, if_neg]
      rw [List.any_eq_true]
      rintro ⟨earlier, member, same⟩
      exact absurd same (Bool.eq_false_iff.mp (new earlier member))
  | leave before repeated ih =>
      rw [appendNew_concat, ← ih, if_pos (List.any_eq_true.mpr repeated)]

theorem KeepsFirst.concat {items kept : List α}
    (keeps : KeepsFirst repeats items kept) (item : α) :
    KeepsFirst repeats (items ++ [item])
      (if kept.any (repeats item) then kept else kept ++ [item]) := by
  split
  · next repeated => exact .leave keeps (List.any_eq_true.mp repeated)
  · next new =>
      refine .keep keeps fun earlier member => Bool.eq_false_iff.mpr ?_
      exact fun same => new (List.any_eq_true.mpr ⟨earlier, member, same⟩)

theorem keepsFirst_appendNew (items : List α) :
    KeepsFirst repeats items (appendNew repeats [] items) := by
  induction items using List.reverseRecOn with
  | nil => exact .nil
  | append_singleton items item ih =>
      rw [appendNew_concat]
      exact ih.concat item

/-- The items of a list that repeat no item before them, in their order. -/
inductive Firsts (repeats : α → α → Bool) : List α → List α → Prop where
  | nil : Firsts repeats [] []
  | first {items firsts : List α} {item : α}
      (before : Firsts repeats items firsts)
      (new : ∀ earlier ∈ items, repeats item earlier = false) :
      Firsts repeats (items ++ [item]) (firsts ++ [item])
  | later {items firsts : List α} {item : α}
      (before : Firsts repeats items firsts)
      (repeated : ∃ earlier ∈ items, repeats item earlier = true) :
      Firsts repeats (items ++ [item]) firsts

/-- If what repeats an item repeats whatever this one does, an item repeats
none that is kept exactly if it repeats none before it, so the first items are
those that are kept. -/
theorem KeepsFirst.firsts {good : α → Prop} {items kept : List α}
    (keeps : KeepsFirst repeats items kept)
    (sound : ∀ item ∈ items, good item)
    (trans : ∀ first second third, good first → good second → good third →
      repeats first second = true → repeats second third = true →
        repeats first third = true) :
    Firsts repeats items kept := by
  induction keeps with
  | nil => exact .nil
  | @keep items kept item before new ih =>
      obtain ⟨soundBefore, soundItem⟩ := List.forall_mem_append.mp sound
      refine .first (ih soundBefore) fun earlier member => ?_
      rcases @mem_appendNew_or_repeated _ repeats [] items earlier member with
        isKept | ⟨other, isKept, same⟩
      · exact new earlier (before.eq_appendNew ▸ isKept)
      · have among : other ∈ items := by
          simpa using mem_of_mem_appendNew isKept
        refine Bool.eq_false_iff.mpr fun repeated => ?_
        have apart := new other (before.eq_appendNew ▸ isKept)
        rw [trans item earlier other
          (soundItem item (List.mem_singleton_self _))
          (soundBefore earlier member) (soundBefore other among) repeated
          same] at apart
        cases apart
  | @leave items kept item before repeated ih =>
      obtain ⟨earlier, member, same⟩ := repeated
      rw [before.eq_appendNew] at member
      exact .later (ih (List.forall_mem_append.mp sound).1)
        ⟨earlier, by simpa using mem_of_mem_appendNew member, same⟩

/-- What is looked for is found among the first items where it is found among
all, if it does not tell an item from one that it repeats. -/
theorem Firsts.find?_eq {good : α → Prop} {items firsts : List α}
    {property : α → Bool} (selects : Firsts repeats items firsts)
    (sound : ∀ item ∈ items, good item)
    (respects : ∀ later earlier, good later → good earlier →
      repeats later earlier = true → property later = true →
        property earlier = true) :
    firsts.find? property = items.find? property := by
  induction selects with
  | nil => rfl
  | first before new ih =>
      rw [List.find?_append, List.find?_append,
        ih (List.forall_mem_append.mp sound).1]
  | @later items firsts item before repeated ih =>
      obtain ⟨soundBefore, soundItem⟩ := List.forall_mem_append.mp sound
      rw [List.find?_append, ih soundBefore]
      cases missing : items.find? property with
      | some other => rfl
      | none =>
          -- An item before this one would have the property with it.
          obtain ⟨earlier, member, same⟩ := repeated
          have without : ¬ property item = true := fun holds =>
            List.find?_eq_none.mp missing earlier member
              (respects item earlier (soundItem item (by simp))
                (soundBefore earlier member) same holds)
          simp [without]

end Repetition

namespace Entries

/-- Whether the key of an entry equals that of another. -/
def sameKey (later earlier : Value × Value) : Bool :=
  later.1.equal earlier.1

/-- Whether no key of a table occurs twice. -/
def Distinct (entries : Entries) : Prop :=
  Unrepeated sameKey entries

instance (entries : Entries) : Decidable entries.Distinct :=
  inferInstanceAs (Decidable (Unrepeated sameKey entries))

theorem insertAll_eq_appendNew (entries pairs : Entries) :
    entries.insertAll pairs = appendNew sameKey entries pairs := by
  induction pairs generalizing entries with
  | nil => rfl
  | cons pair pairs ih => exact ih _

/-- Of entries with equal keys the first one counts. -/
theorem keepsFirst_iff {pairs entries : Entries} :
    KeepsFirst sameKey pairs entries ↔ entries = ofPairs pairs := by
  rw [ofPairs, insertAll_eq_appendNew]
  refine ⟨KeepsFirst.eq_appendNew, ?_⟩
  rintro rfl
  exact keepsFirst_appendNew pairs

/-- Inserting the entries of a table one by one restores it. -/
theorem ofPairs_of_distinct {entries : Entries} (distinct : entries.Distinct) :
    ofPairs entries = entries := by
  rw [ofPairs, insertAll_eq_appendNew]
  exact @appendNew_of_unrepeated _ sameKey [] entries distinct

theorem distinct_ofPairs (pairs : Entries) : (ofPairs pairs).Distinct := by
  rw [Distinct, ofPairs, insertAll_eq_appendNew]
  exact Unrepeated.appendNew List.Pairwise.nil pairs

/-- Nothing is lost of entries exactly if no key occurs twice. -/
theorem ofPairs_eq_self_iff {pairs : Entries} :
    ofPairs pairs = pairs ↔ pairs.Distinct :=
  ⟨fun same => same ▸ distinct_ofPairs pairs, ofPairs_of_distinct⟩

theorem ofPairs_sublist (pairs : Entries) :
    (ofPairs pairs).Sublist pairs := by
  rw [ofPairs, insertAll_eq_appendNew]
  exact appendNew_sublist [] pairs

theorem mem_of_mem_ofPairs {pairs : Entries} {entry : Value × Value}
    (member : entry ∈ ofPairs pairs) : entry ∈ pairs := by
  rw [ofPairs, insertAll_eq_appendNew] at member
  simpa using mem_of_mem_appendNew member

theorem mem_of_mem_insert {entries : Entries} {key value : Value}
    {entry : Value × Value} (member : entry ∈ entries.insert key value) :
    entry ∈ entries ∨ entry = (key, value) := by
  have inserted : entries.insert key value =
      appendNew sameKey entries [(key, value)] :=
    insertAll_eq_appendNew entries [(key, value)]
  rw [inserted] at member
  simpa using mem_of_mem_appendNew member

theorem length_ofPairs_le (pairs : Entries) :
    (ofPairs pairs).length ≤ pairs.length := by
  rw [ofPairs, insertAll_eq_appendNew]
  simpa using @length_appendNew_le _ sameKey [] pairs

end Entries

namespace Members

/-- Whether no member of a set occurs twice. -/
def Distinct (members : Members) : Prop :=
  Unrepeated Value.equal members

instance (members : Members) : Decidable members.Distinct :=
  inferInstanceAs (Decidable (Unrepeated Value.equal members))

theorem insertAll_eq_appendNew (members values : Members) :
    members.insertAll values = appendNew Value.equal members values := by
  induction values generalizing members with
  | nil => rfl
  | cons value values ih => exact ih _

/-- Of equal members the first one counts. -/
theorem keepsFirst_iff {values members : Members} :
    KeepsFirst Value.equal values members ↔ members = ofValues values := by
  rw [ofValues, insertAll_eq_appendNew]
  refine ⟨KeepsFirst.eq_appendNew, ?_⟩
  rintro rfl
  exact keepsFirst_appendNew values

/-- Inserting the members of a set one by one restores it. -/
theorem ofValues_of_distinct {members : Members}
    (distinct : members.Distinct) : ofValues members = members := by
  rw [ofValues, insertAll_eq_appendNew]
  exact @appendNew_of_unrepeated _ Value.equal [] members distinct

theorem distinct_ofValues (values : Members) :
    (ofValues values).Distinct := by
  rw [Distinct, ofValues, insertAll_eq_appendNew]
  exact Unrepeated.appendNew List.Pairwise.nil values

/-- Nothing is lost of values exactly if none occurs twice. -/
theorem ofValues_eq_self_iff {values : Members} :
    ofValues values = values ↔ values.Distinct :=
  ⟨fun same => same ▸ distinct_ofValues values, ofValues_of_distinct⟩

theorem ofValues_sublist (values : Members) :
    (ofValues values).Sublist values := by
  rw [ofValues, insertAll_eq_appendNew]
  exact appendNew_sublist [] values

theorem mem_of_mem_ofValues {values : Members} {value : Value}
    (member : value ∈ ofValues values) : value ∈ values := by
  rw [ofValues, insertAll_eq_appendNew] at member
  simpa using mem_of_mem_appendNew member

theorem mem_of_mem_insert {members : Members} {value member : Value}
    (among : member ∈ members.insert value) :
    member ∈ members ∨ member = value := by
  have inserted : members.insert value =
      appendNew Value.equal members [value] :=
    insertAll_eq_appendNew members [value]
  rw [inserted] at among
  simpa using mem_of_mem_appendNew among

theorem length_ofValues_le (values : Members) :
    (ofValues values).length ≤ values.length := by
  rw [ofValues, insertAll_eq_appendNew]
  simpa using @length_appendNew_le _ Value.equal [] values

end Members
end StackAssembly
