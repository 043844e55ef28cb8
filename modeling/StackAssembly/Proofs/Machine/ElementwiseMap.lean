import Mathlib.Data.List.Forall2
import StackAssembly.Proofs.Machine.Steps
import StackAssembly.Proofs.Value.Insertion

/-!
# The images of the elements of a container

The primitive `map` over a callable that acts like a function collects the
images of all elements.  What a collection is depends on the container: a
tuple holds the images as they are, a set leaves out those that repeat one, a
table takes pairs and keeps the first for every key, and a string joins texts
and characters.  An image that the container cannot take ends the primitive at
once.
-/

namespace StackAssembly

/-- The text that a value adds to a string. -/
inductive Value.Writes : Value → String → Prop where
  | string {text} : Writes (.string text) text
  | character {letter} :
      Writes (.character (Text.code letter)) (String.singleton letter)

/-- A container can take a value. -/
inductive Value.Accepts : Value → Value → Prop where
  | tuple {items value} : Accepts (.tuple items) value
  | set {members value} : Accepts (.set members) value
  | table {entries key item} : Accepts (.table entries) (.pair key item)
  | string {text value written} (writes : value.Writes written) :
      Accepts (.string text) value

/-- What a container of the same kind as a given one holds after it was given
values one after the other. -/
inductive Value.Collects : Value → List Value → Value → Prop where
  | tuple {items values} : Collects (.tuple items) values (.tuple values)
  | set {members values kept} (keeps : KeepsFirst Value.equal values kept) :
      Collects (.set members) values (.set kept)
  | table {entries pairs kept}
      (keeps : KeepsFirst Entries.sameKey pairs kept) :
      Collects (.table entries)
        (pairs.map fun entry => .pair entry.1 entry.2) (.table kept)
  | string {text values texts}
      (writes : List.Forall₂ Value.Writes values texts) :
      Collects (.string text) values (.string (String.join texts))

namespace Value

variable {container value out element : Value} {values : List Value}

theorem writes_of_scalar? {code : UInt32} {letter : Char}
    (scalar : Text.scalar? code = some letter) :
    (Value.character code).Writes (String.singleton letter) := by
  rw [Text.scalar?] at scalar
  split at scalar
  · next valid =>
      cases scalar
      exact @Writes.character ⟨code, valid⟩
  · cases scalar

/-- Before anything is given, every container collects its empty kind. -/
theorem exists_collects_nil {elements : List Value}
    (held : container.elements? = some elements) :
    ∃ emptied, container.emptied? = some emptied ∧
      container.Collects [] emptied := by
  cases container with
  | tuple => exact ⟨_, rfl, .tuple⟩
  | table => exact ⟨_, rfl, @Collects.table _ [] _ .nil⟩
  | set => exact ⟨_, rfl, .set .nil⟩
  | string => exact ⟨_, rfl, .string .nil⟩
  | _ => cases held

theorem Collects.set_insert {members kept : Members}
    (keeps : KeepsFirst Value.equal values kept) :
    (Value.set members).Collects (values ++ [value])
      (.set (Members.insert kept value)) :=
  .set (keeps.concat value)

theorem Collects.table_insert {entries pairs kept : Entries}
    {key item : Value} (keeps : KeepsFirst Entries.sameKey pairs kept) :
    (Value.table entries).Collects
      (pairs.map (fun entry => .pair entry.1 entry.2) ++ [.pair key item])
      (.table (Entries.insert kept key item)) := by
  have concat :
      pairs.map (fun entry => pair entry.1 entry.2) ++ [pair key item] =
        (pairs ++ [(key, item)]).map fun entry => pair entry.1 entry.2 := by
    rw [List.map_append, List.map_singleton]
  rw [concat]
  exact .table (keeps.concat (key, item))

theorem Collects.string_append {text written : String} {texts : List String}
    (writes : List.Forall₂ Value.Writes values texts)
    (wrote : value.Writes written) :
    (Value.string text).Collects (values ++ [value])
      (.string (String.join texts ++ written)) := by
  have concat : String.join texts ++ written =
      String.join (texts ++ [written]) := by
    simp
  rw [concat]
  exact .string (List.rel_append writes (.cons wrote .nil))

/-- A collection grows by a value that the container can take. -/
theorem Collects.collect (collects : container.Collects values out)
    (accepts : container.Accepts value) :
    ∃ grown, StackAssembly.collect element out value = .ok grown ∧
      container.Collects (values ++ [value]) grown := by
  cases accepts with
  | tuple =>
      cases collects
      exact ⟨_, rfl, .tuple⟩
  | set =>
      cases collects with
      | set keeps => exact ⟨_, rfl, set_insert keeps⟩
  | table =>
      cases collects with
      | table keeps => exact ⟨_, rfl, table_insert keeps⟩
  | string wrote =>
      cases collects with
      | string writes =>
          refine ⟨_, ?_, string_append writes wrote⟩
          cases wrote with
          | string => rfl
          | @character letter =>
              have scalar : Text.scalar? (Text.code letter) = some letter :=
                dif_pos letter.valid
              simp [StackAssembly.collect, append, scalar]

/-- A value that the container cannot take does not fit the collection. -/
theorem Collects.collect_refused (collects : container.Collects values out)
    (refused : ¬ container.Accepts value) :
    StackAssembly.collect element out value = .error .typeMismatch := by
  cases collects with
  | tuple => exact absurd .tuple refused
  | set => exact absurd .set refused
  | table =>
      simp only [StackAssembly.collect, append]
      cases paired : value.pair? with
      | none => rfl
      | some entry =>
          rw [pair_of_pair?_eq_some paired] at refused
          exact absurd .table refused
  | string =>
      simp only [StackAssembly.collect, append]
      cases value with
      | string => exact absurd (.string .string) refused
      | character code =>
          cases scalar : Text.scalar? code with
          | none => simp only [scalar]
          | some letter =>
              exact absurd (.string (writes_of_scalar? scalar)) refused
      | _ => rfl

end Value

section Images

variable {image : Value → Value} {container out : Value}
  {values elements : List Value}

/-- The collection goes through all elements if the container can take all
images. -/
theorem Value.Collects.leads (collects : container.Collects values out)
    (accepts : ∀ element ∈ elements, container.Accepts (image element)) :
    ∃ last, container.Collects (values ++ elements.map image) last ∧
      Leads (fun element _ => [element]) StackAssembly.collect elements out
        (elements.map (imageStep image)) (.ok last) := by
  induction elements generalizing values out with
  | nil =>
      rw [List.map_nil, List.append_nil]
      exact ⟨out, collects, .done⟩
  | cons element elements ih =>
      obtain ⟨grown, grows, longer⟩ :=
        @Collects.collect _ _ _ element _ collects
          (accepts element List.mem_cons_self)
      obtain ⟨last, all, leads⟩ :=
        ih longer fun other among => accepts other (.tail _ among)
      refine ⟨last, ?_, .accepted grows leads⟩
      rwa [List.map_cons, List.append_cons]

/-- The collection ends at the first element whose image the container cannot
take. -/
theorem Value.Collects.leads_refused {element : Value}
    {before after : List Value} (collects : container.Collects values out)
    (accepts : ∀ element ∈ before, container.Accepts (image element))
    (refused : ¬ container.Accepts (image element)) :
    Leads (fun element _ => [element]) StackAssembly.collect
      (before ++ element :: after) out
      ((before ++ [element]).map (imageStep image))
      (.error .typeMismatch) := by
  induction before generalizing values out with
  | nil => exact .refused (collects.collect_refused refused)
  | cons first before ih =>
      obtain ⟨grown, grows, longer⟩ :=
        @Collects.collect _ _ _ first _ collects
          (accepts first List.mem_cons_self)
      exact .accepted grows
        (ih longer fun other among => accepts other (.tail _ among))

end Images

/-- Over a callable that acts like a function, `map` collects the images of
all elements in their order if the container can take them.  Otherwise it goes
as far as the first element whose image the container cannot take, and leaves
its operands with an error on top. -/
theorem map_collects_images {ν : Type} {host : Host ν} {machine : Machine ν}
    {callable : Operation} {container : Value} {base elements : List Value}
    {image : Value → Value}
    (stack : machine.stack = .operation callable :: container :: base)
    (held : container.elements? = some elements)
    (yields : ∀ element ∈ elements,
      Yields host callable machine [element] (image element)) :
    ((∀ element ∈ elements, container.Accepts (image element)) →
      ∃ out moments shown,
        container.Collects (elements.map image) out ∧
        StepsThrough host callable machine base
          (elements.map (imageStep image)) machine.output moments shown ∧
        Runs host (.primitive .map) machine
          (.start (.primitive .map) machine :: moments)
          (.success, machine.having (out :: base) shown)) ∧
    ((∃ element ∈ elements, ¬ container.Accepts (image element)) →
      ∃ before element after moments shown left,
        elements = before ++ element :: after ∧
        (∀ earlier ∈ before, container.Accepts (image earlier)) ∧
        ¬ container.Accepts (image element) ∧
        StepsThrough host callable machine base
          ((before ++ [element]).map (imageStep image)) machine.output
          moments shown ∧
        left = machine.having (.error .typeMismatch ::
          .operation callable :: container :: base) shown ∧
        Runs host (.primitive .map) machine
          (.start (.primitive .map) machine ::
            (moments ++ [{ event := .raises .typeMismatch, machine := left }]))
          (.error, left)) := by
  obtain ⟨emptied, empties, nothing⟩ := Value.exists_collects_nil held
  have planned : Plan.ofOperation machine (.primitive .map) =
      .ofContainer collect machine := rfl
  constructor
  · intro accepts
    obtain ⟨out, collects, leads⟩ := nothing.leads accepts
    obtain ⟨moments, shown, through, ran⟩ :=
      Runs.exists_ofContainer planned stack held empties yields
        (List.Subset.refl _) leads
    refine ⟨out, moments, shown, collects, through, ?_⟩
    rw [← List.append_nil moments]
    exact ran
  · intro refused
    obtain ⟨before, element, after, rfl, accepts, refuses⟩ :=
      exists_first_without refused
    have front : before ++ [element] ⊆ before ++ element :: after := by simp
    obtain ⟨moments, shown, through, ran⟩ :=
      Runs.exists_ofContainer planned stack held empties yields front
        (nothing.leads_refused accepts refuses)
    exact ⟨before, element, after, moments, shown, _, rfl, accepts, refuses,
      through, rfl, ran⟩

/-- The kinds of the members of a set are taken up once each.  A string cannot
take the kinds of its characters, and `map` stops at the first of them. -/
theorem map_over_kinds :
    let host : Host Empty := nofun
    let kinds : Value := .operation (.primitive .typeOf)
    let members : List Value := [.number 1, .number 2, .boolean true]
    let overSet : Machine Empty :=
      { stack := [kinds, .set members, .number 42] }
    let overText : Machine Empty := { stack := [kinds, .string "ab"] }
    (∃ moments shown,
      Runs host (.primitive .map) overSet
        (.start (.primitive .map) overSet :: moments)
        (.success, overSet.having
          [.set [.type .number, .type .boolean], .number 42] shown)) ∧
    ∃ moments shown,
      Runs host (.primitive .map) overText moments
        (.error, overText.having
          (.error .typeMismatch :: overText.stack) shown) := by
  intro host kinds members overSet overText
  have yields : ∀ (machine : Machine Empty) (element : Value),
      Yields host (.primitive .typeOf) machine [element]
        (.type element.kind) := fun machine element stack output =>
    ⟨_, output, @Runs.of_settle _ _ _ _
      (.succeed (machine.having (.type element.kind :: stack) output)) rfl⟩
  constructor
  · obtain ⟨out, moments, shown, collects, -, ran⟩ :=
      (@map_collects_images Empty host overSet _ _ _ _ _ rfl rfl
        fun element _ => yields overSet element).1 fun _ _ => .set
    cases collects with
    | set keeps =>
        rw [keeps.eq_appendNew] at ran
        exact ⟨moments, shown, ran⟩
  · have refused : ∃ element ∈ [Value.character 97, .character 98],
        ¬ (Value.string "ab").Accepts (.type element.kind) :=
      ⟨.character 97, List.mem_cons_self,
        fun | .string writes => nomatch writes⟩
    obtain ⟨_, _, _, moments, shown, left, -, -, -, -, rfl, ran⟩ :=
      (@map_collects_images Empty host overText _ _ _ _ _ rfl rfl
        fun element _ => yields overText element).2 refused
    exact ⟨_, shown, ran⟩

end StackAssembly
