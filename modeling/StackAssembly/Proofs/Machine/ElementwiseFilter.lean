import StackAssembly.Proofs.Machine.Steps
import StackAssembly.Proofs.Value.WellFormed

/-!
# The accepted elements of a container

The primitive `filter` over a callable that gives every element a verdict
keeps the elements with the verdict `true`, in their order, in a container of
the same kind.  The kept elements are put back one after the other by the rule
by which containers grow.  Nothing is lost in this: elements of a table or a
set that differ in it also differ in every part of it, and what a container
held it can hold again.  A verdict that is no truth value ends the primitive.
-/

namespace StackAssembly

/-- Whether a value is the truth value `true`. -/
def Value.isTrue : Value → Bool
  | .boolean truth => truth
  | _ => false

/-- A container of the kind of another one that holds the given elements. -/
inductive Value.Selects : Value → List Value → Value → Prop where
  | tuple {items kept} : Selects (.tuple items) kept (.tuple kept)
  | set {members kept} : Selects (.set members) kept (.set kept)
  | table {entries kept} :
      Selects (.table entries)
        (kept.map fun entry => .pair entry.1 entry.2) (.table kept)
  | string {text kept} :
      Selects (.string text)
        (kept.map fun letter => .character (Text.code letter))
        (.string (String.ofList kept))

namespace Value

variable {container out element : Value} {kept before after : List Value}

theorem eq_boolean_of_kind {value : Value} (kind : value.kind = .boolean) :
    value = .boolean value.isTrue := by
  cases value with
  | boolean truth => rfl
  | operation body => cases body <;> cases kind
  | _ => cases kind

theorem Selects.kind_eq (selects : container.Selects kept out) :
    out.kind = container.kind := by
  cases selects <;> rfl

theorem Selects.elements?_eq (selects : container.Selects kept out) :
    out.elements? = some kept := by
  cases selects with
  | string => rw [elements?, String.toList_ofList]
  | _ => rfl

/-- The empty container of the same kind holds no elements. -/
theorem exists_selects_nil {elements : List Value}
    (held : container.elements? = some elements) :
    ∃ emptied, container.emptied? = some emptied ∧
      container.Selects [] emptied := by
  cases container with
  | tuple => exact ⟨_, rfl, .tuple⟩
  | table entries => exact ⟨_, rfl, @Selects.table entries []⟩
  | set => exact ⟨_, rfl, .set⟩
  | string text => exact ⟨_, rfl, @Selects.string text []⟩
  | _ => cases held

/-- A member behind those that were kept is new. -/
theorem Selects.set_insert {members kept : Members}
    (distinct : Members.Distinct (before ++ element :: after))
    (among : kept ⊆ before) :
    (Value.set members).Selects (kept ++ [element])
      (.set (Members.insert kept element)) := by
  rw [Members.insert, Members.has,
    Unrepeated.any_eq_false distinct among, if_neg Bool.false_ne_true]
  exact .set

/-- The key of an entry behind those that were kept is new. -/
theorem Selects.table_insert {entries front back kept : Entries}
    {entry : Value × Value}
    (distinct : Entries.Distinct (front ++ entry :: back))
    (among : kept ⊆ front) :
    (Value.table entries).Selects
      (kept.map (fun entry => .pair entry.1 entry.2) ++
        [.pair entry.1 entry.2])
      (.table (Entries.insert kept entry.1 entry.2)) := by
  have new : Entries.hasKey kept entry.1 = false :=
    Unrepeated.any_eq_false distinct among
  rw [Entries.insert, new, if_neg Bool.false_ne_true]
  have concat := @Selects.table entries (kept ++ [entry])
  rwa [List.map_append, List.map_singleton] at concat

theorem Selects.string_push {text : String} {kept : List Char}
    {letter : Char} :
    (Value.string text).Selects
      (kept.map (fun letter => .character (Text.code letter)) ++
        [.character (Text.code letter)])
      (.string ((String.ofList kept).push letter)) := by
  have pushed : (String.ofList kept).push letter =
      String.ofList (kept ++ [letter]) := by
    rw [← String.toList_inj]
    simp
  have concat := @Selects.string text (kept ++ [letter])
  rwa [List.map_append, List.map_singleton, ← pushed] at concat

/-- The kept elements can be followed by any later element of the
container. -/
theorem Selects.collect (selects : container.Selects kept out)
    (held : container.elements? = some (before ++ element :: after))
    (distinct : PartCondition.distinct.onValue container)
    (among : kept ⊆ before) :
    ∃ grown, StackAssembly.collect element out element = .ok grown ∧
      container.Selects (kept ++ [element]) grown := by
  cases selects with
  | tuple => exact ⟨_, rfl, .tuple⟩
  | set =>
      cases held
      exact ⟨_, rfl, set_insert distinct among⟩
  | @table entries kept =>
      obtain ⟨front, rest, rfl, rfl, behind⟩ :=
        List.map_eq_append_iff.mp (Option.some_inj.mp held)
      obtain ⟨entry, back, rfl, rfl, -⟩ := List.map_eq_cons_iff.mp behind
      refine ⟨_, rfl, table_insert distinct fun kept' member => ?_⟩
      obtain ⟨earlier, isFront, same⟩ :=
        List.mem_map.mp (among (List.mem_map_of_mem member))
      exact pair_injective same ▸ isFront
  | @string text kept =>
      obtain ⟨front, rest, -, -, behind⟩ :=
        List.map_eq_append_iff.mp (Option.some_inj.mp held)
      obtain ⟨letter, back, -, rfl, -⟩ := List.map_eq_cons_iff.mp behind
      have scalar : Text.scalar? (Text.code letter) = some letter :=
        dif_pos letter.valid
      refine ⟨_, ?_, string_push⟩
      simp [StackAssembly.collect, append, scalar]

end Value

/-- The verdict of a callable decides whether an element is kept. -/
def accepted (verdict : Value → Value) (element : Value) : Bool :=
  (verdict element).isTrue

section Verdicts

variable {verdict : Value → Value} {container out : Value}
  {before elements after : List Value}

/-- The selection goes through elements of the container as long as their
verdicts are truth values. -/
theorem Value.Selects.leads
    (selects : container.Selects (before.filter (accepted verdict)) out)
    (held : container.elements? = some (before ++ (elements ++ after)))
    (distinct : PartCondition.distinct.onValue container)
    (judged : ∀ element ∈ elements, (verdict element).kind = .boolean) :
    ∃ last,
      container.Selects ((before ++ elements).filter (accepted verdict))
        last ∧
      Leads (fun element _ => [element]) retain elements out
        (elements.map (imageStep verdict)) (.ok last) := by
  induction elements generalizing before out with
  | nil =>
      rw [List.append_nil]
      exact ⟨out, selects, .done⟩
  | cons element elements ih =>
      rw [List.cons_append] at held
      have isTruth := eq_boolean_of_kind (judged element List.mem_cons_self)
      -- Put back or left out, the element joins those that are done with.
      obtain ⟨later, retains, selectsLater⟩ : ∃ later,
          retain element out (verdict element) = .ok later ∧
          container.Selects
            ((before ++ [element]).filter (accepted verdict)) later := by
        rw [List.filter_append, isTruth]
        cases isTrue : accepted verdict element with
        | true =>
            rw [List.filter_cons_of_pos isTrue, List.filter_nil, ← accepted,
              isTrue]
            exact selects.collect held distinct List.filter_sublist.subset
        | false =>
            rw [List.filter_cons_of_neg (Bool.eq_false_iff.mp isTrue),
              List.filter_nil, List.append_nil, ← accepted, isTrue]
            exact ⟨out, rfl, selects⟩
      rw [List.append_cons] at held
      obtain ⟨last, all, leads⟩ := ih selectsLater held fun other among =>
        judged other (List.mem_cons_of_mem _ among)
      refine ⟨last, ?_, .accepted retains leads⟩
      rwa [List.append_cons]

/-- The selection ends at the first element whose verdict is no truth
value. -/
theorem Value.leads_of_no_truth {element : Value}
    (noTruth : (verdict element).kind ≠ .boolean) (after : List Value) :
    Leads (fun element _ => [element]) retain (element :: after) out
      ([element].map (imageStep verdict)) (.error .typeMismatch) := by
  refine .refused ?_
  revert noTruth
  cases verdict element with
  | boolean truth => exact fun noTruth => absurd rfl noTruth
  | _ => exact fun _ => rfl

end Verdicts

/-- Over a callable that gives every element a verdict, `filter` leaves a
container of the same kind with the elements whose verdict is `true`, in their
order, if all verdicts are truth values.  Otherwise it goes as far as the first
element whose verdict is none, and leaves its operands with an error on top.
The container is to hold no key or member twice, as all that are built do. -/
theorem filter_keeps_accepted {ν : Type} {host : Host ν}
    {machine : Machine ν} {callable : Operation} {container : Value}
    {base elements : List Value} {verdict : Value → Value}
    (stack : machine.stack = .operation callable :: container :: base)
    (held : container.elements? = some elements)
    (distinct : PartCondition.distinct.onValue container)
    (yields : ∀ element ∈ elements,
      Yields host callable machine [element] (verdict element)) :
    ((∀ element ∈ elements, (verdict element).kind = .boolean) →
      ∃ out moments shown,
        out.kind = container.kind ∧
        out.elements? =
          some (elements.filter fun element => (verdict element).isTrue) ∧
        StepsThrough host callable machine base
          (elements.map (imageStep verdict)) machine.output moments shown ∧
        Runs host (.primitive .filter) machine
          (.start (.primitive .filter) machine :: moments)
          (.success, machine.having (out :: base) shown)) ∧
    ((∃ element ∈ elements, (verdict element).kind ≠ .boolean) →
      ∃ before element after moments shown left,
        elements = before ++ element :: after ∧
        (∀ earlier ∈ before, (verdict earlier).kind = .boolean) ∧
        (verdict element).kind ≠ .boolean ∧
        StepsThrough host callable machine base
          ((before ++ [element]).map (imageStep verdict)) machine.output
          moments shown ∧
        left = machine.having (.error .typeMismatch ::
          .operation callable :: container :: base) shown ∧
        Runs host (.primitive .filter) machine
          (.start (.primitive .filter) machine ::
            (moments ++ [{ event := .raises .typeMismatch, machine := left }]))
          (.error, left)) := by
  obtain ⟨emptied, empties, nothing⟩ := Value.exists_selects_nil held
  have planned : Plan.ofOperation machine (.primitive .filter) =
      .ofContainer retain machine := rfl
  constructor
  · intro judged
    rw [← List.append_nil elements] at held
    obtain ⟨out, selects, leads⟩ :=
      @Value.Selects.leads verdict _ _ [] _ _ nothing held distinct judged
    rw [List.append_nil] at held
    obtain ⟨moments, shown, through, ran⟩ :=
      Runs.exists_ofContainer planned stack held empties yields
        (List.Subset.refl _) leads
    refine ⟨out, moments, shown, selects.kind_eq, selects.elements?_eq,
      through, ?_⟩
    rw [← List.append_nil moments]
    exact ran
  · intro unjudged
    obtain ⟨before, element, after, rfl, judged, noTruth⟩ :=
      exists_first_without unjudged
    obtain ⟨out, -, leads⟩ :=
      @Value.Selects.leads verdict _ _ [] _ _ nothing held distinct judged
    have refused := leads.append (Value.leads_of_no_truth noTruth after)
    rw [← List.map_append] at refused
    have front : before ++ [element] ⊆ before ++ element :: after := by simp
    obtain ⟨moments, shown, through, ran⟩ :=
      Runs.exists_ofContainer planned stack held empties yields front refused
    exact ⟨before, element, after, moments, shown, _, rfl, judged, noTruth,
      through, rfl, ran⟩

/-- The entries of a table that differ from a given pair are kept.  A kind is
no truth value, so `filter` stops at the first kind of an entry. -/
theorem filter_drops_one_entry :
    let host : Host Empty := nofun
    let entry : Value := .pair (.number 2) (.string "b")
    let others : Value := .operation
      (.block [] [.push entry, .primitive .eq, .primitive .not])
    let kinds : Value := .operation (.primitive .typeOf)
    let table : Value := .table [(.number 1, .string "a"),
      (.number 2, .string "b"), (.number 3, .string "c")]
    let forOthers : Machine Empty := { stack := [others, table, .number 42] }
    let forKinds : Machine Empty := { stack := [kinds, table] }
    (∃ out moments shown,
      out.kind = .table ∧
      out.elements? = some [.pair (.number 1) (.string "a"),
        .pair (.number 3) (.string "c")] ∧
      Runs host (.primitive .filter) forOthers moments
        (.success, forOthers.having [out, .number 42] shown)) ∧
    ∃ moments shown,
      Runs host (.primitive .filter) forKinds moments
        (.error, forKinds.having
          (.error .typeMismatch :: forKinds.stack) shown) := by
  intro host entry others kinds table forOthers forKinds
  have distinct : PartCondition.distinct.onValue table :=
    show Entries.Distinct _ by decide
  have differs : ∀ element, Yields host
      (.block [] [.push entry, .primitive .eq, .primitive .not]) forOthers
      [element] (.boolean (!entry.equal element)) := by
    rintro element stack ⟨printed, _ | told⟩
    · exact ⟨_, ⟨printed, none⟩, 6, rfl, rfl⟩
    · exact ⟨_, ⟨printed, some _⟩, 6, rfl, rfl⟩
  have kind : ∀ element, Yields host (.primitive .typeOf) forKinds [element]
      (.type element.kind) :=
    fun element stack output => ⟨_, output, 1, rfl, rfl⟩
  constructor
  · obtain ⟨out, moments, shown, kind, kept, -, ran⟩ :=
      (@filter_keeps_accepted Empty host forOthers _ _ _ _ _ rfl rfl distinct
        fun element _ => differs element).1 fun _ _ => rfl
    exact ⟨out, _, shown, kind, kept, ran⟩
  · obtain ⟨_, _, _, moments, shown, left, -, -, -, -, rfl, ran⟩ :=
      (@filter_keeps_accepted Empty host forKinds _ _ _ _ _ rfl rfl distinct
        fun element _ => kind element).2
        ⟨_, List.mem_cons_self, by decide⟩
    exact ⟨_, shown, ran⟩

end StackAssembly
