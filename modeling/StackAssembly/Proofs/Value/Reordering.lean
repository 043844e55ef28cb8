import Mathlib.Data.UInt
import StackAssembly.Proofs.Value.Equality

/-!
# Equality up to the order of insertion

A value is a *reordering* of another if the two differ only in the order in
which their tables and sets were filled, at whatever depth.  Values that
repeat nothing are equal exactly if they are reorderings, and what a value
feeds to a digest is the same for all its reorderings.
-/

namespace StackAssembly

mutual

/-- Whether a value is another one with its tables and sets filled in another
order, at whatever depth. -/
inductive Value.Reordered : Value → Value → Prop where
  | plain {value : Value} : value.isPlain = true →
      Value.Reordered value value
  | tuple {items others : List Value} :
      List.Forall₂ Value.Reordered items others →
        Value.Reordered (.tuple items) (.tuple others)
  | table {entries order others : List (Value × Value)} :
      order.Perm others →
        List.Forall₂ Value.Reordered (entries.map Prod.fst)
          (order.map Prod.fst) →
          List.Forall₂ Value.Reordered (entries.map Prod.snd)
            (order.map Prod.snd) →
            Value.Reordered (.table entries) (.table others)
  | set {members order others : List Value} :
      order.Perm others → List.Forall₂ Value.Reordered members order →
        Value.Reordered (.set members) (.set others)
  | operation {body other : Operation} :
      Operation.Reordered body other →
        Value.Reordered (.operation body) (.operation other)

/-- Whether an operation is another one whose values are filled in another
order. -/
inductive Operation.Reordered : Operation → Operation → Prop where
  | plain {operation : Operation} : operation.isPlain = true →
      Operation.Reordered operation operation
  | push {value other : Value} :
      Value.Reordered value other →
        Operation.Reordered (.push value) (.push other)
  | ifTrue {body other : Operation} :
      Operation.Reordered body other →
        Operation.Reordered (.ifTrue body) (.ifTrue other)
  | select {cases order others : List (Value × Value)}
      {otherwise other : Option Operation} :
      order.Perm others →
        List.Forall₂ Value.Reordered (cases.map Prod.fst)
          (order.map Prod.fst) →
          List.Forall₂ Value.Reordered (cases.map Prod.snd)
            (order.map Prod.snd) →
            Option.Rel Operation.Reordered otherwise other →
              Operation.Reordered (.select cases otherwise)
                (.select others other)
  | call {target : String} {arguments others : List Value} :
      List.Forall₂ Value.Reordered arguments others →
        Operation.Reordered (.call target arguments) (.call target others)
  | block {slots : List String} {operations others : List Operation} :
      List.Forall₂ Operation.Reordered operations others →
        Operation.Reordered (.block slots operations) (.block slots others)
  | partialBind {value other : Value} {callable next : Operation} :
      Value.Reordered value other → Operation.Reordered callable next →
        Operation.Reordered (.partialBind value callable)
          (.partialBind other next)

end

theorem Value.RepeatsNothing.coherentAt {value : Value}
    (unrepeated : value.RepeatsNothing) :
    CoherentAt Value.RepeatsNothing Value.Same value :=
  coherent_equality.value value unrepeated

namespace Entries

variable {left right entries : Entries}

/-- No key is that of two entries. -/
theorem RepeatsNothing.unshared (unrepeated : entries.RepeatsNothing)
    {key : Value} (sound : key.RepeatsNothing) :
    entries.Pairwise fun first second =>
      ¬ (key.Same first.1 ∧ key.Same second.1) := by
  refine List.pairwise_map.mp (sound.coherentAt.unshared ?_ unrepeated.1.keys)
  exact List.forall_mem_map.mpr fun entry member =>
    (unrepeated.2 entry member).1

/-- No two entries are equal to one other. -/
theorem RepeatsNothing.unsharedBy (unrepeated : entries.RepeatsNothing)
    {other : Value × Value}
    (sound : other.1.RepeatsNothing ∧ other.2.RepeatsNothing) :
    entries.Pairwise fun first second =>
      ¬ (SameEntry first other ∧ SameEntry second other) := by
  have unshared := CoherentAt.unsharedBy
    (fun entry member => (unrepeated.2 entry member).1.coherentAt.prod
      (unrepeated.2 entry member).2.coherentAt)
    unrepeated.2 sound unrepeated.1.apart
  exact unshared

theorem RepeatsNothing.coherentAt (unrepeated : entries.RepeatsNothing) :
    CoherentAt RepeatsNothing Same entries :=
  coherentAt_same (fun entry member =>
    ⟨(unrepeated.2 entry member).1.coherentAt,
      (unrepeated.2 entry member).2.coherentAt⟩) unrepeated

/-- Tables are equal if they match. -/
theorem same_iff (sound : left.RepeatsNothing)
    (unrepeated : right.RepeatsNothing) :
    Same left right ↔ Matched SameEntry left right :=
  same_iff_matched fun entry member =>
    unrepeated.unshared (sound.2 entry member).1

/-- Entries correspond if their keys and their values do. -/
theorem forall₂_iff {first second : Value → Value → Prop} :
    List.Forall₂ (fun entry other : Value × Value =>
        first entry.1 other.1 ∧ second entry.2 other.2) left right ↔
      List.Forall₂ first (left.map Prod.fst) (right.map Prod.fst) ∧
        List.Forall₂ second (left.map Prod.snd) (right.map Prod.snd) := by
  induction left generalizing right with
  | nil => cases right <;> simp
  | cons entry left ih =>
      cases right with
      | nil => simp
      | cons other right =>
          simp only [List.map_cons, List.forall₂_cons, ih]
          exact and_and_and_comm

end Entries

/-- No two members are equal to one other value. -/
theorem Members.RepeatsNothing.unsharedBy {members : Members}
    (unrepeated : members.RepeatsNothing) {other : Value}
    (sound : other.RepeatsNothing) :
    members.Pairwise fun first second =>
      ¬ (first.Same other ∧ second.Same other) :=
  CoherentAt.unsharedBy
    (fun member among => (unrepeated.2 member among).coherentAt)
    unrepeated.2 sound unrepeated.1.apart

/-- Everything is a reordering of itself. -/
theorem reflexive_reordering :
    PartCases (fun value => value.Reordered value)
      (fun operation => operation.Reordered operation) where
  plainValue value plain := .plain plain
  tuple items ih := .tuple (List.forall₂_same.mpr ih)
  table entries ih :=
    .table (.refl entries)
      (List.forall₂_same.mpr (List.forall_mem_map.mpr fun entry member =>
        (ih entry member).1))
      (List.forall₂_same.mpr (List.forall_mem_map.mpr fun entry member =>
        (ih entry member).2))
  set members ih := .set (.refl members) (List.forall₂_same.mpr ih)
  operation body ih := .operation ih
  plainOperation operation plain := .plain plain
  push value ih := .push ih
  ifTrue body ih := .ifTrue ih
  select cases otherwise ih ihElse := by
    refine .select (.refl cases)
      (List.forall₂_same.mpr (List.forall_mem_map.mpr fun entry member =>
        (ih entry member).1))
      (List.forall₂_same.mpr (List.forall_mem_map.mpr fun entry member =>
        (ih entry member).2)) ?_
    cases otherwise with
    | none => exact .none
    | some operation => exact .some (ihElse operation rfl)
  call target arguments ih := .call (List.forall₂_same.mpr ih)
  block slots operations ih := .block (List.forall₂_same.mpr ih)
  partialBind value callable ih ihCallable := .partialBind ih ihCallable

/-- Tables are equal if one is the other in another order, provided that this
is so of the values in them. -/
theorem Entries.same_iff_order {entries others : Entries}
    (agree : ∀ entry ∈ entries,
      (∀ other, other.RepeatsNothing →
        (entry.1.Same other ↔ entry.1.Reordered other)) ∧
      ∀ other, other.RepeatsNothing →
        (entry.2.Same other ↔ entry.2.Reordered other))
    (sound : entries.RepeatsNothing) (unrepeated : others.RepeatsNothing) :
    Same entries others ↔ ∃ order : Entries, order.Perm others ∧
      List.Forall₂ Value.Reordered (entries.map Prod.fst)
        (order.map Prod.fst) ∧
      List.Forall₂ Value.Reordered (entries.map Prod.snd)
        (order.map Prod.snd) := by
  have reorder : ∀ order : Entries, order.Perm others →
      (List.Forall₂ SameEntry entries order ↔
        List.Forall₂ Value.Reordered (entries.map Prod.fst)
          (order.map Prod.fst) ∧
        List.Forall₂ Value.Reordered (entries.map Prod.snd)
          (order.map Prod.snd)) := by
    intro order permutes
    rw [← forall₂_iff]
    refine forall₂_congr_of_mem fun entry member other among => ?_
    have good := unrepeated.2 other (permutes.subset among)
    exact and_congr ((agree entry member).1 other.1 good.1)
      ((agree entry member).2 other.2 good.2)
  rw [same_iff sound unrepeated]
  constructor
  · intro matched
    obtain ⟨order, permutes, corresponds⟩ :=
      matched.exists_order fun other among =>
        sound.unsharedBy (unrepeated.2 other among)
    exact ⟨order, permutes, (reorder order permutes).mp corresponds⟩
  · rintro ⟨order, permutes, corresponds⟩
    exact .ofOrder permutes ((reorder order permutes).mpr corresponds)

/-- Sets are equal if one is the other in another order, provided that this is
so of the values in them. -/
theorem Members.matched_iff_order {members others : Members}
    (agree : ∀ member ∈ members, ∀ other, other.RepeatsNothing →
      (member.Same other ↔ member.Reordered other))
    (sound : members.RepeatsNothing) (unrepeated : others.RepeatsNothing) :
    Matched Value.Same members others ↔
      ∃ order : Members, order.Perm others ∧
        List.Forall₂ Value.Reordered members order := by
  have reorder : ∀ order : Members, order.Perm others →
      (List.Forall₂ Value.Same members order ↔
        List.Forall₂ Value.Reordered members order) :=
    fun order permutes => forall₂_congr_of_mem fun member among other found =>
      agree member among other (unrepeated.2 other (permutes.subset found))
  constructor
  · intro matched
    obtain ⟨order, permutes, corresponds⟩ :=
      matched.exists_order fun other among =>
        sound.unsharedBy (unrepeated.2 other among)
    exact ⟨order, permutes, (reorder order permutes).mp corresponds⟩
  · rintro ⟨order, permutes, corresponds⟩
    exact .ofOrder permutes ((reorder order permutes).mpr corresponds)

/-- Options are related alike if their contents are. -/
theorem optionRel_congr_of_mem {α β : Type} {same alike : α → β → Prop}
    {left : Option α} {right : Option β}
    (agree : ∀ item ∈ left, ∀ other ∈ right,
      (same item other ↔ alike item other)) :
    Option.Rel same left right ↔ Option.Rel alike left right := by
  cases left <;> cases right <;> simp
  exact agree _ rfl _ rfl

/-- Two conditions that look behind a constructor agree if those behind it
do. -/
theorem agree_ofShape {α β : Type} {good : α → Prop}
    {same alike : α → Prop} (wrap : β → α) {sameInside alikeInside : β → Prop}
    (one : ∀ other, same other ↔ ∃ next, other = wrap next ∧ sameInside next)
    (two : ∀ other, alike other ↔
      ∃ next, other = wrap next ∧ alikeInside next)
    (agree : ∀ next, good (wrap next) →
      (sameInside next ↔ alikeInside next))
    (other : α) (isGood : good other) : same other ↔ alike other := by
  rw [one, two]
  refine exists_congr fun next => and_congr_right ?_
  rintro rfl
  exact agree next isGood

/-- Values that repeat nothing are equal if they are reorderings of one
another. -/
theorem reordering_equality :
    PartCases
      (fun value => value.RepeatsNothing → ∀ other, other.RepeatsNothing →
        (value.Same other ↔ value.Reordered other))
      (fun operation => operation.RepeatsNothing →
        ∀ other, other.RepeatsNothing →
          (operation.Same other ↔ operation.Reordered other)) where
  plainValue value plain _ other _ := by
    rw [(Value.equal_iff_of_plain plain other).1]
    constructor
    · rintro rfl
      exact .plain plain
    · intro reordered
      cases reordered <;> first | rfl | cases plain
  tuple items ih unrepeated := by
    have each := repeatsNothing_tuple.mp unrepeated
    refine agree_ofShape Value.tuple (fun _ => same_tuple_iff)
      (fun other => ⟨fun reordered => ?_, ?_⟩) fun others good =>
        forall₂_congr_of_mem fun item member next among =>
          ih item member (each item member) next
            (repeatsNothing_tuple.mp good next among)
    · cases reordered with
      | plain impossible => cases impossible
      | tuple corresponds => exact ⟨_, rfl, corresponds⟩
    · rintro ⟨others, rfl, corresponds⟩
      exact .tuple corresponds
  table entries ih unrepeated := by
    have each := repeatsNothing_table.mp unrepeated
    refine agree_ofShape Value.table (fun _ => same_table_iff)
      (fun other => ⟨fun reordered => ?_, ?_⟩) fun others good =>
        Entries.same_iff_order (fun entry member =>
          ⟨(ih entry member).1 (each.2 entry member).1,
            (ih entry member).2 (each.2 entry member).2⟩) each
          (repeatsNothing_table.mp good)
    · cases reordered with
      | plain impossible => cases impossible
      | table permutes keys values =>
          exact ⟨_, rfl, _, permutes, keys, values⟩
    · rintro ⟨others, rfl, order, permutes, keys, values⟩
      exact .table permutes keys values
  set members ih unrepeated := by
    have each := repeatsNothing_set.mp unrepeated
    refine agree_ofShape Value.set (fun _ => same_set_iff)
      (fun other => ⟨fun reordered => ?_, ?_⟩) fun others good =>
        Members.matched_iff_order
          (fun member among => ih member among (each.2 member among)) each
          (repeatsNothing_set.mp good)
    · cases reordered with
      | plain impossible => cases impossible
      | set permutes corresponds => exact ⟨_, rfl, _, permutes, corresponds⟩
    · rintro ⟨others, rfl, order, permutes, corresponds⟩
      exact .set permutes corresponds
  operation body ih unrepeated := by
    have sound := repeatsNothing_operation.mp unrepeated
    refine agree_ofShape Value.operation (fun _ => same_operation_iff)
      (fun other => ⟨fun reordered => ?_, ?_⟩) fun next good =>
        ih sound next (repeatsNothing_operation.mp good)
    · cases reordered with
      | plain impossible => cases impossible
      | operation inside => exact ⟨_, rfl, inside⟩
    · rintro ⟨next, rfl, inside⟩
      exact .operation inside
  plainOperation operation plain _ other _ := by
    rw [(Operation.equal_iff_of_plain plain other).1]
    constructor
    · rintro rfl
      exact .plain plain
    · intro reordered
      cases reordered <;> first | rfl | cases plain
  push value ih unrepeated := by
    have sound := repeatsNothing_push.mp unrepeated
    refine agree_ofShape Operation.push (fun _ => same_push_iff)
      (fun other => ⟨fun reordered => ?_, ?_⟩) fun next good =>
        ih sound next (repeatsNothing_push.mp good)
    · cases reordered with
      | plain impossible => cases impossible
      | push inside => exact ⟨_, rfl, inside⟩
    · rintro ⟨next, rfl, inside⟩
      exact .push inside
  ifTrue body ih unrepeated := by
    have sound := repeatsNothing_ifTrue.mp unrepeated
    refine agree_ofShape Operation.ifTrue (fun _ => same_ifTrue_iff)
      (fun other => ⟨fun reordered => ?_, ?_⟩) fun next good =>
        ih sound next (repeatsNothing_ifTrue.mp good)
    · cases reordered with
      | plain impossible => cases impossible
      | ifTrue inside => exact ⟨_, rfl, inside⟩
    · rintro ⟨next, rfl, inside⟩
      exact .ifTrue inside
  select cases otherwise ih ihElse unrepeated := by
    obtain ⟨each, eachElse⟩ := repeatsNothing_select.mp unrepeated
    refine agree_ofShape
      (fun content : Entries × Option Operation =>
        Operation.select content.1 content.2)
      (fun _ => @same_select_iff (cases, otherwise) _)
      (fun other => ⟨fun reordered => ?_, ?_⟩) fun next good => and_congr
        (Entries.same_iff_order (fun entry member =>
          ⟨(ih entry member).1 (each.2 entry member).1,
            (ih entry member).2 (each.2 entry member).2⟩) each
          (repeatsNothing_select.mp good).1)
        (optionRel_congr_of_mem fun operation member other among =>
          ihElse operation member (eachElse operation member) other
            ((repeatsNothing_select.mp good).2 other among))
    · cases reordered with
      | plain impossible => cases impossible
      | select permutes keys values alternatives =>
          exact ⟨(_, _), rfl, ⟨_, permutes, keys, values⟩, alternatives⟩
    · rintro ⟨next, rfl, ⟨order, permutes, keys, values⟩, alternatives⟩
      exact .select permutes keys values alternatives
  call target arguments ih unrepeated := by
    have each := repeatsNothing_call.mp unrepeated
    refine agree_ofShape
      (fun content : String × List Value =>
        Operation.call content.1 content.2)
      (fun _ => @same_call_iff (target, arguments) _)
      (fun other => ⟨fun reordered => ?_, ?_⟩) fun next good =>
        and_congr_right fun _ =>
          forall₂_congr_of_mem fun argument member other among =>
            ih argument member (each argument member) other
              (repeatsNothing_call.mp good other among)
    · cases reordered with
      | plain impossible => cases impossible
      | call corresponds => exact ⟨(_, _), rfl, rfl, corresponds⟩
    · rintro ⟨⟨target, others⟩, rfl, rfl, corresponds⟩
      exact .call corresponds
  block slots operations ih unrepeated := by
    have each := repeatsNothing_block.mp unrepeated
    refine agree_ofShape
      (fun content : List String × List Operation =>
        Operation.block content.1 content.2)
      (fun _ => @same_block_iff (slots, operations) _)
      (fun other => ⟨fun reordered => ?_, ?_⟩) fun next good =>
        and_congr_right fun _ =>
          forall₂_congr_of_mem fun operation member other among =>
            ih operation member (each operation member) other
              (repeatsNothing_block.mp good other among)
    · cases reordered with
      | plain impossible => cases impossible
      | block corresponds => exact ⟨(_, _), rfl, rfl, corresponds⟩
    · rintro ⟨⟨slots, others⟩, rfl, rfl, corresponds⟩
      exact .block corresponds
  partialBind value callable ih ihCallable unrepeated := by
    obtain ⟨one, two⟩ := repeatsNothing_partialBind.mp unrepeated
    refine agree_ofShape
      (fun content : Value × Operation =>
        Operation.partialBind content.1 content.2)
      (fun _ => @same_partialBind_iff (value, callable) _)
      (fun other => ⟨fun reordered => ?_, ?_⟩) fun next good =>
        and_congr (ih one _ (repeatsNothing_partialBind.mp good).1)
          (ihCallable two _ (repeatsNothing_partialBind.mp good).2)
    · cases reordered with
      | plain impossible => cases impossible
      | partialBind value callable => exact ⟨(_, _), rfl, value, callable⟩
    · rintro ⟨next, rfl, value, callable⟩
      exact .partialBind value callable

section Digests

variable (digest : DigestFunction)

theorem itemWords_eq_flatMap (items : List Value) :
    itemWords digest items = items.flatMap (Value.words digest) := by
  induction items with
  | nil => rfl
  | cons value items ih => rw [itemWords, ih, List.flatMap_cons]

theorem operationWords_eq_flatMap (operations : List Operation) :
    operationWords digest operations =
      operations.flatMap (Operation.words digest) := by
  induction operations with
  | nil => rfl
  | cons operation operations ih =>
      rw [operationWords, ih, List.flatMap_cons]

/-- The sum of the digests of members does not depend on their order. -/
theorem memberDigests_perm {members others : List Value}
    (permutes : members.Perm others) :
    memberDigests digest members = memberDigests digest others := by
  induction permutes with
  | nil => rfl
  | cons member _ ih => rw [memberDigests, memberDigests, ih]
  | swap first second members =>
      simp only [memberDigests]
      rw [← UInt64.add_assoc, ← UInt64.add_assoc,
        UInt64.add_comm (digest (second.words digest))]
  | trans _ _ ih ihLater => exact ih.trans ihLater

/-- The sum of the digests of entries does not depend on their order. -/
theorem entryDigests_perm {entries others : List (Value × Value)}
    (permutes : entries.Perm others) :
    entryDigests digest entries = entryDigests digest others := by
  induction permutes with
  | nil => rfl
  | cons entry _ ih =>
      obtain ⟨key, value⟩ := entry
      rw [entryDigests, entryDigests, ih]
  | swap first second entries =>
      obtain ⟨firstKey, firstValue⟩ := first
      obtain ⟨secondKey, secondValue⟩ := second
      simp only [entryDigests]
      rw [← UInt64.add_assoc, ← UInt64.add_assoc,
        UInt64.add_comm
          (digest (secondKey.words digest ++ secondValue.words digest))]
  | trans _ _ ih ihLater => exact ih.trans ihLater

theorem memberDigests_eq_sum (members : List Value) :
    memberDigests digest members =
      ((members.map (Value.words digest)).map digest).sum := by
  induction members with
  | nil => rfl
  | cons member members ih =>
      rw [memberDigests, ih, List.map_cons, List.map_cons, List.sum_cons]

theorem entryDigests_eq_sum (entries : List (Value × Value)) :
    entryDigests digest entries =
      (List.zipWith (fun key value => digest (key ++ value))
        ((entries.map Prod.fst).map (Value.words digest))
        ((entries.map Prod.snd).map (Value.words digest))).sum := by
  induction entries with
  | nil => rfl
  | cons entry entries ih =>
      obtain ⟨key, value⟩ := entry
      rw [entryDigests, ih]
      rfl

end Digests

/-- Lists that correspond have equal images if related items do. -/
theorem map_eq_of_forall₂ {α β : Type} {related : α → α → Prop}
    {left right : List α} (image : α → β)
    (same : ∀ item ∈ left, ∀ other, related item other →
      image item = image other)
    (corresponds : List.Forall₂ related left right) :
    left.map image = right.map image := by
  induction corresponds with
  | nil => rfl
  | @cons item other left right here _ ih =>
      rw [List.map_cons, List.map_cons,
        same item List.mem_cons_self other here,
        ih fun next member => same next (List.mem_cons_of_mem item member)]

/-- The sum of the digests of entries is the same for entries that correspond
in another order. -/
theorem entryDigests_of_order {digest : DigestFunction}
    {entries order others : List (Value × Value)}
    (same : ∀ entry ∈ entries,
      (∀ other, entry.1.Reordered other →
        entry.1.words digest = other.words digest) ∧
      ∀ other, entry.2.Reordered other →
        entry.2.words digest = other.words digest)
    (permutes : order.Perm others)
    (keys : List.Forall₂ Value.Reordered (entries.map Prod.fst)
      (order.map Prod.fst))
    (values : List.Forall₂ Value.Reordered (entries.map Prod.snd)
      (order.map Prod.snd)) :
    entries.length = others.length ∧
      entryDigests digest entries = entryDigests digest others := by
  constructor
  · rw [← permutes.length_eq]
    simpa using keys.length_eq
  · rw [← entryDigests_perm digest permutes, entryDigests_eq_sum,
      entryDigests_eq_sum,
      map_eq_of_forall₂ _ (List.forall_mem_map.mpr fun entry member =>
        (same entry member).1) keys,
      map_eq_of_forall₂ _ (List.forall_mem_map.mpr fun entry member =>
        (same entry member).2) values]

/-- All reorderings feed the same words to a digest. -/
theorem words_of_reordering (digest : DigestFunction) :
    PartCases
      (fun value => ∀ other, value.Reordered other →
        value.words digest = other.words digest)
      (fun operation => ∀ other, operation.Reordered other →
        operation.words digest = other.words digest) where
  plainValue value plain other reordered := by
    cases reordered <;> first | rfl | cases plain
  tuple items ih other reordered := by
    cases reordered with
    | plain => rfl
    | tuple corresponds =>
        simp only [Value.words, itemWords_eq_flatMap, List.flatMap,
          map_eq_of_forall₂ _ ih corresponds, corresponds.length_eq]
  table entries ih other reordered := by
    cases reordered with
    | plain => rfl
    | table permutes keys values =>
        obtain ⟨length, sum⟩ := entryDigests_of_order ih permutes keys values
        simp only [Value.words, length, sum]
  set members ih other reordered := by
    cases reordered with
    | plain => rfl
    | set permutes corresponds =>
        have sum := memberDigests_perm digest permutes
        rw [memberDigests_eq_sum, ← map_eq_of_forall₂ _ ih corresponds,
          ← memberDigests_eq_sum] at sum
        simp only [Value.words, sum, corresponds.length_eq,
          permutes.length_eq]
  operation body ih other reordered := by
    cases reordered with
    | plain => rfl
    | operation inside => simp only [Value.words, ih _ inside]
  plainOperation operation plain other reordered := by
    cases reordered <;> first | rfl | cases plain
  push value ih other reordered := by
    cases reordered with
    | plain => rfl
    | push inside => simp only [Operation.words, ih _ inside]
  ifTrue body ih other reordered := by
    cases reordered with
    | plain => rfl
    | ifTrue inside => simp only [Operation.words, ih _ inside]
  select cases otherwise ih ihElse other reordered := by
    cases reordered with
    | plain => rfl
    | select permutes keys values alternatives =>
        obtain ⟨length, sum⟩ := entryDigests_of_order ih permutes keys values
        cases alternatives with
        | none => simp only [Operation.words, length, sum]
        | some inside =>
            simp only [Operation.words, alternativeWords, length, sum,
              ihElse _ rfl _ inside]
  call target arguments ih other reordered := by
    cases reordered with
    | plain => rfl
    | call corresponds =>
        simp only [Operation.words, itemWords_eq_flatMap, List.flatMap,
          map_eq_of_forall₂ _ ih corresponds, corresponds.length_eq]
  block slots operations ih other reordered := by
    cases reordered with
    | plain => rfl
    | block corresponds =>
        simp only [Operation.words, operationWords_eq_flatMap, List.flatMap,
          map_eq_of_forall₂ _ ih corresponds, corresponds.length_eq]
  partialBind value callable ih ihCallable other reordered := by
    cases reordered with
    | plain => rfl
    | partialBind one two =>
        simp only [Operation.words, ih _ one, ihCallable _ two]

end StackAssembly
