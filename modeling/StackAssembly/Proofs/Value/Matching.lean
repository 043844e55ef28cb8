import Mathlib.Data.List.Forall2

/-!
# Lists that match one another

A list *matches* another if both are equally long and every item of the first
has a counterpart in the second.  Where no two items share a counterpart, this
says that the second list can be put into an order in which it corresponds to
the first one, item by item.

A comparison is *coherent* at an item if it treats this item as an equivalence
would.  From coherence at the items of a list follows coherence at the list,
whether lists are compared item by item or matched.  So the coherence of a
comparison that descends into its arguments is shown by descending into one of
them only.
-/

namespace StackAssembly

section Matched

variable {α β : Type} {same : α → β → Prop} {left : List α} {right : List β}

/-- Whether two lists are equally long and every item of the first has a
counterpart in the second. -/
structure Matched (same : α → β → Prop) (left : List α) (right : List β) :
    Prop where
  length : left.length = right.length
  within : ∀ item ∈ left, ∃ other ∈ right, same item other

theorem matched_iff :
    Matched same left right ↔ left.length = right.length ∧
      ∀ item ∈ left, ∃ other ∈ right, same item other :=
  ⟨fun ⟨length, within⟩ => ⟨length, within⟩,
    fun ⟨length, within⟩ => ⟨length, within⟩⟩

/-- If no two items share a counterpart, the counterparts can be put in front
of the other list, in the order of the items. -/
theorem exists_order_of_within
    (unshared : ∀ other ∈ right,
      left.Pairwise fun first second =>
        ¬ (same first other ∧ same second other))
    (within : ∀ item ∈ left, ∃ other ∈ right, same item other) :
    ∃ order rest, (order ++ rest).Perm right ∧
      List.Forall₂ same left order := by
  induction left generalizing right with
  | nil => exact ⟨[], right, .refl _, .nil⟩
  | cons item left ih =>
      obtain ⟨here, later⟩ := List.forall_mem_cons.mp within
      obtain ⟨other, among, counterpart⟩ := here
      obtain ⟨before, behind, rfl⟩ := List.append_of_mem among
      have unsharedLater : ∀ third ∈ before ++ behind,
          left.Pairwise fun first second =>
            ¬ (same first third ∧ same second third) := by
        intro third member
        refine (List.pairwise_cons.mp (unshared third ?_)).2
        rw [List.mem_append, List.mem_cons]
        exact (List.mem_append.mp member).imp_right .inr
      -- The counterpart of the first item is that of no other one.
      have withinLater : ∀ next ∈ left,
          ∃ third ∈ before ++ behind, same next third := by
        intro next member
        obtain ⟨third, amongAll, sameNext⟩ := later next member
        refine ⟨third, ?_, sameNext⟩
        have apart := (List.pairwise_cons.mp (unshared other among)).1 next
          member
        simp only [List.mem_append, List.mem_cons] at amongAll ⊢
        rcases amongAll with front | rfl | back
        · exact .inl front
        · exact absurd ⟨counterpart, sameNext⟩ apart
        · exact .inr back
      obtain ⟨order, rest, permutes, corresponds⟩ :=
        ih unsharedLater withinLater
      exact ⟨other :: order, rest,
        (permutes.cons other).trans List.perm_middle.symm,
        .cons counterpart corresponds⟩

theorem length_le_of_within
    (unshared : ∀ other ∈ right,
      left.Pairwise fun first second =>
        ¬ (same first other ∧ same second other))
    (within : ∀ item ∈ left, ∃ other ∈ right, same item other) :
    left.length ≤ right.length := by
  obtain ⟨order, rest, permutes, corresponds⟩ :=
    exists_order_of_within unshared within
  have all := permutes.length_eq
  rw [List.length_append, ← corresponds.length_eq] at all
  omega

/-- Lists that match correspond in some order. -/
theorem Matched.exists_order (matched : Matched same left right)
    (unshared : ∀ other ∈ right,
      left.Pairwise fun first second =>
        ¬ (same first other ∧ same second other)) :
    ∃ order, order.Perm right ∧ List.Forall₂ same left order := by
  obtain ⟨order, rest, permutes, corresponds⟩ :=
    exists_order_of_within unshared matched.within
  have all := permutes.length_eq
  rw [List.length_append, ← corresponds.length_eq, matched.length] at all
  obtain rfl := List.length_eq_zero_iff.mp (Nat.left_eq_add.mp all.symm)
  rw [List.append_nil] at permutes
  exact ⟨order, permutes, corresponds⟩

theorem Matched.ofOrder {order : List β} (permutes : order.Perm right)
    (corresponds : List.Forall₂ same left order) :
    Matched same left right where
  length := corresponds.length_eq.trans permutes.length_eq
  within := by
    intro item member
    induction corresponds generalizing right with
    | nil => cases member
    | @cons first other left order here later ih =>
        rcases List.mem_cons.mp member with rfl | later
        · exact ⟨other, permutes.subset List.mem_cons_self, here⟩
        · obtain ⟨third, among, same⟩ := ih (.refl order) later
          exact ⟨third, permutes.subset (List.mem_cons_of_mem _ among), same⟩

/-- Lists correspond under a relation if they do under one that says the same
of their items. -/
theorem forall₂_congr_of_mem {alike : α → β → Prop}
    (agree : ∀ item ∈ left, ∀ other ∈ right,
      (same item other ↔ alike item other)) :
    List.Forall₂ same left right ↔ List.Forall₂ alike left right := by
  induction left generalizing right with
  | nil => simp
  | cons item left ih =>
      cases right with
      | nil => simp
      | cons other right =>
          rw [List.forall₂_cons, List.forall₂_cons,
            agree item List.mem_cons_self other List.mem_cons_self,
            ih fun next member third among =>
              agree next (List.mem_cons_of_mem _ member) third
                (List.mem_cons_of_mem _ among)]

end Matched

/-- Whether a comparison treats an item, beside others of some kind, as an
equivalence would. -/
structure CoherentAt {α : Type} (good : α → Prop) (same : α → α → Prop)
    (item : α) : Prop where
  symm : ∀ other, good other → (same item other ↔ same other item)
  congr : ∀ other third, good other → good third → same item other →
    (same item third ↔ same other third)

namespace CoherentAt

variable {α β : Type} {good : α → Prop} {same : α → α → Prop} {item : α}
  {items others : List α}

/-- Equality is coherent everywhere. -/
theorem ofEq (item : α) : CoherentAt (fun _ => True) Eq item where
  symm _ _ := eq_comm
  congr _ _ _ _ equal := by rw [equal]

/-- A comparison is coherent at an item that is the same as itself only. -/
theorem ofAlone (forward : ∀ other, same item other ↔ item = other)
    (backward : ∀ other, same other item ↔ other = item) :
    CoherentAt good same item where
  symm other _ :=
    (forward other).trans (eq_comm.trans (backward other).symm)
  congr other third _ _ equal := by rw [(forward other).mp equal]

/-- Options of which both are absent or the same. -/
theorem option {option : Option α}
    (coherent : ∀ item ∈ option, CoherentAt good same item) :
    CoherentAt (fun other => ∀ item ∈ other, good item)
      (Option.Rel same) option where
  symm other isGood := by
    cases option <;> cases other <;> simp
    exact (coherent _ rfl).symm _ (isGood _ rfl)
  congr other third isGood goodThird equal := by
    cases equal with
    | none => rfl
    | some equal =>
        cases third <;> simp
        exact (coherent _ rfl).congr _ _ (isGood _ rfl) (goodThird _ rfl)
          equal

/-- A comparison of pairs is coherent where those of their components are. -/
theorem prod {goodSecond : β → Prop} {sameSecond : β → β → Prop} {second : β}
    (one : CoherentAt good same item)
    (two : CoherentAt goodSecond sameSecond second) :
    CoherentAt (fun pair : α × β => good pair.1 ∧ goodSecond pair.2)
      (fun pair other => same pair.1 other.1 ∧ sameSecond pair.2 other.2)
      (item, second) where
  symm _ isGood :=
    and_congr (one.symm _ isGood.1) (two.symm _ isGood.2)
  congr _ _ isGood goodThird equal :=
    and_congr (one.congr _ _ isGood.1 goodThird.1 equal.1)
      (two.congr _ _ isGood.2 goodThird.2 equal.2)

/-- A comparison that looks behind a constructor is coherent where the
comparison behind it is. -/
theorem ofShape (wrap : β → α) {goodInside : β → Prop}
    {inside : β → β → Prop} {content : β}
    (forward : ∀ first other, same (wrap first) other ↔
      ∃ next, other = wrap next ∧ inside first next)
    (backward : ∀ first other, same other (wrap first) ↔
      ∃ next, other = wrap next ∧ inside next first)
    (unwraps : ∀ next, good (wrap next) → goodInside next)
    (coherent : CoherentAt goodInside inside content) :
    CoherentAt good same (wrap content) where
  symm other isGood := by
    rw [forward, backward]
    refine exists_congr fun next => and_congr_right ?_
    rintro rfl
    exact coherent.symm next (unwraps next isGood)
  congr other third isGood goodThird equal := by
    obtain ⟨next, rfl, here⟩ := (forward content other).mp equal
    rw [forward, forward]
    refine exists_congr fun last => and_congr_right ?_
    rintro rfl
    exact coherent.congr next last (unwraps next isGood)
      (unwraps last goodThird) here

/-- An item is the same as no two of the others if no two of them are the
same. -/
theorem unshared (coherent : CoherentAt good same item)
    (isGood : ∀ other ∈ others, good other)
    (distinct : others.Pairwise fun earlier later => ¬ same later earlier) :
    others.Pairwise fun first second =>
      ¬ (same item first ∧ same item second) := by
  refine distinct.imp_of_mem fun {first second} one two apart both => ?_
  exact apart ((coherent.congr second first (isGood second two)
    (isGood first one) both.2).mp both.1)

/-- No two items that are not the same are the same as one other. -/
theorem unsharedBy {other : α}
    (coherent : ∀ item ∈ items, CoherentAt good same item)
    (isGood : ∀ item ∈ items, good item) (goodOther : good other)
    (distinct : items.Pairwise fun earlier later => ¬ same later earlier) :
    items.Pairwise fun first second =>
      ¬ (same first other ∧ same second other) := by
  refine distinct.imp_of_mem fun {first second} one two apart both => ?_
  have back := ((coherent first one).symm other goodOther).mp both.1
  exact apart (((coherent second two).congr other first goodOther
    (isGood first one) both.2).mpr back)

/-- Lists that are compared item by item. -/
theorem forall₂ (coherent : ∀ item ∈ items, CoherentAt good same item) :
    CoherentAt (fun others => ∀ other ∈ others, good other)
      (List.Forall₂ same) items where
  symm others isGood := by
    induction items generalizing others with
    | nil => cases others <;> simp
    | cons item items ih =>
        cases others with
        | nil => simp
        | cons other others =>
            obtain ⟨here, later⟩ := List.forall_mem_cons.mp coherent
            obtain ⟨goodOther, goodLater⟩ := List.forall_mem_cons.mp isGood
            rw [List.forall₂_cons, List.forall₂_cons,
              here.symm other goodOther, ih later others goodLater]
  congr others thirds isGood goodThirds equal := by
    induction equal generalizing thirds with
    | nil => rfl
    | @cons item other items others equal later ih =>
        cases thirds with
        | nil => simp
        | cons third thirds =>
            obtain ⟨here, coherentLater⟩ := List.forall_mem_cons.mp coherent
            obtain ⟨goodOther, goodLater⟩ := List.forall_mem_cons.mp isGood
            obtain ⟨goodThird, goodLast⟩ :=
              List.forall_mem_cons.mp goodThirds
            rw [List.forall₂_cons, List.forall₂_cons,
              here.congr other third goodOther goodThird equal,
              ih coherentLater thirds goodLater goodLast]

/-- Lists without repetition that are matched. -/
theorem matched (coherent : ∀ item ∈ items, CoherentAt good same item)
    (good_items : ∀ item ∈ items, good item)
    (distinct : items.Pairwise fun earlier later => ¬ same later earlier) :
    CoherentAt
      (fun others => (∀ other ∈ others, good other) ∧
        others.Pairwise fun earlier later => ¬ same later earlier)
      (Matched same) items := by
  have unsharedItems : ∀ other, good other →
      items.Pairwise fun first second =>
        ¬ (same first other ∧ same second other) :=
    fun other goodOther =>
      unsharedBy coherent good_items goodOther distinct
  -- Everything in a matched list is a counterpart, since none are shared.
  have back : ∀ others, (∀ other ∈ others, good other) →
      Matched same items others →
        ∀ other ∈ others, ∃ item ∈ items, same item other := by
    intro others isGood matched other member
    obtain ⟨order, permutes, corresponds⟩ :=
      matched.exists_order fun other among =>
        unsharedItems other (isGood other among)
    exact (Matched.ofOrder (.refl items) corresponds.flip).within other
      (permutes.mem_iff.mpr member)
  constructor
  · rintro others ⟨isGood, apart⟩
    constructor
    · intro matched
      refine ⟨matched.length.symm, fun other member => ?_⟩
      obtain ⟨item, among, equal⟩ := back others isGood matched other member
      exact ⟨item, among,
        ((coherent item among).symm other (isGood other member)).mp equal⟩
    · intro matched
      have unsharedOthers : ∀ item ∈ items,
          others.Pairwise fun first second =>
            ¬ (same first item ∧ same second item) := by
        intro item among
        refine ((coherent item among).unshared isGood apart).imp_of_mem
          fun {first second} one two apart both => apart ⟨?_, ?_⟩
        · exact ((coherent item among).symm first (isGood first one)).mpr
            both.1
        · exact ((coherent item among).symm second (isGood second two)).mpr
            both.2
      obtain ⟨order, permutes, corresponds⟩ :=
        matched.exists_order unsharedOthers
      refine ⟨matched.length.symm, fun item member => ?_⟩
      obtain ⟨other, among, equal⟩ :=
        (Matched.ofOrder (.refl others) corresponds.flip).within item
          (permutes.mem_iff.mpr member)
      exact ⟨other, among,
        ((coherent item member).symm other (isGood other among)).mpr equal⟩
  · rintro others thirds ⟨isGood, -⟩ ⟨goodThirds, -⟩ matched
    constructor
    · intro equal
      refine ⟨matched.length.symm.trans equal.length, fun other member => ?_⟩
      obtain ⟨item, among, same⟩ := back others isGood matched other member
      obtain ⟨third, last, reached⟩ := equal.within item among
      exact ⟨third, last, ((coherent item among).congr other third
        (isGood other member) (goodThirds third last) same).mp reached⟩
    · intro equal
      refine ⟨matched.length.trans equal.length, fun item member => ?_⟩
      obtain ⟨other, among, same⟩ := matched.within item member
      obtain ⟨third, last, reached⟩ := equal.within other among
      exact ⟨third, last, ((coherent item member).congr other third
        (isGood other among) (goodThirds third last) same).mpr reached⟩

end CoherentAt
end StackAssembly
