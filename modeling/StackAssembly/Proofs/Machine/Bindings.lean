import Mathlib.Data.List.Sort
import StackAssembly.Machine.Bindings

/-!
# Laws of bindings

A collection of bindings is determined by what is found under each name, since
its entries stand in the order of their names.  Binding a name unless it is
bound lets the first value of each name stay, and adds an entry exactly if the
name is free.
-/

namespace StackAssembly

/-- An entry of a free name is added to the others. -/
theorem perm_putEntry_of_free {name : String}
    {entries : List (String × Value)}
    (free : ∀ entry ∈ entries, entry.1 ≠ name) (value : Value) :
    (putEntry name value entries).Perm ((name, value) :: entries) := by
  induction entries with
  | nil => exact .refl _
  | cons head tail ih =>
      obtain ⟨differs, later⟩ := List.forall_mem_cons.mp free
      rw [putEntry]
      split
      · exact .refl _
      · rw [if_neg differs.symm]
        exact ((ih later).cons head).trans (.swap (name, value) head tail)

namespace Bindings

variable {bindings : Bindings} {name : String} {value : Value}

theorem get?_eq_none_iff :
    bindings.get? name = none ↔
      ∀ entry ∈ bindings.entries, entry.1 ≠ name := by
  rw [get?, Option.map_eq_none_iff, List.find?_eq_none]
  simp

theorem contains_eq_false_iff :
    bindings.contains name = false ↔ bindings.get? name = none := by
  rw [contains, Option.isSome_eq_false_iff, Option.isNone_iff_eq_none]

theorem contains_set {other : String} :
    (bindings.set name value).contains other = true ↔
      other = name ∨ bindings.contains other = true := by
  rw [contains, get?_set]
  split
  · next same => exact iff_of_true rfl (.inl same)
  · next differs => exact (or_iff_right differs).symm

/-- Behind binding a name the others are free that were free before. -/
theorem contains_set_eq_false_iff {other : String} :
    (bindings.set name value).contains other = false ↔
      other ≠ name ∧ bindings.contains other = false := by
  rw [← Bool.not_eq_true, contains_set, not_or, Bool.not_eq_true]

/-- What is found under a name is the entry of this name. -/
theorem get?_eq_some_iff :
    bindings.get? name = some value ↔ (name, value) ∈ bindings.entries := by
  rw [get?, Option.map_eq_some_iff]
  constructor
  · rintro ⟨⟨other, found⟩, first, rfl⟩
    have same : other = name := by simpa using List.find?_some first
    rw [← same]
    exact List.mem_of_find?_eq_some first
  · intro member
    obtain ⟨before, after, split⟩ := List.append_of_mem member
    have ordered := bindings.ordered
    rw [Ordered, split, List.pairwise_append] at ordered
    refine ⟨(name, value), List.find?_eq_some_iff_append.mpr
      ⟨beq_self_eq_true name, before, after, split,
        fun entry earlier => ?_⟩, rfl⟩
    have less := ordered.2.2 entry earlier _ List.mem_cons_self
    simpa using fun same : entry.1 = name => Std.lt_irrefl (same ▸ less)

/-- Collections in which the same is found under every name are equal. -/
theorem eq_of_get?_eq {first second : Bindings}
    (same : ∀ name, first.get? name = second.get? name) :
    first = second := by
  have distinct : ∀ bindings : Bindings, bindings.entries.Nodup := by
    refine fun bindings => bindings.ordered.imp ?_
    rintro entry _ less rfl
    exact Std.lt_irrefl less
  have permuted : first.entries.Perm second.entries := by
    refine (List.perm_ext_iff_of_nodup (distinct first)
      (distinct second)).mpr fun entry => ?_
    rw [← get?_eq_some_iff, same, get?_eq_some_iff]
  refine ext (permuted.eq_of_pairwise (fun one other _ _ less more => ?_)
    first.ordered second.ordered)
  exact absurd (String.lt_trans less more) Std.lt_irrefl

theorem perm_set_of_free (free : bindings.contains name = false)
    (value : Value) :
    (bindings.set name value).entries.Perm
      ((name, value) :: bindings.entries) :=
  perm_putEntry_of_free
    (get?_eq_none_iff.mp (contains_eq_false_iff.mp free)) value

theorem size_set_of_free (free : bindings.contains name = false)
    (value : Value) : (bindings.set name value).size = bindings.size + 1 :=
  (perm_set_of_free free value).length_eq

/-- A name that is not bound need not be unbound. -/
theorem erase_of_free (free : bindings.contains name = false) :
    bindings.erase name = bindings := by
  have missing := get?_eq_none_iff.mp (contains_eq_false_iff.mp free)
  apply ext
  refine List.filter_eq_self.mpr fun entry member => ?_
  simpa using missing entry member

/-- Bind a name unless it is bound, and keep its value if it is. -/
def setIfFree (bindings : Bindings) (name : String) (value : Value) :
    Bindings :=
  (bindings.define? name value).getD bindings

theorem setIfFree_of_free (free : bindings.contains name = false) :
    bindings.setIfFree name value = bindings.set name value := by
  rw [setIfFree, define?, free]
  rfl

theorem setIfFree_of_taken (taken : bindings.contains name = true) :
    bindings.setIfFree name value = bindings := by
  rw [setIfFree, define?, taken]
  rfl

/-- The first value of a name stays. -/
theorem get?_setIfFree (bindings : Bindings) (name : String)
    (value : Value) (other : String) :
    (bindings.setIfFree name value).get? other =
      (bindings.get? other).or (if other = name then some value else none) := by
  cases taken : bindings.contains name with
  | true =>
      rw [setIfFree_of_taken taken]
      split
      · next same =>
          rw [same, Option.or_of_isSome taken]
      · rw [Option.or_none]
  | false =>
      rw [setIfFree_of_free taken, get?_set]
      split
      · next same =>
          rw [same, contains_eq_false_iff.mp taken, Option.none_or]
      · rw [Option.or_none]

theorem contains_setIfFree {other : String} :
    (bindings.setIfFree name value).contains other = true ↔
      other = name ∨ bindings.contains other = true := by
  cases taken : bindings.contains name with
  | true =>
      rw [setIfFree_of_taken taken]
      exact (or_iff_right_of_imp fun same => same ▸ taken).symm
  | false => rw [setIfFree_of_free taken, contains_set]

end Bindings
end StackAssembly
