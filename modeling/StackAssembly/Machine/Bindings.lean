import StackAssembly.Value.Basic

/-!
# Bindings of names

A collection of named values, kept in the order of the names.  The order of
names is that of their code points, which is also that of their bytes in
UTF-8, so the bindings of equal collections are listed alike.
-/

namespace StackAssembly

/-- Whether entries stand in strictly increasing order of their names. -/
def Ordered (entries : List (String × Value)) : Prop :=
  entries.Pairwise fun first second => first.1 < second.1

/-- Put an entry at its place among ordered ones, over one of its name. -/
def putEntry (name : String) (value : Value) :
    List (String × Value) → List (String × Value)
  | [] => [(name, value)]
  | entry :: entries =>
      if name < entry.1 then (name, value) :: entry :: entries
      else if name = entry.1 then (name, value) :: entries
      else entry :: putEntry name value entries

theorem name_of_mem_putEntry {name : String} {value : Value}
    {entries : List (String × Value)} {entry : String × Value}
    (member : entry ∈ putEntry name value entries) :
    entry.1 = name ∨ entry ∈ entries := by
  induction entries with
  | nil =>
      simp only [putEntry, List.mem_singleton] at member
      exact .inl (by rw [member])
  | cons head tail ih =>
      simp only [putEntry] at member
      split at member
      · rcases List.mem_cons.mp member with same | later
        · exact .inl (by rw [same])
        · exact .inr later
      · split at member
        · rcases List.mem_cons.mp member with same | later
          · exact .inl (by rw [same])
          · exact .inr (List.mem_cons_of_mem _ later)
        · rcases List.mem_cons.mp member with same | later
          · exact .inr (by rw [same]; exact List.mem_cons_self)
          · rcases ih later with named | old
            · exact .inl named
            · exact .inr (List.mem_cons_of_mem _ old)

theorem Ordered.putEntry {entries : List (String × Value)}
    (ordered : Ordered entries) (name : String) (value : Value) :
    Ordered (putEntry name value entries) := by
  induction entries with
  | nil => exact List.pairwise_singleton _ _
  | cons head tail ih =>
      obtain ⟨before, rest⟩ := List.pairwise_cons.mp ordered
      simp only [StackAssembly.putEntry]
      split
      · next less =>
          refine List.pairwise_cons.mpr ⟨?_, ordered⟩
          intro entry member
          rcases List.mem_cons.mp member with same | later
          · rw [same]; exact less
          · exact String.lt_trans less (before entry later)
      · next notLess =>
          split
          · next same =>
              exact List.pairwise_cons.mpr
                ⟨fun entry member => by
                  show name < entry.1
                  rw [same]
                  exact before entry member, rest⟩
          · next differs =>
              refine List.pairwise_cons.mpr ⟨?_, ih rest⟩
              intro entry member
              rcases name_of_mem_putEntry member with named | old
              · rw [named]
                exact Std.lt_of_le_of_ne notLess
                  fun equal => differs equal.symm
              · exact before entry old

/-- A collection of named values. -/
structure Bindings where
  /-- The bound names with their values, in the order of the names. -/
  entries : List (String × Value)
  /-- The names increase, so that none occurs twice. -/
  ordered : Ordered entries

namespace Bindings

/-- The collection that binds no name. -/
def empty : Bindings where
  entries := []
  ordered := List.Pairwise.nil

instance : Inhabited Bindings := ⟨empty⟩

/-- The value bound to a name. -/
def get? (bindings : Bindings) (name : String) : Option Value :=
  (bindings.entries.find? fun entry => entry.1 == name).map Prod.snd

/-- Whether a name is bound. -/
def contains (bindings : Bindings) (name : String) : Bool :=
  (bindings.get? name).isSome

/-- Bind a name, in place of what it was bound to. -/
def set (bindings : Bindings) (name : String) (value : Value) :
    Bindings where
  entries := putEntry name value bindings.entries
  ordered := bindings.ordered.putEntry name value

/-- Unbind a name. -/
def erase (bindings : Bindings) (name : String) : Bindings where
  entries := bindings.entries.filter fun entry => entry.1 != name
  ordered := bindings.ordered.sublist List.filter_sublist

/-- Bind names one after the other, so that the last value of a name
counts. -/
def setAll (bindings : Bindings) : List (String × Value) → Bindings
  | [] => bindings
  | (name, value) :: pairs => (bindings.set name value).setAll pairs

/-- The collection of the given pairs, of which the last for a name counts. -/
def ofPairs (pairs : List (String × Value)) : Bindings :=
  empty.setAll pairs

/-- Bind a name unless it is bound. -/
def define? (bindings : Bindings) (name : String) (value : Value) :
    Option Bindings :=
  if bindings.contains name then none else some (bindings.set name value)

@[simp]
theorem get?_empty (name : String) : empty.get? name = none :=
  rfl

@[ext]
theorem ext {first second : Bindings}
    (same : first.entries = second.entries) : first = second := by
  cases first
  cases second
  congr

/-- Binding a name changes what is found under this name only. -/
theorem get?_set (bindings : Bindings) (name : String) (value : Value)
    (other : String) :
    (bindings.set name value).get? other =
      if other = name then some value else bindings.get? other := by
  obtain ⟨entries, ordered⟩ := bindings
  simp only [get?, set]
  clear ordered
  induction entries with
  | nil =>
      by_cases same : name = other <;>
        simp [putEntry, same, Ne.symm]
  | cons head tail ih =>
      by_cases same : other = name
      · subst same
        simp only [if_true] at ih ⊢
        simp only [putEntry]
        split
        · simp
        · split
          · simp
          · next differs =>
              have skipped : (head.1 == other) = false := by
                simpa using fun equal => differs equal.symm
              simpa [List.find?_cons, skipped] using ih
      · simp only [same, if_false] at ih ⊢
        have skipped : (name == other) = false := by
          simpa using fun equal => same equal.symm
        simp only [putEntry]
        split
        · simp [List.find?_cons, skipped]
        · split
          · next equal =>
              have headSkipped : (head.1 == other) = false :=
                equal ▸ skipped
              simp [skipped, headSkipped]
          · simp only [List.find?_cons]
            split
            · rfl
            · exact ih

/-- Unbinding a name changes what is found under this name only. -/
theorem get?_erase (bindings : Bindings) (name other : String) :
    (bindings.erase name).get? other =
      if other = name then none else bindings.get? other := by
  obtain ⟨entries, ordered⟩ := bindings
  simp only [get?, erase]
  clear ordered
  induction entries with
  | nil => simp
  | cons head tail ih =>
      by_cases same : other = name
      · subst same
        simp only [if_true] at ih ⊢
        by_cases found : head.1 = other <;> simp_all
      · simp only [same, if_false] at ih ⊢
        by_cases erased : head.1 = name
        · have skipped : (name == other) = false := by
            simpa using fun equal => same equal.symm
          simpa [List.filter_cons, List.find?_cons, erased, skipped] using ih
        · by_cases found : head.1 = other <;> simp_all

/-- The number of bound names. -/
def size (bindings : Bindings) : Nat :=
  bindings.entries.length

end Bindings
end StackAssembly
