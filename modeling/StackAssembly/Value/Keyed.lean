import StackAssembly.Value.Equality

/-!
# Tables and sets as lists

The entries of a table and the members of a set stand in the order of their
insertion.  A key or member equal to one already present is never added, so
the first insertion wins.
-/

namespace StackAssembly

/-- The entries of a table, oldest first. -/
abbrev Entries := List (Value × Value)

/-- The members of a set, oldest first. -/
abbrev Members := List Value

namespace Entries

/-- The value of the entry whose key equals the given one. -/
def lookup? (entries : Entries) (key : Value) : Option Value :=
  (entries.find? fun entry => key.equal entry.1).map Prod.snd

/-- Whether some entry has a key equal to the given one. -/
def hasKey (entries : Entries) (key : Value) : Bool :=
  entries.any fun entry => key.equal entry.1

/-- Add an entry at the end unless its key is present. -/
def insert (entries : Entries) (key value : Value) : Entries :=
  if entries.hasKey key then entries else entries ++ [(key, value)]

/-- Insert pairs one after the other. -/
def insertAll (entries : Entries) : List (Value × Value) → Entries
  | [] => entries
  | (key, value) :: pairs => (entries.insert key value).insertAll pairs

/-- The entries that a sequence of insertions leaves. -/
def ofPairs (pairs : List (Value × Value)) : Entries :=
  insertAll [] pairs

end Entries

namespace Members

/-- Whether some member equals the given value. -/
def has (members : Members) (value : Value) : Bool :=
  members.any fun member => value.equal member

/-- Add a value at the end unless it is present. -/
def insert (members : Members) (value : Value) : Members :=
  if members.has value then members else members ++ [value]

/-- Insert values one after the other. -/
def insertAll (members : Members) : List Value → Members
  | [] => members
  | value :: values => (members.insert value).insertAll values

/-- The members that a sequence of insertions leaves. -/
def ofValues (values : List Value) : Members :=
  insertAll [] values

end Members
end StackAssembly
