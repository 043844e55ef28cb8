import StackAssembly.Value.Container

/-!
# Collections with an index

A table or a set is searched through an index that is kept beside its items, so
that a search need not go through them.  The index of a table holds the
position of every key, and that of a set what the set holds.  Both kinds of
collection grow by one rule: an item whose key is in the index is left out, and
any other is put behind the rest and into the index.  The index takes no part
in what a collection is, so values do without it.
-/

namespace StackAssembly

/-- A way of keeping marks under keys that are values. -/
structure KeyMap (μ : Type) where
  /-- What is kept. -/
  Content : Type
  /-- The content without any key. -/
  empty : Content
  /-- The mark under a key. -/
  find? : Content → Value → Option μ
  /-- Put a mark under a key. -/
  insert : Content → Value → μ → Content

/-- Marks that are kept in a list, the latest first. -/
def KeyMap.ofList (μ : Type) : KeyMap μ where
  Content := List (Value × μ)
  empty := []
  find? content key :=
    (content.find? fun entry => key.equal entry.1).map Prod.snd
  insert content key mark := (key, mark) :: content

/-- A kind of collection, with items in `α` of which the index keeps marks in
`μ`. -/
structure CollectionKind (α μ : Type) where
  /-- The value by which an item is told from others. -/
  key : α → Value
  /-- What the index keeps of the item at a position. -/
  mark : Nat → μ
  /-- The item that appending a value adds. -/
  item? : Value → Option α
  /-- The element that an item is. -/
  element : α → Value
  /-- The container that holds items. -/
  container : List α → Value

namespace CollectionKind

/-- Tables, whose entries are told apart by their keys. -/
def table : CollectionKind (Value × Value) Nat where
  key := Prod.fst
  mark := id
  item? := Value.pair?
  element entry := .pair entry.1 entry.2
  container := .table

/-- Sets, whose members are told apart by themselves. -/
def set : CollectionKind Value Unit where
  key := id
  mark _ := ()
  item? := some
  element := id
  container := .set

end CollectionKind

/-- Items in the order of their insertion, with an index. -/
structure Indexed {μ : Type} (map : KeyMap μ) (α : Type) where
  /-- The items, oldest first. -/
  items : List α := []
  /-- What is known of the keys of the items. -/
  index : map.Content := map.empty

/-- A way in which a collection is made to grow. -/
inductive Growth (α : Type) where
  | insert (item : α)
  | append (value : Value)

/-- The item that a growth offers. -/
def Growth.item? {α μ : Type} (kind : CollectionKind α μ) :
    Growth α → Option α
  | .insert item => some item
  | .append value => kind.item? value

namespace Indexed

variable {α μ : Type} {map : KeyMap μ}

/-- The number of items. -/
def size (collection : Indexed map α) : Nat :=
  collection.items.length

/-- The element at a position. -/
def elementAt? (kind : CollectionKind α μ) (collection : Indexed map α)
    (position : Nat) : Option Value :=
  collection.items[position]?.map kind.element

/-- Whether the index holds a key. -/
def contains (collection : Indexed map α) (key : Value) : Bool :=
  (map.find? collection.index key).isSome

/-- Add an item unless its key is present, and say whether it was added. -/
def insert (kind : CollectionKind α μ) (collection : Indexed map α)
    (item : α) : Indexed map α × Bool :=
  if collection.contains (kind.key item) then
    (collection, false)
  else
    ({ items := collection.items ++ [item]
       index := map.insert collection.index (kind.key item)
         (kind.mark collection.items.length) }, true)

/-- Append a value, if it stands for an item. -/
def append (kind : CollectionKind α μ) (collection : Indexed map α)
    (value : Value) : Except Rejection (Indexed map α) :=
  match kind.item? value with
  | some item => .ok (collection.insert kind item).1
  | none => .error ⟨value, .typeMismatch⟩

/-- Grow in one way.  A value that is refused changes nothing. -/
def grow (kind : CollectionKind α μ) (collection : Indexed map α) :
    Growth α → Indexed map α
  | .insert item => (collection.insert kind item).1
  | .append value =>
      match collection.append kind value with
      | .ok grown => grown
      | .error _ => collection

/-- Grow in one way after the other. -/
def growAll (kind : CollectionKind α μ) (collection : Indexed map α)
    (growths : List (Growth α)) : Indexed map α :=
  growths.foldl (grow kind) collection

/-- The collection of given items. -/
def collect (map : KeyMap μ) (kind : CollectionKind α μ) (items : List α) :
    Indexed map α :=
  growAll kind {} (items.map .insert)

/-- The value of a key in a table, found at the position that the index
gives. -/
def lookup? {map : KeyMap Nat} (table : Indexed map (Value × Value))
    (key : Value) : Option Value :=
  (map.find? table.index key).bind fun position =>
    table.items[position]?.map Prod.snd

end Indexed
end StackAssembly
