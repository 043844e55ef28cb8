/-!
# Kinds of values

Every value has a kind.  A kind has a byte, with which it is itself written as
a value, a keyword of the textual grammar and, except for the two kinds that
are written as operations, a marker byte that introduces its values in an
image.
-/

namespace StackAssembly

/-- The kinds of values that a program can tell apart. -/
inductive ValueKind where
  | empty
  | number
  | boolean
  | character
  | string
  | atom
  | error
  | type
  | tuple
  | table
  | set
  | operation
  | block
  | bind
  deriving DecidableEq, Inhabited

namespace ValueKind

/-- Every kind of value, in the order of their codes. -/
def all : List ValueKind :=
  [.empty, .number, .boolean, .character, .string, .atom, .error, .type,
    .tuple, .table, .set, .operation, .block, .bind]

/-- The byte that stands for a kind when the kind is itself a value. -/
def code : ValueKind → UInt8
  | .empty => 1
  | .number => 2
  | .boolean => 3
  | .character => 4
  | .string => 5
  | .atom => 6
  | .error => 7
  | .type => 8
  | .tuple => 9
  | .table => 10
  | .set => 11
  | .operation => 12
  | .block => 13
  | .bind => 14

/-- The byte that introduces an encoded value of a kind; blocks and partial
applications are introduced as operations. -/
def marker? : ValueKind → Option UInt8
  | .empty => some 0x45
  | .number => some 0x23
  | .boolean => some 0x3f
  | .character => some 0x63
  | .string => some 0x24
  | .atom => some 0x27
  | .error => some 0x40
  | .type => some 0x54
  | .tuple => some 0x28
  | .table => some 0x5b
  | .set => some 0x55
  | .operation => some 0x4f
  | .block => none
  | .bind => none

/-- The word that introduces a value of a kind in a source text. -/
def keyword : ValueKind → String
  | .empty => "empty"
  | .number => "number"
  | .boolean => "boolean"
  | .character => "character"
  | .string => "string"
  | .atom => "atom"
  | .error => "error"
  | .type => "type"
  | .tuple => "tuple"
  | .table => "table"
  | .set => "set"
  | .operation => "operation"
  | .block => "block"
  | .bind => "bind"

/-- The kind with the given code. -/
def ofCode? (byte : UInt8) : Option ValueKind :=
  all.find? fun kind => kind.code == byte

/-- The kind whose values the given marker introduces. -/
def ofMarker? (byte : UInt8) : Option ValueKind :=
  all.find? fun kind => kind.marker? == some byte

/-- The kind with the given keyword. -/
def ofKeyword? (word : String) : Option ValueKind :=
  all.find? fun kind => kind.keyword == word

/-- Whether values of the kind can be executed. -/
def isCallable : ValueKind → Bool
  | .operation | .block | .bind => true
  | _ => false

/-- Whether values of the kind have elements at positions. -/
def isIterable : ValueKind → Bool
  | .tuple | .table | .set | .string => true
  | _ => false

end ValueKind
end StackAssembly
