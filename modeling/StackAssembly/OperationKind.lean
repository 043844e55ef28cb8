/-!
# Kinds of operations

An operation without a payload is a *primitive*.  The other kinds carry a
value, a name, further operations or several of these.  Each kind has a
numeric tag, written before every encoded operation, and a keyword of the
textual grammar.
-/

namespace StackAssembly

/-- The operations that carry no payload. -/
inductive Primitive where
  | nop
  | pop
  | dup
  | swap
  | resetStack
  | add
  | sub
  | mul
  | div
  | mod
  | and
  | or
  | xor
  | not
  | eq
  | restart
  | exit
  | halt
  | exec
  | bind
  | map
  | filter
  | reduce
  | typeOf
  | typeCast
  | pack
  | unpack
  | element
  | find
  | append
  | size
  | parse
  deriving DecidableEq, Inhabited

/-- What an operation whose payload is one name does with that name. -/
inductive NameUse where
  | load
  | store
  | clear
  | loadSlot
  | storeSlot
  deriving DecidableEq, Inhabited

/-- The kinds of operations. -/
inductive OperationKind where
  | primitive (which : Primitive)
  | push
  | ifTrue
  | select
  | named (use : NameUse)
  | call
  | loadNative
  | native
  | block
  | partialBind
  deriving DecidableEq, Inhabited

namespace Primitive

/-- The tag of a primitive. -/
def tag : Primitive → UInt32
  | .nop => 1
  | .pop => 3
  | .dup => 4
  | .swap => 5
  | .resetStack => 6
  | .add => 10
  | .sub => 11
  | .mul => 12
  | .div => 13
  | .mod => 14
  | .and => 20
  | .or => 21
  | .xor => 22
  | .not => 23
  | .eq => 24
  | .restart => 31
  | .exit => 32
  | .halt => 33
  | .exec => 51
  | .bind => 52
  | .map => 53
  | .filter => 54
  | .reduce => 55
  | .typeOf => 60
  | .typeCast => 61
  | .pack => 70
  | .unpack => 71
  | .element => 72
  | .find => 73
  | .append => 74
  | .size => 75
  | .parse => 80

/-- The keyword of a primitive. -/
def keyword : Primitive → String
  | .nop => "nop"
  | .pop => "pop"
  | .dup => "dup"
  | .swap => "swap"
  | .resetStack => "resetstack"
  | .add => "add"
  | .sub => "sub"
  | .mul => "mul"
  | .div => "div"
  | .mod => "mod"
  | .and => "and"
  | .or => "or"
  | .xor => "xor"
  | .not => "not"
  | .eq => "eq"
  | .restart => "loop"
  | .exit => "break"
  | .halt => "halt"
  | .exec => "exec"
  | .bind => "bind"
  | .map => "map"
  | .filter => "filter"
  | .reduce => "reduce"
  | .typeOf => "typeof"
  | .typeCast => "typecast"
  | .pack => "pack"
  | .unpack => "unpack"
  | .element => "at"
  | .find => "find"
  | .append => "append"
  | .size => "size"
  | .parse => "parse"

end Primitive

namespace NameUse

/-- The tag of an operation on a name. -/
def tag : NameUse → UInt32
  | .load => 40
  | .store => 41
  | .clear => 42
  | .loadSlot => 43
  | .storeSlot => 44

/-- The keyword of an operation on a name. -/
def keyword : NameUse → String
  | .load => "load"
  | .store => "store"
  | .clear => "clear"
  | .loadSlot => "loadslot"
  | .storeSlot => "storeslot"

end NameUse

namespace OperationKind

/-- Every kind of operation, in the order of their tags. -/
def all : List OperationKind :=
  [.primitive .nop, .push, .primitive .pop, .primitive .dup, .primitive .swap,
    .primitive .resetStack, .primitive .add, .primitive .sub, .primitive .mul,
    .primitive .div, .primitive .mod, .primitive .and, .primitive .or,
    .primitive .xor, .primitive .not, .primitive .eq, .ifTrue,
    .primitive .restart, .primitive .exit, .primitive .halt, .select,
    .named .load, .named .store, .named .clear, .named .loadSlot,
    .named .storeSlot, .call, .primitive .exec, .primitive .bind,
    .primitive .map, .primitive .filter, .primitive .reduce,
    .primitive .typeOf, .primitive .typeCast, .primitive .pack,
    .primitive .unpack, .primitive .element, .primitive .find,
    .primitive .append, .primitive .size, .primitive .parse, .loadNative,
    .native, .block, .partialBind]

/-- The number that introduces an encoded operation of a kind. -/
def tag : OperationKind → UInt32
  | .primitive which => which.tag
  | .push => 2
  | .ifTrue => 30
  | .select => 34
  | .named use => use.tag
  | .call => 50
  | .loadNative => 90
  | .native => 91
  | .block => 100
  | .partialBind => 101

/-- The word that introduces an operation of a kind in a source text. -/
def keyword : OperationKind → String
  | .primitive which => which.keyword
  | .push => "push"
  | .ifTrue => "iftrue"
  | .select => "select"
  | .named use => use.keyword
  | .call => "call"
  | .loadNative => "loadnative"
  | .native => "native"
  | .block => "block"
  | .partialBind => "partial"

/-- The kind with the given tag. -/
def ofTag? (number : UInt32) : Option OperationKind :=
  all.find? fun kind => kind.tag == number

/-- The kind with the given keyword. -/
def ofKeyword? (word : String) : Option OperationKind :=
  all.find? fun kind => kind.keyword == word

end OperationKind
end StackAssembly
