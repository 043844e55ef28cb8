import StackAssembly.ErrorCode
import StackAssembly.OperationKind
import StackAssembly.ValueKind

/-!
# Values and operations

A value is a datum of the stack machine and an operation is an instruction of
its programs.  The two are defined together: operations carry values, and an
operation is itself a value that can be stored, passed and executed.

Tables and sets are kept as lists in the order of insertion.  The functions
that build them keep the keys of a table and the members of a set distinct.
-/

namespace StackAssembly

mutual

/-- A datum of the machine. -/
inductive Value where
  | empty
  | number (word : UInt64)
  | boolean (truth : Bool)
  | character (code : UInt32)
  | string (text : String)
  | atom (name : String)
  | error (code : ErrorCode)
  | type (kind : ValueKind)
  | tuple (items : List Value)
  | table (entries : List (Value × Value))
  | set (members : List Value)
  | operation (body : Operation)

/-- An instruction of a program. -/
inductive Operation where
  | primitive (which : Primitive)
  | push (value : Value)
  | ifTrue (body : Operation)
  | select (cases : List (Value × Value)) (otherwise : Option Operation)
  | named (use : NameUse) (name : String)
  | call (target : String) (arguments : List Value)
  | loadNative (path : String)
  | native (bucket : String) (name : String)
  | block (slots : List String) (operations : List Operation)
  | partialBind (value : Value) (callable : Operation)

end

instance : Inhabited Value := ⟨.empty⟩

instance : Inhabited Operation := ⟨.primitive .nop⟩

namespace Operation

/-- The kind of an operation. -/
def kind : Operation → OperationKind
  | .primitive which => .primitive which
  | .push _ => .push
  | .ifTrue _ => .ifTrue
  | .select _ _ => .select
  | .named use _ => .named use
  | .call _ _ => .call
  | .loadNative _ => .loadNative
  | .native _ _ => .native
  | .block _ _ => .block
  | .partialBind _ _ => .partialBind

/-- The operation of a kind that carries no payload. -/
def ofKind? : OperationKind → Option Operation
  | .primitive which => some (.primitive which)
  | _ => none

/-- The kind that an operation has as a value: the most specific one. -/
def valueKind : Operation → ValueKind
  | .block _ _ => .block
  | .partialBind _ _ => .bind
  | _ => .operation

end Operation

namespace Value

/-- The kind of a value. -/
def kind : Value → ValueKind
  | .empty => .empty
  | .number _ => .number
  | .boolean _ => .boolean
  | .character _ => .character
  | .string _ => .string
  | .atom _ => .atom
  | .error _ => .error
  | .type _ => .type
  | .tuple _ => .tuple
  | .table _ => .table
  | .set _ => .set
  | .operation body => body.valueKind

/-- A tuple of two values. -/
def pair (first second : Value) : Value :=
  .tuple [first, second]

/-- Whether a value is the empty value. -/
def isEmpty : Value → Bool
  | .empty => true
  | _ => false

/-- Whether a value is an error code. -/
def isError : Value → Bool
  | .error _ => true
  | _ => false

/-- The number that a value is. -/
def number? : Value → Option UInt64
  | .number word => some word
  | _ => none

/-- The text of a string or an atom. -/
def text? : Value → Option String
  | .string text => some text
  | .atom name => some name
  | _ => none

/-- The error code that a value is. -/
def errorCode? : Value → Option ErrorCode
  | .error code => some code
  | _ => none

/-- The two components of a value that is a tuple of two. -/
def pair? : Value → Option (Value × Value)
  | .tuple [first, second] => some (first, second)
  | _ => none

theorem pair_of_pair?_eq_some {value : Value} {components : Value × Value}
    (paired : value.pair? = some components) :
    value = pair components.1 components.2 := by
  rw [pair?.eq_def] at paired
  split at paired
  · cases paired
    rfl
  · cases paired

theorem pair_injective {first second : Value × Value}
    (same : pair first.1 first.2 = pair second.1 second.2) :
    first = second := by
  obtain ⟨key, item⟩ := first
  cases same
  rfl

/-- The operation that executing a value runs. -/
def callable? : Value → Option Operation
  | .operation body => some body
  | _ => none

/-- Whether a value can be executed. -/
def isCallable (value : Value) : Bool :=
  value.callable?.isSome

end Value
end StackAssembly
