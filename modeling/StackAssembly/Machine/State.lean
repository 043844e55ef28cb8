import StackAssembly.Dialect
import StackAssembly.Machine.Frames
import StackAssembly.Machine.Outcome

/-!
# The state of the machine

A machine has a data stack, a store of global names, frames of slots and
native operations, which are symbols for actions of the host.  It also keeps
what the host can observe: the printed text and, if somebody listens, the
notifications of block activations.
-/

namespace StackAssembly

/-- What a notification is about. -/
inductive BlockEvent where
  | entering
  | executing (index : Nat)
  | leaving
  deriving DecidableEq

/-- A notification about the activation of a block. -/
structure Notification where
  /-- What happens. -/
  event : BlockEvent
  /-- The slots of the block. -/
  slots : List String
  /-- The operations of the block. -/
  operations : List Operation
  /-- The length of the data stack at this moment. -/
  stackLength : Nat
  /-- The number of frames at this moment. -/
  frameCount : Nat

/-- Native operations that are activated together. -/
structure Library (ν : Type) where
  /-- The group under which programs call the operations. -/
  bucket : String
  /-- The names of the operations and their symbols.  Of several operations
  with one name the last counts. -/
  operations : List (String × ν)

/-- An active native operation. -/
structure ActiveNative (ν : Type) where
  /-- The group of the operation. -/
  bucket : String
  /-- The name within the group. -/
  name : String
  /-- The symbol of the operation. -/
  symbol : ν

/-- The natives of a library as they are activated, the last listed first. -/
def Library.natives {ν : Type} (library : Library ν) :
    List (ActiveNative ν) :=
  (library.operations.map fun operation =>
    ⟨library.bucket, operation.1, operation.2⟩).reverse

/-- The name of the value that a run starts with unless told otherwise. -/
def defaultEntryPoint : String := "main"

/-- The state of a machine with natives in `ν`. -/
structure Machine (ν : Type) where
  /-- The data stack, with its top first. -/
  stack : List Value := []
  /-- The global names. -/
  store : Bindings := .empty
  /-- The slots of the active blocks. -/
  frames : Frames := []
  /-- The dialect in which texts and images are read. -/
  dialect : Dialect := .standard
  /-- The libraries on offer with their paths, the latest offer first. -/
  provided : List (String × Library ν) := []
  /-- The active natives, the latest activation first. -/
  natives : List (ActiveNative ν) := []
  /-- The name of the value that a run starts with. -/
  entryPoint : String := defaultEntryPoint
  /-- What has been printed. -/
  printed : String := ""
  /-- The notifications given so far, the latest first, if there is a
  listener. -/
  trace : Option (List Notification) := none

namespace Machine

variable {ν : Type}

/-- Push a value. -/
def push (machine : Machine ν) (value : Value) : Machine ν :=
  { machine with stack := value :: machine.stack }

/-- Push values so that the first of the list becomes the top. -/
def pushAll (machine : Machine ν) (values : List Value) : Machine ν :=
  { machine with stack := values ++ machine.stack }

/-- Take the top value off. -/
def pop? (machine : Machine ν) : Option (Value × Machine ν) :=
  match machine.stack with
  | [] => none
  | value :: rest => some (value, { machine with stack := rest })

/-- Take the given number of values off, the deepest first. -/
def takeTop? (machine : Machine ν) (count : Nat) :
    Option (List Value × Machine ν) :=
  let taken := machine.stack.take count
  if taken.length < count then
    none
  else
    some (taken.reverse, { machine with stack := machine.stack.drop count })

/-- Drop values from the top until no more than `length` are left. -/
def truncate (machine : Machine ν) (length : Nat) : Machine ν :=
  { machine with
    stack := machine.stack.drop (machine.stack.length - length) }

/-- Put the operands of a fault back and its code on top of them. -/
def raise (machine : Machine ν) (fault : Fault) : Machine ν :=
  machine.pushAll (.error fault.code :: fault.operands)

/-- Bind a global name unless it is bound. -/
def define? (machine : Machine ν) (name : String) (value : Value) :
    Option (Machine ν) :=
  (machine.store.define? name value).map fun store =>
    { machine with store }

/-- Bind a global name, in place of what it was bound to. -/
def redefine (machine : Machine ν) (name : String) (value : Value) :
    Machine ν :=
  { machine with store := machine.store.set name value }

/-- Unbind a global name. -/
def undefine (machine : Machine ν) (name : String) : Machine ν :=
  { machine with store := machine.store.erase name }

/-- Open a frame in which the given pairs are bound, the last for a name
counting. -/
def pushFrame (machine : Machine ν) (pairs : List (String × Value)) :
    Machine ν :=
  { machine with frames := .ofPairs pairs :: machine.frames }

/-- Close the innermost frame. -/
def popFrame (machine : Machine ν) : Machine ν :=
  { machine with frames := machine.frames.tail }

/-- Offer a library under a path, in place of what was offered there. -/
def provide (machine : Machine ν) (path : String) (library : Library ν) :
    Machine ν :=
  { machine with provided := (path, library) :: machine.provided }

/-- The library offered under a path. -/
def library? (machine : Machine ν) (path : String) : Option (Library ν) :=
  (machine.provided.find? fun offer => offer.1 == path).map Prod.snd

/-- Activate the natives of the library offered under a path. -/
def activate? (machine : Machine ν) (path : String) :
    Option (Machine ν) :=
  (machine.library? path).map fun library =>
    { machine with natives := library.natives ++ machine.natives }

/-- The symbol of an active native. -/
def native? (machine : Machine ν) (bucket name : String) : Option ν :=
  (machine.natives.find? fun native =>
    native.bucket == bucket && native.name == name).map ActiveNative.symbol

/-- Print a text. -/
def print (machine : Machine ν) (text : String) : Machine ν :=
  { machine with printed := machine.printed ++ text }

/-- Give a notification about a block to the listener, if there is one. -/
def notify (machine : Machine ν) (event : BlockEvent) (slots : List String)
    (operations : List Operation) : Machine ν :=
  match machine.trace with
  | none => machine
  | some notifications =>
      { machine with
        trace := some
          ({ event, slots, operations
             stackLength := machine.stack.length
             frameCount := machine.frames.length } :: notifications) }

/-- The operation that executing a global name runs. -/
def callable? (machine : Machine ν) (name : String) : Option Operation :=
  (machine.store.get? name).bind Value.callable?

end Machine
end StackAssembly
