import StackAssembly.Machine.StackRule

/-!
# Attempts

Trying an operation either comes to an outcome or ends in a fault.  A fault is
settled by putting the operands back in their order and the error code on top
of them.
-/

namespace StackAssembly

/-- The result of trying an operation. -/
inductive Attempt (ν : Type) where
  | finished (outcome : Outcome) (machine : Machine ν)
  | faulted (fault : Fault) (machine : Machine ν)

/-- An outcome with the machine it left. -/
abbrev Execution (ν : Type) := Outcome × Machine ν

namespace Attempt

variable {ν : Type}

/-- The attempt that came to the given outcome. -/
def ofExecution (execution : Execution ν) : Attempt ν :=
  .finished execution.1 execution.2

/-- The outcome of an attempt, a fault being raised. -/
def settle : Attempt ν → Execution ν
  | .finished outcome machine => (outcome, machine)
  | .faulted fault machine => (.error, machine.raise fault)

/-- The attempt that failed with a code for the given operands. -/
def refuse (machine : Machine ν) (code : ErrorCode)
    (operands : List Value := []) : Attempt ν :=
  .faulted { code, operands } machine

/-- The attempt for which the stack holds too few values. -/
def starved (machine : Machine ν) : Attempt ν :=
  refuse machine .insufficientArguments

/-- The successful attempt. -/
def succeed (machine : Machine ν) : Attempt ν :=
  .finished .success machine

/-- Put what a rule says in the place of operands. -/
def replace (machine : Machine ν) (operands : List Value) :
    RuleResult → Attempt ν
  | .ok results => succeed (machine.pushAll results)
  | .error code => refuse machine code operands

/-- Apply a rule to the top of the stack. -/
def apply (machine : Machine ν) : StackRule → Attempt ν
  | .unary rule =>
      match machine.stack with
      | operand :: rest =>
          replace { machine with stack := rest } [operand] (rule operand)
      | _ => starved machine
  | .binary rule =>
      match machine.stack with
      | first :: second :: rest =>
          replace { machine with stack := rest } [first, second]
            (rule first second)
      | _ => starved machine

/-- Gather as many values as the top of the stack says into a tuple. -/
def pack (machine : Machine ν) : Attempt ν :=
  match machine.stack with
  | [] => starved machine
  | size :: rest =>
      let below := { machine with stack := rest }
      match size with
      | .number count =>
          match below.takeTop? count.toNat with
          | some (items, left) => succeed (left.push (.tuple items))
          | none => refuse below .insufficientArguments [size]
      | _ => refuse below .typeMismatch [size]

/-- Push the value of a global name. -/
def load (machine : Machine ν) (name : String) : Attempt ν :=
  match machine.store.get? name with
  | some value => succeed (machine.push value)
  | none => refuse machine .notFound

/-- Bind an unbound global name to the top value. -/
def store (machine : Machine ν) (name : String) : Attempt ν :=
  match machine.stack with
  | [] => starved machine
  | value :: rest =>
      let below := { machine with stack := rest }
      match below.define? name value with
      | some bound => succeed bound
      | none => refuse below .alreadyExisting [value]

/-- Unbind a global name. -/
def clear (machine : Machine ν) (name : String) : Attempt ν :=
  if machine.store.contains name then
    succeed (machine.undefine name)
  else
    refuse machine .notFound

/-- Push the value of a slot. -/
def loadSlot (machine : Machine ν) (name : String) : Attempt ν :=
  match machine.frames.get? name with
  | some value => succeed (machine.push value)
  | none => refuse machine .notFound

/-- Bind a slot of the innermost frame to the top value. -/
def storeSlot (machine : Machine ν) (name : String) : Attempt ν :=
  match machine.stack with
  | [] => starved machine
  | value :: rest =>
      let below := { machine with stack := rest }
      match below.frames.set? name value with
      | some frames => succeed { below with frames }
      | none => refuse below .notFound [value]

/-- Use a name. -/
def named (machine : Machine ν) (name : String) : NameUse → Attempt ν
  | .load => load machine name
  | .store => store machine name
  | .clear => clear machine name
  | .loadSlot => loadSlot machine name
  | .storeSlot => storeSlot machine name

/-- Activate the library offered under a path. -/
def loadNative (machine : Machine ν) (path : String) : Attempt ν :=
  match machine.activate? path with
  | some activated => succeed activated
  | none => refuse machine .notFound

end Attempt
end StackAssembly
