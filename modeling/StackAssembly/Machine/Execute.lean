import StackAssembly.Machine.Combinator

/-!
# Execution

Operations are executed on a machine until they come to an outcome.  A program
may run for ever, so execution takes fuel, which bounds the depth of nested
executions and the length of runs through blocks.  Without enough fuel there
is no answer; more fuel never changes one.
-/

namespace StackAssembly

variable {ν : Type}

/-- What the symbols of native operations do to a machine. -/
abbrev Host (ν : Type) := ν → Machine ν → Execution ν

/-- A way of going through the operations of a block, given with the slots of
the block, from an index. -/
abbrev BodyRunner (ν : Type) :=
  List String → List Operation → Nat → Machine ν → Option (Execution ν)

/-- Run the operations of a block in a frame that binds its slots to values
taken from the stack, the deepest to the first. -/
def activateBlock (runBody : BodyRunner ν) (slots : List String)
    (operations : List Operation) (machine : Machine ν) :
    Option (Execution ν) :=
  match machine.takeTop? slots.length with
  | none => some (.error, machine.raise { code := .insufficientArguments })
  | some (values, below) =>
      (runBody slots operations 0
        (below.pushFrame (slots.zip values))).map fun execution =>
          (execution.1, execution.2.popFrame)

/-- Activate a block between two notifications. -/
def runBlock (runBody : BodyRunner ν) (slots : List String)
    (operations : List Operation) (machine : Machine ν) :
    Option (Execution ν) :=
  (activateBlock runBody slots operations
    (machine.notify .entering slots operations)).map fun execution =>
      (execution.1, execution.2.notify .leaving slots operations)

/-- Run the top value if it is callable. -/
def runTop (run : Runner ν) (machine : Machine ν) : Option (Attempt ν) :=
  match machine.stack with
  | [] => some (.starved machine)
  | value :: rest =>
      let below := { machine with stack := rest }
      match value.callable? with
      | some operation => (run operation below).map .ofExecution
      | none => some (.refuse below .typeMismatch [value])

/-- Run an operation if the top value is `true`. -/
def runIfTrue (run : Runner ν) (body : Operation) (machine : Machine ν) :
    Option (Attempt ν) :=
  match machine.stack with
  | [] => some (.starved machine)
  | condition :: rest =>
      let below := { machine with stack := rest }
      match condition with
      | .boolean true => (run body below).map .ofExecution
      | .boolean false => some (.succeed below)
      | _ => some (.refuse below .typeMismatch [condition])

/-- Run the case that the top value selects. -/
def runSelect (run : Runner ν) (cases : Entries)
    (otherwise : Option Operation) (machine : Machine ν) :
    Option (Attempt ν) :=
  match machine.stack with
  | [] => some (.starved machine)
  | key :: rest =>
      let below := { machine with stack := rest }
      match cases.lookup? key with
      | some value =>
          match value.callable? with
          | some operation => (run operation below).map .ofExecution
          | none => some (.refuse below .typeMismatch [key])
      | none =>
          match otherwise with
          | some operation => (run operation below).map .ofExecution
          | none => some (.refuse below .notFound [key])

/-- Run the value of a global name on arguments, the first of them on top. -/
def runCall (run : Runner ν) (target : String) (arguments : List Value)
    (machine : Machine ν) : Option (Attempt ν) :=
  match machine.store.get? target with
  | none => some (.refuse machine .notFound)
  | some value =>
      match value.callable? with
      | some operation =>
          (run operation (machine.pushAll arguments)).map .ofExecution
      | none => some (.refuse machine .typeMismatch)

/-- Run an active native. -/
def runNative (host : Host ν) (bucket name : String) (machine : Machine ν) :
    Attempt ν :=
  match machine.native? bucket name with
  | some symbol => .ofExecution (host symbol machine)
  | none => .refuse machine .notFound

/-- Try a primitive. -/
def tryPrimitive (run : Runner ν) (which : Primitive)
    (machine : Machine ν) : Option (Attempt ν) :=
  match StackRule.ofPrimitive? machine.dialect which with
  | some rule => some (.apply machine rule)
  | none =>
      match which with
      | .resetStack => some (.succeed { machine with stack := [] })
      | .restart => some (.finished .restartBlock machine)
      | .exit => some (.finished .exitBlock machine)
      | .halt => some (.finished .halt machine)
      | .pack => some (.pack machine)
      | .exec => runTop run machine
      | .map => mapContainer run machine
      | .filter => filterContainer run machine
      | .reduce => reduceContainer run machine
      | _ => some (.succeed machine)

/-- Try an operation, given the ways of running the operations inside it. -/
def tryOperation (host : Host ν) (run : Runner ν) (runBody : BodyRunner ν)
    (machine : Machine ν) : Operation → Option (Attempt ν)
  | .primitive which => tryPrimitive run which machine
  | .push value => some (.succeed (machine.push value))
  | .ifTrue body => runIfTrue run body machine
  | .select cases otherwise => runSelect run cases otherwise machine
  | .named use name => some (.named machine name use)
  | .call target arguments => runCall run target arguments machine
  | .loadNative path => some (.loadNative machine path)
  | .native bucket name => some (runNative host bucket name machine)
  | .block slots operations =>
      (runBlock runBody slots operations machine).map .ofExecution
  | .partialBind value callable =>
      (run callable (machine.push value)).map .ofExecution

mutual

/-- Execute an operation. -/
def execute (host : Host ν) : (fuel : Nat) → Runner ν
  | 0, _, _ => none
  | fuel + 1, operation, machine =>
      (tryOperation host (execute host fuel) (executeBody host fuel) machine
        operation).map Attempt.settle

/-- Execute the operations of a block from an index.  The outcome of each
operation tells where to go on: at the next operation, at the same one, at
the first one, or behind the block. -/
def executeBody (host : Host ν) : (fuel : Nat) → BodyRunner ν
  | 0, _, _, _, _ => none
  | fuel + 1, slots, operations, index, machine =>
      match operations[index]? with
      | none => some (.success, machine)
      | some operation =>
          match execute host fuel operation
              (machine.notify (.executing index) slots operations) with
          | none => none
          | some (.success, next) =>
              executeBody host fuel slots operations (index + 1) next
          | some (.again, next) =>
              executeBody host fuel slots operations index next
          | some (.restartBlock, next) =>
              executeBody host fuel slots operations 0 next
          | some (.exitBlock, next) => some (.success, next)
          | some (.error, next) => some (.error, next)
          | some (.halt, next) => some (.halt, next)

end

/-- Execute the value of a global name, if it is callable. -/
def executeNamed (host : Host ν) (fuel : Nat) (machine : Machine ν)
    (name : String) : Option (Execution ν) :=
  (machine.callable? name).bind fun operation =>
    execute host fuel operation machine

/-- Execute the value of the entry point, if it is callable. -/
def executeEntryPoint (host : Host ν) (fuel : Nat) (machine : Machine ν) :
    Option (Execution ν) :=
  executeNamed host fuel machine machine.entryPoint

end StackAssembly
