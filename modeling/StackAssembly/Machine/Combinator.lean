import StackAssembly.Machine.Attempt

/-!
# Combinators over containers

The primitives `map`, `filter` and `reduce` run a callable once for every
element of a container.  Each step must leave exactly one value in place of
its inputs.  A step that leaves anything else ends the combinator with an
error, for which its operands are put back, and a step that halts ends the
run.
-/

namespace StackAssembly

variable {ν : Type}

/-- A way of executing operations, which may not come to an end. -/
abbrev Runner (ν : Type) := Operation → Machine ν → Option (Execution ν)

/-- What one step of a combinator came to. -/
inductive Step (ν : Type) where
  | produced (value : Value) (machine : Machine ν)
  | halted (machine : Machine ν)
  | unexpected (machine : Machine ν)

/-- Judge the execution of a callable that started, before its inputs were
pushed, with a stack of the given length. -/
def Step.ofExecution (base : Nat) (execution : Execution ν) : Step ν :=
  let machine := execution.2
  match execution.1 with
  | .halt => .halted machine
  | .success =>
      if machine.stack.length = base + 1 then
        match machine.pop? with
        | some (value, rest) => .produced value rest
        | none => .unexpected machine
      else
        .unexpected (machine.truncate base)
  | _ => .unexpected (machine.truncate base)

/-- Run a callable on inputs, the last of which comes to lie on top. -/
def runStep (run : Runner ν) (callable : Operation) (inputs : List Value)
    (machine : Machine ν) : Option (Step ν) :=
  (run callable (machine.pushAll inputs.reverse)).map
    (Step.ofExecution machine.stack.length)

/-- What a combinator came to: a last state, a halt, or a failure. -/
inductive Passage (ν : Type) where
  | completed (state : Value) (machine : Machine ν)
  | halted (machine : Machine ν)
  | failed (code : ErrorCode) (machine : Machine ν)

/-- Go through elements one after the other, starting from a state.  For each
element the callable is run on inputs that depend on the element and the
state, and what it produces leads to the next state or to a failure. -/
def passThrough (run : Runner ν) (callable : Operation)
    (inputs : Value → Value → List Value)
    (next : Value → Value → Value → Except ErrorCode Value) :
    List Value → Value → Machine ν → Option (Passage ν)
  | [], state, machine => some (.completed state machine)
  | element :: elements, state, machine =>
      match runStep run callable (inputs element state) machine with
      | none => none
      | some (.halted left) => some (.halted left)
      | some (.unexpected left) => some (.failed .unexpectedResult left)
      | some (.produced value left) =>
          match next element state value with
          | .error code => some (.failed code left)
          | .ok later =>
              passThrough run callable inputs next elements later left

/-- The end of a combinator: the last state on the stack, or its operands. -/
def Passage.conclude (operands : List Value) : Passage ν → Attempt ν
  | .completed state machine => .succeed (machine.push state)
  | .halted machine => .finished .halt machine
  | .failed code machine => .refuse machine code operands

/-- Grow the container of results by what was produced. -/
def collect (_ out value : Value) : Except ErrorCode Value :=
  match out.append value with
  | .ok grown => .ok grown
  | .error rejection => .error rejection.code

/-- Grow the container of results by the element if `true` was produced. -/
def retain (element out : Value) : Value → Except ErrorCode Value
  | .boolean true => collect element out element
  | .boolean false => .ok out
  | _ => .error .typeMismatch

/-- The elements over which `reduce` goes: those of a tuple or a table. -/
def reducible? : Value → Option (List Value)
  | .tuple items => (Value.tuple items).elements?
  | .table entries => (Value.table entries).elements?
  | _ => none

/-- Run a callable on every element of a container and go through the results
in the given way, starting from the empty container. -/
def overContainer (run : Runner ν)
    (next : Value → Value → Value → Except ErrorCode Value)
    (machine : Machine ν) : Option (Attempt ν) :=
  match machine.stack with
  | callable :: container :: rest =>
      let below := { machine with stack := rest }
      match callable.callable?, container.elements?, container.emptied? with
      | some operation, some elements, some emptied =>
          (passThrough run operation (fun element _ => [element]) next
            elements emptied below).map
            (Passage.conclude [callable, container])
      | _, _, _ =>
          some (.refuse below .typeMismatch [callable, container])
  | _ => some (.starved machine)

/-- Replace every element of a container by what a callable makes of it. -/
def mapContainer (run : Runner ν) : Machine ν → Option (Attempt ν) :=
  overContainer run collect

/-- Keep the elements of a container for which a callable says `true`. -/
def filterContainer (run : Runner ν) : Machine ν → Option (Attempt ν) :=
  overContainer run retain

/-- Combine the elements of a tuple or a table with a seed, one after the
other. -/
def reduceContainer (run : Runner ν) (machine : Machine ν) :
    Option (Attempt ν) :=
  match machine.stack with
  | callable :: seed :: container :: rest =>
      let below := { machine with stack := rest }
      match callable.callable?, reducible? container with
      | some operation, some elements =>
          (passThrough run operation (fun element state => [element, state])
            (fun _ _ value => .ok value) elements seed below).map
            (Passage.conclude [callable, seed, container])
      | _, _ =>
          some (.refuse below .typeMismatch [callable, seed, container])
  | _ => some (.starved machine)

end StackAssembly
