import StackAssembly.Machine.Execute

/-!
# What operations ask for

Trying an operation either settles it at once or asks for something to be run:
a native, one other operation, a block, or a callable on the elements of a
container.  What is asked for depends on the machine only, not on the way in
which operations are run.  An argument about all operations is therefore one
about five plans, together with what each operation plans.
-/

namespace StackAssembly

variable {ν : Type}

/-- A callable to be run on the elements of a container. -/
structure Visit (ν : Type) where
  /-- What is run for every element. -/
  callable : Operation
  /-- The inputs for an element in a state, the last one on top. -/
  inputs : Value → Value → List Value
  /-- The state that follows from an element, a state and a result. -/
  next : Value → Value → Value → Except ErrorCode Value
  /-- The elements to be visited. -/
  elements : List Value
  /-- The state in front of the first element. -/
  start : Value
  /-- The machine without the operands. -/
  below : Machine ν
  /-- The operands, in the order in which they were popped. -/
  operands : List Value

/-- Go through the elements of a visit. -/
def Visit.pass (visit : Visit ν) (run : Runner ν) : Option (Passage ν) :=
  passThrough run visit.callable visit.inputs visit.next visit.elements
    visit.start visit.below

/-- What an operation asks for. -/
inductive Plan (ν : Type) where
  | settle (attempt : Attempt ν)
  | consult (symbol : ν)
  | handOver (operation : Operation) (machine : Machine ν)
  | activate (slots : List String) (operations : List Operation)
  | goThrough (visit : Visit ν)

namespace Plan

/-- Run a value if it is callable, or refuse the operands. -/
def callOr (value : Value) (machine : Machine ν) (operands : List Value) :
    Plan ν :=
  match value.callable? with
  | some operation => .handOver operation machine
  | none => .settle (.refuse machine .typeMismatch operands)

/-- What `exec` asks for. -/
def ofTop (machine : Machine ν) : Plan ν :=
  match machine.stack with
  | [] => .settle (.starved machine)
  | value :: rest => callOr value { machine with stack := rest } [value]

/-- What `iftrue` asks for. -/
def ofIfTrue (body : Operation) (machine : Machine ν) : Plan ν :=
  match machine.stack with
  | [] => .settle (.starved machine)
  | condition :: rest =>
      let below := { machine with stack := rest }
      match condition with
      | .boolean true => .handOver body below
      | .boolean false => .settle (.succeed below)
      | _ => .settle (.refuse below .typeMismatch [condition])

/-- What `select` asks for. -/
def ofSelect (cases : Entries) (otherwise : Option Operation)
    (machine : Machine ν) : Plan ν :=
  match machine.stack with
  | [] => .settle (.starved machine)
  | key :: rest =>
      let below := { machine with stack := rest }
      match cases.lookup? key with
      | some value => callOr value below [key]
      | none =>
          match otherwise with
          | some operation => .handOver operation below
          | none => .settle (.refuse below .notFound [key])

/-- What a call asks for. -/
def ofCall (target : String) (arguments : List Value)
    (machine : Machine ν) : Plan ν :=
  match machine.store.get? target with
  | none => .settle (.refuse machine .notFound)
  | some value =>
      match value.callable? with
      | some operation => .handOver operation (machine.pushAll arguments)
      | none => .settle (.refuse machine .typeMismatch)

/-- What the use of a native asks for. -/
def ofNative (bucket name : String) (machine : Machine ν) : Plan ν :=
  match machine.native? bucket name with
  | some symbol => .consult symbol
  | none => .settle (.refuse machine .notFound)

/-- What `map` and `filter` ask for. -/
def ofContainer (next : Value → Value → Value → Except ErrorCode Value)
    (machine : Machine ν) : Plan ν :=
  match machine.stack with
  | callable :: container :: rest =>
      let below := { machine with stack := rest }
      match callable.callable?, container.elements?, container.emptied? with
      | some operation, some elements, some emptied =>
          .goThrough
            { callable := operation
              inputs := fun element _ => [element]
              next, elements, below
              start := emptied
              operands := [callable, container] }
      | _, _, _ =>
          .settle (.refuse below .typeMismatch [callable, container])
  | _ => .settle (.starved machine)

/-- What `reduce` asks for. -/
def ofReduce (machine : Machine ν) : Plan ν :=
  match machine.stack with
  | callable :: seed :: container :: rest =>
      let below := { machine with stack := rest }
      match callable.callable?, reducible? container with
      | some operation, some elements =>
          .goThrough
            { callable := operation
              inputs := fun element state => [element, state]
              next := fun _ _ value => .ok value
              elements, below
              start := seed
              operands := [callable, seed, container] }
      | _, _ =>
          .settle (.refuse below .typeMismatch [callable, seed, container])
  | _ => .settle (.starved machine)

/-- What a primitive asks for. -/
def ofPrimitive (which : Primitive) (machine : Machine ν) : Plan ν :=
  match StackRule.ofPrimitive? machine.dialect which with
  | some rule => .settle (.apply machine rule)
  | none =>
      match which with
      | .resetStack => .settle (.succeed { machine with stack := [] })
      | .restart => .settle (.finished .restartBlock machine)
      | .exit => .settle (.finished .exitBlock machine)
      | .halt => .settle (.finished .halt machine)
      | .pack => .settle (.pack machine)
      | .exec => ofTop machine
      | .map => ofContainer collect machine
      | .filter => ofContainer retain machine
      | .reduce => ofReduce machine
      | _ => .settle (.succeed machine)

/-- What an operation asks for. -/
def ofOperation (machine : Machine ν) : Operation → Plan ν
  | .primitive which => ofPrimitive which machine
  | .push value => .settle (.succeed (machine.push value))
  | .ifTrue body => ofIfTrue body machine
  | .select cases otherwise => ofSelect cases otherwise machine
  | .named use name => .settle (.named machine name use)
  | .call target arguments => ofCall target arguments machine
  | .loadNative path => .settle (.loadNative machine path)
  | .native bucket name => ofNative bucket name machine
  | .block slots operations => .activate slots operations
  | .partialBind value callable => .handOver callable (machine.push value)

theorem ofPrimitive_ne_activate (which : Primitive) (machine : Machine ν)
    (slots : List String) (operations : List Operation) :
    ofPrimitive which machine ≠ .activate slots operations := by
  unfold ofPrimitive ofTop callOr ofContainer ofReduce
  repeat' split
  all_goals simp

/-- Only blocks are activated. -/
theorem eq_block_of_activate {machine : Machine ν} {operation : Operation}
    {slots : List String} {operations : List Operation}
    (planned : ofOperation machine operation =
      .activate slots operations) : operation = .block slots operations := by
  cases operation with
  | primitive which =>
      exact absurd planned
        (ofPrimitive_ne_activate which machine slots operations)
  | ifTrue body =>
      simp only [ofOperation, ofIfTrue] at planned
      repeat' split at planned
      all_goals cases planned
  | select cases otherwise =>
      simp only [ofOperation, ofSelect, callOr] at planned
      repeat' split at planned
      all_goals cases planned
  | call target arguments =>
      simp only [ofOperation, ofCall] at planned
      repeat' split at planned
      all_goals cases planned
  | native bucket name =>
      simp only [ofOperation, ofNative] at planned
      split at planned <;> cases planned
  | block others body =>
      cases planned
      rfl
  | push | named | loadNative | partialBind => cases planned

/-- Do what is asked for, given the ways of running operations. -/
def carryOut (host : Host ν) (run : Runner ν) (runBody : BodyRunner ν)
    (machine : Machine ν) : Plan ν → Option (Attempt ν)
  | .settle attempt => some attempt
  | .consult symbol => some (.ofExecution (host symbol machine))
  | .handOver operation other => (run operation other).map .ofExecution
  | .activate slots operations =>
      (runBlock runBody slots operations machine).map .ofExecution
  | .goThrough visit =>
      (visit.pass run).map (Passage.conclude visit.operands)

section CarryOut

variable (host : Host ν) (run : Runner ν) (runBody : BodyRunner ν)
  (machine : Machine ν)

theorem carryOut_ofTop :
    (ofTop machine).carryOut host run runBody machine =
      runTop run machine := by
  unfold ofTop runTop callOr
  cases machine.stack with
  | nil => rfl
  | cons value rest =>
      dsimp only
      cases value.callable? <;> rfl

theorem carryOut_ofIfTrue (body : Operation) :
    (ofIfTrue body machine).carryOut host run runBody machine =
      runIfTrue run body machine := by
  unfold ofIfTrue runIfTrue
  cases machine.stack with
  | nil => rfl
  | cons condition rest =>
      cases condition with
      | boolean truth => cases truth <;> rfl
      | _ => rfl

theorem carryOut_ofSelect (cases : Entries) (otherwise : Option Operation) :
    (ofSelect cases otherwise machine).carryOut host run runBody machine =
      runSelect run cases otherwise machine := by
  unfold ofSelect runSelect callOr
  cases machine.stack with
  | nil => rfl
  | cons key rest =>
      dsimp only
      cases cases.lookup? key with
      | none => cases otherwise <;> rfl
      | some value =>
          dsimp only
          cases value.callable? <;> rfl

theorem carryOut_ofCall (target : String) (arguments : List Value) :
    (ofCall target arguments machine).carryOut host run runBody machine =
      runCall run target arguments machine := by
  unfold ofCall runCall
  cases machine.store.get? target with
  | none => rfl
  | some value =>
      dsimp only
      cases value.callable? <;> rfl

theorem carryOut_ofNative (bucket name : String) :
    (ofNative bucket name machine).carryOut host run runBody machine =
      some (runNative host bucket name machine) := by
  unfold ofNative runNative
  cases machine.native? bucket name <;> rfl

theorem carryOut_ofContainer
    (next : Value → Value → Value → Except ErrorCode Value) :
    (ofContainer next machine).carryOut host run runBody machine =
      overContainer run next machine := by
  unfold ofContainer overContainer
  rcases machine.stack with _ | ⟨callable, _ | ⟨container, rest⟩⟩
  · rfl
  · rfl
  · dsimp only
    cases callable.callable? <;> cases container.elements? <;>
      cases container.emptied? <;> rfl

theorem carryOut_ofReduce :
    (ofReduce machine).carryOut host run runBody machine =
      reduceContainer run machine := by
  unfold ofReduce reduceContainer
  rcases machine.stack with _ | ⟨callable, _ | ⟨seed, _ | ⟨container, rest⟩⟩⟩
  · rfl
  · rfl
  · rfl
  · dsimp only
    cases callable.callable? <;> cases reducible? container <;> rfl

theorem carryOut_ofPrimitive (which : Primitive) :
    (ofPrimitive which machine).carryOut host run runBody machine =
      tryPrimitive run which machine := by
  cases which with
  | exec => exact carryOut_ofTop host run runBody machine
  | map => exact carryOut_ofContainer host run runBody machine collect
  | filter => exact carryOut_ofContainer host run runBody machine retain
  | reduce => exact carryOut_ofReduce host run runBody machine
  | _ => rfl

/-- Trying an operation is doing what it asks for. -/
theorem carryOut_ofOperation (operation : Operation) :
    (ofOperation machine operation).carryOut host run runBody machine =
      tryOperation host run runBody machine operation := by
  cases operation with
  | primitive which =>
      exact carryOut_ofPrimitive host run runBody machine which
  | ifTrue body => exact carryOut_ofIfTrue host run runBody machine body
  | select cases otherwise =>
      exact carryOut_ofSelect host run runBody machine cases otherwise
  | call target arguments =>
      exact carryOut_ofCall host run runBody machine target arguments
  | native bucket name =>
      exact carryOut_ofNative host run runBody machine bucket name
  | _ => rfl

end CarryOut
end Plan

/-- Executing an operation is doing what it asks for and settling the
result. -/
theorem execute_succ (host : Host ν) (fuel : Nat) (operation : Operation)
    (machine : Machine ν) :
    execute host (fuel + 1) operation machine =
      ((Plan.ofOperation machine operation).carryOut host
        (execute host fuel) (executeBody host fuel) machine).map
        Attempt.settle := by
  rw [execute, Plan.carryOut_ofOperation]

/-- Executing a block is activating it between two notifications. -/
theorem execute_block (host : Host ν) (fuel : Nat) (slots : List String)
    (operations : List Operation) (machine : Machine ν) :
    execute host (fuel + 1) (.block slots operations) machine =
      runBlock (executeBody host fuel) slots operations machine := by
  rw [execute, tryOperation, Option.map_map]
  exact Option.map_id'

section Activation

variable {runBody : BodyRunner ν} {slots : List String}
  {operations : List Operation} {machine below : Machine ν}
  {values : List Value}

theorem runBlock_of_starved
    (taken : (machine.notify .entering slots operations).takeTop?
      slots.length = none) :
    runBlock runBody slots operations machine =
      some (.error, ((machine.notify .entering slots operations).raise
        { code := .insufficientArguments }).notify .leaving slots
          operations) := by
  rw [runBlock, activateBlock, taken]
  rfl

theorem runBlock_of_taken
    (taken : (machine.notify .entering slots operations).takeTop?
      slots.length = some (values, below)) :
    runBlock runBody slots operations machine =
      (runBody slots operations 0 (below.pushFrame (slots.zip values))).map
        fun ended =>
          (ended.1, ended.2.popFrame.notify .leaving slots operations) := by
  rw [runBlock, activateBlock, taken, Option.map_map]
  rfl

end Activation

namespace Outcome

/-- The index at which a block goes on behind an operation, if it does. -/
def resumesAt (index : Nat) : Outcome → Option Nat
  | .success => some (index + 1)
  | .again => some index
  | .restartBlock => some 0
  | .error | .halt | .exitBlock => none

/-- The outcome of a block that ends with an operation. -/
def ofLast : Outcome → Outcome
  | .exitBlock => .success
  | outcome => outcome

end Outcome

/-- A block goes through its operations as their outcomes tell. -/
theorem executeBody_succ (host : Host ν) (fuel : Nat) (slots : List String)
    (operations : List Operation) (index : Nat) (machine : Machine ν) :
    executeBody host (fuel + 1) slots operations index machine =
      match operations[index]? with
      | none => some (.success, machine)
      | some operation =>
          (execute host fuel operation
            (machine.notify (.executing index) slots operations)).bind
            fun ended =>
              match ended.1.resumesAt index with
              | some later =>
                  executeBody host fuel slots operations later ended.2
              | none => some (ended.1.ofLast, ended.2) := by
  rw [executeBody]
  cases operations[index]? with
  | none => rfl
  | some operation =>
      cases ended : execute host fuel operation
        (machine.notify (.executing index) slots operations) with
      | none => simp only [ended, Option.bind_none]
      | some execution =>
          obtain ⟨outcome, next⟩ := execution
          simp only [ended, Option.bind_some]
          cases outcome <;> rfl

end StackAssembly
