import StackAssembly.Proofs.Machine.Plan

/-!
# What happens during a run

The *history* of an execution lists, in their order, the moments at which an
operation begins, a native is called or a fault is raised, each with the
machine at that moment.  It covers everything that is executed on the way, in
blocks, in called values and in the steps of combinators, and it says how many
such steps a moment lies in.
-/

namespace StackAssembly

variable {ν : Type}

/-- What can happen during a run. -/
inductive RunEvent (ν : Type) where
  | begins (operation : Operation)
  | consults (symbol : ν)
  | raises (code : ErrorCode)

/-- A moment of a run. -/
structure Moment (ν : Type) where
  /-- What happens. -/
  event : RunEvent ν
  /-- The machine, at a fault the one with the error on its stack. -/
  machine : Machine ν
  /-- The number of steps of combinators that the moment lies in. -/
  steps : Nat := 0

/-- The moment at which an operation begins. -/
def Moment.start (operation : Operation) (machine : Machine ν) : Moment ν :=
  { event := .begins operation, machine }

/-- A moment as it is seen from around a step of a combinator. -/
def Moment.withinStep (moment : Moment ν) : Moment ν :=
  { moment with steps := moment.steps + 1 }

/-- The moment at which an attempt fails, if it does. -/
def Attempt.history : Attempt ν → List (Moment ν)
  | .finished _ _ => []
  | .faulted fault left =>
      [{ event := .raises fault.code, machine := left.raise fault }]

/-- A way of listing what happens while an operation is executed. -/
abbrev Recorder (ν : Type) := Operation → Machine ν → List (Moment ν)

/-- What happens while a callable is run on elements one after the other. -/
def passHistory (run : Runner ν) (record : Recorder ν) (callable : Operation)
    (inputs : Value → Value → List Value)
    (next : Value → Value → Value → Except ErrorCode Value) :
    List Value → Value → Machine ν → List (Moment ν)
  | [], _, _ => []
  | element :: elements, state, machine =>
      (record callable
        (machine.pushAll (inputs element state).reverse)).map
        Moment.withinStep ++
      match runStep run callable (inputs element state) machine with
      | some (.produced value left) =>
          match next element state value with
          | .ok later =>
              passHistory run record callable inputs next elements later left
          | .error _ => []
      | _ => []

/-- What happens during a visit, a failure at its end included. -/
def Visit.history (visit : Visit ν) (run : Runner ν)
    (record : Recorder ν) : List (Moment ν) :=
  passHistory run record visit.callable visit.inputs visit.next
    visit.elements visit.start visit.below ++
  match visit.pass run with
  | some passage => (passage.conclude visit.operands).history
  | none => []

/-- What happens while a block is activated. -/
def activationHistory
    (recordBody : List String → List Operation → Nat → Machine ν →
      List (Moment ν))
    (slots : List String) (operations : List Operation)
    (machine : Machine ν) : List (Moment ν) :=
  match machine.takeTop? slots.length with
  | none => (Attempt.starved machine).history
  | some (values, below) =>
      recordBody slots operations 0 (below.pushFrame (slots.zip values))

mutual

/-- What happens while an operation is executed. -/
def history (host : Host ν) : (fuel : Nat) → Recorder ν
  | 0, _, _ => []
  | fuel + 1, operation, machine =>
      .start operation machine ::
      match Plan.ofOperation machine operation with
      | .settle attempt => attempt.history
      | .consult symbol => [{ event := .consults symbol, machine }]
      | .handOver other below => history host fuel other below
      | .activate slots operations =>
          activationHistory (bodyHistory host fuel) slots operations
            (machine.notify .entering slots operations)
      | .goThrough visit =>
          visit.history (execute host fuel) (history host fuel)

/-- What happens while the operations of a block are executed from an
index. -/
def bodyHistory (host : Host ν) : (fuel : Nat) → (slots : List String) →
    (operations : List Operation) → Nat → Machine ν → List (Moment ν)
  | 0, _, _, _, _ => []
  | fuel + 1, slots, operations, index, machine =>
      match operations[index]? with
      | none => []
      | some operation =>
          let begun := machine.notify (.executing index) slots operations
          history host fuel operation begun ++
          match execute host fuel operation begun with
          | none => []
          | some ended =>
              match ended.1.resumesAt index with
              | some later =>
                  bodyHistory host fuel slots operations later ended.2
              | none => []

end

end StackAssembly
