import StackAssembly.Proofs.Machine.Plan

/-!
# Ways of invoking a callable

A callable can be called by a global name, it can be run from the top of the
stack, and values can be bound to it beforehand.  Each of these ways comes to
running the callable on a machine with its arguments pushed, so each can be
replaced by pushing the arguments and running the callable.  What the run ends
with stays the same, whatever the callable does, and it stays the same whether
it ends at all.
-/

namespace StackAssembly

variable {ν : Type}

/-- Two ways of running, given the fuel, end alike: what one of them can end
with, the other can end with too. -/
def EndAlike (one other : Nat → Option (Execution ν)) : Prop :=
  ∀ ended, (∃ fuel, one fuel = some ended) ↔ ∃ fuel, other fuel = some ended

namespace EndAlike

variable {one other third : Nat → Option (Execution ν)}

theorem refl (one : Nat → Option (Execution ν)) : EndAlike one one :=
  fun _ => Iff.rfl

theorem symm (alike : EndAlike one other) : EndAlike other one :=
  fun ended => (alike ended).symm

theorem trans (alike : EndAlike one other) (next : EndAlike other third) :
    EndAlike one third :=
  fun ended => (alike ended).trans (next ended)

/-- A run that first spends fuel on something else ends alike. -/
theorem of_later (before : one 0 = none)
    (later : ∀ fuel, one (fuel + 1) = other fuel) : EndAlike one other := by
  intro ended
  constructor
  · rintro ⟨_ | fuel, ends⟩
    · rw [before] at ends
      cases ends
    · exact ⟨fuel, (later fuel).symm.trans ends⟩
  · rintro ⟨fuel, ends⟩
    exact ⟨fuel + 1, (later fuel).trans ends⟩

end EndAlike

/-- Execute operations one after the other as long as they succeed. -/
def executeInTurn (host : Host ν) (fuel : Nat) :
    List Operation → Machine ν → Option (Execution ν)
  | [], machine => some (.success, machine)
  | operation :: operations, machine =>
      match execute host fuel operation machine with
      | some (.success, next) => executeInTurn host fuel operations next
      | ended => ended

variable {host : Host ν} {machine below : Machine ν}
  {operation other : Operation}

/-- An operation that hands over to another one ends like the other one. -/
theorem endAlike_of_handOver
    (planned : Plan.ofOperation machine operation = .handOver other below) :
    EndAlike (execute host · operation machine)
      (execute host · other below) := by
  refine .of_later rfl fun fuel => ?_
  rw [execute_succ, planned, Plan.carryOut, Option.map_map]
  exact Option.map_id'

theorem executeInTurn_singleton (fuel : Nat) (operation : Operation)
    (machine : Machine ν) :
    executeInTurn host fuel [operation] machine =
      execute host fuel operation machine := by
  rw [executeInTurn]
  split
  · next ends => rw [ends, executeInTurn]
  · rfl

/-- An operation that succeeds at once is followed by the next one. -/
theorem executeInTurn_of_succeed
    (planned : Plan.ofOperation machine operation =
      .settle (.succeed below))
    (operations : List Operation) (fuel : Nat) :
    executeInTurn host fuel (operation :: other :: operations) machine =
      executeInTurn host fuel (other :: operations) below := by
  cases fuel with
  | zero => rfl
  | succ fuel =>
      have ends : execute host (fuel + 1) operation machine =
          some (.success, below) := by
        rw [execute_succ, planned]
        rfl
      rw [executeInTurn, ends]

theorem Machine.pushAll_reverse (machine : Machine ν) (value : Value)
    (values : List Value) :
    (machine.push value).pushAll values.reverse =
      machine.pushAll (value :: values).reverse := by
  simp [push, pushAll]

/-- Values that are pushed one after the other come to lie on the stack. -/
theorem executeInTurn_pushes (values : List Value) (operation : Operation)
    (operations : List Operation) (machine : Machine ν) (fuel : Nat) :
    executeInTurn host fuel (values.map .push ++ operation :: operations)
        machine =
      executeInTurn host fuel (operation :: operations)
        (machine.pushAll values.reverse) := by
  induction values generalizing machine with
  | nil => rfl
  | cons value values ih =>
      have first : executeInTurn host fuel
            ((value :: values).map .push ++ operation :: operations)
            machine =
          executeInTurn host fuel
            (values.map .push ++ operation :: operations)
            (machine.push value) := by
        -- Behind the push comes another one or the operation itself.
        cases values with
        | nil => exact executeInTurn_of_succeed rfl _ fuel
        | cons => exact executeInTurn_of_succeed rfl _ fuel
      rw [first, ih, Machine.pushAll_reverse]

/-- Bound values are pushed in their order before the callable is run. -/
theorem endAlike_partialBinds (values : List Value) (operation : Operation)
    (machine : Machine ν) :
    EndAlike
      (execute host · (values.foldr .partialBind operation) machine)
      (execute host · operation (machine.pushAll values.reverse)) := by
  induction values generalizing machine with
  | nil => exact .refl _
  | cons value values ih =>
      rw [← Machine.pushAll_reverse]
      exact (endAlike_of_handOver rfl).trans (ih (machine.push value))

/-- What runs the top of the stack ends like the callable there. -/
theorem endAlike_exec {callable : Operation} {rest : List Value}
    (stack : machine.stack = .operation callable :: rest) :
    EndAlike (execute host · (.primitive .exec) machine)
      (execute host · callable { machine with stack := rest }) := by
  refine endAlike_of_handOver ?_
  have planned : Plan.ofOperation machine (.primitive .exec) =
      .ofTop machine := rfl
  simp only [planned, Plan.ofTop, stack, Plan.callOr, Value.callable?]

/-- A call ends like the callable with the arguments on the stack. -/
theorem endAlike_call {target : String} {callee : Operation}
    (bound : machine.store.get? target = some (.operation callee))
    (arguments : List Value) :
    EndAlike (execute host · (.call target arguments) machine)
      (execute host · callee (machine.pushAll arguments)) := by
  refine endAlike_of_handOver ?_
  simp only [Plan.ofOperation, Plan.ofCall, bound, Value.callable?]

theorem plan_load {target : String} {value : Value}
    (bound : machine.store.get? target = some value) :
    Plan.ofOperation machine (.named .load target) =
      .settle (.succeed (machine.push value)) := by
  simp only [Plan.ofOperation, Attempt.named, Attempt.load, bound]

theorem plan_bind {callable : Operation} {value : Value} {rest : List Value}
    (stack : machine.stack = .operation callable :: value :: rest) :
    Plan.ofOperation machine (.primitive .bind) =
      .settle (.succeed { machine with
        stack := .operation (.partialBind value callable) :: rest }) := by
  have planned : Plan.ofOperation machine (.primitive .bind) =
      .settle (.apply machine (.binary StackRule.bind)) := rfl
  rw [planned, Attempt.apply]
  simp only [stack]
  rfl

/-- Pushing arguments, loading the callable and running it ends like the
callable with the arguments on the stack. -/
theorem endAlike_load_exec {target : String} {callee : Operation}
    (bound : machine.store.get? target = some (.operation callee))
    (arguments : List Value) :
    EndAlike
      (executeInTurn host ·
        (arguments.reverse.map .push ++
          [.named .load target, .primitive .exec]) machine)
      (execute host · callee (machine.pushAll arguments)) := by
  have inTurn : ∀ fuel, executeInTurn host fuel
        (arguments.reverse.map .push ++
          [.named .load target, .primitive .exec]) machine =
      execute host fuel (.primitive .exec)
        ((machine.pushAll arguments).push (.operation callee)) := by
    intro fuel
    have loaded : Plan.ofOperation (machine.pushAll arguments)
        (.named .load target) =
          .settle (.succeed ((machine.pushAll arguments).push
            (.operation callee))) := plan_load bound
    rw [executeInTurn_pushes, List.reverse_reverse,
      executeInTurn_of_succeed loaded, executeInTurn_singleton]
  simp only [inTurn]
  exact endAlike_exec rfl

/-- Calling a global name ends like pushing the arguments, the first one last,
loading the name and running what it is bound to.  Binding a callable to the
value below it and running the result ends like running the callable.  And
running a callable to which values are bound ends like pushing these values in
their order and running the callable. -/
theorem invocations_end_alike {ν : Type} (host : Host ν)
    (machine : Machine ν) :
    (∀ target arguments callee,
      machine.store.get? target = some (.operation callee) →
      EndAlike (execute host · (.call target arguments) machine)
        (executeInTurn host ·
          (arguments.reverse.map .push ++
            [.named .load target, .primitive .exec]) machine)) ∧
    (∀ callable value rest,
      machine.stack = .operation callable :: value :: rest →
      EndAlike
        (executeInTurn host · [.primitive .bind, .primitive .exec] machine)
        (execute host · (.primitive .exec) machine)) ∧
    ∀ (values : List Value) operation,
      EndAlike
        (execute host · (values.foldr .partialBind operation) machine)
        (executeInTurn host · (values.map .push ++ [operation]) machine) := by
  refine ⟨?_, ?_, ?_⟩
  · intro target arguments callee bound
    exact (endAlike_call bound arguments).trans
      (endAlike_load_exec bound arguments).symm
  · intro callable value rest stack
    have inTurn : ∀ fuel, executeInTurn host fuel
          [.primitive .bind, .primitive .exec] machine =
        execute host fuel (.primitive .exec) { machine with
          stack := .operation (.partialBind value callable) :: rest } := by
      intro fuel
      rw [executeInTurn_of_succeed (plan_bind stack),
        executeInTurn_singleton]
    simp only [inTurn]
    refine (endAlike_exec rfl).trans (.trans ?_ (endAlike_exec stack).symm)
    exact endAlike_of_handOver rfl
  · intro values operation
    have inTurn : ∀ fuel, executeInTurn host fuel
          (values.map .push ++ [operation]) machine =
        execute host fuel operation (machine.pushAll values.reverse) := by
      intro fuel
      rw [executeInTurn_pushes, executeInTurn_singleton]
    simp only [inTurn]
    exact endAlike_partialBinds values operation machine

/-- A difference is the same in every way of asking for it, and the outcome of
a callable that leaves its block is kept by what is bound to it. -/
theorem difference_invoked :
    let host : Host Empty := nofun
    let difference : Operation := .primitive .sub
    let named : Machine Empty :=
      { store := Bindings.empty.set "minus" (.operation difference) }
    let stacked : Machine Empty :=
      { stack := [.operation difference, .number 10, .number 3] }
    (∃ fuel, executeInTurn host fuel
      [.push (.number 3), .push (.number 10), .named .load "minus",
        .primitive .exec] named =
      some (.success, named.push (.number 7))) ∧
    (∃ fuel, executeInTurn host fuel [.primitive .bind, .primitive .exec]
      stacked = some (.success, { stacked with stack := [.number 7] })) ∧
    ∃ fuel, execute host fuel
      (.partialBind (.number 3) (.partialBind (.number 10)
        (.primitive .exit))) stacked =
      some (.exitBlock, stacked.pushAll [.number 10, .number 3]) := by
  intro host difference named stacked
  have bound : named.store.get? "minus" = some (.operation difference) := rfl
  refine ⟨?_, ?_, ?_⟩
  · exact ((invocations_end_alike host named).1 "minus"
      [.number 10, .number 3] difference bound _).mp ⟨2, rfl⟩
  · exact ((invocations_end_alike host stacked).2.1 difference _ _ rfl _).mpr
      ⟨2, rfl⟩
  · exact ((invocations_end_alike host stacked).2.2
      [.number 3, .number 10] (.primitive .exit) _).mpr ⟨1, rfl⟩

end StackAssembly
