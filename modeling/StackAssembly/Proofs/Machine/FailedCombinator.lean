import StackAssembly.Proofs.Machine.OperandRestoration
import StackAssembly.Proofs.Machine.RunInduction

/-!
# What a failed combinator leaves

A combinator that fails puts its operands back, an error on top of them.  What
lies beneath is what the last run of the callable left there: the stack is cut
to its old length, but values that the callable took from beneath its inputs
are gone, and values that it put in their place stay.  So the stack is the old
one with an error on top if and only if that run kept everything beneath its
inputs.
-/

namespace StackAssembly

variable {ν : Type}

/-- The given number of values at the bottom of a stack. -/
def lowest (count : Nat) (stack : List Value) : List Value :=
  stack.drop (stack.length - count)

theorem lowest_eq_iff_suffix {values stack : List Value} :
    lowest values.length stack = values ↔ values <:+ stack := by
  rw [List.suffix_iff_eq_drop, lowest, eq_comm]

/-- How the callable ended each time it was run on an element. -/
def passRuns (run : Runner ν) (callable : Operation)
    (inputs : Value → Value → List Value)
    (next : Value → Value → Value → Except ErrorCode Value) :
    List Value → Value → Machine ν → List (Execution ν)
  | [], _, _ => []
  | element :: elements, state, machine =>
      match run callable
        (machine.pushAll (inputs element state).reverse) with
      | none => []
      | some ended =>
          ended ::
            match Step.ofExecution machine.stack.length ended with
            | .produced value left =>
                match next element state value with
                | .ok later =>
                    passRuns run callable inputs next elements later left
                | .error _ => []
            | _ => []

/-- The runs of the callable that a primitive makes on a machine. -/
def combinatorRuns (host : Host ν) (fuel : Nat) (which : Primitive)
    (machine : Machine ν) : List (Execution ν) :=
  match Plan.ofPrimitive which machine with
  | .goThrough visit =>
      passRuns (execute host fuel) visit.callable visit.inputs visit.next
        visit.elements visit.start visit.below
  | _ => []

/-- The number of operands of a combinator. -/
def combinatorOperands : Primitive → Nat
  | .reduce => 3
  | _ => 2

section Steps

variable {base : Nat} {ended : Execution ν} {left : Machine ν}

theorem Step.stack_of_produced {value : Value}
    (judged : Step.ofExecution base ended = .produced value left) :
    left.stack = lowest base ended.2.stack ∧ left.stack.length = base := by
  obtain ⟨outcome, machine⟩ := ended
  cases outcome with
  | success =>
      simp only [ofExecution] at judged
      split at judged
      · next grown =>
          cases stack : machine.stack with
          | nil => simp [stack] at grown
          | cons top rest =>
              simp only [Machine.pop?, stack] at judged
              cases judged
              have length : rest.length = base := by
                simpa [stack] using grown
              simp [lowest, ← length]
      · cases judged
  | _ => cases judged

theorem Step.stack_of_unexpected
    (judged : Step.ofExecution base ended = .unexpected left) :
    left.stack = lowest base ended.2.stack := by
  obtain ⟨outcome, machine⟩ := ended
  cases outcome with
  | success =>
      simp only [ofExecution] at judged
      split at judged
      · next grown =>
          cases stack : machine.stack with
          | nil => simp [stack] at grown
          | cons top rest =>
              simp only [Machine.pop?, stack] at judged
              cases judged
      · cases judged
        rfl
  | halt => cases judged
  | _ =>
      cases judged
      rfl

end Steps

/-- A passage that fails leaves the stack as the last run left it, cut to its
old length. -/
theorem stack_of_failed_pass {run : Runner ν} {callable : Operation}
    {inputs : Value → Value → List Value}
    {next : Value → Value → Value → Except ErrorCode Value}
    {elements : List Value} {state : Value} {machine left : Machine ν}
    {code : ErrorCode}
    (fails : passThrough run callable inputs next elements state machine =
      some (.failed code left)) :
    ∃ ended, (passRuns run callable inputs next elements state
        machine).getLast? = some ended ∧
      left.stack = lowest machine.stack.length ended.2.stack := by
  induction elements generalizing state machine with
  | nil => cases fails
  | cons element elements ih =>
      rw [passThrough, runStep] at fails
      rw [passRuns]
      cases ran : run callable
          (machine.pushAll (inputs element state).reverse) with
      | none => simp [ran] at fails
      | some ended =>
          rw [ran, Option.map_some] at fails
          dsimp only at fails ⊢
          cases judged : Step.ofExecution machine.stack.length ended with
          | halted left =>
              rw [judged] at fails
              cases fails
          | unexpected left =>
              rw [judged] at fails
              cases fails
              exact ⟨ended, rfl, Step.stack_of_unexpected judged⟩
          | produced value below =>
              obtain ⟨stack, length⟩ := Step.stack_of_produced judged
              rw [judged] at fails
              dsimp only at fails ⊢
              cases following : next element state value with
              | error code =>
                  rw [following] at fails
                  cases fails
                  exact ⟨ended, rfl, stack⟩
              | ok later =>
                  rw [following] at fails
                  obtain ⟨last, isLast, cut⟩ := ih fails
                  refine ⟨last, ?_, ?_⟩
                  · simp [List.getLast?_cons, isLast]
                  · rw [cut, length]

theorem Attempt.settle_refuse {machine : Machine ν}
    (operands : List Value) {rest : List Value}
    (taken : machine.stack = operands ++ rest) (code : ErrorCode) :
    (refuse { machine with stack := rest } code operands).settle =
      (.error, machine.push (.error code)) := by
  rw [refuse, settle, Machine.raise_eq_push_pushAll,
    Machine.pushAll_taken taken]

theorem Attempt.history_refuse {machine : Machine ν}
    (operands : List Value) {rest : List Value}
    (taken : machine.stack = operands ++ rest) (code : ErrorCode) :
    (refuse { machine with stack := rest } code operands).history =
      [{ event := .raises code, machine := machine.push (.error code) }] := by
  rw [refuse, history, Machine.raise_eq_push_pushAll,
    Machine.pushAll_taken taken]

/-- A combinator either refuses its operands or visits elements above what
lies beneath them. -/
theorem Plan.ofPrimitive_of_visits {which : Primitive}
    (visits : (Operation.primitive which).visitsElements)
    (machine : Machine ν) :
    (∃ attempt code, Plan.ofPrimitive which machine = .settle attempt ∧
      attempt.settle = (.error, machine.push (.error code))) ∨
    ∃ visit, Plan.ofPrimitive which machine = .goThrough visit ∧
      machine.stack = visit.operands ++ visit.below.stack ∧
      visit.operands.length = combinatorOperands which := by
  cases which with
  | map | filter =>
      simp only [ofPrimitive, StackRule.ofPrimitive?, ofContainer]
      split
      · next callable container rest stack =>
          split
          · exact .inr ⟨_, rfl, stack, rfl⟩
          · exact .inl ⟨_, _, rfl, Attempt.settle_refuse
              [callable, container] stack .typeMismatch⟩
      · exact .inl ⟨_, _, rfl, rfl⟩
  | reduce =>
      simp only [ofPrimitive, StackRule.ofPrimitive?, ofReduce]
      split
      · next callable seed container rest stack =>
          split
          · exact .inr ⟨_, rfl, stack, rfl⟩
          · exact .inl ⟨_, _, rfl, Attempt.settle_refuse
              [callable, seed, container] stack .typeMismatch⟩
      · exact .inl ⟨_, _, rfl, rfl⟩
  | _ => cases visits

/-- What the runs of a callable leave beneath its operands. -/
def leftBeneath (runs : List (Execution ν)) (rest : List Value) :
    List Value :=
  match runs.getLast? with
  | none => rest
  | some ended => lowest rest.length ended.2.stack

theorem leftBeneath_eq_iff {runs : List (Execution ν)}
    {rest : List Value} :
    leftBeneath runs rest = rest ↔
      ∀ ended ∈ runs.getLast?, rest <:+ ended.2.stack := by
  unfold leftBeneath
  cases runs.getLast? with
  | none => simp
  | some ended => simpa using lowest_eq_iff_suffix

theorem exists_stack_of_failed_combinator {host : Host ν} {fuel : Nat}
    {which : Primitive} {machine left : Machine ν}
    (visits : (Operation.primitive which).visitsElements)
    (ends : execute host (fuel + 1) (.primitive which) machine =
      some (.error, left)) :
    ∃ code, left.stack = .error code ::
      (machine.stack.take (combinatorOperands which) ++
        leftBeneath (combinatorRuns host fuel which machine)
          (machine.stack.drop (combinatorOperands which))) := by
  rw [execute_succ] at ends
  simp only [Plan.ofOperation] at ends
  rcases Plan.ofPrimitive_of_visits visits machine with
    ⟨attempt, code, planned, settled⟩ | ⟨visit, planned, stack, count⟩
  · -- Operands that are refused are put back before anything is run.
    rw [planned] at ends
    have ended := (Option.some_inj.mp ends).symm.trans settled
    cases ended
    refine ⟨code, ?_⟩
    rw [combinatorRuns, planned, leftBeneath, List.getLast?_nil,
      List.take_append_drop]
    rfl
  · rw [planned] at ends
    obtain ⟨attempt, passed, settled⟩ := Option.map_eq_some_iff.mp ends
    obtain ⟨passage, passes, rfl⟩ := Option.map_eq_some_iff.mp passed
    cases passage with
    | completed state below => cases settled
    | halted below => cases settled
    | failed code below =>
        cases settled
        obtain ⟨ended, isLast, cut⟩ := stack_of_failed_pass passes
        refine ⟨code, ?_⟩
        rw [combinatorRuns, planned]
        dsimp only
        rw [leftBeneath, isLast, stack, ← count, List.take_left,
          List.drop_left]
        dsimp only
        rw [← cut]
        rfl

/-- A combinator that fails leaves an error, its operands in their order and,
beneath them, what the last run of the callable left there.  The values beneath
are the old ones if and only if this run kept them. -/
theorem stack_of_failed_combinator {host : Host ν} {fuel : Nat}
    {which : Primitive} {machine left : Machine ν}
    (visits : (Operation.primitive which).visitsElements)
    (ends : execute host (fuel + 1) (.primitive which) machine =
      some (.error, left)) :
    ∃ code,
      left.stack = .error code ::
        (machine.stack.take (combinatorOperands which) ++
          leftBeneath (combinatorRuns host fuel which machine)
            (machine.stack.drop (combinatorOperands which))) ∧
      (left.stack = .error code :: machine.stack ↔
        ∀ ended ∈ (combinatorRuns host fuel which machine).getLast?,
          machine.stack.drop (combinatorOperands which) <:+
            ended.2.stack) := by
  obtain ⟨code, stack⟩ := exists_stack_of_failed_combinator visits ends
  refine ⟨code, stack, ?_⟩
  rw [stack, ← leftBeneath_eq_iff, List.cons_inj_right]
  constructor
  · intro same
    apply (List.append_right_inj (machine.stack.take
      (combinatorOperands which))).mp
    rw [same, List.take_append_drop]
  · intro same
    rw [same, List.take_append_drop]

/-- A callable that takes two values does not fit a step, which gives it one.
The value that it takes from beneath its input is lost. -/
theorem map_with_two_pops_loses_value :
    let host : Host Empty := nofun
    let pops : Value :=
      .operation (.block [] [.primitive .pop, .primitive .pop])
    let container : Value := .tuple [.number 1]
    let machine : Machine Empty := { stack := [pops, container, .number 42] }
    let left : Machine Empty :=
      { stack := [.error .unexpectedResult, pops, container] }
    execute host 6 (.primitive .map) machine = some (.error, left) ∧
    (∀ code, left.stack ≠ .error code :: machine.stack) ∧
    ∃ code,
      left.stack = .error code ::
        (machine.stack.take 2 ++
          leftBeneath (combinatorRuns host 5 .map machine)
            (machine.stack.drop 2)) ∧
      (left.stack = .error code :: machine.stack ↔
        ∀ ended ∈ (combinatorRuns host 5 .map machine).getLast?,
          machine.stack.drop 2 <:+ ended.2.stack) := by
  intro host pops container machine left
  have ends : execute host 6 (.primitive .map) machine =
      some (.error, left) := rfl
  refine ⟨ends, fun code same => ?_, stack_of_failed_combinator rfl ends⟩
  have length := congrArg List.length same
  simp [left, machine] at length

end StackAssembly
