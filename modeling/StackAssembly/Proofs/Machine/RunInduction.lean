import StackAssembly.Proofs.Machine.History

/-!
# Induction on runs

What holds of every run is shown by going along with the run: through the five
plans of an operation, the operations of a block and the elements of a visit.
The cases are collected in one structure, so that every such proof names them
in the same way.  A statement about a run may speak of its fuel, of the
machine it starts from, of its history and of what it ends with.
-/

namespace StackAssembly

variable {ν : Type}

/-- A statement about executions of operations. -/
abbrev OperationClaim (ν : Type) :=
  Nat → Operation → Machine ν → List (Moment ν) → Execution ν → Prop

/-- A statement about executions of blocks from an index. -/
abbrev BodyClaim (ν : Type) :=
  Nat → List String → List Operation → Nat → Machine ν →
    List (Moment ν) → Execution ν → Prop

/-- A statement about visits. -/
abbrev VisitClaim (ν : Type) :=
  Nat → Visit ν → List (Moment ν) → Passage ν → Prop

namespace Visit

/-- Run the callable of a visit on an element. -/
def step (visit : Visit ν) (element : Value) : Machine ν :=
  visit.below.pushAll (visit.inputs element visit.start).reverse

/-- Judge the execution of the callable. -/
def judge (visit : Visit ν) (ended : Execution ν) : Step ν :=
  .ofExecution visit.below.stack.length ended

/-- What is left of a visit behind a successful step. -/
def goOn (visit : Visit ν) (elements : List Value) (state : Value)
    (left : Machine ν) : Visit ν :=
  { visit with elements, start := state, below := left }

/-- How a visit proceeds behind the step for an element. -/
def proceed (visit : Visit ν) (run : Runner ν) (element : Value)
    (elements : List Value) : Step ν → Option (Passage ν)
  | .halted left => some (.halted left)
  | .unexpected left => some (.failed .unexpectedResult left)
  | .produced value left =>
      match visit.next element visit.start value with
      | .error code => some (.failed code left)
      | .ok state => (visit.goOn elements state left).pass run

theorem pass_cons (run : Runner ν) (visit : Visit ν) {element : Value}
    {elements : List Value} (more : visit.elements = element :: elements) :
    visit.pass run =
      (run visit.callable (visit.step element)).bind fun ended =>
        visit.proceed run element elements (visit.judge ended) := by
  unfold pass
  rw [more, passThrough]
  unfold runStep step
  cases run visit.callable
    (visit.below.pushAll (visit.inputs element visit.start).reverse) with
  | none => rfl
  | some ended =>
      simp only [Option.map_some, Option.bind_some, judge]
      cases Step.ofExecution visit.below.stack.length ended with
      | produced value left =>
          simp only [proceed]
          cases visit.next element visit.start value <;> rfl
      | _ => rfl

end Visit

/-- The cases of an induction on runs. -/
structure RunCases (host : Host ν) (ofOperation : OperationClaim ν)
    (ofBody : BodyClaim ν) (ofVisit : VisitClaim ν) : Prop where
  /-- An operation is settled at once. -/
  settle : ∀ {fuel operation machine attempt},
    Plan.ofOperation machine operation = .settle attempt →
      ofOperation (fuel + 1) operation machine
        (.start operation machine :: attempt.history) attempt.settle
  /-- A native is called. -/
  consult : ∀ {fuel operation machine symbol},
    Plan.ofOperation machine operation = .consult symbol →
      ofOperation (fuel + 1) operation machine
        [.start operation machine, { event := .consults symbol, machine }]
        (host symbol machine)
  /-- Another operation is run. -/
  handOver : ∀ {fuel operation machine other below moments ended},
    Plan.ofOperation machine operation = .handOver other below →
      ofOperation fuel other below moments ended →
        ofOperation (fuel + 1) operation machine
          (.start operation machine :: moments) ended
  /-- A block finds too few values for its slots. -/
  starve : ∀ {fuel operation machine slots operations},
    Plan.ofOperation machine operation = .activate slots operations →
      (machine.notify .entering slots operations).takeTop? slots.length =
        none →
        ofOperation (fuel + 1) operation machine
          (.start operation machine ::
            (Attempt.starved
              (machine.notify .entering slots operations)).history)
          (.error,
            ((machine.notify .entering slots operations).raise
              { code := .insufficientArguments }).notify .leaving slots
              operations)
  /-- A block is run in a frame of its own. -/
  activate : ∀ {fuel operation machine slots operations values below moments
      ended},
    Plan.ofOperation machine operation = .activate slots operations →
      (machine.notify .entering slots operations).takeTop? slots.length =
        some (values, below) →
        ofBody fuel slots operations 0 (below.pushFrame (slots.zip values))
          moments ended →
          ofOperation (fuel + 1) operation machine
            (.start operation machine :: moments)
            (ended.1, ended.2.popFrame.notify .leaving slots operations)
  /-- The elements of a container are visited. -/
  goThrough : ∀ {fuel operation machine visit moments passage},
    Plan.ofOperation machine operation = .goThrough visit →
      ofVisit fuel visit moments passage →
        ofOperation (fuel + 1) operation machine
          (.start operation machine ::
            (moments ++ (passage.conclude visit.operands).history))
          (passage.conclude visit.operands).settle
  /-- A block has no more operations. -/
  finish : ∀ {fuel slots operations index machine},
    operations[index]? = none →
      ofBody (fuel + 1) slots operations index machine [] (.success, machine)
  /-- A block goes on behind an operation. -/
  resume : ∀ {fuel slots operations index machine operation moments ended
      later rest final},
    operations[index]? = some operation →
      ofOperation fuel operation
        (machine.notify (.executing index) slots operations) moments ended →
        ended.1.resumesAt index = some later →
          ofBody fuel slots operations later ended.2 rest final →
            ofBody (fuel + 1) slots operations index machine
              (moments ++ rest) final
  /-- A block ends with an operation. -/
  leave : ∀ {fuel slots operations index machine operation moments ended},
    operations[index]? = some operation →
      ofOperation fuel operation
        (machine.notify (.executing index) slots operations) moments ended →
        ended.1.resumesAt index = none →
          ofBody (fuel + 1) slots operations index machine moments
            (ended.1.ofLast, ended.2)
  /-- A visit has no more elements. -/
  complete : ∀ {fuel} {visit : Visit ν}, visit.elements = [] →
    ofVisit fuel visit [] (.completed visit.start visit.below)
  /-- A step halts the run. -/
  halt : ∀ {fuel} {visit : Visit ν} {element elements moments ended left},
    visit.elements = element :: elements →
      ofOperation fuel visit.callable (visit.step element) moments ended →
        visit.judge ended = .halted left →
          ofVisit fuel visit (moments.map Moment.withinStep) (.halted left)
  /-- A step does not leave one value in place of its inputs. -/
  mislead : ∀ {fuel} {visit : Visit ν} {element elements moments ended left},
    visit.elements = element :: elements →
      ofOperation fuel visit.callable (visit.step element) moments ended →
        visit.judge ended = .unexpected left →
          ofVisit fuel visit (moments.map Moment.withinStep)
            (.failed .unexpectedResult left)
  /-- What a step leaves is not accepted. -/
  reject : ∀ {fuel} {visit : Visit ν} {element elements moments ended value
      left code},
    visit.elements = element :: elements →
      ofOperation fuel visit.callable (visit.step element) moments ended →
        visit.judge ended = .produced value left →
          visit.next element visit.start value = .error code →
            ofVisit fuel visit (moments.map Moment.withinStep)
              (.failed code left)
  /-- What a step leaves is accepted, and the visit goes on. -/
  produce : ∀ {fuel} {visit : Visit ν} {element elements moments ended value
      left state rest passage},
    visit.elements = element :: elements →
      ofOperation fuel visit.callable (visit.step element) moments ended →
        visit.judge ended = .produced value left →
          visit.next element visit.start value = .ok state →
            ofVisit fuel (visit.goOn elements state left) rest passage →
              ofVisit fuel visit (moments.map Moment.withinStep ++ rest)
                passage

namespace RunCases

variable {host : Host ν} {ofOperation : OperationClaim ν}
  {ofBody : BodyClaim ν} {ofVisit : VisitClaim ν} {fuel : Nat}

/-- The induction on the elements of a visit. -/
theorem ofPass (cases : RunCases host ofOperation ofBody ofVisit)
    (runs : ∀ operation machine ended,
      execute host fuel operation machine = some ended →
        ofOperation fuel operation machine
          (history host fuel operation machine) ended)
    {visit : Visit ν} {passage : Passage ν}
    (passes : visit.pass (execute host fuel) = some passage) :
    ofVisit fuel visit
      (passHistory (execute host fuel) (history host fuel) visit.callable
        visit.inputs visit.next visit.elements visit.start visit.below)
      passage := by
  obtain ⟨callable, inputs, next, elements, state, below, operands⟩ := visit
  simp only [Visit.pass] at passes
  induction elements generalizing state below with
  | nil =>
      cases passes
      exact cases.complete rfl
  | cons element elements ih =>
      rw [passThrough] at passes
      rw [passHistory]
      cases stepped : runStep (execute host fuel) callable
          (inputs element state) below with
      | none => rw [stepped] at passes; cases passes
      | some step =>
          rw [stepped] at passes
          obtain ⟨ended, run, judged⟩ := Option.map_eq_some_iff.mp stepped
          have one := runs _ _ _ run
          cases step with
          | halted left =>
              cases passes
              rw [List.append_nil]
              exact cases.halt rfl one judged
          | unexpected left =>
              cases passes
              rw [List.append_nil]
              exact cases.mislead rfl one judged
          | produced value left =>
              dsimp only at passes ⊢
              cases following : next element state value with
              | error code =>
                  rw [following] at passes
                  cases passes
                  rw [List.append_nil]
                  exact cases.reject rfl one judged following
              | ok later =>
                  rw [following] at passes
                  exact cases.produce rfl one judged following
                    (ih later left passes)

theorem ofRunBlock (cases : RunCases host ofOperation ofBody ofVisit)
    (runs : ∀ slots operations index machine ended,
      executeBody host fuel slots operations index machine = some ended →
        ofBody fuel slots operations index machine
          (bodyHistory host fuel slots operations index machine) ended)
    {operation : Operation} {machine : Machine ν} {slots : List String}
    {operations : List Operation} {ended : Execution ν}
    (planned : Plan.ofOperation machine operation =
      .activate slots operations)
    (ends : runBlock (executeBody host fuel) slots operations machine =
      some ended) :
    ofOperation (fuel + 1) operation machine
      (.start operation machine ::
        activationHistory (bodyHistory host fuel) slots operations
          (machine.notify .entering slots operations)) ended := by
  obtain ⟨inner, activated, rfl⟩ := Option.map_eq_some_iff.mp ends
  rw [activateBlock] at activated
  rw [activationHistory]
  cases taken : (machine.notify .entering slots operations).takeTop?
      slots.length with
  | none =>
      rw [taken] at activated
      cases activated
      exact cases.starve planned taken
  | some found =>
      obtain ⟨values, below⟩ := found
      rw [taken] at activated
      obtain ⟨body, run, rfl⟩ := Option.map_eq_some_iff.mp activated
      exact cases.activate planned taken (runs _ _ _ _ _ run)

/-- The induction on the fuel of a run. -/
theorem ofRun (cases : RunCases host ofOperation ofBody ofVisit)
    (fuel : Nat) :
    (∀ operation machine ended,
      execute host fuel operation machine = some ended →
        ofOperation fuel operation machine
          (history host fuel operation machine) ended) ∧
    (∀ slots operations index machine ended,
      executeBody host fuel slots operations index machine = some ended →
        ofBody fuel slots operations index machine
          (bodyHistory host fuel slots operations index machine) ended) := by
  induction fuel with
  | zero => exact ⟨nofun, nofun⟩
  | succ fuel ih =>
      obtain ⟨runs, runsBody⟩ := ih
      constructor
      · intro operation machine ended ends
        rw [execute_succ] at ends
        obtain ⟨attempt, carried, rfl⟩ := Option.map_eq_some_iff.mp ends
        rw [history]
        cases planned : Plan.ofOperation machine operation with
        | settle attempt =>
            rw [planned] at carried
            cases carried
            exact cases.settle planned
        | consult symbol =>
            rw [planned] at carried
            cases carried
            exact cases.consult planned
        | handOver other below =>
            rw [planned] at carried
            obtain ⟨inner, run, rfl⟩ := Option.map_eq_some_iff.mp carried
            exact cases.handOver planned (runs _ _ _ run)
        | activate slots operations =>
            rw [planned] at carried
            obtain ⟨inner, run, rfl⟩ := Option.map_eq_some_iff.mp carried
            exact cases.ofRunBlock runsBody planned run
        | goThrough visit =>
            rw [planned] at carried
            obtain ⟨passage, passes, rfl⟩ :=
              Option.map_eq_some_iff.mp carried
            have visited := cases.goThrough planned (cases.ofPass runs passes)
            simpa only [Visit.history, passes] using visited
      · intro slots operations index machine ended ends
        rw [executeBody_succ] at ends
        rw [bodyHistory]
        cases found : operations[index]? with
        | none =>
            rw [found] at ends
            cases ends
            exact cases.finish found
        | some operation =>
            rw [found] at ends
            obtain ⟨inner, run, later⟩ := Option.bind_eq_some_iff.mp ends
            have one := runs _ _ _ run
            dsimp only
            rw [run]
            dsimp only
            cases resumed : inner.1.resumesAt index with
            | none =>
                rw [resumed] at later
                cases later
                rw [List.append_nil]
                exact cases.leave found one resumed
            | some next =>
                rw [resumed] at later
                exact cases.resume found one resumed
                  (runsBody _ _ _ _ _ later)

theorem ofExecute (cases : RunCases host ofOperation ofBody ofVisit)
    {operation : Operation} {machine : Machine ν} {ended : Execution ν}
    (ends : execute host fuel operation machine = some ended) :
    ofOperation fuel operation machine
      (history host fuel operation machine) ended :=
  (cases.ofRun fuel).1 operation machine ended ends

end RunCases

/-- What an execution comes to and what happens in it. -/
structure RunsTo (host : Host ν) (fuel : Nat) (operation : Operation)
    (machine : Machine ν) (moments : List (Moment ν))
    (ended : Execution ν) : Prop where
  ends : execute host fuel operation machine = some ended
  recorded : history host fuel operation machine = moments

/-- What the execution of a block from an index comes to and what happens in
it. -/
structure BodyRunsTo (host : Host ν) (fuel : Nat) (slots : List String)
    (operations : List Operation) (index : Nat) (machine : Machine ν)
    (moments : List (Moment ν)) (ended : Execution ν) : Prop where
  ends : executeBody host fuel slots operations index machine = some ended
  recorded : bodyHistory host fuel slots operations index machine = moments

/-- What a visit comes to and what happens in it. -/
structure VisitRunsTo (host : Host ν) (fuel : Nat) (visit : Visit ν)
    (moments : List (Moment ν)) (passage : Passage ν) : Prop where
  ends : visit.pass (execute host fuel) = some passage
  recorded : passHistory (execute host fuel) (history host fuel)
    visit.callable visit.inputs visit.next visit.elements visit.start
    visit.below = moments

/-- The history of a visit is that of its first step and that of the rest. -/
theorem passHistory_cons {run : Runner ν} {record : Recorder ν}
    {visit : Visit ν} {element : Value} {elements : List Value}
    {ended : Execution ν} (more : visit.elements = element :: elements)
    (ends : run visit.callable (visit.step element) = some ended) :
    passHistory run record visit.callable visit.inputs visit.next
        visit.elements visit.start visit.below =
      (record visit.callable (visit.step element)).map Moment.withinStep ++
      match visit.judge ended with
      | .produced value left =>
          match visit.next element visit.start value with
          | .ok later =>
              passHistory run record visit.callable visit.inputs visit.next
                elements later left
          | .error _ => []
      | _ => [] := by
  rw [more, passHistory, runStep]
  unfold Visit.step at ends ⊢
  rw [ends, Visit.judge, Option.map_some]
  cases Step.ofExecution visit.below.stack.length ended <;> rfl

/-- Runs are what the cases say of them: an induction may keep at hand that
its executions really take place. -/
theorem RunCases.executed (host : Host ν) :
    RunCases host (RunsTo host) (BodyRunsTo host) (VisitRunsTo host) where
  settle := by
    intro fuel operation machine attempt planned
    refine ⟨?_, ?_⟩
    · rw [execute_succ, planned]
      rfl
    · rw [history, planned]
  consult := by
    intro fuel operation machine symbol planned
    refine ⟨?_, ?_⟩
    · rw [execute_succ, planned]
      rfl
    · rw [history, planned]
  handOver := by
    intro fuel operation machine other below moments ended planned runs
    refine ⟨?_, ?_⟩
    · rw [execute_succ, planned, Plan.carryOut, runs.ends]
      rfl
    · rw [history, planned, ← runs.recorded]
  starve := by
    intro fuel operation machine slots operations planned taken
    refine ⟨?_, ?_⟩
    · rw [execute_succ, planned, Plan.carryOut, runBlock_of_starved taken]
      rfl
    · rw [history, planned]
      dsimp only
      rw [activationHistory, taken]
  activate := by
    intro fuel operation machine slots operations values below moments ended
      planned taken runs
    refine ⟨?_, ?_⟩
    · rw [execute_succ, planned, Plan.carryOut, runBlock_of_taken taken,
        runs.ends]
      rfl
    · rw [history, planned, ← runs.recorded]
      dsimp only
      rw [activationHistory, taken]
  goThrough := by
    intro fuel operation machine visit moments passage planned runs
    refine ⟨?_, ?_⟩
    · rw [execute_succ, planned, Plan.carryOut, runs.ends]
      rfl
    · rw [history, planned, ← runs.recorded]
      dsimp only
      rw [Visit.history, runs.ends]
  finish := by
    intro fuel slots operations index machine found
    refine ⟨?_, ?_⟩
    · rw [executeBody_succ, found]
    · rw [bodyHistory, found]
  resume := by
    intro fuel slots operations index machine operation moments ended later
      rest final found runs resumed runsLater
    refine ⟨?_, ?_⟩
    · rw [executeBody_succ, found]
      dsimp only
      rw [runs.ends, Option.bind_some, resumed]
      exact runsLater.ends
    · rw [bodyHistory, found]
      dsimp only
      rw [runs.ends, runs.recorded]
      dsimp only
      rw [resumed, ← runsLater.recorded]
  leave := by
    intro fuel slots operations index machine operation moments ended found
      runs resumed
    refine ⟨?_, ?_⟩
    · rw [executeBody_succ, found]
      dsimp only
      rw [runs.ends, Option.bind_some, resumed]
    · rw [bodyHistory, found]
      dsimp only
      rw [runs.ends, runs.recorded]
      dsimp only
      rw [resumed, List.append_nil]
  complete := by
    intro fuel visit done
    refine ⟨?_, ?_⟩
    · rw [Visit.pass, done, passThrough]
    · rw [done, passHistory]
  halt := by
    intro fuel visit element elements moments ended left more runs judged
    refine ⟨?_, ?_⟩
    · rw [Visit.pass_cons _ _ more, runs.ends, Option.bind_some, judged]
      rfl
    · rw [passHistory_cons more runs.ends, judged, runs.recorded,
        List.append_nil]
  mislead := by
    intro fuel visit element elements moments ended left more runs judged
    refine ⟨?_, ?_⟩
    · rw [Visit.pass_cons _ _ more, runs.ends, Option.bind_some, judged]
      rfl
    · rw [passHistory_cons more runs.ends, judged, runs.recorded,
        List.append_nil]
  reject := by
    intro fuel visit element elements moments ended value left code more runs
      judged refused
    refine ⟨?_, ?_⟩
    · rw [Visit.pass_cons _ _ more, runs.ends, Option.bind_some, judged,
        Visit.proceed, refused]
    · rw [passHistory_cons more runs.ends, judged, runs.recorded]
      dsimp only
      rw [refused, List.append_nil]
  produce := by
    intro fuel visit element elements moments ended value left state rest
      passage more runs judged accepted runsLater
    refine ⟨?_, ?_⟩
    · rw [Visit.pass_cons _ _ more, runs.ends, Option.bind_some, judged,
        Visit.proceed, accepted]
      exact runsLater.ends
    · rw [passHistory_cons more runs.ends, judged, runs.recorded]
      dsimp only
      rw [accepted, ← runsLater.recorded]
      rfl
end StackAssembly
