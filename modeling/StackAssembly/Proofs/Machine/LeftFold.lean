import StackAssembly.Proofs.Machine.FailedCombinator
import StackAssembly.Proofs.Machine.Steps

/-!
# Left folds

The primitive `reduce` over a callable that acts like a function of an element
and a state folds the elements of a tuple or a table from the left.  A step
that keeps what lies beneath its inputs but does not leave one value in their
place ends the primitive with an error.  Then the seed is back in its place,
not the state that was reached.
-/

namespace StackAssembly

/-- The steps of a fold from a seed, each with the element and, on top of it,
the state in front of it. -/
def foldSteps (combine : Value → Value → Value) :
    List Value → Value → List (List Value × Value)
  | [], _ => []
  | element :: elements, state =>
      ([element, state], combine state element) ::
        foldSteps combine elements (combine state element)

/-- The steps of `reduce` lead to the left fold. -/
theorem leads_foldSteps (combine : Value → Value → Value)
    (elements : List Value) (seed : Value) :
    Leads (fun element state => [element, state])
      (fun _ _ value => .ok value) elements seed
      (foldSteps combine elements seed)
      (.ok (elements.foldl combine seed)) := by
  induction elements generalizing seed with
  | nil => exact .done
  | cons element elements ih => exact .accepted rfl (ih _)

/-- Tuples and tables are folded, other containers are not. -/
theorem reducible?_eq (container : Value) :
    reducible? container =
      if container.kind = .tuple ∨ container.kind = .table then
        container.elements?
      else none := by
  cases container with
  | operation body => cases body <;> rfl
  | _ => rfl

variable {ν : Type} {host : Host ν} {machine : Machine ν}
  {callable : Operation} {seed container : Value}
  {base elements : List Value}

/-- The visit that `reduce` asks for. -/
def reduceVisit (machine : Machine ν) (callable : Operation)
    (seed container : Value) (elements base : List Value) : Visit ν where
  callable := callable
  inputs := fun element state => [element, state]
  next := fun _ _ value => .ok value
  elements := elements
  start := seed
  below := machine.having base machine.output
  operands := [.operation callable, seed, container]

theorem plan_reduce
    (stack : machine.stack =
      .operation callable :: seed :: container :: base)
    (held : container.elements? = some elements)
    (folded : container.kind = .tuple ∨ container.kind = .table) :
    Plan.ofOperation machine (.primitive .reduce) =
      .goThrough
        (reduceVisit machine callable seed container elements base) := by
  have planned : Plan.ofOperation machine (.primitive .reduce) =
      .ofReduce machine := rfl
  have reducible : reducible? container = some elements := by
    rw [reducible?_eq, if_pos folded, held]
  simp only [planned, Plan.ofReduce, stack, Value.callable?, reducible]
  rfl

theorem plan_reduce_refused
    (stack : machine.stack =
      .operation callable :: seed :: container :: base)
    (unfolded : ¬ (container.kind = .tuple ∨ container.kind = .table)) :
    Plan.ofOperation machine (.primitive .reduce) =
      .settle (.refuse { machine with stack := base } .typeMismatch
        [.operation callable, seed, container]) := by
  have planned : Plan.ofOperation machine (.primitive .reduce) =
      .ofReduce machine := rfl
  have refused : reducible? container = none := by
    rw [reducible?_eq, if_neg unfolded]
  simp only [planned, Plan.ofReduce, stack, Value.callable?, refused]

/-- A step that keeps what lies beneath its inputs, but does not leave one
value in their place, is cut back to what lies beneath. -/
theorem Visit.judge_of_kept {visit : Visit ν} {outcome : Outcome}
    {ended : Machine ν} {above : List Value}
    (kept : ended.stack = above ++ visit.below.stack)
    (goesOn : outcome ≠ .halt)
    (otherwise : outcome = .success → above.length ≠ 1) :
    visit.judge (outcome, ended) =
      .unexpected { ended with stack := visit.below.stack } := by
  have cut : ended.truncate visit.below.stack.length =
      { ended with stack := visit.below.stack } := by
    simp [Machine.truncate, kept]
  cases outcome with
  | halt => exact absurd rfl goesOn
  | success =>
      have length : ended.stack.length ≠ visit.below.stack.length + 1 := by
        have := otherwise rfl
        rw [kept, List.length_append]
        omega
      rw [judge, Step.ofExecution]
      dsimp only
      rw [if_neg length, cut]
  | _ =>
      rw [← cut]
      rfl

section Fold

variable {combine : Value → Value → Value} {moments : List (Moment ν)}
  {shown : Output}

theorem StepsThrough.visitRuns_fold
    (through : StepsThrough host callable machine base
      (foldSteps combine elements seed) machine.output moments shown) :
    VisitRuns host (reduceVisit machine callable seed container elements base)
      moments
      (.completed (elements.foldl combine seed)
        (machine.having base shown)) :=
  @VisitRuns.of_leads _ _ _ _ _ _ _ _
    (reduceVisit machine callable seed container elements base) _
    (leads_foldSteps combine elements seed) through rfl

/-- A fold fails at the first step that does not leave one value. -/
theorem StepsThrough.visitRuns_strayed {before after : List Value}
    {element : Value} {outcome : Outcome} {ended : Machine ν}
    {above : List Value} {more : List (Moment ν)}
    (through : StepsThrough host callable machine base
      (foldSteps combine before seed) machine.output moments shown)
    (run : Runs host callable
      (machine.having (before.foldl combine seed :: element :: base) shown)
      more (outcome, ended))
    (kept : ended.stack = above ++ base) (goesOn : outcome ≠ .halt)
    (otherwise : outcome = .success → above.length ≠ 1) :
    VisitRuns host
      (reduceVisit machine callable seed container
        (before ++ element :: after) base)
      (moments ++ more.map Moment.withinStep)
      (.failed .unexpectedResult { ended with stack := base }) := by
  -- The elements in front lead to the state that the failing step is given.
  refine @VisitRuns.behind _ _ _ _ _ _ _ _
    (reduceVisit machine callable seed container (before ++ element :: after)
      base) _ (element :: after) _ _ _
    (leads_foldSteps combine before seed) rfl through rfl ?_
  exact .mislead rfl run (Visit.judge_of_kept kept goesOn otherwise)

end Fold

/-- Over a callable that acts like a function, `reduce` folds the elements of a
tuple or a table from the left.  A step that keeps what lies beneath its
inputs, but neither halts nor leaves one value in their place, ends it with an
error above the operands, the seed among them.  Other containers are
refused. -/
theorem reduce_folds_from_left {ν : Type} {host : Host ν}
    {machine : Machine ν} {callable : Operation} {seed container : Value}
    {base : List Value} {combine : Value → Value → Value}
    (stack : machine.stack =
      .operation callable :: seed :: container :: base) :
    (∀ elements, container.elements? = some elements →
      (container.kind = .tuple ∨ container.kind = .table) →
      ((∀ step ∈ foldSteps combine elements seed,
          Yields host callable machine step.1 step.2) →
        ∃ moments shown,
          StepsThrough host callable machine base
            (foldSteps combine elements seed) machine.output moments shown ∧
          Runs host (.primitive .reduce) machine
            (.start (.primitive .reduce) machine :: moments)
            (.success,
              machine.having (elements.foldl combine seed :: base) shown)) ∧
      ∀ before element after, elements = before ++ element :: after →
        (∀ step ∈ foldSteps combine before seed,
          Yields host callable machine step.1 step.2) →
        ∃ moments shown,
          StepsThrough host callable machine base
            (foldSteps combine before seed) machine.output moments shown ∧
          ∀ outcome ended above more,
            Runs host callable
              (machine.having
                (before.foldl combine seed :: element :: base) shown)
              more (outcome, ended) →
            ended.stack = above ++ base →
            outcome ≠ .halt →
            (outcome = .success → above.length ≠ 1) →
            let left := { ended with
              stack := .error .unexpectedResult ::
                .operation callable :: seed :: container :: base }
            Runs host (.primitive .reduce) machine
              (.start (.primitive .reduce) machine ::
                (moments ++ more.map Moment.withinStep ++
                  [{ event := .raises .unexpectedResult, machine := left }]))
              (.error, left)) ∧
    (¬ (container.kind = .tuple ∨ container.kind = .table) →
      let left := machine.push (.error .typeMismatch)
      Runs host (.primitive .reduce) machine
        [.start (.primitive .reduce) machine,
          { event := .raises .typeMismatch, machine := left }]
        (.error, left)) := by
  refine ⟨fun elements held folded => ?_, fun unfolded => ?_⟩
  · have planned := plan_reduce stack held folded
    constructor
    · intro yields
      obtain ⟨moments, shown, through⟩ :=
        StepsThrough.exists_of_yields yields base machine.output
      have ran := Runs.of_visit through.visitRuns_fold planned
      refine ⟨moments, shown, through, ?_⟩
      rw [← List.append_nil moments]
      exact ran
    · rintro before element after rfl yields
      obtain ⟨moments, shown, through⟩ :=
        StepsThrough.exists_of_yields yields base machine.output
      refine ⟨moments, shown, through, ?_⟩
      intro outcome ended above more run kept goesOn otherwise
      exact Runs.of_visit
        (through.visitRuns_strayed run kept goesOn otherwise) planned
  · have ran := @Runs.of_settle _ host _ _ _
      (plan_reduce_refused stack unfolded)
    rw [Attempt.settle_refuse [_, seed, container] stack,
      Attempt.history_refuse [_, seed, container] stack] at ran
    exact ran

/-- What pops the state folds to the last entry of a table.  A difference with
a truth value fails in the second step, and the seed is back.  A set is not
folded. -/
theorem reduce_to_last_entry :
    let host : Host Empty := nofun
    let pops : Value := .operation (.primitive .pop)
    let difference : Value := .operation (.primitive .sub)
    let table : Value := .table [(.number 1, .string "a"),
      (.number 2, .string "b")]
    let mixed : Value := .tuple [.number 5, .boolean true]
    let toLast : Machine Empty :=
      { stack := [pops, .empty, table, .number 42] }
    let overMixed : Machine Empty :=
      { stack := [difference, .number 20, mixed, .number 42] }
    let overSet : Machine Empty := { stack := [pops, .empty, .set []] }
    (∃ moments shown,
      Runs host (.primitive .reduce) toLast moments
        (.success, toLast.having
          [.pair (.number 2) (.string "b"), .number 42] shown)) ∧
    (∃ moments left,
      Runs host (.primitive .reduce) overMixed moments (.error, left) ∧
      left.stack = .error .unexpectedResult :: overMixed.stack) ∧
    ∃ moments,
      Runs host (.primitive .reduce) overSet moments
        (.error, overSet.push (.error .typeMismatch)) := by
  intro host pops difference table mixed toLast overMixed overSet
  have popped : ∀ element state,
      Yields host (.primitive .pop) toLast [element, state] element :=
    fun element state stack output => ⟨_, output, 1, rfl, rfl⟩
  have subtracted : Yields host (.primitive .sub) overMixed
      [.number 5, .number 20] (.number 15) :=
    fun stack output => ⟨_, output, 1, rfl, rfl⟩
  refine ⟨?_, ?_, ?_⟩
  · obtain ⟨moments, shown, -, ran⟩ :=
      ((@reduce_folds_from_left Empty host toLast _ _ _ _
        (fun _ element => element) rfl).1 _ rfl (.inr rfl)).1
        (List.forall_mem_cons.mpr ⟨popped _ _,
          List.forall_mem_cons.mpr ⟨popped _ _, nofun⟩⟩)
    exact ⟨_, shown, ran⟩
  · obtain ⟨moments, shown, -, strays⟩ :=
      ((@reduce_folds_from_left Empty host overMixed _ _ _ _
        (fun _ _ => .number 15) rfl).1 _ rfl (.inl rfl)).2
        [.number 5] (.boolean true) [] rfl
        (List.forall_mem_singleton.mpr subtracted)
    have ran := strays .error
      (overMixed.having [.error .typeMismatch, .number 15, .boolean true,
        .number 42] shown)
      [.error .typeMismatch, .number 15, .boolean true] _
      ⟨1, rfl, rfl⟩ rfl nofun nofun
    exact ⟨_, _, ran, rfl⟩
  · exact ⟨_, (@reduce_folds_from_left Empty host overSet _ _ _ _
      (fun state _ => state) rfl).2 (by decide)⟩

end StackAssembly
