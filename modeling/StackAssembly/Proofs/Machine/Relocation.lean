import StackAssembly.Proofs.Machine.FrameKeeping
import StackAssembly.Proofs.Machine.Placement

/-!
# Runs in other surroundings

A run that starts on a machine in surroundings can be repeated in other
surroundings.  It comes to the same outcome and leaves the same machine, each
time in its own surroundings, as long as it does not notice what lies beneath
its values and around its frames.  The stack gives itself away when it is
emptied and when it is too short, and the frames do so where a run has none of
its own.
-/

namespace StackAssembly

variable {ν : Type}

/-- An execution that ends in surroundings. -/
def Execution.within (ended : Execution ν) (around : Surroundings) :
    Execution ν :=
  (ended.1, ended.2.within around)

/-- The judgement of a step is relative to what lies beneath. -/
def Step.within (around : Surroundings) : Step ν → Step ν
  | .produced value left => .produced value (left.within around)
  | .halted left => .halted (left.within around)
  | .unexpected left => .unexpected (left.within around)

/-- A passage that ends in surroundings. -/
def Passage.within (around : Surroundings) : Passage ν → Passage ν
  | .completed state left => .completed state (left.within around)
  | .halted left => .halted (left.within around)
  | .failed code left => .failed code (left.within around)

section Within

variable (around : Surroundings)

theorem Step.ofExecution_within (base : Nat) (ended : Execution ν) :
    Step.ofExecution (base + around.values.length) (ended.within around) =
      (Step.ofExecution base ended).within around := by
  obtain ⟨outcome, left⟩ := ended
  have shortened := left.truncate_within around base
  cases outcome with
  | success =>
      simp only [ofExecution, Execution.within, Machine.stack_within,
        List.length_append]
      by_cases grown : left.stack.length = base + 1
      · have held : left.stack ≠ [] := by
          intro none
          simp [none] at grown
        rw [if_pos grown, if_pos (by omega),
          Machine.pop?_within left around held]
        cases left.pop? <;> rfl
      · rw [if_neg grown, if_neg (by omega), shortened]
        rfl
  | halt => rfl
  | error | restartBlock | exitBlock | again =>
      simp only [ofExecution, Execution.within, shortened]
      rfl

theorem Passage.conclude_within (operands : List Value)
    (passage : Passage ν) :
    (passage.within around).conclude operands =
      (passage.conclude operands).within around := by
  cases passage <;> rfl

namespace Visit

theorem step_within (visit : Visit ν) (element : Value) :
    (visit.within around).step element =
      (visit.step element).within around :=
  Machine.pushAll_within visit.below around _

theorem judge_within (visit : Visit ν) (ended : Execution ν) :
    (visit.within around).judge (ended.within around) =
      (visit.judge ended).within around := by
  unfold judge within
  rw [← Step.ofExecution_within, Machine.stack_within, List.length_append]

end Visit
end Within

/-- Whether a native does in one place what it does in another. -/
def Host.Agrees (host : Host ν) (here there : Surroundings)
    (symbol : ν) : Prop :=
  ∀ core : Machine ν, core.Framed here → core.Framed there →
    ∃ ended : Execution ν,
      ended.2.frames.length = core.frames.length ∧
      host symbol (core.within here) = ended.within here ∧
      host symbol (core.within there) = ended.within there

/-- Whether something that happens in a run does not tell other surroundings
from empty ones. -/
def RunEvent.Moves (host : Host ν) (here there : Surroundings) :
    RunEvent ν → Prop
  | .begins operation =>
      there.values = [] ∨ operation ≠ .primitive .resetStack
  | .consults symbol => host.Agrees here there symbol
  | .raises code => there.values = [] ∨ code ≠ .insufficientArguments

/-- Whether a run from a machine in some surroundings is repeated in
others. -/
def Repeats (run : Machine ν → Option (Execution ν))
    (here there : Surroundings) (core : Machine ν)
    (ended : Execution ν) : Prop :=
  ∃ inner : Execution ν,
    inner.2.frames.length = core.frames.length ∧
    ended = inner.within here ∧
    run (core.within there) = some (inner.within there)

/-- Whether a visit from below some operands is repeated in other
surroundings. -/
def VisitRepeats (run : Runner ν) (here there : Surroundings)
    (core : Visit ν) (passage : Passage ν) : Prop :=
  ∃ inner : Passage ν,
    inner.machine.frames.length = core.below.frames.length ∧
    passage = inner.within here ∧
    (core.within there).pass run = some (inner.within there)

/-- Whether a machine has the innermost frame in both surroundings. -/
def Machine.FramedIn (core : Machine ν) (here there : Surroundings) : Prop :=
  core.Framed here ∧ core.Framed there

section FramedIn

variable {core left : Machine ν} {here there : Surroundings}

theorem Machine.FramedIn.ofLength (framed : core.FramedIn here there)
    (length : left.frames.length = core.frames.length) :
    left.FramedIn here there := by
  have same : left.frames ≠ [] ↔ core.frames ≠ [] := by
    rw [← List.length_pos_iff, ← List.length_pos_iff, length]
  unfold FramedIn Framed at framed ⊢
  rw [same]
  exact framed

theorem Machine.FramedIn.ofPushFrame (pairs : List (String × Value)) :
    (left.pushFrame pairs).FramedIn here there :=
  ⟨.inl (by simp), .inl (by simp)⟩

end FramedIn

section Relocation

variable {host : Host ν} {here there : Surroundings} {core : Machine ν}
  {operation : Operation}

/-- What an operation plans in two surroundings comes from the same plan. -/
theorem Plan.relocated (bare : here.values = []) {plan : Plan ν}
    (planned : Plan.ofOperation (core.within here) operation = plan)
    (other : ∀ slots operations, plan ≠ .activate slots operations)
    (framed : (∀ slots operations, operation ≠ .block slots operations) →
      core.FramedIn here there)
    (starts : (RunEvent.begins operation).Moves host here there) :
    core.FramedIn here there ∧
      ∃ inner : Plan ν, Plan.ofOperation core operation = inner ∧
        plan = inner.within here ∧
        (there.values = [] ∨ inner.Suffices →
          Plan.ofOperation (core.within there) operation =
            inner.within there) := by
  have apart : core.FramedIn here there := by
    refine framed fun slots operations block => other slots operations ?_
    rw [← planned, block]
    rfl
  refine ⟨apart, Plan.ofOperation core operation, rfl, ?_, fun enough => ?_⟩
  · rw [← planned]
    exact ofOperation_within operation apart.1 (.inl bare) (.inl bare)
  · exact ofOperation_within operation apart.2 starts enough

/-- A step of a visit comes to the same in two surroundings. -/
theorem Visit.relocated {visit : Visit ν} {fuel : Nat} {element : Value}
    {elements : List Value} {moments : List (Moment ν)}
    {ended : Execution ν} {step : Step ν}
    (more : (visit.within here).elements = element :: elements)
    (framed : visit.below.FramedIn here there)
    (runs : ∀ inside, (visit.within here).step element =
      inside.within here →
        ((∀ slots operations, visit.callable ≠ .block slots operations) →
          inside.FramedIn here there) →
        (∀ moment ∈ moments, moment.event.Moves host here there) →
        Repeats (execute host fuel visit.callable) here there inside ended)
    (moves : ∀ moment ∈ moments.map Moment.withinStep,
      moment.event.Moves host here there)
    (judged : (visit.within here).judge ended = step) :
    ∃ inner : Step ν,
      inner.machine.frames.length = visit.below.frames.length ∧
      step = inner.within here ∧
      (visit.within there).pass (execute host fuel) =
        (visit.within there).proceed (execute host fuel) element elements
          (inner.within there) := by
  have same : (visit.step element).frames.length =
      visit.below.frames.length := rfl
  obtain ⟨inner, length, rfl, run⟩ :=
    runs (visit.step element) (visit.step_within here element)
      (fun _ => framed.ofLength same)
      fun moment member =>
        moves moment.withinStep (List.mem_map_of_mem member)
  refine ⟨visit.judge inner, ?_, ?_, ?_⟩
  · rw [frames_of_judge rfl, length, same]
  · rw [← judged, judge_within]
  · rw [pass_cons _ (visit.within there) more, step_within]
    simp only [← judge_within]
    exact congrArg (Option.bind · _) run

/-- Every run that does not give other surroundings away is repeated in
them. -/
theorem repeated (host : Host ν) {here : Surroundings}
    (there : Surroundings) (bare : here.values = []) :
    RunCases host
      (fun fuel operation machine moments ended =>
        ∀ core, machine = core.within here →
          ((∀ slots operations, operation ≠ .block slots operations) →
            core.FramedIn here there) →
          (∀ moment ∈ moments, moment.event.Moves host here there) →
          Repeats (execute host fuel operation) here there core ended)
      (fun fuel slots operations index machine moments ended =>
        ∀ core, machine = core.within here → core.FramedIn here there →
          (∀ moment ∈ moments, moment.event.Moves host here there) →
          Repeats (executeBody host fuel slots operations index) here there
            core ended)
      (fun fuel visit moments passage =>
        ∀ core, visit = core.within here →
          core.below.FramedIn here there →
          (∀ moment ∈ moments, moment.event.Moves host here there) →
          VisitRepeats (execute host fuel) here there core passage) where
  settle := by
    rintro fuel operation machine attempt planned core rfl framed moves
    obtain ⟨starts, fails⟩ := List.forall_mem_cons.mp moves
    obtain ⟨apart, inner, alone, same, elsewhere⟩ :=
      Plan.relocated bare planned (by rintro _ _ ⟨⟩) framed starts
    cases inner with
    | settle inner =>
        cases same
        have enough : there.values = [] ∨ inner.Suffices := by
          cases inner with
          | finished outcome left => exact .inr trivial
          | faulted fault left => exact fails _ (List.mem_singleton_self _)
        have kept := Plan.keeps_ofOperation core operation
        rw [alone] at kept
        refine ⟨inner.settle, ?_, Attempt.settle_within here inner, ?_⟩
        · rw [Attempt.frames_settle]
          exact kept.frames.1
        · rw [execute_succ, elsewhere enough]
          exact congrArg some (Attempt.settle_within there inner)
    | _ => cases same
  consult := by
    rintro fuel operation machine symbol planned core rfl framed moves
    obtain ⟨starts, called⟩ := List.forall_mem_cons.mp moves
    obtain ⟨apart, inner, alone, same, elsewhere⟩ :=
      Plan.relocated bare planned (by rintro _ _ ⟨⟩) framed starts
    cases inner with
    | consult other =>
        cases same
        have agrees : host.Agrees here there symbol :=
          called _ (List.mem_singleton_self _)
        obtain ⟨inner, length, ended, endedThere⟩ :=
          agrees core apart.1 apart.2
        refine ⟨inner, length, ended, ?_⟩
        rw [execute_succ, elsewhere (.inr trivial)]
        exact congrArg some endedThere
    | _ => cases same
  handOver := by
    rintro fuel operation machine other below moments ended planned runs core
      rfl framed moves
    obtain ⟨starts, later⟩ := List.forall_mem_cons.mp moves
    obtain ⟨apart, inner, alone, same, elsewhere⟩ :=
      Plan.relocated bare planned (by rintro _ _ ⟨⟩) framed starts
    cases inner with
    | handOver other inside =>
        cases same
        have kept := Plan.keeps_ofOperation core operation
        rw [alone] at kept
        have length : inside.frames.length = core.frames.length :=
          congrArg List.length kept.1
        obtain ⟨inner, innerLength, ended, run⟩ :=
          runs inside rfl (fun _ => apart.ofLength length) later
        refine ⟨inner, innerLength.trans length, ended, ?_⟩
        rw [execute_succ, elsewhere (.inr trivial)]
        simp only [Plan.within, Plan.carryOut, run]
        rfl
    | _ => cases same
  starve := by
    rintro fuel operation machine slots operations planned taken core rfl -
      moves
    cases Plan.eq_block_of_activate planned
    obtain ⟨-, raises⟩ := List.forall_mem_cons.mp moves
    have empty : there.values = [] :=
      (raises _ (List.mem_singleton_self _)).resolve_right (by simp)
    rw [Machine.notify_within] at taken ⊢
    rw [Machine.takeTop?_within _ here (.inl bare),
      Option.map_eq_none_iff] at taken
    refine ⟨(.error, ((core.notify .entering slots operations).raise
        { code := .insufficientArguments }).notify .leaving slots
          operations), ?_, ?_, ?_⟩
    · simp
    · rw [Machine.raise_within, Machine.notify_within]
      rfl
    · rw [execute_block, runBlock_of_starved]
      · rw [Machine.notify_within, Machine.raise_within,
          Machine.notify_within]
        rfl
      · rw [Machine.notify_within, Machine.takeTop?_within _ there
          (.inl empty), taken]
        rfl
  activate := by
    rintro fuel operation machine slots operations values below moments ended
      planned taken runs core rfl - moves
    cases Plan.eq_block_of_activate planned
    obtain ⟨-, later⟩ := List.forall_mem_cons.mp moves
    rw [Machine.notify_within, Machine.takeTop?_within _ here (.inl bare)]
      at taken
    obtain ⟨⟨values, inside⟩, own, same⟩ := Option.map_eq_some_iff.mp taken
    cases same
    obtain ⟨inner, length, rfl, run⟩ :=
      runs (inside.pushFrame (slots.zip values)) rfl (.ofPushFrame _) later
    have opened : inner.2.frames ≠ [] := by
      intro none
      simp [none] at length
    have same := Machine.frames_of_takeTop? own
    rw [Machine.frames_notify] at same
    refine ⟨(inner.1, inner.2.popFrame.notify .leaving slots operations),
      ?_, ?_, ?_⟩
    · simp [length, same]
    · simp only [Execution.within, Machine.popFrame_within _ _ opened,
        Machine.notify_within]
    · rw [execute_block, @runBlock_of_taken _ _ _ _ _
        (inside.within there) values]
      · rw [Machine.pushFrame_within, run]
        simp only [Option.map_some, Execution.within,
          Machine.popFrame_within _ _ opened, Machine.notify_within]
      · rw [Machine.notify_within, Machine.takeTop?_within _ there
          (.inr (by simp [own])), own]
        rfl
  goThrough := by
    rintro fuel operation machine visit moments passage planned visits core
      rfl framed moves
    obtain ⟨starts, later⟩ := List.forall_mem_cons.mp moves
    obtain ⟨during, -⟩ := List.forall_mem_append.mp later
    obtain ⟨apart, inner, alone, same, elsewhere⟩ :=
      Plan.relocated bare planned (by rintro _ _ ⟨⟩) framed starts
    cases inner with
    | goThrough inside =>
        cases same
        have kept := Plan.keeps_ofOperation core operation
        rw [alone] at kept
        have length : inside.below.frames.length = core.frames.length :=
          congrArg List.length kept.1
        obtain ⟨inner, innerLength, rfl, run⟩ :=
          visits inside rfl (apart.ofLength length) during
        refine ⟨(inner.conclude inside.operands).settle, ?_, ?_, ?_⟩
        · simp [innerLength, length]
        · rw [Passage.conclude_within]
          exact Attempt.settle_within here _
        · rw [execute_succ, elsewhere (.inr trivial)]
          simp only [Plan.within, Plan.carryOut, run, Option.map_some]
          refine congrArg some ?_
          exact (congrArg Attempt.settle
            (Passage.conclude_within there _ _)).trans
              (Attempt.settle_within there _)
    | _ => cases same
  finish := by
    rintro fuel slots operations index machine found core rfl framed -
    refine ⟨(.success, core), rfl, rfl, ?_⟩
    rw [executeBody_succ, found]
    rfl
  resume := by
    rintro fuel slots operations index machine operation moments ended later
      rest final found runs resumed continues core rfl framed moves
    obtain ⟨first, second⟩ := List.forall_mem_append.mp moves
    rw [Machine.notify_within] at runs
    have same : (core.notify (.executing index) slots
        operations).frames.length = core.frames.length := by simp
    obtain ⟨inner, length, rfl, run⟩ :=
      runs _ rfl (fun _ => framed.ofLength same) first
    obtain ⟨last, lastLength, ended, runLast⟩ :=
      continues inner.2 rfl (framed.ofLength (length.trans same)) second
    refine ⟨last, lastLength.trans (length.trans same), ended, ?_⟩
    rw [executeBody_succ, found]
    simp only [Machine.notify_within, run, Option.bind_some]
    simp only [Execution.within] at resumed ⊢
    rw [resumed]
    exact runLast
  leave := by
    rintro fuel slots operations index machine operation moments ended found
      runs resumed core rfl framed moves
    rw [Machine.notify_within] at runs
    have same : (core.notify (.executing index) slots
        operations).frames.length = core.frames.length := by simp
    obtain ⟨inner, length, rfl, run⟩ :=
      runs _ rfl (fun _ => framed.ofLength same) moves
    refine ⟨(inner.1.ofLast, inner.2), length.trans same, rfl, ?_⟩
    rw [executeBody_succ, found]
    simp only [Machine.notify_within, run, Option.bind_some]
    simp only [Execution.within] at resumed ⊢
    rw [resumed]
  complete := by
    rintro fuel visit done core rfl framed -
    refine ⟨.completed core.start core.below, rfl, rfl, ?_⟩
    have none : core.elements = [] := done
    simp only [Visit.pass, Visit.within, none]
    rfl
  halt := by
    rintro fuel visit element elements moments ended left more runs judged
      core rfl framed moves
    obtain ⟨inner, length, same, passed⟩ :=
      Visit.relocated more framed runs moves judged
    cases inner with
    | halted left =>
        cases same
        exact ⟨.halted left, length, rfl, passed⟩
    | _ => cases same
  mislead := by
    rintro fuel visit element elements moments ended left more runs judged
      core rfl framed moves
    obtain ⟨inner, length, same, passed⟩ :=
      Visit.relocated more framed runs moves judged
    cases inner with
    | unexpected left =>
        cases same
        exact ⟨.failed .unexpectedResult left, length, rfl, passed⟩
    | _ => cases same
  reject := by
    rintro fuel visit element elements moments ended value left code more
      runs judged refused core rfl framed moves
    obtain ⟨inner, length, same, passed⟩ :=
      Visit.relocated more framed runs moves judged
    cases inner with
    | produced value left =>
        cases same
        refine ⟨.failed code left, length, rfl, ?_⟩
        rw [passed]
        simp only [Visit.within] at refused ⊢
        simp only [Step.within, Visit.proceed, refused]
        rfl
    | _ => cases same
  produce := by
    rintro fuel visit element elements moments ended value left state rest
      passage more runs judged accepted continues core rfl framed moves
    obtain ⟨first, second⟩ := List.forall_mem_append.mp moves
    obtain ⟨inner, length, same, passed⟩ :=
      Visit.relocated more framed runs first judged
    cases inner with
    | produced value left =>
        cases same
        obtain ⟨last, lastLength, ended, passedOn⟩ :=
          continues (core.goOn elements state left) rfl
            (framed.ofLength length) second
        refine ⟨last, lastLength.trans length, ended, ?_⟩
        rw [passed]
        simp only [Visit.within] at accepted ⊢
        simp only [Step.within, Visit.proceed, accepted]
        exact passedOn
    | _ => cases same

end Relocation

end StackAssembly
