import StackAssembly.Proofs.Machine.FrameKeeping

/-!
# What a listener hears

A listener hears of every activation of a block when it is entered, when one
of its operations is about to be executed, and when it is left.  The
notifications of a run follow a grammar.  Activations are announced in the
order in which blocks begin, each as a bracket around its turns.  The turns of
an activation start with the first operation, and the outcome of each
operation tells which one has the next turn, if any.  Inside a turn only the
execution of its operation is announced.
-/

namespace StackAssembly

variable {ν : Type}

/-- What a listener to a machine hears of an event. -/
def Machine.notice (machine : Machine ν) (event : BlockEvent)
    (slots : List String) (operations : List Operation) : Notification where
  event := event
  slots := slots
  operations := operations
  stackLength := machine.stack.length
  frameCount := machine.frames.length

theorem Machine.trace_notify {machine : Machine ν}
    {earlier : List Notification} (listener : machine.trace = some earlier)
    (event : BlockEvent) (slots : List String)
    (operations : List Operation) :
    (machine.notify event slots operations).trace =
      some (machine.notice event slots operations :: earlier) := by
  simp only [notify, listener]
  rfl

/-- Whether a moment is not announced: no block begins and no native is
called. -/
def Moment.quiet (moment : Moment ν) : Bool :=
  match moment.event with
  | .begins (.block _ _) | .consults _ => false
  | _ => true

/-- The parts of what a listener hears. -/
inductive Phrase (ν : Type) where
  /-- What is heard while the given moments pass. -/
  | sequence (moments : List (Moment ν))
  /-- What is heard in an activated block from the turn of an index on, while
  the given moments pass. -/
  | turns (slots : List String) (operations : List Operation) (index : Nat)
      (machine : Machine ν) (moments : List (Moment ν)) (ended : Execution ν)

/-- The grammar of notifications: whether a listener hears a word for a
phrase. -/
inductive Announced (host : Host ν) : Phrase ν → List Notification → Prop
  | nothing : Announced host (.sequence []) []
  | append {moments rest : List (Moment ν)} {word later : List Notification} :
      Announced host (.sequence moments) word →
      Announced host (.sequence rest) later →
      Announced host (.sequence (moments ++ rest)) (word ++ later)
  | quiet {moment : Moment ν} : moment.quiet →
      Announced host (.sequence [moment]) []
  /-- A step of a combinator is heard like any execution. -/
  | withinStep {moments : List (Moment ν)} {word : List Notification} :
      Announced host (.sequence moments) word →
      Announced host (.sequence (moments.map Moment.withinStep)) word
  /-- What a native executes is heard like any execution. -/
  | consulted {symbol : ν} {machine : Machine ν} {others : List (Moment ν)}
      {word : List Notification} :
      Announced host (.sequence others) word →
      Announced host
        (.sequence [{ event := .consults symbol, machine }]) word
  /-- A block that finds too few values is entered and left. -/
  | starved {slots : List String} {operations : List Operation}
      {machine entered : Machine ν} :
      machine.notify .entering slots operations = entered →
      entered.takeTop? slots.length = none →
      Announced host
        (.sequence (.start (.block slots operations) machine ::
          (Attempt.starved entered).history))
        [machine.notice .entering slots operations,
          (entered.raise { code := .insufficientArguments }).notice .leaving
            slots operations]
  /-- Between entering and leaving a block, its turns are heard, from that of
  its first operation on. -/
  | activated {slots : List String} {operations : List Operation}
      {machine below : Machine ν} {values : List Value}
      {moments : List (Moment ν)} {ended : Execution ν}
      {word : List Notification} :
      (machine.notify .entering slots operations).takeTop? slots.length =
        some (values, below) →
      Announced host
        (.turns slots operations 0 (below.pushFrame (slots.zip values))
          moments ended) word →
      Announced host
        (.sequence (.start (.block slots operations) machine :: moments))
        (machine.notice .entering slots operations ::
          (word ++ [ended.2.popFrame.notice .leaving slots operations]))
  /-- Behind the last operation there is no turn. -/
  | finish {slots : List String} {operations : List Operation} {index : Nat}
      {machine : Machine ν} :
      operations[index]? = none →
      Announced host
        (.turns slots operations index machine [] (.success, machine)) []
  /-- Behind a turn, the outcome of its operation can give another one the
  next turn. -/
  | resume {fuel : Nat} {slots : List String} {operations : List Operation}
      {index later : Nat} {operation : Operation} {machine begun : Machine ν}
      {ended final : Execution ν} {rest : List (Moment ν)}
      {inner word : List Notification} :
      operations[index]? = some operation →
      machine.notify (.executing index) slots operations = begun →
      execute host fuel operation begun = some ended →
      Announced host (.sequence (history host fuel operation begun)) inner →
      ended.1.resumesAt index = some later →
      Announced host (.turns slots operations later ended.2 rest final)
        word →
      Announced host
        (.turns slots operations index machine
          (history host fuel operation begun ++ rest) final)
        (machine.notice (.executing index) slots operations ::
          (inner ++ word))
  /-- Behind a turn, the outcome of its operation can end the activation. -/
  | leave {fuel : Nat} {slots : List String} {operations : List Operation}
      {index : Nat} {operation : Operation} {machine begun : Machine ν}
      {ended : Execution ν} {inner : List Notification} :
      operations[index]? = some operation →
      machine.notify (.executing index) slots operations = begun →
      execute host fuel operation begun = some ended →
      Announced host (.sequence (history host fuel operation begun)) inner →
      ended.1.resumesAt index = none →
      Announced host
        (.turns slots operations index machine
          (history host fuel operation begun) (ended.1.ofLast, ended.2))
        (machine.notice (.executing index) slots operations :: inner)

/-- A block, as a listener tells it from others. -/
abbrev BlockText := List String × List Operation

/-- The block that a notification is about. -/
def Notification.block (notification : Notification) : BlockText :=
  (notification.slots, notification.operations)

/-- Whether a word closes the given open activations, the innermost first, and
all that it opens itself.  Only the innermost one is left, and only one of its
operations is executed. -/
def Closes : List BlockText → List Notification → Prop
  | opened, [] => opened = []
  | opened, notification :: word =>
      match notification.event with
      | .entering => Closes (notification.block :: opened) word
      | .executing index =>
          opened.head? = some notification.block ∧
            index < notification.operations.length ∧ Closes opened word
      | .leaving =>
          opened.head? = some notification.block ∧ Closes opened.tail word

/-- The activation in which a phrase is heard. -/
def Phrase.around : Phrase ν → List BlockText
  | .sequence _ => []
  | .turns slots operations _ _ _ _ => [(slots, operations)]

/-- What is announced leaves open what was open before. -/
theorem Announced.closes {host : Host ν} {phrase : Phrase ν}
    {word : List Notification} (announced : Announced host phrase word)
    {opened : List BlockText} {rest : List Notification}
    (closes : Closes (phrase.around ++ opened) rest) :
    Closes (phrase.around ++ opened) (word ++ rest) := by
  induction announced generalizing opened rest with
  | nothing => exact closes
  | append _ _ ih ihLater =>
      rw [List.append_assoc]
      exact ih (ihLater closes)
  | quiet => exact closes
  | withinStep _ ih => exact ih closes
  | consulted _ ih => exact ih closes
  | starved => exact ⟨rfl, closes⟩
  | @activated slots operations machine below values moments ended word _ _
      ih =>
      -- The turns leave the activation open, and the last bracket closes it.
      rw [List.cons_append, List.append_assoc]
      have left : Closes ((slots, operations) :: opened)
          (ended.2.popFrame.notice .leaving slots operations :: rest) :=
        ⟨rfl, closes⟩
      exact ih left
  | finish => exact closes
  | resume found _ _ _ _ _ ih ihLater =>
      rw [List.cons_append, List.append_assoc]
      have inside := (List.getElem?_eq_some_iff.mp found).1
      exact ⟨rfl, inside, @ih (_ :: opened) _ (ihLater closes)⟩
  | leave found _ _ _ _ ih =>
      have inside := (List.getElem?_eq_some_iff.mp found).1
      exact ⟨rfl, inside, @ih (_ :: opened) _ closes⟩

/-- Whether a listener hears a phrase, and nothing else, from one machine to
another. -/
def Announces (host : Host ν) (phrase : Phrase ν) (machine left : Machine ν) :
    Prop :=
  ∀ earlier, machine.trace = some earlier →
    ∃ word, left.trace = some (word.reverse ++ earlier) ∧
      Announced host phrase word

namespace Announces

variable {host : Host ν} {moments rest : List (Moment ν)}
  {machine middle left other : Machine ν}

theorem append (one : Announces host (.sequence moments) machine middle)
    (two : Announces host (.sequence rest) middle left) :
    Announces host (.sequence (moments ++ rest)) machine left := by
  intro earlier listener
  obtain ⟨word, heard, announced⟩ := one earlier listener
  obtain ⟨more, later, announcedLater⟩ := two _ heard
  refine ⟨word ++ more, ?_, .append announced announcedLater⟩
  rw [later, List.reverse_append, List.append_assoc]

theorem ofTrace {phrase : Phrase ν}
    (announces : Announces host phrase machine left)
    (before : other.trace = machine.trace) :
    Announces host phrase other left :=
  fun earlier listener => announces earlier (before ▸ listener)

theorem toTrace {phrase : Phrase ν}
    (announces : Announces host phrase machine left)
    (behind : other.trace = left.trace) :
    Announces host phrase machine other := by
  unfold Announces
  rw [behind]
  exact announces

theorem withinStep (announces : Announces host (.sequence moments) machine
    left) :
    Announces host (.sequence (moments.map Moment.withinStep)) machine
      left := by
  intro earlier listener
  obtain ⟨word, heard, announced⟩ := announces earlier listener
  exact ⟨word, heard, .withinStep announced⟩

/-- Nothing is heard of quiet moments. -/
theorem ofQuiet (quiet : ∀ moment ∈ moments, moment.quiet = true)
    (same : left.trace = machine.trace) :
    Announces host (.sequence moments) machine left := by
  intro earlier listener
  refine ⟨[], same.trans listener, ?_⟩
  clear same
  induction moments with
  | nil => exact .nothing
  | cons moment moments ih =>
      obtain ⟨first, others⟩ := List.forall_mem_cons.mp quiet
      exact .append (.quiet first) (ih others)

/-- Nothing is heard of the beginning of an operation other than a block. -/
theorem start {operation : Operation}
    (other : ∀ slots operations, Plan.ofOperation machine operation ≠
      .activate slots operations)
    (announces : Announces host (.sequence moments) machine left) :
    Announces host (.sequence (.start operation machine :: moments)) machine
      left := by
  have quiet : (Moment.start operation machine).quiet = true := by
    cases operation with
    | block slots operations => exact absurd rfl (other slots operations)
    | _ => rfl
  have begins : Announces host (.sequence [.start operation machine])
      machine machine := ofQuiet (by simpa using quiet) rfl
  exact begins.append announces

end Announces

theorem Attempt.quiet_history (attempt : Attempt ν) :
    ∀ moment ∈ attempt.history, moment.quiet = true := by
  intro moment member
  cases attempt with
  | finished outcome left => cases member
  | faulted fault left =>
      rw [List.mem_singleton.mp member]
      rfl

/-- Whether a native that is called at a moment is heard only through the
operations that it executes. -/
def Moment.HeardByExecuting (host : Host ν) (moment : Moment ν) : Prop :=
  ∀ symbol, moment.event = .consults symbol →
    ∃ others, Announces host (.sequence others) moment.machine
      (host symbol moment.machine).2

/-- What a listener hears of a run, if its natives are heard only through the
operations that they execute. -/
def Follows (host : Host ν) (phrase : Phrase ν) (moments : List (Moment ν))
    (machine left : Machine ν) : Prop :=
  (∀ moment ∈ moments, moment.HeardByExecuting host) →
    Announces host phrase machine left

/-- A step of a visit is heard as the execution of its callable. -/
theorem Follows.ofStep {host : Host ν} {visit : Visit ν} {element : Value}
    {moments : List (Moment ν)} {ended : Execution ν} {step : Step ν}
    (follows : Follows host (.sequence moments) moments (visit.step element)
      ended.2)
    (judged : visit.judge ended = step) :
    Follows host (.sequence (moments.map Moment.withinStep))
      (moments.map Moment.withinStep) visit.below step.machine := by
  intro natives
  have announces := follows fun moment member =>
    natives moment.withinStep (List.mem_map_of_mem member)
  have below : visit.below.trace = (visit.step element).trace := rfl
  exact (announces.ofTrace below).withinStep.toTrace
    (Visit.trace_of_judge judged)

/-- Every run is heard as the grammar says. -/
theorem runsAnnounced (host : Host ν) :
    RunCases host
      (fun fuel operation machine moments ended =>
        RunsTo host fuel operation machine moments ended ∧
          Follows host (.sequence moments) moments machine ended.2)
      (fun fuel slots operations index machine moments ended =>
        BodyRunsTo host fuel slots operations index machine moments ended ∧
          Follows host
            (.turns slots operations index machine moments ended) moments
            machine ended.2)
      (fun fuel visit moments passage =>
        VisitRunsTo host fuel visit moments passage ∧
          Follows host (.sequence moments) moments visit.below
            passage.machine) where
  settle := by
    intro fuel operation machine attempt planned
    refine ⟨(RunCases.executed host).settle planned, fun natives => ?_⟩
    have kept := Plan.keeps_ofOperation machine operation
    rw [planned] at kept
    refine .start (by simp [planned]) (.ofQuiet attempt.quiet_history ?_)
    rw [Attempt.trace_settle]
    exact kept.trace
  consult := by
    intro fuel operation machine symbol planned
    refine ⟨(RunCases.executed host).consult planned, fun natives => ?_⟩
    refine .start (by simp [planned]) fun earlier listener => ?_
    obtain ⟨others, announces⟩ := natives _
      (List.mem_cons_of_mem _ (List.mem_singleton_self _)) symbol rfl
    obtain ⟨word, heard, announced⟩ := announces earlier listener
    exact ⟨word, heard, .consulted announced⟩
  handOver := by
    intro fuel operation machine other below moments ended planned run
    refine ⟨(RunCases.executed host).handOver planned run.1,
      fun natives => ?_⟩
    have same := Plan.keeps_ofOperation machine operation
    rw [planned] at same
    refine .start (by simp [planned]) ?_
    exact (run.2 (List.forall_mem_cons.mp natives).2).ofTrace same.2.symm
  starve := by
    intro fuel operation machine slots operations planned taken
    refine ⟨(RunCases.executed host).starve planned taken, ?_⟩
    intro natives earlier listener
    obtain rfl := Plan.eq_block_of_activate planned
    have entered := Machine.trace_notify listener .entering slots operations
    have raised : ((machine.notify .entering slots operations).raise
        { code := .insufficientArguments }).trace =
        some (machine.notice .entering slots operations :: earlier) := entered
    refine ⟨_, ?_, .starved rfl taken⟩
    exact Machine.trace_notify raised .leaving slots operations
  activate := by
    intro fuel operation machine slots operations values below moments ended
      planned taken run
    refine ⟨(RunCases.executed host).activate planned taken run.1, ?_⟩
    intro natives earlier listener
    obtain rfl := Plan.eq_block_of_activate planned
    have entered := Machine.trace_notify listener .entering slots operations
    have inside : (below.pushFrame (slots.zip values)).trace =
        some (machine.notice .entering slots operations :: earlier) := by
      rw [← entered, Machine.eq_of_takeTop? taken]
      rfl
    obtain ⟨word, heard, announced⟩ :=
      run.2 (List.forall_mem_cons.mp natives).2 _ inside
    have closed : ended.2.popFrame.trace = ended.2.trace := rfl
    refine ⟨_, ?_, .activated taken announced⟩
    rw [Machine.trace_notify (closed.trans heard)]
    simp
  goThrough := by
    intro fuel operation machine visit moments passage planned run
    refine ⟨(RunCases.executed host).goThrough planned run.1,
      fun natives => ?_⟩
    have same := Plan.keeps_ofOperation machine operation
    rw [planned] at same
    obtain ⟨-, inner⟩ := List.forall_mem_cons.mp natives
    have visited := (run.2 (List.forall_mem_append.mp inner).1).ofTrace
      same.2.symm
    refine .start (by simp [planned]) (visited.append ?_)
    exact .ofQuiet (Attempt.quiet_history _) (by simp)
  finish := by
    intro fuel slots operations index machine found
    refine ⟨(RunCases.executed host).finish found, ?_⟩
    intro natives earlier listener
    exact ⟨[], listener, .finish found⟩
  resume := by
    intro fuel slots operations index machine operation moments ended later
      rest final found run resumed runLater
    refine ⟨(RunCases.executed host).resume found run.1 resumed runLater.1,
      ?_⟩
    intro natives earlier listener
    obtain ⟨here, behind⟩ := List.forall_mem_append.mp natives
    obtain ⟨⟨ends, rfl⟩, follows⟩ := run
    obtain ⟨inner, heard, announced⟩ := follows here _
      (Machine.trace_notify listener (.executing index) slots operations)
    -- The next turn starts from what the listener has heard so far.
    obtain ⟨word, heardLater, announcedLater⟩ := runLater.2 behind _ heard
    refine ⟨_, ?_, .resume found rfl ends announced resumed announcedLater⟩
    rw [heardLater]
    simp
  leave := by
    intro fuel slots operations index machine operation moments ended found
      run resumed
    refine ⟨(RunCases.executed host).leave found run.1 resumed, ?_⟩
    intro natives earlier listener
    obtain ⟨⟨ends, rfl⟩, follows⟩ := run
    obtain ⟨inner, heard, announced⟩ := follows natives _
      (Machine.trace_notify listener (.executing index) slots operations)
    refine ⟨_, ?_, .leave found rfl ends announced resumed⟩
    rw [heard]
    simp
  complete := by
    intro fuel visit done
    exact ⟨(RunCases.executed host).complete done,
      fun natives => .ofQuiet nofun rfl⟩
  halt := by
    intro fuel visit element elements moments ended left more run judged
    exact ⟨(RunCases.executed host).halt more run.1 judged,
      run.2.ofStep judged⟩
  mislead := by
    intro fuel visit element elements moments ended left more run judged
    exact ⟨(RunCases.executed host).mislead more run.1 judged,
      run.2.ofStep judged⟩
  reject := by
    intro fuel visit element elements moments ended value left code more run
      judged refused
    exact ⟨(RunCases.executed host).reject more run.1 judged refused,
      run.2.ofStep judged⟩
  produce := by
    intro fuel visit element elements moments ended value left state rest
      passage more run judged accepted runLater
    refine ⟨(RunCases.executed host).produce more run.1 judged accepted
      runLater.1, fun natives => ?_⟩
    obtain ⟨here, behind⟩ := List.forall_mem_append.mp natives
    exact (run.2.ofStep judged here).append (runLater.2 behind)

/-- Whether an outcome is one that blocks may come to. -/
def Outcome.EndsBlock (outcome : Outcome) : Prop :=
  outcome = .success ∨ outcome = .error ∨ outcome = .halt

theorem Outcome.endsBlock_ofLast {outcome : Outcome} {index : Nat}
    (last : outcome.resumesAt index = none) : outcome.ofLast.EndsBlock := by
  cases outcome <;> simp [resumesAt, ofLast, EndsBlock] at last ⊢

section BlockOutcome

variable {host : Host ν} {fuel : Nat} {slots : List String}
  {operations : List Operation} {machine : Machine ν} {ended : Execution ν}

theorem endsBlock_of_executeBody {index : Nat}
    (ends : executeBody host fuel slots operations index machine =
      some ended) : ended.1.EndsBlock := by
  induction fuel generalizing index machine with
  | zero => cases ends
  | succ fuel ih =>
      rw [executeBody_succ] at ends
      split at ends
      · cases ends
        exact .inl rfl
      · obtain ⟨inner, -, behind⟩ := Option.bind_eq_some_iff.mp ends
        split at behind
        · exact ih behind
        · next last =>
            cases behind
            exact Outcome.endsBlock_ofLast last

/-- Neither a restart nor an exit gets out of a block. -/
theorem endsBlock_of_execute_block
    (ends : execute host fuel (.block slots operations) machine =
      some ended) : ended.1.EndsBlock := by
  cases fuel with
  | zero => cases ends
  | succ fuel =>
      rw [execute_block] at ends
      cases taken : (machine.notify .entering slots operations).takeTop?
          slots.length with
      | none =>
          rw [runBlock_of_starved taken] at ends
          cases ends
          exact .inr (.inl rfl)
      | some found =>
          rw [runBlock_of_taken taken] at ends
          obtain ⟨inner, run, rfl⟩ := Option.map_eq_some_iff.mp ends
          have inside := endsBlock_of_executeBody run
          exact inside

end BlockOutcome

/-- What a listener hears of a run is a word of the grammar for its history,
in which every activation that is entered is left again and only operations of
the innermost one are executed.  A block ends in success, with an error or
with a halt. -/
theorem notifications_bracket_activations {host : Host ν} {fuel : Nat}
    {operation : Operation} {machine : Machine ν} {ended : Execution ν}
    {earlier : List Notification}
    (natives : ∀ moment ∈ history host fuel operation machine,
      moment.HeardByExecuting host)
    (listener : machine.trace = some earlier)
    (ends : execute host fuel operation machine = some ended) :
    (∃ word, ended.2.trace = some (word.reverse ++ earlier) ∧
      Closes [] word ∧
      Announced host (.sequence (history host fuel operation machine))
        word) ∧
    ∀ slots operations, operation = .block slots operations →
      ended.1 = .success ∨ ended.1 = .error ∨ ended.1 = .halt := by
  constructor
  · obtain ⟨word, heard, announced⟩ :=
      ((runsAnnounced host).ofExecute ends).2 natives earlier listener
    refine ⟨word, heard, ?_, announced⟩
    have nothing : Closes [] [] := rfl
    have closes : Closes [] (word ++ []) := announced.closes nothing
    rwa [List.append_nil] at closes
  · rintro slots operations rfl
    exact endsBlock_of_execute_block ends

/-- A block that restarts until it finds `true`. -/
def untilTrue : Operation :=
  .block [] [.ifTrue (.primitive .exit), .primitive .restart]

/-- The first operation of the block has a second turn behind the restart, and
the exit ends the activation. -/
theorem untilTrue_heard :
    let machine : Machine Empty :=
      { stack := [.boolean false, .boolean true], trace := some [] }
    ∃ left word,
      execute nofun 8 untilTrue machine = some (.success, left) ∧
      left.trace = some word.reverse ∧
      word.map Notification.event =
        [.entering, .executing 0, .executing 1, .executing 0, .leaving] ∧
      Closes [] word ∧
      Announced nofun (.sequence (history nofun 8 untilTrue machine))
        word := by
  intro machine
  have natives : ∀ moment ∈ history nofun 8 untilTrue machine,
      moment.HeardByExecuting nofun := fun _ _ symbol => symbol.elim
  obtain ⟨left, ends, events⟩ : ∃ left,
      execute nofun 8 untilTrue machine = some (.success, left) ∧
      left.trace.map (List.map Notification.event) =
        some [.leaving, .executing 0, .executing 1, .executing 0,
          .entering] := ⟨_, rfl, rfl⟩
  obtain ⟨⟨word, heard, closes, announced⟩, -⟩ :=
    notifications_bracket_activations natives rfl ends
  rw [List.append_nil] at heard
  refine ⟨left, word, ends, heard, ?_, closes, announced⟩
  rw [heard] at events
  have reversed := Option.some_inj.mp events
  rw [List.map_reverse] at reversed
  rw [← List.reverse_reverse (word.map _), reversed]
  rfl

end StackAssembly
