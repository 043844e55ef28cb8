import StackAssembly.Proofs.Machine.RunInduction

/-!
# Errors and halts are final

A halt ends a run wherever it is executed: in blocks, in called values and in
the steps of combinators.  A fault ends a run if it is raised outside all
steps, since a combinator makes a failure of its own out of one in a step.
Nothing happens behind such a moment, and whatever stands around it passes the
outcome on and leaves the stack and the store alone.  Faults leave an error on
the stack, so a run that fails has one on top.
-/

namespace StackAssembly

variable {ν : Type}

/-- Whether an outcome ends everything around it, within the given number of
steps of combinators. -/
def Outcome.stops (steps : Nat) : Outcome → Bool
  | .halt => true
  | .error => steps == 0
  | _ => false

namespace Moment

/-- The execution that a moment amounts to, if it is one that executes no other
operation. -/
def execution? (host : Host ν) (moment : Moment ν) : Option (Execution ν) :=
  match moment.event with
  | .begins (.primitive .halt) => some (.halt, moment.machine)
  | .begins _ => none
  | .consults symbol => some (host symbol moment.machine)
  | .raises _ => some (.error, moment.machine)

/-- Whether a moment ends the run around it, with the given execution. -/
structure Stops (host : Host ν) (moment : Moment ν)
    (stopped : Execution ν) : Prop where
  amounts : moment.execution? host = some stopped
  final : stopped.1.stops moment.steps = true

/-- Only a halt stops a run from within a step. -/
theorem Stops.ofWithinStep {host : Host ν} {moment : Moment ν}
    {stopped : Execution ν} (stops : moment.withinStep.Stops host stopped) :
    moment.Stops host stopped ∧ stopped.1 = .halt := by
  have halts : stopped.1 = .halt := by
    have final := stops.final
    cases outcome : stopped.1 <;>
      simp [outcome, Outcome.stops, withinStep] at final ⊢
  refine ⟨⟨stops.amounts, ?_⟩, halts⟩
  rw [halts]
  rfl

/-- An operation stops a run by itself only if it is a halt. -/
theorem Stops.eq_of_start {host : Host ν} {operation : Operation}
    {machine : Machine ν} {stopped : Execution ν}
    (stops : (start operation machine).Stops host stopped) :
    operation = .primitive .halt ∧ stopped = (.halt, machine) := by
  have amounts := stops.amounts
  simp only [execution?, start] at amounts
  split at amounts
  · next same =>
      cases same
      exact ⟨rfl, (Option.some_inj.mp amounts).symm⟩
  · cases amounts
  · next same => cases same
  · next same => cases same

end Moment

/-- Whether an execution comes to the outcome of another and leaves its stack
and its store. -/
structure EndsAs (ended other : Execution ν) : Prop where
  outcome : ended.1 = other.1
  stack : ended.2.stack = other.2.stack
  store : ended.2.store = other.2.store

theorem EndsAs.refl (ended : Execution ν) : EndsAs ended ended :=
  ⟨rfl, rfl, rfl⟩

theorem EndsAs.trans {first second third : Execution ν}
    (one : EndsAs first second) (two : EndsAs second third) :
    EndsAs first third :=
  ⟨one.outcome.trans two.outcome, one.stack.trans two.stack,
    one.store.trans two.store⟩

/-- Notifications touch neither the stack nor the store. -/
theorem endsAs_notify (outcome : Outcome) (machine : Machine ν)
    (event : BlockEvent) (slots : List String)
    (operations : List Operation) :
    EndsAs (outcome, machine.notify event slots operations)
      (outcome, machine) := by
  unfold Machine.notify
  split <;> exact ⟨rfl, rfl, rfl⟩

/-- Whether none of the moments stops the run around it. -/
def GoesOn (host : Host ν) (moments : List (Moment ν)) : Prop :=
  ∀ moment ∈ moments, ∀ stopped, ¬ moment.Stops host stopped

/-- Whether a run that goes through the given moments ends, as it is stopped,
at the first moment that stops it. -/
def EndsAtStop (host : Host ν) : List (Moment ν) → Execution ν → Prop
  | [], _ => True
  | moment :: rest, ended =>
      (∀ stopped, moment.Stops host stopped →
        rest = [] ∧ EndsAs ended stopped) ∧
      EndsAtStop host rest ended

namespace EndsAtStop

variable {host : Host ν} {moments rest : List (Moment ν)}
  {ended other stopped : Execution ν}

theorem ofEndsAs (ends : EndsAtStop host moments ended)
    (same : EndsAs other ended) : EndsAtStop host moments other := by
  induction moments with
  | nil => trivial
  | cons moment moments ih =>
      obtain ⟨here, later⟩ := ends
      refine ⟨fun stopped stops => ?_, ih later⟩
      obtain ⟨last, endsAs⟩ := here stopped stops
      exact ⟨last, same.trans endsAs⟩

/-- Behind moments that do not stop the run, its end is decided later. -/
theorem append (goesOn : GoesOn host moments)
    (ends : EndsAtStop host rest ended) :
    EndsAtStop host (moments ++ rest) ended := by
  induction moments with
  | nil => exact ends
  | cons moment moments ih =>
      obtain ⟨here, later⟩ := List.forall_mem_cons.mp goesOn
      exact ⟨fun stopped stops => (here stopped stops).elim, ih later⟩

theorem ofGoesOn (goesOn : GoesOn host moments) (ended : Execution ν) :
    EndsAtStop host moments ended := by
  have ends : EndsAtStop host (moments ++ []) ended := append goesOn trivial
  rwa [List.append_nil] at ends

theorem endsAs (ends : EndsAtStop host moments ended) {moment : Moment ν}
    (member : moment ∈ moments) (stops : moment.Stops host stopped) :
    EndsAs ended stopped := by
  induction moments with
  | nil => cases member
  | cons head moments ih =>
      rcases List.mem_cons.mp member with rfl | later
      · exact (ends.1 stopped stops).2
      · exact ih ends.2 later

/-- Nothing comes behind a moment that stops the run. -/
theorem ofSplit {before after : List (Moment ν)} {moment : Moment ν}
    (ends : EndsAtStop host (before ++ moment :: after) ended)
    (stops : moment.Stops host stopped) :
    after = [] ∧ EndsAs ended stopped := by
  induction before with
  | nil => exact ends.1 stopped stops
  | cons head before ih => exact ih ends.2

/-- A run with another outcome than an error or a halt was not stopped. -/
theorem goesOn (ends : EndsAtStop host moments ended)
    (proceeds : ∀ steps, ended.1.stops steps = false) : GoesOn host moments := by
  intro moment member stopped stops
  have final := stops.final
  rw [← (ends.endsAs member stops).outcome, proceeds] at final
  cases final

/-- A run that does not halt does not stop what it is a step of. -/
theorem goesOn_withinStep (ends : EndsAtStop host moments ended)
    (goesOn : ended.1 ≠ .halt) :
    GoesOn host (moments.map Moment.withinStep) := by
  intro moment member stopped stops
  obtain ⟨inner, among, rfl⟩ := List.mem_map.mp member
  obtain ⟨innerStops, halts⟩ := stops.ofWithinStep
  exact goesOn ((ends.endsAs among innerStops).outcome.trans halts)

/-- A run that halts stops what it is a step of. -/
theorem withinStep (ends : EndsAtStop host moments ended) :
    EndsAtStop host (moments.map Moment.withinStep) ended := by
  induction moments with
  | nil => trivial
  | cons moment moments ih =>
      refine ⟨fun stopped stops => ?_, ih ends.2⟩
      obtain ⟨last, endsAs⟩ := ends.1 stopped stops.ofWithinStep.1
      exact ⟨by rw [last, List.map_nil], endsAs⟩

/-- Beginning an operation that is not settled at once stops nothing. -/
theorem start {operation : Operation} {machine : Machine ν}
    (ends : EndsAtStop host moments ended)
    (other : ∀ attempt,
      Plan.ofOperation machine operation ≠ .settle attempt) :
    EndsAtStop host (.start operation machine :: moments) ended := by
  refine ⟨fun stopped stops => ?_, ends⟩
  obtain ⟨rfl, -⟩ := stops.eq_of_start
  exact absurd rfl (other (.finished .halt machine))

end EndsAtStop

/-- A fault that is raised stops the run. -/
theorem Attempt.endsAtStop (host : Host ν) (attempt : Attempt ν) :
    EndsAtStop host attempt.history attempt.settle := by
  cases attempt with
  | finished outcome left => trivial
  | faulted fault left =>
      refine ⟨fun stopped stops => ⟨rfl, ?_⟩, trivial⟩
      cases stops.amounts
      exact .refl _

/-- Whether a visit ends at the first moment that stops it, by a halt. -/
def VisitEndsAtStop (host : Host ν) (moments : List (Moment ν)) :
    Passage ν → Prop
  | .halted left => EndsAtStop host moments (.halt, left)
  | .completed _ _ | .failed _ _ => GoesOn host moments

section Visits

variable {host : Host ν} {visit : Visit ν} {ended : Execution ν}
  {moments rest : List (Moment ν)}

theorem VisitEndsAtStop.append {passage : Passage ν}
    (goesOn : GoesOn host moments)
    (ends : VisitEndsAtStop host rest passage) :
    VisitEndsAtStop host (moments ++ rest) passage := by
  cases passage with
  | halted left => exact EndsAtStop.append goesOn ends
  | completed | failed =>
      exact List.forall_mem_append.mpr ⟨goesOn, ends⟩

theorem Visit.eq_of_halted {left : Machine ν}
    (judged : visit.judge ended = .halted left) : ended = (.halt, left) := by
  obtain ⟨outcome, machine⟩ := ended
  cases outcome with
  | halt =>
      cases judged
      rfl
  | success =>
      simp only [judge, Step.ofExecution] at judged
      repeat' split at judged
      all_goals cases judged
  | _ => cases judged

theorem Visit.not_halt {step : Step ν} (judged : visit.judge ended = step)
    (other : ∀ left, step ≠ .halted left) : ended.1 ≠ .halt := by
  obtain ⟨outcome, machine⟩ := ended
  rintro rfl
  exact other machine judged.symm

end Visits

/-- Every run ends at the first moment that stops it. -/
theorem stopsFinal (host : Host ν) :
    RunCases host
      (fun _ _ _ moments ended => EndsAtStop host moments ended)
      (fun _ _ _ _ _ moments ended => EndsAtStop host moments ended)
      (fun _ _ moments passage => VisitEndsAtStop host moments passage) where
  settle := by
    intro fuel operation machine attempt planned
    refine ⟨fun stopped stops => ?_, attempt.endsAtStop host⟩
    obtain ⟨rfl, rfl⟩ := stops.eq_of_start
    cases planned
    exact ⟨rfl, .refl _⟩
  consult := by
    intro fuel operation machine symbol planned
    refine .start ⟨fun stopped stops => ⟨rfl, ?_⟩, trivial⟩ (by simp [planned])
    cases stops.amounts
    exact .refl _
  handOver := by
    intro fuel operation machine other below moments ended planned ends
    exact ends.start (by simp [planned])
  starve := by
    intro fuel operation machine slots operations planned taken
    refine .start ?_ (by simp [planned])
    exact (Attempt.endsAtStop host _).ofEndsAs (endsAs_notify _ _ _ _ _)
  activate := by
    intro fuel operation machine slots operations values below moments ended
      planned taken ends
    refine .start (ends.ofEndsAs ?_) (by simp [planned])
    exact (endsAs_notify _ _ _ _ _).trans ⟨rfl, rfl, rfl⟩
  goThrough := by
    intro fuel operation machine visit moments passage planned ends
    refine .start ?_ (by simp [planned])
    -- A failure of the visit stops the run by itself, whatever its cause was.
    cases passage with
    | completed | failed =>
        exact .append ends (Attempt.endsAtStop host _)
    | halted left =>
        rw [Passage.conclude, Attempt.history, List.append_nil]
        exact ends
  finish := by
    intros
    trivial
  resume := by
    intro fuel slots operations index machine operation moments ended later
      rest final found ends resumed endsLater
    -- Neither an error nor a halt lets the block go on.
    refine .append (ends.goesOn fun steps => ?_) endsLater
    cases outcome : ended.1 <;>
      simp [outcome, Outcome.resumesAt, Outcome.stops] at resumed ⊢
  leave := by
    intro fuel slots operations index machine operation moments ended found
      ends resumed
    -- Only a run that was not stopped can change its outcome here.
    by_cases exits : ended.1 = .exitBlock
    · refine .ofGoesOn (ends.goesOn fun steps => ?_) _
      rw [exits]
      rfl
    · refine ends.ofEndsAs ⟨?_, rfl, rfl⟩
      cases outcome : ended.1 <;> first | rfl | exact absurd outcome exits
  complete := by
    intro fuel visit done
    exact nofun
  halt := by
    intro fuel visit element elements moments ended left more ends judged
    cases Visit.eq_of_halted judged
    exact ends.withinStep
  mislead := by
    intro fuel visit element elements moments ended left more ends judged
    exact ends.goesOn_withinStep (Visit.not_halt judged (by simp))
  reject := by
    intro fuel visit element elements moments ended value left code more ends
      judged refused
    exact ends.goesOn_withinStep (Visit.not_halt judged (by simp))
  produce := by
    intro fuel visit element elements moments ended value left state rest
      passage more ends judged accepted endsLater
    exact .append (ends.goesOn_withinStep (Visit.not_halt judged (by simp)))
      endsLater

namespace Attempt

/-- Whether an attempt comes to an error only through a fault. -/
def FailsByFault : Attempt ν → Prop
  | .finished outcome _ => outcome ≠ .error
  | .faulted _ _ => True

@[simp]
theorem failsByFault_finished (outcome : Outcome) (left : Machine ν) :
    (finished outcome left).FailsByFault ↔ outcome ≠ .error :=
  .rfl

@[simp]
theorem failsByFault_succeed (left : Machine ν) :
    (succeed left).FailsByFault :=
  nofun

@[simp]
theorem failsByFault_refuse (left : Machine ν) (code : ErrorCode)
    (operands : List Value) : (refuse left code operands).FailsByFault :=
  trivial

@[simp]
theorem failsByFault_starved (left : Machine ν) :
    (starved left).FailsByFault :=
  trivial

@[simp]
theorem failsByFault_apply (machine : Machine ν) (rule : StackRule) :
    (apply machine rule).FailsByFault := by
  cases rule <;>
    simp only [apply, replace] <;>
    repeat' split
  all_goals simp

@[simp]
theorem failsByFault_pack (machine : Machine ν) :
    (pack machine).FailsByFault := by
  simp only [pack]
  repeat' split
  all_goals simp

@[simp]
theorem failsByFault_named (machine : Machine ν) (name : String)
    (use : NameUse) : (named machine name use).FailsByFault := by
  cases use <;>
    simp only [named, load, store, clear, loadSlot, storeSlot] <;>
    repeat' split
  all_goals simp

@[simp]
theorem failsByFault_loadNative (machine : Machine ν) (path : String) :
    (loadNative machine path).FailsByFault := by
  unfold loadNative
  split <;> simp

end Attempt

/-- Whether what is settled at once fails only through a fault. -/
def Plan.FailsByFault : Plan ν → Prop
  | .settle attempt => attempt.FailsByFault
  | _ => True

theorem Plan.failsByFault_ofPrimitive (machine : Machine ν)
    (which : Primitive) : (ofPrimitive which machine).FailsByFault := by
  unfold ofPrimitive ofTop ofContainer ofReduce callOr
  repeat' split
  all_goals simp [FailsByFault]

theorem Plan.failsByFault_ofOperation (machine : Machine ν)
    (operation : Operation) :
    (ofOperation machine operation).FailsByFault := by
  cases operation with
  | primitive which => exact failsByFault_ofPrimitive machine which
  | push | named | loadNative | block | partialBind =>
      simp [ofOperation, FailsByFault]
  | ifTrue | select | call | native =>
      simp only [ofOperation, ofIfTrue, ofSelect, ofCall, ofNative, callOr]
      repeat' split
      all_goals simp [FailsByFault]

/-- Whether an error lies on top of the stack. -/
def Machine.TopsError (machine : Machine ν) : Prop :=
  ∃ code rest, machine.stack = .error code :: rest

theorem Attempt.topsError_of_settle {attempt : Attempt ν}
    (byFault : attempt.FailsByFault) (fails : attempt.settle.1 = .error) :
    attempt.settle.2.TopsError := by
  cases attempt with
  | finished outcome left => exact absurd fails byFault
  | faulted fault left => exact ⟨fault.code, _, rfl⟩

/-- Whether a native that is called at a moment, if it fails, leaves an error
on top of the stack, as operations do. -/
def Moment.KeepsContract (host : Host ν) (moment : Moment ν) : Prop :=
  ∀ symbol, moment.event = .consults symbol →
    (host symbol moment.machine).1 = .error →
      (host symbol moment.machine).2.TopsError

/-- If a run fails, then with an error on top of the stack. -/
def FailsWithError (host : Host ν) (moments : List (Moment ν))
    (ended : Execution ν) : Prop :=
  (∀ moment ∈ moments, moment.KeepsContract host) →
    ended.1 = .error → ended.2.TopsError

theorem errorsOnTop (host : Host ν) :
    RunCases host
      (fun _ _ _ moments ended => FailsWithError host moments ended)
      (fun _ _ _ _ _ moments ended => FailsWithError host moments ended)
      (fun _ _ _ _ => True) where
  settle := by
    intro fuel operation machine attempt planned natives fails
    have byFault := Plan.failsByFault_ofOperation machine operation
    rw [planned] at byFault
    exact Attempt.topsError_of_settle byFault fails
  consult := by
    intro fuel operation machine symbol planned natives fails
    exact natives _ (List.mem_cons_of_mem _ (List.mem_singleton_self _))
      symbol rfl fails
  handOver := by
    intro fuel operation machine other below moments ended planned tops natives
    exact tops (List.forall_mem_cons.mp natives).2
  starve := by
    intro fuel operation machine slots operations planned taken natives fails
    exact ⟨.insufficientArguments, _,
      (endsAs_notify .error _ _ _ _).stack.trans rfl⟩
  activate := by
    intro fuel operation machine slots operations values below moments ended
      planned taken tops natives fails
    obtain ⟨code, rest, stack⟩ :=
      tops (List.forall_mem_cons.mp natives).2 fails
    exact ⟨code, rest, (endsAs_notify ended.1 _ _ _ _).stack.trans stack⟩
  goThrough := by
    intro fuel operation machine visit moments passage planned _ natives fails
    refine Attempt.topsError_of_settle ?_ fails
    cases passage <;> simp [Passage.conclude]
  finish := by
    intro fuel slots operations index machine found natives fails
    cases fails
  resume := by
    intro fuel slots operations index machine operation moments ended later
      rest final found tops resumed topsLater natives
    exact topsLater (List.forall_mem_append.mp natives).2
  leave := by
    intro fuel slots operations index machine operation moments ended found
      tops resumed natives fails
    refine tops natives ?_
    cases outcome : ended.1 <;> simp [outcome, Outcome.ofLast] at fails ⊢
  complete := by
    intros
    trivial
  halt := by
    intros
    trivial
  mislead := by
    intros
    trivial
  reject := by
    intros
    trivial
  produce := by
    intros
    trivial

/-- A run that fails leaves an error on top of the stack, if its natives do.
At a halt, and at a fault or an error of a native outside all steps of
combinators, nothing more happens: the run comes to this outcome, with the
stack and the store of this moment.  So it is if a native halts. -/
theorem errors_and_halts_are_final {host : Host ν} {fuel : Nat}
    {operation : Operation} {machine : Machine ν} {ended : Execution ν}
    (natives : ∀ moment ∈ history host fuel operation machine,
      moment.KeepsContract host)
    (ends : execute host fuel operation machine = some ended) :
    (ended.1 = .error → ended.2.TopsError) ∧
    ∀ before moment after,
      history host fuel operation machine = before ++ moment :: after →
      (moment.event = .begins (.primitive .halt) →
        after = [] ∧ EndsAs ended (.halt, moment.machine)) ∧
      (∀ code, moment.event = .raises code → moment.steps = 0 →
        after = [] ∧ EndsAs ended (.error, moment.machine)) ∧
      (∀ symbol, moment.event = .consults symbol →
        (host symbol moment.machine).1.stops moment.steps →
          after = [] ∧ EndsAs ended (host symbol moment.machine)) := by
  refine ⟨(errorsOnTop host).ofExecute ends natives, ?_⟩
  intro before moment after split
  have atStop := (stopsFinal host).ofExecute ends
  rw [split] at atStop
  refine ⟨fun halts => ?_, fun code raises outside => ?_,
    fun symbol consults stops => ?_⟩
  · exact atStop.ofSplit ⟨by rw [Moment.execution?, halts], rfl⟩
  · refine atStop.ofSplit ⟨by rw [Moment.execution?, raises], ?_⟩
    rw [outside]
    rfl
  · exact atStop.ofSplit ⟨by rw [Moment.execution?, consults], stops⟩

/-- A native that refuses to do anything. -/
def refusing : Host Unit := fun _ machine =>
  (.error, machine.push (.error .notFound))

/-- A block that maps a callable that calls a native, and goes on. -/
def mapsNative : Operation :=
  .block []
    [.push (.tuple [.number 1]),
      .push (.operation (.native "io" "print")),
      .primitive .map, .primitive .halt]

/-- The error of a native in a step makes `map` fail, and this failure ends
the run, in front of the halt. -/
theorem failed_map_ends_run :
    let machine : Machine Unit := { natives := [⟨"io", "print", ()⟩] }
    let left : Machine Unit :=
      { machine with
        stack := [.error .unexpectedResult, .operation (.native "io" "print"),
          .tuple [.number 1]] }
    execute refusing 6 mapsNative machine = some (.error, left) ∧
    left.TopsError ∧
    ∀ before moment after,
      history refusing 6 mapsNative machine = before ++ moment :: after →
      ∀ code, moment.event = .raises code → moment.steps = 0 →
        after = [] ∧ EndsAs (.error, left) (.error, moment.machine) := by
  intro machine left
  have ends : execute refusing 6 mapsNative machine = some (.error, left) :=
    rfl
  have natives : ∀ moment ∈ history refusing 6 mapsNative machine,
      moment.KeepsContract refusing :=
    fun moment _ symbol _ _ => ⟨.notFound, _, rfl⟩
  obtain ⟨onTop, final⟩ := errors_and_halts_are_final natives ends
  exact ⟨ends, onTop rfl, fun before moment after split =>
    (final before moment after split).2.1⟩

end StackAssembly
