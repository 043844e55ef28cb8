import StackAssembly.Proofs.Machine.RunInduction

/-!
# Runs that come to an end

Fuel only bounds how far a run is followed.  A run that has come to its end is
the same with more fuel, in what it ends with and in what happens in it, so
runs can be spoken of without their fuel.
-/

namespace StackAssembly

variable {ν : Type} {host : Host ν} {fuel more : Nat}
  {operation : Operation} {machine : Machine ν} {visit : Visit ν}
  {moments : List (Moment ν)} {ended : Execution ν} {passage : Passage ν}

/-- Every case of a run is also one with more fuel. -/
theorem RunCases.withMoreFuel (host : Host ν) :
    RunCases host (fun fuel => RunsTo host (fuel + 1))
      (fun fuel => BodyRunsTo host (fuel + 1))
      (fun fuel => VisitRunsTo host (fuel + 1)) where
  settle := (executed host).settle
  consult := (executed host).consult
  handOver := (executed host).handOver
  starve := (executed host).starve
  activate := (executed host).activate
  goThrough := (executed host).goThrough
  finish := (executed host).finish
  resume := (executed host).resume
  leave := (executed host).leave
  complete := (executed host).complete
  halt := (executed host).halt
  mislead := (executed host).mislead
  reject := (executed host).reject
  produce := (executed host).produce

theorem RunsTo.succ
    (runs : RunsTo host fuel operation machine moments ended) :
    RunsTo host (fuel + 1) operation machine moments ended := by
  rw [← runs.recorded]
  exact (RunCases.withMoreFuel host).ofExecute runs.ends

theorem VisitRunsTo.succ (runs : VisitRunsTo host fuel visit moments passage) :
    VisitRunsTo host (fuel + 1) visit moments passage := by
  rw [← runs.recorded]
  exact (RunCases.withMoreFuel host).ofPass
    (fun _ _ _ ends => (RunCases.withMoreFuel host).ofExecute ends) runs.ends

/-- More fuel changes neither the end of a run nor its history. -/
theorem RunsTo.mono (runs : RunsTo host fuel operation machine moments ended)
    (enough : fuel ≤ more) :
    RunsTo host more operation machine moments ended := by
  induction enough with
  | refl => exact runs
  | step _ ih => exact ih.succ

theorem VisitRunsTo.mono
    (runs : VisitRunsTo host fuel visit moments passage)
    (enough : fuel ≤ more) : VisitRunsTo host more visit moments passage := by
  induction enough with
  | refl => exact runs
  | step _ ih => exact ih.succ

/-- An operation, run on a machine, comes to an end, with what happens on the
way. -/
def Runs (host : Host ν) (operation : Operation) (machine : Machine ν)
    (moments : List (Moment ν)) (ended : Execution ν) : Prop :=
  ∃ fuel, RunsTo host fuel operation machine moments ended

/-- A visit comes to an end, with what happens on the way. -/
def VisitRuns (host : Host ν) (visit : Visit ν) (moments : List (Moment ν))
    (passage : Passage ν) : Prop :=
  ∃ fuel, VisitRunsTo host fuel visit moments passage

theorem Runs.of_settle {attempt : Attempt ν}
    (planned : Plan.ofOperation machine operation = .settle attempt) :
    Runs host operation machine
      (.start operation machine :: attempt.history) attempt.settle :=
  ⟨1, (RunCases.executed host).settle planned⟩

theorem Runs.of_visit (runs : VisitRuns host visit moments passage)
    (planned : Plan.ofOperation machine operation = .goThrough visit) :
    Runs host operation machine
      (.start operation machine ::
        (moments ++ (passage.conclude visit.operands).history))
      (passage.conclude visit.operands).settle := by
  obtain ⟨fuel, visited⟩ := runs
  exact ⟨fuel + 1, (RunCases.executed host).goThrough planned visited⟩

namespace VisitRuns

theorem complete (done : visit.elements = []) :
    VisitRuns host visit [] (.completed visit.start visit.below) :=
  ⟨0, (RunCases.executed host).complete done⟩

section Step

variable {element value : Value} {elements : List Value} {left : Machine ν}

theorem mislead (more : visit.elements = element :: elements)
    (runs : Runs host visit.callable (visit.step element) moments ended)
    (judged : visit.judge ended = .unexpected left) :
    VisitRuns host visit (moments.map Moment.withinStep)
      (.failed .unexpectedResult left) := by
  obtain ⟨fuel, ran⟩ := runs
  exact ⟨fuel, (RunCases.executed host).mislead more ran judged⟩

theorem reject {code : ErrorCode}
    (more : visit.elements = element :: elements)
    (runs : Runs host visit.callable (visit.step element) moments ended)
    (judged : visit.judge ended = .produced value left)
    (refused : visit.next element visit.start value = .error code) :
    VisitRuns host visit (moments.map Moment.withinStep)
      (.failed code left) := by
  obtain ⟨fuel, ran⟩ := runs
  exact ⟨fuel, (RunCases.executed host).reject more ran judged refused⟩

theorem produce {state : Value} {rest : List (Moment ν)}
    (more : visit.elements = element :: elements)
    (runs : Runs host visit.callable (visit.step element) moments ended)
    (judged : visit.judge ended = .produced value left)
    (accepted : visit.next element visit.start value = .ok state)
    (runsLater : VisitRuns host (visit.goOn elements state left) rest
      passage) :
    VisitRuns host visit (moments.map Moment.withinStep ++ rest)
      passage := by
  obtain ⟨fuel, ran⟩ := runs
  obtain ⟨others, ranLater⟩ := runsLater
  -- Both runs are followed with the fuel of the longer one.
  have one := ran.mono (Nat.le_max_left fuel others)
  have rest := ranLater.mono (Nat.le_max_right fuel others)
  exact ⟨max fuel others,
    (RunCases.executed host).produce more one judged accepted rest⟩

end Step
end VisitRuns
end StackAssembly
