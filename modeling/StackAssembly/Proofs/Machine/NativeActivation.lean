import StackAssembly.Machine.Execute
import StackAssembly.Proofs.Value.Insertion

/-!
# Which natives are active

Libraries are offered under paths and activated by their paths, over and over
and in any order.  What a machine holds of this depends on the history only:
the library under a path is the one offered there last, and the native of a
name in a group is the one that was exported there by the last activated
library to export one, as this library was when it was activated.
-/

namespace StackAssembly

section Answers

variable {α β : Type} {answers : List α → α → β → Prop} {history : List α}
  {item : α} {position : Nat} {result : β}

/-- Whether the item at a position of a history answers, with regard to what
came before it. -/
def AnswersAt (answers : List α → α → β → Prop) (history : List α)
    (position : Nat) (result : β) : Prop :=
  ∃ item, history[position]? = some item ∧
    answers (history.take position) item result

/-- The answer of the last item of a history that has an answer. -/
def MostRecent (answers : List α → α → β → Prop) (history : List α)
    (result : β) : Prop :=
  ∃ position, AnswersAt answers history position result ∧
    ∀ later, position < later →
      ∀ other, ¬ AnswersAt answers history later other

theorem AnswersAt.lt_length
    (answered : AnswersAt answers history position result) :
    position < history.length := by
  obtain ⟨item, here, -⟩ := answered
  exact (List.getElem?_eq_some_iff.mp here).1

/-- An item that is added to a history changes no answer before it. -/
theorem answersAt_concat_iff :
    AnswersAt answers (history ++ [item]) position result ↔
      AnswersAt answers history position result ∨
        position = history.length ∧ answers history item result := by
  constructor
  · rintro ⟨other, here, answered⟩
    rcases getElem?_concat_eq_some_iff.mp here with before | ⟨rfl, rfl⟩
    · have inside := (List.getElem?_eq_some_iff.mp before).1
      rw [List.take_append_of_le_length (Nat.le_of_lt inside)] at answered
      exact .inl ⟨other, before, answered⟩
    · exact .inr ⟨rfl, by simpa only [List.take_left] using answered⟩
  · rintro (⟨other, before, answered⟩ | ⟨rfl, answered⟩)
    · have inside := (List.getElem?_eq_some_iff.mp before).1
      refine ⟨other, getElem?_concat_eq_some_iff.mpr (.inl before), ?_⟩
      rwa [List.take_append_of_le_length (Nat.le_of_lt inside)]
    · refine ⟨item, getElem?_concat_eq_some_iff.mpr (.inr ⟨rfl, rfl⟩), ?_⟩
      rwa [List.take_left]

/-- The last item has the last word, if it says anything. -/
theorem mostRecent_concat_iff :
    MostRecent answers (history ++ [item]) result ↔
      answers history item result ∨
        (∀ other, ¬ answers history item other) ∧
          MostRecent answers history result := by
  constructor
  · rintro ⟨position, answered, last⟩
    rcases answersAt_concat_iff.mp answered with before | ⟨-, here⟩
    · refine .inr ⟨fun other here => ?_, position, before, ?_⟩
      · exact last history.length before.lt_length other
          (answersAt_concat_iff.mpr (.inr ⟨rfl, here⟩))
      · intro later behind other also
        exact last later behind other
          (answersAt_concat_iff.mpr (.inl also))
    · exact .inl here
  · rintro (here | ⟨silent, position, before, last⟩)
    · refine ⟨history.length, answersAt_concat_iff.mpr (.inr ⟨rfl, here⟩), ?_⟩
      -- No position of the longer history lies behind that of the item.
      intro later behind other also
      rcases answersAt_concat_iff.mp also with before | ⟨rfl, -⟩
      · exact Nat.lt_asymm behind before.lt_length
      · exact Nat.lt_irrefl _ behind
    · refine ⟨position, answersAt_concat_iff.mpr (.inl before), ?_⟩
      intro later behind other also
      rcases answersAt_concat_iff.mp also with early | ⟨-, here⟩
      · exact last later behind other early
      · exact silent other here

theorem not_mostRecent_nil : ¬ MostRecent answers [] result := by
  rintro ⟨position, answered, -⟩
  exact Nat.not_lt_zero _ answered.lt_length

/-- There is a last answer if there is any. -/
theorem exists_mostRecent_iff :
    (∃ result, MostRecent answers history result) ↔
      ∃ position result, AnswersAt answers history position result := by
  refine ⟨fun ⟨result, position, answered, _⟩ =>
    ⟨position, result, answered⟩, ?_⟩
  rintro ⟨position, result, answered⟩
  induction history using List.reverseRecOn generalizing position result with
  | nil => exact absurd answered.lt_length (Nat.not_lt_zero _)
  | append_singleton history item ih =>
      -- The last answer is that of the item, or else the one found before it.
      by_cases speaks : ∃ other, answers history item other
      · obtain ⟨other, here⟩ := speaks
        exact ⟨other, mostRecent_concat_iff.mpr (.inl here)⟩
      · have silent := not_exists.mp speaks
        rcases answersAt_concat_iff.mp answered with before | ⟨-, here⟩
        · obtain ⟨last, recent⟩ := ih position result before
          exact ⟨last, mostRecent_concat_iff.mpr (.inr ⟨silent, recent⟩)⟩
        · exact absurd here (silent result)

end Answers

variable {ν : Type}

/-- A step in the life of the natives of a machine. -/
inductive NativeStep (ν : Type) where
  | provide (path : String) (library : Library ν)
  | activate (path : String)
  | load (path : String)

/-- The path of the library that a step activates. -/
def NativeStep.activated? : NativeStep ν → Option String
  | .provide _ _ => none
  | .activate path => some path
  | .load path => some path

/-- The symbol that a library exports under a name: the last listed. -/
def Library.Exports (library : Library ν) (name : String) (symbol : ν) :
    Prop :=
  MostRecent (fun _ operation listed => operation = (name, listed))
    library.operations symbol

/-- The library that was provided last under a path. -/
def Provided (steps : List (NativeStep ν)) (path : String)
    (library : Library ν) : Prop :=
  MostRecent (fun _ step offered => step = .provide path offered) steps
    library

/-- Whether a step behind others brings a native: it activates the library
that was provided last under its path, and this exports the native. -/
def Brings (bucket name : String) (before : List (NativeStep ν))
    (step : NativeStep ν) (symbol : ν) : Prop :=
  ∃ path library, step.activated? = some path ∧
    Provided before path library ∧ library.bucket = bucket ∧
    library.Exports name symbol

/-- What a step makes of a machine. -/
inductive Stepped (host : Host ν) (machine : Machine ν) :
    NativeStep ν → Machine ν → Prop where
  | provide (path : String) (library : Library ν) :
      Stepped host machine (.provide path library)
        (machine.provide path library)
  | activate (path : String) {activated : Machine ν}
      (found : machine.activate? path = some activated) :
      Stepped host machine (.activate path) activated
  | ignore (path : String) (missing : machine.activate? path = none) :
      Stepped host machine (.activate path) machine
  | load (path : String) {fuel : Nat} {outcome : Outcome}
      {next : Machine ν}
      (ends : execute host fuel (.loadNative path) machine =
        some (outcome, next)) :
      Stepped host machine (.load path) next

/-- The machines that steps lead to.  Between them a machine may do whatever
concerns no natives. -/
inductive Reached (host : Host ν) (start : Machine ν) :
    List (NativeStep ν) → Machine ν → Prop where
  | start : Reached host start [] start
  | step {steps machine step next}
      (before : Reached host start steps machine)
      (stepped : Stepped host machine step next) :
      Reached host start (steps ++ [step]) next
  | meanwhile {steps machine next}
      (before : Reached host start steps machine)
      (provided : next.provided = machine.provided)
      (natives : next.natives = machine.natives) :
      Reached host start steps next

namespace Machine

variable {machine next : Machine ν} {path bucket name : String}
  {library : Library ν}

theorem library?_provide (machine : Machine ν) (path other : String)
    (library : Library ν) :
    (machine.provide path library).library? other =
      if path = other then some library else machine.library? other := by
  by_cases same : path = other <;> simp [provide, library?, same]

theorem library?_congr (provided : next.provided = machine.provided) :
    next.library? path = machine.library? path := by
  rw [library?, library?, provided]

theorem native?_congr (natives : next.natives = machine.natives) :
    next.native? bucket name = machine.native? bucket name := by
  rw [native?, native?, natives]

theorem activate?_of_library (offered : machine.library? path = some library) :
    machine.activate? path =
      some { machine with natives := library.natives ++ machine.natives } := by
  rw [activate?, offered]
  rfl

theorem activate?_of_missing (missing : machine.library? path = none) :
    machine.activate? path = none := by
  rw [activate?, missing]
  rfl

end Machine

/-- What is activated of a library is what it exports, in its group. -/
theorem Library.find?_natives_eq_some_iff {library : Library ν}
    {bucket name : String} {symbol : ν} :
    (library.natives.find? fun native =>
      native.bucket == bucket && native.name == name).map
        ActiveNative.symbol = some symbol ↔
      library.bucket = bucket ∧ library.Exports name symbol := by
  obtain ⟨group, operations⟩ := library
  simp only [natives, Exports]
  -- From the end on, since the operation listed last is activated first.
  induction operations using List.reverseRecOn with
  | nil => simp [not_mostRecent_nil]
  | append_singleton operations operation ih =>
      obtain ⟨listed, last⟩ := operation
      rw [mostRecent_concat_iff, List.map_append, List.reverse_append,
        List.map_singleton, List.reverse_singleton, List.singleton_append,
        List.find?_cons]
      by_cases inside : group = bucket
      · by_cases same : listed = name
        · simp [inside, same]
        · simpa [inside, same, beq_eq_false_iff_ne.mpr same] using ih
      · simpa [inside, beq_eq_false_iff_ne.mpr inside] using ih

section Adding

variable {machine next : Machine ν} {library : Library ν}
  {bucket name : String}

/-- What was active stays so unless the library has something of its name. -/
theorem Machine.native?_of_natives {symbol : ν}
    (natives : next.natives = library.natives ++ machine.natives) :
    next.native? bucket name = some symbol ↔
      (library.bucket = bucket ∧ library.Exports name symbol) ∨
        (∀ other, ¬ (library.bucket = bucket ∧ library.Exports name other)) ∧
          machine.native? bucket name = some symbol := by
  simp only [← Library.find?_natives_eq_some_iff, native?, natives,
    List.find?_append]
  cases library.natives.find? _ <;> simp

theorem Machine.native?_of_unexported
    (natives : next.natives = library.natives ++ machine.natives)
    (silent : ∀ symbol, bucket = library.bucket →
      ¬ library.Exports name symbol) :
    next.native? bucket name = machine.native? bucket name := by
  have never : ∀ symbol, ¬ (library.bucket = bucket ∧
      library.Exports name symbol) :=
    fun symbol both => silent symbol both.1.symm both.2
  refine Option.ext fun symbol => ?_
  rw [native?_of_natives natives, or_iff_right (never symbol),
    and_iff_right never]

theorem Machine.isSome_native?_of_natives
    (natives : next.natives = library.natives ++ machine.natives)
    (held : (machine.native? bucket name).isSome = true) :
    (next.native? bucket name).isSome = true := by
  by_cases exported : ∃ symbol, bucket = library.bucket ∧
      library.Exports name symbol
  · obtain ⟨symbol, rfl, exported⟩ := exported
    rw [(native?_of_natives natives).mpr (.inl ⟨rfl, exported⟩)]
    rfl
  · rwa [native?_of_unexported natives fun symbol inside also =>
      exported ⟨symbol, inside, also⟩]

end Adding

/-- What a machine has recorded of its steps. -/
structure Recorded (steps : List (NativeStep ν)) (machine : Machine ν) :
    Prop where
  library?_iff : ∀ path library,
    machine.library? path = some library ↔ Provided steps path library
  native?_iff : ∀ bucket name symbol,
    machine.native? bucket name = some symbol ↔
      MostRecent (Brings bucket name) steps symbol

namespace Recorded

variable {steps : List (NativeStep ν)} {machine next : Machine ν}
  {step : NativeStep ν} {path : String} {library : Library ν}

theorem native?_eq_none_iff (recorded : Recorded steps machine)
    {bucket name : String} :
    machine.native? bucket name = none ↔
      ∀ position symbol,
        ¬ AnswersAt (Brings bucket name) steps position symbol := by
  have never := not_congr
    (@exists_mostRecent_iff _ _ (Brings bucket name) steps)
  simp only [not_exists] at never
  rw [← never, Option.eq_none_iff_forall_ne_some]
  exact forall_congr' fun symbol =>
    not_congr (recorded.native?_iff bucket name symbol)

/-- Nothing is offered under a path under which nothing was provided. -/
theorem library?_of_never (recorded : Recorded steps machine)
    (never : ∀ library, NativeStep.provide path library ∉ steps) :
    machine.library? path = none := by
  rw [Option.eq_none_iff_forall_ne_some]
  intro library offered
  obtain ⟨position, ⟨step, here, rfl⟩, -⟩ :=
    (recorded.library?_iff path library).mp offered
  exact never library (List.mem_of_getElem? here)

theorem start (nothing : machine.provided = [])
    (inactive : machine.natives = []) : Recorded [] machine where
  library?_iff path library := by
    simp [Machine.library?, nothing, Provided, not_mostRecent_nil]
  native?_iff bucket name symbol := by
    simp [Machine.native?, inactive, not_mostRecent_nil]

theorem congr (recorded : Recorded steps machine)
    (provided : next.provided = machine.provided)
    (natives : next.natives = machine.natives) : Recorded steps next where
  library?_iff path library := by
    rw [Machine.library?_congr provided, recorded.library?_iff]
  native?_iff bucket name symbol := by
    rw [Machine.native?_congr natives, recorded.native?_iff]

theorem provide (recorded : Recorded steps machine) (path : String)
    (library : Library ν) :
    Recorded (steps ++ [.provide path library])
      (machine.provide path library) where
  library?_iff other offered := by
    rw [Machine.library?_provide, Provided, mostRecent_concat_iff]
    split
    · next same => simp [same]
    · next differs => simp [differs, recorded.library?_iff, Provided]
  native?_iff bucket name symbol := by
    rw [mostRecent_concat_iff]
    simp [Brings, NativeStep.activated?, ← recorded.native?_iff,
      Machine.provide, Machine.native?]

/-- An activation offers nothing. -/
theorem library?_concat_iff (recorded : Recorded steps machine)
    (activates : step.activated? = some path)
    (provided : next.provided = machine.provided) (other : String)
    (library : Library ν) :
    next.library? other = some library ↔
      Provided (steps ++ [step]) other library := by
  rw [Machine.library?_congr provided, Provided, mostRecent_concat_iff,
    recorded.library?_iff]
  cases step with
  | provide => cases activates
  | activate => simp [Provided]
  | load => simp [Provided]

theorem brings_iff (recorded : Recorded steps machine)
    (activates : step.activated? = some path) {bucket name : String}
    {symbol : ν} :
    Brings bucket name steps step symbol ↔
      ∃ library, machine.library? path = some library ∧
        library.bucket = bucket ∧ library.Exports name symbol := by
  simp [Brings, activates, recorded.library?_iff]

/-- A library that is activated adds what it exports. -/
theorem activate (recorded : Recorded steps machine)
    (activates : step.activated? = some path)
    (offered : machine.library? path = some library)
    (provided : next.provided = machine.provided)
    (natives : next.natives = library.natives ++ machine.natives) :
    Recorded (steps ++ [step]) next where
  library?_iff := recorded.library?_concat_iff activates provided
  native?_iff bucket name symbol := by
    rw [Machine.native?_of_natives natives, mostRecent_concat_iff,
      ← recorded.native?_iff]
    simp [recorded.brings_iff activates, offered]

/-- Activating what nobody provided adds nothing. -/
theorem ignore (recorded : Recorded steps machine)
    (activates : step.activated? = some path)
    (missing : machine.library? path = none)
    (provided : next.provided = machine.provided)
    (natives : next.natives = machine.natives) :
    Recorded (steps ++ [step]) next where
  library?_iff := recorded.library?_concat_iff activates provided
  native?_iff bucket name symbol := by
    rw [Machine.native?_congr natives, mostRecent_concat_iff,
      ← recorded.native?_iff]
    simp [recorded.brings_iff activates, missing]

end Recorded

section Loading

variable {machine : Machine ν} {path : String} {library : Library ν}

theorem execute_loadNative_of_library (host : Host ν) (fuel : Nat)
    (offered : machine.library? path = some library) :
    execute host (fuel + 1) (.loadNative path) machine =
      some (.success,
        { machine with natives := library.natives ++ machine.natives }) := by
  simp only [execute, tryOperation, Attempt.loadNative,
    Machine.activate?_of_library offered]
  rfl

theorem execute_loadNative_of_missing (host : Host ν) (fuel : Nat)
    (missing : machine.library? path = none) :
    execute host (fuel + 1) (.loadNative path) machine =
      some (.error, machine.push (.error .notFound)) := by
  simp only [execute, tryOperation, Attempt.loadNative,
    Machine.activate?_of_missing missing]
  rfl

end Loading

section Runs

variable {host : Host ν} {start machine next : Machine ν}
  {steps : List (NativeStep ν)} {step : NativeStep ν}

/-- A step is recorded behind the steps before it. -/
theorem Recorded.after (recorded : Recorded steps machine)
    (stepped : Stepped host machine step next) :
    Recorded (steps ++ [step]) next := by
  -- The host and a program activate in the same way, so that a step counts by
  -- whether something is offered under its path.
  cases stepped with
  | provide path library => exact recorded.provide path library
  | activate path found =>
      cases offered : machine.library? path with
      | none =>
          rw [Machine.activate?_of_missing offered] at found
          cases found
      | some library =>
          rw [Machine.activate?_of_library offered] at found
          cases found
          exact recorded.activate rfl offered rfl rfl
  | ignore path missing =>
      cases offered : machine.library? path with
      | none => exact recorded.ignore rfl offered rfl rfl
      | some library =>
          rw [Machine.activate?_of_library offered] at missing
          cases missing
  | @load path fuel _ _ ends =>
      cases fuel with
      | zero =>
          rw [execute] at ends
          cases ends
      | succ fuel =>
          cases offered : machine.library? path with
          | none =>
              rw [execute_loadNative_of_missing host fuel offered] at ends
              cases ends
              exact recorded.ignore rfl offered rfl rfl
          | some library =>
              rw [execute_loadNative_of_library host fuel offered] at ends
              cases ends
              exact recorded.activate rfl offered rfl rfl

/-- Whatever steps a machine has gone through, it has recorded them. -/
theorem Reached.recorded (reached : Reached host start steps machine)
    (nothing : start.provided = []) (inactive : start.natives = []) :
    Recorded steps machine := by
  induction reached with
  | start => exact .start nothing inactive
  | step before stepped ih => exact ih.after stepped
  | meanwhile before provided natives ih => exact ih.congr provided natives

end Runs

/-- What the natives of a machine are after certain steps, and what becomes of
them in the next one. -/
structure FollowsSteps (host : Host ν) (steps : List (NativeStep ν))
    (machine : Machine ν) : Prop where
  /-- The last step to bring a native says which it is. -/
  active : ∀ bucket name symbol,
    machine.native? bucket name = some symbol ↔
      MostRecent (Brings bucket name) steps symbol
  /-- Without such a step there is none. -/
  inactive : ∀ bucket name,
    machine.native? bucket name = none ↔
      ∀ position symbol,
        ¬ AnswersAt (Brings bucket name) steps position symbol
  /-- Providing a library changes no native. -/
  provides : ∀ path library bucket name,
    (machine.provide path library).native? bucket name =
      machine.native? bucket name
  /-- Activating a library, by the host or by a program, adds its exports to
  its group and keeps all other natives, those of the group among them. -/
  activates : ∀ path library, Provided steps path library →
    ∃ next, machine.activate? path = some next ∧
      (∀ fuel, execute host (fuel + 1) (.loadNative path) machine =
        some (.success, next)) ∧
      { next with natives := machine.natives } = machine ∧
      (∀ name symbol, library.Exports name symbol →
        next.native? library.bucket name = some symbol) ∧
      (∀ bucket name,
        (∀ symbol, bucket = library.bucket → ¬ library.Exports name symbol) →
        next.native? bucket name = machine.native? bucket name) ∧
      ∀ bucket name, (machine.native? bucket name).isSome = true →
        (next.native? bucket name).isSome = true
  /-- Activating what nobody provided is refused and changes nothing. -/
  refuses : ∀ path,
    (∀ library, NativeStep.provide path library ∉ steps) →
      machine.activate? path = none ∧
      ∀ fuel, execute host (fuel + 1) (.loadNative path) machine =
        some (.error, machine.push (.error .notFound))

/-- From a machine without natives on, the active natives are those that the
last activations brought. -/
theorem natives_follow_activations {host : Host ν} {start machine : Machine ν}
    {steps : List (NativeStep ν)} (nothing : start.provided = [])
    (inactive : start.natives = [])
    (reached : Reached host start steps machine) :
    FollowsSteps host steps machine := by
  have recorded := reached.recorded nothing inactive
  constructor
  · exact recorded.native?_iff
  · intro bucket name
    exact recorded.native?_eq_none_iff
  · intro path library bucket name
    rfl
  · intro path library provided
    have offered := (recorded.library?_iff path library).mpr provided
    refine ⟨_, Machine.activate?_of_library offered,
      fun fuel => execute_loadNative_of_library host fuel offered, rfl,
      ?_, ?_, ?_⟩
    · intro name symbol exported
      exact (Machine.native?_of_natives rfl).mpr (.inl ⟨rfl, exported⟩)
    · intro bucket name silent
      exact Machine.native?_of_unexported rfl silent
    · intro bucket name held
      exact Machine.isSome_native?_of_natives rfl held
  · intro path never
    have missing := recorded.library?_of_never never
    exact ⟨Machine.activate?_of_missing missing,
      fun fuel => execute_loadNative_of_missing host fuel missing⟩

/-- A path is provided again after its library was activated, and a program
loads it again.  The group then has what both libraries export, of a name in
both the later and of a name listed twice the last. -/
theorem reprovided_library_merges :
    let host : Host Nat := fun _ machine => (.success, machine)
    let start : Machine Nat := {}
    let first : Library Nat := ⟨"io", [("x", 1), ("x", 2), ("y", 3)]⟩
    let second : Library Nat := ⟨"io", [("y", 4), ("z", 5)]⟩
    let steps : List (NativeStep Nat) := [.provide "a" first, .activate "a",
      .provide "a" second, .load "a", .activate "b"]
    ∃ machine, Reached host start steps machine ∧
      FollowsSteps host steps machine ∧
      MostRecent (Brings "io" "x") steps 2 ∧
      MostRecent (Brings "io" "y") steps 4 ∧
      machine.native? "io" "z" = some 5 ∧
      (∀ position symbol,
        ¬ AnswersAt (Brings "io" "w") steps position symbol) ∧
      machine.activate? "b" = none := by
  intro host start first second steps
  have fresh : Reached host start [] start := .start
  have offered := fresh.step (.provide "a" first)
  have activated := offered.step (.activate "a" rfl)
  have offeredAgain := activated.step (.provide "a" second)
  have loaded := offeredAgain.step
    (.load "a" (execute_loadNative_of_library host 0 rfl))
  have reached := loaded.step (.ignore "b" rfl)
  have follows := natives_follow_activations rfl rfl reached
  exact ⟨_, reached, follows, (follows.active _ _ _).mp rfl,
    (follows.active _ _ _).mp rfl, rfl, (follows.inactive _ _).mp rfl,
    (follows.refuses "b" fun library => by simp).1⟩

end StackAssembly
