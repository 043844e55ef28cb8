import Mathlib.Order.BooleanAlgebra.Set
import StackAssembly.Proofs.Machine.Bindings
import StackAssembly.Proofs.Machine.FrameKeeping

/-!
# Globals are written once

Two operations write to the store: one binds a name that is free and one
unbinds a name.  The store is shared by everything that a run executes, and
nothing that puts the stack in order behind a failed step touches it.  So the
store at each moment of a run is the one that the moment before it left, and
from this follows what a run does to the globals as a whole.
-/

namespace StackAssembly

variable {ν : Type}

namespace Bindings

/-- The bound names. -/
def names (bindings : Bindings) : Set String :=
  {name | bindings.contains name = true}

/-- Binding a name, if it is free, adds it to the bound ones. -/
theorem names_setIfFree (bindings : Bindings) (name : String)
    (value : Value) :
    (bindings.setIfFree name value).names = insert name bindings.names := by
  ext other
  exact contains_setIfFree

theorem names_erase (bindings : Bindings) (name : String) :
    (bindings.erase name).names = bindings.names \ {name} := by
  ext other
  rw [Set.mem_sdiff_singleton]
  change (bindings.erase name).contains other = true ↔
    bindings.contains other = true ∧ other ≠ name
  rw [contains, get?_erase]
  split
  · next same => simp [same]
  · next differs => exact (and_iff_left differs).symm

end Bindings

namespace Machine

variable (machine : Machine ν)

@[simp]
theorem store_push (value : Value) :
    (machine.push value).store = machine.store :=
  rfl

@[simp]
theorem store_pushAll (values : List Value) :
    (machine.pushAll values).store = machine.store :=
  rfl

@[simp]
theorem store_pushFrame (pairs : List (String × Value)) :
    (machine.pushFrame pairs).store = machine.store :=
  rfl

@[simp]
theorem store_popFrame : machine.popFrame.store = machine.store :=
  rfl

@[simp]
theorem store_notify (event : BlockEvent) (slots : List String)
    (operations : List Operation) :
    (machine.notify event slots operations).store = machine.store := by
  unfold notify
  split <;> rfl

variable {machine}

theorem store_of_takeTop? {below : Machine ν} {count : Nat}
    {values : List Value}
    (taken : machine.takeTop? count = some (values, below)) :
    below.store = machine.store := by
  rw [eq_of_takeTop? taken]

end Machine

/-- The store that an operation leaves, or that it hands over to what it
runs. -/
def Operation.storeBehind (machine : Machine ν) : Operation → Bindings
  | .named .store name =>
      match machine.stack with
      | [] => machine.store
      | value :: _ => machine.store.setIfFree name value
  | .named .clear name => machine.store.erase name
  | _ => machine.store

/-- The bound names behind an operation, given those in front of it: a `store`
that finds a value binds its name, a `clear` unbinds it. -/
def Operation.namesBehind (machine : Machine ν) (names : Set String) :
    Operation → Set String
  | .named .store name =>
      match machine.stack with
      | [] => names
      | _ :: _ => insert name names
  | .named .clear name => names \ {name}
  | _ => names

theorem Operation.names_storeBehind (operation : Operation)
    (machine : Machine ν) :
    (operation.storeBehind machine).names =
      operation.namesBehind machine machine.store.names := by
  cases operation with
  | named use name =>
      cases use with
      | store =>
          simp only [storeBehind, namesBehind]
          split
          · rfl
          · exact Bindings.names_setIfFree _ _ _
      | clear => exact Bindings.names_erase _ _
      | load | loadSlot | storeSlot => rfl
  | _ => rfl

namespace Attempt

@[simp]
theorem store_replace (below : Machine ν) (operands : List Value)
    (result : RuleResult) :
    (replace below operands result).machine.store = below.store := by
  cases result <;> rfl

@[simp]
theorem store_apply (machine : Machine ν) (rule : StackRule) :
    (apply machine rule).machine.store = machine.store := by
  cases rule <;>
    simp only [apply] <;>
    split <;> simp

@[simp]
theorem store_pack (machine : Machine ν) :
    (pack machine).machine.store = machine.store := by
  unfold pack
  split
  · simp
  · dsimp only
    split
    · split
      · next left taken =>
          simpa using Machine.store_of_takeTop? taken
      · simp
    · simp

/-- The uses of names that write to the store are those that write to it
according to their operation. -/
theorem store_named (machine : Machine ν) (name : String) (use : NameUse) :
    (named machine name use).machine.store =
      (Operation.named use name).storeBehind machine := by
  cases use with
  | load =>
      simp only [named, load]
      split <;> rfl
  | store =>
      simp only [named, store, Operation.storeBehind, Machine.define?]
      rcases machine.stack with _ | ⟨value, rest⟩
      · rfl
      · dsimp only
        unfold Bindings.setIfFree
        cases machine.store.define? name value <;> rfl
  | clear =>
      simp only [named, clear, Operation.storeBehind]
      split
      · rfl
      · next free =>
          rw [Bool.not_eq_true] at free
          exact (Bindings.erase_of_free free).symm
  | loadSlot =>
      simp only [named, loadSlot]
      split <;> rfl
  | storeSlot =>
      simp only [named, storeSlot]
      split
      · rfl
      · split <;> rfl

@[simp]
theorem store_loadNative (machine : Machine ν) (path : String) :
    (loadNative machine path).machine.store = machine.store := by
  unfold loadNative
  split
  · next activated =>
      obtain ⟨library, -, rfl⟩ := Option.map_eq_some_iff.mp activated
      rfl
  · rfl

end Attempt

namespace Plan

/-- Whether what is asked for starts from, or at once leaves, the given
store. -/
def PassesOn (machine : Machine ν) (behind : Bindings) : Plan ν → Prop
  | .settle attempt => attempt.machine.store = behind
  | .handOver _ below => below.store = behind
  | .goThrough visit => visit.below.store = behind
  | .consult _ | .activate _ _ => machine.store = behind

theorem passesOn_ofPrimitive (machine : Machine ν) (which : Primitive) :
    (ofPrimitive which machine).PassesOn machine machine.store := by
  unfold ofPrimitive
  split
  · simp [PassesOn]
  · split
    case h_6 =>
      unfold ofTop callOr
      split
      · simp [PassesOn]
      · split <;> simp [PassesOn]
    case h_7 | h_8 =>
      unfold ofContainer
      split
      · dsimp only
        split <;> simp [PassesOn]
      · simp [PassesOn]
    case h_9 =>
      unfold ofReduce
      split
      · dsimp only
        split <;> simp [PassesOn]
      · simp [PassesOn]
    all_goals simp [PassesOn]

/-- What operations ask for finds the store as the operation leaves it. -/
theorem passesOn_of_planned {machine : Machine ν} {operation : Operation}
    {plan : Plan ν} (planned : ofOperation machine operation = plan) :
    plan.PassesOn machine (operation.storeBehind machine) := by
  rw [← planned]
  cases operation with
  | primitive which => exact passesOn_ofPrimitive machine which
  | named use name => exact Attempt.store_named machine name use
  | ifTrue body =>
      simp only [ofOperation, ofIfTrue]
      split
      · simp [PassesOn, Operation.storeBehind]
      · split <;> simp [PassesOn, Operation.storeBehind]
  | select cases otherwise =>
      simp only [ofOperation, ofSelect, callOr]
      split
      · simp [PassesOn, Operation.storeBehind]
      · split
        · split <;> simp [PassesOn, Operation.storeBehind]
        · split <;> simp [PassesOn, Operation.storeBehind]
  | call target arguments =>
      simp only [ofOperation, ofCall]
      split
      · simp [PassesOn, Operation.storeBehind]
      · split <;> simp [PassesOn, Operation.storeBehind]
  | loadNative path => exact Attempt.store_loadNative machine path
  | native bucket name =>
      simp only [ofOperation, ofNative]
      split <;> simp [PassesOn, Operation.storeBehind]
  | push | block | partialBind => rfl

end Plan

namespace Moment

/-- The store behind a moment. -/
def storeBehind (host : Host ν) (moment : Moment ν) : Bindings :=
  match moment.event with
  | .begins operation => operation.storeBehind moment.machine
  | .consults symbol => (host symbol moment.machine).2.store
  | .raises _ => moment.machine.store

/-- The moments that follow the use of a name: its failure, if it fails. -/
def answer (moment : Moment ν) (name : String) (use : NameUse) :
    List (Moment ν) :=
  (Attempt.named moment.machine name use).history.map fun raised =>
    { raised with steps := moment.steps }

theorem answer_start (operation : Operation) (machine : Machine ν)
    (name : String) (use : NameUse) :
    (start operation machine).answer name use =
      (Attempt.named machine name use).history := by
  unfold answer start
  cases Attempt.named machine name use <;> rfl

/-- Whether the use of a name, if the moment is one, is followed by its
failure, if it fails. -/
def Answered (moment : Moment ν) (rest : List (Moment ν)) : Prop :=
  ∀ use name, moment.event = .begins (.named use name) →
    moment.answer name use <+: rest

theorem Answered.append {moment : Moment ν} {rest : List (Moment ν)}
    (answered : moment.Answered rest) (more : List (Moment ν)) :
    moment.Answered (rest ++ more) := by
  intro use name begins
  exact (answered use name begins).trans (List.prefix_append rest more)

theorem Answered.withinStep {moment : Moment ν} {rest : List (Moment ν)}
    (answered : moment.Answered rest) :
    moment.withinStep.Answered (rest.map Moment.withinStep) := by
  intro use name begins
  have mapped := (answered use name begins).map Moment.withinStep
  rwa [answer, List.map_map] at mapped

end Moment

/-- Whether the first store becomes the last one on the way through the given
moments, each of which finds it as the one in front left it. -/
def StorePath (host : Host ν) :
    Bindings → List (Moment ν) → Bindings → Prop
  | first, [], last => first = last
  | first, moment :: rest, last =>
      moment.machine.store = first ∧ moment.Answered rest ∧
      StorePath host (moment.storeBehind host) rest last

namespace StorePath

variable {host : Host ν} {first middle last : Bindings}
  {moments rest : List (Moment ν)}

theorem append (one : StorePath host first moments middle)
    (two : StorePath host middle rest last) :
    StorePath host first (moments ++ rest) last := by
  induction moments generalizing first with
  | nil => exact one ▸ two
  | cons moment moments ih =>
      obtain ⟨here, answered, later⟩ := one
      exact ⟨here, answered.append rest, ih later⟩

/-- It does not matter how many steps a moment lies in. -/
theorem withinStep (path : StorePath host first moments last) :
    StorePath host first (moments.map Moment.withinStep) last := by
  induction moments generalizing first with
  | nil => exact path
  | cons moment moments ih =>
      obtain ⟨here, answered, later⟩ := path
      exact ⟨here, answered.withinStep, ih later⟩

/-- From each moment on, a path goes on to the same end. -/
theorem ofAppend (path : StorePath host first (moments ++ rest) last) :
    ∃ middle, StorePath host middle rest last := by
  induction moments generalizing first with
  | nil => exact ⟨first, path⟩
  | cons moment moments ih => exact ih path.2.2

/-- The raise of a fault leaves the store of the attempt. -/
theorem ofAttempt {attempt : Attempt ν}
    (leaves : attempt.machine.store = first) :
    StorePath host first attempt.history attempt.settle.2.store := by
  cases attempt with
  | finished outcome left => exact leaves.symm
  | faulted fault left => exact ⟨leaves, nofun, rfl⟩

/-- An operation that uses no name is followed by anything. -/
theorem start {operation : Operation} {machine : Machine ν}
    (path : StorePath host (operation.storeBehind machine) moments last)
    (other : ∀ attempt,
      Plan.ofOperation machine operation ≠ .settle attempt) :
    StorePath host machine.store (.start operation machine :: moments)
      last := by
  refine ⟨rfl, fun use name begins => ?_, path⟩
  cases begins
  exact absurd rfl (other _)

end StorePath

/-- The machine behind a step has the store that the callable left. -/
theorem Visit.store_of_judge {visit : Visit ν} {ended : Execution ν}
    {step : Step ν} (judged : visit.judge ended = step) :
    step.machine.store = ended.2.store := by
  rw [← judged, judge, Step.machine_ofExecution]

/-- A step of a visit goes on to the machine that it was judged to leave. -/
theorem StorePath.ofStep {host : Host ν} {visit : Visit ν} {element : Value}
    {moments : List (Moment ν)} {ended : Execution ν} {step : Step ν}
    (path : StorePath host (visit.step element).store moments ended.2.store)
    (judged : visit.judge ended = step) :
    StorePath host visit.below.store (moments.map Moment.withinStep)
      step.machine.store := by
  rw [Visit.store_of_judge judged]
  exact path.withinStep

/-- Every run takes the store from moment to moment. -/
theorem storePaths (host : Host ν) :
    RunCases host
      (fun _ _ machine moments ended =>
        StorePath host machine.store moments ended.2.store)
      (fun _ _ _ _ machine moments ended =>
        StorePath host machine.store moments ended.2.store)
      (fun _ visit moments passage =>
        StorePath host visit.below.store moments passage.machine.store) where
  settle := by
    intro fuel operation machine attempt planned
    have passed := Plan.passesOn_of_planned planned
    refine ⟨rfl, fun use name begins => ?_, .ofAttempt passed⟩
    cases begins
    cases planned
    exact Moment.answer_start .. ▸ List.prefix_rfl
  consult := by
    intro fuel operation machine symbol planned
    have passed := Plan.passesOn_of_planned planned
    refine .start ⟨passed, nofun, rfl⟩ (by simp [planned])
  handOver := by
    intro fuel operation machine other below moments ended planned path
    have passed := Plan.passesOn_of_planned planned
    refine .start ?_ (by simp [planned])
    rw [← passed]
    exact path
  starve := by
    intro fuel operation machine slots operations planned taken
    have passed := Plan.passesOn_of_planned planned
    refine .start ?_ (by simp [planned])
    have same := machine.store_notify .entering slots operations
    rw [← passed, Machine.store_notify]
    exact ⟨same, nofun, rfl⟩
  activate := by
    intro fuel operation machine slots operations values below moments ended
      planned taken path
    have passed := Plan.passesOn_of_planned planned
    have same := Machine.store_of_takeTop? taken
    rw [Machine.store_notify, passed] at same
    refine .start ?_ (by simp [planned])
    rw [Machine.store_pushFrame, same] at path
    simpa using path
  goThrough := by
    intro fuel operation machine visit moments passage planned path
    have passed := Plan.passesOn_of_planned planned
    refine .start ?_ (by simp [planned])
    rw [← passed]
    exact path.append (.ofAttempt (by cases passage <;> rfl))
  finish := by
    intro fuel slots operations index machine found
    rfl
  resume := by
    intro fuel slots operations index machine operation moments ended later
      rest final found path resumed pathLater
    rw [Machine.store_notify] at path
    exact path.append pathLater
  leave := by
    intro fuel slots operations index machine operation moments ended found
      path resumed
    rw [Machine.store_notify] at path
    exact path
  complete := by
    intro fuel visit done
    rfl
  halt := by
    intro fuel visit element elements moments ended left more path judged
    exact path.ofStep judged
  mislead := by
    intro fuel visit element elements moments ended left more path judged
    exact path.ofStep judged
  reject := by
    intro fuel visit element elements moments ended value left code more path
      judged refused
    exact path.ofStep judged
  produce := by
    intro fuel visit element elements moments ended value left state rest
      passage more path judged accepted pathLater
    exact (path.ofStep judged).append pathLater

/-- The store at the first of the moments, or in the end if none comes. -/
def storeAt (left : Machine ν) : List (Moment ν) → Bindings
  | [] => left.store
  | moment :: _ => moment.machine.store

theorem StorePath.storeAt_eq {host : Host ν} {first : Bindings}
    {moments : List (Moment ν)} {left : Machine ν}
    (path : StorePath host first moments left.store) :
    storeAt left moments = first := by
  cases moments with
  | nil => exact path.symm
  | cons moment moments => exact path.1

namespace Moment

/-- Whether a native is called at a moment. -/
def CallsNative (moment : Moment ν) : Prop :=
  ∃ symbol, moment.event = .consults symbol

/-- The bound names behind a moment, given those at the moment. -/
def namesBehind (moment : Moment ν) (names : Set String) : Set String :=
  match moment.event with
  | .begins operation => operation.namesBehind moment.machine names
  | _ => names

/-- A bound name keeps its value at every moment that does not clear it. -/
theorem get?_storeBehind {host : Host ν} {moment : Moment ν} {name : String}
    {value : Value} (quiet : ¬ moment.CallsNative)
    (uncleared : moment.event ≠ .begins (.named .clear name))
    (bound : moment.machine.store.get? name = some value) :
    (moment.storeBehind host).get? name = some value := by
  unfold storeBehind
  cases happens : moment.event with
  | consults symbol => exact absurd ⟨symbol, happens⟩ quiet
  | raises code => exact bound
  | begins operation =>
      dsimp only
      unfold Operation.storeBehind
      split
      · split
        · exact bound
        · rw [Bindings.get?_setIfFree, bound, Option.some_or]
      · next other =>
          have differs : name ≠ other := by
            rintro rfl
            exact uncleared happens
          rw [Bindings.get?_erase, if_neg differs, bound]
      · exact bound

theorem names_storeBehind {host : Host ν} {moment : Moment ν}
    (quiet : ¬ moment.CallsNative) :
    (moment.storeBehind host).names =
      moment.namesBehind moment.machine.store.names := by
  unfold storeBehind namesBehind
  cases happens : moment.event with
  | consults symbol => exact absurd ⟨symbol, happens⟩ quiet
  | raises code => rfl
  | begins operation =>
      exact operation.names_storeBehind moment.machine

/-- A `store` to a bound name leaves the store as it is. -/
theorem storeBehind_of_taken {host : Host ν} {moment : Moment ν}
    {name : String} (stores : moment.event = .begins (.named .store name))
    (taken : moment.machine.store.contains name = true) :
    moment.storeBehind host = moment.machine.store := by
  simp only [storeBehind, stores, Operation.storeBehind]
  split
  · rfl
  · exact Bindings.setIfFree_of_taken taken

/-- A `store` of a value to a bound name fails and puts the value back. -/
theorem answer_of_taken {moment : Moment ν} {name : String} {value : Value}
    {below : List Value} (stack : moment.machine.stack = value :: below)
    (taken : moment.machine.store.contains name = true) :
    moment.answer name .store =
      [{ event := .raises .alreadyExisting
         machine :=
          { moment.machine with
            stack := .error .alreadyExisting :: value :: below }
         steps := moment.steps }] := by
  simp only [answer, Attempt.named, Attempt.store, stack, Machine.define?,
    Bindings.define?, taken, if_true, Option.map_none]
  rfl

end Moment

namespace StorePath

variable {host : Host ν} {first last : Bindings}

/-- A bound name keeps its value through moments that do not clear it. -/
theorem get?_storeAt {during after : List (Moment ν)} {left : Machine ν}
    {name : String} {value : Value}
    (path : StorePath host first (during ++ after) left.store)
    (quiet : ∀ moment ∈ during, ¬ moment.CallsNative)
    (uncleared : ∀ moment ∈ during,
      moment.event ≠ .begins (.named .clear name))
    (bound : first.get? name = some value) :
    (storeAt left after).get? name = some value := by
  induction during generalizing first with
  | nil =>
      rw [List.nil_append] at path
      rwa [path.storeAt_eq]
  | cons moment during ih =>
      obtain ⟨here, -, later⟩ := path
      obtain ⟨quietHere, quietLater⟩ := List.forall_mem_cons.mp quiet
      obtain ⟨unclearedHere, unclearedLater⟩ :=
        List.forall_mem_cons.mp uncleared
      rw [← here] at bound
      exact ih later quietLater unclearedLater
        (Moment.get?_storeBehind quietHere unclearedHere bound)

/-- The bound names change as the moments say, one after the other. -/
theorem names_eq {moments : List (Moment ν)}
    (path : StorePath host first moments last)
    (quiet : ∀ moment ∈ moments, ¬ moment.CallsNative) :
    last.names =
      moments.foldl (fun names moment => moment.namesBehind names)
        first.names := by
  induction moments generalizing first with
  | nil => exact congrArg Bindings.names path.symm
  | cons moment moments ih =>
      obtain ⟨here, -, later⟩ := path
      obtain ⟨quietHere, quietLater⟩ := List.forall_mem_cons.mp quiet
      rw [List.foldl_cons, ← here, ← Moment.names_storeBehind quietHere]
      exact ih later quietLater

end StorePath

/-- What a run without natives does to the globals, as its history and the
machine that it leaves tell. -/
structure FirstWritesWin (machine : Machine ν) (moments : List (Moment ν))
    (left : Machine ν) : Prop where
  /-- A bound name has the same value at every later moment and in the end,
  unless it is cleared in between. -/
  kept : ∀ {before during after name value},
    moments = before ++ (during ++ after) →
      (storeAt left (during ++ after)).get? name = some value →
        (∀ moment ∈ during,
          moment.event ≠ .begins (.named .clear name)) →
          (storeAt left after).get? name = some value
  /-- A `store` to a bound name leaves the store as it is. -/
  ignored : ∀ {before moment after name},
    moments = before ++ moment :: after →
      moment.event = .begins (.named .store name) →
        moment.machine.store.contains name = true →
          storeAt left after = moment.machine.store
  /-- If there is a value to be stored, the next thing that happens is a
  failure that puts it back. -/
  refused : ∀ {before moment after name value below},
    moments = before ++ moment :: after →
      moment.event = .begins (.named .store name) →
        moment.machine.store.contains name = true →
          moment.machine.stack = value :: below →
            ∃ rest, after =
              { event := .raises .alreadyExisting
                machine :=
                  { moment.machine with
                    stack := .error .alreadyExisting :: value :: below }
                steps := moment.steps } :: rest
  /-- The names bound in the end are those bound at first, with those stored
  and without those cleared, in the order of the run. -/
  names : left.store.names =
    moments.foldl (fun names moment => moment.namesBehind names)
      machine.store.names

/-- In every run that ends and calls no native, the first value stored under a
name stays until the name is cleared, however deep in blocks, calls and steps
of combinators this happens and whether or not the steps succeed. -/
theorem first_writes_win {host : Host ν} {fuel : Nat} {operation : Operation}
    {machine : Machine ν} {ended : Execution ν}
    (ends : execute host fuel operation machine = some ended)
    (quiet : ∀ moment ∈ history host fuel operation machine,
      ¬ moment.CallsNative) :
    FirstWritesWin machine (history host fuel operation machine)
      ended.2 := by
  have path := (storePaths host).ofExecute ends
  refine ⟨?_, ?_, ?_, path.names_eq quiet⟩
  · intro before during after name value split bound uncleared
    rw [split] at path quiet
    obtain ⟨middle, rest⟩ := path.ofAppend
    rw [rest.storeAt_eq] at bound
    refine rest.get?_storeAt (fun moment member => ?_) uncleared bound
    exact quiet moment (by simp [member])
  · intro before moment after name split stores taken
    rw [split] at path
    obtain ⟨middle, -, -, later⟩ := path.ofAppend
    rw [later.storeAt_eq, Moment.storeBehind_of_taken stores taken]
  · intro before moment after name value below split stores taken stack
    rw [split] at path
    obtain ⟨middle, -, answered, -⟩ := path.ofAppend
    obtain ⟨rest, follows⟩ := answered .store name stores
    rw [Moment.answer_of_taken stack taken] at follows
    exact ⟨rest, follows.symm⟩

/-- A step that stores under a free name and then under a bound one fails and
makes `map` fail, but what it stored first stays. -/
theorem failed_step_keeps_first_writes :
    let host : Host Empty := nofun
    let step : Operation :=
      .block []
        [.named .store "fresh", .push (.number 2), .named .store "taken"]
    let maps : Operation :=
      .block []
        [.push (.tuple [.number 1]), .push (.operation step),
          .primitive .map]
    let machine : Machine Empty :=
      { store := .ofPairs [("taken", .number 7)] }
    let left : Machine Empty :=
      { stack :=
          [.error .unexpectedResult, .operation step, .tuple [.number 1]]
        store := .ofPairs [("fresh", .number 1), ("taken", .number 7)] }
    execute host 12 maps machine = some (.error, left) ∧
      (∀ moment ∈ history host 12 maps machine, ¬ moment.CallsNative) ∧
      FirstWritesWin machine (history host 12 maps machine) left := by
  intro host step maps machine left
  have ends : execute host 12 maps machine = some (.error, left) := by
    simp only [host, machine, left, maps, step]
    rfl
  have quiet : ∀ moment ∈ history host 12 maps machine,
      ¬ moment.CallsNative := by
    rintro moment - ⟨symbol, -⟩
    exact symbol.elim
  exact ⟨ends, quiet, first_writes_win ends quiet⟩

end StackAssembly
