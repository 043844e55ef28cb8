import StackAssembly.Proofs.Machine.Relocation

/-!
# The scope of slots

The slots of a block live as long as its activation.  A block binds them to
the values on top of the stack, runs its operations with these bindings as the
innermost frame, and leaves all frames as it found them.  While it runs, the
frames around it are neither changed nor looked at, so that activations of one
and the same block within each other do not share their slots.
-/

namespace StackAssembly

variable {ν : Type}

namespace Bindings

/-- Of several pairs with one name the last is found. -/
theorem get?_setAll (bindings : Bindings) (pairs : List (String × Value))
    (name : String) :
    (bindings.setAll pairs).get? name =
      ((pairs.reverse.find? fun pair => pair.1 == name).map Prod.snd).or
        (bindings.get? name) := by
  induction pairs generalizing bindings with
  | nil => simp [setAll]
  | cons pair pairs ih =>
      obtain ⟨bound, value⟩ := pair
      rw [setAll, ih, get?_set, List.reverse_cons, List.find?_append]
      by_cases same : bound = name
      · subst same
        cases pairs.reverse.find? fun pair => pair.1 == bound <;> simp
      · have other : ¬ name = bound := fun equal => same equal.symm
        cases pairs.reverse.find? fun pair => pair.1 == name <;>
          simp [same, other]

theorem get?_ofPairs_eq_some_iff {pairs : List (String × Value)}
    {name : String} {value : Value} :
    (ofPairs pairs).get? name = some value ↔
      ∃ before after, pairs = before ++ (name, value) :: after ∧
        ∀ pair ∈ after, pair.1 ≠ name := by
  rw [ofPairs, get?_setAll, get?_empty, Option.or_none,
    Option.map_eq_some_iff]
  constructor
  · rintro ⟨⟨bound, last⟩, found, rfl⟩
    obtain ⟨named, after, before, split, others⟩ :=
      List.find?_eq_some_iff_append.mp found
    have same : bound = name := by simpa using named
    refine ⟨before.reverse, after.reverse, ?_, ?_⟩
    · rw [← List.reverse_reverse pairs, split, ← same]
      simp
    · intro pair member
      simpa using others pair (List.mem_reverse.mp member)
  · rintro ⟨before, after, rfl, others⟩
    refine ⟨(name, value), List.find?_eq_some_iff_append.mpr
      ⟨by simp, after.reverse, before.reverse, by simp, ?_⟩, rfl⟩
    intro pair member
    simpa using others pair (List.mem_reverse.mp member)

end Bindings

/-- Whether a frame binds each slot to the value at its last index, and
nothing else. -/
def BindsSlots (slots : List String) (values : List Value)
    (frame : Bindings) : Prop :=
  ∀ name value, frame.get? name = some value ↔
    ∃ index : Nat, slots[index]? = some name ∧
      values[index]? = some value ∧
      ∀ later, index < later → slots[later]? ≠ some name

theorem bindsSlots_ofPairs {slots : List String} {values : List Value}
    (length : values.length = slots.length) :
    BindsSlots slots values (.ofPairs (slots.zip values)) := by
  intro name value
  rw [Bindings.get?_ofPairs_eq_some_iff]
  constructor
  · rintro ⟨before, after, split, others⟩
    have found : (slots.zip values)[before.length]? = some (name, value) := by
      simp [split]
    obtain ⟨named, valued⟩ := List.getElem?_zip_eq_some.mp found
    refine ⟨before.length, named, valued, fun later behind again => ?_⟩
    have bound : later < values.length := by
      rw [length]
      exact (List.getElem?_eq_some_iff.mp again).1
    have pair : (slots.zip values)[later]? = some (name, values[later]) :=
      List.getElem?_zip_eq_some.mpr ⟨again, List.getElem?_eq_getElem bound⟩
    rw [split, List.getElem?_append_right (by omega)] at pair
    obtain ⟨offset, more⟩ :
        ∃ offset, later - before.length = offset + 1 :=
      ⟨later - before.length - 1, by omega⟩
    rw [more, List.getElem?_cons_succ] at pair
    exact others _ (List.mem_of_getElem? pair) rfl
  · rintro ⟨index, named, valued, last⟩
    have found : (slots.zip values)[index]? = some (name, value) :=
      List.getElem?_zip_eq_some.mpr ⟨named, valued⟩
    obtain ⟨bound, here⟩ := List.getElem?_eq_some_iff.mp found
    refine ⟨(slots.zip values).take index,
      (slots.zip values).drop (index + 1), ?_, ?_⟩
    · rw [← here, List.getElem_cons_drop, List.take_append_drop]
    · intro pair member same
      obtain ⟨offset, there⟩ := List.mem_iff_getElem?.mp member
      rw [List.getElem?_drop] at there
      have again := (List.getElem?_zip_eq_some.mp there).1
      rw [same] at again
      exact last (index + 1 + offset) (by omega) again

/-- Whether natives come to the same whatever frames lie around the innermost
one, as natives do that have no other access to the slots than to execute
operations. -/
def Host.IgnoresOuterFrames (host : Host ν) : Prop :=
  ∀ (outer others : Frames) (earlier : List Notification) (symbol : ν),
    host.Agrees { frames := outer, earlier } { frames := others, earlier }
      symbol

/-- An activation neither looks at the frames around it nor changes them. -/
theorem execute_block_within_frames {host : Host ν}
    (blind : host.IgnoresOuterFrames) {fuel : Nat} {slots : List String}
    {operations : List Operation} {machine : Machine ν}
    {ended : Execution ν}
    (ends : execute host fuel (.block slots operations) machine =
      some ended) (others : Frames) :
    ∃ trace, execute host fuel (.block slots operations)
      { machine with frames := others } =
        some (ended.1, { ended.2 with frames := others, trace }) := by
  let core : Machine ν :=
    { machine with frames := [], trace := machine.trace.map fun _ => [] }
  let earlier : List Notification := machine.trace.getD []
  have placed (outer : Frames) : { machine with frames := outer } =
      core.within { frames := outer, earlier } := by
    cases listener : machine.trace <;>
      simp [core, earlier, listener, Machine.within]
  obtain ⟨inner, length, rfl, run⟩ :=
    (repeated host { frames := others, earlier } rfl).ofExecute ends core
      (placed machine.frames)
      (fun apart => absurd rfl (apart slots operations)) (by
        rintro ⟨event, moment, steps⟩ -
        cases event with
        | begins operation => exact .inl rfl
        | consults symbol => exact blind machine.frames others earlier symbol
        | raises code => exact .inl rfl)
  have closed : inner.2.frames = [] := List.eq_nil_of_length_eq_zero length
  rw [placed others, run]
  refine ⟨(inner.2.within { frames := others, earlier }).trace, ?_⟩
  simp [Execution.within, Machine.within, closed]

section Entry

variable {slots : List String} {operations : List Operation}
  {machine : Machine ν} {values base : List Value}

theorem Machine.takeTop?_of_append (length : values.length = slots.length)
    (stack : machine.stack = values.reverse ++ base) :
    machine.takeTop? slots.length =
      some (values, { machine with stack := base }) := by
  unfold takeTop?
  rw [stack, ← length, ← List.length_reverse]
  simp

theorem Machine.takeTop?_of_short
    (few : machine.stack.length < slots.length) :
    machine.takeTop? slots.length = none := by
  unfold takeTop?
  simp only [List.length_take]
  rw [if_pos (by omega)]

theorem Machine.notify_eq (machine : Machine ν) (event : BlockEvent)
    (slots : List String) (operations : List Operation) :
    ∃ trace, machine.notify event slots operations =
      { machine with trace } := by
  unfold notify
  split
  · exact ⟨machine.trace, rfl⟩
  · exact ⟨_, rfl⟩

/-- A block with enough values on the stack runs its operations without these
values, in a new frame that binds its slots to them. -/
theorem execute_block_of_append (host : Host ν) (fuel : Nat)
    (length : values.length = slots.length)
    (stack : machine.stack = values.reverse ++ base) :
    ∃ frame trace, BindsSlots slots values frame ∧
      execute host (fuel + 1) (.block slots operations) machine =
        (executeBody host fuel slots operations 0
          { machine with
            stack := base
            frames := frame :: machine.frames
            trace }).map fun ended =>
          (ended.1, ended.2.popFrame.notify .leaving slots operations) := by
  obtain ⟨trace, entered⟩ := machine.notify_eq .entering slots operations
  have taken : (machine.notify .entering slots operations).takeTop?
      slots.length = some (values, { machine with stack := base, trace }) := by
    rw [entered]
    exact Machine.takeTop?_of_append length stack
  refine ⟨.ofPairs (slots.zip values), trace, bindsSlots_ofPairs length, ?_⟩
  rw [execute_block, runBlock_of_taken taken]
  rfl

/-- A block with too few values on the stack opens no frame and executes no
operation. -/
theorem execute_block_of_short (host : Host ν) (fuel : Nat)
    (few : machine.stack.length < slots.length) :
    (∃ trace, execute host (fuel + 1) (.block slots operations) machine =
      some (.error, { machine with
        stack := .error .insufficientArguments :: machine.stack, trace })) ∧
    (history host (fuel + 1) (.block slots operations) machine).map
      Moment.event =
        [.begins (.block slots operations),
          .raises .insufficientArguments] := by
  obtain ⟨trace, entered⟩ := machine.notify_eq .entering slots operations
  have taken : (machine.notify .entering slots operations).takeTop?
      slots.length = none := by
    rw [entered]
    exact Machine.takeTop?_of_short few
  constructor
  · obtain ⟨later, left⟩ :=
      ((machine.notify .entering slots operations).raise
        { code := .insufficientArguments }).notify_eq .leaving slots
          operations
    refine ⟨later, ?_⟩
    rw [execute_block, runBlock_of_starved taken, left, entered]
    rfl
  · simp only [history, Plan.ofOperation, activationHistory, taken]
    rfl

end Entry

section Restart

variable {slots : List String} {operations : List Operation} {index : Nat}

/-- The outcome of `loop` sends a block back to its first operation, in the
frame that it has. -/
theorem executeBody_of_restart {host : Host ν} {fuel : Nat}
    {operation : Operation} {machine next : Machine ν}
    (found : operations[index]? = some operation)
    (ends : execute host fuel operation
      (machine.notify (.executing index) slots operations) =
        some (.restartBlock, next)) :
    executeBody host (fuel + 1) slots operations index machine =
      executeBody host fuel slots operations 0 next := by
  rw [executeBody_succ, found]
  simp only [ends, Option.bind_some]
  rfl

theorem executeBody_restart (host : Host ν) (fuel : Nat)
    {machine : Machine ν}
    (found : operations[index]? = some (.primitive .restart)) :
    ∃ trace, executeBody host (fuel + 2) slots operations index machine =
      executeBody host (fuel + 1) slots operations 0
        { machine with trace } := by
  obtain ⟨trace, begun⟩ :=
    machine.notify_eq (.executing index) slots operations
  refine ⟨trace, executeBody_of_restart found ?_⟩
  rw [begun]
  rfl

end Restart

/-- What the scope of slots comes to, for the runs with the natives of a
host. -/
structure SlotsAreScoped (host : Host ν) : Prop where
  /-- A block leaves the frames as it found them, whatever it comes to. -/
  restored : ∀ {fuel slots operations machine ended},
    execute host fuel (.block slots operations) machine = some ended →
      ended.2.frames = machine.frames
  /-- No operation changes the number of frames or another frame than the
  innermost one. -/
  outerKept : ∀ {fuel operation machine ended},
    execute host fuel operation machine = some ended →
      ended.2.frames.length = machine.frames.length ∧
      ended.2.frames.tail = machine.frames.tail
  /-- A block with a value for each slot runs its operations on the stack
  beneath these values, in one new frame that binds each slot to the value at
  its last index and binds nothing else. -/
  entered : ∀ {fuel slots operations} {machine : Machine ν} {values base},
    values.length = slots.length →
      machine.stack = values.reverse ++ base →
        ∃ frame trace, BindsSlots slots values frame ∧
          execute host (fuel + 1) (.block slots operations) machine =
            (executeBody host fuel slots operations 0
              { machine with
                stack := base
                frames := frame :: machine.frames
                trace }).map fun ended =>
              (ended.1, ended.2.popFrame.notify .leaving slots operations)
  /-- Behind an operation that restarts the block, its first operation comes
  next, on the machine that was left. -/
  restarted : ∀ {fuel slots operations index operation} {machine next},
    operations[index]? = some operation →
      execute host fuel operation
        (machine.notify (.executing index) slots operations) =
          some (.restartBlock, next) →
        executeBody host (fuel + 1) slots operations index machine =
          executeBody host fuel slots operations 0 next
  /-- In particular `loop` keeps the stack and the frames. -/
  looped : ∀ {fuel slots operations index} {machine : Machine ν},
    operations[index]? = some (.primitive .restart) →
      ∃ trace, executeBody host (fuel + 2) slots operations index machine =
        executeBody host (fuel + 1) slots operations 0
          { machine with trace }
  /-- A block with too few values for its slots puts an error on the stack and
  leaves everything else alike; nothing else happens. -/
  starved : ∀ {fuel slots operations} {machine : Machine ν},
    machine.stack.length < slots.length →
      (∃ trace, execute host (fuel + 1) (.block slots operations) machine =
        some (.error, { machine with
          stack := .error .insufficientArguments :: machine.stack
          trace })) ∧
      (history host (fuel + 1) (.block slots operations) machine).map
        Moment.event =
          [.begins (.block slots operations),
            .raises .insufficientArguments]
  /-- As long as a block runs, the frames around it are there unchanged. -/
  unchanged : ∀ {fuel slots operations machine ended},
    execute host fuel (.block slots operations) machine = some ended →
      ∀ moment ∈ history host fuel (.block slots operations) machine,
        machine.frames <:+ moment.machine.frames
  /-- With other frames around it, a block does the same. -/
  unseen : host.IgnoresOuterFrames →
    ∀ {fuel slots operations machine ended} (others : Frames),
      execute host fuel (.block slots operations) machine = some ended →
        ∃ trace, execute host fuel (.block slots operations)
          { machine with frames := others } =
            some (ended.1, { ended.2 with frames := others, trace })

/-- Slots are bound by the activation of their block and seen by nothing
else, as long as natives leave them alone. -/
theorem slots_are_scoped {host : Host ν} (natives : host.KeepsOuterFrames) :
    SlotsAreScoped host where
  restored ends :=
    (((framesKept natives).ofExecute ends).block _ _ rfl).1
  outerKept ends := ((framesKept natives).ofExecute ends).outer
  entered length stack := execute_block_of_append host _ length stack
  restarted found ends := executeBody_of_restart found ends
  looped found := executeBody_restart host _ found
  starved few := execute_block_of_short host _ few
  unchanged ends :=
    (((framesKept natives).ofExecute ends).block _ _ rfl).2
  unseen blind _ _ _ _ _ others ends :=
    execute_block_within_frames blind ends others

/-- A block that calls itself with smaller and smaller numbers, down to
zero. -/
def countdown : Operation :=
  .block ["left"]
    [.named .loadSlot "left", .push (.number 0), .primitive .eq,
      .ifTrue (.primitive .exit), .push (.number 1),
      .named .loadSlot "left", .primitive .sub, .primitive .dup,
      .call "countdown" []]

/-- Each activation has its own number, and the slot of that name around them
is neither used nor changed. -/
theorem countdown_slots_are_scoped :
    let host : Host Unit := fun _ machine => (.success, machine.push .empty)
    let machine : Machine Unit :=
      { stack := [.number 2]
        store := .ofPairs [("countdown", .operation countdown)]
        frames := [.ofPairs [("left", .boolean true)]] }
    let left : Machine Unit :=
      { machine with stack := [.number 0, .number 1] }
    host.KeepsOuterFrames ∧ host.IgnoresOuterFrames ∧
      execute host 32 countdown machine = some (.success, left) ∧
      left.frames = machine.frames ∧
      ∃ trace, execute host 32 countdown { machine with frames := [] } =
        some (.success, { left with frames := [], trace }) := by
  intro host machine left
  have natives : host.KeepsOuterFrames := fun _ machine => .refl _
  have blind : host.IgnoresOuterFrames :=
    fun _ _ _ _ core _ _ => ⟨(.success, core.push .empty), rfl, rfl, rfl⟩
  have ends : execute host 32 countdown machine = some (.success, left) := by
    simp only [host, machine, left]
    rfl
  exact ⟨natives, blind, ends, (slots_are_scoped natives).restored ends,
    (slots_are_scoped natives).unseen blind [] ends⟩

end StackAssembly
