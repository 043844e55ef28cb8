import StackAssembly.Proofs.Machine.Relocation

/-!
# Runs do not look beneath the values they use

A run that neither empties the stack, nor calls natives, nor runs out of
values works on the upper part of the stack alone.  With other values beneath,
it comes to the same outcome, leaves those values where they are and gives the
same notifications.
-/

namespace StackAssembly

variable {ν : Type}

/-- Whether something that happens in a run concerns the used part of the
stack only. -/
def RunEvent.staysAbove : RunEvent ν → Bool
  | .begins (.primitive .resetStack) => false
  | .consults _ => false
  | .raises .insufficientArguments => false
  | _ => true

theorem RunEvent.moves_of_staysAbove {event : RunEvent ν} (host : Host ν)
    (here there : Surroundings) (stays : event.staysAbove) :
    event.Moves host here there := by
  cases event with
  | begins operation =>
      right
      rintro rfl
      cases stays
  | consults symbol => cases stays
  | raises code =>
      right
      rintro rfl
      cases stays

/-- Whether somebody listens to a machine. -/
def Machine.listened (machine : Machine ν) : Bool :=
  machine.trace.isSome

theorem Machine.Keeps.listened {machine left : Machine ν}
    (kept : machine.Keeps left) : left.listened = machine.listened := by
  rw [Machine.listened, Machine.listened, kept.trace]

@[simp]
theorem Machine.listened_notify (machine : Machine ν) (event : BlockEvent)
    (slots : List String) (operations : List Operation) :
    (machine.notify event slots operations).listened = machine.listened := by
  unfold notify
  split
  · rfl
  · next listener => simp [listened, listener]

@[simp]
theorem Machine.listened_raise (machine : Machine ν) (fault : Fault) :
    (machine.raise fault).listened = machine.listened :=
  rfl

@[simp]
theorem Machine.listened_popFrame (machine : Machine ν) :
    machine.popFrame.listened = machine.listened :=
  rfl

@[simp]
theorem Attempt.listened_settle (attempt : Attempt ν) :
    attempt.settle.2.listened = attempt.machine.listened := by
  rw [Machine.listened, Machine.listened, trace_settle]

@[simp]
theorem Passage.listened_conclude (operands : List Value)
    (passage : Passage ν) :
    (passage.conclude operands).machine.listened =
      passage.machine.listened := by
  rw [Machine.listened, Machine.listened, trace_conclude]

theorem Visit.listened_of_judge {visit : Visit ν} {ended : Execution ν}
    {step : Step ν} (judged : visit.judge ended = step) :
    step.machine.listened = ended.2.listened := by
  rw [Machine.listened, Machine.listened, trace_of_judge judged]

/-- Whether nothing in a run calls a native. -/
def CallsNoNative (moments : List (Moment ν)) : Prop :=
  ∀ moment ∈ moments, ∀ symbol, moment.event ≠ .consults symbol

/-- Only natives can take a listener on or off. -/
theorem listenerKept (host : Host ν) :
    RunCases host
      (fun _ _ machine moments ended => CallsNoNative moments →
        ended.2.listened = machine.listened)
      (fun _ _ _ _ machine moments ended => CallsNoNative moments →
        ended.2.listened = machine.listened)
      (fun _ visit moments passage => CallsNoNative moments →
        passage.machine.listened = visit.below.listened) where
  settle := by
    intro fuel operation machine attempt planned quiet
    have kept := Plan.keeps_ofOperation machine operation
    rw [planned] at kept
    rw [Attempt.listened_settle]
    exact Machine.Keeps.listened kept
  consult := by
    intro fuel operation machine symbol planned quiet
    exact absurd rfl (quiet _ (List.mem_cons_of_mem _
      (List.mem_singleton_self _)) symbol)
  handOver := by
    intro fuel operation machine other below moments ended planned kept quiet
    have same := Plan.keeps_ofOperation machine operation
    rw [planned] at same
    rw [kept (List.forall_mem_cons.mp quiet).2, Machine.listened, same.2]
    rfl
  starve := by
    intro fuel operation machine slots operations planned taken quiet
    simp
  activate := by
    intro fuel operation machine slots operations values below moments ended
      planned taken kept quiet
    have same := kept (List.forall_mem_cons.mp quiet).2
    rw [Machine.eq_of_takeTop? taken] at same
    simpa using same.trans
      (Machine.listened_notify machine .entering slots operations)
  goThrough := by
    intro fuel operation machine visit moments passage planned kept quiet
    obtain ⟨-, later⟩ := List.forall_mem_cons.mp quiet
    have same := Plan.keeps_ofOperation machine operation
    rw [planned] at same
    rw [Attempt.listened_settle, Passage.listened_conclude,
      kept (List.forall_mem_append.mp later).1, Machine.listened, same.2]
    rfl
  finish := by
    intro fuel slots operations index machine found quiet
    rfl
  resume := by
    intro fuel slots operations index machine operation moments ended later
      rest final found kept resumed goesOn quiet
    obtain ⟨first, second⟩ := List.forall_mem_append.mp quiet
    rw [goesOn second, kept first, Machine.listened_notify]
  leave := by
    intro fuel slots operations index machine operation moments ended found
      kept resumed quiet
    rw [kept quiet, Machine.listened_notify]
  complete := by
    intro fuel visit done quiet
    rfl
  halt := by
    intro fuel visit element elements moments ended left more kept judged
      quiet
    have same := Visit.listened_of_judge judged
    exact same.trans (kept (List.forall_mem_map.mp quiet))
  mislead := by
    intro fuel visit element elements moments ended left more kept judged
      quiet
    have same := Visit.listened_of_judge judged
    exact same.trans (kept (List.forall_mem_map.mp quiet))
  reject := by
    intro fuel visit element elements moments ended value left code more kept
      judged refused quiet
    have same := Visit.listened_of_judge judged
    exact same.trans (kept (List.forall_mem_map.mp quiet))
  produce := by
    intro fuel visit element elements moments ended value left state rest
      passage more kept judged accepted goesOn quiet
    obtain ⟨first, second⟩ := List.forall_mem_append.mp quiet
    have same := Visit.listened_of_judge judged
    exact (goesOn second).trans
      (same.trans (kept (List.forall_mem_map.mp first)))

/-- The machine with values beneath its stack. -/
def Machine.over (machine : Machine ν) (values : List Value) : Machine ν :=
  { machine with stack := machine.stack ++ values }

/-- A notification as it is given with values beneath the stack. -/
def Notification.over (notification : Notification) (values : List Value) :
    Notification :=
  { notification with
    stackLength := notification.stackLength + values.length }

theorem Machine.within_values (machine : Machine ν) (values : List Value)
    (earlier : List Notification) :
    machine.within { values, earlier } =
      { machine.over values with
        trace := machine.trace.map fun notifications =>
          notifications.map (·.over values) ++ earlier } := by
  simp only [within, Machine.over, List.append_nil]
  rfl

@[simp]
theorem Machine.over_nil (machine : Machine ν) :
    machine.over [] = machine := by
  simp [Machine.over]

@[simp]
theorem Notification.over_nil (notification : Notification) :
    notification.over [] = notification :=
  rfl

/-- A run that stays above the bottom of the stack does the same with other
values beneath: it ends with the same outcome, leaves everything but the stack
alike and the values beneath in their place, and gives the same notifications,
which show the longer stack. -/
theorem execute_over_values {host : Host ν} {fuel : Nat}
    {operation : Operation} {machine : Machine ν} {ended : Execution ν}
    (values : List Value)
    (ends : execute host fuel operation machine = some ended)
    (stays : ∀ moment ∈ history host fuel operation machine,
      moment.event.staysAbove) :
    ∃ given : List Notification,
      ended.2.trace = machine.trace.map (given ++ ·) ∧
      execute host fuel operation (machine.over values) =
        some (ended.1, { ended.2.over values with
          trace := machine.trace.map (given.map (·.over values) ++ ·) }) := by
  -- The run is one of the machine without its earlier notifications, in
  -- surroundings that hold nothing but these.
  let core : Machine ν :=
    { machine with trace := machine.trace.map fun _ => [] }
  let earlier : List Notification := machine.trace.getD []
  have placed (beneath : List Value) :
      machine.over beneath = core.within { values := beneath, earlier } := by
    rw [Machine.within_values]
    cases listener : machine.trace <;>
      simp [core, earlier, listener, Machine.over]
  have placedHere := placed []
  rw [Machine.over_nil] at placedHere
  obtain ⟨inner, -, rfl, run⟩ :=
    (repeated host { values, earlier } rfl).ofExecute ends core placedHere
      (fun _ => ⟨.inr rfl, .inr rfl⟩)
      fun moment member =>
        RunEvent.moves_of_staysAbove host _ _ (stays moment member)
  have listened := (listenerKept host).ofExecute ends
    fun moment member symbol called => by
      have above := stays moment member
      rw [called] at above
      cases above
  rw [placed values, run]
  obtain ⟨outcome, left⟩ := inner
  simp only [Execution.within, Machine.within_values, Machine.over_nil,
    Notification.over_nil, List.map_id_fun', id_eq] at listened ⊢
  cases listener : machine.trace with
  | none =>
      have silent : left.trace = none := by
        simpa [Machine.listened, listener] using listened
      refine ⟨[], ?_, ?_⟩
      · simp [silent]
      · simp [silent, Machine.over]
  | some notifications =>
      have heard : left.trace.isSome := by
        simpa [Machine.listened, listener] using listened
      obtain ⟨given, gave⟩ := Option.isSome_iff_exists.mp heard
      refine ⟨given, ?_, ?_⟩
      · simp [gave, earlier, listener]
      · simp [gave, earlier, listener, Machine.over]

/-- A block that doubles the numbers of a tuple, for which it has a slot. -/
def doubling : Operation :=
  .block ["numbers"]
    [.named .loadSlot "numbers",
      .push (.operation (.block [] [.push (.number 2), .primitive .mul])),
      .primitive .map]

/-- The numbers are doubled over a value that lies beneath. -/
theorem doubling_over_number :
    let host : Host Empty := nofun
    let machine : Machine Empty :=
      { stack := [.tuple [.number 3, .number 4]], trace := some [] }
    ∃ ended : Execution Empty,
      execute host 9 doubling machine = some ended ∧
      (∀ moment ∈ history host 9 doubling machine,
        moment.event.staysAbove) ∧
      ended.2.stack = [.tuple [.number 6, .number 8]] ∧
      ∃ given : List Notification,
        ended.2.trace = some (given ++ []) ∧
        execute host 9 doubling (machine.over [.number 5]) =
          some (ended.1, { ended.2.over [.number 5] with
            trace := some (given.map (·.over [.number 5]) ++ []) }) := by
  intro host machine
  have stays : ∀ moment ∈ history host 9 doubling machine,
      moment.event.staysAbove := by decide
  refine ⟨_, rfl, stays, ?_, ?_⟩
  · rfl
  · exact execute_over_values [.number 5] rfl stays

end StackAssembly
