import StackAssembly.Proofs.Machine.RunInduction

/-!
# Frames outlast what runs in them

Only the activation of a block opens a frame, and it closes this frame in the
end.  Everything else that touches the frames binds a slot of the innermost
one.  So an execution leaves as many frames as there were, each but the
innermost unchanged, and a block leaves all of them unchanged.  This holds at
every moment of a run and not only at its end.
-/

namespace StackAssembly

variable {ν : Type}

/-- Whether frames are as many as before, with every frame but the innermost
unchanged. -/
def OuterKept (earlier later : Frames) : Prop :=
  later.length = earlier.length ∧ later.tail = earlier.tail

@[simp]
theorem OuterKept.refl (frames : Frames) : OuterKept frames frames :=
  ⟨rfl, rfl⟩

theorem OuterKept.trans {first second third : Frames}
    (one : OuterKept first second) (two : OuterKept second third) :
    OuterKept first third :=
  ⟨two.1.trans one.1, two.2.trans one.2⟩

/-- Binding a slot changes the innermost frame only. -/
theorem outerKept_set? {frames later : Frames} {name : String}
    {value : Value} (bound : frames.set? name value = some later) :
    OuterKept frames later := by
  cases frames with
  | nil => cases bound
  | cons frame outer =>
      cases bound
      exact ⟨rfl, rfl⟩

namespace Machine

@[simp]
theorem frames_push (machine : Machine ν) (value : Value) :
    (machine.push value).frames = machine.frames :=
  rfl

@[simp]
theorem frames_pushAll (machine : Machine ν) (values : List Value) :
    (machine.pushAll values).frames = machine.frames :=
  rfl

@[simp]
theorem frames_raise (machine : Machine ν) (fault : Fault) :
    (machine.raise fault).frames = machine.frames :=
  rfl

@[simp]
theorem frames_pushFrame (machine : Machine ν)
    (pairs : List (String × Value)) :
    (machine.pushFrame pairs).frames = .ofPairs pairs :: machine.frames :=
  rfl

@[simp]
theorem frames_popFrame (machine : Machine ν) :
    machine.popFrame.frames = machine.frames.tail :=
  rfl

@[simp]
theorem frames_notify (machine : Machine ν) (event : BlockEvent)
    (slots : List String) (operations : List Operation) :
    (machine.notify event slots operations).frames = machine.frames := by
  unfold notify
  split <;> rfl

@[simp]
theorem trace_push (machine : Machine ν) (value : Value) :
    (machine.push value).trace = machine.trace :=
  rfl

@[simp]
theorem trace_pushAll (machine : Machine ν) (values : List Value) :
    (machine.pushAll values).trace = machine.trace :=
  rfl

theorem eq_of_takeTop? {machine below : Machine ν} {count : Nat}
    {values : List Value}
    (taken : machine.takeTop? count = some (values, below)) :
    below = { machine with stack := below.stack } := by
  unfold takeTop? at taken
  dsimp only at taken
  split at taken
  · cases taken
  · cases taken
    rfl

theorem frames_of_takeTop? {machine below : Machine ν} {count : Nat}
    {values : List Value}
    (taken : machine.takeTop? count = some (values, below)) :
    below.frames = machine.frames := by
  rw [eq_of_takeTop? taken]

theorem eq_of_pop? {machine below : Machine ν} {value : Value}
    (popped : machine.pop? = some (value, below)) :
    below = { machine with stack := below.stack } := by
  unfold pop? at popped
  split at popped
  · cases popped
  · cases popped
    rfl

/-- Whether a machine has the frames of another, but perhaps for a change of
the innermost one, and its notifications. -/
structure Keeps (machine left : Machine ν) : Prop where
  frames : OuterKept machine.frames left.frames
  trace : left.trace = machine.trace

@[simp]
theorem Keeps.refl (machine : Machine ν) : machine.Keeps machine :=
  ⟨.refl _, rfl⟩

@[simp]
theorem keeps_withStack (machine : Machine ν) (stack : List Value) :
    machine.Keeps { machine with stack } :=
  ⟨.refl _, rfl⟩

@[simp]
theorem keeps_push (machine left : Machine ν) (value : Value) :
    machine.Keeps (left.push value) ↔ machine.Keeps left :=
  ⟨fun kept => ⟨kept.frames, kept.trace⟩,
    fun kept => ⟨kept.frames, kept.trace⟩⟩

@[simp]
theorem keeps_pushAll (machine left : Machine ν) (values : List Value) :
    machine.Keeps (left.pushAll values) ↔ machine.Keeps left :=
  ⟨fun kept => ⟨kept.frames, kept.trace⟩,
    fun kept => ⟨kept.frames, kept.trace⟩⟩

end Machine

namespace Attempt

/-- The machine that an attempt leaves, in front of a raise. -/
def machine : Attempt ν → Machine ν
  | .finished _ left => left
  | .faulted _ left => left

@[simp]
theorem frames_settle (attempt : Attempt ν) :
    attempt.settle.2.frames = attempt.machine.frames := by
  cases attempt <;> rfl

@[simp]
theorem trace_settle (attempt : Attempt ν) :
    attempt.settle.2.trace = attempt.machine.trace := by
  cases attempt <;> rfl

@[simp]
theorem machine_succeed (left : Machine ν) : (succeed left).machine = left :=
  rfl

@[simp]
theorem machine_finished (outcome : Outcome) (left : Machine ν) :
    (finished outcome left).machine = left :=
  rfl

@[simp]
theorem machine_refuse (left : Machine ν) (code : ErrorCode)
    (operands : List Value) : (refuse left code operands).machine = left :=
  rfl

@[simp]
theorem machine_starved (left : Machine ν) : (starved left).machine = left :=
  rfl

@[simp]
theorem keeps_replace (machine below : Machine ν) (operands : List Value)
    (result : RuleResult) :
    machine.Keeps (replace below operands result).machine ↔
      machine.Keeps below := by
  cases result <;> simp [replace]

@[simp]
theorem keeps_apply (machine : Machine ν) (rule : StackRule) :
    machine.Keeps (apply machine rule).machine := by
  cases rule <;>
    simp only [apply] <;>
    split <;> simp

theorem keeps_pack (machine : Machine ν) :
    machine.Keeps (pack machine).machine := by
  unfold pack
  split
  · simp
  · dsimp only
    split
    · split
      · next left taken =>
          rw [Machine.eq_of_takeTop? taken]
          exact ⟨.refl _, rfl⟩
      · simp
    · simp

theorem keeps_named (machine : Machine ν) (name : String) (use : NameUse) :
    machine.Keeps (named machine name use).machine := by
  cases use with
  | load =>
      simp only [named, load]
      split <;> simp
  | store =>
      simp only [named, store]
      split
      · simp
      · split
        · next bound =>
            obtain ⟨store, -, rfl⟩ := Option.map_eq_some_iff.mp bound
            exact ⟨.refl _, rfl⟩
        · simp
  | clear =>
      simp only [named, clear]
      split
      · exact ⟨.refl _, rfl⟩
      · simp
  | loadSlot =>
      simp only [named, loadSlot]
      split <;> simp
  | storeSlot =>
      simp only [named, storeSlot]
      split
      · simp
      · split
        · next bound => exact ⟨outerKept_set? bound, rfl⟩
        · simp

theorem keeps_loadNative (machine : Machine ν) (path : String) :
    machine.Keeps (loadNative machine path).machine := by
  unfold loadNative
  split
  · next activated =>
      obtain ⟨library, -, rfl⟩ := Option.map_eq_some_iff.mp activated
      exact ⟨.refl _, rfl⟩
  · simp

end Attempt

namespace Plan

/-- Whether what is asked for keeps the frames of the machine, all but the
innermost where it is settled at once, and its notifications. -/
def Keeps (machine : Machine ν) : Plan ν → Prop
  | .settle attempt => machine.Keeps attempt.machine
  | .handOver _ below =>
      below.frames = machine.frames ∧ below.trace = machine.trace
  | .goThrough visit =>
      visit.below.frames = machine.frames ∧
        visit.below.trace = machine.trace
  | .consult _ | .activate _ _ => True

theorem keeps_ofPrimitive (machine : Machine ν) (which : Primitive) :
    (ofPrimitive which machine).Keeps machine := by
  unfold ofPrimitive
  split
  · simp [Keeps]
  · split
    case h_5 => simp [Keeps, Attempt.keeps_pack]
    case h_6 =>
      unfold ofTop callOr
      split
      · simp [Keeps]
      · split <;> simp [Keeps]
    case h_7 | h_8 =>
      unfold ofContainer
      split
      · dsimp only
        split <;> simp [Keeps]
      · simp [Keeps]
    case h_9 =>
      unfold ofReduce
      split
      · dsimp only
        split <;> simp [Keeps]
      · simp [Keeps]
    all_goals simp [Keeps]

/-- What operations ask for never touches the outer frames nor the
notifications. -/
theorem keeps_ofOperation (machine : Machine ν) (operation : Operation) :
    (ofOperation machine operation).Keeps machine := by
  cases operation with
  | primitive which => exact keeps_ofPrimitive machine which
  | push value => simp [ofOperation, Keeps]
  | ifTrue body =>
      simp only [ofOperation, ofIfTrue]
      split
      · simp [Keeps]
      · split <;> simp [Keeps]
  | select cases otherwise =>
      simp only [ofOperation, ofSelect, callOr]
      split
      · simp [Keeps]
      · split
        · split <;> simp [Keeps]
        · split <;> simp [Keeps]
  | named use name => exact Attempt.keeps_named machine name use
  | call target arguments =>
      simp only [ofOperation, ofCall]
      split
      · simp [Keeps]
      · split <;> simp [Keeps]
  | loadNative path => exact Attempt.keeps_loadNative machine path
  | native bucket name =>
      simp only [ofOperation, ofNative]
      split <;> simp [Keeps]
  | block slots operations => trivial
  | partialBind value callable => simp [ofOperation, Keeps]

end Plan

/-- The machine that a step of a combinator leaves. -/
def Step.machine : Step ν → Machine ν
  | .produced _ left => left
  | .halted left => left
  | .unexpected left => left

/-- Judging a step touches nothing but the stack. -/
theorem Step.machine_ofExecution (base : Nat) (ended : Execution ν) :
    (Step.ofExecution base ended).machine =
      { ended.2 with
        stack := (Step.ofExecution base ended).machine.stack } := by
  obtain ⟨outcome, left⟩ := ended
  cases outcome with
  | success =>
      simp only [ofExecution]
      split
      · split
        · next popped => exact Machine.eq_of_pop? popped
        · rfl
      · rfl
  | _ => rfl

/-- The machine at the end of a passage. -/
def Passage.machine : Passage ν → Machine ν
  | .completed _ left => left
  | .halted left => left
  | .failed _ left => left

@[simp]
theorem Passage.frames_conclude (operands : List Value)
    (passage : Passage ν) :
    (passage.conclude operands).machine.frames = passage.machine.frames := by
  cases passage <;> rfl

@[simp]
theorem Passage.trace_conclude (operands : List Value)
    (passage : Passage ν) :
    (passage.conclude operands).machine.trace = passage.machine.trace := by
  cases passage <;> rfl

/-- Whether natives leave as many frames as there are, each but the innermost
unchanged, as natives do that have no other access to the slots than to
execute operations. -/
def Host.KeepsOuterFrames (host : Host ν) : Prop :=
  ∀ symbol machine, OuterKept machine.frames (host symbol machine).2.frames

/-- Whether frames hold all that others hold, but perhaps for a change of the
innermost of these. -/
def Covers (earlier later : Frames) : Prop :=
  earlier.tail <:+ later ∧ earlier.length ≤ later.length

@[simp]
theorem Covers.refl (frames : Frames) : Covers frames frames :=
  ⟨List.tail_suffix frames, Nat.le_refl _⟩

theorem OuterKept.covers {first second third : Frames}
    (kept : OuterKept first second) (covers : Covers second third) :
    Covers first third := by
  obtain ⟨length, tail⟩ := kept
  unfold Covers at covers ⊢
  rw [tail, length] at covers
  exact covers

theorem covers_of_suffix {earlier later : Frames}
    (suffix : earlier <:+ later) : Covers earlier later :=
  ⟨(List.tail_suffix earlier).trans suffix, suffix.length_le⟩

/-- What an execution does to the frames it starts from. -/
structure KeepsFrames (operation : Operation) (machine : Machine ν)
    (moments : List (Moment ν)) (later : Frames) : Prop where
  /-- In the end there are as many frames, the outer ones unchanged. -/
  outer : OuterKept machine.frames later
  /-- At every moment the outer frames are there unchanged. -/
  throughout : ∀ moment ∈ moments,
    Covers machine.frames moment.machine.frames
  /-- A block leaves all frames unchanged in the end, and while it runs, all
  frames around it are there unchanged. -/
  block : ∀ slots operations,
    Plan.ofOperation machine operation = .activate slots operations →
      later = machine.frames ∧
      ∀ moment ∈ moments, machine.frames <:+ moment.machine.frames

/-- What the execution of the operations of a block does to the frames. -/
structure KeepsOuterFrames (frames : Frames) (moments : List (Moment ν))
    (later : Frames) : Prop where
  outer : OuterKept frames later
  throughout : ∀ moment ∈ moments, Covers frames moment.machine.frames

namespace KeepsOuterFrames

variable {earlier middle later : Frames} {moments rest : List (Moment ν)}

theorem nil (frames : Frames) :
    KeepsOuterFrames (ν := ν) frames [] frames :=
  ⟨.refl frames, nofun⟩

theorem append (one : KeepsOuterFrames earlier moments middle)
    (two : KeepsOuterFrames middle rest later) :
    KeepsOuterFrames earlier (moments ++ rest) later := by
  refine ⟨one.outer.trans two.outer, fun moment member => ?_⟩
  rcases List.mem_append.mp member with first | second
  · exact one.throughout moment first
  · exact one.outer.covers (two.throughout moment second)

/-- It does not matter how many steps a moment lies in. -/
theorem withinStep (kept : KeepsOuterFrames earlier moments later) :
    KeepsOuterFrames earlier (moments.map Moment.withinStep) later := by
  refine ⟨kept.outer, fun moment member => ?_⟩
  obtain ⟨inner, among, rfl⟩ := List.mem_map.mp member
  exact kept.throughout inner among

end KeepsOuterFrames

/-- The raise of a fault leaves the frames of the attempt. -/
theorem Attempt.frames_of_mem_history {attempt : Attempt ν}
    {moment : Moment ν} (member : moment ∈ attempt.history) :
    moment.machine.frames = attempt.machine.frames := by
  cases attempt with
  | finished outcome left => cases member
  | faulted fault left =>
      rw [List.mem_singleton.mp member]
      rfl

namespace KeepsFrames

variable {operation : Operation} {machine : Machine ν}
  {moments : List (Moment ν)} {later : Frames}

/-- An execution that activates no block keeps what follows its beginning. -/
theorem start (kept : KeepsOuterFrames machine.frames moments later)
    (other : ∀ slots operations, Plan.ofOperation machine operation ≠
      .activate slots operations) :
    KeepsFrames operation machine (.start operation machine :: moments)
      later where
  outer := kept.outer
  throughout := by
    intro moment member
    rcases List.mem_cons.mp member with rfl | among
    · exact .refl machine.frames
    · exact kept.throughout moment among
  block slots operations planned := absurd planned (other slots operations)

/-- An execution that activates a block keeps all frames. -/
theorem startBlock (restored : later = machine.frames)
    (untouched : ∀ moment ∈ moments,
      machine.frames <:+ moment.machine.frames) :
    KeepsFrames operation machine (.start operation machine :: moments)
      later := by
  have always : ∀ moment ∈ .start operation machine :: moments,
      machine.frames <:+ moment.machine.frames := by
    intro moment member
    rcases List.mem_cons.mp member with rfl | among
    · exact List.suffix_rfl
    · exact untouched moment among
  constructor
  · rw [restored]
    exact .refl machine.frames
  · exact fun moment member => covers_of_suffix (always moment member)
  · exact fun _ _ _ => ⟨restored, always⟩

theorem toOuter (kept : KeepsFrames operation machine moments later) :
    KeepsOuterFrames machine.frames moments later :=
  ⟨kept.outer, kept.throughout⟩

end KeepsFrames

/-- The machine behind a step has the frames that the callable left. -/
theorem Visit.frames_of_judge {visit : Visit ν} {ended : Execution ν}
    {step : Step ν} (judged : visit.judge ended = step) :
    step.machine.frames = ended.2.frames := by
  rw [← judged, judge, Step.machine_ofExecution]

theorem Visit.trace_of_judge {visit : Visit ν} {ended : Execution ν}
    {step : Step ν} (judged : visit.judge ended = step) :
    step.machine.trace = ended.2.trace := by
  rw [← judged, judge, Step.machine_ofExecution]

/-- Every run keeps the outer frames, and a block keeps all of them. -/
theorem framesKept {host : Host ν} (natives : host.KeepsOuterFrames) :
    RunCases host
      (fun _ operation machine moments ended =>
        KeepsFrames operation machine moments ended.2.frames)
      (fun _ _ _ _ machine moments ended =>
        KeepsOuterFrames machine.frames moments ended.2.frames)
      (fun _ visit moments passage =>
        KeepsOuterFrames visit.below.frames moments
          passage.machine.frames) where
  settle := by
    intro fuel operation machine attempt planned
    have kept := Plan.keeps_ofOperation machine operation
    rw [planned] at kept
    refine .start ⟨?_, fun moment member => ?_⟩ (by simp [planned])
    · rw [Attempt.frames_settle]
      exact kept.frames
    · rw [Attempt.frames_of_mem_history member]
      exact kept.frames.covers (.refl _)
  consult := by
    intro fuel operation machine symbol planned
    refine .start ⟨natives symbol machine, fun moment member => ?_⟩
      (by simp [planned])
    rw [List.mem_singleton.mp member]
    exact .refl machine.frames
  handOver := by
    intro fuel operation machine other below moments ended planned kept
    have same := Plan.keeps_ofOperation machine operation
    rw [planned] at same
    refine .start ?_ (by simp [planned])
    rw [← same.1]
    exact kept.toOuter
  starve := by
    intro fuel operation machine slots operations planned taken
    refine .startBlock (by simp) fun moment member => ?_
    rw [Attempt.frames_of_mem_history member]
    simp
  activate := by
    intro fuel operation machine slots operations values below moments ended
      planned taken kept
    have same := Machine.frames_of_takeTop? taken
    rw [Machine.frames_notify] at same
    rw [Machine.frames_pushFrame, same] at kept
    refine .startBlock ?_ fun moment member => ?_
    · simpa using kept.outer.2
    · exact (kept.throughout moment member).1
  goThrough := by
    intro fuel operation machine visit moments passage planned kept
    have same := Plan.keeps_ofOperation machine operation
    rw [planned] at same
    refine .start ?_ (by simp [planned])
    rw [← same.1]
    refine kept.append ⟨?_, fun moment member => ?_⟩
    · simp
    · rw [Attempt.frames_of_mem_history member]
      simp
  finish := by
    intro fuel slots operations index machine found
    exact .nil machine.frames
  resume := by
    intro fuel slots operations index machine operation moments ended later
      rest final found kept resumed later
    have outer := kept.toOuter
    rw [Machine.frames_notify] at outer
    exact outer.append later
  leave := by
    intro fuel slots operations index machine operation moments ended found
      kept resumed
    have outer := kept.toOuter
    rw [Machine.frames_notify] at outer
    exact outer
  complete := by
    intro fuel visit done
    exact .nil visit.below.frames
  halt := by
    intro fuel visit element elements moments ended left more kept judged
    have same := Visit.frames_of_judge judged
    have outer := kept.toOuter.withinStep
    rw [← same] at outer
    exact outer
  mislead := by
    intro fuel visit element elements moments ended left more kept judged
    have same := Visit.frames_of_judge judged
    have outer := kept.toOuter.withinStep
    rw [← same] at outer
    exact outer
  reject := by
    intro fuel visit element elements moments ended value left code more kept
      judged refused
    have same := Visit.frames_of_judge judged
    have outer := kept.toOuter.withinStep
    rw [← same] at outer
    exact outer
  produce := by
    intro fuel visit element elements moments ended value left state rest
      passage more kept judged accepted later
    have same := Visit.frames_of_judge judged
    have outer := kept.toOuter.withinStep
    rw [← same] at outer
    exact outer.append later

end StackAssembly
