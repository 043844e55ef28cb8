import StackAssembly.Proofs.Machine.Plan

/-!
# Machines in surroundings

A machine can be placed in *surroundings*: other values come to lie beneath
its stack, other frames around its frames, and other notifications in front of
its own.  What operations ask for does not depend on the surroundings, as long
as the stack of the machine itself holds the values they take and one of its
own frames is the innermost one.
-/

namespace StackAssembly

variable {ν : Type}

/-- What a machine can be placed in. -/
structure Surroundings where
  /-- The values beneath the stack. -/
  values : List Value := []
  /-- The frames around those of the machine. -/
  frames : Frames := []
  /-- The notifications given before. -/
  earlier : List Notification := []

/-- A notification as it is given in surroundings. -/
def Notification.within (notification : Notification)
    (around : Surroundings) : Notification :=
  { notification with
    stackLength := notification.stackLength + around.values.length
    frameCount := notification.frameCount + around.frames.length }

namespace Machine

/-- The machine placed in surroundings. -/
def within (machine : Machine ν) (around : Surroundings) : Machine ν :=
  { machine with
    stack := machine.stack ++ around.values
    frames := machine.frames ++ around.frames
    trace := machine.trace.map fun notifications =>
      notifications.map (·.within around) ++ around.earlier }

/-- Whether a machine that is placed in surroundings has the innermost frame
or there is no frame around it. -/
def Framed (machine : Machine ν) (around : Surroundings) : Prop :=
  machine.frames ≠ [] ∨ around.frames = []

section Within

variable (machine : Machine ν) (around : Surroundings)

@[simp]
theorem stack_within :
    (machine.within around).stack = machine.stack ++ around.values :=
  rfl

@[simp]
theorem frames_within :
    (machine.within around).frames = machine.frames ++ around.frames :=
  rfl

@[simp]
theorem store_within : (machine.within around).store = machine.store :=
  rfl

@[simp]
theorem dialect_within : (machine.within around).dialect = machine.dialect :=
  rfl

theorem pushAll_within (values : List Value) :
    (machine.within around).pushAll values =
      (machine.pushAll values).within around := by
  simp only [pushAll, within, List.append_assoc]

theorem raise_within (fault : Fault) :
    (machine.within around).raise fault =
      (machine.raise fault).within around :=
  pushAll_within machine around _

theorem notify_within (event : BlockEvent) (slots : List String)
    (operations : List Operation) :
    (machine.within around).notify event slots operations =
      (machine.notify event slots operations).within around := by
  cases machine with
  | mk stack store frames dialect provided natives entryPoint printed trace =>
      cases trace with
      | none => rfl
      | some notifications =>
          simp [notify, within, Notification.within]

theorem pushFrame_within (pairs : List (String × Value)) :
    (machine.within around).pushFrame pairs =
      (machine.pushFrame pairs).within around :=
  rfl

theorem popFrame_within (framed : machine.frames ≠ []) :
    (machine.within around).popFrame = machine.popFrame.within around := by
  simp only [popFrame, within, List.tail_append_of_ne_nil framed]

/-- Dropping values down to a length is relative to what lies beneath. -/
theorem truncate_within (length : Nat) :
    (machine.within around).truncate (length + around.values.length) =
      (machine.truncate length).within around := by
  have dropped : (machine.stack ++ around.values).length -
      (length + around.values.length) = machine.stack.length - length := by
    simp
    omega
  simp only [truncate, within, dropped,
    List.drop_append_of_le_length (Nat.sub_le machine.stack.length length)]

theorem pop?_within (held : machine.stack ≠ []) :
    (machine.within around).pop? =
      machine.pop?.map fun taken => (taken.1, taken.2.within around) := by
  cases values : machine.stack with
  | nil => contradiction
  | cons value rest =>
      simp [pop?, within, values]

theorem takeTop?_within {count : Nat}
    (held : around.values = [] ∨ machine.takeTop? count ≠ none) :
    (machine.within around).takeTop? count =
      (machine.takeTop? count).map fun taken =>
        (taken.1, taken.2.within around) := by
  by_cases enough : machine.stack.length < count
  · have none : machine.takeTop? count = none := by
      unfold takeTop?
      simp only [List.length_take]
      rw [if_pos (by omega)]
    rw [none] at held ⊢
    have bare : around.values = [] := held.resolve_right (by simp)
    unfold takeTop?
    simp only [stack_within, bare, List.append_nil, List.length_take]
    rw [if_pos (by omega)]
    rfl
  · have least : count ≤ machine.stack.length := by omega
    unfold takeTop?
    simp only [stack_within, List.take_append_of_le_length least,
      List.drop_append_of_le_length least, List.length_take]
    rw [if_neg (by omega), if_neg (by omega)]
    rfl

theorem native?_within (bucket name : String) :
    (machine.within around).native? bucket name =
      machine.native? bucket name :=
  rfl

theorem define?_within (name : String) (value : Value) :
    (machine.within around).define? name value =
      (machine.define? name value).map (·.within around) := by
  simp only [define?, store_within, Option.map_map]
  rfl

theorem activate?_within (path : String) :
    (machine.within around).activate? path =
      (machine.activate? path).map (·.within around) := by
  simp only [activate?, Option.map_map]
  rfl

variable {machine around}

theorem get?_frames_within (framed : machine.Framed around) (name : String) :
    (machine.within around).frames.get? name =
      machine.frames.get? name := by
  rcases framed with inside | outside
  · cases frames : machine.frames with
    | nil => contradiction
    | cons frame outer => simp [Frames.get?, frames]
  · simp [outside]

theorem set?_frames_within (framed : machine.Framed around) (name : String)
    (value : Value) :
    (machine.within around).frames.set? name value =
      (machine.frames.set? name value).map (· ++ around.frames) := by
  rcases framed with inside | outside
  · cases frames : machine.frames with
    | nil => contradiction
    | cons frame outer => simp [Frames.set?, frames]
  · simp [outside]

end Within
end Machine

namespace Attempt

/-- The attempt in surroundings. -/
def within (around : Surroundings) : Attempt ν → Attempt ν
  | .finished outcome left => .finished outcome (left.within around)
  | .faulted fault left => .faulted fault (left.within around)

/-- Whether an attempt does not fail for want of values. -/
def Suffices : Attempt ν → Prop
  | .finished _ _ => True
  | .faulted fault _ => fault.code ≠ .insufficientArguments

theorem not_suffices_starved (machine : Machine ν) :
    ¬ (starved machine).Suffices :=
  fun held => held rfl

theorem settle_within (around : Surroundings) (attempt : Attempt ν) :
    (attempt.within around).settle =
      (attempt.settle.1, attempt.settle.2.within around) := by
  cases attempt with
  | finished outcome left => rfl
  | faulted fault left =>
      simp only [within, settle, Machine.raise_within]

theorem replace_within (around : Surroundings) (below : Machine ν)
    (operands : List Value) (result : RuleResult) :
    replace (below.within around) operands result =
      (replace below operands result).within around := by
  cases result with
  | ok results =>
      simp only [replace, succeed, within, Machine.pushAll_within]
  | error code => rfl

variable {machine : Machine ν} {around : Surroundings}

/-- An attempt fails for want of values in surroundings only where nothing
lies beneath. -/
theorem values_eq_nil_of_starved
    (held : around.values = [] ∨ (starved machine).Suffices) :
    around.values = [] :=
  held.resolve_right (not_suffices_starved machine)

theorem apply_within (rule : StackRule)
    (held : around.values = [] ∨ (apply machine rule).Suffices) :
    apply (machine.within around) rule =
      (apply machine rule).within around := by
  cases rule with
  | unary rule =>
      cases stack : machine.stack with
      | nil =>
          simp only [apply, stack] at held
          have bare := values_eq_nil_of_starved held
          simp only [apply, Machine.stack_within, stack, bare,
            List.append_nil]
          rfl
      | cons operand rest =>
          simp only [apply, Machine.stack_within, stack, List.cons_append]
          exact replace_within around { machine with stack := rest } _ _
  | binary rule =>
      rcases stack : machine.stack with _ | ⟨first, _ | ⟨second, rest⟩⟩
      case cons.cons =>
          simp only [apply, Machine.stack_within, stack, List.cons_append]
          exact replace_within around { machine with stack := rest } _ _
      all_goals
        simp only [apply, stack] at held
        have bare := values_eq_nil_of_starved held
        simp only [apply, Machine.stack_within, stack, bare, List.append_nil]
        rfl

theorem pack_within
    (held : around.values = [] ∨ (pack machine).Suffices) :
    pack (machine.within around) = (pack machine).within around := by
  cases stack : machine.stack with
  | nil =>
      simp only [pack, stack] at held
      have bare := values_eq_nil_of_starved held
      simp only [pack, Machine.stack_within, stack, bare, List.append_nil]
      rfl
  | cons size rest =>
      simp only [pack, stack] at held
      simp only [pack, Machine.stack_within, stack, List.cons_append]
      cases size with
      | number count =>
          have lower : around.values = [] ∨
              ({ machine with stack := rest } : Machine ν).takeTop?
                count.toNat ≠ none := by
            refine held.imp_right fun enough none => ?_
            simp only [none] at enough
            exact enough rfl
          have taken := Machine.takeTop?_within
            { machine with stack := rest } around lower
          simp only [Machine.within] at taken ⊢
          rw [taken]
          cases ({ machine with stack := rest } : Machine ν).takeTop?
            count.toNat <;> rfl
      | _ => rfl

theorem named_within (use : NameUse) (name : String)
    (framed : machine.Framed around)
    (held : around.values = [] ∨ (named machine name use).Suffices) :
    named (machine.within around) name use =
      (named machine name use).within around := by
  cases use with
  | load =>
      simp only [named, load, Machine.store_within]
      cases machine.store.get? name <;> rfl
  | store =>
      cases stack : machine.stack with
      | nil =>
          simp only [named, store, stack] at held
          have bare := values_eq_nil_of_starved held
          simp only [named, store, Machine.stack_within, stack, bare,
            List.append_nil]
          rfl
      | cons value rest =>
          have defined := Machine.define?_within
            { machine with stack := rest } around name value
          simp only [named, store, Machine.stack_within, stack,
            List.cons_append]
          simp only [Machine.within] at defined ⊢
          rw [defined]
          cases ({ machine with stack := rest } : Machine ν).define?
            name value <;> rfl
  | clear =>
      simp only [named, clear, Machine.store_within]
      by_cases bound : machine.store.contains name
      · simp only [bound, if_true]
        rfl
      · simp only [bound]
        rfl
  | loadSlot =>
      simp only [named, loadSlot, Machine.get?_frames_within framed]
      cases machine.frames.get? name <;> rfl
  | storeSlot =>
      cases stack : machine.stack with
      | nil =>
          simp only [named, storeSlot, stack] at held
          have bare := values_eq_nil_of_starved held
          simp only [named, storeSlot, Machine.stack_within, stack, bare,
            List.append_nil]
          rfl
      | cons value rest =>
          simp only [named, storeSlot, Machine.stack_within, stack,
            List.cons_append, Machine.set?_frames_within framed]
          cases machine.frames.set? name value <;> rfl

theorem loadNative_within (path : String) :
    loadNative (machine.within around) path =
      (loadNative machine path).within around := by
  simp only [loadNative, Machine.activate?_within]
  cases machine.activate? path <;> rfl

end Attempt

namespace Visit

/-- The visit in surroundings. -/
def within (visit : Visit ν) (around : Surroundings) : Visit ν :=
  { visit with below := visit.below.within around }

end Visit

namespace Plan

/-- The plan in surroundings. -/
def within (around : Surroundings) : Plan ν → Plan ν
  | .settle attempt => .settle (attempt.within around)
  | .consult symbol => .consult symbol
  | .handOver operation machine => .handOver operation (machine.within around)
  | .activate slots operations => .activate slots operations
  | .goThrough visit => .goThrough (visit.within around)

/-- Whether a plan does not come from a want of values. -/
def Suffices : Plan ν → Prop
  | .settle attempt => attempt.Suffices
  | _ => True

variable {machine : Machine ν} {around : Surroundings}

theorem values_eq_nil_of_starved
    (held : around.values = [] ∨
      (settle (.starved machine)).Suffices) : around.values = [] :=
  held.resolve_right (Attempt.not_suffices_starved machine)

theorem callOr_within (value : Value) (below : Machine ν)
    (operands : List Value) :
    callOr value (below.within around) operands =
      (callOr value below operands).within around := by
  unfold callOr
  cases value.callable? <;> rfl

theorem ofTop_within (held : around.values = [] ∨ (ofTop machine).Suffices) :
    ofTop (machine.within around) = (ofTop machine).within around := by
  cases stack : machine.stack with
  | nil =>
      simp only [ofTop, stack] at held
      have bare := values_eq_nil_of_starved held
      simp only [ofTop, Machine.stack_within, stack, bare, List.append_nil]
      rfl
  | cons value rest =>
      simp only [ofTop, Machine.stack_within, stack, List.cons_append]
      exact callOr_within value { machine with stack := rest } _

theorem ofIfTrue_within (body : Operation)
    (held : around.values = [] ∨ (ofIfTrue body machine).Suffices) :
    ofIfTrue body (machine.within around) =
      (ofIfTrue body machine).within around := by
  cases stack : machine.stack with
  | nil =>
      simp only [ofIfTrue, stack] at held
      have bare := values_eq_nil_of_starved held
      simp only [ofIfTrue, Machine.stack_within, stack, bare,
        List.append_nil]
      rfl
  | cons condition rest =>
      simp only [ofIfTrue, Machine.stack_within, stack, List.cons_append]
      cases condition with
      | boolean truth => cases truth <;> rfl
      | _ => rfl

theorem ofSelect_within (cases : Entries) (otherwise : Option Operation)
    (held : around.values = [] ∨
      (ofSelect cases otherwise machine).Suffices) :
    ofSelect cases otherwise (machine.within around) =
      (ofSelect cases otherwise machine).within around := by
  cases stack : machine.stack with
  | nil =>
      simp only [ofSelect, stack] at held
      have bare := values_eq_nil_of_starved held
      simp only [ofSelect, Machine.stack_within, stack, bare,
        List.append_nil]
      rfl
  | cons key rest =>
      simp only [ofSelect, Machine.stack_within, stack, List.cons_append]
      cases cases.lookup? key with
      | some value =>
          exact callOr_within value { machine with stack := rest } _
      | none => cases otherwise <;> rfl

theorem ofCall_within (target : String) (arguments : List Value) :
    ofCall target arguments (machine.within around) =
      (ofCall target arguments machine).within around := by
  simp only [ofCall, Machine.store_within, Machine.pushAll_within]
  cases machine.store.get? target with
  | none => rfl
  | some value =>
      dsimp only
      cases value.callable? <;> rfl

theorem ofContainer_within
    (next : Value → Value → Value → Except ErrorCode Value)
    (held : around.values = [] ∨ (ofContainer next machine).Suffices) :
    ofContainer next (machine.within around) =
      (ofContainer next machine).within around := by
  rcases stack : machine.stack with _ | ⟨callable, _ | ⟨container, rest⟩⟩
  case cons.cons =>
      simp only [ofContainer, Machine.stack_within, stack, List.cons_append]
      cases callable.callable? <;> cases container.elements? <;>
        cases container.emptied? <;> rfl
  all_goals
    simp only [ofContainer, stack] at held
    have bare := values_eq_nil_of_starved held
    simp only [ofContainer, Machine.stack_within, stack, bare,
      List.append_nil]
    rfl

theorem ofReduce_within
    (held : around.values = [] ∨ (ofReduce machine).Suffices) :
    ofReduce (machine.within around) = (ofReduce machine).within around := by
  rcases stack : machine.stack with
    _ | ⟨callable, _ | ⟨seed, _ | ⟨container, rest⟩⟩⟩
  case cons.cons.cons =>
      simp only [ofReduce, Machine.stack_within, stack, List.cons_append]
      cases callable.callable? <;> cases reducible? container <;> rfl
  all_goals
    simp only [ofReduce, stack] at held
    have bare := values_eq_nil_of_starved held
    simp only [ofReduce, Machine.stack_within, stack, bare, List.append_nil]
    rfl

/-- Primitives plan in surroundings what they plan without, but for the one
that empties the stack. -/
theorem ofPrimitive_within (which : Primitive)
    (keeps : around.values = [] ∨ which ≠ .resetStack)
    (held : around.values = [] ∨ (ofPrimitive which machine).Suffices) :
    ofPrimitive which (machine.within around) =
      (ofPrimitive which machine).within around := by
  unfold ofPrimitive at held ⊢
  rw [Machine.dialect_within]
  cases ruled : StackRule.ofPrimitive? machine.dialect which with
  | some rule =>
      rw [ruled] at held
      exact congrArg settle (Attempt.apply_within rule held)
  | none =>
      rw [ruled] at held
      cases which with
      | resetStack =>
          have bare := keeps.resolve_right (by simp)
          simp only [Machine.within, within, Attempt.within,
            Attempt.succeed, bare, List.append_nil]
      | pack => exact congrArg settle (Attempt.pack_within held)
      | exec => exact ofTop_within held
      | map => exact ofContainer_within collect held
      | filter => exact ofContainer_within retain held
      | reduce => exact ofReduce_within held
      | _ => rfl

/-- What an operation asks for in surroundings. -/
theorem ofOperation_within (operation : Operation)
    (framed : machine.Framed around)
    (keeps : around.values = [] ∨ operation ≠ .primitive .resetStack)
    (held : around.values = [] ∨
      (ofOperation machine operation).Suffices) :
    ofOperation (machine.within around) operation =
      (ofOperation machine operation).within around := by
  cases operation with
  | primitive which =>
      exact ofPrimitive_within which (keeps.imp_right (by simp)) held
  | push value => rfl
  | ifTrue body => exact ofIfTrue_within body held
  | select cases otherwise => exact ofSelect_within cases otherwise held
  | named use name =>
      exact congrArg settle (Attempt.named_within use name framed held)
  | call target arguments => exact ofCall_within target arguments
  | loadNative path => exact congrArg settle (Attempt.loadNative_within path)
  | native bucket name =>
      simp only [ofOperation, ofNative, Machine.native?_within]
      cases machine.native? bucket name <;> rfl
  | block slots operations => rfl
  | partialBind value callable => rfl

end Plan
end StackAssembly
