import StackAssembly.Machine.Execute

/-!
# Restoration of operands

An operation that fails names the operands it took, in the order in which it
took them.  Putting these back gives the machine as it was before, so a raised
fault shows on the stack as one error value and nowhere else.  The operations
that visit the elements of a container are the exception: the callables they
run may have changed the machine before the fault.
-/

namespace StackAssembly

variable {ν : Type}

/-- Whether an operation runs a callable on the elements of a container. -/
def Operation.visitsElements : Operation → Bool
  | .primitive .map | .primitive .filter | .primitive .reduce => true
  | _ => false

namespace Machine

theorem pushAll_taken {machine : Machine ν} {operands rest : List Value}
    (taken : machine.stack = operands ++ rest) :
    { machine with stack := rest }.pushAll operands = machine := by
  cases machine
  simp_all [pushAll]

theorem raise_eq_push_pushAll (machine : Machine ν) (fault : Fault) :
    machine.raise fault =
      (machine.pushAll fault.operands).push (.error fault.code) :=
  rfl

end Machine

namespace Attempt

/-- A fault from which a machine is recovered by putting the operands back. -/
def Recovers (machine : Machine ν) : Attempt ν → Prop
  | .finished _ _ => True
  | .faulted fault left => left.pushAll fault.operands = machine

@[simp]
theorem recovers_succeed (machine left : Machine ν) :
    Recovers machine (succeed left) :=
  trivial

@[simp]
theorem recovers_ofExecution (machine : Machine ν)
    (execution : Execution ν) : Recovers machine (ofExecution execution) :=
  trivial

@[simp]
theorem recovers_refuse_untouched (machine : Machine ν) (code : ErrorCode) :
    Recovers machine (refuse machine code) :=
  rfl

@[simp]
theorem recovers_starved (machine : Machine ν) :
    Recovers machine (starved machine) :=
  rfl

theorem recovers_refuse {machine : Machine ν} {operands rest : List Value}
    (taken : machine.stack = operands ++ rest) (code : ErrorCode) :
    Recovers machine (refuse { machine with stack := rest } code operands) :=
  Machine.pushAll_taken taken

theorem recovers_replace {machine : Machine ν} {operands rest : List Value}
    (taken : machine.stack = operands ++ rest) (result : RuleResult) :
    Recovers machine
      (replace { machine with stack := rest } operands result) := by
  cases result with
  | ok results => trivial
  | error code => exact recovers_refuse taken code

/-- A rule gets its operands in the order in which they lie on the stack. -/
theorem recovers_apply (machine : Machine ν) (rule : StackRule) :
    Recovers machine (apply machine rule) := by
  cases rule with
  | unary rule =>
      simp only [apply]
      split
      · next stack => exact recovers_replace stack _
      · exact recovers_starved machine
  | binary rule =>
      simp only [apply]
      split
      · next stack => exact recovers_replace stack _
      · exact recovers_starved machine

theorem recovers_pack (machine : Machine ν) :
    Recovers machine (pack machine) := by
  simp only [pack]
  split
  · exact recovers_starved machine
  · next size rest stack =>
      have taken : machine.stack = [size] ++ rest := stack
      split
      · -- Only the size has been taken when too few values are below it.
        split
        · trivial
        · exact recovers_refuse taken _
      · exact recovers_refuse taken _

theorem recovers_load (machine : Machine ν) (name : String) :
    Recovers machine (load machine name) := by
  simp only [load]
  split <;> simp

theorem recovers_store (machine : Machine ν) (name : String) :
    Recovers machine (store machine name) := by
  simp only [store]
  split
  · exact recovers_starved machine
  · next value rest stack =>
      split
      · trivial
      · exact @recovers_refuse _ _ [value] _ stack _

theorem recovers_clear (machine : Machine ν) (name : String) :
    Recovers machine (clear machine name) := by
  simp only [clear]
  split <;> simp

theorem recovers_loadSlot (machine : Machine ν) (name : String) :
    Recovers machine (loadSlot machine name) := by
  simp only [loadSlot]
  split <;> simp

theorem recovers_storeSlot (machine : Machine ν) (name : String) :
    Recovers machine (storeSlot machine name) := by
  simp only [storeSlot]
  split
  · exact recovers_starved machine
  · next value rest stack =>
      split
      · trivial
      · exact @recovers_refuse _ _ [value] _ stack _

theorem recovers_named (machine : Machine ν) (name : String)
    (use : NameUse) : Recovers machine (named machine name use) := by
  cases use with
  | load => exact recovers_load machine name
  | store => exact recovers_store machine name
  | clear => exact recovers_clear machine name
  | loadSlot => exact recovers_loadSlot machine name
  | storeSlot => exact recovers_storeSlot machine name

theorem recovers_loadNative (machine : Machine ν) (path : String) :
    Recovers machine (loadNative machine path) := by
  simp only [loadNative]
  split <;> simp

theorem recovers_runNative (host : Host ν) (bucket name : String)
    (machine : Machine ν) :
    Recovers machine (runNative host bucket name machine) := by
  simp only [runNative]
  split <;> simp

/-- What a nested execution raised is settled already. -/
theorem recovers_of_execution {machine : Machine ν} {attempt : Attempt ν}
    {execution : Option (Execution ν)}
    (ended : execution.map ofExecution = some attempt) :
    Recovers machine attempt := by
  obtain ⟨result, -, rfl⟩ := Option.map_eq_some_iff.mp ended
  exact recovers_ofExecution machine result

theorem recovers_runTop {run : Runner ν} {machine : Machine ν}
    {attempt : Attempt ν} (ended : runTop run machine = some attempt) :
    Recovers machine attempt := by
  simp only [runTop] at ended
  split at ended
  · cases ended
    exact recovers_starved machine
  · next value rest stack =>
      split at ended
      · exact recovers_of_execution ended
      · cases ended
        exact @recovers_refuse _ _ [value] _ stack _

theorem recovers_runIfTrue {run : Runner ν} {body : Operation}
    {machine : Machine ν} {attempt : Attempt ν}
    (ended : runIfTrue run body machine = some attempt) :
    Recovers machine attempt := by
  simp only [runIfTrue] at ended
  split at ended
  · cases ended
    exact recovers_starved machine
  · next condition rest stack =>
      split at ended
      · exact recovers_of_execution ended
      · cases ended
        trivial
      · cases ended
        exact @recovers_refuse _ _ [condition] _ stack _

theorem recovers_runSelect {run : Runner ν} {cases : Entries}
    {otherwise : Option Operation} {machine : Machine ν}
    {attempt : Attempt ν}
    (ended : runSelect run cases otherwise machine = some attempt) :
    Recovers machine attempt := by
  simp only [runSelect] at ended
  split at ended
  · cases ended
    exact recovers_starved machine
  · next key rest stack =>
      have refused (code : ErrorCode) : Recovers machine
          (refuse { machine with stack := rest } code [key]) :=
        @recovers_refuse _ _ [key] _ stack code
      split at ended
      · split at ended
        · exact recovers_of_execution ended
        · cases ended
          exact refused _
      · split at ended
        · exact recovers_of_execution ended
        · cases ended
          exact refused _

/-- The arguments of a call are pushed only when the target can be run. -/
theorem recovers_runCall {run : Runner ν} {target : String}
    {arguments : List Value} {machine : Machine ν} {attempt : Attempt ν}
    (ended : runCall run target arguments machine = some attempt) :
    Recovers machine attempt := by
  simp only [runCall] at ended
  split at ended
  · cases ended
    exact recovers_refuse_untouched machine _
  · split at ended
    · exact recovers_of_execution ended
    · cases ended
      exact recovers_refuse_untouched machine _

theorem recovers_tryPrimitive {run : Runner ν} {which : Primitive}
    {machine : Machine ν} {attempt : Attempt ν}
    (ordinary : (Operation.primitive which).visitsElements = false)
    (ended : tryPrimitive run which machine = some attempt) :
    Recovers machine attempt := by
  simp only [tryPrimitive] at ended
  split at ended
  · cases ended
    exact recovers_apply machine _
  · split at ended
    case h_5 =>
      cases ended
      exact recovers_pack machine
    case h_6 => exact recovers_runTop ended
    -- The combinators are excluded.
    case h_7 => cases ordinary
    case h_8 => cases ordinary
    case h_9 => cases ordinary
    -- The other primitives without a rule succeed on every machine.
    all_goals
      cases ended
      trivial

/-- Whatever an operation fails for, it names the operands it took. -/
theorem recovers_tryOperation {host : Host ν} {run : Runner ν}
    {runBody : BodyRunner ν} {machine : Machine ν} {operation : Operation}
    {attempt : Attempt ν} (ordinary : operation.visitsElements = false)
    (ended : tryOperation host run runBody machine operation =
      some attempt) :
    Recovers machine attempt := by
  cases operation with
  | primitive which => exact recovers_tryPrimitive ordinary ended
  | push value =>
      cases ended
      trivial
  | ifTrue body => exact recovers_runIfTrue ended
  | select cases otherwise => exact recovers_runSelect ended
  | named use name =>
      cases ended
      exact recovers_named machine name use
  | call target arguments => exact recovers_runCall ended
  | loadNative path =>
      cases ended
      exact recovers_loadNative machine path
  | native bucket name =>
      cases ended
      exact recovers_runNative host bucket name machine
  | block slots operations => exact recovers_of_execution ended
  | partialBind value callable => exact recovers_of_execution ended

end Attempt

/-- A fault of an operation that visits no elements ends its execution with an
error on top of the stack it started from, and nothing else changes. -/
theorem execute_of_fault {host : Host ν} {fuel : Nat}
    {operation : Operation} {machine left : Machine ν} {fault : Fault}
    (ordinary : operation.visitsElements = false)
    (faults : tryOperation host (execute host fuel) (executeBody host fuel)
      machine operation = some (.faulted fault left)) :
    execute host (fuel + 1) operation machine =
      some (.error,
        { machine with stack := .error fault.code :: machine.stack }) := by
  have recovered : left.pushAll fault.operands = machine :=
    Attempt.recovers_tryOperation ordinary faults
  have raised : left.raise fault =
      { machine with stack := .error fault.code :: machine.stack } := by
    rw [Machine.raise_eq_push_pushAll, recovered]
    rfl
  rw [execute, faults, Option.map_some, Attempt.settle, raised]

/-- A number cannot be appended to a table, and both stay on the stack. -/
theorem append_number_to_table_restored :
    let host : Host Unit := fun _ machine => (.success, machine)
    let machine : Machine Unit :=
      { stack := [.number 2, .table [], .boolean true] }
    tryOperation host (execute host 0) (executeBody host 0) machine
        (.primitive .append) =
      some (.faulted
        { code := .typeMismatch, operands := [.number 2, .table []] }
        { machine with stack := [.boolean true] }) ∧
    execute host 1 (.primitive .append) machine =
      some (.error,
        { machine with
          stack := [.error .typeMismatch, .number 2, .table [],
            .boolean true] }) := by
  intro host machine
  refine ⟨rfl, ?_⟩
  exact @execute_of_fault _ host 0 _ machine
    { machine with stack := [.boolean true] }
    { code := .typeMismatch, operands := [.number 2, .table []] } rfl rfl

end StackAssembly
