import StackAssembly.Proofs.Machine.Fuel

/-!
# Combinators over callables that leave one value

A callable that puts one value in the place of its inputs, and changes nothing
else of the machine, acts like a function of the inputs.  A combinator that
runs it goes from state to state as its rule says, and the values beneath are
the same in front of every step.  Only what the host can observe, the printed
text and the notifications, grows along the way.
-/

namespace StackAssembly

variable {ν : Type}

/-- What the host can observe of a machine. -/
structure Output where
  /-- What has been printed. -/
  printed : String
  /-- The notifications given so far, if there is a listener. -/
  trace : Option (List Notification)

namespace Machine

/-- What the host can observe of a machine. -/
def output (machine : Machine ν) : Output :=
  { printed := machine.printed, trace := machine.trace }

/-- The machine with another stack and output. -/
def having (machine : Machine ν) (stack : List Value) (output : Output) :
    Machine ν :=
  { machine with stack, printed := output.printed, trace := output.trace }

end Machine

/-- Whatever lies beneath, an operation puts a value in the place of inputs,
the last of which lies on top, and changes nothing else of the machine but the
output. -/
def Yields (host : Host ν) (callable : Operation) (machine : Machine ν)
    (inputs : List Value) (value : Value) : Prop :=
  ∀ stack output, ∃ moments shown,
    Runs host callable (machine.having (inputs.reverse ++ stack) output)
      moments (.success, machine.having (value :: stack) shown)

/-- The steps of a combinator run their callable one after the other, each on
its inputs above the same stack, and each leaves its value. -/
inductive StepsThrough (host : Host ν) (callable : Operation)
    (machine : Machine ν) (stack : List Value) :
    List (List Value × Value) → Output → List (Moment ν) → Output → Prop
  where
  | nil {output} : StepsThrough host callable machine stack [] output []
      output
  | cons {inputs value steps output moments between later shown}
      (run : Runs host callable
        (machine.having (inputs.reverse ++ stack) output) moments
        (.success, machine.having (value :: stack) between))
      (rest : StepsThrough host callable machine stack steps between later
        shown) :
      StepsThrough host callable machine stack ((inputs, value) :: steps)
        output (moments.map Moment.withinStep ++ later) shown

/-- The steps in which a rule leads over elements from a state to a last one
or to a failure, if the callable leaves certain values. -/
inductive Leads (inputs : Value → Value → List Value)
    (next : Value → Value → Value → Except ErrorCode Value) :
    List Value → Value → List (List Value × Value) →
      Except ErrorCode Value → Prop where
  | done {state} : Leads inputs next [] state [] (.ok state)
  | refused {element elements state value code}
      (refuses : next element state value = .error code) :
      Leads inputs next (element :: elements) state
        [(inputs element state, value)] (.error code)
  | accepted {element elements state value later steps result}
      (accepts : next element state value = .ok later)
      (rest : Leads inputs next elements later steps result) :
      Leads inputs next (element :: elements) state
        ((inputs element state, value) :: steps) result

/-- The passage that ends with a last state or a failure. -/
def Passage.ofResult (left : Machine ν) :
    Except ErrorCode Value → Passage ν
  | .ok state => .completed state left
  | .error code => .failed code left

variable {host : Host ν} {callable : Operation} {machine : Machine ν}
  {stack : List Value} {output shown : Output} {moments : List (Moment ν)}
  {steps : List (List Value × Value)}

theorem StepsThrough.exists_of_yields
    (yields : ∀ step ∈ steps, Yields host callable machine step.1 step.2)
    (stack : List Value) (output : Output) :
    ∃ moments shown,
      StepsThrough host callable machine stack steps output moments
        shown := by
  induction steps generalizing output with
  | nil => exact ⟨[], output, .nil⟩
  | cons step steps ih =>
      obtain ⟨moments, between, run⟩ :=
        yields step List.mem_cons_self stack output
      obtain ⟨later, shown, rest⟩ :=
        ih (fun other among => yields other (List.mem_cons_of_mem _ among))
          between
      exact ⟨_, shown, .cons run rest⟩

/-- A step whose callable left one value produces this value, and the machine
is as before but for the output. -/
theorem Visit.judge_having {visit : Visit ν} {value : Value}
    {between : Output} (below : visit.below = machine.having stack output) :
    visit.judge (.success, machine.having (value :: stack) between) =
      .produced value (machine.having stack between) := by
  rw [judge, below]
  exact if_pos rfl

/-- A combinator comes to what its rule leads to. -/
theorem VisitRuns.of_leads {visit : Visit ν}
    {result : Except ErrorCode Value}
    (leads : Leads visit.inputs visit.next visit.elements visit.start steps
      result)
    (through : StepsThrough host visit.callable machine stack steps output
      moments shown)
    (below : visit.below = machine.having stack output) :
    VisitRuns host visit moments
      (.ofResult (machine.having stack shown) result) := by
  obtain ⟨callable, inputs, next, elements, start, under, operands⟩ := visit
  dsimp only at leads through below
  subst below
  -- Each step starts above the stack of the first one, so the statement is
  -- carried along with the output that the steps so far have left.
  induction leads generalizing output moments with
  | done =>
      cases through
      exact .complete rfl
  | refused refuses =>
      cases through with
      | cons run rest =>
          cases rest
          rw [List.append_nil]
          exact .reject rfl run (Visit.judge_having rfl) refuses
  | accepted accepts rest ih =>
      cases through with
      | cons run later =>
          exact .produce rfl run (Visit.judge_having rfl) accepts (ih later)

/-- Behind steps that lead to a state, a visit goes on from this state. -/
theorem VisitRuns.behind {visit : Visit ν} {front rest : List Value}
    {state : Value} {later : List (Moment ν)} {passage : Passage ν}
    (leads : Leads visit.inputs visit.next front visit.start steps
      (.ok state))
    (split : visit.elements = front ++ rest)
    (through : StepsThrough host visit.callable machine stack steps output
      moments shown)
    (below : visit.below = machine.having stack output)
    (runs : VisitRuns host
      (visit.goOn rest state (machine.having stack shown)) later passage) :
    VisitRuns host visit (moments ++ later) passage := by
  obtain ⟨callable, inputs, next, elements, start, under, operands⟩ := visit
  dsimp only at leads split through below
  subst below split
  induction front generalizing start steps output moments with
  | nil =>
      cases leads
      cases through
      exact runs
  | cons element front ih =>
      cases leads with
      | accepted accepts leadsOn =>
          cases through with
          | cons run throughRest =>
              rw [List.append_assoc]
              exact .produce rfl run (Visit.judge_having rfl) accepts
                (ih _ leadsOn throughRest runs)

/-- A rule that leads over elements to a state goes on from there. -/
theorem Leads.append {inputs : Value → Value → List Value}
    {next : Value → Value → Value → Except ErrorCode Value}
    {front rest : List Value} {state reached : Value}
    {more : List (List Value × Value)} {result : Except ErrorCode Value}
    (leads : Leads inputs next front state steps (.ok reached))
    (later : Leads inputs next rest reached more result) :
    Leads inputs next (front ++ rest) state (steps ++ more) result := by
  induction front generalizing state steps with
  | nil =>
      cases leads
      exact later
  | cons element front ih =>
      cases leads with
      | accepted accepts behind => exact .accepted accepts (ih behind)

/-- The step in which a callable makes the image of an element. -/
def imageStep (image : Value → Value) (element : Value) :
    List Value × Value :=
  ([element], image element)

/-- The steps over elements of which a callable makes images can be run. -/
theorem StepsThrough.exists_map_imageStep {image : Value → Value}
    {elements : List Value}
    (yields : ∀ element ∈ elements,
      Yields host callable machine [element] (image element))
    (stack : List Value) (output : Output) :
    ∃ moments shown,
      StepsThrough host callable machine stack
        (elements.map (imageStep image)) output moments shown := by
  refine exists_of_yields (fun step member => ?_) stack output
  obtain ⟨element, isElement, rfl⟩ := List.mem_map.mp member
  exact yields element isElement

/-- The elements in front of the first one without a property. -/
theorem exists_first_without {property : Value → Prop}
    {elements : List Value}
    (lacking : ∃ element ∈ elements, ¬ property element) :
    ∃ before element after, elements = before ++ element :: after ∧
      (∀ earlier ∈ before, property earlier) ∧ ¬ property element := by
  induction elements with
  | nil =>
      obtain ⟨element, member, _⟩ := lacking
      cases member
  | cons first elements ih =>
      by_cases has : property first
      · obtain ⟨element, member, lacks⟩ := lacking
        have later : element ∈ elements :=
          (List.mem_cons.mp member).resolve_left fun same =>
            lacks (same ▸ has)
        obtain ⟨before, next, after, split, others, without⟩ :=
          ih ⟨element, later, lacks⟩
        refine ⟨first :: before, next, after, by rw [split]; rfl, ?_,
          without⟩
        rintro earlier (_ | ⟨_, among⟩)
        · exact has
        · exact others earlier among
      · exact ⟨[], first, elements, rfl, nofun, has⟩

section Container

variable {next : Value → Value → Value → Except ErrorCode Value}
  {container emptied : Value} {base elements : List Value}

/-- The visit that a rule over the elements of a container asks for. -/
def Visit.ofContainer
    (next : Value → Value → Value → Except ErrorCode Value)
    (machine : Machine ν) (callable : Operation) (container emptied : Value)
    (elements base : List Value) : Visit ν where
  callable := callable
  inputs := fun element _ => [element]
  next := next
  elements := elements
  start := emptied
  below := machine.having base machine.output
  operands := [.operation callable, container]

theorem Plan.ofContainer_of_stack
    (stack : machine.stack = .operation callable :: container :: base)
    (held : container.elements? = some elements)
    (empties : container.emptied? = some emptied) :
    Plan.ofContainer next machine =
      .goThrough
        (.ofContainer next machine callable container emptied elements
          base) := by
  simp only [ofContainer, stack, Value.callable?, held, empties]
  rfl

/-- A combinator over a container, as far as its callable makes images of the
elements, comes to what its rule leads to. -/
theorem Runs.exists_ofContainer {operation : Operation}
    {image : Value → Value} {part : List Value}
    {result : Except ErrorCode Value}
    (planned : Plan.ofOperation machine operation =
      .ofContainer next machine)
    (stack : machine.stack = .operation callable :: container :: base)
    (held : container.elements? = some elements)
    (empties : container.emptied? = some emptied)
    (yields : ∀ element ∈ elements,
      Yields host callable machine [element] (image element))
    (among : part ⊆ elements)
    (leads : Leads (fun element _ => [element]) next elements emptied
      (part.map (imageStep image)) result) :
    ∃ moments shown,
      StepsThrough host callable machine base (part.map (imageStep image))
        machine.output moments shown ∧
      let ended :=
        (Passage.ofResult (machine.having base shown) result).conclude
          [.operation callable, container]
      Runs host operation machine
        (.start operation machine :: (moments ++ ended.history))
        ended.settle := by
  obtain ⟨moments, shown, through⟩ :=
    StepsThrough.exists_map_imageStep
      (fun element member => yields element (among member)) base
      machine.output
  rw [Plan.ofContainer_of_stack stack held empties] at planned
  exact ⟨moments, shown, through,
    .of_visit (VisitRuns.of_leads leads through rfl) planned⟩

end Container
end StackAssembly
