import StackAssembly.Proofs.Assembly
import StackAssembly.Proofs.Machine.Names
import StackAssembly.Proofs.Machine.RunInduction

/-!
# Runs make no names but identifiers

Operations move, take apart and combine what is on the machine and in
themselves; new names come from casts and from texts that are read, and these
are identifiers.  So where all names are identifiers, they stay so through
every load of a text and every run, and none of them contains the delimiter
of an image.
-/

namespace StackAssembly

variable {ν : Type} {property : String → Prop}

/-- Whether all names in what an attempt leaves have a property. -/
def Attempt.NamesAre (property : String → Prop) : Attempt ν → Prop
  | .finished _ machine => machine.NamesAre property
  | .faulted fault machine =>
      machine.NamesAre property ∧
        ∀ operand ∈ fault.operands, operand.NamesAre property

namespace Attempt.NamesAre

variable {machine : Machine ν}

theorem settle {attempt : Attempt ν} (named : attempt.NamesAre property) :
    attempt.settle.2.NamesAre property := by
  cases attempt with
  | finished outcome left => exact named
  | faulted fault left => exact named.1.raise named.2

theorem refuse (named : machine.NamesAre property) (code : ErrorCode)
    {operands : List Value}
    (each : ∀ operand ∈ operands, operand.NamesAre property) :
    (Attempt.refuse machine code operands).NamesAre property :=
  ⟨named, each⟩

theorem starved (named : machine.NamesAre property) :
    (Attempt.starved machine).NamesAre property :=
  ⟨named, List.forall_mem_nil _⟩

theorem replace (named : machine.NamesAre property) {operands : List Value}
    (each : ∀ operand ∈ operands, operand.NamesAre property)
    {result : RuleResult} (also : RuleResult.NamesAre property result) :
    (Attempt.replace machine operands result).NamesAre property := by
  cases result with
  | ok results => exact named.pushAll also
  | error code => exact ⟨named, each⟩

theorem apply {rule : StackRule} (keeps : rule.KeepsNames property)
    (named : machine.NamesAre property) :
    (Attempt.apply machine rule).NamesAre property := by
  cases rule with
  | unary rule =>
      rw [Attempt.apply]
      split
      · next operand rest here =>
          obtain ⟨first, below⟩ := named.uncons here
          exact replace below (List.forall_mem_singleton.mpr first)
            (keeps operand first)
      · exact starved named
  | binary rule =>
      rw [Attempt.apply]
      split
      · next top second rest here =>
          obtain ⟨first, more⟩ := named.uncons here
          obtain ⟨next, below⟩ := more.uncons rfl
          exact replace below
            (List.forall_mem_cons.mpr
              ⟨first, List.forall_mem_singleton.mpr next⟩)
            (keeps top second first next)
      · exact starved named

theorem pack (named : machine.NamesAre property) :
    (Attempt.pack machine).NamesAre property := by
  rw [Attempt.pack]
  split
  · exact starved named
  · next size rest here =>
      obtain ⟨first, below⟩ := named.uncons here
      have operands := List.forall_mem_singleton.mpr first
      dsimp only
      split
      · split
        · next items left taken =>
            obtain ⟨items, left⟩ := below.takeTop? taken
            exact left.push (Value.namesAre_tuple.mpr items)
        · exact refuse below _ operands
      · exact refuse below _ operands

/-- A name that an operation uses may become the name of a global value or of
a slot. -/
theorem named {name : String} (bound : property name) (use : NameUse)
    (named : machine.NamesAre property) :
    (Attempt.named machine name use).NamesAre property := by
  cases use with
  | load =>
      simp only [Attempt.named, load]
      split
      · next found => exact named.push (named.store.get? found)
      · exact refuse named _ (List.forall_mem_nil _)
  | store =>
      simp only [Attempt.named, store]
      split
      · exact starved named
      · next value rest here =>
          obtain ⟨first, below⟩ := named.uncons here
          split
          · next next defined =>
              obtain ⟨store, done, rfl⟩ := Option.map_eq_some_iff.mp defined
              exact ⟨below.stack, below.frames,
                below.store.define? bound first done⟩
          · exact refuse below _ (List.forall_mem_singleton.mpr first)
  | clear =>
      simp only [Attempt.named, clear]
      split
      · exact ⟨named.stack, named.frames, named.store.erase name⟩
      · exact refuse named _ (List.forall_mem_nil _)
  | loadSlot =>
      simp only [Attempt.named, loadSlot]
      split
      · next value found =>
          obtain ⟨frame, innermost, there⟩ := Option.bind_eq_some_iff.mp found
          have among := List.mem_of_mem_head? innermost
          exact named.push ((named.frames frame among).get? there)
      · exact refuse named _ (List.forall_mem_nil _)
  | storeSlot =>
      simp only [Attempt.named, storeSlot]
      split
      · exact starved named
      · next value rest here =>
          obtain ⟨first, below⟩ := named.uncons here
          split
          · next frames changed =>
              refine ⟨below.stack, ?_, below.store⟩
              exact Bindings.NamesAre.of_set? below.frames bound first changed
          · exact refuse below _ (List.forall_mem_singleton.mpr first)

theorem loadNative (named : machine.NamesAre property) (path : String) :
    (Attempt.loadNative machine path).NamesAre property := by
  rw [Attempt.loadNative]
  split
  · next activated found =>
      obtain ⟨library, -, rfl⟩ := Option.map_eq_some_iff.mp found
      exact ⟨named.stack, named.frames, named.store⟩
  · exact refuse named _ (List.forall_mem_nil _)

end Attempt.NamesAre

/-- Whether all names in a visit have a property, and the visit keeps it. -/
structure Visit.NamesAre (property : String → Prop) (visit : Visit ν) :
    Prop where
  callable : visit.callable.NamesAre property
  inputs : ∀ element state, element.NamesAre property →
    state.NamesAre property →
      ∀ input ∈ visit.inputs element state, input.NamesAre property
  next : ∀ element state value later, element.NamesAre property →
    state.NamesAre property → value.NamesAre property →
      visit.next element state value = .ok later → later.NamesAre property
  elements : ∀ element ∈ visit.elements, element.NamesAre property
  start : visit.start.NamesAre property
  below : visit.below.NamesAre property
  operands : ∀ operand ∈ visit.operands, operand.NamesAre property

/-- Whether all names in what is asked for have a property. -/
def Plan.NamesAre (property : String → Prop) : Plan ν → Prop
  | .settle attempt => attempt.NamesAre property
  | .consult _ => True
  | .handOver operation machine =>
      operation.NamesAre property ∧ machine.NamesAre property
  | .activate slots operations =>
      (∀ slot ∈ slots, property slot) ∧
        ∀ operation ∈ operations, operation.NamesAre property
  | .goThrough visit => visit.NamesAre property

/-- A container of results grows by results only. -/
theorem namesAre_of_collect {element out value later : Value}
    (named : out.NamesAre property) (also : value.NamesAre property)
    (grown : collect element out value = .ok later) :
    later.NamesAre property := by
  rw [collect] at grown
  split at grown
  · next result appended =>
      cases grown
      exact named.append also appended
  · cases grown

/-- A container of kept elements grows by elements only. -/
theorem namesAre_of_retain {element out value later : Value}
    (named : out.NamesAre property) (also : element.NamesAre property)
    (grown : retain element out value = .ok later) :
    later.NamesAre property := by
  rw [retain.eq_def] at grown
  split at grown
  · exact namesAre_of_collect named also grown
  · cases grown
    exact named
  · cases grown

namespace Plan

variable {machine : Machine ν}

theorem namesAre_callOr {value : Value} {operands : List Value}
    (named : value.NamesAre property) (below : machine.NamesAre property)
    (each : ∀ operand ∈ operands, operand.NamesAre property) :
    (callOr value machine operands).NamesAre property := by
  rw [callOr]
  split
  · next operation found => exact ⟨named.callable? found, below⟩
  · exact .refuse below _ each

theorem namesAre_ofTop (named : machine.NamesAre property) :
    (ofTop machine).NamesAre property := by
  rw [ofTop]
  split
  · exact .starved named
  · next value rest here =>
      obtain ⟨first, below⟩ := named.uncons here
      exact namesAre_callOr first below (List.forall_mem_singleton.mpr first)

theorem namesAre_ofIfTrue {body : Operation} (inside : body.NamesAre property)
    (named : machine.NamesAre property) :
    (ofIfTrue body machine).NamesAre property := by
  rw [ofIfTrue]
  split
  · exact .starved named
  · next condition rest here =>
      obtain ⟨first, below⟩ := named.uncons here
      dsimp only
      split
      · exact ⟨inside, below⟩
      · exact below
      · exact .refuse below _ (List.forall_mem_singleton.mpr first)

theorem namesAre_ofSelect {cases : Entries} {otherwise : Option Operation}
    (table : ∀ entry ∈ cases,
      entry.1.NamesAre property ∧ entry.2.NamesAre property)
    (fallback : ∀ operation, otherwise = some operation →
      operation.NamesAre property)
    (named : machine.NamesAre property) :
    (ofSelect cases otherwise machine).NamesAre property := by
  rw [ofSelect]
  split
  · exact .starved named
  · next key rest here =>
      obtain ⟨first, below⟩ := named.uncons here
      have operands := List.forall_mem_singleton.mpr first
      dsimp only
      split
      · next value found =>
          exact namesAre_callOr (Entries.namesAre_of_lookup? table found)
            below operands
      · split
        · next operation => exact ⟨fallback operation rfl, below⟩
        · exact .refuse below _ operands

theorem namesAre_ofCall (target : String) {arguments : List Value}
    (also : ∀ argument ∈ arguments, argument.NamesAre property)
    (named : machine.NamesAre property) :
    (ofCall target arguments machine).NamesAre property := by
  rw [ofCall]
  split
  · exact .refuse named _ (List.forall_mem_nil _)
  · next value found =>
      split
      · next operation called =>
          exact ⟨(named.store.get? found).callable? called,
            named.pushAll also⟩
      · exact .refuse named _ (List.forall_mem_nil _)

theorem namesAre_ofContainer
    {next : Value → Value → Value → Except ErrorCode Value}
    (keeps : ∀ element state value later, element.NamesAre property →
      state.NamesAre property → value.NamesAre property →
        next element state value = .ok later → later.NamesAre property)
    (named : machine.NamesAre property) :
    (ofContainer next machine).NamesAre property := by
  rw [ofContainer]
  split
  · next callable container rest here =>
      obtain ⟨first, more⟩ := named.uncons here
      obtain ⟨second, below⟩ := more.uncons rfl
      have operands : ∀ operand ∈ [callable, container],
          operand.NamesAre property :=
        List.forall_mem_cons.mpr ⟨first, List.forall_mem_singleton.mpr second⟩
      dsimp only
      split
      · next operation elements emptied called listed cleared =>
          exact
            { callable := first.callable? called
              inputs := fun _ _ element _ =>
                List.forall_mem_singleton.mpr element
              next := keeps
              elements := second.elements? listed
              start := Value.NamesAre.emptied? container cleared
              below, operands }
      · exact .refuse below _ operands
  · exact .starved named

theorem namesAre_of_reducible? {container : Value} {elements : List Value}
    (named : container.NamesAre property)
    (found : reducible? container = some elements) :
    ∀ element ∈ elements, element.NamesAre property := by
  cases container with
  | tuple | table => exact named.elements? found
  | _ => cases found

theorem namesAre_ofReduce (named : machine.NamesAre property) :
    (ofReduce machine).NamesAre property := by
  rw [ofReduce]
  split
  · next callable seed container rest here =>
      obtain ⟨first, more⟩ := named.uncons here
      obtain ⟨second, others⟩ := more.uncons rfl
      obtain ⟨third, below⟩ := others.uncons rfl
      have operands : ∀ operand ∈ [callable, seed, container],
          operand.NamesAre property :=
        List.forall_mem_cons.mpr ⟨first, List.forall_mem_cons.mpr
          ⟨second, List.forall_mem_singleton.mpr third⟩⟩
      dsimp only
      split
      · next operation elements called listed =>
          exact
            { callable := first.callable? called
              inputs := fun _ _ element state => List.forall_mem_cons.mpr
                ⟨element, List.forall_mem_singleton.mpr state⟩
              next := by
                rintro _ _ value _ _ _ also ⟨⟩
                exact also
              elements := namesAre_of_reducible? third listed
              start := second
              below, operands }
      · exact .refuse below _ operands
  · exact .starved named

theorem namesAre_ofNative (bucket name : String)
    (named : machine.NamesAre property) :
    (ofNative bucket name machine).NamesAre property := by
  rw [ofNative]
  split
  · trivial
  · exact .refuse named _ (List.forall_mem_nil _)

section Identifiers

variable (identifiers : ∀ name, Text.isIdentifier name = true → property name)

include identifiers

theorem namesAre_ofPrimitive (which : Primitive)
    (named : machine.NamesAre property) :
    (ofPrimitive which machine).NamesAre property := by
  unfold ofPrimitive
  split
  · next rule found =>
      exact .apply (StackRule.keepsNames_ofPrimitive? identifiers found) named
  · split
    case h_1 => exact named.withStack (List.forall_mem_nil _)
    case h_5 => exact .pack named
    case h_6 => exact namesAre_ofTop named
    case h_7 =>
      exact namesAre_ofContainer
        (fun _ _ _ _ _ out value => namesAre_of_collect out value) named
    case h_8 =>
      exact namesAre_ofContainer
        (fun _ _ _ _ element out _ => namesAre_of_retain out element) named
    case h_9 => exact namesAre_ofReduce named
    all_goals exact named

/-- What an operation asks for has the names of the operation and of the
machine, and beyond these none but identifiers. -/
theorem namesAre_of_planned {operation : Operation} {plan : Plan ν}
    (planned : ofOperation machine operation = plan)
    (inside : operation.NamesAre property)
    (named : machine.NamesAre property) : plan.NamesAre property := by
  rw [← planned]
  cases operation with
  | primitive which => exact namesAre_ofPrimitive identifiers which named
  | push value => exact named.push inside.2
  | ifTrue body => exact namesAre_ofIfTrue inside.2 named
  | select cases otherwise =>
      refine namesAre_ofSelect (entriesThroughout_iff.mp inside.2.1) ?_ named
      rintro operation rfl
      exact inside.2.2
  | named use name => exact .named inside use named
  | call target arguments =>
      exact namesAre_ofCall target (itemsThroughout_iff.mp inside.2) named
  | loadNative path => exact .loadNative named path
  | native bucket name => exact namesAre_ofNative bucket name named
  | block slots operations =>
      exact ⟨inside.1, operationsThroughout_iff.mp inside.2⟩
  | partialBind value callable => exact ⟨inside.2.2, named.push inside.2.1⟩

end Identifiers
end Plan

/-- Whether all names in what a step came to have a property. -/
def Step.NamesAre (property : String → Prop) : Step ν → Prop
  | .produced value machine =>
      value.NamesAre property ∧ machine.NamesAre property
  | .halted machine | .unexpected machine => machine.NamesAre property

theorem Step.namesAre_ofExecution (base : Nat) {execution : Execution ν}
    (named : execution.2.NamesAre property) :
    (Step.ofExecution base execution).NamesAre property := by
  rw [Step.ofExecution.eq_def]
  dsimp only
  split
  · exact named
  · split
    · rw [Machine.pop?]
      split
      · next value rest popped =>
          split at popped
          · cases popped
          · next top later here =>
              cases popped
              exact named.uncons here
      · exact named
    · exact named.truncate base
  · exact named.truncate base

/-- Whether all names in what a combinator came to have a property. -/
def Passage.NamesAre (property : String → Prop) : Passage ν → Prop
  | .completed state machine =>
      state.NamesAre property ∧ machine.NamesAre property
  | .halted machine | .failed _ machine => machine.NamesAre property

theorem Passage.NamesAre.conclude {passage : Passage ν}
    (named : passage.NamesAre property) {operands : List Value}
    (each : ∀ operand ∈ operands, operand.NamesAre property) :
    (passage.conclude operands).NamesAre property := by
  cases passage with
  | completed state machine => exact named.2.push named.1
  | halted machine => exact named
  | failed code machine => exact ⟨named, each⟩

namespace Visit.NamesAre

variable {visit : Visit ν} {element : Value} {elements : List Value}

theorem step (named : visit.NamesAre property)
    (also : element.NamesAre property) :
    (visit.step element).NamesAre property :=
  named.below.pushAll fun input member =>
    named.inputs element visit.start also named.start input
      (List.mem_reverse.mp member)

theorem goOn (named : visit.NamesAre property)
    (each : ∀ element ∈ elements, element.NamesAre property) {state : Value}
    (reached : state.NamesAre property) {left : Machine ν}
    (below : left.NamesAre property) :
    (visit.goOn elements state left).NamesAre property where
  callable := named.callable
  inputs := named.inputs
  next := named.next
  elements := each
  start := reached
  below := below
  operands := named.operands

/-- What a step for the first element came to has the names of the visit. -/
theorem of_judged (named : visit.NamesAre property)
    (more : visit.elements = element :: elements) {ended : Execution ν}
    (keeps : visit.callable.NamesAre property →
      (visit.step element).NamesAre property → ended.2.NamesAre property)
    {came : Step ν} (judged : visit.judge ended = came) :
    came.NamesAre property := by
  have each := named.elements
  rw [more] at each
  have first := (List.forall_mem_cons.mp each).1
  rw [← judged]
  exact Step.namesAre_ofExecution _ (keeps named.callable (named.step first))

end Visit.NamesAre

/-- Whether natives bring no names onto a machine but such as have a
property. -/
def Host.KeepsNames (property : String → Prop) (host : Host ν) : Prop :=
  ∀ symbol machine, machine.NamesAre property →
    (host symbol machine).2.NamesAre property

/-- Runs keep a property of names that identifiers have. -/
theorem keepsNames
    (identifiers : ∀ name, Text.isIdentifier name = true → property name)
    {host : Host ν} (natives : host.KeepsNames property) :
    RunCases host
      (fun _ operation machine _ ended =>
        operation.NamesAre property → machine.NamesAre property →
          ended.2.NamesAre property)
      (fun _ _ operations _ machine _ ended =>
        (∀ operation ∈ operations, operation.NamesAre property) →
          machine.NamesAre property → ended.2.NamesAre property)
      (fun _ visit _ passage =>
        visit.NamesAre property → passage.NamesAre property) where
  settle := by
    intro fuel operation machine attempt planned inside named
    have plan := Plan.namesAre_of_planned identifiers planned inside named
    exact plan.settle
  consult := by
    intro fuel operation machine symbol _ _ named
    exact natives symbol machine named
  handOver := by
    intro fuel operation machine other below moments ended planned keeps inside
      named
    have plan := Plan.namesAre_of_planned identifiers planned inside named
    exact keeps plan.1 plan.2
  starve := by
    intro fuel operation machine slots operations _ _ _ named
    have starved : (Attempt.starved
        (machine.notify .entering slots operations)).NamesAre property :=
      .starved (named.notify _ _ _)
    exact starved.settle.notify _ _ _
  activate := by
    intro fuel operation machine slots operations values below moments ended
      planned taken keeps inside named
    have plan := Plan.namesAre_of_planned identifiers planned inside named
    obtain ⟨each, rest⟩ := (named.notify _ _ _).takeTop? taken
    exact ((keeps plan.2 (rest.pushFrame plan.1 each)).popFrame).notify _ _ _
  goThrough := by
    intro fuel operation machine visit moments passage planned keeps inside
      named
    have plan := Plan.namesAre_of_planned identifiers planned inside named
    exact ((keeps plan).conclude plan.operands).settle
  finish := by
    intro fuel slots operations index machine _ _ named
    exact named
  resume := by
    intro fuel slots operations index machine operation moments ended later
      rest final found keeps _ keepsLater each named
    have inside := each operation (List.mem_of_getElem? found)
    exact keepsLater each (keeps inside (named.notify _ _ _))
  leave := by
    intro fuel slots operations index machine operation moments ended found
      keeps _ each named
    have inside := each operation (List.mem_of_getElem? found)
    exact keeps inside (named.notify _ _ _)
  complete := by
    intro fuel visit _ named
    exact ⟨named.start, named.below⟩
  halt := by
    intro fuel visit element elements moments ended left more keeps judged
      named
    exact named.of_judged more keeps judged
  mislead := by
    intro fuel visit element elements moments ended left more keeps judged
      named
    exact named.of_judged more keeps judged
  reject := by
    intro fuel visit element elements moments ended value left code more keeps
      judged _ named
    exact (named.of_judged more keeps judged).2
  produce := by
    intro fuel visit element elements moments ended value left state rest
      passage more keeps judged accepted keepsLater named
    obtain ⟨also, below⟩ := named.of_judged more keeps judged
    have each := named.elements
    rw [more] at each
    obtain ⟨first, later⟩ := List.forall_mem_cons.mp each
    have reached := named.next element visit.start value state first
      named.start also accepted
    exact keepsLater (named.goOn later reached below)

/-- Loading statements binds names of the text to values with names of the
text. -/
theorem namesAre_loadStatements {dialect : Dialect} {fuel : Nat}
    {store : Bindings} {session : Source.Session}
    (named : store.NamesAre property)
    (supplied : session.cursor.NamesAre property) :
    (loadStatements dialect fuel store session).1.NamesAre property := by
  induction fuel generalizing store session with
  | zero => exact named
  | succ fuel ih =>
      rw [loadStatements]
      split
      · exact named
      · rw [Source.Session.attempt]
        match run : Source.parseStatement dialect session.cursor with
        | .error failure next =>
            exact named
        | .ok (name, value) next =>
            obtain ⟨behind, bound, also⟩ :=
              Source.namesAre_of_parseStatement supplied run
            dsimp only
            split
            · exact named
            · next later defined =>
                exact ih (named.define? bound also defined) behind

/-- Loading a text leaves none but identifiers where there were none but
identifiers. -/
theorem Machine.NamesAre.loadSource {machine : Machine ν}
    (named : machine.NamesAre (Text.isIdentifier · = true)) (text : String) :
    (machine.loadSource (.ofText text)).1.NamesAre
      (Text.isIdentifier · = true) := by
  have loaded : (StackAssembly.loadSource machine.dialect machine.store
      (.ofText text)).1.NamesAre (Text.isIdentifier · = true) :=
    namesAre_loadStatements named.store
      (Source.TokenCursor.namesAre_ofText text)
  exact ⟨named.stack, named.frames, loaded⟩

/-- Whether all names on a machine are identifiers. -/
abbrev Machine.Hygienic (machine : Machine ν) : Prop :=
  machine.NamesAre (Text.isIdentifier · = true)

/-- All names on a machine stay identifiers through loads of texts and through
runs of what is in the store, whatever these come to, if the natives keep to
identifiers.  So no name in the image of the store contains the delimiter. -/
theorem identifiers_stay_identifiers {host : Host ν}
    (natives : host.KeepsNames (Text.isIdentifier · = true)) :
    ({} : Machine ν).Hygienic ∧
    ∀ machine : Machine ν, machine.Hygienic →
      (∀ text, (machine.loadSource (.ofText text)).1.Hygienic) ∧
      (∀ name operation, machine.callable? name = some operation →
        operation.NamesAre (Text.isIdentifier · = true)) ∧
      (∀ fuel operation ended,
        operation.NamesAre (Text.isIdentifier · = true) →
          execute host fuel operation machine = some ended →
            ended.2.Hygienic) ∧
      ∀ entry ∈ machine.store.entries,
        Image.DelimiterFree entry.1 ∧
          entry.2.NamesAre Image.DelimiterFree := by
  refine ⟨.empty, fun machine hygienic => ⟨hygienic.loadSource, ?_, ?_, ?_⟩⟩
  · intro name operation found
    obtain ⟨value, bound, called⟩ := Option.bind_eq_some_iff.mp found
    exact (hygienic.store.get? bound).callable? called
  · intro fuel operation ended inside ends
    exact (keepsNames (fun _ => id) natives).ofExecute ends inside hygienic
  · intro entry member
    obtain ⟨named, inside⟩ := hygienic.store entry member
    exact ⟨Image.delimiterFree_of_isIdentifier named,
      inside.imp fun _ => Image.delimiterFree_of_isIdentifier⟩

/-- A native that pushes an atom. -/
def ringing : Host Unit :=
  fun _ machine => (.success, machine.push (.atom "rung"))

/-- A block that makes an atom of the string below a type, calls a native and
keeps both atoms. -/
def keepBoth : Operation :=
  .block ["kind", "text"]
    [.named .loadSlot "kind", .named .loadSlot "text", .primitive .swap,
      .primitive .typeCast, .named .store "made", .native "bell" "ring",
      .named .store "heard"]

/-- A machine that holds the block, a string and a type. -/
def keepingMachine : Machine Unit where
  stack := [.string "spoken", .type .atom]
  store := Bindings.empty.set "main" (.operation keepBoth)
  natives := [⟨"bell", "ring", ()⟩]

theorem made_and_heard_stay_identifiers :
    ringing.KeepsNames (Text.isIdentifier · = true) ∧
    keepingMachine.Hygienic ∧
    keepingMachine.callable? "main" = some keepBoth ∧
    ∃ ended, execute ringing 20 keepBoth keepingMachine = some ended ∧
      ended.2.store.get? "made" = some (.atom "spoken") ∧
      ended.2.store.get? "heard" = some (.atom "rung") ∧
      ended.2.Hygienic := by
  have natives : ringing.KeepsNames (Text.isIdentifier · = true) :=
    fun _ machine named => named.push (by show _ = true; decide)
  have inside : keepBoth.NamesAre (Text.isIdentifier · = true) := by
    simp only [keepBoth, Operation.NamesAre, Operation.Throughout,
      operationsThroughout, PartCondition.names]
    decide
  have hygienic : keepingMachine.Hygienic := by
    refine ⟨?_, List.forall_mem_nil _,
      Bindings.NamesAre.empty.set (by decide) ?_⟩
    · exact List.forall_mem_cons.mpr
        ⟨trivial, List.forall_mem_singleton.mpr trivial⟩
    · exact Value.namesAre_operation.mpr inside
  have ends : ∃ ended, execute ringing 20 keepBoth keepingMachine =
      some ended ∧ ended.2.store.get? "made" = some (.atom "spoken") ∧
      ended.2.store.get? "heard" = some (.atom "rung") :=
    ⟨_, rfl, rfl, rfl⟩
  obtain ⟨ended, run, made, heard⟩ := ends
  have stays := (identifiers_stay_identifiers natives).2 keepingMachine hygienic
  exact ⟨natives, hygienic, rfl, ended, run, made, heard,
    stays.2.2.1 20 keepBoth ended inside run⟩

end StackAssembly
