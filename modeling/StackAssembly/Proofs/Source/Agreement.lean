import StackAssembly.Proofs.Source.Recognition
import StackAssembly.Proofs.Source.Recording

/-!
# The two forms of the grammar agree

A recording follows a parser if it comes, from every session, to the outcome
that the parser comes to from the cursor of the session.  What the parser
answers is answered with no error recorded, and where the parser stops the
recording has recorded its error and nothing else.  Either way some of the
tokens have been read, and the count of what is open is that of the start.

The parser never looks at this count, so it may be run with any other.  This
is what lets a recording that has entered a payload follow the parser of a
part, which has not.
-/

namespace StackAssembly
namespace Source

namespace TokenCursor

/-- The cursor with another count of open payloads and operations. -/
def atDepth (cursor : TokenCursor) (depth : Nat) : TokenCursor :=
  { cursor with depth }

@[simp]
theorem peek_atDepth (cursor : TokenCursor) (depth : Nat) :
    (cursor.atDepth depth).peek = cursor.peek :=
  rfl

@[simp]
theorem atEnd_atDepth (cursor : TokenCursor) (depth : Nat) :
    (cursor.atDepth depth).atEnd = cursor.atEnd :=
  rfl

theorem skip_atDepth (cursor : TokenCursor) (depth count : Nat) :
    (cursor.atDepth depth).skip count = (cursor.skip count).atDepth depth := by
  induction count generalizing cursor with
  | zero => rfl
  | succ count ih => exact ih cursor.advance

theorem atDepth_skip (cursor : TokenCursor) (count : Nat) :
    (cursor.skip count).atDepth cursor.depth = cursor.skip count := by
  rw [← depth_skip cursor count]
  rfl

theorem length_rest_skip (cursor : TokenCursor) (count : Nat) :
    (cursor.skip count).rest.length = cursor.rest.length - count := by
  rw [rest_skip, List.length_drop]

/-- A cursor at which something else than the end comes next has a token
left. -/
theorem length_pos_of_peek_ne {cursor : TokenCursor}
    (other : cursor.peek ≠ .endOfInput) : 0 < cursor.rest.length := by
  obtain ⟨rest, ending, consumed, depth⟩ := cursor
  cases rest with
  | nil => exact absurd rfl other
  | cons token rest => exact Nat.succ_pos _

end TokenCursor

variable {α β : Type}

namespace Recording

variable {recording : Recording α} {later : α → Recording β}
  {session next : Session} {value : α}

theorem bind_of_answer
    (ran : recording session = some (some value, next)) :
    (recording >>= later) session = later value next := by
  change Option.bind (recording session) _ = _
  rw [ran]
  rfl

theorem bind_of_failure (ran : recording session = some (none, next)) :
    (recording >>= later) session = some (none, next) := by
  change Option.bind (recording session) _ = _
  rw [ran]
  rfl

end Recording

/-- The outcome of a recording from a session agrees with the result of a
parser, whose cursor has the count `outer`.  A result that is answered leaves
fewer than `left` tokens. -/
inductive Agrees (session : Session) (outer left : Nat) :
    Option (Option α × Session) →
      EStateM.Result ParseError TokenCursor α → Prop where
  | answer {value count} (within : count ≤ session.cursor.rest.length)
      (fewer : session.cursor.rest.length - count < left) :
      Agrees session outer left
        (some (some value, session.moveTo (session.cursor.skip count)))
        (.ok value ((session.cursor.skip count).atDepth outer))
  | failure {failure count} (within : count ≤ session.cursor.rest.length)
      (context : failure.context = (session.cursor.skip count).context) :
      Agrees session outer left
        (some (none,
          { cursor := session.cursor.skip count
            errors := session.errors ++ [failure] }))
        (.error failure ((session.cursor.skip count).atDepth outer))

/-- An outcome behind some tokens is one of the session in front of them. -/
theorem Agrees.behind {session : Session} {outer left count : Nat}
    {result : Option (Option α × Session)}
    {read : EStateM.Result ParseError TokenCursor α}
    (within : count ≤ session.cursor.rest.length)
    (agrees : Agrees (session.moveTo (session.cursor.skip count)) outer left
      result read) : Agrees session outer left result read := by
  have rest := TokenCursor.length_rest_skip session.cursor count
  cases agrees with
  | @answer value more within' fewer =>
      rw [Session.moveTo, rest] at within' fewer
      have answered := @Agrees.answer α session outer left value
        (count + more) (by omega) (by omega)
      rwa [← TokenCursor.skip_skip] at answered
  | @failure failure more within' context =>
      rw [Session.moveTo, rest] at within'
      have failed := @Agrees.failure α session outer left failure
        (count + more) (by omega)
      rw [← TokenCursor.skip_skip] at failed
      exact failed context

/-- A recording agrees with a parser from a session on. -/
def FollowsAt (session : Session) (outer left : Nat)
    (recording : Recording α) (parser : Parser α) : Prop :=
  Agrees session outer left (recording session)
    (parser (session.cursor.atDepth outer))

/-- A recording agrees with a parser from every session with the given count
and fewer than `bound` tokens. -/
def Follows (depth outer bound left : Nat) (recording : Recording α)
    (parser : Parser α) : Prop :=
  ∀ session, session.cursor.depth = depth →
    session.cursor.rest.length < bound →
      FollowsAt session outer left recording parser

section Sequences

variable {session : Session} {depth outer bound left last : Nat}
  {recording : Recording α} {parser : Parser α}
  {later : α → Recording β} {laterParser : α → Parser β}

theorem Agrees.relax {result : Option (Option α × Session)}
    {read : EStateM.Result ParseError TokenCursor α}
    (agrees : Agrees session outer left result read) (more : left ≤ last) :
    Agrees session outer last result read := by
  cases agrees with
  | answer within fewer =>
      exact .answer within (Nat.lt_of_lt_of_le fewer more)
  | failure within context => exact .failure within context

/-- Whatever has been read, there are not more tokens than before. -/
theorem Agrees.keeping {result : Option (Option α × Session)}
    {read : EStateM.Result ParseError TokenCursor α}
    (agrees : Agrees session outer left result read) :
    Agrees session outer (session.cursor.rest.length + 1) result read := by
  cases agrees with
  | answer within fewer => exact .answer within (by omega)
  | failure within context => exact .failure within context

theorem Follows.relax {bound' left' : Nat}
    (follows : Follows depth outer bound left recording parser)
    (fewer : bound' ≤ bound) (more : left ≤ left') :
    Follows depth outer bound' left' recording parser :=
  fun session here few =>
    (follows session here (Nat.lt_of_lt_of_le few fewer)).relax more

/-- A recording and a parser answer a value behind some tokens. -/
structure Takes (session : Session) (outer count : Nat) (value : α)
    (recording : Recording α) (parser : Parser α) : Prop where
  within : count ≤ session.cursor.rest.length
  recorded : recording session =
    some (some value, session.moveTo (session.cursor.skip count))
  parsed : parser (session.cursor.atDepth outer) =
    .ok value ((session.cursor.skip count).atDepth outer)

/-- What follows a value that was answered is read behind its tokens, with
nothing recorded. -/
theorem Takes.bind {count : Nat} {value : α}
    (takes : Takes session outer count value recording parser)
    (goesOn : FollowsAt (session.moveTo (session.cursor.skip count)) outer
      last (later value) (laterParser value)) :
    FollowsAt session outer last (recording >>= later)
      (parser >>= laterParser) := by
  unfold FollowsAt
  rw [Recording.bind_of_answer takes.recorded, bind_of_ok takes.parsed]
  exact Agrees.behind takes.within goesOn

theorem FollowsAt.bind
    (one : FollowsAt session outer left recording parser)
    (two : ∀ value, Follows session.cursor.depth outer left last (later value)
      (laterParser value)) :
    FollowsAt session outer last (recording >>= later)
      (parser >>= laterParser) := by
  unfold FollowsAt at one
  generalize recorded : recording session = result at one
  generalize parsed : parser (session.cursor.atDepth outer) = read at one
  cases one with
  | @answer value count within fewer =>
      have rest := TokenCursor.length_rest_skip session.cursor count
      exact Takes.bind ⟨within, recorded, parsed⟩
        (two value (session.moveTo (session.cursor.skip count))
          (TokenCursor.depth_skip _ _) (rest ▸ fewer))
  | failure within context =>
      unfold FollowsAt
      rw [Recording.bind_of_failure recorded, bind_of_error parsed]
      exact .failure within context

/-- Nothing is gained from the first recording but that it takes no token
back. -/
theorem Follows.bind {any : Nat}
    (one : Follows depth outer bound any recording parser)
    (two : ∀ value, Follows depth outer bound last (later value)
      (laterParser value)) :
    Follows depth outer bound last (recording >>= later)
      (parser >>= laterParser) := by
  intro session here few
  refine FollowsAt.bind (one session here few).keeping fun value => ?_
  rw [here]
  exact (two value).relax few (Nat.le_refl last)

/-- The first recording reads a token, and the second one has one less. -/
theorem Follows.bindTaking
    (one : Follows depth outer bound left recording parser)
    (two : ∀ value, Follows depth outer left last (later value)
      (laterParser value)) :
    Follows depth outer bound last (recording >>= later)
      (parser >>= laterParser) := by
  intro session here few
  refine FollowsAt.bind (one session here few) fun value => ?_
  rw [here]
  exact two value

theorem follows_pure (value : α) :
    Follows depth outer bound bound (pure value) (pure value) :=
  fun session _ few =>
    @Agrees.answer α session outer bound value 0 (Nat.zero_le _) few

/-- A value may be answered behind a token that was read. -/
theorem follows_pure_behind (value : α) :
    Follows depth outer (bound - 1) bound (pure value) (pure value) :=
  (follows_pure value).relax (Nat.le_refl _) (Nat.sub_le _ _)

theorem follows_fail (defect : ParseDefect) :
    Follows depth outer bound left (@Recording.fail α defect)
      (Parser.fail defect) :=
  fun session _ _ =>
    @Agrees.failure α session outer left (session.cursor.errorAt defect) 0
      (Nat.zero_le _) rfl

theorem Follows.kept
    (follows : Follows depth outer bound left recording parser) :
    Follows depth outer bound bound recording parser :=
  fun session here few =>
    (follows session here few).keeping.relax few

theorem Follows.map (follows : Follows depth outer bound left recording parser)
    (make : α → β) :
    Follows depth outer bound left (do return make (← recording))
      (do return make (← parser)) :=
  follows.bindTaking fun value => follows_pure (make value)

/-- A recording and a parser may look at the tokens before they read. -/
theorem follows_get {looking : Session → Recording α}
    {lookingParser : TokenCursor → Parser α}
    (each : ∀ session, session.cursor.depth = depth →
      session.cursor.rest.length < bound →
        FollowsAt session outer left (looking session)
          (lookingParser (session.cursor.atDepth outer))) :
    Follows depth outer bound left (get >>= looking) (get >>= lookingParser) :=
  each

end Sequences

section Tokens

variable {session : Session} {depth outer bound left : Nat}

/-- Where something else than the end comes next, a token is taken. -/
theorem followsAt_advance (other : session.cursor.peek ≠ .endOfInput)
    (few : session.cursor.rest.length < bound) :
    FollowsAt session outer (bound - 1) Recording.advance Parser.advance := by
  have more := TokenCursor.length_pos_of_peek_ne other
  exact @Agrees.answer Unit session outer (bound - 1) () 1 more (by omega)

/-- Reading one token and answering a value. -/
theorem followsAt_advance_pure (value : α)
    (other : session.cursor.peek ≠ .endOfInput)
    (few : session.cursor.rest.length < bound) :
    FollowsAt session outer (bound - 1)
      (do Recording.advance; return value) (do Parser.advance; return value) :=
  (followsAt_advance other few).bind fun _ => follows_pure value

theorem follows_unexpected (what : String) :
    Follows depth outer bound left (@Recording.unexpected α what)
      (Parser.unexpected what) :=
  follows_get fun session here few =>
    follows_fail _ session here few

section Choice

variable {later : Bool → Recording β} {laterParser : Bool → Parser β}

/-- A decision by the next lexeme takes a token if it is made for it. -/
theorem Follows.bindDecision {accepts : Lexeme → Prop}
    [DecidablePred accepts] (real : ¬ accepts .endOfInput)
    (yes : Follows depth outer (bound - 1) left (later true) (laterParser true))
    (no : Follows depth outer bound left (later false) (laterParser false)) :
    Follows depth outer bound left
      ((do
        if accepts (← get).cursor.peek then
          Recording.advance
          return true
        else
          return false) >>= later)
      ((do
        if accepts (← get).peek then
          Parser.advance
          return true
        else
          return false) >>= laterParser) := by
  intro session here few
  by_cases accepted : accepts session.cursor.peek
  · have more : 0 < session.cursor.rest.length :=
      TokenCursor.length_pos_of_peek_ne fun ended => real (ended ▸ accepted)
    have rest := TokenCursor.length_rest_skip session.cursor 1
    refine @Takes.bind _ _ session outer left _ _ _ _ 1 true
      ⟨more, ?_, ?_⟩ ?_
    · show (if accepts session.cursor.peek then _ else _ : Recording Bool)
        session = _
      rw [if_pos accepted]
      rfl
    · show (if accepts session.cursor.peek then _ else _ : Parser Bool)
        (session.cursor.atDepth outer) = _
      rw [if_pos accepted]
      rfl
    · exact yes (session.moveTo (session.cursor.skip 1)) here
        (by rw [Session.moveTo, rest]; omega)
  · refine @Takes.bind _ _ session outer left _ _ _ _ 0 false
      ⟨Nat.zero_le _, ?_, ?_⟩ (no session here few)
    · show (if accepts session.cursor.peek then _ else _ : Recording Bool)
        session = _
      rw [if_neg accepted]
      rfl
    · show (if accepts session.cursor.peek then _ else _ : Parser Bool)
        (session.cursor.atDepth outer) = _
      rw [if_neg accepted]
      rfl

theorem Follows.bindNextIf {lexeme : Lexeme} (real : lexeme ≠ .endOfInput)
    (yes : Follows depth outer (bound - 1) left (later true) (laterParser true))
    (no : Follows depth outer bound left (later false) (laterParser false)) :
    Follows depth outer bound left (Recording.nextIf lexeme >>= later)
      (Parser.nextIf lexeme >>= laterParser) :=
  @Follows.bindDecision _ _ _ _ _ _ _ (· = lexeme) _ real.symm yes no

theorem Follows.bindNextIfWord {word : String}
    (yes : Follows depth outer (bound - 1) left (later true) (laterParser true))
    (no : Follows depth outer bound left (later false) (laterParser false)) :
    Follows depth outer bound left (Recording.nextIfWord word >>= later)
      (Parser.nextIfWord word >>= laterParser) :=
  @Follows.bindDecision _ _ _ _ _ _ _ (·.isWord word) _ nofun yes no

end Choice

theorem follows_expect {lexeme : Lexeme} (real : lexeme ≠ .endOfInput) :
    Follows depth outer bound bound (Recording.expect lexeme)
      (Parser.expect lexeme) :=
  .bindNextIf real (follows_pure_behind ()) (follows_unexpected _)

theorem follows_identifier (what : String) :
    Follows depth outer bound (bound - 1) (Recording.identifier what)
      (Parser.identifier what) := by
  refine follows_get fun session here few => ?_
  rw [TokenCursor.peek_atDepth]
  cases found : session.cursor.peek with
  | identifier name =>
      exact followsAt_advance_pure name (found ▸ nofun) few
  | _ => exact follows_unexpected what session here few

theorem follows_integer :
    Follows depth outer bound (bound - 1) Recording.integer Parser.integer := by
  refine follows_get fun session here few => ?_
  rw [TokenCursor.peek_atDepth]
  cases found : session.cursor.peek with
  | integer word => exact followsAt_advance_pure word (found ▸ nofun) few
  | _ => exact follows_unexpected _ session here few

theorem follows_string :
    Follows depth outer bound (bound - 1) Recording.string Parser.string := by
  refine follows_get fun session here few => ?_
  rw [TokenCursor.peek_atDepth]
  cases found : session.cursor.peek with
  | string text => exact followsAt_advance_pure text (found ▸ nofun) few
  | _ => exact follows_unexpected _ session here few

/-- The rounds last if they exceed the number of tokens. -/
theorem follows_listItems {close : Lexeme} {item : Recording α}
    {itemParser : Parser α} (real : close ≠ .endOfInput)
    (each : ∀ bound, Follows depth outer bound bound item itemParser)
    (rounds : Nat) :
    Follows depth outer rounds rounds (Recording.listItems close item rounds)
      (Parser.listItems close itemParser rounds) := by
  induction rounds with
  | zero => exact fun _ _ few => absurd few (Nat.not_lt_zero _)
  | succ rounds ih =>
      refine .bindNextIf real (follows_pure_behind []) ?_
      refine (each _).bind fun first => ?_
      refine .bindNextIf nofun ?_ ?_
      · -- The comma is a token, so the other rounds last for the rest.
        exact (ih.map (first :: ·)).relax (Nat.le_refl _) (Nat.le_succ _)
      · exact (follows_expect real).bind fun _ => follows_pure [first]

theorem follows_list {first close : Lexeme} {item : Recording α}
    {itemParser : Parser α} (real : first ≠ .endOfInput)
    (realClose : close ≠ .endOfInput)
    (each : ∀ bound, Follows depth outer bound bound item itemParser) :
    Follows depth outer bound bound (Recording.list first close item)
      (Parser.list first close itemParser) := by
  refine (follows_expect real).bind fun _ => ?_
  refine follows_get fun session here few => ?_
  exact (follows_listItems realClose each _ session here
    (Nat.lt_succ_self _)).relax few

theorem follows_names (what : String) (rounds : Nat) :
    Follows depth outer rounds rounds (Recording.names what rounds)
      (Parser.names what rounds) := by
  induction rounds with
  | zero => exact fun _ _ few => absurd few (Nat.not_lt_zero _)
  | succ rounds ih =>
      refine (follows_identifier what).bindTaking fun first => ?_
      refine .bindNextIf nofun ?_ ?_
      · exact (ih.map (first :: ·)).relax (Nat.sub_le _ _) (Nat.le_succ _)
      · exact follows_pure_behind [first]

theorem follows_slots :
    Follows depth outer bound bound Recording.slots Parser.slots := by
  refine .bindNextIfWord ?_ (follows_pure [])
  refine follows_get fun session here few => ?_
  exact (follows_names _ _ session here
    (Nat.lt_succ_self _)).relax (by omega)

theorem follows_separator :
    Follows depth outer bound bound Recording.separator Parser.separator := by
  refine .bindNextIf nofun (follows_pure_behind ()) ?_
  exact .bindNextIf nofun (follows_pure_behind ()) (follows_pure ())

theorem follows_boolean :
    Follows depth outer bound bound Recording.boolean Parser.boolean := by
  refine .bindNextIfWord (follows_pure_behind true) ?_
  exact .bindNextIfWord (follows_pure_behind false) (follows_fail _)

theorem follows_character :
    Follows depth outer bound bound Recording.character Parser.character := by
  refine follows_get fun session here few => ?_
  rw [TokenCursor.peek_atDepth]
  cases found : session.cursor.peek with
  | character code =>
      exact (followsAt_advance_pure code (found ▸ nofun) few).relax
        (Nat.sub_le _ _)
  | integer word =>
      refine (followsAt_advance (found ▸ nofun) few).bind fun _ => ?_
      split
      · exact follows_pure_behind _
      · exact follows_fail _
  | _ => exact follows_fail _ session here few

theorem follows_errorCode :
    Follows depth outer bound bound Recording.errorCode Parser.errorCode := by
  refine (follows_identifier _).bind fun word => ?_
  cases ErrorCode.ofToken? word with
  | some code => exact follows_pure code
  | none => exact follows_fail _

theorem follows_valueKind :
    Follows depth outer bound bound Recording.valueKind Parser.valueKind := by
  refine (follows_identifier _).bind fun word => ?_
  cases ValueKind.ofKeyword? word with
  | some kind => exact follows_pure kind
  | none => exact follows_fail _

end Tokens

/-- The recordings of parts follow the parsers of parts, and each reads a
token if it answers. -/
structure Recording.Parts.Follow (depth outer : Nat)
    (parts : Recording.Parts) (parsers : PartParsers) : Prop where
  value : ∀ bound,
    Follows depth outer bound (bound - 1) parts.value parsers.value
  operation : ∀ bound,
    Follows depth outer bound (bound - 1) parts.operation parsers.operation

namespace Recording.Parts.Follow

variable {parts : Parts} {parsers : PartParsers}
  {depth outer bound : Nat}

theorem tupleBody (follow : parts.Follow depth outer parsers) :
    Follows depth outer bound bound parts.tupleBody parsers.tupleBody :=
  follows_list (by decide) (by decide) fun bound => (follow.value bound).kept

theorem entry (follow : parts.Follow depth outer parsers) :
    Follows depth outer bound bound parts.entry parsers.entry :=
  (follow.value bound).bind fun key =>
    (follows_expect (by decide)).bind fun _ =>
      (follow.value bound).kept.map (key, ·)

theorem tableBody (follow : parts.Follow depth outer parsers) :
    Follows depth outer bound bound parts.tableBody parsers.tableBody :=
  (follows_list (by decide) (by decide) fun _ => follow.entry).map
    Entries.ofPairs

theorem setBody (follow : parts.Follow depth outer parsers) :
    Follows depth outer bound bound parts.setBody parsers.setBody :=
  (follows_list (by decide) (by decide) fun bound =>
    (follow.value bound).kept).map Members.ofValues

theorem operations (follow : parts.Follow depth outer parsers) (rounds : Nat) :
    Follows depth outer rounds rounds (parts.operations rounds)
      (parsers.operations rounds) := by
  induction rounds with
  | zero => exact fun _ _ few => absurd few (Nat.not_lt_zero _)
  | succ rounds ih =>
      -- The operation is a token at least, so the other rounds last for the
      -- rest of the block, with or without a separator.
      have rest : Follows depth outer (rounds + 1) (rounds + 1)
          (do
            let first ← parts.operation
            separator
            return first :: (← parts.operations rounds))
          (do
            let first ← parsers.operation
            Parser.separator
            return first :: (← parsers.operations rounds)) :=
        (follow.operation _).bindTaking fun first =>
          follows_separator.bind fun _ =>
            (ih.map (first :: ·)).relax (Nat.le_refl _) (Nat.le_succ _)
      refine .bindNextIf nofun (follows_pure_behind []) ?_
      refine follows_get fun session here few => ?_
      dsimp only
      rw [TokenCursor.atEnd_atDepth]
      split
      · exact ((follows_fail _).bindTaking fun _ => rest) session here few
      · exact rest session here few

theorem blockBody (follow : parts.Follow depth outer parsers) :
    Follows depth outer bound bound parts.blockBody parsers.blockBody := by
  refine follows_slots.bind fun names => ?_
  refine (follows_expect (by decide)).bind fun _ => ?_
  refine follows_get fun session here few => ?_
  have read : FollowsAt session outer bound
      (parts.operations (session.cursor.rest.length + 1))
      (parsers.operations (session.cursor.rest.length + 1)) :=
    (follow.operations _ session here (Nat.lt_succ_self _)).relax few
  exact read.bind fun body => follows_pure (Operation.block names body)

theorem binding (follow : parts.Follow depth outer parsers) :
    Follows depth outer bound bound parts.binding parsers.binding := by
  refine (follow.value bound).bind fun value => ?_
  refine (follow.value bound).bind fun target => ?_
  cases target.callable? with
  | some callable => exact follows_pure (Operation.partialBind value callable)
  | none => exact follows_fail _

theorem valueBody (follow : parts.Follow depth outer parsers)
    (form : ValueKind) :
    Follows depth outer bound bound (parts.valueBody form)
      (parsers.valueBody form) := by
  cases form with
  | empty => exact follows_pure Value.empty
  | number => exact follows_integer.kept.map Value.number
  | boolean => exact follows_boolean.map Value.boolean
  | character => exact follows_character.map Value.character
  | string => exact follows_string.kept.map Value.string
  | atom => exact (follows_identifier _).kept.map Value.atom
  | error => exact follows_errorCode.map Value.error
  | type => exact follows_valueKind.map Value.type
  | tuple => exact follow.tupleBody.map Value.tuple
  | table => exact follow.tableBody.map Value.table
  | set => exact follow.setBody.map Value.set
  | operation => exact (follow.operation bound).kept.map Value.operation
  | block => exact follow.blockBody.map Value.operation
  | bind => exact follow.binding.map Value.operation

theorem arguments (follow : parts.Follow depth outer parsers) :
    Follows depth outer bound bound parts.arguments parsers.arguments := by
  refine follows_get fun session here few => ?_
  rw [TokenCursor.peek_atDepth]
  split
  · exact follow.tupleBody session here few
  · exact follows_pure [] session here few

theorem alternative (follow : parts.Follow depth outer parsers) :
    Follows depth outer bound bound parts.alternative parsers.alternative := by
  refine .bindNextIfWord ?_ (follows_pure none)
  exact ((follow.operation _).kept.map some).relax (Nat.le_refl _)
    (Nat.sub_le _ _)

theorem operationBody (follow : parts.Follow depth outer parsers)
    (kind form : OperationKind) :
    Follows depth outer bound bound (parts.operationBody kind form)
      (parsers.operationBody kind form) := by
  cases form with
  | primitive which =>
      dsimp only [Parts.operationBody, PartParsers.operationBody]
      cases Operation.ofKind? kind with
      | some operation => exact follows_pure operation
      | none => exact follows_fail _
  | push => exact (follow.value bound).kept.map Operation.push
  | ifTrue => exact (follow.operation bound).kept.map Operation.ifTrue
  | select =>
      exact follow.tableBody.bind fun cases =>
        follow.alternative.map (Operation.select cases)
  | named use =>
      refine (follows_identifier _).bind fun name => ?_
      cases kind with
      | named use => exact follows_pure (Operation.named use name)
      | _ => exact follows_fail _
  | call =>
      exact (follows_identifier _).bind fun target =>
        follow.arguments.map (Operation.call target)
  | loadNative => exact follows_string.kept.map Operation.loadNative
  | native =>
      exact (follows_identifier _).bind fun bucket =>
        (follows_identifier _).kept.map (Operation.native bucket)
  | block => exact follow.blockBody
  | partialBind =>
      exact (follow.value bound).bind fun value =>
        (follow.operation bound).kept.map (Operation.partialBind value)

theorem openValue (follow : parts.Follow depth outer parsers)
    (dialect : Dialect) :
    Follows depth outer bound (bound - 1) (parts.openValue dialect)
      (parsers.openValue dialect) := by
  refine (follows_identifier _).bindTaking fun keyword => ?_
  cases dialect.valueFormOfKeyword? keyword with
  | some form => exact follow.valueBody form
  | none => exact follows_fail _

theorem openOperation (follow : parts.Follow depth outer parsers)
    (dialect : Dialect) :
    Follows depth outer bound (bound - 1) (parts.openOperation dialect)
      (parsers.openOperation dialect) := by
  refine (follows_identifier _).bindTaking fun keyword => ?_
  cases dialect.operationFormOfKeyword? keyword with
  | some form => exact follow.operationBody form.1 form.2
  | none => exact follows_fail _

end Recording.Parts.Follow

section Nesting

variable {depth outer bound left : Nat} {recording : Recording α}
  {parser : Parser α}

theorem Recording.leaving_apply (body : Recording α) (session : Session) :
    leaving body session =
      (body session).map fun outcome => (outcome.1, outcome.2.leave) := by
  change Option.bind (body session) _ = _
  cases body session <;> rfl

/-- Where few enough are open, one more is entered and left again. -/
theorem Recording.nested_of_lt {session : Session}
    (room : session.cursor.depth < maxNesting) (body : Recording α) :
    nested body session =
      (body session.enter).map fun outcome =>
        (outcome.1, outcome.2.leave) := by
  rw [← leaving_apply]
  refine @bind_of_answer _ _ _ _ _ _ () ?_
  show (if session.cursor.depth < maxNesting then _ else _ : Recording Unit)
    session = _
  rw [if_pos room]
  rfl

theorem Recording.nested_of_not_lt {session : Session}
    (full : ¬ session.cursor.depth < maxNesting) (body : Recording α) :
    nested body session = some (none, session.record .nestingTooDeep) := by
  refine bind_of_failure ?_
  show (if session.cursor.depth < maxNesting then _ else _ : Recording Unit)
    session = _
  rw [if_neg full]
  rfl

theorem Session.skip_enter (session : Session) (count : Nat) :
    session.enter.cursor.skip count =
      (session.cursor.skip count).atDepth (session.cursor.depth + 1) :=
  TokenCursor.skip_atDepth session.cursor (session.cursor.depth + 1) count

/-- Whatever is read in between, leaving takes back the count of entering. -/
theorem Session.leave_enter (session : Session) (count : Nat)
    (errors : List ParseError) :
    Session.leave { cursor := session.enter.cursor.skip count, errors } =
      { cursor := session.cursor.skip count, errors } := by
  rw [skip_enter]
  exact congrArg (Session.mk · errors)
    (TokenCursor.atDepth_skip session.cursor count)

/-- A part that is read with one more open follows its parser with the old
count. -/
theorem Follows.nested
    (follows : Follows (depth + 1) outer bound left recording parser)
    (room : depth < maxNesting) :
    Follows depth outer bound left (Recording.nested recording) parser := by
  rintro session rfl few
  have inside := follows session.enter rfl few
  unfold FollowsAt at inside ⊢
  rw [Recording.nested_of_lt room]
  change Agrees _ _ _ _ (parser (session.cursor.atDepth outer)) at inside
  generalize recording session.enter = result at inside ⊢
  generalize parser (session.cursor.atDepth outer) = read at inside ⊢
  cases inside with
  | @answer value count within fewer =>
      change Agrees _ _ _ (some (some value, Session.leave
        { cursor := session.enter.cursor.skip count
          errors := session.errors })) _
      rw [Session.leave_enter, Session.skip_enter]
      exact .answer within fewer
  | @failure failure count within context =>
      rw [Session.skip_enter] at context
      rw [Option.map_some, Session.leave_enter, Session.skip_enter]
      exact .failure within context

/-- With too many open, nothing is read. -/
theorem follows_nested_full (full : ¬ depth < maxNesting) :
    Follows depth outer bound left (Recording.nested recording)
      (Parser.fail .nestingTooDeep) := by
  rintro session rfl few
  unfold FollowsAt
  rw [Recording.nested_of_not_lt full]
  exact follows_fail _ session rfl few

/-- The recordings with enough fuel follow the parsers with the levels that
are left. -/
theorem Recording.follow_within (dialect : Dialect) {fuel depth : Nat}
    (enough : maxNesting - depth < fuel) (outer : Nat) :
    (within dialect fuel).Follow depth outer
      (PartParsers.within dialect (maxNesting - depth)) := by
  induction fuel generalizing depth with
  | zero => exact absurd enough (Nat.not_lt_zero _)
  | succ fuel ih =>
      by_cases room : depth < maxNesting
      · have levels : maxNesting - depth = maxNesting - (depth + 1) + 1 := by
          omega
        have inside := @ih (depth + 1) (by omega)
        rw [levels]
        exact {
          value := fun bound => (inside.openValue dialect).nested room
          operation := fun bound =>
            (inside.openOperation dialect).nested room }
      · have none : maxNesting - depth = 0 := by omega
        rw [none]
        exact {
          value := fun bound => follows_nested_full room
          operation := fun bound => follows_nested_full room }

variable {dialect : Dialect} {fuel : Nat}

theorem follows_payload (enough : maxNesting < fuel) :
    Follows depth depth bound (bound - 1) (Recording.payload dialect fuel)
      (parsePayload dialect) := by
  rintro session rfl few
  have follow := @Recording.follow_within dialect fuel session.cursor.depth
    (by omega) session.cursor.depth
  exact follow.value bound session rfl few

theorem follows_operation (enough : maxNesting < fuel) :
    Follows depth depth bound (bound - 1) (Recording.operation dialect fuel)
      (parseOperation dialect) := by
  rintro session rfl few
  have follow := @Recording.follow_within dialect fuel session.cursor.depth
    (by omega) session.cursor.depth
  exact follow.operation bound session rfl few

/-- A statement that is read takes a token at least, its keyword. -/
theorem follows_statement (enough : maxNesting < fuel) :
    Follows depth depth bound (bound - 1) (Recording.statement dialect fuel)
      (parseStatement dialect) := by
  refine .bindNextIfWord ?_ ?_
  · refine (follows_identifier _).bind fun name => ?_
    exact (follows_payload enough).kept.map (name, ·)
  · exact follows_get fun session here few =>
      follows_fail _ session here few

end Nesting
end Source
end StackAssembly
