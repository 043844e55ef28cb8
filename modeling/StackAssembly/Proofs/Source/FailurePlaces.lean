import StackAssembly.Proofs.Source.Recognition

/-!
# Where parsers fail

A parser that fails has read some of the tokens, and it reports its error at
the first token that it has not read.  If the error says what was found in
place of something else, this is the token that was found.  If it quotes a
word or a number that denotes nothing, the token that it quotes has been read
by then, as the last one: the error is reported behind it.
-/

namespace StackAssembly
namespace Source

/-- The lexeme that was found where something else was expected. -/
def ParseDefect.found? : ParseDefect → Option Lexeme
  | .expected _ found => some found
  | .expectedStatement found => some found
  | _ => none

/-- The lexeme that is quoted, because it denotes nothing of the sort that is
asked for. -/
def ParseDefect.quoted? : ParseDefect → Option Lexeme
  | .unknownValueKind word => some (.identifier word)
  | .unknownOperation word => some (.identifier word)
  | .unknownErrorCode word => some (.identifier word)
  | .unknownKind word => some (.identifier word)
  | .characterTooLarge word => some (.integer word)
  | _ => none

/-- Whether an error arises where so many of a sequence of tokens have been
read.  It is placed at the next token, which is the one that it says was
found.  If it quotes a token, this is the last one that has been read. -/
structure ParseError.ArisesAt (tokens : Nat → Token) (count : Nat)
    (failure : ParseError) : Prop where
  position : failure.position = (tokens count).position
  found : ∀ lexeme, failure.defect.found? = some lexeme →
    (tokens count).lexeme = lexeme
  quoted : ∀ lexeme, failure.defect.quoted? = some lexeme →
    ∃ last, count = last + 1 ∧ (tokens last).lexeme = lexeme

/-- What is said of the tokens behind others holds among all of them. -/
theorem ParseError.ArisesAt.behind {tokens : Nat → Token} {front count : Nat}
    {failure : ParseError}
    (arises : failure.ArisesAt (fun index => tokens (front + index)) count) :
    failure.ArisesAt tokens (front + count) where
  position := arises.position
  found := arises.found
  quoted lexeme quotes := by
    obtain ⟨last, rfl, same⟩ := arises.quoted lexeme quotes
    exact ⟨front + last, rfl, same⟩

/-- The token that comes next when so many more have been read. -/
def TokenCursor.ahead (cursor : TokenCursor) (count : Nat) : Token :=
  (cursor.skip count).next

theorem TokenCursor.ahead_skip (cursor : TokenCursor) (count : Nat) :
    (cursor.skip count).ahead = fun index => cursor.ahead (count + index) := by
  funext index
  rw [ahead, ahead, skip_skip]

/-- Whether the run of a parser has only read tokens, and its error, if there
is one, arises where it has stopped. -/
inductive Placed {α : Type} (cursor : TokenCursor) :
    EStateM.Result ParseError TokenCursor α → Prop where
  | answer {value} (count : Nat) :
      Placed cursor (.ok value (cursor.skip count))
  | failure {failure : ParseError} (count : Nat)
      (arises : failure.ArisesAt cursor.ahead count) :
      Placed cursor (.error failure (cursor.skip count))

variable {α β : Type}

/-- A run behind some tokens is one from in front of them. -/
theorem Placed.behind {cursor : TokenCursor} {count : Nat}
    {result : EStateM.Result ParseError TokenCursor α}
    (placed : Placed (cursor.skip count) result) : Placed cursor result := by
  cases placed with
  | answer more =>
      rw [TokenCursor.skip_skip]
      exact .answer _
  | failure more arises =>
      rw [TokenCursor.ahead_skip] at arises
      rw [TokenCursor.skip_skip]
      exact .failure _ arises.behind

namespace Parser

/-- Whether the errors of a parser arise where it stops, wherever it starts. -/
def Places (parser : Parser α) : Prop :=
  ∀ cursor, Placed cursor (parser cursor)

/-- Whether the errors of a parser arise where it stops if it starts behind a
certain lexeme, which may be quoted. -/
def PlacesBehind (lexeme : Lexeme) (parser : Parser α) : Prop :=
  ∀ cursor, cursor.peek = lexeme → Placed cursor (parser cursor.advance)

theorem Places.behind {parser : Parser α} (places : parser.Places)
    (lexeme : Lexeme) : parser.PlacesBehind lexeme :=
  fun cursor _ => @Placed.behind _ cursor 1 _ (places cursor.advance)

theorem places_pure (value : α) : Places (pure value) :=
  fun _ => .answer 0

theorem Places.bind {first : Parser α} {later : α → Parser β}
    (one : first.Places) (two : ∀ value, (later value).Places) :
    (first >>= later).Places := by
  intro cursor
  have placed := one cursor
  generalize run : first cursor = result at placed
  cases placed with
  | answer count =>
      rw [bind_of_ok run]
      exact (two _ _).behind
  | failure count arises =>
      rw [bind_of_error run]
      exact .failure count arises

theorem Places.map {parser : Parser α} (places : parser.Places)
    (make : α → β) : Places (do return make (← parser)) :=
  places.bind fun value => places_pure (make value)

/-- A parser may look at the tokens before it reads. -/
theorem places_get {later : TokenCursor → Parser α}
    (each : ∀ cursor, Placed cursor (later cursor cursor)) :
    (get >>= later).Places :=
  each

/-- A defect may name the lexeme that comes next. -/
theorem placed_fail {defect : ParseDefect} {cursor : TokenCursor}
    (found : ∀ lexeme, defect.found? = some lexeme → cursor.peek = lexeme)
    (unquoted : defect.quoted? = none) :
    Placed cursor ((fail defect : Parser α) cursor) := by
  refine .failure 0 ⟨rfl, found, fun lexeme quotes => ?_⟩
  exact nomatch unquoted.symm.trans quotes

/-- A defect that names no lexeme may be reported anywhere. -/
theorem places_fail {defect : ParseDefect} (unfound : defect.found? = none)
    (unquoted : defect.quoted? = none) :
    (fail defect : Parser α).Places := by
  intro cursor
  apply placed_fail _ unquoted
  intro lexeme finds
  exact nomatch unfound.symm.trans finds

/-- A defect may quote the lexeme that was read last. -/
theorem placesBehind_fail {defect : ParseDefect} {lexeme : Lexeme}
    (unfound : defect.found? = none)
    (quoted : defect.quoted? = some lexeme) :
    (fail defect : Parser α).PlacesBehind lexeme := by
  intro cursor here
  refine .failure 1 ⟨rfl, fun other finds => ?_, fun other quotes => ?_⟩
  · exact nomatch unfound.symm.trans finds
  · obtain rfl : lexeme = other :=
      Option.some.inj (quoted.symm.trans quotes)
    exact ⟨0, rfl, here⟩

theorem placed_unexpected (what : String) (cursor : TokenCursor) :
    Placed cursor ((unexpected what : Parser α) cursor) := by
  change Placed cursor (fail (.expected what cursor.peek) cursor)
  apply placed_fail _ rfl
  rintro lexeme ⟨⟩
  rfl

theorem places_advance : advance.Places :=
  fun _ => .answer 1

theorem places_nextIf (lexeme : Lexeme) : (nextIf lexeme).Places := by
  refine places_get fun cursor => ?_
  split
  · exact places_advance.bind (fun _ => places_pure true) cursor
  · exact places_pure false cursor

theorem places_nextIfWord (word : String) : (nextIfWord word).Places := by
  refine places_get fun cursor => ?_
  split
  · exact places_advance.bind (fun _ => places_pure true) cursor
  · exact places_pure false cursor

theorem places_expect (lexeme : Lexeme) : (expect lexeme).Places := by
  refine (places_nextIf lexeme).bind fun found => ?_
  cases found with
  | true => exact places_pure ()
  | false => exact placed_unexpected _

/-- What follows an identifier may quote it. -/
theorem places_identifier_bind (what : String) {later : String → Parser β}
    (each : ∀ name, (later name).PlacesBehind (.identifier name)) :
    (identifier what >>= later).Places := by
  rw [identifier, bind_assoc]
  refine places_get fun cursor => ?_
  cases here : cursor.peek with
  | identifier name => exact each name cursor here
  | _ => exact @placed_unexpected β what cursor

theorem places_identifier (what : String) : (identifier what).Places := by
  rw [← bind_pure (identifier what)]
  exact places_identifier_bind what fun name => (places_pure name).behind _

theorem places_integer : integer.Places := by
  refine places_get fun cursor => ?_
  cases cursor.peek with
  | integer word =>
      exact places_advance.bind (fun _ => places_pure word) cursor
  | _ => exact placed_unexpected _ cursor

theorem places_string : string.Places := by
  refine places_get fun cursor => ?_
  cases cursor.peek with
  | string text =>
      exact places_advance.bind (fun _ => places_pure text) cursor
  | _ => exact placed_unexpected _ cursor

theorem places_listItems {item : Parser α} (each : item.Places)
    (close : Lexeme) (fuel : Nat) : (listItems close item fuel).Places := by
  induction fuel with
  | zero => exact places_pure []
  | succ fuel ih =>
      refine (places_nextIf close).bind fun closed => ?_
      cases closed with
      | true => exact places_pure []
      | false =>
          refine each.bind fun first => ?_
          refine (places_nextIf .comma).bind fun comma => ?_
          cases comma with
          | true => exact ih.map (first :: ·)
          | false =>
              exact (places_expect close).bind fun _ => places_pure [first]

theorem places_list {item : Parser α} (each : item.Places)
    («open» close : Lexeme) : (list «open» close item).Places :=
  (places_expect «open»).bind fun _ => places_get fun cursor =>
    places_listItems each close _ cursor

theorem places_names (what : String) (fuel : Nat) :
    (names what fuel).Places := by
  induction fuel with
  | zero => exact places_pure []
  | succ fuel ih =>
      refine (places_identifier what).bind fun first => ?_
      refine (places_nextIf .comma).bind fun comma => ?_
      cases comma with
      | true => exact ih.map (first :: ·)
      | false => exact places_pure [first]

theorem places_slots : slots.Places := by
  refine (places_nextIfWord "slots").bind fun found => ?_
  cases found with
  | true => exact places_get fun cursor => places_names _ _ cursor
  | false => exact places_pure []

theorem places_separator : separator.Places := by
  refine (places_nextIf .comma).bind fun comma => ?_
  cases comma with
  | true => exact places_pure ()
  | false =>
      exact (places_nextIf .semicolon).bind fun _ => places_pure ()

theorem places_boolean : boolean.Places := by
  refine (places_nextIfWord "true").bind fun found => ?_
  cases found with
  | true => exact places_pure true
  | false =>
      refine (places_nextIfWord "false").bind fun found => ?_
      cases found with
      | true => exact places_pure false
      | false => exact places_fail rfl rfl

/-- The code of a character has been read when it turns out to be too
large. -/
theorem places_character : character.Places := by
  refine places_get fun cursor => ?_
  cases here : cursor.peek with
  | character code =>
      exact places_advance.bind (fun _ => places_pure code) cursor
  | integer word =>
      have checked : PlacesBehind (.integer word)
          (if word.toNat < UInt32.size then
            return word.toUInt32
          else
            fail (.characterTooLarge word) : Parser UInt32) := by
        split
        · exact (places_pure _).behind _
        · exact placesBehind_fail rfl rfl
      exact checked cursor here
  | _ => exact places_fail rfl rfl cursor

theorem places_errorCode : errorCode.Places := by
  refine places_identifier_bind _ fun word => ?_
  cases ErrorCode.ofToken? word with
  | some code => exact (places_pure code).behind _
  | none => exact placesBehind_fail rfl rfl

theorem places_valueKind : valueKind.Places := by
  refine places_identifier_bind _ fun word => ?_
  cases ValueKind.ofKeyword? word with
  | some kind => exact (places_pure kind).behind _
  | none => exact placesBehind_fail rfl rfl

end Parser

/-- Whether the errors of the parsers of parts arise where these stop. -/
structure PartParsers.Places (parts : PartParsers) : Prop where
  value : parts.value.Places
  operation : parts.operation.Places

namespace PartParsers.Places

open Source.Parser

variable {parts : PartParsers}

theorem tupleBody (places : parts.Places) : parts.tupleBody.Places :=
  places_list places.value _ _

theorem entry (places : parts.Places) : parts.entry.Places :=
  places.value.bind fun key => (places_expect .arrow).bind fun _ =>
    places.value.map (key, ·)

theorem tableBody (places : parts.Places) : parts.tableBody.Places :=
  (places_list places.entry _ _).map Entries.ofPairs

theorem setBody (places : parts.Places) : parts.setBody.Places :=
  (places_list places.value _ _).map Members.ofValues

theorem operations (places : parts.Places) (fuel : Nat) :
    (parts.operations fuel).Places := by
  induction fuel with
  | zero => exact places_pure []
  | succ fuel ih =>
      have rest : Parser.Places (do
          let first ← parts.operation
          separator
          return first :: (← parts.operations fuel)) :=
        places.operation.bind fun first =>
          places_separator.bind fun _ => ih.map (first :: ·)
      refine (places_nextIf .closeBrace).bind fun closed => ?_
      cases closed with
      | true => exact places_pure []
      | false =>
          refine places_get fun cursor => ?_
          split
          · exact (places_fail rfl rfl).bind (fun _ => rest) cursor
          · exact rest cursor

theorem blockBody (places : parts.Places) : parts.blockBody.Places := by
  refine places_slots.bind fun names => ?_
  refine (places_expect .openBrace).bind fun _ => ?_
  refine places_get fun cursor => ?_
  exact (places.operations _).map (Operation.block names) cursor

theorem binding (places : parts.Places) : parts.binding.Places := by
  refine places.value.bind fun value => ?_
  refine places.value.bind fun target => ?_
  cases target.callable? with
  | some callable => exact places_pure _
  | none => exact places_fail rfl rfl

theorem valueBody (places : parts.Places) (form : ValueKind) :
    (parts.valueBody form).Places := by
  cases form with
  | empty => exact places_pure _
  | number => exact places_integer.map _
  | boolean => exact places_boolean.map _
  | character => exact places_character.map _
  | string => exact places_string.map _
  | atom => exact (places_identifier _).map _
  | error => exact places_errorCode.map _
  | type => exact places_valueKind.map _
  | tuple => exact places.tupleBody.map _
  | table => exact places.tableBody.map _
  | set => exact places.setBody.map _
  | operation => exact places.operation.map _
  | block => exact places.blockBody.map _
  | bind => exact places.binding.map _

theorem arguments (places : parts.Places) : parts.arguments.Places := by
  refine places_get fun cursor => ?_
  split
  · exact places.tupleBody cursor
  · exact places_pure [] cursor

theorem alternative (places : parts.Places) : parts.alternative.Places := by
  refine (places_nextIfWord "else").bind fun found => ?_
  cases found with
  | true => exact places.operation.map some
  | false => exact places_pure none

theorem operationBody (places : parts.Places) (kind form : OperationKind) :
    (parts.operationBody kind form).Places := by
  cases form with
  | primitive which =>
      dsimp only [PartParsers.operationBody]
      cases Operation.ofKind? kind with
      | some operation => exact places_pure operation
      | none => exact places_fail rfl rfl
  | push => exact places.value.map _
  | ifTrue => exact places.operation.map _
  | select =>
      exact places.tableBody.bind fun cases =>
        places.alternative.map (Operation.select cases)
  | named use =>
      refine (places_identifier _).bind fun name => ?_
      cases kind with
      | named use => exact places_pure _
      | _ => exact places_fail rfl rfl
  | call =>
      exact (places_identifier _).bind fun target =>
        places.arguments.map (Operation.call target)
  | loadNative => exact places_string.map _
  | native =>
      exact (places_identifier _).bind fun bucket =>
        (places_identifier _).map (Operation.native bucket)
  | block => exact places.blockBody
  | partialBind =>
      exact places.value.bind fun value =>
        places.operation.map (Operation.partialBind value)

theorem openValue (places : parts.Places) (dialect : Dialect) :
    (parts.openValue dialect).Places := by
  refine places_identifier_bind _ fun keyword => ?_
  cases dialect.valueFormOfKeyword? keyword with
  | some form => exact (places.valueBody form).behind _
  | none => exact placesBehind_fail rfl rfl

theorem openOperation (places : parts.Places) (dialect : Dialect) :
    (parts.openOperation dialect).Places := by
  refine places_identifier_bind _ fun keyword => ?_
  cases dialect.operationFormOfKeyword? keyword with
  | some form => exact (places.operationBody form.1 form.2).behind _
  | none => exact placesBehind_fail rfl rfl

end PartParsers.Places

/-- However many levels of nesting are left, errors arise where parsers
stop. -/
theorem places_within (dialect : Dialect) (levels : Nat) :
    (PartParsers.within dialect levels).Places := by
  induction levels with
  | zero => exact ⟨Parser.places_fail rfl rfl, Parser.places_fail rfl rfl⟩
  | succ levels ih => exact ⟨ih.openValue dialect, ih.openOperation dialect⟩

theorem places_parsePayload (dialect : Dialect) :
    (parsePayload dialect).Places :=
  Parser.places_get fun cursor => (places_within dialect _).value cursor

theorem places_parseOperation (dialect : Dialect) :
    (parseOperation dialect).Places :=
  Parser.places_get fun cursor => (places_within dialect _).operation cursor

theorem places_parseStatement (dialect : Dialect) :
    (parseStatement dialect).Places := by
  refine (Parser.places_nextIfWord "value").bind fun found => ?_
  cases found with
  | true =>
      exact (Parser.places_identifier _).bind fun name =>
        (places_parsePayload dialect).map (name, ·)
  | false =>
      refine Parser.places_get fun cursor => ?_
      apply Parser.placed_fail _ rfl
      rintro lexeme ⟨⟩
      rfl

end Source
end StackAssembly
