import StackAssembly.Proofs.Computation
import StackAssembly.Proofs.Value.WellFormed
import StackAssembly.Source.Program

/-!
# What parsers accept

Whatever the tokens are and whatever the dialect is, a parser yields only
values that are made of what the tokens supply: names, texts, and no more
items than there are tokens.  A supply comes with the places from which it may
be taken, and every parser stays at such places, also where it stops at an
error.  One induction on the grammar serves several supplies: all that a
program can build, the names of a text alone, and the tokens behind a place.
-/

namespace StackAssembly
namespace Source

/-- What parsers may take from the tokens at some places of a text. -/
structure Supply where
  /-- The places. -/
  reached : TokenCursor → Prop
  /-- The names that stand there. -/
  name : String → Prop
  /-- The texts that stand there. -/
  text : String → Prop
  /-- The numbers of items that can be read there. -/
  length : Nat → Prop
  reached_advance : ∀ {cursor}, reached cursor → reached cursor.advance
  name_of_reached : ∀ {cursor found}, reached cursor →
    cursor.peek = .identifier found → name found
  text_of_reached : ∀ {cursor found}, reached cursor →
    cursor.peek = .string found → text found
  length_of_reached : ∀ {cursor}, reached cursor →
    length (cursor.rest.length + 1)
  length_of_le : ∀ {fewer count}, fewer ≤ count → length count → length fewer

/-- The condition on the parts of what is made of a supply. -/
def Supply.parts (supply : Supply) : PartCondition :=
  .and (.sized supply.text supply.length) (.names supply.name)

variable {supply : Supply} {α β : Type}

namespace Parser

/-- Whether a parser stays at the places of a supply and yields only results
with a property. -/
def Yields (supply : Supply) (parser : Parser α) (accepted : α → Prop) :
    Prop :=
  ∀ cursor, supply.reached cursor →
    match parser cursor with
    | .ok value next => supply.reached next ∧ accepted value
    | .error _ next => supply.reached next

theorem yields_pure {accepted : α → Prop} {value : α}
    (holds : accepted value) : Yields supply (pure value) accepted :=
  fun _ reached => ⟨reached, holds⟩

theorem Yields.bind {first : Parser α} {later : α → Parser β}
    {accepted : α → Prop} {acceptedLater : β → Prop}
    (one : first.Yields supply accepted)
    (two : ∀ value, accepted value →
      (later value).Yields supply acceptedLater) :
    (first >>= later).Yields supply acceptedLater := by
  intro cursor reached
  have done := one cursor reached
  match run : first cursor with
  | .ok value next =>
      rw [run] at done
      rw [bind_of_ok run]
      exact two value done.2 next done.1
  | .error failure next =>
      rw [run] at done
      rw [bind_of_error run]
      exact done

/-- What is made of an accepted result is accepted. -/
theorem Yields.map {parser : Parser α} {accepted : α → Prop}
    {acceptedLater : β → Prop} (yielding : parser.Yields supply accepted)
    {make : α → β} (makes : ∀ value, accepted value →
      acceptedLater (make value)) :
    Yields supply (do return make (← parser)) acceptedLater :=
  yielding.bind fun value holds => yields_pure (makes value holds)

theorem Yields.imp {parser : Parser α} {accepted weaker : α → Prop}
    (yielding : parser.Yields supply accepted)
    (implies : ∀ value, accepted value → weaker value) :
    parser.Yields supply weaker := by
  intro cursor reached
  have done := yielding cursor reached
  revert done
  match parser cursor with
  | .ok value next => exact fun done => ⟨done.1, implies value done.2⟩
  | .error failure next => exact id

/-- A parser may look at the tokens before it reads. -/
theorem yields_get {later : TokenCursor → Parser α} {accepted : α → Prop}
    (each : ∀ cursor, supply.reached cursor →
      (later cursor).Yields supply accepted) :
    (get >>= later).Yields supply accepted :=
  fun cursor reached => each cursor reached cursor reached

theorem yields_fail {accepted : α → Prop} (defect : ParseDefect) :
    (fail defect).Yields supply accepted :=
  fun _ reached => reached

theorem yields_unexpected {accepted : α → Prop} (what : String) :
    (unexpected what).Yields supply accepted :=
  yields_get fun _ _ => yields_fail _

theorem yields_advance :
    advance.Yields supply fun _ => True :=
  fun _ reached => ⟨supply.reached_advance reached, trivial⟩

theorem yields_nextIf (lexeme : Lexeme) :
    (nextIf lexeme).Yields supply fun _ => True := by
  refine yields_get fun cursor _ => ?_
  split
  · exact yields_advance.bind fun _ _ => yields_pure trivial
  · exact yields_pure trivial

theorem yields_nextIfWord (word : String) :
    (nextIfWord word).Yields supply fun _ => True := by
  refine yields_get fun cursor _ => ?_
  split
  · exact yields_advance.bind fun _ _ => yields_pure trivial
  · exact yields_pure trivial

theorem yields_expect (lexeme : Lexeme) :
    (expect lexeme).Yields supply fun _ => True := by
  refine (yields_nextIf lexeme).bind fun found _ => ?_
  cases found with
  | true => exact yields_pure trivial
  | false => exact yields_unexpected _

theorem yields_identifier (what : String) :
    (identifier what).Yields supply supply.name := by
  refine yields_get fun cursor reached => ?_
  split
  · next name same =>
      have named := supply.name_of_reached reached same
      exact yields_advance.bind fun _ _ => yields_pure named
  · exact yields_unexpected what

theorem yields_integer : integer.Yields supply fun _ => True := by
  refine yields_get fun cursor _ => ?_
  split
  · exact yields_advance.bind fun _ _ => yields_pure trivial
  · exact yields_unexpected _

theorem yields_string : string.Yields supply supply.text := by
  refine yields_get fun cursor reached => ?_
  split
  · next text same =>
      have written := supply.text_of_reached reached same
      exact yields_advance.bind fun _ _ => yields_pure written
  · exact yields_unexpected _

theorem yields_listItems {item : Parser α} {accepted : α → Prop}
    (each : item.Yields supply accepted) (close : Lexeme) (fuel : Nat) :
    (listItems close item fuel).Yields supply fun items =>
      items.length ≤ fuel ∧ ∀ item ∈ items, accepted item := by
  induction fuel with
  | zero => exact yields_pure (by simp)
  | succ fuel ih =>
      refine (yields_nextIf close).bind fun closed _ => ?_
      cases closed with
      | true => exact yields_pure (by simp)
      | false =>
          refine each.bind fun first holds => ?_
          refine (yields_nextIf .comma).bind fun comma _ => ?_
          cases comma with
          | true =>
              refine ih.map fun later rest => ?_
              exact ⟨Nat.succ_le_succ rest.1,
                List.forall_mem_cons.mpr ⟨holds, rest.2⟩⟩
          | false =>
              refine (yields_expect close).bind fun _ _ => yields_pure ?_
              exact ⟨by simp, by simpa using holds⟩

/-- A list holds no more items than there are tokens. -/
theorem yields_list {item : Parser α} {accepted : α → Prop}
    (each : item.Yields supply accepted) («open» close : Lexeme) :
    (list «open» close item).Yields supply fun items =>
      supply.length items.length ∧ ∀ item ∈ items, accepted item := by
  refine (yields_expect «open»).bind fun _ _ =>
    yields_get fun cursor reached => ?_
  refine (yields_listItems each close _).imp fun items bounded => ?_
  exact ⟨supply.length_of_le bounded.1 (supply.length_of_reached reached),
    bounded.2⟩

theorem yields_names (what : String) (fuel : Nat) :
    (names what fuel).Yields supply fun found =>
      found.length ≤ fuel ∧ ∀ name ∈ found, supply.name name := by
  induction fuel with
  | zero => exact yields_pure (by simp)
  | succ fuel ih =>
      refine (yields_identifier what).bind fun first holds => ?_
      refine (yields_nextIf .comma).bind fun comma _ => ?_
      cases comma with
      | true =>
          refine ih.map fun later rest => ?_
          exact ⟨Nat.succ_le_succ rest.1,
            List.forall_mem_cons.mpr ⟨holds, rest.2⟩⟩
      | false => exact yields_pure ⟨by simp, by simpa using holds⟩

theorem yields_slots :
    slots.Yields supply fun found =>
      supply.length found.length ∧ ∀ name ∈ found, supply.name name := by
  refine (yields_nextIfWord "slots").bind fun found _ => ?_
  cases found with
  | true =>
      refine yields_get fun cursor reached => ?_
      refine (yields_names _ _).imp fun names bounded => ?_
      exact ⟨supply.length_of_le bounded.1 (supply.length_of_reached reached),
    bounded.2⟩
  | false =>
      refine fun cursor reached => ⟨reached, ?_, nofun⟩
      exact supply.length_of_le (Nat.zero_le _)
        (supply.length_of_reached reached)

theorem yields_separator : separator.Yields supply fun _ => True := by
  refine (yields_nextIf .comma).bind fun comma _ => ?_
  cases comma with
  | true => exact yields_pure trivial
  | false =>
      exact (yields_nextIf .semicolon).bind fun _ _ => yields_pure trivial

theorem yields_boolean : boolean.Yields supply fun _ => True := by
  refine (yields_nextIfWord "true").bind fun found _ => ?_
  cases found with
  | true => exact yields_pure trivial
  | false =>
      refine (yields_nextIfWord "false").bind fun found _ => ?_
      cases found with
      | true => exact yields_pure trivial
      | false => exact yields_fail _

theorem yields_character : character.Yields supply fun _ => True := by
  refine yields_get fun cursor _ => ?_
  split
  · exact yields_advance.bind fun _ _ => yields_pure trivial
  · refine yields_advance.bind fun _ _ => ?_
    split
    · exact yields_pure trivial
    · exact yields_fail _
  · exact yields_fail _

theorem yields_errorCode : errorCode.Yields supply fun _ => True := by
  refine (yields_identifier _).bind fun word _ => ?_
  split
  · exact yields_pure trivial
  · exact yields_fail _

theorem yields_valueKind : valueKind.Yields supply fun _ => True := by
  refine (yields_identifier _).bind fun word _ => ?_
  split
  · exact yields_pure trivial
  · exact yields_fail _

end Parser

/-- Whether parsers of parts yield only what a program can build. -/
structure PartParsers.Sound (supply : Supply) (parts : PartParsers) :
    Prop where
  value : parts.value.Yields supply
    (Value.Throughout supply.parts)
  operation : parts.operation.Yields supply
    (Operation.Throughout supply.parts)

namespace PartParsers.Sound

open Source.Parser

variable {parts : PartParsers}

theorem tupleBody (sound : parts.Sound supply) :
    parts.tupleBody.Yields supply fun items =>
      supply.length items.length ∧
        itemsThroughout supply.parts items :=
  (yields_list sound.value _ _).imp fun _ holds =>
    ⟨holds.1, itemsThroughout_iff.mpr holds.2⟩

theorem entry (sound : parts.Sound supply) :
    parts.entry.Yields supply fun entry =>
      entry.1.Throughout supply.parts ∧
        entry.2.Throughout supply.parts :=
  sound.value.bind fun _ key => (yields_expect .arrow).bind fun _ _ =>
    sound.value.map fun _ value => ⟨key, value⟩

/-- The entries of a table repeat no key, whatever the text repeats. -/
theorem tableBody (sound : parts.Sound supply) :
    parts.tableBody.Yields supply fun entries =>
      (supply.length entries.length ∧ Entries.Distinct entries) ∧
        entriesThroughout supply.parts entries := by
  refine (yields_list sound.entry _ _).map fun pairs holds => ?_
  refine ⟨⟨?_, Entries.distinct_ofPairs pairs⟩, ?_⟩
  · exact supply.length_of_le (Entries.length_ofPairs_le pairs) holds.1
  · exact entriesThroughout_iff.mpr fun entry member =>
      holds.2 entry (Entries.mem_of_mem_ofPairs member)

theorem setBody (sound : parts.Sound supply) :
    parts.setBody.Yields supply fun members =>
      (supply.length members.length ∧ Members.Distinct members) ∧
        itemsThroughout supply.parts members := by
  refine (yields_list sound.value _ _).map fun values holds => ?_
  refine ⟨⟨?_, Members.distinct_ofValues values⟩, ?_⟩
  · exact supply.length_of_le (Members.length_ofValues_le values) holds.1
  · exact itemsThroughout_iff.mpr fun value member =>
      holds.2 value (Members.mem_of_mem_ofValues member)

theorem operations (sound : parts.Sound supply) (fuel : Nat) :
    (parts.operations fuel).Yields supply fun operations =>
      operations.length ≤ fuel ∧
        operationsThroughout supply.parts operations := by
  induction fuel with
  | zero => exact yields_pure ⟨Nat.le_refl 0, trivial⟩
  | succ fuel ih =>
      refine (yields_nextIf .closeBrace).bind fun closed _ => ?_
      cases closed with
      | true => exact yields_pure ⟨Nat.zero_le _, trivial⟩
      | false =>
          refine yields_get fun cursor _ => ?_
          split
          · exact (yields_fail _).bind fun _ (never : False) => never.elim
          · refine sound.operation.bind fun first holds => ?_
            refine yields_separator.bind fun _ _ => ?_
            exact ih.map fun later rest =>
              ⟨Nat.succ_le_succ rest.1, holds, rest.2⟩

theorem blockBody (sound : parts.Sound supply) :
    parts.blockBody.Yields supply
      (Operation.Throughout supply.parts) := by
  refine yields_slots.bind fun slots named => ?_
  refine (yields_expect .openBrace).bind fun _ _ => ?_
  refine yields_get fun cursor reached => ?_
  refine (sound.operations _).map fun operations holds => ?_
  have bounded := supply.length_of_le holds.1
    (supply.length_of_reached reached)
  exact ⟨⟨⟨named.1, bounded⟩, named.2⟩, holds.2⟩

theorem binding (sound : parts.Sound supply) :
    parts.binding.Yields supply
      (Operation.Throughout supply.parts) := by
  refine sound.value.bind fun value holds => ?_
  refine sound.value.bind fun target holdsTarget => ?_
  match target with
  | .operation callable =>
      exact yields_pure ⟨⟨trivial, trivial⟩, holds, holdsTarget.2⟩
  | .empty | .number _ | .boolean _ | .character _ | .string _ | .atom _
  | .error _ | .type _ | .tuple _ | .table _ | .set _ => exact yields_fail _

theorem valueBody (sound : parts.Sound supply) (form : ValueKind) :
    (parts.valueBody form).Yields supply
      (Value.Throughout supply.parts) := by
  cases form with
  | empty => exact yields_pure ⟨trivial, trivial⟩
  | number => exact yields_integer.map fun _ _ => ⟨trivial, trivial⟩
  | boolean => exact yields_boolean.map fun _ _ => ⟨trivial, trivial⟩
  | character => exact yields_character.map fun _ _ => ⟨trivial, trivial⟩
  | string => exact yields_string.map fun _ holds => ⟨holds, trivial⟩
  | atom => exact (yields_identifier _).map fun _ holds => ⟨trivial, holds⟩
  | error => exact yields_errorCode.map fun _ _ => ⟨trivial, trivial⟩
  | type => exact yields_valueKind.map fun _ _ => ⟨trivial, trivial⟩
  | tuple =>
      exact sound.tupleBody.map fun _ holds => ⟨⟨holds.1, trivial⟩, holds.2⟩
  | table =>
      exact sound.tableBody.map fun _ holds => ⟨⟨holds.1, trivial⟩, holds.2⟩
  | set =>
      exact sound.setBody.map fun _ holds => ⟨⟨holds.1, trivial⟩, holds.2⟩
  | operation =>
      exact sound.operation.map fun _ holds => ⟨⟨trivial, trivial⟩, holds⟩
  | block =>
      exact sound.blockBody.map fun _ holds => ⟨⟨trivial, trivial⟩, holds⟩
  | bind =>
      exact sound.binding.map fun _ holds => ⟨⟨trivial, trivial⟩, holds⟩

theorem arguments (sound : parts.Sound supply) :
    parts.arguments.Yields supply fun values =>
      supply.length values.length ∧
        itemsThroughout supply.parts values := by
  refine yields_get fun cursor reached => ?_
  split
  · exact sound.tupleBody
  · refine yields_pure ⟨?_, trivial⟩
    exact supply.length_of_le (Nat.zero_le _)
      (supply.length_of_reached reached)

theorem alternative (sound : parts.Sound supply) :
    parts.alternative.Yields supply
      (alternativeThroughout supply.parts) := by
  refine (yields_nextIfWord "else").bind fun found _ => ?_
  cases found with
  | true => exact sound.operation.map fun _ holds => holds
  | false => exact yields_pure trivial

/-- The dialect may join a kind of operations with the form of another, which
either fails or yields what the form describes. -/
theorem operationBody (sound : parts.Sound supply)
    (kind form : OperationKind) :
    (parts.operationBody kind form).Yields supply
      (Operation.Throughout supply.parts) := by
  cases form with
  | primitive which =>
      cases kind with
      | primitive which => exact yields_pure ⟨trivial, trivial⟩
      | _ => exact yields_fail _
  | push =>
      exact sound.value.map fun _ holds => ⟨⟨trivial, trivial⟩, holds⟩
  | ifTrue =>
      exact sound.operation.map fun _ holds => ⟨⟨trivial, trivial⟩, holds⟩
  | select =>
      exact sound.tableBody.bind fun cases holds =>
        sound.alternative.map fun otherwise holdsLater =>
          ⟨⟨holds.1, trivial⟩, holds.2, holdsLater⟩
  | named use =>
      refine (yields_identifier _).bind fun name holds => ?_
      cases kind with
      | named use => exact yields_pure ⟨trivial, holds⟩
      | _ => exact yields_fail _
  | call =>
      exact (yields_identifier _).bind fun target named =>
        sound.arguments.map fun values holds =>
          ⟨⟨holds.1, named⟩, holds.2⟩
  | loadNative => exact yields_string.map fun _ holds => ⟨holds, trivial⟩
  | native =>
      exact (yields_identifier _).bind fun bucket holds =>
        (yields_identifier _).map fun name holdsLater =>
          ⟨trivial, holds, holdsLater⟩
  | block => exact sound.blockBody
  | partialBind =>
      exact sound.value.bind fun value holds =>
        sound.operation.map fun callable holdsLater =>
          ⟨⟨trivial, trivial⟩, holds, holdsLater⟩

theorem openValue (sound : parts.Sound supply) (dialect : Dialect) :
    (parts.openValue dialect).Yields supply
      (Value.Throughout supply.parts) := by
  refine (yields_identifier _).bind fun keyword _ => ?_
  split
  · exact sound.valueBody _
  · exact yields_fail _

theorem openOperation (sound : parts.Sound supply) (dialect : Dialect) :
    (parts.openOperation dialect).Yields supply
      (Operation.Throughout supply.parts) := by
  refine (yields_identifier _).bind fun keyword _ => ?_
  split
  · exact sound.operationBody _ _
  · exact yields_fail _

end PartParsers.Sound

theorem soundWithin (supply : Supply) (dialect : Dialect) (levels : Nat) :
    (PartParsers.within dialect levels).Sound supply := by
  induction levels with
  | zero => exact ⟨Parser.yields_fail _, Parser.yields_fail _⟩
  | succ levels ih => exact ⟨ih.openValue dialect, ih.openOperation dialect⟩

/-- Whether an entry is made of a supply. -/
def Supply.MakesEntry (supply : Supply) (entry : String × Value) : Prop :=
  supply.name entry.1 ∧ entry.2.Throughout supply.parts

theorem yields_parsePayload (dialect : Dialect) :
    (parsePayload dialect).Yields supply
      (Value.Throughout supply.parts) :=
  Parser.yields_get fun _ _ => (soundWithin supply dialect _).value

theorem yields_parseStatement (dialect : Dialect) :
    (parseStatement dialect).Yields supply supply.MakesEntry := by
  refine (Parser.yields_nextIfWord "value").bind fun found _ => ?_
  cases found with
  | true =>
      exact (Parser.yields_identifier _).bind fun name named =>
        (yields_parsePayload dialect).map fun value holds => ⟨named, holds⟩
  | false => exact Parser.yields_get fun _ _ => Parser.yields_fail _

/-- Whether a lexeme is one that names and values may be taken from. -/
def Lexeme.Sound (property : String → Prop) : Lexeme → Prop
  | .identifier name => property name
  | .string text => CountableText text
  | _ => True

/-- Whether names and values may be taken from the tokens of a cursor. -/
structure TokenCursor.Sound (property : String → Prop)
    (cursor : TokenCursor) : Prop where
  /-- The tokens, with the end of input, can be counted. -/
  countable : Countable (cursor.rest.length + 1)
  /-- Every token is sound. -/
  tokens : ∀ token ∈ cursor.rest, token.lexeme.Sound property

namespace TokenCursor.Sound

variable {property : String → Prop} {cursor : TokenCursor}

theorem sublist {other : TokenCursor} (sound : cursor.Sound property)
    (within : other.rest.Sublist cursor.rest) : other.Sound property where
  countable := by
    have shorter := within.length_le
    have countable := sound.countable
    simp only [Countable] at countable ⊢
    omega
  tokens token member := sound.tokens token (within.mem member)

theorem seekStatement (sound : cursor.Sound property) :
    cursor.seekStatement.Sound property :=
  sound.sublist (List.drop_sublist _ _)

theorem advance (sound : cursor.Sound property) :
    cursor.advance.Sound property :=
  sound.sublist (List.tail_sublist _)

theorem recover (sound : cursor.Sound property) :
    cursor.recover.Sound property := by
  rw [TokenCursor.recover]
  split
  · exact sound.seekStatement
  · exact sound.advance.seekStatement

theorem peek (sound : cursor.Sound property) :
    cursor.peek.Sound property := by
  obtain ⟨rest, ending, consumed, depth⟩ := cursor
  cases rest with
  | nil => trivial
  | cons token tokens => exact sound.tokens token List.mem_cons_self

end TokenCursor.Sound

/-- What a program can build of sound tokens. -/
def Supply.sound (property : String → Prop) : Supply where
  reached cursor := cursor.Sound property
  name := property
  text := CountableText
  length := Countable
  reached_advance := TokenCursor.Sound.advance
  name_of_reached sound same := by
    have peeked := sound.peek
    rw [same] at peeked
    exact peeked
  text_of_reached sound same := by
    have peeked := sound.peek
    rw [same] at peeked
    exact peeked
  length_of_reached := TokenCursor.Sound.countable
  length_of_le := Nat.lt_of_le_of_lt

/-- The condition on the parts of what a program builds of sound tokens. -/
def acceptedParts (property : String → Prop) : PartCondition :=
  .and .wellFormed (.names property)

/-- Whether a program can build the value of an entry, the names in it and
that of the entry having a property. -/
def SoundEntry (property : String → Prop) (entry : String × Value) : Prop :=
  property entry.1 ∧ entry.2.Throughout (acceptedParts property)

/-- Whatever a text has wrong, the statements read from it are sound. -/
theorem soundEntry_of_mem_statementsFrom {property : String → Prop}
    {dialect : Dialect} {fuel : Nat} {cursor : TokenCursor}
    (sound : cursor.Sound property) {entry : String × Value}
    (member : entry ∈ entriesOf (statementsFrom dialect fuel cursor).1) :
    SoundEntry property entry := by
  induction fuel generalizing cursor with
  | zero => simp [statementsFrom, entriesOf] at member
  | succ fuel ih =>
      have done :=
        @yields_parseStatement (.sound property) dialect cursor sound
      rw [statementsFrom] at member
      split at member
      · simp [entriesOf] at member
      · match run : parseStatement dialect cursor with
        | .ok first next =>
            rw [run] at done member
            rcases List.mem_cons.mp member with same | later
            · rw [same]
              exact done.2
            · exact ih done.1 later
        | .error failure next =>
            rw [run] at done member
            exact ih done.recover member

end Source
end StackAssembly
