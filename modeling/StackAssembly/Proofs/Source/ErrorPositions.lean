import Mathlib.Data.List.GetD
import StackAssembly.Proofs.Source.Coverage
import StackAssembly.Proofs.Source.FailurePlaces
import StackAssembly.Source.Program

/-!
# Positions of recorded errors

Whatever is asked of a parser of a text, and in whatever order, the errors
that it records are placed at tokens of the text.  An error that tells what
was found is placed at the token found.  An error that quotes a token is
placed at the token behind it, which may stand on a later line: the quoted
token itself starts in front of the place of the error.
-/

namespace StackAssembly
namespace Source

/-- The tokens that a parser of a text is shown, the end of input being the
last one. -/
def shownTokens (text : String) : List Token :=
  (tokens text).filter fun token => !token.lexeme.isComment

/-- The token that is shown where so many have been read.  The end of input is
shown again and again. -/
def shownToken (text : String) (count : Nat) : Token :=
  (shownTokens text).getD count ⟨.endOfInput, endingOf (tokens text)⟩

/-- What can be asked of a parser. -/
inductive ParserCall where
  | statement
  | payload
  | operation
  | program
  | advance
  | nextIf (lexeme : Lexeme)
  | nextIfWord (word : String)
  | expect (lexeme : Lexeme)
  | identifier (what : String)
  | integer
  | string
  | fail (message : String)
  | takeErrors
  deriving DecidableEq

namespace ParserCall

/-- Where a call leaves a session. -/
def after (dialect : Dialect) (session : Session) : ParserCall → Session
  | .statement => (session.attempt (parseStatement dialect)).2
  | .payload => (session.attempt (parsePayload dialect)).2
  | .operation => (session.attempt (parseOperation dialect)).2
  | .program => (session.program dialect).2
  | .advance => (session.attempt Parser.advance).2
  | .nextIf lexeme => (session.attempt (Parser.nextIf lexeme)).2
  | .nextIfWord word => (session.attempt (Parser.nextIfWord word)).2
  | .expect lexeme => (session.attempt (Parser.expect lexeme)).2
  | .identifier what => (session.attempt (Parser.identifier what)).2
  | .integer => (session.attempt Parser.integer).2
  | .string => (session.attempt Parser.string).2
  | .fail message =>
      (session.attempt (Parser.fail (.other message) : Parser Unit)).2
  | .takeErrors => session.takeErrors.2

/-- Where calls leave a session that starts with a text. -/
def afterAll (dialect : Dialect) (text : String) (calls : List ParserCall) :
    Session :=
  calls.foldl (after dialect) (.ofText text)

end ParserCall

section Shown

theorem TokenCursor.ahead_eq_getD (cursor : TokenCursor) (count : Nat) :
    cursor.ahead count =
      cursor.rest.getD count ⟨.endOfInput, cursor.ending⟩ := by
  induction count generalizing cursor with
  | zero =>
      obtain ⟨rest, ending, consumed, depth⟩ := cursor
      cases rest <;> rfl
  | succ count ih =>
      obtain ⟨rest, ending, consumed, depth⟩ := cursor
      refine (ih _).trans ?_
      cases rest <;> rfl

/-- A parser is shown the tokens of its cursor and the end of input. -/
theorem shownTokens_eq (text : String) :
    shownTokens text =
      (TokenCursor.ofText text).rest ++
        [⟨.endOfInput, endingOf (tokens text)⟩] := by
  obtain ⟨others, ended, present⟩ :=
    (covers_tokens text).exists_eq_append_ended
  have place : endingOf (tokens text) = .behind ([] ++ text.toList) := by
    rw [endingOf, ended, List.getLast?_concat]
  have same : others.filter (fun token => !token.lexeme.isComment) =
      others.filter fun token =>
        !(token.lexeme.isComment || token.lexeme == .endOfInput) := by
    apply List.filter_congr
    intro token member
    simp [present token member]
  rw [shownTokens, TokenCursor.ofText, place, ended, List.filter_append,
    List.filter_append, same]
  simp [Lexeme.isComment]

theorem ahead_ofText (text : String) :
    (TokenCursor.ofText text).ahead = shownToken text := by
  funext count
  rw [TokenCursor.ahead_eq_getD, shownToken, shownTokens_eq]
  have ending : (TokenCursor.ofText text).ending = endingOf (tokens text) :=
    rfl
  rw [ending]
  generalize (TokenCursor.ofText text).rest = rest
  -- The end of input that a cursor makes up is the last token of the text.
  by_cases within : count < rest.length
  · rw [List.getD_append _ _ _ _ within]
  · have behind := Nat.le_of_not_lt within
    rw [List.getD_eq_default _ _ behind, List.getD_append_right _ _ _ _ behind]
    cases count - rest.length <;> rfl

theorem shownToken_mem (text : String) (count : Nat) :
    shownToken text count ∈ tokens text := by
  have shown : shownToken text count ∈ shownTokens text := by
    rw [shownToken, List.getD_eq_getElem?_getD]
    cases found : (shownTokens text)[count]? with
    | none =>
        rw [shownTokens_eq]
        exact List.mem_append_right _ (List.mem_singleton_self _)
    | some token => exact List.mem_of_getElem? found
  exact (List.mem_filter.mp shown).1

/-- A token other than the end of input starts in front of the next one. -/
theorem offset_shownToken_lt {text : String} {count : Nat}
    (present : (shownToken text count).lexeme ≠ .endOfInput) :
    (shownToken text count).position.offset <
      (shownToken text (count + 1)).position.offset := by
  have rising : (shownTokens text).Pairwise fun first second =>
      first.position.offset < second.position.offset :=
    (covers_tokens text).pairwise_offset_lt.filter _
  have more : count + 1 < (shownTokens text).length := by
    -- From the last of the tokens on, nothing but the end of input is shown.
    by_contra beyond
    apply present
    rw [← ahead_ofText, TokenCursor.ahead_eq_getD, List.getD_eq_default]
    rw [shownTokens_eq, List.length_append, List.length_singleton] at beyond
    omega
  rw [shownToken, shownToken,
    List.getD_eq_getElem _ _ (Nat.lt_of_succ_lt more),
    List.getD_eq_getElem _ _ more]
  exact List.pairwise_iff_getElem.mp rising _ _ _ more (Nat.lt_succ_self _)

end Shown

section Recovery

theorem TokenCursor.exists_seekStatement_eq_skip (cursor : TokenCursor) :
    ∃ count, cursor.seekStatement = cursor.skip count := by
  obtain ⟨rest, ending, consumed, depth⟩ := cursor
  induction rest generalizing consumed with
  | nil => exact ⟨0, rfl⟩
  | cons token rest ih =>
      by_cases keyword : token.lexeme.isWord "value" = true
      · refine ⟨0, ?_⟩
        simp [seekStatement, skip, keyword]
      · obtain ⟨count, same⟩ := ih (token.lexeme :: consumed)
        refine ⟨count + 1, Eq.trans ?_ same⟩
        simp [seekStatement, keyword]

/-- Going on behind a failed statement is reading some more tokens. -/
theorem TokenCursor.exists_recover_eq_skip (cursor : TokenCursor) :
    ∃ count, cursor.recover = cursor.skip count := by
  rw [recover]
  split
  · exact cursor.exists_seekStatement_eq_skip
  · obtain ⟨count, same⟩ := cursor.advance.exists_seekStatement_eq_skip
    exact ⟨count + 1, same⟩

end Recovery

/-- Whether a session has read some of the tokens behind a cursor, and every
error that it holds arises among these. -/
structure Session.Behind (start : TokenCursor) (session : Session) : Prop where
  reached : ∃ count, session.cursor = start.skip count
  arises : ∀ failure ∈ session.errors,
    ∃ count, failure.ArisesAt start.ahead count

namespace Session.Behind

variable {start : TokenCursor} {session : Session} {dialect : Dialect}

/-- Nothing has to be said of errors where there are none. -/
theorem errorless {cursor : TokenCursor}
    (reached : ∃ count, cursor = start.skip count) :
    Session.Behind start { cursor, errors := [] } where
  reached := reached
  arises := List.forall_mem_nil _

theorem ofText (text : String) :
    (Session.ofText text).Behind (.ofText text) :=
  errorless ⟨0, rfl⟩

/-- A parser that places its errors may be run at any time. -/
theorem attempt {α : Type} {parser : Parser α}
    (behind : session.Behind start) (places : parser.Places) :
    (session.attempt parser).2.Behind start := by
  obtain ⟨count, here⟩ := behind.reached
  have placed : Placed start (parser session.cursor) := by
    rw [here]
    exact (places _).behind
  unfold Session.attempt
  generalize parser session.cursor = result at placed ⊢
  cases placed with
  | answer more => exact ⟨⟨more, rfl⟩, behind.arises⟩
  | failure more arises =>
      refine ⟨⟨more, rfl⟩, fun failure member => ?_⟩
      rcases List.mem_append.mp member with earlier | last
      · exact behind.arises failure earlier
      · cases List.mem_singleton.mp last
        exact ⟨more, arises⟩

/-- Statements are read one behind the other, and their errors arise among the
same tokens as those of the first one. -/
theorem statementsFrom (dialect : Dialect) (fuel : Nat) {cursor : TokenCursor}
    (reached : ∃ count, cursor = start.skip count) :
    Session.Behind start
      { cursor := (statementsFrom dialect fuel cursor).2
        errors := errorsOf (statementsFrom dialect fuel cursor).1 } := by
  induction fuel generalizing cursor with
  | zero => exact errorless reached
  | succ fuel ih =>
      rw [Source.statementsFrom]
      split
      · exact errorless reached
      · obtain ⟨count, rfl⟩ := reached
        have placed := (places_parseStatement dialect (start.skip count)).behind
        generalize parseStatement dialect (start.skip count) = result
          at placed ⊢
        cases placed with
        | answer more => exact ih ⟨more, rfl⟩
        | failure more arises =>
            -- What is passed over to go on counts as read.
            obtain ⟨further, same⟩ := (start.skip more).exists_recover_eq_skip
            rw [TokenCursor.skip_skip] at same
            have later := ih ⟨more + further, same⟩
            exact ⟨later.reached,
              List.forall_mem_cons.mpr ⟨⟨more, arises⟩, later.arises⟩⟩

theorem program (behind : session.Behind start) (dialect : Dialect) :
    (session.program dialect).2.Behind start := by
  have read := statementsFrom dialect (session.cursor.rest.length + 1)
    behind.reached
  exact ⟨read.reached,
    List.forall_mem_append.mpr ⟨behind.arises, read.arises⟩⟩

/-- Whatever is asked of a parser, its errors arise among the tokens. -/
theorem after (behind : session.Behind start) (dialect : Dialect)
    (call : ParserCall) : (call.after dialect session).Behind start := by
  cases call with
  | statement => exact behind.attempt (places_parseStatement dialect)
  | payload => exact behind.attempt (places_parsePayload dialect)
  | operation => exact behind.attempt (places_parseOperation dialect)
  | program => exact behind.program dialect
  | advance => exact behind.attempt Parser.places_advance
  | nextIf lexeme => exact behind.attempt (Parser.places_nextIf lexeme)
  | nextIfWord word => exact behind.attempt (Parser.places_nextIfWord word)
  | expect lexeme => exact behind.attempt (Parser.places_expect lexeme)
  | identifier what => exact behind.attempt (Parser.places_identifier what)
  | integer => exact behind.attempt Parser.places_integer
  | string => exact behind.attempt Parser.places_string
  | fail message => exact behind.attempt (Parser.places_fail rfl rfl)
  | takeErrors => exact errorless behind.reached

theorem foldl_after (behind : session.Behind start) (dialect : Dialect)
    (calls : List ParserCall) :
    (calls.foldl (ParserCall.after dialect) session).Behind start := by
  induction calls generalizing session with
  | nil => exact behind
  | cons call calls ih => exact ih (behind.after dialect call)

end Session.Behind

/-- The wording of a defect tells what was found. -/
theorem ParseDefect.exists_message_of_found? {defect : ParseDefect}
    {lexeme : Lexeme} (finds : defect.found? = some lexeme) :
    ∃ what, defect.message = "expected " ++ what ++ ", found " ++
        lexeme.unexpected ∨
      defect.message = "expected " ++ what ++ ", found " ++
        lexeme.description := by
  cases defect with
  | expected what found =>
      cases finds
      exact ⟨what, .inl rfl⟩
  | expectedStatement found =>
      cases finds
      exact ⟨"'value'", .inr rfl⟩
  | _ => nomatch finds

/-- The wording of a defect shows the lexeme that it quotes. -/
theorem ParseDefect.exists_message_of_quoted? {defect : ParseDefect}
    {lexeme : Lexeme} (quotes : defect.quoted? = some lexeme) :
    ∃ front back, defect.message = front ++ lexeme.display ++ back := by
  cases defect with
  | unknownValueKind word | unknownOperation word | unknownKind word =>
      cases quotes
      exact ⟨_, "'", rfl⟩
  | unknownErrorCode word =>
      cases quotes
      exact ⟨_, "", String.append_empty.symm⟩
  | characterTooLarge word =>
      cases quotes
      exact ⟨_, _, rfl⟩
  | _ => nomatch quotes

/-- Words and numbers are quoted, the end of input never is. -/
theorem ParseDefect.ne_endOfInput_of_quoted? {defect : ParseDefect}
    {lexeme : Lexeme} (quotes : defect.quoted? = some lexeme) :
    lexeme ≠ .endOfInput := by
  rintro rfl
  cases defect <;> nomatch quotes

/-- Whatever is asked of a parser of a text, and in whatever order, every
error that it records is placed at a token of the text.  If the error tells
what was found in place of something else, it is placed at the token that was
found.  If it quotes a token that denotes nothing, it is not placed there, but
at the next token that is no comment: the quoted token starts in front of the
place of the error. -/
theorem errors_placed_at_next_token (dialect : Dialect) (text : String)
    (calls : List ParserCall) {failure : ParseError}
    (recorded : failure ∈ (ParserCall.afterAll dialect text calls).errors) :
    ∃ count, shownToken text count ∈ tokens text ∧
      failure.position = (shownToken text count).position ∧
      (∀ lexeme, failure.defect.found? = some lexeme →
        (shownToken text count).lexeme = lexeme ∧
        ∃ what,
          failure.defect.message = "expected " ++ what ++ ", found " ++
            lexeme.unexpected ∨
          failure.defect.message = "expected " ++ what ++ ", found " ++
            lexeme.description) ∧
      ∀ lexeme, failure.defect.quoted? = some lexeme →
        (∃ last, count = last + 1 ∧
          shownToken text last ∈ tokens text ∧
          (shownToken text last).lexeme = lexeme ∧
          (shownToken text last).position.offset < failure.position.offset) ∧
        ∃ front back,
          failure.defect.message = front ++ lexeme.display ++ back := by
  have behind := (Session.Behind.ofText text).foldl_after dialect calls
  obtain ⟨count, arises⟩ := behind.arises failure recorded
  rw [ahead_ofText] at arises
  refine ⟨count, shownToken_mem text count, arises.position, ?_, ?_⟩
  · intro lexeme finds
    exact ⟨arises.found lexeme finds,
      ParseDefect.exists_message_of_found? finds⟩
  · intro lexeme quotes
    have present := ParseDefect.ne_endOfInput_of_quoted? quotes
    obtain ⟨last, rfl, same⟩ := arises.quoted lexeme quotes
    rw [← same] at present
    refine ⟨⟨last, rfl, shownToken_mem text last, same, ?_⟩,
      ParseDefect.exists_message_of_quoted? quotes⟩
    rw [arises.position]
    exact offset_shownToken_lt present

/-- A word that is no value type is reported at the end of the text, which is
on the line behind its own. -/
theorem unknown_word_placed_on_next_line :
    let text := "value a frob # note\n"
    let failure : ParseError :=
      ⟨.unknownValueKind "frob", "value a frob", ⟨20, 2, 1⟩⟩
    (ParserCall.afterAll .standard text [.program]).errors = [failure] ∧
      shownToken text 2 = ⟨.identifier "frob", ⟨8, 1, 9⟩⟩ ∧
      ∃ count, failure.position = (shownToken text count).position ∧
        ∃ last, count = last + 1 ∧
          (shownToken text last).lexeme = .identifier "frob" ∧
          (shownToken text last).position.offset <
            failure.position.offset := by
  intro text failure
  have found :
      (ParserCall.afterAll .standard text [.program]).errors = [failure] := by
    decide +kernel
  have recorded :
      failure ∈ (ParserCall.afterAll .standard text [.program]).errors := by
    rw [found]
    exact List.mem_singleton_self _
  obtain ⟨count, -, place, -, quotes⟩ :=
    errors_placed_at_next_token .standard text [.program] recorded
  obtain ⟨⟨last, here, -, same, before⟩, -⟩ := quotes _ rfl
  exact ⟨found, by decide +kernel, count, place, last, here, same, before⟩

end Source
end StackAssembly
