import StackAssembly.Proofs.Source.Agreement
import StackAssembly.Proofs.Source.GrammarExactness
import StackAssembly.Proofs.Source.Recovery

/-!
# One error for every failure

Statements, payloads and operations are read to an outcome from wherever a
parser has got to.  Either something is answered and no error is recorded, or
nothing is answered and one error is, with the lexemes read last as its
context.  What was open before is open behind.  So a program is read to its
end with one error for every statement that fails, and a text that is no
payload is never without an error.
-/

namespace StackAssembly
namespace Source

/-- The first lexemes that are read of a text, the end of input counting as
often as it is met. -/
def lexemesRead (text : String) (count : Nat) : List Lexeme :=
  (grammaticalLexemes text).take count ++
    List.replicate (count - (grammaticalLexemes text).length) .endOfInput

/-- The context that is shown behind some lexemes. -/
def contextBehind (lexemes : List Lexeme) : String :=
  String.intercalate " "
    ((lexemes.drop (lexemes.length - contextWidth)).map Lexeme.display)

/-- The session in which so many tokens of a text have been read, with any
number of payloads and operations open and any errors recorded.  Sessions move
on by tokens only, so whatever has been called on the way is of this form. -/
def Session.reading (text : String) (count depth : Nat)
    (errors : List ParseError) : Session where
  cursor := ((TokenCursor.ofText text).skip count).atDepth depth
  errors := errors

/-- What reading on in a text comes to: a value, with nothing recorded, or
nothing, with one error recorded. -/
inductive Reports (text : String) (count depth : Nat)
    (errors : List ParseError) {α : Type} : Option α × Session → Prop where
  | answer {value more} :
      Reports text count depth errors
        (some value, .reading text (count + more) depth errors)
  | failure {failure more}
      (context : failure.context =
        contextBehind (lexemesRead text (count + more))) :
      Reports text count depth errors
        (none, .reading text (count + more) depth (errors ++ [failure]))

/-- A recording has an outcome wherever a parser of a text has got to.  It is
that of the parser, with the errors noted by the session, and reports once. -/
def ReportsOnce {α : Type} (text : String) (recording : Recording α)
    (parser : Parser α) : Prop :=
  ∀ count depth errors, ∃ outcome,
    recording (.reading text count depth errors) = some outcome ∧
    outcome = (Session.reading text count depth errors).attempt parser ∧
    Reports text count depth errors outcome

section Context

theorem consumed_skip (cursor : TokenCursor) (count : Nat) :
    (cursor.skip count).consumed =
      ((cursor.rest.map Token.lexeme).take count ++
        List.replicate (count - cursor.rest.length)
          Lexeme.endOfInput).reverse ++ cursor.consumed := by
  induction count generalizing cursor with
  | zero => simp [TokenCursor.skip]
  | succ count ih =>
      obtain ⟨rest, ending, consumed, depth⟩ := cursor
      rw [TokenCursor.skip, ih]
      cases rest with
      | nil =>
          -- The end that is met first stands behind those met later.
          have once : List.replicate count Lexeme.endOfInput ++
              .endOfInput :: consumed =
              List.replicate (count + 1) .endOfInput ++ consumed := by
            rw [List.replicate_succ', List.append_assoc]
            rfl
          simp [TokenCursor.advance, TokenCursor.peek, TokenCursor.next, once]
      | cons token rest =>
          simp [TokenCursor.advance, TokenCursor.peek, TokenCursor.next]

theorem consumed_reading (text : String) (count : Nat) :
    ((TokenCursor.ofText text).skip count).consumed =
      (lexemesRead text count).reverse := by
  have none : (TokenCursor.ofText text).consumed = [] := rfl
  have length : (TokenCursor.ofText text).rest.length =
      (grammaticalLexemes text).length := by
    rw [← lexemes_ofText_eq, List.length_map]
  rw [consumed_skip, none, List.append_nil, lexemes_ofText_eq, length,
    lexemesRead]

theorem context_reading (text : String) (count : Nat) :
    ((TokenCursor.ofText text).skip count).context =
      contextBehind (lexemesRead text count) := by
  rw [TokenCursor.context, consumed_reading, List.take_reverse,
    List.reverse_reverse, contextBehind]

end Context

variable {α : Type} {recording : Recording α} {parser : Parser α}
  {dialect : Dialect} {fuel : Nat}

/-- A recording that follows a parser everywhere reports once. -/
theorem ReportsOnce.of_follows (text : String)
    (follows : ∀ depth bound,
      Follows depth depth bound (bound - 1) recording parser) :
    ReportsOnce text recording parser := by
  intro count depth errors
  have agrees := follows depth _ (.reading text count depth errors) rfl
    (Nat.lt_succ_self _)
  unfold FollowsAt at agrees
  change Agrees _ _ _ _
    (parser (Session.reading text count depth errors).cursor) at agrees
  unfold Session.attempt
  generalize recording (.reading text count depth errors) = result at agrees ⊢
  generalize parser (Session.reading text count depth errors).cursor = read
    at agrees ⊢
  have behind (more : Nat) :
      (Session.reading text count depth errors).cursor.skip more =
        ((TokenCursor.ofText text).skip (count + more)).atDepth depth := by
    rw [Session.reading, TokenCursor.skip_atDepth, TokenCursor.skip_skip]
  cases agrees with
  | @answer value more within fewer =>
      rw [behind more]
      exact ⟨_, rfl, rfl, .answer⟩
  | @failure failure more within context =>
      rw [behind more] at context ⊢
      refine ⟨_, rfl, rfl, .failure ?_⟩
      rw [context, ← context_reading]
      rfl

theorem reportsOnce_payload (enough : maxNesting < fuel) (text : String) :
    ReportsOnce text (Recording.payload dialect fuel)
      (parsePayload dialect) :=
  .of_follows text fun _ _ => follows_payload enough

theorem depth_recover (cursor : TokenCursor) :
    cursor.recover.depth = cursor.depth := by
  rw [TokenCursor.recover]
  split <;> rfl

/-- Recovering behind some tokens leaves fewer than there were. -/
theorem length_recover_skip_lt {cursor : TokenCursor}
    (more : cursor.atEnd = false) (count : Nat) :
    (cursor.skip count).recover.rest.length < cursor.rest.length := by
  have nonempty := List.length_pos_iff.mpr
    (List.isEmpty_eq_false_iff.mp more)
  have least := length_fromKeyword_le (cursor.skip count).rest.tail
  have fewer := TokenCursor.length_rest_skip cursor count
  rw [List.length_tail] at least
  rw [rest_recover]
  omega

/-- What reading a program comes to. -/
structure ProgramReports (dialect : Dialect) (fuel : Nat) (session : Session)
    (results : List StatementResult × TokenCursor) : Prop where
  reads : Recording.Program dialect fuel session (entriesOf results.1)
    (errorsOf results.1).length
    { cursor := results.2, errors := session.errors ++ errorsOf results.1 }
  ended : results.2.atEnd = true
  depth : results.2.depth = session.cursor.depth

/-- Statements are read up to the end, as many errors being recorded as have
failed. -/
theorem programReports (enough : maxNesting < fuel) {rounds : Nat}
    {session : Session} (few : session.cursor.rest.length < rounds) :
    ProgramReports dialect fuel session
      (statementsFrom dialect rounds session.cursor) := by
  induction rounds generalizing session with
  | zero => exact absurd few (Nat.not_lt_zero _)
  | succ rounds ih =>
      rw [statementsFrom]
      split
      · next ended =>
          refine ⟨?_, ended, rfl⟩
          change Recording.Program dialect fuel session [] 0
            { cursor := session.cursor, errors := session.errors ++ [] }
          rw [List.append_nil]
          exact .finish ended
      · next goesOn =>
          have more : session.cursor.atEnd = false :=
            Bool.eq_false_iff.mpr goesOn
          have agrees := @follows_statement _ (session.cursor.rest.length + 1)
            dialect _ enough session rfl (Nat.lt_succ_self _)
          unfold FollowsAt at agrees
          change Agrees _ _ _ _ (parseStatement dialect session.cursor)
            at agrees
          generalize recorded : Recording.statement dialect fuel session =
            result at agrees
          generalize parseStatement dialect session.cursor = read
            at agrees ⊢
          cases agrees with
          | @answer entry count within fewer =>
              rw [TokenCursor.atDepth_skip]
              have later := @ih (session.moveTo (session.cursor.skip count))
                (by rw [Session.moveTo, TokenCursor.length_rest_skip]; omega)
              exact ⟨.read more recorded later.reads, later.ended,
                later.depth.trans (TokenCursor.depth_skip _ _)⟩
          | @failure failure count within context =>
              rw [TokenCursor.atDepth_skip]
              have shorter := length_recover_skip_lt more count
              have later := @ih
                { cursor := (session.cursor.skip count).recover
                  errors := session.errors ++ [failure] }
                (Nat.lt_of_lt_of_le shorter (Nat.lt_succ_iff.mp few))
              refine ⟨?_, later.ended, ?_⟩
              · have reads := later.reads
                dsimp only at reads
                rw [List.append_assoc] at reads
                exact .recover more recorded reads
              · rw [later.depth, depth_recover, TokenCursor.depth_skip]

/-- The errors of a text that is one payload are those of the payload, and
there is one if nothing is answered. -/
theorem recordedText (enough : maxNesting < fuel) (text : String) :
    Recording.text dialect fuel text = some (parseText dialect text) ∧
    ∀ last, Recording.payload dialect fuel (.ofText text) =
      some (none, last) → last.errors ≠ [] := by
  obtain ⟨outcome, recorded, same, reports⟩ :=
    reportsOnce_payload enough text 0 0 []
  have start : Session.reading text 0 0 [] = .ofText text := rfl
  have first : (Session.ofText text).cursor = .ofText text := rfl
  rw [start] at recorded same
  constructor
  · rw [Recording.text, recorded, Option.map_some, same, Session.attempt,
      parseText, first]
    cases parsePayload dialect (.ofText text) <;> rfl
  · intro last nothing
    rw [recorded] at nothing
    cases nothing
    cases reports
    exact List.cons_ne_nil _ _

/-- Statements, payloads and operations are read to an outcome wherever a
parser of a text has got to.  They keep the count of what is open, and they
either answer without an error or record one, with the lexemes read last as
its context.  A program is therefore read up to its end with as many errors as
statements have failed, and a text that is answered with no payload has an
error of its own. -/
theorem failures_reported_once (dialect : Dialect) (text : String)
    {fuel : Nat} (enough : maxNesting < fuel) :
    ReportsOnce text (Recording.statement dialect fuel)
      (parseStatement dialect) ∧
    ReportsOnce text (Recording.payload dialect fuel)
      (parsePayload dialect) ∧
    ReportsOnce text (Recording.operation dialect fuel)
      (parseOperation dialect) ∧
    (∀ count depth errors, ∃ entries failed last reports,
      Recording.Program dialect fuel (.reading text count depth errors)
        entries failed last ∧
      (entries, last) =
        (Session.reading text count depth errors).program dialect ∧
      last.cursor.atEnd = true ∧ last.cursor.depth = depth ∧
      last.errors = errors ++ reports ∧ reports.length = failed) ∧
    Recording.text dialect fuel text = some (parseText dialect text) ∧
    ∀ last, Recording.payload dialect fuel (.ofText text) =
      some (none, last) → last.errors ≠ [] := by
  refine ⟨.of_follows text fun _ _ => follows_statement enough,
    reportsOnce_payload enough text,
    .of_follows text fun _ _ => follows_operation enough, ?_,
    recordedText enough text⟩
  intro count depth errors
  have program := @programReports dialect fuel enough _
    (.reading text count depth errors) (Nat.lt_succ_self _)
  exact ⟨_, _, _, _, program.reads, rfl, program.ended, program.depth, rfl,
    rfl⟩

/-- The one error of a tuple that is not closed shows the tuple. -/
theorem unclosedTuple_reported_once :
    ∃ last, Recording.payload .standard 129 (.ofText "tuple (empty") =
        some (none, last) ∧
      last.errors.map ParseError.context = ["tuple ( empty"] ∧
      last.cursor.depth = 0 := by
  obtain ⟨outcome, recorded, same, -⟩ :=
    (failures_reported_once .standard "tuple (empty"
      (by decide : maxNesting < 129)).2.1 0 0 []
  have nothing : outcome.1.isNone = true := by
    rw [same]
    decide +kernel
  have unanswered : outcome = (none, outcome.2) :=
    Prod.ext (Option.isNone_iff_eq_none.mp nothing) rfl
  refine ⟨outcome.2, recorded.trans (congrArg some unanswered), ?_, ?_⟩
  · rw [same]
    decide +kernel
  · rw [same]
    decide +kernel

end Source
end StackAssembly
