import StackAssembly.Proofs.Source.Acceptance

/-!
# Going on behind a failed statement

A program is read by attempting statements one after the other.  A statement
that is read is followed by an attempt at the next token.  Behind one that
fails, reading goes on at the first `value` keyword *behind* the token at which
the statement failed.  That token is passed over whatever it is, so the
statement that it introduces is lost if it is itself a `value` keyword.  In
every other case nothing is lost.
-/

namespace StackAssembly
namespace Source

/-- The tokens from the first `value` keyword on. -/
def fromKeyword (tokens : List Token) : List Token :=
  tokens.dropWhile fun token => !token.lexeme.isWord "value"

/-- What an attempt to read a statement comes to. -/
def outcomeAt (dialect : Dialect) (cursor : TokenCursor) : StatementResult :=
  match parseStatement dialect cursor with
  | .ok entry _ => .ok entry
  | .error failure _ => .error failure

/-- The place at which reading goes on behind an attempt. -/
def resumption (dialect : Dialect) (cursor : TokenCursor) : TokenCursor :=
  match parseStatement dialect cursor with
  | .ok _ next => next
  | .error _ next => next.recover

/-- The places at which statements are attempted from a place on. -/
def attemptsFrom (dialect : Dialect) :
    (fuel : Nat) → TokenCursor → List TokenCursor
  | 0, _ => []
  | fuel + 1, cursor =>
      if cursor.atEnd then
        []
      else
        cursor :: attemptsFrom dialect fuel (resumption dialect cursor)

/-- The places of a text at which statements are attempted. -/
def attempts (dialect : Dialect) (text : String) : List TokenCursor :=
  attemptsFrom dialect ((TokenCursor.ofText text).rest.length + 1)
    (.ofText text)

/-- The tokens from the first of some attempts on, of which there are none if
nothing is attempted any more. -/
def startOf (cursors : List TokenCursor) : List Token :=
  (cursors.head?.map TokenCursor.rest).getD []

variable {dialect : Dialect} {cursor next : TokenCursor}

/-- The places in sight of a place. -/
def Supply.behind (start : TokenCursor) : Supply where
  reached cursor := cursor.rest <:+ start.rest
  name _ := True
  text _ := True
  length _ := True
  reached_advance within := (List.tail_suffix _).trans within
  name_of_reached _ _ := trivial
  text_of_reached _ _ := trivial
  length_of_reached _ := trivial
  length_of_le _ _ := trivial

theorem rest_advance (cursor : TokenCursor) :
    cursor.advance.rest = cursor.rest.tail :=
  rfl

theorem rest_seekStatement (cursor : TokenCursor) :
    cursor.seekStatement.rest = fromKeyword cursor.rest := by
  unfold TokenCursor.seekStatement fromKeyword
  dsimp only
  generalize cursor.rest = tokens
  induction tokens with
  | nil => rfl
  | cons token tokens ih =>
      rw [List.takeWhile_cons, List.dropWhile_cons]
      split
      · exact ih
      · rfl

/-- The token at which a statement failed is passed over whatever it is. -/
theorem rest_recover (cursor : TokenCursor) :
    cursor.recover.rest = fromKeyword cursor.rest.tail := by
  rw [TokenCursor.recover, rest_seekStatement]
  split
  · next ended =>
      rw [List.isEmpty_iff.mp ended]
      rfl
  · rfl

theorem length_fromKeyword_le (tokens : List Token) :
    (fromKeyword tokens).length ≤ tokens.length :=
  (List.dropWhile_suffix _).length_le

/-- No statement is lost with the token passed over unless that token is a
`value` keyword. -/
theorem fromKeyword_tail_eq_iff (cursor : TokenCursor) :
    fromKeyword cursor.rest.tail = fromKeyword cursor.rest ↔
      cursor.peek.isWord "value" = false := by
  obtain ⟨rest, ending, consumed, depth⟩ := cursor
  cases rest with
  | nil => exact iff_of_true rfl rfl
  | cons token tokens =>
      change fromKeyword tokens = fromKeyword (token :: tokens) ↔
        token.lexeme.isWord "value" = false
      have shorter := length_fromKeyword_le tokens
      by_cases keyword : token.lexeme.isWord "value" = true
      · have kept : fromKeyword (token :: tokens) = token :: tokens := by
          simp [fromKeyword, keyword]
        rw [kept, keyword]
        refine iff_of_false (fun same => ?_) (by decide)
        rw [same, List.length_cons] at shorter
        omega
      · have skipped : fromKeyword (token :: tokens) = fromKeyword tokens := by
          simp [fromKeyword, keyword]
        exact iff_of_true skipped.symm (Bool.eq_false_iff.mpr keyword)

/-- What is read of a statement behind its keyword. -/
def statementBody (dialect : Dialect) : Parser (String × Value) := do
  let name ← Parser.identifier "value name"
  let value ← parsePayload dialect
  return (name, value)

theorem parseStatement_of_keyword
    (keyword : cursor.peek.isWord "value" = true) :
    parseStatement dialect cursor = statementBody dialect cursor.advance := by
  have read : Parser.nextIfWord "value" cursor = .ok true cursor.advance := by
    change (if cursor.peek.isWord "value" then do
        Parser.advance
        return true
      else return false : Parser Bool) cursor = _
    rw [if_pos keyword]
    rfl
  rw [parseStatement, bind_of_ok read]
  rfl

theorem exists_parseStatement_of_other (dialect : Dialect)
    (other : cursor.peek.isWord "value" = false) :
    ∃ failure, parseStatement dialect cursor = .error failure cursor := by
  have unread : Parser.nextIfWord "value" cursor = .ok false cursor := by
    change (if cursor.peek.isWord "value" then do
        Parser.advance
        return true
      else return false : Parser Bool) cursor = _
    rw [other]
    rfl
  rw [parseStatement, bind_of_ok unread]
  exact ⟨_, rfl⟩

/-- Behind its keyword a statement stays in sight of it. -/
theorem yields_statementBody (dialect : Dialect) (start : TokenCursor) :
    (statementBody dialect).Yields (.behind start) fun _ => True :=
  (Parser.yields_identifier _).bind fun _ _ =>
    (yields_parsePayload dialect).map fun _ _ => trivial

/-- Wherever reading goes on, it has passed over a token. -/
theorem length_resumption_lt (dialect : Dialect)
    (more : cursor.atEnd = false) :
    (resumption dialect cursor).rest.length < cursor.rest.length := by
  have shorter : cursor.rest.tail.length < cursor.rest.length := by
    have nonempty := List.length_pos_iff.mpr
      (List.isEmpty_eq_false_iff.mp more)
    rw [List.length_tail]
    omega
  have recovered (place : TokenCursor)
      (passed : place.rest.tail.length ≤ cursor.rest.tail.length) :
      place.recover.rest.length < cursor.rest.length := by
    have least := length_fromKeyword_le place.rest.tail
    rw [rest_recover]
    omega
  unfold resumption
  -- Without its keyword a statement consumes nothing, and recovering passes
  -- over the token; otherwise the keyword has been consumed already.
  cases keyword : cursor.peek.isWord "value" with
  | false =>
      obtain ⟨failure, fails⟩ :=
        exists_parseStatement_of_other dialect keyword
      rw [fails]
      exact recovered cursor (Nat.le_refl _)
  | true =>
      rw [parseStatement_of_keyword keyword]
      have stays := yields_statementBody dialect cursor.advance
        cursor.advance List.suffix_rfl
      cases run : statementBody dialect cursor.advance with
      | ok entry next =>
          rw [run] at stays
          exact Nat.lt_of_le_of_lt stays.1.length_le shorter
      | error failure next =>
          rw [run] at stays
          have within := stays.length_le
          rw [rest_advance] at within
          refine recovered next (Nat.le_trans ?_ within)
          exact (List.tail_suffix _).length_le

/-- The results of a program are those of its attempts. -/
theorem statementsFrom_eq_map (dialect : Dialect) (fuel : Nat)
    (cursor : TokenCursor) :
    (statementsFrom dialect fuel cursor).1 =
      (attemptsFrom dialect fuel cursor).map (outcomeAt dialect) := by
  induction fuel generalizing cursor with
  | zero => rfl
  | succ fuel ih =>
      rw [statementsFrom, attemptsFrom]
      split
      · rfl
      · rw [List.map_cons, ← ih]
        unfold outcomeAt resumption
        cases parseStatement dialect cursor <;> rfl

/-- With enough fuel something is attempted unless the end is reached. -/
theorem startOf_attemptsFrom {fuel : Nat}
    (enough : cursor.rest.length < fuel) :
    startOf (attemptsFrom dialect fuel cursor) = cursor.rest := by
  cases fuel with
  | zero => omega
  | succ fuel =>
      rw [attemptsFrom]
      split
      · next ended => exact (List.isEmpty_iff.mp ended).symm
      · rfl

/-- The attempt behind another is made where reading goes on. -/
theorem startOf_later {fuel : Nat} {start : TokenCursor}
    {before later : List TokenCursor} (enough : start.rest.length < fuel)
    (attempted : attemptsFrom dialect fuel start =
      before ++ cursor :: later) :
    startOf later = (resumption dialect cursor).rest := by
  induction before generalizing fuel start with
  | nil =>
      cases fuel with
      | zero => cases attempted
      | succ fuel =>
          rw [attemptsFrom] at attempted
          split at attempted
          · cases attempted
          · next more =>
              obtain ⟨rfl, rfl⟩ := List.cons.inj attempted
              apply startOf_attemptsFrom
              have passed := length_resumption_lt dialect
                (Bool.eq_false_iff.mpr more)
              omega
  | cons first before ih =>
      cases fuel with
      | zero => cases attempted
      | succ fuel =>
          rw [attemptsFrom] at attempted
          split at attempted
          · cases attempted
          · next more =>
              have passed := length_resumption_lt dialect
                (Bool.eq_false_iff.mpr more)
              exact ih (by omega) (List.cons.inj attempted).2

/-- The results of a program are those of its attempts.  Behind a failed
attempt the next one starts at the first `value` keyword behind the token at
which it failed, and there is none if there is no such keyword.  This is the
first `value` keyword from that token on exactly if the token is not itself a
`value` keyword. -/
theorem attempts_resume_behind_failure (dialect : Dialect) (text : String) :
    (statements dialect (.ofText text)).1 =
      (attempts dialect text).map (outcomeAt dialect) ∧
    ∀ before cursor later failure next,
      attempts dialect text = before ++ cursor :: later →
        parseStatement dialect cursor = .error failure next →
          startOf later = fromKeyword next.rest.tail ∧
          (startOf later = fromKeyword next.rest ↔
            next.peek.isWord "value" = false) := by
  refine ⟨statementsFrom_eq_map dialect _ _, ?_⟩
  intro before cursor later failure next attempted fails
  have resumed := startOf_later (Nat.lt_succ_self _) attempted
  rw [resumption, fails] at resumed
  rw [resumed, rest_recover]
  exact ⟨rfl, fromKeyword_tail_eq_iff next⟩

/-- The first statement fails at the keyword of the second one, which is not
attempted although it is well-formed. -/
theorem keyword_behind_number_passed_over :
    (∃ failure next,
      attempts .standard "value a number value b number 3" =
        [] ++ .ofText "value a number value b number 3" :: [] ∧
      parseStatement .standard (.ofText "value a number value b number 3") =
        .error failure next ∧
      next.peek.isWord "value" = true ∧
      startOf [] ≠ fromKeyword next.rest) ∧
    (parseProgram .standard "value a number value b number 3").1.length = 0 ∧
    (parseProgram .standard "value b number 3").1.length = 1 := by
  have one : attempts .standard "value a number value b number 3" =
      [.ofText "value a number value b number 3"] := by
    decide +kernel
  refine ⟨?_, by decide +kernel, by decide +kernel⟩
  cases run : parseStatement .standard
      (.ofText "value a number value b number 3") with
  | ok entry next =>
      have unread : (match parseStatement .standard
          (.ofText "value a number value b number 3") with
        | .ok _ _ => true
        | .error _ _ => false) = false := by
        decide +kernel
      rw [run] at unread
      cases unread
  | error failure next =>
      have keyword : (match parseStatement .standard
          (.ofText "value a number value b number 3") with
        | .ok _ _ => false
        | .error _ next => next.peek.isWord "value") = true := by
        decide +kernel
      rw [run] at keyword
      have resumed := (attempts_resume_behind_failure .standard
        "value a number value b number 3").2 [] _ [] failure next one run
      refine ⟨failure, next, one, rfl, keyword, fun same => ?_⟩
      exact absurd (resumed.2.mp same) (by simp [keyword])

end Source
end StackAssembly
