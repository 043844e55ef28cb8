import StackAssembly.HostError
import StackAssembly.Source.Grammar

/-!
# Programs

A program is a sequence of statements.  A statement that fails is reported,
and reading goes on at the next one.
-/

namespace StackAssembly
namespace Source

/-- The outcome of reading one statement. -/
abbrev StatementResult := Except ParseError (String × Value)

/-- The results of reading statements up to the end, and the cursor there.
Every statement takes a token, so the fuel lasts if it exceeds their
number. -/
def statementsFrom (dialect : Dialect) :
    (fuel : Nat) → TokenCursor → List StatementResult × TokenCursor
  | 0, cursor => ([], cursor)
  | fuel + 1, cursor =>
      if cursor.atEnd then
        ([], cursor)
      else
        match parseStatement dialect cursor with
        | .ok entry next =>
            let later := statementsFrom dialect fuel next
            (.ok entry :: later.1, later.2)
        | .error failure next =>
            let later := statementsFrom dialect fuel next.recover
            (.error failure :: later.1, later.2)

/-- The results of reading all statements behind a cursor, and the cursor
behind them. -/
def statements (dialect : Dialect) (cursor : TokenCursor) :
    List StatementResult × TokenCursor :=
  statementsFrom dialect (cursor.rest.length + 1) cursor

/-- The entries among the results of statements. -/
def entriesOf (results : List StatementResult) : List (String × Value) :=
  results.filterMap fun result => result.toOption

/-- The errors among the results of statements. -/
def errorsOf (results : List StatementResult) : List ParseError :=
  results.filterMap fun result =>
    match result with
    | .ok _ => none
    | .error failure => some failure

/-- A cursor together with the errors met so far, the first one first. -/
structure Session where
  /-- The place reached. -/
  cursor : TokenCursor
  /-- The errors met. -/
  errors : List ParseError

namespace Session

/-- The session at the start of a text. -/
def ofText (text : String) : Session where
  cursor := .ofText text
  errors := []

/-- Run a parser and note its error if it stops at one. -/
def attempt {α : Type} (session : Session) (parser : Parser α) :
    Option α × Session :=
  match parser session.cursor with
  | .ok value next => (some value, { session with cursor := next })
  | .error failure next =>
      (none, { cursor := next, errors := session.errors ++ [failure] })

/-- Read all statements and note the errors of those that fail. -/
def program (session : Session) (dialect : Dialect) :
    List (String × Value) × Session :=
  let results := statements dialect session.cursor
  (entriesOf results.1,
    { cursor := results.2
      errors := session.errors ++ errorsOf results.1 })

/-- Take the errors out of a session. -/
def takeErrors (session : Session) : List ParseError × Session :=
  (session.errors, { session with errors := [] })

end Session

/-- The entries and the errors of a program. -/
def parseProgram (dialect : Dialect) (text : String) :
    List (String × Value) × List ParseError :=
  let results := (statements dialect (.ofText text)).1
  (entriesOf results, errorsOf results)

/-- The host error for an error in a text. -/
def ParseError.toHostError (error : ParseError) : HostError where
  failure := .parse error.located error.context

/-- Read a text that is one payload. -/
def parseText (dialect : Dialect) (text : String) : Except HostError Value :=
  match parsePayload dialect (.ofText text) with
  | .ok value cursor =>
      if cursor.atEnd then
        .ok value
      else
        .error { failure := .parse "trailing input after value" text }
  | .error failure _ => .error failure.toHostError

end Source
end StackAssembly
