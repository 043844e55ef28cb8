import StackAssembly.Proofs.Computation
import StackAssembly.Source.Grammar

/-!
# Recognising lexemes

A parser *recognises* given lexemes as a value if, at any place where they are
next, it answers the value and stops behind them.  Some parsers look at the
lexeme that follows, so the statement comes with a condition on it, where the
end of input counts as a lexeme.  Recognising in this sense goes through
sequences of parsers.
-/

namespace StackAssembly
namespace Source

/-- The cursor behind the next `count` tokens. -/
def TokenCursor.skip (cursor : TokenCursor) : (count : Nat) → TokenCursor
  | 0 => cursor
  | count + 1 => cursor.advance.skip count

namespace TokenCursor

@[simp]
theorem skip_skip (cursor : TokenCursor) (count more : Nat) :
    (cursor.skip count).skip more = cursor.skip (count + more) := by
  induction count generalizing cursor with
  | zero => rw [Nat.zero_add, skip]
  | succ count ih => rw [skip, ih, Nat.succ_add, skip]

@[simp]
theorem rest_skip (cursor : TokenCursor) (count : Nat) :
    (cursor.skip count).rest = cursor.rest.drop count := by
  induction count generalizing cursor with
  | zero => rfl
  | succ count ih => rw [skip, ih, advance, List.drop_tail]

@[simp]
theorem depth_skip (cursor : TokenCursor) (count : Nat) :
    (cursor.skip count).depth = cursor.depth := by
  induction count generalizing cursor with
  | zero => rfl
  | succ count ih => rw [skip, ih, advance]

theorem lexemes_skip {cursor : TokenCursor} {lexemes more : List Lexeme}
    (here : cursor.rest.map Token.lexeme = lexemes ++ more) :
    (cursor.skip lexemes.length).rest.map Token.lexeme = more := by
  rw [rest_skip, List.map_drop, here, List.drop_left]

/-- The next lexeme is the first of those to be read, if there are any. -/
theorem peek_eq_headD (cursor : TokenCursor) :
    cursor.peek = (cursor.rest.map Token.lexeme).headD .endOfInput := by
  obtain ⟨rest, ending, consumed, depth⟩ := cursor
  cases rest <;> rfl

end TokenCursor

namespace Parser

variable {α β : Type}

/-- Whether a parser recognises lexemes as a value where an acceptable lexeme
follows them. -/
def Recognises (parser : Parser α) (lexemes : List Lexeme) (value : α)
    (acceptable : Lexeme → Prop) : Prop :=
  ∀ cursor more, cursor.rest.map Token.lexeme = lexemes ++ more →
    acceptable (more.headD .endOfInput) →
      parser cursor = .ok value (cursor.skip lexemes.length)

/-- Every lexeme may follow. -/
def anything (_ : Lexeme) : Prop :=
  True

theorem headD_append (lexemes more : List Lexeme) (ending : Lexeme) :
    (lexemes ++ more).headD ending = lexemes.headD (more.headD ending) := by
  cases lexemes <;> rfl

theorem recognises_pure (value : α) :
    Recognises (pure value) [] value anything :=
  fun _ _ _ _ => rfl

/-- Two parsers in sequence recognise two sequences of lexemes in sequence. -/
theorem Recognises.bind {first : Parser α} {later : α → Parser β}
    {lexemes more : List Lexeme} {value : α} {result : β}
    {acceptable acceptableLater : Lexeme → Prop}
    (one : first.Recognises lexemes value acceptable)
    (two : (later value).Recognises more result acceptableLater)
    (leads : ∀ next, acceptableLater next → acceptable (more.headD next)) :
    (first >>= later).Recognises (lexemes ++ more) result
      acceptableLater := by
  intro cursor rest here follows
  rw [List.append_assoc] at here
  have run := one cursor (more ++ rest) here (by
    rw [headD_append]
    exact leads _ follows)
  rw [bind_of_ok run, two _ rest (TokenCursor.lexemes_skip here) follows,
    TokenCursor.skip_skip, List.length_append]

/-- What does not look ahead may stand in front of anything. -/
theorem Recognises.after {first : Parser α} {later : α → Parser β}
    {lexemes more : List Lexeme} {value : α} {result : β}
    {acceptable : Lexeme → Prop}
    (one : first.Recognises lexemes value anything)
    (two : (later value).Recognises more result acceptable) :
    (first >>= later).Recognises (lexemes ++ more) result acceptable :=
  one.bind two fun _ _ => trivial

/-- A parser that reads nothing may look at what the next one recognises. -/
theorem Recognises.looking {first : Parser α} {later : α → Parser β}
    {lexemes : List Lexeme} {value : α} {result : β}
    {acceptable acceptableLater : Lexeme → Prop}
    (one : first.Recognises [] value acceptable)
    (two : (later value).Recognises lexemes result acceptableLater)
    (leads : ∀ next, acceptableLater next →
      acceptable (lexemes.headD next)) :
    (first >>= later).Recognises lexemes result acceptableLater :=
  one.bind two leads

theorem Recognises.map {parser : Parser α} {lexemes : List Lexeme}
    {value : α} {acceptable : Lexeme → Prop}
    (recognised : parser.Recognises lexemes value acceptable)
    (make : α → β) :
    Recognises (do return make (← parser)) lexemes (make value)
      acceptable := by
  intro cursor more here follows
  exact bind_of_ok (recognised cursor more here follows)

theorem Recognises.discard {parser : Parser α} {lexemes : List Lexeme}
    {value : α} {acceptable : Lexeme → Prop}
    (recognised : parser.Recognises lexemes value acceptable) :
    Recognises (discard parser) lexemes () acceptable := by
  intro cursor more here follows
  show EStateM.map (fun _ => ()) parser cursor = _
  rw [EStateM.map, recognised cursor more here follows]

theorem Recognises.weaken {parser : Parser α} {lexemes : List Lexeme}
    {value : α} {acceptable stricter : Lexeme → Prop}
    (recognised : parser.Recognises lexemes value acceptable)
    (implies : ∀ next, stricter next → acceptable next) :
    parser.Recognises lexemes value stricter :=
  fun cursor more here follows =>
    recognised cursor more here (implies _ follows)

theorem Recognises.anywhere {parser : Parser α} {lexemes : List Lexeme}
    {value : α} {acceptable : Lexeme → Prop}
    (recognised : parser.Recognises lexemes value anything) :
    parser.Recognises lexemes value acceptable :=
  recognised.weaken fun _ _ => trivial

/-- A parser may look at the tokens, which hold at least the lexemes to be
recognised. -/
theorem Recognises.ofState {later : TokenCursor → Parser α}
    {lexemes : List Lexeme} {value : α} {acceptable : Lexeme → Prop}
    (each : ∀ cursor, lexemes.length ≤ cursor.rest.length →
      (later cursor).Recognises lexemes value acceptable) :
    (get >>= later).Recognises lexemes value acceptable := by
  intro cursor more here follows
  refine each cursor ?_ cursor more here follows
  have length := congrArg List.length here
  rw [List.length_map, List.length_append] at length
  omega

/-- A parser that decides by the next lexeme recognises what the parser it
decides for recognises. -/
theorem Recognises.ofPeek {later : TokenCursor → Parser α} {first : Lexeme}
    {lexemes : List Lexeme} {value : α} {acceptable : Lexeme → Prop}
    (each : ∀ cursor, cursor.peek = first →
      (later cursor).Recognises (first :: lexemes) value acceptable) :
    (get >>= later).Recognises (first :: lexemes) value acceptable := by
  intro cursor more here follows
  refine each cursor ?_ cursor more here follows
  rw [TokenCursor.peek_eq_headD, here]
  rfl

theorem recognises_advance (lexeme : Lexeme) :
    advance.Recognises [lexeme] () anything :=
  fun _ _ _ _ => rfl

theorem recognises_nextIf (lexeme : Lexeme) :
    (nextIf lexeme).Recognises [lexeme] true anything := by
  refine .ofPeek fun cursor same => ?_
  rw [if_pos same]
  exact (recognises_advance lexeme).after (recognises_pure true)

theorem recognises_nextIfWord (word : String) :
    (nextIfWord word).Recognises [.identifier word] true anything := by
  refine .ofPeek fun cursor same => ?_
  rw [same, if_pos (by simp [Lexeme.isWord])]
  exact (recognises_advance _).after (recognises_pure true)

/-- A lexeme that is not next is not read. -/
theorem not_recognises_nextIf (lexeme : Lexeme) :
    (nextIf lexeme).Recognises [] false (· ≠ lexeme) := by
  intro cursor more here differs
  rw [List.nil_append] at here
  rw [← here, ← TokenCursor.peek_eq_headD] at differs
  show (if cursor.peek = lexeme then _ else _ : Parser Bool) cursor = _
  rw [if_neg differs]
  rfl

theorem not_recognises_nextIfWord (word : String) :
    (nextIfWord word).Recognises [] false (·.isWord word = false) := by
  intro cursor more here differs
  rw [List.nil_append] at here
  rw [← here, ← TokenCursor.peek_eq_headD] at differs
  show (if cursor.peek.isWord word then _ else _ : Parser Bool) cursor = _
  rw [differs, if_neg Bool.false_ne_true]
  rfl

theorem recognises_expect (lexeme : Lexeme) :
    (expect lexeme).Recognises [lexeme] () anything :=
  (recognises_nextIf lexeme).after (recognises_pure ())

theorem recognises_identifier (what name : String) :
    (identifier what).Recognises [.identifier name] name anything := by
  refine .ofPeek fun cursor same => ?_
  rw [same]
  exact (recognises_advance _).after (recognises_pure name)

theorem recognises_integer (word : UInt64) :
    integer.Recognises [.integer word] word anything := by
  refine .ofPeek fun cursor same => ?_
  rw [same]
  exact (recognises_advance _).after (recognises_pure word)

theorem recognises_string (text : String) :
    string.Recognises [.string text] text anything := by
  refine .ofPeek fun cursor same => ?_
  rw [same]
  exact (recognises_advance _).after (recognises_pure text)

/-- Whether lexemes begin with a word that is no `else`, as payloads and
operations do. -/
def Worded (lexemes : List Lexeme) : Prop :=
  ∃ word rest, lexemes = .identifier word :: rest ∧ word ≠ "else"

theorem Worded.append {lexemes : List Lexeme} (worded : Worded lexemes)
    (more : List Lexeme) : Worded (lexemes ++ more) := by
  obtain ⟨word, rest, rfl, other⟩ := worded
  exact ⟨word, rest ++ more, rfl, other⟩

/-- Lexemes that begin with a word begin with no mark. -/
theorem Worded.headD_ne {lexemes : List Lexeme} (worded : Worded lexemes)
    {mark : Lexeme} (unworded : ∀ word, mark ≠ .identifier word)
    (next : Lexeme) : lexemes.headD next ≠ mark := by
  obtain ⟨word, rest, rfl, -⟩ := worded
  exact (unworded word).symm

theorem Worded.length_pos {lexemes : List Lexeme}
    (worded : Worded lexemes) : 0 < lexemes.length := by
  obtain ⟨word, rest, rfl, -⟩ := worded
  exact Nat.succ_pos _

end Parser
end Source
end StackAssembly
