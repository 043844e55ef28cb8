import Mathlib.Data.List.TakeWhile
import StackAssembly.Proofs.Source.Scanning
import StackAssembly.Proofs.Text.CharacterClasses

/-!
# Cutting a text into lexemes

A text is cut from its front, lexeme by lexeme, in sight of all that follows,
for numbers and identifiers take as many characters as they can.  Cutting in
this sense composes: a text that ends with a mark is cut in the same way
whatever follows it, and any other listed text if no identifier could go on
behind it.
-/

namespace StackAssembly
namespace Source

/-- Whether a text is cut into lexemes of the grammar and a rest. -/
inductive Cuts : List Char → List Lexeme → List Char → Prop where
  | done (rest : List Char) : Cuts rest [] rest
  | blank {first : Char} {text rest : List Char} {lexemes : List Lexeme}
      (white : Unicode.isWhiteSpace first = true)
      (later : Cuts text lexemes rest) : Cuts (first :: text) lexemes rest
  | lexeme {first : Char} {text rest : List Char} {found : Lexeme}
      {width : Nat} {lexemes : List Lexeme}
      (visible : Unicode.isWhiteSpace first = false)
      (scanned : scan first text = ⟨found, width⟩)
      (grammatical : found.isGrammatical = true)
      (later : Cuts ((first :: text).drop width) lexemes rest) :
      Cuts (first :: text) (found :: lexemes) rest

theorem Cuts.append {text middle rest : List Char}
    {lexemes more : List Lexeme} (one : Cuts text lexemes middle)
    (two : Cuts middle more rest) : Cuts text (lexemes ++ more) rest := by
  induction one with
  | done _ => exact two
  | blank white _ ih => exact .blank white (ih two)
  | lexeme visible scanned grammatical _ ih =>
      exact .lexeme visible scanned grammatical (ih two)

/-- A text that is one lexeme in sight of what follows is cut as such. -/
theorem cuts_lexeme {first : Char} {body rest : List Char} {found : Lexeme}
    (visible : Unicode.isWhiteSpace first = false)
    (scanned : scan first (body ++ rest) = ⟨found, (first :: body).length⟩)
    (grammatical : found.isGrammatical = true) :
    Cuts (first :: body ++ rest) [found] rest := by
  have dropped : (first :: (body ++ rest)).drop (first :: body).length =
      rest :=
    @List.drop_left _ (first :: body) rest
  have later : Cuts ((first :: (body ++ rest)).drop (first :: body).length) []
      rest := by
    rw [dropped]
    exact .done rest
  exact .lexeme visible scanned grammatical later

theorem lexemes_piecesWithin_blank {first : Char} {text : List Char}
    (white : Unicode.isWhiteSpace first = true) (fuel : Nat) :
    (piecesWithin fuel (first :: text)).1.map Piece.lexeme =
      (piecesWithin fuel text).1.map Piece.lexeme := by
  cases fuel with
  | zero => rfl
  | succ fuel =>
      rw [piecesWithin, piecesWithin, List.takeWhile_cons_of_pos white]
      simp only [List.length_cons, List.drop_succ_cons]
      split <;> rfl

/-- The pieces of a text hold the lexemes into which it is cut, if only white
space is left. -/
theorem Cuts.lexemes_piecesWithin {text rest : List Char}
    {lexemes : List Lexeme} (cut : Cuts text lexemes rest)
    (white : rest.all Unicode.isWhiteSpace = true) {fuel : Nat}
    (enough : text.length < fuel) :
    ((piecesWithin fuel text).1.map Piece.lexeme).filter
      Lexeme.isGrammatical = lexemes := by
  induction cut generalizing fuel with
  | done rest =>
      obtain ⟨fuel, rfl⟩ := Nat.exists_eq_succ_of_ne_zero
        (Nat.ne_zero_of_lt enough)
      have blank : rest.takeWhile Unicode.isWhiteSpace = rest :=
        List.takeWhile_eq_self_iff.mpr (List.all_eq_true.mp white)
      rw [piecesWithin, blank, List.drop_length]
      rfl
  | blank first _ ih =>
      rw [lexemes_piecesWithin_blank first]
      exact ih white (Nat.lt_of_succ_lt enough)
  | @lexeme first text rest found width lexemes visible scanned grammatical
      _ ih =>
      obtain ⟨fuel, rfl⟩ := Nat.exists_eq_succ_of_ne_zero
        (Nat.ne_zero_of_lt enough)
      have positive := scan_width_pos first text
      rw [scanned] at positive
      have later := @ih white fuel (by
        simp only [List.length_drop, List.length_cons] at enough positive ⊢
        omega)
      rw [piecesWithin, List.takeWhile_cons_of_neg
        (Bool.eq_false_iff.mp visible)]
      simp only [List.length_nil, List.drop_zero, List.map_cons, scanned]
      rw [List.filter_cons_of_pos grammatical, later]

/-- The tokens of a text are the lexemes into which it is cut. -/
theorem Cuts.lexemes_ofText {text : String} {rest : List Char}
    {lexemes : List Lexeme} (cut : Cuts text.toList lexemes rest)
    (white : rest.all Unicode.isWhiteSpace = true) :
    (TokenCursor.ofText text).rest.map Token.lexeme = lexemes := by
  rw [Source.lexemes_ofText]
  exact cut.lexemes_piecesWithin white (Nat.lt_succ_self _)

/-- Whether no identifier or number goes on at the front of a text. -/
def Ends (rest : List Char) : Prop :=
  ∀ first ∈ rest.head?, Text.isIdentifierChar first = false

/-- Whether an identifier or number ends where the given text begins. -/
def parts (text : String) : Bool :=
  match text.toList with
  | [] => false
  | first :: _ => !Text.isIdentifierChar first

theorem ends_of_parts {text : String} (apart : parts text = true)
    (rest : List Char) : Ends (text.toList ++ rest) := by
  rw [parts] at apart
  split at apart
  · cases apart
  · next first later here =>
      rw [here]
      intro head same
      cases same
      simpa using apart

/-- Whether a text is cut into lexemes where no identifier could go on. -/
def Writes (text : String) (lexemes : List Lexeme) : Prop :=
  ∀ rest, Ends rest → Cuts (text.toList ++ rest) lexemes rest

/-- Whether a text is cut into lexemes whatever follows it. -/
def Closed (text : String) (lexemes : List Lexeme) : Prop :=
  ∀ rest, Cuts (text.toList ++ rest) lexemes rest

section Compose

variable {first second : String} {lexemes more : List Lexeme}

theorem Closed.writes (closed : Closed first lexemes) :
    Writes first lexemes :=
  fun rest _ => closed rest

theorem Closed.append (one : Closed first lexemes)
    (two : Closed second more) :
    Closed (first ++ second) (lexemes ++ more) := by
  intro rest
  rw [String.toList_append, List.append_assoc]
  exact (one _).append (two rest)

theorem Closed.before (one : Closed first lexemes)
    (two : Writes second more) :
    Writes (first ++ second) (lexemes ++ more) := by
  intro rest ends
  rw [String.toList_append, List.append_assoc]
  exact (one _).append (two rest ends)

theorem Writes.close (one : Writes first lexemes) (two : Closed second more)
    (apart : parts second = true) :
    Closed (first ++ second) (lexemes ++ more) := by
  intro rest
  rw [String.toList_append, List.append_assoc]
  exact (one _ (ends_of_parts apart rest)).append (two rest)

end Compose

theorem closed_empty : Closed "" [] :=
  fun rest => .done rest

/-- White space separates lexemes and is none. -/
theorem closed_blank {text : String}
    (white : text.toList.all Unicode.isWhiteSpace = true) :
    Closed text [] := by
  intro rest
  revert white
  induction text.toList with
  | nil => exact fun _ => .done rest
  | cons first later ih =>
      intro white
      rw [List.all_cons, Bool.and_eq_true] at white
      exact .blank white.1 (ih white.2)

end Source
end StackAssembly
