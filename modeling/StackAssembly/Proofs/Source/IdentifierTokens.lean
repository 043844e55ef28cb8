import StackAssembly.Proofs.Source.Coverage
import StackAssembly.Proofs.Source.TextNames

/-!
# Identifiers among the tokens

Whether a text is an identifier is decided by a look at its characters.  The
lexer takes an identifier where nothing else begins, and takes as much of the
text as it can.  The two agree: a text is an identifier exactly if the lexer
takes it whole for one, and nothing else is ever taken for one.
-/

namespace StackAssembly
namespace Source

/-- An identifier is one piece with no white space around it. -/
theorem pieces_of_isIdentifier {text : String}
    (identifier : Text.isIdentifier text = true) :
    pieces text.toList = ([⟨[], text.toList, .identifier text⟩], []) := by
  obtain ⟨first, rest, here, visible⟩ :=
    exists_cons_of_isIdentifier identifier
  have scanned := @scan_of_isIdentifier _ _ _ [] identifier here nofun
  rw [List.append_nil] at scanned
  rw [here, pieces, piecesWithin,
    List.takeWhile_cons_of_neg (Bool.eq_false_iff.mp visible)]
  simp only [List.length_nil, List.drop_zero, scanned, List.take_length,
    List.drop_length]
  rfl

theorem tokens_of_isIdentifier {text : String}
    (identifier : Text.isIdentifier text = true) :
    tokens text =
      [⟨.identifier text, .start⟩, ⟨.endOfInput, .behind text.toList⟩] := by
  have ended : Position.start.afterAll text.toList = .behind text.toList :=
    Position.afterAll_behind [] text.toList
  rw [← ended, tokens, pieces_of_isIdentifier identifier]
  rfl

theorem isIdentifier_of_lexemes {text : String}
    (lexemes : (tokens text).map Token.lexeme =
      [.identifier text, .endOfInput]) : Text.isIdentifier text = true := by
  have among : Lexeme.identifier text ∈ (tokens text).map Token.lexeme := by
    rw [lexemes]
    exact List.mem_cons_self
  obtain ⟨token, member, same⟩ := List.mem_map.mp among
  exact isIdentifier_of_mem_tokens member same

/-- A text is an identifier exactly if its tokens are the identifier with this
text, which then stands at the start, and the end of input, which stands right
behind it.  Whatever the text, all identifiers among its tokens are
identifiers. -/
theorem identifiers_are_tokens_of_their_own (text : String) :
    (Text.isIdentifier text = true ↔
      (tokens text).map Token.lexeme = [.identifier text, .endOfInput]) ∧
    (Text.isIdentifier text = true ↔
      tokens text =
        [⟨.identifier text, .start⟩,
          ⟨.endOfInput, .behind text.toList⟩]) ∧
    ∀ token ∈ tokens text, ∀ name, token.lexeme = .identifier name →
      Text.isIdentifier name = true := by
  refine ⟨⟨fun identifier => ?_, isIdentifier_of_lexemes⟩,
    ⟨tokens_of_isIdentifier, fun whole => ?_⟩,
    fun token member name => isIdentifier_of_mem_tokens member⟩
  · rw [tokens_of_isIdentifier identifier]
    rfl
  · apply isIdentifier_of_lexemes
    rw [whole]
    rfl

/-- A digit in front of a letter makes two tokens of a text, the second of
which is an identifier. -/
theorem digit_parts_from_letter :
    tokens "9λ" =
      [⟨.integer 9, .start⟩, ⟨.identifier "λ", ⟨1, 1, 2⟩⟩,
        ⟨.endOfInput, ⟨3, 1, 3⟩⟩] ∧
    Text.isIdentifier "9λ" = false ∧ Text.isIdentifier "λ" = true ∧
    Text.isIdentifier "λ9" = true := by
  have parted : tokens "9λ" =
      [⟨.integer 9, .start⟩, ⟨.identifier "λ", ⟨1, 1, 2⟩⟩,
        ⟨.endOfInput, ⟨3, 1, 3⟩⟩] := by
    decide +kernel
  have whole : (tokens "λ9").map Token.lexeme =
      [.identifier "λ9", .endOfInput] := by
    decide +kernel
  have member : ⟨.identifier "λ", ⟨1, 1, 2⟩⟩ ∈ tokens "9λ" := by
    rw [parted]
    exact .tail _ (.head _)
  refine ⟨parted, ?_, ?_, ?_⟩
  · rw [← Bool.not_eq_true, (identifiers_are_tokens_of_their_own "9λ").1,
      parted]
    decide
  · exact (identifiers_are_tokens_of_their_own "9λ").2.2 _ member _ rfl
  · exact (identifiers_are_tokens_of_their_own "λ9").1.mpr whole

end Source
end StackAssembly
