import StackAssembly.Proofs.Source.Scanning

/-!
# Names in texts

Whatever a text is, however long and whatever the dialect is, the names in
what is read from it are identifiers.
-/

namespace StackAssembly
namespace Source

/-- What is scanned as an identifier is one. -/
theorem isIdentifier_of_scan {first : Char} {rest : List Char} {name : String}
    (scanned : (scan first rest).lexeme = .identifier name) :
    Text.isIdentifier name = true := by
  -- A lexeme that is sound whatever property names have is no identifier.
  have never (lexeme : Lexeme) (sound : lexeme.Sound fun _ => False)
      (same : lexeme = .identifier name) : Text.isIdentifier name = true := by
    rw [same] at sound
    exact sound.elim
  rw [scan.eq_def] at scanned
  split at scanned
  case h_9 => exact never _ (scanArrow_sound _ rest) scanned
  case h_11 =>
    rw [scanString] at scanned
    split at scanned <;> cases scanned
  case h_12 => exact never _ (scanCharacter_sound _ rest) scanned
  case h_13 => exact never _ (scanCode_sound _ rest) scanned
  case h_14 =>
    split at scanned
    · exact never _ (scanNumber_sound _ _) scanned
    split at scanned
    · next starts =>
        cases scanned
        exact isIdentifier_takeWhile rest starts
    · cases scanned
  all_goals cases scanned

/-- Every identifier among the tokens of a text is one. -/
theorem isIdentifier_of_mem_tokens {text name : String} {token : Token}
    (member : token ∈ tokens text) (same : token.lexeme = .identifier name) :
    Text.isIdentifier name = true := by
  have among : token.lexeme ∈ (tokens text).map Token.lexeme :=
    List.mem_map_of_mem member
  rw [tokens, lexemes_tokensOfPieces, same] at among
  rcases List.mem_append.mp among with cut | ended
  · obtain ⟨piece, isPiece, lexeme⟩ := List.mem_map.mp cut
    obtain ⟨first, rest, -, scanned⟩ := scanned_of_mem_piecesWithin isPiece
    exact isIdentifier_of_scan (scanned.symm.trans lexeme)
  · cases List.mem_singleton.mp ended

/-- Whether the names among the tokens of a cursor have a property. -/
def TokenCursor.NamesAre (property : String → Prop) (cursor : TokenCursor) :
    Prop :=
  ∀ token ∈ cursor.rest, ∀ name, token.lexeme = .identifier name →
    property name

theorem TokenCursor.namesAre_ofText (text : String) :
    (TokenCursor.ofText text).NamesAre (Text.isIdentifier · = true) :=
  fun _ member _ =>
    isIdentifier_of_mem_tokens (List.mem_filter.mp member).1

/-- The names that tokens supply, the rest left open. -/
def Supply.named (property : String → Prop) : Supply where
  reached cursor := cursor.NamesAre property
  name := property
  text _ := True
  length _ := True
  reached_advance named token member :=
    named token (List.mem_of_mem_tail member)
  name_of_reached := by
    intro cursor found named same
    obtain ⟨rest, ending, consumed, depth⟩ := cursor
    cases rest with
    | nil => cases same
    | cons token tokens => exact named token List.mem_cons_self found same
  text_of_reached _ _ := trivial
  length_of_reached _ := trivial
  length_of_le _ _ := trivial

/-- What is made of the names of tokens has their names. -/
theorem Supply.namesAre_of_named {property : String → Prop} {value : Value}
    (made : value.Throughout (Supply.named property).parts) :
    value.NamesAre property := by
  have follows : PartCondition.Follows (Supply.named property).parts
      (Supply.named property).parts (.names property) :=
    ⟨fun _ holds _ => holds.2, fun _ holds _ => holds.2⟩
  exact StackAssembly.Value.Throughout.combine follows value made made

/-- The names in a value that a text denotes are identifiers. -/
theorem namesAre_of_parseText {dialect : Dialect} {text : String}
    {value : Value} (parsed : parseText dialect text = .ok value) :
    value.NamesAre (Text.isIdentifier · = true) := by
  have done :=
    @yields_parsePayload (.named (Text.isIdentifier · = true)) dialect
      (.ofText text) (TokenCursor.namesAre_ofText text)
  rw [parseText] at parsed
  match run : parsePayload dialect (.ofText text) with
  | .ok found next =>
      rw [run] at done parsed
      dsimp only at parsed
      split at parsed
      · cases parsed
        exact Supply.namesAre_of_named done.2
      · cases parsed
  | .error failure next =>
      rw [run] at parsed
      cases parsed

/-- A statement binds a name of the text to a value with names of the
text. -/
theorem namesAre_of_parseStatement {property : String → Prop}
    {dialect : Dialect} {cursor next : TokenCursor}
    (named : cursor.NamesAre property) {entry : String × Value}
    (run : parseStatement dialect cursor = .ok entry next) :
    next.NamesAre property ∧ property entry.1 ∧
      entry.2.NamesAre property := by
  have done := @yields_parseStatement (.named property) dialect cursor named
  rw [run] at done
  exact ⟨done.1, done.2.1, Supply.namesAre_of_named done.2.2⟩

end Source
end StackAssembly
