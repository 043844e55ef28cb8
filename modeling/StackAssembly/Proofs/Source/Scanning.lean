import StackAssembly.Proofs.Source.Acceptance
import StackAssembly.Proofs.Image.Field

/-!
# The tokens of a text

Every lexeme takes at least one character, an identifier is what the grammar
of names allows, and a string is no longer than its text with the quotation
marks and escapes.  So the tokens of a text that can be counted are sound.
-/

namespace StackAssembly
namespace Source

/-- The number of bytes of a sequence of characters in UTF-8. -/
def sizeOfText (text : List Char) : Nat :=
  (text.map Char.utf8Size).sum

@[simp]
theorem sizeOfText_cons (first : Char) (rest : List Char) :
    sizeOfText (first :: rest) = first.utf8Size + sizeOfText rest :=
  rfl

theorem sizeOfText_append (first second : List Char) :
    sizeOfText (first ++ second) = sizeOfText first + sizeOfText second := by
  simp [sizeOfText]

theorem sizeOfText_take_add_drop (count : Nat) (text : List Char) :
    sizeOfText (text.take count) + sizeOfText (text.drop count) =
      sizeOfText text := by
  rw [← sizeOfText_append, List.take_append_drop]

theorem length_le_sizeOfText (text : List Char) :
    text.length ≤ sizeOfText text := by
  induction text with
  | nil => simp
  | cons first rest ih =>
      have positive := first.utf8Size_pos
      simp only [List.length_cons, sizeOfText_cons]
      omega

theorem length_textBytes_ofList (text : List Char) :
    (Image.textBytes (String.ofList text)).length = sizeOfText text := by
  rw [Image.length_textBytes, String.toList_ofList, sizeOfText]

theorem digitValue?_lt {radix value : Nat} {digit : Char}
    (found : digitValue? radix digit = some value) : value < radix := by
  dsimp only [digitValue?] at found
  generalize (if digit.isDigit then _ else _ : Nat) = denoted at found
  split at found
  · next small =>
      cases found
      exact small
  · cases found

theorem isPrefix_hexDigits (text : List Char) :
    List.IsPrefix (hexDigits text) text :=
  (List.takeWhile_prefix _).trans (List.take_prefix _ _)

/-- A character denoted by one hexadecimal digit is encoded in one byte. -/
theorem utf8Size_of_hexCode_singleton {digit character : Char}
    (scalar : Text.scalar? (hexCode [digit]) = some character) :
    character.utf8Size = 1 := by
  have small : (digitValue? 16 digit).getD 0 < 16 := by
    cases found : digitValue? 16 digit with
    | none => decide
    | some value => exact digitValue?_lt found
  rw [Text.scalar?] at scalar
  split at scalar
  · cases scalar
    rw [Char.utf8Size_eq_one_iff, UInt32.le_iff_toNat_le]
    simp only [hexCode, List.foldl_cons, List.foldl_nil, Nat.zero_mul,
      Nat.zero_add, UInt32.toNat_ofNat', UInt32.reduceToNat]
    omega
  · cases scalar

/-- A code with its mark is at least as long as the character it denotes. -/
theorem utf8Size_of_hexCode {digits : List Char} {character : Char}
    (nonempty : digits ≠ [])
    (scalar : Text.scalar? (hexCode digits) = some character) :
    character.utf8Size ≤ digits.length + 2 := by
  match digits with
  | [digit] =>
      rw [utf8Size_of_hexCode_singleton scalar]
      exact Nat.le_add_left 1 2
  | first :: second :: later =>
      have bounded := character.utf8Size_le_four
      simp only [List.length_cons]
      omega

/-- An escape is at least as long as the character it denotes. -/
theorem utf8Size_of_scanEscape {text : List Char} {character : Char}
    {width : Nat} (escape : scanEscape text = (.ok character, width)) :
    character.utf8Size ≤ 1 + sizeOfText (text.take width) := by
  rw [scanEscape.eq_def] at escape
  split at escape
  case h_9 rest =>
      split at escape
      · cases escape
      · next nonempty =>
          split at escape
          · next scalar =>
              cases escape
              have short := utf8Size_of_hexCode nonempty scalar
              have digits := length_le_sizeOfText (hexDigits rest)
              have mark : 'u'.utf8Size = 1 := by decide
              rw [Nat.add_comm 1 (hexDigits rest).length,
                List.take_succ_cons,
                ← List.prefix_iff_eq_take.mp (isPrefix_hexDigits rest),
                sizeOfText_cons]
              omega
          · cases escape
  all_goals
    cases escape
  all_goals
    exact Nat.le_add_right 1 _

theorem eq_cons_of_map_eq_ok {body : Except LexemeDefect (List Char)}
    {character : Char} {found : List Char}
    (mapped : body.map (character :: ·) = .ok found) :
    ∃ later, body = .ok later ∧ found = character :: later := by
  cases body with
  | error defect => cases mapped
  | ok later =>
      cases mapped
      exact ⟨later, rfl, rfl⟩

/-- The text of a string is no longer than what it is written as. -/
theorem sizeOfText_scanStringBody {skipped : Nat} {text found : List Char}
    (scanned : (scanStringBody skipped text).1 = .ok found) :
    sizeOfText found ≤ sizeOfText (text.drop skipped) := by
  induction skipped, text using scanStringBody.induct generalizing found with
  | case1 => cases scanned
  | case2 skipped => cases scanned
  | case3 skipped first rest ih => exact ih scanned
  | case4 rest =>
      cases scanned
      exact Nat.zero_le _
  | case5 rest character width escape ih =>
      rw [scanStringBody, escape] at scanned
      obtain ⟨later, done, rfl⟩ := eq_cons_of_map_eq_ok scanned
      have short := utf8Size_of_scanEscape escape
      have parts := sizeOfText_take_add_drop width rest
      have shortLater := ih done
      have mark : '\\'.utf8Size = 1 := by decide
      simp only [List.drop_zero, sizeOfText_cons]
      omega
  | case6 rest defect width escape =>
      rw [scanStringBody, escape] at scanned
      cases scanned
  | case7 character rest unmarked unescaped ih =>
      simp only [scanStringBody] at scanned
      obtain ⟨later, done, rfl⟩ := eq_cons_of_map_eq_ok scanned
      have shortLater := ih done
      simp only [List.drop_zero, sizeOfText_cons] at shortLater ⊢
      omega

/-- What a text begins with is an identifier if its first character can start
one. -/
theorem isIdentifier_takeWhile {first : Char} (rest : List Char)
    (starts : Text.isIdentifierStart first = true) :
    Text.isIdentifier (String.ofList
      ((first :: rest).takeWhile Text.isIdentifierChar)) = true := by
  have goesOn : Text.isIdentifierChar first = true := by
    rw [Text.isIdentifierChar, starts, Bool.true_or]
  rw [List.takeWhile_cons_of_pos goesOn, Text.isIdentifier,
    String.toList_ofList]
  show (Text.isIdentifierStart first && List.all _ _) = true
  rw [starts, Bool.true_and, List.all_takeWhile]

theorem scanNumber_sound (property : String → Prop) (text : List Char) :
    (scanNumber text).lexeme.Sound property := by
  dsimp only [scanNumber]
  split <;> trivial

theorem scanString_sound (property : String → Prop) {rest : List Char}
    (countable : Countable (sizeOfText rest)) :
    (scanString rest).lexeme.Sound property := by
  rw [scanString]
  split
  · next text width scanned =>
      have short := @sizeOfText_scanStringBody 0 rest text
        (by rw [scanned])
      rw [List.drop_zero] at short
      show Countable _
      rw [length_textBytes_ofList]
      exact Nat.lt_of_le_of_lt short countable
  · trivial

theorem closeCharacter_sound (property : String → Prop) (character : Char)
    (width : Nat) (rest : List Char) :
    (closeCharacter character width rest).lexeme.Sound property := by
  rw [closeCharacter.eq_def]
  split <;> trivial

theorem scanCharacter_sound (property : String → Prop) (rest : List Char) :
    (scanCharacter rest).lexeme.Sound property := by
  rw [scanCharacter.eq_def]
  split
  · trivial
  · trivial
  · split
    · exact closeCharacter_sound property _ _ _
    · trivial
  · exact closeCharacter_sound property _ _ _

theorem scanCode_sound (property : String → Prop) (rest : List Char) :
    (scanCode rest).lexeme.Sound property := by
  rw [scanCode.eq_def]
  split
  · split <;> trivial
  · trivial

theorem scanArrow_sound (property : String → Prop) (rest : List Char) :
    (scanArrow rest).lexeme.Sound property := by
  rw [scanArrow.eq_def]
  split <;> trivial

/-- A lexeme of a text that can be counted is sound. -/
theorem scan_sound (first : Char) {rest : List Char}
    (countable : Countable (sizeOfText rest)) :
    (scan first rest).lexeme.Sound (Text.isIdentifier · = true) := by
  rw [scan.eq_def]
  split
  case h_9 => exact scanArrow_sound _ rest
  case h_11 => exact scanString_sound _ countable
  case h_12 => exact scanCharacter_sound _ rest
  case h_13 => exact scanCode_sound _ rest
  case h_14 =>
    split
    · exact scanNumber_sound _ _
    split
    · next starts => exact isIdentifier_takeWhile rest starts
    · trivial
  all_goals trivial

theorem scanNumber_width_pos {first : Char} (rest : List Char)
    (digit : first.isDigit = true) :
    0 < (scanNumber (first :: rest)).width := by
  have goesOn : isNumberChar first = true := by
    simp [isNumberChar, Char.isAlphanum, digit]
  dsimp only [scanNumber]
  split
  all_goals
    dsimp only
    split
    · exact Nat.lt_of_lt_of_le Nat.zero_lt_two (Nat.le_add_right _ _)
    · rw [List.drop_zero, List.takeWhile_cons_of_pos goesOn]
      simp

theorem closeCharacter_width_pos (character : Char) (width : Nat)
    (rest : List Char) :
    width ≤ (closeCharacter character width rest).width := by
  rw [closeCharacter.eq_def]
  split <;> simp

/-- A lexeme takes at least its first character. -/
theorem scan_width_pos (first : Char) (rest : List Char) :
    0 < (scan first rest).width := by
  rw [scan.eq_def]
  split
  case h_9 =>
    rw [scanArrow.eq_def]
    split <;> decide
  case h_10 =>
    rw [scanComment, List.takeWhile_cons_of_pos (by decide)]
    exact Nat.succ_pos _
  case h_11 =>
    rw [scanString]
    split <;> exact Nat.succ_pos _
  case h_12 =>
    rw [scanCharacter.eq_def]
    split
    · decide
    · decide
    · split
      · exact Nat.lt_of_lt_of_le (Nat.succ_pos _)
          (closeCharacter_width_pos _ _ _)
      · exact Nat.succ_pos _
    · exact Nat.lt_of_lt_of_le (Nat.succ_pos _)
        (closeCharacter_width_pos _ _ _)
  case h_13 =>
    rw [scanCode.eq_def]
    split
    · split
      · decide
      · exact Nat.succ_pos _
    · decide
  case h_14 =>
    split
    · next digit => exact scanNumber_width_pos rest digit
    split
    · next starts =>
        have goesOn : Text.isIdentifierChar first = true := by
          rw [Text.isIdentifierChar, starts, Bool.true_or]
        rw [scanIdentifier, List.takeWhile_cons_of_pos goesOn]
        exact Nat.succ_pos _
    · exact Nat.zero_lt_one
  all_goals decide

/-- There are no more pieces than characters. -/
theorem length_piecesWithin_le (fuel : Nat) (text : List Char) :
    (piecesWithin fuel text).1.length ≤ text.length := by
  induction fuel generalizing text with
  | zero => exact Nat.zero_le _
  | succ fuel ih =>
      rw [piecesWithin]
      split
      · exact Nat.zero_le _
      · next first rest here =>
          have positive := scan_width_pos first rest
          have later := ih ((first :: rest).drop (scan first rest).width)
          have dropped := congrArg List.length here
          simp only [List.length_drop, List.length_cons] at later dropped ⊢
          omega

/-- Every piece is scanned from what is left of the text. -/
theorem scanned_of_mem_piecesWithin {fuel : Nat} {text : List Char}
    {piece : Piece} (member : piece ∈ (piecesWithin fuel text).1) :
    ∃ first rest, first :: rest <:+ text ∧
      piece.lexeme = (scan first rest).lexeme := by
  induction fuel generalizing text with
  | zero => cases member
  | succ fuel ih =>
      rw [piecesWithin] at member
      split at member
      · cases member
      · next first rest here =>
          have behind : first :: rest <:+ text :=
            here ▸ List.drop_suffix _ text
          rcases List.mem_cons.mp member with rfl | later
          · exact ⟨first, rest, behind, rfl⟩
          · obtain ⟨next, others, inside, same⟩ := ih later
            exact ⟨next, others,
              (inside.trans (List.drop_suffix _ _)).trans behind, same⟩

theorem sound_of_mem_piecesWithin {fuel : Nat} {text : List Char}
    {piece : Piece} (countable : Countable (sizeOfText text))
    (member : piece ∈ (piecesWithin fuel text).1) :
    piece.lexeme.Sound (Text.isIdentifier · = true) := by
  obtain ⟨first, rest, ⟨front, split⟩, same⟩ :=
    scanned_of_mem_piecesWithin member
  rw [same]
  refine scan_sound first (Nat.lt_of_le_of_lt ?_ countable)
  rw [← split, sizeOfText_append, sizeOfText_cons]
  omega

theorem lexemes_tokensOfPieces (trailing : List Char) (position : Position)
    (cut : List Piece) :
    (tokensOfPieces trailing position cut).map Token.lexeme =
      cut.map Piece.lexeme ++ [.endOfInput] := by
  induction cut generalizing position with
  | nil => rfl
  | cons piece later ih =>
      rw [tokensOfPieces, List.map_cons, ih, List.map_cons, List.cons_append]

/-- Whether the grammar sees a lexeme. -/
def Lexeme.isGrammatical (lexeme : Lexeme) : Bool :=
  !(lexeme.isComment || lexeme == .endOfInput)

/-- The lexemes in front of the end of input are those of the pieces, apart
from comments. -/
theorem lexemes_ofText (text : String) :
    (TokenCursor.ofText text).rest.map Token.lexeme =
      ((pieces text.toList).1.map Piece.lexeme).filter
        Lexeme.isGrammatical := by
  have lexemes : (tokens text).map Token.lexeme =
      (pieces text.toList).1.map Piece.lexeme ++ [.endOfInput] :=
    lexemes_tokensOfPieces _ _ _
  have filtered := congrArg (List.filter Lexeme.isGrammatical) lexemes
  rw [List.filter_map, List.filter_append, List.filter_cons_of_neg (by decide),
    List.filter_nil, List.append_nil] at filtered
  exact filtered

/-- The lexeme of a token that the grammar sees is that of a piece. -/
theorem exists_piece_of_mem_ofText {text : String} {token : Token}
    (member : token ∈ (TokenCursor.ofText text).rest) :
    ∃ piece ∈ (pieces text.toList).1, piece.lexeme = token.lexeme := by
  have among : token.lexeme ∈
      (TokenCursor.ofText text).rest.map Token.lexeme :=
    List.mem_map_of_mem member
  rw [lexemes_ofText] at among
  exact List.mem_map.mp (List.mem_filter.mp among).1

/-- The tokens of a text that can be counted are sound. -/
theorem sound_ofText {text : String}
    (countable : Countable ((Image.textBytes text).length + 1)) :
    (TokenCursor.ofText text).Sound (Text.isIdentifier · = true) := by
  have size : (Image.textBytes text).length = sizeOfText text.toList :=
    Image.length_textBytes text
  rw [size] at countable
  have found := lexemes_ofText text
  constructor
  · have count := congrArg List.length found
    have fewer := List.length_filter_le Lexeme.isGrammatical
      ((pieces text.toList).1.map Piece.lexeme)
    have cut := length_piecesWithin_le (text.toList.length + 1) text.toList
    have short := length_le_sizeOfText text.toList
    rw [List.length_map] at count fewer
    simp only [Countable, pieces] at countable count fewer ⊢
    omega
  · intro token member
    obtain ⟨piece, cut, same⟩ := exists_piece_of_mem_ofText member
    rw [← same]
    exact sound_of_mem_piecesWithin (Nat.lt_of_succ_lt countable) cut

end Source
end StackAssembly
