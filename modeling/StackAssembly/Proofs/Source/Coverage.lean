import Mathlib.Data.List.DropRight
import StackAssembly.Proofs.Source.CharacterReading

/-!
# How tokens cover a text

The tokens of a text are read one behind the other, each from where the one
before it was left.  A token takes at least one character, what is passed
between two tokens is white space, and the last token, and no other one, says
that the input ends.  The place of a token is that of the characters in front
of it: its offset is their size, its line counts the newlines among them and
its column the characters behind the last newline.
-/

namespace StackAssembly
namespace Source

/-- The place behind the given front part of a text. -/
def Position.behind (front : List Char) : Position where
  offset := (String.ofList front).utf8ByteSize
  line := 1 + front.count '\n'
  column := 1 + (front.rtakeWhile (· != '\n')).length

/-- How tokens cover a text behind a front part that has been read. -/
inductive TokensCover : (front text : List Char) → List Token → Prop where
  /-- Only white space is left in front of the end. -/
  | ended {front blank : List Char} :
      blank.all Unicode.isWhiteSpace = true →
      TextReader.readToken ⟨blank, .behind front⟩ =
        (⟨.endOfInput, .behind (front ++ blank)⟩,
          ⟨[], .behind (front ++ blank)⟩) →
      TokensCover front blank [⟨.endOfInput, .behind (front ++ blank)⟩]
  /-- A token is read behind white space and takes some text. -/
  | token {front text blank body rest : List Char} {lexeme : Lexeme}
      {later : List Token} :
      text = blank ++ body ++ rest →
      blank.all Unicode.isWhiteSpace = true →
      body ≠ [] →
      lexeme ≠ .endOfInput →
      TextReader.readToken ⟨text, .behind front⟩ =
        (⟨lexeme, .behind (front ++ blank)⟩,
          ⟨rest, .behind (front ++ blank ++ body)⟩) →
      TokensCover (front ++ blank ++ body) rest later →
      TokensCover front text (⟨lexeme, .behind (front ++ blank)⟩ :: later)

namespace Position

theorem offset_behind (front : List Char) :
    (behind front).offset = sizeOfText front :=
  length_textBytes_ofList front

/-- A front part grows by what is read behind it. -/
theorem after_behind (front : List Char) (character : Char) :
    (behind front).after character = behind (front ++ [character]) := by
  have offset : (behind front).offset + character.utf8Size =
      (behind (front ++ [character])).offset := by
    rw [offset_behind, offset_behind, sizeOfText_append]
    rfl
  rw [after, offset]
  by_cases newline : character = '\n'
  · simp [behind, newline, List.count_append, Nat.add_assoc]
  · simp [behind, newline, List.count_append, Nat.add_assoc]

theorem afterAll_behind (front more : List Char) :
    (behind front).afterAll more = behind (front ++ more) := by
  induction more generalizing front with
  | nil =>
      rw [List.append_nil]
      rfl
  | cons first rest ih =>
      have later := ih (front ++ [first])
      rw [← after_behind, List.append_assoc] at later
      exact later

end Position

theorem closeCharacter_lexeme_ne_endOfInput (character : Char) (width : Nat)
    (rest : List Char) :
    (closeCharacter character width rest).lexeme ≠ .endOfInput := by
  rw [closeCharacter.eq_def]
  split <;> simp

/-- The end of input is not a lexeme that text is taken for. -/
theorem scan_lexeme_ne_endOfInput (first : Char) (rest : List Char) :
    (scan first rest).lexeme ≠ .endOfInput := by
  rw [scan.eq_def]
  split
  case h_9 =>
    rw [scanArrow.eq_def]
    split <;> simp
  case h_10 => simp [scanComment]
  case h_11 =>
    rw [scanString]
    split <;> simp
  case h_12 =>
    rw [scanCharacter.eq_def]
    split
    · simp
    · simp
    · split
      · exact closeCharacter_lexeme_ne_endOfInput _ _ _
      · simp
    · exact closeCharacter_lexeme_ne_endOfInput _ _ _
  case h_13 =>
    rw [scanCode.eq_def]
    split
    · split <;> simp
    · simp
  case h_14 =>
    split
    · rw [scanNumber]
      split <;> simp
    split
    · simp [scanIdentifier]
    · simp
  all_goals simp

theorem take_scan_ne_nil (first : Char) (rest : List Char) :
    (first :: rest).take (scan first rest).width ≠ [] := by
  obtain ⟨width, positive⟩ :=
    Nat.exists_eq_succ_of_ne_zero (scan_width_pos first rest).ne'
  rw [positive, List.take_succ_cons]
  exact List.cons_ne_nil _ _

theorem TextReader.past_behind (front text : List Char) (width : Nat) :
    (TextReader.mk text (.behind front)).past width =
      ⟨text.drop width, .behind (front ++ text.take width)⟩ := by
  rw [past, Position.afterAll_behind]

/-- The tokens of the pieces into which a text is cut cover it. -/
theorem covers_tokensOfPieces {fuel : Nat} (front : List Char)
    {text : List Char} (enough : text.length < fuel) :
    TokensCover front text
      (tokensOfPieces (piecesWithin fuel text).2 (.behind front)
        (piecesWithin fuel text).1) := by
  -- The front part grows with every piece, and what is read from its end is
  -- what the piece was cut from.
  induction fuel generalizing front text with
  | zero => exact absurd enough (Nat.not_lt_zero _)
  | succ fuel ih =>
      have white : (text.takeWhile Unicode.isWhiteSpace).all
          Unicode.isWhiteSpace = true := List.all_takeWhile
      have read := TextReader.readToken_eq ⟨text, .behind front⟩
      rw [TextReader.past_behind, take_length_takeWhile] at read
      have cut := List.take_append_drop
        (text.takeWhile Unicode.isWhiteSpace).length text
      rw [take_length_takeWhile] at cut
      rw [piecesWithin]
      generalize text.takeWhile Unicode.isWhiteSpace = blank at *
      split
      · next ended =>
          rw [ended, TextReader.readVisible_of_nil rfl] at read
          rw [ended, List.append_nil] at cut
          subst cut
          rw [tokensOfPieces, Position.afterAll_behind]
          exact .ended white read
      · next first rest here =>
          have positive := scan_width_pos first rest
          have shorter := congrArg List.length here
          have less :
              ((first :: rest).drop (scan first rest).width).length < fuel := by
            simp only [List.length_drop, List.length_cons] at shorter ⊢
            omega
          have left := ih (front ++ blank ++
            (first :: rest).take (scan first rest).width) less
          rw [here, TextReader.readVisible_of_cons rfl,
            TextReader.past_behind] at read
          rw [tokensOfPieces, Position.afterAll_behind,
            Position.afterAll_behind]
          refine .token ?_ white (take_scan_ne_nil first rest)
            (scan_lexeme_ne_endOfInput first rest) read left
          rw [List.append_assoc, List.take_append_drop, ← here, cut]

namespace TokensCover

variable {front text : List Char} {found : List Token}

/-- The last token, and no other one, stands for the end. -/
theorem exists_eq_append_ended (covers : TokensCover front text found) :
    ∃ others, found = others ++ [⟨.endOfInput, .behind (front ++ text)⟩] ∧
      ∀ token ∈ others, token.lexeme ≠ .endOfInput := by
  induction covers with
  | ended _ _ => exact ⟨[], rfl, fun _ none => nomatch none⟩
  | @token front text blank body rest lexeme _ cut _ _ present _ _ ih =>
      obtain ⟨others, rfl, presentLater⟩ := ih
      refine ⟨⟨lexeme, .behind (front ++ blank)⟩ :: others, ?_, ?_⟩
      · rw [cut, List.cons_append]
        simp only [List.append_assoc]
      · exact List.forall_mem_cons.mpr ⟨present, presentLater⟩

/-- Every token is placed behind the characters in front of it. -/
theorem exists_behind_of_mem {token : Token}
    (covers : TokensCover front text found) (member : token ∈ found) :
    ∃ read left, text = read ++ left ∧
      token.position = .behind (front ++ read) := by
  induction covers with
  | @ended front blank _ _ =>
      cases List.mem_singleton.mp member
      exact ⟨blank, [], (List.append_nil blank).symm, rfl⟩
  | @token front text blank body rest _ _ cut _ _ _ _ _ ih =>
      rcases List.mem_cons.mp member with rfl | later
      · exact ⟨blank, body ++ rest, by rw [cut, List.append_assoc], rfl⟩
      · obtain ⟨read, left, rfl, place⟩ := ih later
        refine ⟨blank ++ body ++ read, left, ?_, ?_⟩
        · rw [cut, List.append_assoc _ read]
        · rw [place]
          simp only [List.append_assoc]

/-- Every token starts behind the tokens in front of it. -/
theorem pairwise_offset_lt (covers : TokensCover front text found) :
    found.Pairwise fun first second =>
      first.position.offset < second.position.offset := by
  induction covers with
  | ended _ _ => exact List.pairwise_singleton _ _
  | @token front text blank body rest _ _ _ _ nonempty _ _ covers ih =>
      refine List.pairwise_cons.mpr ⟨fun second member => ?_, ih⟩
      obtain ⟨read, -, -, place⟩ := covers.exists_behind_of_mem member
      have visible := List.length_pos_iff.mpr nonempty
      have size := length_le_sizeOfText body
      rw [place]
      dsimp only
      simp only [Position.offset_behind, sizeOfText_append]
      omega

end TokensCover

/-- The tokens of a text cover it. -/
theorem covers_tokens (text : String) :
    TokensCover [] text.toList (tokens text) :=
  covers_tokensOfPieces [] (Nat.lt_succ_self _)

end Source
end StackAssembly
