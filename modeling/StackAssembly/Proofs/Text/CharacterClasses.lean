import StackAssembly.Source.Scan
import StackAssembly.Unicode.WhiteSpace

/-!
# Classes of characters

White space, the characters of identifiers and the marks of the grammar are
kept apart by the tables of Unicode, so that the first character of a lexeme
tells what it is.
-/

namespace StackAssembly
namespace Unicode

/-- Whether two ranges have no code point in common. -/
def CodeRange.Apart (first second : CodeRange) : Prop :=
  first.last < second.first ∨ second.last < first.first

instance (first second : CodeRange) : Decidable (first.Apart second) :=
  inferInstanceAs (Decidable (_ ∨ _))

theorem exists_range_of_covers {ranges : List CodeRange} {code : Nat}
    (covered : covers ranges code = true) :
    ∃ range ∈ ranges, range.first ≤ code ∧ code ≤ range.last := by
  induction ranges with
  | nil => cases covered
  | cons range later ih =>
      rw [covers] at covered
      split at covered
      · cases covered
      · next from_first =>
          split at covered
          · next to_last =>
              exact ⟨range, List.mem_cons_self, Nat.le_of_not_lt from_first,
                to_last⟩
          · obtain ⟨found, member, within⟩ := ih covered
            exact ⟨found, List.mem_cons_of_mem range member, within⟩

/-- A code point of one table is not in another if their ranges are apart. -/
theorem covers_eq_false_of_apart {ranges others : List CodeRange}
    (apart : ∀ range ∈ ranges, ∀ other ∈ others, range.Apart other)
    {code : Nat} (covered : covers ranges code = true) :
    covers others code = false := by
  rw [← Bool.not_eq_true]
  intro also
  obtain ⟨range, member, first, last⟩ := exists_range_of_covers covered
  obtain ⟨other, among, otherFirst, otherLast⟩ := exists_range_of_covers also
  rcases apart range member other among with before | behind <;> omega

theorem whiteSpace_apart_alphabetic :
    ∀ range ∈ whiteSpaceRanges, ∀ other ∈ alphabeticRanges,
      range.Apart other := by
  decide +kernel

/-- The decimal digits of ASCII. -/
def digitRange : CodeRange := ⟨0x30, 0x39⟩

theorem digit_apart_whiteSpace :
    ∀ range ∈ [digitRange], ∀ other ∈ whiteSpaceRanges,
      range.Apart other := by
  decide

theorem digit_apart_alphabetic :
    ∀ range ∈ [digitRange], ∀ other ∈ alphabeticRanges,
      range.Apart other := by
  decide +kernel

theorem covers_digitRange {character : Char}
    (digit : character.isDigit = true) :
    covers [digitRange] character.toNat = true := by
  simp only [Char.isDigit, Bool.and_eq_true, decide_eq_true_eq,
    UInt32.le_iff_toNat_le] at digit
  have first : digitRange.first ≤ character.toNat := digit.1
  have last : character.toNat ≤ digitRange.last := digit.2
  rw [covers, if_neg (Nat.not_lt.mpr first), if_pos last]

/-- The letters of ASCII are alphabetic. -/
theorem isAlphabetic_of_isAlpha {character : Char}
    (letter : character.isAlpha = true) : isAlphabetic character = true := by
  have either : (character.isUpper || character.isLower) = true := letter
  rw [isAlphabetic, alphabeticRanges, covers, covers]
  rcases (Bool.or_eq_true _ _).mp either with upper | lower
  · obtain ⟨first, last⟩ : 0x41 ≤ character.toNat ∧
        character.toNat ≤ 0x5a :=
      of_decide_eq_true upper
    rw [if_neg (Nat.not_lt.mpr first), if_pos last]
  · obtain ⟨large, small⟩ := (Bool.and_eq_true _ _).mp lower
    have first : 0x61 ≤ character.toNat := of_decide_eq_true large
    have last : character.toNat ≤ 0x7a := of_decide_eq_true small
    have behind : 0x5a < character.toNat := Nat.lt_of_lt_of_le (by decide) first
    rw [if_neg (Nat.not_lt.mpr (Nat.le_trans (by decide) first)),
      if_neg (Nat.not_le.mpr behind), if_neg (Nat.not_lt.mpr first),
      if_pos last]

end Unicode

namespace Text

theorem isIdentifierChar_of_isIdentifierStart {character : Char}
    (starts : isIdentifierStart character = true) :
    isIdentifierChar character = true := by
  rw [isIdentifierChar, starts, Bool.true_or]

/-- Only an alphabetic character or one of five marks starts an identifier. -/
theorem alphabetic_or_mark_of_isIdentifierStart {character : Char}
    (starts : isIdentifierStart character = true) :
    Unicode.isAlphabetic character = true ∨
      character ∈ ['_', '$', '.', ':', '/'] := by
  simpa only [isIdentifierStart, Bool.or_eq_true, beq_iff_eq, or_assoc,
    List.mem_cons, List.not_mem_nil, or_false] using starts

theorem not_isWhiteSpace_of_isIdentifierStart {character : Char}
    (starts : isIdentifierStart character = true) :
    Unicode.isWhiteSpace character = false := by
  rcases alphabetic_or_mark_of_isIdentifierStart starts with letter | mark
  · rw [← Bool.not_eq_true]
    intro blank
    have apart := Unicode.covers_eq_false_of_apart
      Unicode.whiteSpace_apart_alphabetic blank
    rw [Unicode.isAlphabetic, apart] at letter
    cases letter
  · have marks : (['_', '$', '.', ':', '/'].all fun mark =>
        !Unicode.isWhiteSpace mark) = true := by
      decide
    simpa only [Bool.not_eq_true'] using
      List.all_eq_true.mp marks character mark

theorem not_isWhiteSpace_of_isDigit {character : Char}
    (digit : character.isDigit = true) :
    Unicode.isWhiteSpace character = false :=
  Unicode.covers_eq_false_of_apart Unicode.digit_apart_whiteSpace
    (Unicode.covers_digitRange digit)

theorem not_isDigit_of_isIdentifierStart {character : Char}
    (starts : isIdentifierStart character = true) :
    character.isDigit = false := by
  rcases alphabetic_or_mark_of_isIdentifierStart starts with letter | mark
  · rw [← Bool.not_eq_true]
    intro digit
    have apart := Unicode.covers_eq_false_of_apart
      Unicode.digit_apart_alphabetic (Unicode.covers_digitRange digit)
    rw [Unicode.isAlphabetic, apart] at letter
    cases letter
  · have marks : (['_', '$', '.', ':', '/'].all fun mark =>
        !mark.isDigit) = true := by
      decide
    simpa only [Bool.not_eq_true'] using
      List.all_eq_true.mp marks character mark

theorem isIdentifierChar_of_mem {name : String}
    (identifier : isIdentifier name = true) {character : Char}
    (member : character ∈ name.toList) :
    isIdentifierChar character = true := by
  rw [isIdentifier] at identifier
  split at identifier
  · cases identifier
  · next first rest here =>
      rw [Bool.and_eq_true] at identifier
      rw [here] at member
      rcases List.mem_cons.mp member with head | later
      · exact head ▸ isIdentifierChar_of_isIdentifierStart identifier.1
      · exact List.all_eq_true.mp identifier.2 character later

end Text

namespace Source

/-- What goes on with a number also goes on with an identifier. -/
theorem isIdentifierChar_of_isNumberChar {character : Char}
    (goesOn : isNumberChar character = true) :
    Text.isIdentifierChar character = true := by
  simp only [isNumberChar, Char.isAlphanum, Bool.or_eq_true, beq_iff_eq]
    at goesOn
  rw [Text.isIdentifierChar, Text.isIdentifierStart]
  rcases goesOn with (letter | digit) | underscore
  · rw [Unicode.isAlphabetic_of_isAlpha letter]
    rfl
  · rw [digit, Bool.or_true]
  · rw [underscore]
    decide

end Source
end StackAssembly
