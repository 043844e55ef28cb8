import Mathlib.Data.List.TakeWhile
import StackAssembly.Proofs.Source.Cutting
import StackAssembly.Source.Listing

/-!
# Listed words, numbers and texts

Identifiers, decimal numbers, strings and characters are cut back into the
lexemes of which they are listed.
-/

namespace StackAssembly
namespace Source

/-- Nothing that stays within an identifier goes on where one ends. -/
theorem takeWhile_of_ends {goesOn : Char → Bool}
    (within : ∀ character, goesOn character = true →
      Text.isIdentifierChar character = true)
    {rest : List Char} (ends : Ends rest) : rest.takeWhile goesOn = [] := by
  cases rest with
  | nil => rfl
  | cons first later =>
      rw [List.takeWhile_cons_of_neg]
      intro holds
      have apart := ends first rfl
      rw [within first holds] at apart
      cases apart

theorem scan_of_isIdentifierStart {first : Char} (rest : List Char)
    (starts : Text.isIdentifierStart first = true) :
    scan first rest = scanIdentifier (first :: rest) := by
  rw [scan.eq_def]
  split
  case h_14 =>
    rw [Text.not_isDigit_of_isIdentifierStart starts,
      if_neg Bool.false_ne_true, if_pos starts]
  all_goals exact absurd starts (by decide)

theorem scan_of_isDigit {first : Char} (rest : List Char)
    (digit : first.isDigit = true) :
    scan first rest = scanNumber (first :: rest) := by
  rw [scan.eq_def]
  split
  case h_14 => rw [if_pos digit]
  all_goals exact absurd digit (by decide)

/-- An identifier is scanned whole where no identifier goes on behind it. -/
theorem scan_of_isIdentifier {name : String} {first : Char}
    {later rest : List Char} (identifier : Text.isIdentifier name = true)
    (here : name.toList = first :: later) (ends : Ends rest) :
    scan first (later ++ rest) =
      ⟨.identifier name, (first :: later).length⟩ := by
  have within : ∀ character ∈ first :: later,
      Text.isIdentifierChar character = true :=
    fun _ member => Text.isIdentifierChar_of_mem identifier (here ▸ member)
  have taken : (first :: (later ++ rest)).takeWhile Text.isIdentifierChar =
      first :: later := by
    rw [← List.cons_append, List.takeWhile_append_of_pos within,
      takeWhile_of_ends (fun _ => id) ends, List.append_nil]
  rw [Text.isIdentifier, here, Bool.and_eq_true] at identifier
  rw [scan_of_isIdentifierStart _ identifier.1, scanIdentifier, taken, ← here,
    String.ofList_toList]

/-- An identifier begins with a visible character. -/
theorem exists_cons_of_isIdentifier {name : String}
    (identifier : Text.isIdentifier name = true) :
    ∃ first later, name.toList = first :: later ∧
      Unicode.isWhiteSpace first = false := by
  rw [Text.isIdentifier] at identifier
  split at identifier
  · cases identifier
  · next first later here =>
      have starts := ((Bool.and_eq_true _ _).mp identifier).1
      exact ⟨first, later, here,
        Text.not_isWhiteSpace_of_isIdentifierStart starts⟩

/-- An identifier is cut as a word. -/
theorem writes_identifier {name : String}
    (identifier : Text.isIdentifier name = true) :
    Writes name [.identifier name] := by
  intro rest ends
  obtain ⟨first, later, here, visible⟩ :=
    exists_cons_of_isIdentifier identifier
  have scanned := scan_of_isIdentifier identifier here ends
  rw [here]
  exact cuts_lexeme visible scanned rfl

/-- A word and a text that cannot go on with it are cut in turn. -/
theorem closed_word {word tail : String} {lexemes : List Lexeme}
    (identifier : Text.isIdentifier word = true)
    (closed : Closed tail lexemes) (apart : parts tail = true) :
    Closed (word ++ tail) (.identifier word :: lexemes) :=
  (writes_identifier identifier).close closed apart

theorem digitValue?_of_isDigit {digit : Char}
    (decimal : digit.isDigit = true) :
    digitValue? 10 digit = some (digit.toNat - '0'.toNat) := by
  have last := decimal
  simp only [Char.isDigit, Bool.and_eq_true, decide_eq_true_eq,
    UInt32.le_iff_toNat_le] at last
  have small : digit.toNat ≤ 57 := last.2
  simp only [digitValue?, decimal, if_true]
  rw [if_pos]
  have zero : '0'.toNat = 48 := rfl
  omega

theorem le_ofDigitChars (digits : List Char) (number : Nat) :
    number ≤ Nat.ofDigitChars 10 digits number := by
  rw [Nat.ofDigitChars_eq_ofDigitChars_zero]
  have positive : 0 < 10 ^ digits.length := Nat.pow_pos (by decide)
  have bound := Nat.le_mul_of_pos_left number positive
  omega

/-- Decimal digits denote their number if it fits into a word. -/
theorem readDigits_of_isDigit {digits : List Char} {number : Nat}
    (decimal : ∀ digit ∈ digits, digit.isDigit = true)
    (small : Nat.ofDigitChars 10 digits number < UInt64.size) :
    readDigits 10 number digits =
      .ok (Nat.ofDigitChars 10 digits number) := by
  induction digits generalizing number with
  | nil => rfl
  | cons digit digits ih =>
      obtain ⟨first, later⟩ := List.forall_mem_cons.mp decimal
      rw [Nat.ofDigitChars_cons, Nat.mul_comm 10 number] at small ⊢
      have below : number * 10 + (digit.toNat - '0'.toNat) < UInt64.size :=
        Nat.lt_of_le_of_lt (le_ofDigitChars digits _) small
      simp only [readDigits, digitValue?_of_isDigit first]
      rw [if_pos below, ih later small]

theorem numeral_toDigits {number : Nat} (small : number < UInt64.size) :
    numeral 10 (Nat.toDigits 10 number) = .ok number := by
  have decimal : ∀ digit ∈ Nat.toDigits 10 number, digit.isDigit = true :=
    fun _ member => Nat.isDigit_of_mem_toDigits (by decide) (by decide) member
  have denoted : Nat.ofDigitChars 10 (Nat.toDigits 10 number) 0 = number :=
    Nat.ofDigitChars_ten_toDigits
  have read := @readDigits_of_isDigit _ 0 decimal (by rwa [denoted])
  rw [denoted] at read
  rw [← read, numeral.eq_def]
  split
  · next none => exact absurd none Nat.toDigits_ne_nil
  · rfl

/-- What stands second behind a digit is a digit or ends the number. -/
theorem second_append_ne {digits rest later : List Char} {first mark : Char}
    (decimal : ∀ digit ∈ digits, digit.isDigit = true)
    (nonempty : digits ≠ []) (ends : Ends rest)
    (letter : Text.isIdentifierChar mark = true)
    (notDigit : mark.isDigit = false) :
    digits ++ rest ≠ first :: mark :: later := by
  intro same
  obtain ⟨digit, digits, rfl⟩ := List.exists_cons_of_ne_nil nonempty
  cases digits with
  | nil =>
      have behind : rest = mark :: later := (List.cons.inj same).2
      have apart := ends mark (by rw [behind]; rfl)
      rw [letter] at apart
      cases apart
  | cons second digits =>
      have marked : second = mark := (List.cons.inj (List.cons.inj same).2).1
      have isDigit := decimal second
        (List.mem_cons_of_mem _ List.mem_cons_self)
      rw [marked, notDigit] at isDigit
      cases isDigit

/-- Decimal digits do not look like the mark of a hexadecimal number. -/
theorem startsHex_append {digits rest : List Char}
    (decimal : ∀ digit ∈ digits, digit.isDigit = true)
    (nonempty : digits ≠ []) (ends : Ends rest) :
    startsHex (digits ++ rest) = false := by
  rw [startsHex.eq_def]
  split
  · next same =>
      exact (second_append_ne decimal nonempty ends (by decide) (by decide)
        same).elim
  · next same =>
      exact (second_append_ne decimal nonempty ends (by decide) (by decide)
        same).elim
  · rfl

/-- A number of 64 bits is cut from its decimal digits. -/
theorem writes_decimal {number : Nat} (small : number < UInt64.size) :
    Writes (Text.decimal number) [.integer (UInt64.ofNat number)] := by
  intro rest ends
  rw [Text.decimal, String.toList_ofList]
  have decimal : ∀ digit ∈ Nat.toDigits 10 number, digit.isDigit = true :=
    fun _ member => Nat.isDigit_of_mem_toDigits (by decide) (by decide) member
  have denoted := numeral_toDigits small
  have nonempty : Nat.toDigits 10 number ≠ [] := Nat.toDigits_ne_nil
  generalize Nat.toDigits 10 number = digits at decimal denoted nonempty
  have goesOn : ∀ digit ∈ digits, isNumberChar digit = true := by
    intro digit member
    simp [isNumberChar, Char.isAlphanum, decimal digit member]
  have taken : (digits ++ rest).takeWhile isNumberChar = digits := by
    rw [List.takeWhile_append_of_pos goesOn, takeWhile_of_ends
      (fun _ => isIdentifierChar_of_isNumberChar) ends, List.append_nil]
  have plain : digits.filter (· != '_') = digits := by
    refine List.filter_eq_self.mpr fun digit member => bne_iff_ne.mpr ?_
    rintro rfl
    exact absurd (decimal _ member) (by decide)
  have scanned : scanNumber (digits ++ rest) =
      ⟨.integer (UInt64.ofNat number), digits.length⟩ := by
    simp only [scanNumber, startsHex_append decimal nonempty ends,
      Bool.false_eq_true, if_false, List.drop_zero, taken, plain, denoted,
      Nat.zero_add]
  cases digits with
  | nil => exact absurd rfl nonempty
  | cons first later =>
      have digit := decimal first List.mem_cons_self
      refine cuts_lexeme (Text.not_isWhiteSpace_of_isDigit digit) ?_ rfl
      rw [scan_of_isDigit _ digit]
      exact scanned

/-- Skipping a text leaves what follows it to be scanned. -/
theorem scanStringBody_skip (skipped more : List Char) :
    scanStringBody skipped.length (skipped ++ more) =
      ((scanStringBody 0 more).1,
        (scanStringBody 0 more).2 + skipped.length) := by
  induction skipped with
  | nil => rfl
  | cons first skipped ih =>
      rw [List.length_cons, List.cons_append, scanStringBody, ih]
      rfl

/-- Whether a listed character is scanned as the character, whatever follows
it in a string. -/
def ScansAs (listed : List Char) (character : Char) : Prop :=
  ∀ more, scanStringBody 0 (listed ++ more) =
    ((scanStringBody 0 more).1.map (character :: ·),
      (scanStringBody 0 more).2 + listed.length)

theorem scansAs_of_escape {escaped : List Char} {character : Char}
    (escape : ∀ more,
      scanEscape (escaped ++ more) = (.ok character, escaped.length)) :
    ScansAs ('\\' :: escaped) character := by
  intro more
  rw [List.cons_append, scanStringBody, escape more]
  simp only [scanStringBody_skip, List.length_cons, Nat.add_assoc]

theorem scansAs_self {character : Char} (unmarked : character ≠ '"')
    (unescaped : character ≠ '\\') : ScansAs [character] character := by
  intro more
  rw [List.cons_append, List.nil_append]
  simp only [scanStringBody, List.length_cons, List.length_nil]

/-- The code of a control character is written with eight digits. -/
theorem hexCode_of_control : ∀ code < 0xa0,
    let digits := Text.padZeros 8 ((Nat.toDigits 16 code).map Char.toUpper)
    digits.length = 8 ∧
      (digits.all fun digit => (digitValue? 16 digit).isSome) = true ∧
      hexCode digits = UInt32.ofNat code := by
  decide +kernel

theorem lt_of_isControl {character : Char}
    (control : Unicode.isControl character = true) :
    character.toNat < 0xa0 := by
  obtain ⟨range, member, -, last⟩ := Unicode.exists_range_of_covers control
  have bounded : ∀ range ∈ Unicode.controlRanges, range.last < 0xa0 := by
    decide
  exact Nat.lt_of_le_of_lt last (bounded range member)

theorem scalar?_code (character : Char) :
    Text.scalar? (UInt32.ofNat character.toNat) = some character := by
  have same : UInt32.ofNat character.toNat = character.val :=
    UInt32.ofNat_toNat
  rw [same, Text.scalar?, dif_pos character.valid]

/-- A control character is scanned from its code. -/
theorem scansAs_of_isControl {character : Char}
    (control : Unicode.isControl character = true) :
    ScansAs ('\\' :: 'u' ::
      (Text.paddedUpperHex 8 character.toNat).toList) character := by
  obtain ⟨eight, hexadecimal, code⟩ :=
    hexCode_of_control character.toNat (lt_of_isControl control)
  have scalar := scalar?_code character
  rw [Text.paddedUpperHex, String.toList_ofList]
  generalize Text.padZeros 8
    ((Nat.toDigits 16 character.toNat).map Char.toUpper) = digits
    at eight hexadecimal code
  refine @scansAs_of_escape ('u' :: digits) character fun more => ?_
  have found : hexDigits (digits ++ more) = digits := by
    rw [hexDigits, List.take_left' eight]
    exact List.takeWhile_eq_self_iff.mpr (List.all_eq_true.mp hexadecimal)
  rw [List.cons_append, scanEscape.eq_def]
  simp only [found]
  split
  · cases eight
  · rw [code, scalar]
    simp only [List.length_cons, Nat.add_comm]

/-- Every character of a string is scanned from what is listed for it. -/
theorem scansAs_listedStringCharacter (character : Char) :
    ScansAs (listedStringCharacter character).toList character := by
  rw [listedStringCharacter]
  split
  · next same =>
      rw [same]
      exact @scansAs_of_escape ['"'] '"' fun _ => rfl
  next unmarked =>
  split
  · next same =>
      rw [same]
      exact @scansAs_of_escape ['\\'] '\\' fun _ => rfl
  next unescaped =>
  split
  · next same =>
      rw [same]
      exact @scansAs_of_escape ['n'] '\n' fun _ => rfl
  split
  · next same =>
      rw [same]
      exact @scansAs_of_escape ['r'] '\r' fun _ => rfl
  split
  · next same =>
      rw [same]
      exact @scansAs_of_escape ['t'] '\t' fun _ => rfl
  split
  · next control =>
      rw [String.toList_append]
      exact scansAs_of_isControl control
  · rw [String.toList_singleton]
    exact scansAs_self unmarked unescaped

/-- A string is scanned up to its closing mark. -/
theorem scanStringBody_listed (characters rest : List Char) :
    scanStringBody 0 (characters.flatMap
        (fun character => (listedStringCharacter character).toList) ++
          '"' :: rest) =
      (.ok characters, (characters.flatMap fun character =>
        (listedStringCharacter character).toList).length + 1) := by
  induction characters with
  | nil => rfl
  | cons character characters ih =>
      rw [List.flatMap_cons, List.append_assoc,
        scansAs_listedStringCharacter character, ih, List.length_append]
      exact congrArg _ (by omega)

/-- A string is cut from what is listed for it. -/
theorem closed_listedString (text : String) :
    Closed (listedString text) [.string text] := by
  intro rest
  have listed : (listedString text).toList ++ rest =
      '"' :: ((text.toList.flatMap fun character =>
        (listedStringCharacter character).toList) ++ ['"']) ++ rest := by
    simp [listedString, String.toList_join, List.flatMap_map]
  rw [listed]
  refine cuts_lexeme (by decide) ?_ rfl
  rw [List.append_assoc, List.singleton_append]
  show scanString _ = _
  rw [scanString, scanStringBody_listed]
  simp

/-- The lexeme of a listed character. -/
def characterLexeme (code : UInt32) : Lexeme :=
  match Text.scalar? code with
  | some character =>
      if isPlainCharacter character then .character code
      else .integer (UInt64.ofNat code.toNat)
  | none => .integer (UInt64.ofNat code.toNat)

/-- A plain character is cut as a literal. -/
theorem closed_plainCharacter {character : Char}
    (plain : isPlainCharacter character = true) :
    Closed ("'" ++ String.singleton character ++ "'")
      [.character (Text.code character)] := by
  simp only [isPlainCharacter, Bool.and_eq_true, bne_iff_ne] at plain
  obtain ⟨⟨-, unmarked⟩, unescaped⟩ := plain
  intro rest
  have listed : ("'" ++ String.singleton character ++ "'").toList ++ rest =
      '\'' :: [character, '\''] ++ rest := by
    simp
  rw [listed]
  refine cuts_lexeme (by decide) ?_ rfl
  show scanCharacter (character :: '\'' :: rest) = _
  simp only [scanCharacter]
  rfl

/-- A character is cut from what is listed for it. -/
theorem writes_listedCharacter (code : UInt32) :
    Writes (listedCharacter code) [characterLexeme code] := by
  have small : code.toNat < UInt64.size :=
    Nat.lt_trans code.toNat_lt (by decide)
  rw [listedCharacter, characterLexeme]
  match scalar : Text.scalar? code with
  | none => exact writes_decimal small
  | some character =>
      have same : Text.code character = code := by
        rw [Text.scalar?] at scalar
        split at scalar
        · cases scalar
          rfl
        · cases scalar
      dsimp only
      split
      · next plain => exact same ▸ (closed_plainCharacter plain).writes
      · exact writes_decimal small

end Source
end StackAssembly
