import StackAssembly.Proofs.Source.Literals

/-!
# Reading a text character by character

A text can be read with nothing but a look at the next character and a step
past it.  Every step moves the place along: its offset by the bytes of the
character, its line and column by whether the character ends a line.  Texts of
lexemes are cut out by the offsets at which their reading began and ended.
Reading in this way takes the same lexemes as scanning, and as many characters
as the scanned width says, so the places never get out of step with the text.
-/

namespace StackAssembly
namespace Source

/-- A text that is being read. -/
structure TextReader where
  /-- The characters that have not been read. -/
  rest : List Char
  /-- The place of the first of them. -/
  place : Position

/-- The characters in front of the given number of bytes. -/
def takeBytes : (count : Nat) → List Char → List Char
  | 0, _ => []
  | _ + 1, [] => []
  | count + 1, first :: rest =>
      first :: takeBytes (count + 1 - first.utf8Size) rest

/-- Pass characters as long as they are to be taken at their places. -/
def passWhile (takes : Position → Char → Bool) :
    List Char → Position → TextReader
  | [], place => ⟨[], place⟩
  | first :: rest, place =>
      if takes place first then passWhile takes rest (place.after first)
      else ⟨first :: rest, place⟩

namespace TextReader

/-- The next character, if there is one. -/
def peek? (reader : TextReader) : Option Char := reader.rest.head?

/-- Pass the next character, if there is one. -/
def advance (reader : TextReader) : TextReader :=
  match reader.rest with
  | [] => reader
  | first :: rest => ⟨rest, reader.place.after first⟩

/-- Advance as long as the next character is to be taken at its place. -/
def advanceWhile (takes : Position → Char → Bool) (reader : TextReader) :
    TextReader :=
  passWhile takes reader.rest reader.place

/-- The text from a place to a later one, cut out by their offsets. -/
def textUpTo (reader later : TextReader) : List Char :=
  takeBytes (later.place.offset - reader.place.offset) reader.rest

/-- Read a mark of one character. -/
def readMark (mark : Lexeme) (reader : TextReader) : Lexeme × TextReader :=
  (mark, reader.advance)

/-- Read an arrow. -/
def readArrow (reader : TextReader) : Lexeme × TextReader :=
  let behind := reader.advance
  if behind.peek? = some '>' then (.arrow, behind.advance)
  else (.malformed .expectedArrow, behind)

/-- Read a comment. -/
def readComment (reader : TextReader) : Lexeme × TextReader :=
  let behind := reader.advanceWhile fun _ character => character != '\n'
  (.comment (String.ofList (reader.textUpTo behind)), behind)

/-- Read a code of at most eight hexadecimal digits. -/
def readHexCode (reader : TextReader) :
    Except LexemeDefect UInt32 × TextReader :=
  let behind := reader.advanceWhile fun place character =>
    place.offset - reader.place.offset < 8 &&
      (digitValue? 16 character).isSome
  match reader.textUpTo behind with
  | [] => (.error .expectedHexDigits, behind)
  | digits => (.ok (hexCode digits), behind)

/-- Read an escape behind its backslash. -/
def readEscape (reader : TextReader) :
    Except LexemeDefect Char × TextReader :=
  match reader.peek? with
  | none => (.error .endInEscape, reader)
  | some 'n' => (.ok '\n', reader.advance)
  | some 'r' => (.ok '\r', reader.advance)
  | some 't' => (.ok '\t', reader.advance)
  | some '0' => (.ok '\x00', reader.advance)
  | some '\\' => (.ok '\\', reader.advance)
  | some '"' => (.ok '"', reader.advance)
  | some '\'' => (.ok '\'', reader.advance)
  | some 'u' =>
      match reader.advance.readHexCode with
      | (.error defect, behind) => (.error defect, behind)
      | (.ok code, behind) =>
          match Text.scalar? code with
          | some character => (.ok character, behind)
          | none => (.error (.invalidCodePoint code), behind)
  | some character => (.error (.invalidEscape character), reader.advance)

/-- The reader behind the given number of characters. -/
def past (reader : TextReader) (width : Nat) : TextReader where
  rest := reader.rest.drop width
  place := reader.place.afterAll (reader.rest.take width)

end TextReader

theorem Position.afterAll_append (place : Position)
    (first second : List Char) :
    place.afterAll (first ++ second) =
      (place.afterAll first).afterAll second :=
  List.foldl_append

theorem Position.offset_afterAll (place : Position) (text : List Char) :
    (place.afterAll text).offset = place.offset + sizeOfText text := by
  induction text generalizing place with
  | nil => rfl
  | cons first rest ih =>
      have step := ih (place.after first)
      rw [after, Nat.add_assoc, ← sizeOfText_cons] at step
      exact step

theorem takeBytes_sizeOfText (front back : List Char) :
    takeBytes (sizeOfText front) (front ++ back) = front := by
  induction front with
  | nil => cases back <;> rfl
  | cons first rest ih =>
      have positive := first.utf8Size_pos
      obtain ⟨count, size⟩ : ∃ count,
          sizeOfText (first :: rest) = count + 1 :=
        Nat.exists_eq_succ_of_ne_zero (by rw [sizeOfText_cons]; omega)
      have later : count + 1 - first.utf8Size = sizeOfText rest := by
        rw [← size, sizeOfText_cons, Nat.add_sub_cancel_left]
      rw [size, List.cons_append, takeBytes, later, ih]

theorem take_length_takeWhile (property : Char → Bool) (text : List Char) :
    text.take (text.takeWhile property).length = text.takeWhile property :=
  (List.prefix_iff_eq_take.mp (List.takeWhile_prefix property)).symm

namespace TextReader

variable (reader : TextReader)

@[simp]
theorem past_zero : reader.past 0 = reader := rfl

@[simp]
theorem rest_past (width : Nat) :
    (reader.past width).rest = reader.rest.drop width := rfl

@[simp]
theorem past_past (width more : Nat) :
    (reader.past width).past more = reader.past (width + more) := by
  simp only [past, List.drop_drop, ← Position.afterAll_append,
    ← List.take_add]

theorem advance_eq : reader.advance = reader.past 1 := by
  obtain ⟨_ | ⟨first, rest⟩, place⟩ := reader <;> rfl

/-- What is cut out between two places is what was read between them. -/
theorem textUpTo_past (width : Nat) :
    reader.textUpTo (reader.past width) = reader.rest.take width := by
  rw [textUpTo, past, Position.offset_afterAll, Nat.add_sub_cancel_left]
  have cut := takeBytes_sizeOfText (reader.rest.take width)
    (reader.rest.drop width)
  rwa [List.take_append_drop] at cut

theorem advanceWhile_eq (property : Char → Bool) :
    reader.advanceWhile (fun _ character => property character) =
      reader.past (reader.rest.takeWhile property).length := by
  obtain ⟨rest, place⟩ := reader
  rw [advanceWhile]
  dsimp only
  induction rest generalizing place with
  | nil => rfl
  | cons first rest ih =>
      rw [passWhile]
      split
      · next takes =>
          rw [ih, List.takeWhile_cons_of_pos takes]
          rfl
      · next leaves =>
          rw [List.takeWhile_cons_of_neg leaves]
          rfl

end TextReader

/-- A hexadecimal digit is encoded in one byte. -/
theorem utf8Size_of_hexDigit {digit : Char}
    (found : (digitValue? 16 digit).isSome = true) : digit.utf8Size = 1 := by
  rw [Char.utf8Size_eq_one_iff]
  dsimp only [digitValue?] at found
  split at found
  · next isDigit =>
      have bounded := of_decide_eq_true (Bool.and_eq_true_iff.mp isDigit).2
      exact UInt32.le_trans bounded (by decide)
  split at found
  · next isLower =>
      have bounded := of_decide_eq_true (Bool.and_eq_true_iff.mp isLower).2
      exact UInt32.le_trans bounded (by decide)
  split at found
  · next isUpper =>
      have bounded := (of_decide_eq_true isUpper).2
      exact UInt32.le_trans bounded (by decide)
  · cases found

theorem passWhile_hexDigits {base left : Nat} (rest : List Char)
    {place : Position} (within : place.offset + left = base + 8) :
    passWhile
        (fun place character => place.offset - base < 8 &&
          (digitValue? 16 character).isSome) rest place =
      (TextReader.mk rest place).past
        ((rest.take left).takeWhile fun character =>
          (digitValue? 16 character).isSome).length := by
  induction rest generalizing place left with
  | nil => rw [List.take_nil]; rfl
  | cons first rest ih =>
      rw [passWhile]
      cases left with
      | zero =>
          have full : ¬ place.offset - base < 8 := by omega
          simp [full]
      | succ left =>
          have room : place.offset - base < 8 := by omega
          rw [List.take_succ_cons]
          cases digit : (digitValue? 16 first).isSome with
          | false => simp [digit]
          | true =>
              have size := utf8Size_of_hexDigit digit
              have step : (place.after first).offset + left = base + 8 := by
                simp only [Position.after, size]
                omega
              have taken := @List.takeWhile_cons_of_pos _
                (fun character => (digitValue? 16 character).isSome) _
                (rest.take left) digit
              rw [taken, ih step, decide_eq_true room]
              rfl

namespace TextReader

variable (reader : TextReader)

theorem readHexCode_eq :
    reader.readHexCode =
      (match hexDigits reader.rest with
        | [] => .error .expectedHexDigits
        | digits => .ok (hexCode digits),
        reader.past (hexDigits reader.rest).length) := by
  have passed : (reader.advanceWhile fun place character =>
      place.offset - reader.place.offset < 8 &&
        (digitValue? 16 character).isSome) =
      reader.past (hexDigits reader.rest).length :=
    passWhile_hexDigits reader.rest rfl
  have digits : reader.rest.take (hexDigits reader.rest).length =
      hexDigits reader.rest :=
    (List.prefix_iff_eq_take.mp (isPrefix_hexDigits reader.rest)).symm
  rw [readHexCode, passed, textUpTo_past, digits]
  cases hexDigits reader.rest <;> rfl

theorem readEscape_eq :
    reader.readEscape =
      ((scanEscape reader.rest).1,
        reader.past (scanEscape reader.rest).2) := by
  obtain ⟨_ | ⟨first, rest⟩, place⟩ := reader
  · rfl
  rw [readEscape.eq_def]
  dsimp only [peek?, List.head?]
  split
  case h_1 same => cases same
  case h_9 character same =>
    cases same
    simp only [advance_eq, readHexCode_eq, scanEscape, past_past, rest_past,
      List.drop_succ_cons, List.drop_zero]
    cases hexDigits rest with
    | nil => rfl
    | cons digit digits =>
        dsimp only
        cases Text.scalar? (hexCode (digit :: digits)) <;> rfl
  case h_10 character _ _ _ _ _ _ _ _ same =>
    cases same
    rw [scanEscape]
    · rfl
    all_goals assumption
  all_goals
    rename_i same
    cases same
    rfl

/-- Read a string behind its opening quotation mark and what has been read
of its text. -/
def readStringBody (text : List Char) (reader : TextReader) :
    Lexeme × TextReader :=
  match _peeked : reader.peek? with
  | none => (.malformed .unterminatedString, reader)
  | some '"' => (.string (String.ofList text), reader.advance)
  | some '\\' =>
      match _escaped : reader.advance.readEscape with
      | (.error defect, behind) => (.malformed defect, behind)
      | (.ok character, behind) => readStringBody (text ++ [character]) behind
  | some character => readStringBody (text ++ [character]) reader.advance
termination_by reader.rest.length
decreasing_by
  -- Every turn of the loop has passed a character.
  · obtain ⟨rest, same⟩ := List.head?_eq_some_iff.mp _peeked
    rw [readEscape_eq] at _escaped
    obtain ⟨-, rfl⟩ := Prod.mk.inj _escaped
    simp only [advance_eq, rest_past, same, List.length_drop,
      List.length_cons]
    omega
  · obtain ⟨rest, same⟩ := List.head?_eq_some_iff.mp _peeked
    simp [advance_eq, same]

/-- The lexeme that a string becomes. -/
def stringLexeme (text : List Char) :
    Except LexemeDefect (List Char) → Lexeme
  | .ok more => .string (String.ofList (text ++ more))
  | .error defect => .malformed defect

theorem width_scanEscape_le (text : List Char) :
    (scanEscape text).2 ≤ text.length := by
  rw [scanEscape.eq_def]
  split
  case h_9 rest =>
    have digits := (isPrefix_hexDigits rest).length_le
    split
    · simp
    · split
      all_goals
        simp only [List.length_cons]
        omega
  all_goals simp

/-- A string goes on behind an escape. -/
theorem scanStringBody_escape {rest : List Char} {character : Char}
    {width : Nat} (escape : scanEscape rest = (.ok character, width)) :
    scanStringBody 0 ('\\' :: rest) =
      ((scanStringBody 0 (rest.drop width)).1.map (character :: ·),
        1 + width + (scanStringBody 0 (rest.drop width)).2) := by
  have within : width ≤ rest.length := by
    have bounded := width_scanEscape_le rest
    rwa [escape] at bounded
  have skipped := scanStringBody_skip (rest.take width) (rest.drop width)
  rw [List.take_append_drop, List.length_take_of_le within] at skipped
  rw [scanStringBody, escape]
  simp only [skipped, Prod.mk.injEq, true_and]
  omega

theorem stringLexeme_map (text : List Char) (character : Char)
    (scanned : Except LexemeDefect (List Char)) :
    stringLexeme (text ++ [character]) scanned =
      stringLexeme text (scanned.map (character :: ·)) := by
  cases scanned with
  | error defect => rfl
  | ok more =>
      rw [stringLexeme, List.append_assoc]
      rfl

/-- The loop over the text of a string takes what scanning takes. -/
theorem readStringBody_eq (text : List Char) :
    reader.readStringBody text =
      (stringLexeme text (scanStringBody 0 reader.rest).1,
        reader.past (scanStringBody 0 reader.rest).2) := by
  fun_induction readStringBody text reader with
  | case1 text reader peeked =>
      rw [List.head?_eq_none_iff.mp peeked]
      rfl
  | case2 text reader peeked =>
      obtain ⟨rest, same⟩ := List.head?_eq_some_iff.mp peeked
      rw [same, scanStringBody, stringLexeme, List.append_nil, advance_eq]
  | case3 text reader peeked defect behind escaped =>
      obtain ⟨rest, same⟩ := List.head?_eq_some_iff.mp peeked
      rw [readEscape_eq, advance_eq, rest_past, same, past_past] at escaped
      obtain ⟨failed, rfl⟩ := Prod.mk.inj escaped
      have escape : scanEscape rest = (.error defect, (scanEscape rest).2) :=
        Prod.ext failed rfl
      rw [same, scanStringBody, escape, Nat.add_comm]
      rfl
  | case4 text reader peeked character behind escaped ih =>
      obtain ⟨rest, same⟩ := List.head?_eq_some_iff.mp peeked
      rw [readEscape_eq, advance_eq, rest_past, same, past_past] at escaped
      obtain ⟨found, rfl⟩ := Prod.mk.inj escaped
      have escape : scanEscape rest = (.ok character, (scanEscape rest).2) :=
        Prod.ext found rfl
      rw [ih, stringLexeme_map, past_past, rest_past, same,
        scanStringBody_escape escape]
      simp only [Nat.add_comm 1, List.drop_succ_cons, List.drop_zero]
  | case5 text reader character unmarked unescaped peeked ih =>
      obtain ⟨rest, same⟩ := List.head?_eq_some_iff.mp peeked
      rw [ih, stringLexeme_map, advance_eq, past_past, rest_past, same,
        List.drop_succ_cons, List.drop_zero, scanStringBody, Nat.add_comm 1]
      all_goals assumption

/-- Read a string. -/
def readString (reader : TextReader) : Lexeme × TextReader :=
  reader.advance.readStringBody []

/-- Read the character of a literal behind its opening quotation mark. -/
def readLiteral (reader : TextReader) :
    Except LexemeDefect Char × TextReader :=
  match reader.peek? with
  | some '\\' => reader.advance.readEscape
  | some '\'' => (.error .emptyCharacter, reader)
  | none => (.error .emptyCharacter, reader)
  | some character => (.ok character, reader.advance)

/-- Close a character literal. -/
def closeLiteral :
    Except LexemeDefect Char × TextReader → Lexeme × TextReader
  | (.error defect, behind) => (.malformed defect, behind)
  | (.ok character, behind) =>
      if behind.peek? = some '\'' then
        (.character (Text.code character), behind.advance)
      else (.malformed .unterminatedCharacter, behind)

/-- Read a character literal. -/
def readCharacter (reader : TextReader) : Lexeme × TextReader :=
  closeLiteral reader.advance.readLiteral

/-- Read a literal for any 32-bit code. -/
def readCode (reader : TextReader) : Lexeme × TextReader :=
  let behind := reader.advance
  if behind.peek? = some 'u' then
    match behind.advance.readHexCode with
    | (.error defect, stop) => (.malformed defect, stop)
    | (.ok code, stop) => (.character code, stop)
  else (.malformed .expectedCodeLiteral, behind)

/-- Read a number. -/
def readNumber (reader : TextReader) : Lexeme × TextReader :=
  let hexadecimal := startsHex reader.rest
  let start := if hexadecimal then reader.advance.advance else reader
  let behind := start.advanceWhile fun _ character => isNumberChar character
  let digits := (start.textUpTo behind).filter (· != '_')
  match numeral (if hexadecimal then 16 else 10) digits with
  | .ok number => (.integer (UInt64.ofNat number), behind)
  | .error defect =>
      (.malformed
        (.invalidInteger (String.ofList (reader.textUpTo behind)) defect),
        behind)

/-- Read an identifier. -/
def readIdentifier (reader : TextReader) : Lexeme × TextReader :=
  let behind := reader.advanceWhile fun _ character =>
    Text.isIdentifierChar character
  (.identifier (String.ofList (reader.textUpTo behind)), behind)

/-- Read the lexeme that starts with the given next character. -/
def readLexeme (first : Char) (reader : TextReader) : Lexeme × TextReader :=
  match first with
  | '(' => reader.readMark .openParen
  | ')' => reader.readMark .closeParen
  | '[' => reader.readMark .openBracket
  | ']' => reader.readMark .closeBracket
  | '{' => reader.readMark .openBrace
  | '}' => reader.readMark .closeBrace
  | ',' => reader.readMark .comma
  | ';' => reader.readMark .semicolon
  | '-' => reader.readArrow
  | '#' => reader.readComment
  | '"' => reader.readString
  | '\'' => reader.readCharacter
  | '\\' => reader.readCode
  | _ =>
      if first.isDigit then reader.readNumber
      else if Text.isIdentifierStart first then reader.readIdentifier
      else reader.readMark (.malformed (.unexpectedCharacter first))

/-- Read the token that starts with the next character. -/
def readVisible (reader : TextReader) : Token × TextReader :=
  match reader.peek? with
  | none => (⟨.endOfInput, reader.place⟩, reader)
  | some first =>
      let found := reader.readLexeme first
      (⟨found.1, reader.place⟩, found.2)

/-- Read a token with the white space in front of it. -/
def readToken (reader : TextReader) : Token × TextReader :=
  (reader.advanceWhile fun _ character =>
    Unicode.isWhiteSpace character).readVisible

end TextReader

/-- What reading a scanned lexeme comes to. -/
def Scan.readFrom (scan : Scan) (reader : TextReader) :
    Lexeme × TextReader :=
  (scan.lexeme, reader.past scan.width)

namespace TextReader

section Lexemes

variable {reader : TextReader} {first : Char} {rest : List Char}

theorem rest_advance (here : reader.rest = first :: rest) :
    reader.advance.rest = rest := by
  rw [advance_eq, rest_past, here, List.drop_succ_cons, List.drop_zero]

theorem peek?_advance (here : reader.rest = first :: rest) :
    reader.advance.peek? = rest.head? := by
  rw [peek?, rest_advance here]

theorem readArrow_eq (here : reader.rest = first :: rest) :
    reader.readArrow = (scanArrow rest).readFrom reader := by
  rw [readArrow, peek?_advance here, advance_eq, advance_eq, past_past]
  cases rest with
  | nil => rfl
  | cons second later =>
      by_cases isHead : second = '>'
      · subst isHead
        rfl
      · rw [scanArrow]
        · rw [if_neg (by simpa using isHead)]
          rfl
        · simpa using isHead

theorem readComment_eq (reader : TextReader) :
    reader.readComment = (scanComment reader.rest).readFrom reader := by
  rw [readComment, advanceWhile_eq, textUpTo_past, take_length_takeWhile]
  rfl

theorem readIdentifier_eq (reader : TextReader) :
    reader.readIdentifier =
      (scanIdentifier reader.rest).readFrom reader := by
  rw [readIdentifier, advanceWhile_eq, textUpTo_past, take_length_takeWhile]
  rfl

theorem readNumber_eq (reader : TextReader) :
    reader.readNumber = (scanNumber reader.rest).readFrom reader := by
  have start : (if startsHex reader.rest = true then reader.advance.advance
      else reader) =
      reader.past (if startsHex reader.rest = true then 2 else 0) := by
    split
    · rw [advance_eq, advance_eq, past_past]
    · rfl
  rw [readNumber, start, scanNumber, advanceWhile_eq, textUpTo_past,
    rest_past, take_length_takeWhile, past_past, textUpTo_past]
  cases numeral _ _ <;> rfl

theorem readString_eq (here : reader.rest = first :: rest) :
    reader.readString = (scanString rest).readFrom reader := by
  rw [readString, readStringBody_eq, advance_eq, past_past, rest_past, here,
    List.drop_succ_cons, List.drop_zero, Nat.add_comm 1, scanString]
  split <;> next scanned => rw [scanned]; rfl

theorem readCode_eq (here : reader.rest = first :: rest) :
    reader.readCode = (scanCode rest).readFrom reader := by
  rw [readCode, peek?_advance here, scanCode.eq_def]
  split
  · next marked =>
      obtain ⟨digits, rfl⟩ := List.head?_eq_some_iff.mp marked
      simp only [advance_eq, past_past, readHexCode_eq, rest_past, here,
        List.drop_succ_cons, List.drop_zero]
      cases hexDigits digits with
      | nil => rfl
      | cons digit digits =>
          dsimp only [Scan.readFrom]
          rw [Nat.add_comm (1 + 1)]
  · next unmarked =>
      split
      · exact absurd rfl unmarked
      · rw [advance_eq]
        rfl

/-- A literal ends with a quotation mark. -/
theorem closeLiteral_ok (character : Char) (width : Nat) :
    closeLiteral (.ok character, reader.past width) =
      (closeCharacter character width (reader.rest.drop width)).readFrom
        reader := by
  rw [closeLiteral, peek?, rest_past, closeCharacter.eq_def]
  split
  · next marked =>
      obtain ⟨rest, here⟩ := List.head?_eq_some_iff.mp marked
      rw [here, advance_eq, past_past]
      rfl
  · next unmarked =>
      split
      · next here => simp [here] at unmarked
      · rfl

theorem readCharacter_eq (here : reader.rest = first :: rest) :
    reader.readCharacter = (scanCharacter rest).readFrom reader := by
  rw [readCharacter, readLiteral.eq_def, peek?_advance here, advance_eq,
    advance_eq, past_past]
  split
  · next marked =>
      obtain ⟨later, rfl⟩ := List.head?_eq_some_iff.mp marked
      have left (width : Nat) :
          reader.rest.drop (width + 2) = later.drop width := by
        rw [here, List.drop_succ_cons, List.drop_succ_cons]
      have behind := left 0
      rw [List.drop_zero, Nat.zero_add] at behind
      rw [readEscape_eq, rest_past, past_past, behind, Nat.add_comm,
        scanCharacter]
      cases scanEscape later with
      | mk found width =>
          cases found with
          | error defect => rfl
          | ok character => rw [closeLiteral_ok, left]
  · next marked =>
      obtain ⟨later, rfl⟩ := List.head?_eq_some_iff.mp marked
      rfl
  · next ended =>
      cases List.head?_eq_none_iff.mp ended
      rfl
  · next character unescaped unmarked found =>
      obtain ⟨later, rfl⟩ := List.head?_eq_some_iff.mp found
      have behind : reader.rest.drop 2 = later := by
        rw [here, List.drop_succ_cons, List.drop_succ_cons, List.drop_zero]
      rw [closeLiteral_ok, behind, scanCharacter]
      all_goals assumption

/-- Reading a lexeme character by character takes what scanning takes. -/
theorem readLexeme_eq (here : reader.rest = first :: rest) :
    reader.readLexeme first = (scan first rest).readFrom reader := by
  rw [readLexeme.eq_def]
  split
  case h_9 => exact readArrow_eq here
  case h_10 =>
    rw [scan, ← here]
    exact readComment_eq reader
  case h_11 => exact readString_eq here
  case h_12 => exact readCharacter_eq here
  case h_13 => exact readCode_eq here
  case h_14 =>
    rw [scan, ← here]
    · split
      · exact readNumber_eq reader
      split
      · exact readIdentifier_eq reader
      · rw [readMark, advance_eq]
        rfl
    all_goals assumption
  all_goals
    rw [readMark, advance_eq]
    rfl

theorem readVisible_of_nil (ended : reader.rest = []) :
    reader.readVisible = (⟨.endOfInput, reader.place⟩, reader) := by
  rw [readVisible, peek?, ended]
  rfl

theorem readVisible_of_cons (here : reader.rest = first :: rest) :
    reader.readVisible =
      (⟨(scan first rest).lexeme, reader.place⟩,
        reader.past (scan first rest).width) := by
  rw [readVisible, peek?, here, List.head?_cons]
  dsimp only
  rw [readLexeme_eq here]
  rfl

theorem readToken_eq (reader : TextReader) :
    reader.readToken =
      (reader.past
        (reader.rest.takeWhile Unicode.isWhiteSpace).length).readVisible := by
  rw [readToken, advanceWhile_eq]

end Lexemes
end TextReader
end Source
end StackAssembly
