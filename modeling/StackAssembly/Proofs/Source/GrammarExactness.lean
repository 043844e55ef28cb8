import StackAssembly.Proofs.Source.Completeness

/-!
# The grammar is read exactly

A parser that yields a value has read lexemes that denote the value.  Together
with the recognition of all that is derived, this makes the grammar exact: a
text is read as a value if and only if its lexemes denote the value, and every
other text is refused with an error of parsing.

What a parser has read is known only behind it.  So the statement about a
sequence of parsers goes from the lexemes that the first one has read to the
language that is left for the second one.
-/

namespace StackAssembly
namespace Source

namespace Parser

variable {α β : Type}

/-- Whether a value that a parser yields at a cursor is denoted by the lexemes
it reads there. -/
def ReadsAt (parser : Parser α) (cursor : TokenCursor)
    (language : Language α) : Prop :=
  ∀ value later, parser cursor = .ok value later →
    ∃ lexemes, language lexemes value ∧
      cursor.rest.map Token.lexeme =
        lexemes ++ later.rest.map Token.lexeme

variable {cursor : TokenCursor} {language : Language α}
  {combined : Language β}

theorem readsAt_pure {value : α} (denoted : language [] value) :
    ReadsAt (pure value) cursor language := by
  intro result later run
  cases run
  exact ⟨[], denoted, rfl⟩

theorem readsAt_fail (defect : ParseDefect) :
    (fail defect).ReadsAt cursor language := by
  intro value later run
  cases run

theorem readsAt_unexpected (what : String) :
    (unexpected what).ReadsAt cursor language := by
  intro value later run
  cases run

theorem readsAt_get {later : TokenCursor → Parser α}
    (reads : (later cursor).ReadsAt cursor language) :
    (get >>= later).ReadsAt cursor language :=
  reads

/-- The second parser reads what the language still wants behind the lexemes
of the first one. -/
theorem ReadsAt.bind {first : Parser α} {next : α → Parser β}
    (one : first.ReadsAt cursor language)
    (two : ∀ value behind lexemes, language lexemes value →
      lexemes.length + behind.rest.length = cursor.rest.length →
        (next value).ReadsAt behind fun more => combined (lexemes ++ more)) :
    (first >>= next).ReadsAt cursor combined := by
  intro result later run
  cases done : first cursor with
  | error failure behind =>
      rw [bind_of_error done] at run
      cases run
  | ok value behind =>
      rw [bind_of_ok done] at run
      obtain ⟨lexemes, denoted, here⟩ := one value behind done
      have count := congrArg List.length here
      rw [List.length_map, List.length_append, List.length_map] at count
      obtain ⟨more, wanted, there⟩ :=
        two value behind lexemes denoted count.symm result later run
      refine ⟨lexemes ++ more, wanted, ?_⟩
      rw [here, there, List.append_assoc]

theorem ReadsAt.map {parser : Parser α}
    (reads : parser.ReadsAt cursor language)
    {make : α → β} (makes : ∀ lexemes value, language lexemes value →
      combined lexemes (make value)) :
    ReadsAt (do return make (← parser)) cursor combined := by
  refine reads.bind fun value behind lexemes denoted _ => ?_
  apply readsAt_pure
  rw [List.append_nil]
  exact makes lexemes value denoted

theorem ReadsAt.imp {parser : Parser α} {wider : Language α}
    (reads : parser.ReadsAt cursor language)
    (implies : ∀ lexemes value, language lexemes value →
      wider lexemes value) : parser.ReadsAt cursor wider := by
  intro value later run
  obtain ⟨lexemes, denoted, here⟩ := reads value later run
  exact ⟨lexemes, implies lexemes value denoted, here⟩

theorem readsAt_advance {lexeme : Lexeme} (next : cursor.peek = lexeme)
    (present : lexeme ≠ .endOfInput) :
    advance.ReadsAt cursor fun lexemes _ => lexemes = [lexeme] := by
  intro value later run
  cases run
  refine ⟨[lexeme], rfl, ?_⟩
  rw [TokenCursor.peek_eq_headD] at next
  rw [TokenCursor.advance, List.map_tail]
  cases tokens : cursor.rest.map Token.lexeme with
  | nil =>
      rw [tokens] at next
      exact absurd next.symm present
  | cons first others =>
      rw [tokens] at next
      rw [← next]
      rfl

/-- A parser that takes the next lexeme for what it shows reads that
lexeme. -/
theorem readsAt_taken {lexeme : Lexeme} {value : α}
    (next : cursor.peek = lexeme) (present : lexeme ≠ .endOfInput)
    (denoted : language [lexeme] value) :
    ReadsAt
      (do
        advance
        return value) cursor language := by
  refine (readsAt_advance next present).bind ?_
  rintro - behind _ rfl -
  exact readsAt_pure denoted

/-- The lexemes of a mark that is read where it stands. -/
def markIf (lexeme : Lexeme) : Language Bool :=
  fun lexemes found => lexemes = bif found then [lexeme] else []

theorem readsAt_nextIf {lexeme : Lexeme} (present : lexeme ≠ .endOfInput) :
    (nextIf lexeme).ReadsAt cursor (markIf lexeme) := by
  apply readsAt_get
  split
  · next same => exact readsAt_taken same present rfl
  · exact readsAt_pure rfl

theorem readsAt_nextIfWord (word : String) :
    (nextIfWord word).ReadsAt cursor (markIf (.identifier word)) := by
  apply readsAt_get
  split
  · next same =>
      cases shown : cursor.peek with
      | identifier name =>
          rw [shown] at same
          rw [beq_iff_eq.mp same] at shown
          exact readsAt_taken shown (by nofun) rfl
      | _ =>
          rw [shown] at same
          cases same
  · exact readsAt_pure rfl

theorem readsAt_expect {lexeme : Lexeme} (present : lexeme ≠ .endOfInput) :
    (expect lexeme).ReadsAt cursor fun lexemes _ => lexemes = [lexeme] := by
  refine (readsAt_nextIf present).bind ?_
  rintro (_ | _) behind _ rfl -
  · exact readsAt_unexpected _
  · exact readsAt_pure rfl

theorem readsAt_identifier (what : String) :
    (identifier what).ReadsAt cursor fun lexemes name =>
      lexemes = [.identifier name] := by
  apply readsAt_get
  split
  · next name shown => exact readsAt_taken shown (by nofun) rfl
  · exact readsAt_unexpected what

theorem readsAt_integer :
    integer.ReadsAt cursor fun lexemes word => lexemes = [.integer word] := by
  apply readsAt_get
  split
  · next word shown => exact readsAt_taken shown (by nofun) rfl
  · exact readsAt_unexpected _

theorem readsAt_string :
    string.ReadsAt cursor fun lexemes text => lexemes = [.string text] := by
  apply readsAt_get
  split
  · next text shown => exact readsAt_taken shown (by nofun) rfl
  · exact readsAt_unexpected _

section CommaLists

variable {item : Parser α} {close : Lexeme}

/-- Every item takes a lexeme at least, so a list does not end for want of
fuel. -/
theorem readsAt_listItems (reads : ∀ cursor, item.ReadsAt cursor language)
    (worded : language.BeginsWorded) (present : close ≠ .endOfInput)
    {fuel : Nat} {cursor : TokenCursor} (enough : cursor.rest.length < fuel) :
    (listItems close item fuel).ReadsAt cursor fun lexemes values =>
      ∃ front, CommaList language front values ∧
        lexemes = front ++ [close] := by
  induction fuel generalizing cursor with
  | zero => exact absurd enough (Nat.not_lt_zero _)
  | succ fuel ih =>
      refine (readsAt_nextIf present).bind ?_
      rintro (_ | _) start _ rfl whole
      · refine (reads start).bind fun value behind lexemes here count => ?_
        have visible := (worded lexemes value here).length_pos
        refine (readsAt_nextIf (by nofun)).bind ?_
        rintro (_ | _) after _ rfl fewer
        · refine (readsAt_expect present).bind ?_
          rintro - last _ rfl -
          exact readsAt_pure ⟨lexemes, .last here, rfl⟩
        · -- The item and the comma are gone, so the fuel stays ahead.
          have short : after.rest.length < fuel := by
            simp only [cond_true, cond_false, List.length_cons,
              List.length_nil] at whole fewer
            omega
          apply (ih short).map
          rintro _ values ⟨front, derived, rfl⟩
          refine ⟨lexemes ++ .comma :: front, .more here derived, ?_⟩
          exact (List.append_assoc lexemes (.comma :: front) [close]).symm
      · exact readsAt_pure ⟨[], .empty, rfl⟩

theorem readsAt_list {«open» : Lexeme}
    (reads : ∀ cursor, item.ReadsAt cursor language)
    (worded : language.BeginsWorded) (opens : «open» ≠ .endOfInput)
    (closes : close ≠ .endOfInput) :
    (list «open» close item).ReadsAt cursor fun lexemes values =>
      ∃ front, CommaList language front values ∧
        lexemes = enclosed «open» close front := by
  refine (readsAt_expect opens).bind ?_
  rintro - behind _ rfl -
  apply readsAt_get
  apply (readsAt_listItems reads worded closes (Nat.lt_succ_self _)).imp
  rintro _ values ⟨front, derived, rfl⟩
  exact ⟨front, derived, rfl⟩

end CommaLists

theorem readsAt_names (what : String) {fuel : Nat}
    (enough : cursor.rest.length < fuel) :
    (names what fuel).ReadsAt cursor NameList := by
  induction fuel generalizing cursor with
  | zero => exact absurd enough (Nat.not_lt_zero _)
  | succ fuel ih =>
      refine (readsAt_identifier what).bind ?_
      rintro name behind _ rfl count
      refine (readsAt_nextIf (by nofun)).bind ?_
      rintro (_ | _) after _ rfl fewer
      · exact readsAt_pure (.last name)
      · have short : after.rest.length < fuel := by
          simp only [cond_true, List.length_cons, List.length_nil]
            at count fewer
          omega
        exact (ih short).map fun lexemes names listed => .more name listed

theorem readsAt_slots : slots.ReadsAt cursor SlotList := by
  refine (readsAt_nextIfWord "slots").bind ?_
  rintro (_ | _) behind _ rfl -
  · exact readsAt_pure .none
  · apply readsAt_get
    apply (readsAt_names "slot name" (Nat.lt_succ_self _)).imp
    exact fun lexemes names listed => .some listed

theorem readsAt_separator :
    separator.ReadsAt cursor fun lexemes _ => Separator lexemes := by
  refine (readsAt_nextIf (by nofun)).bind ?_
  rintro (_ | _) behind _ rfl -
  · have reads : (nextIf .semicolon).ReadsAt behind (markIf .semicolon) :=
      readsAt_nextIf (by nofun)
    apply reads.map
    rintro _ (_ | _) rfl
    · exact .none
    · exact .semicolon
  · exact readsAt_pure .comma

theorem readsAt_boolean {parts : Languages} :
    boolean.ReadsAt cursor fun lexemes truth =>
      PayloadForm parts (valueWord .boolean :: lexemes) (.boolean truth) := by
  refine (readsAt_nextIfWord "true").bind ?_
  rintro (_ | _) behind _ rfl -
  · refine (readsAt_nextIfWord "false").bind ?_
    rintro (_ | _) after _ rfl -
    · exact readsAt_fail _
    · exact readsAt_pure .no
  · exact readsAt_pure .yes

theorem readsAt_character {parts : Languages} :
    character.ReadsAt cursor fun lexemes code =>
      PayloadForm parts (valueWord .character :: lexemes)
        (.character code) := by
  apply readsAt_get
  split
  · next code shown =>
      exact readsAt_taken shown (by nofun) (.character code)
  · next word shown =>
      refine (readsAt_advance shown (by nofun)).bind ?_
      rintro - behind _ rfl -
      split
      · next small => exact readsAt_pure (.characterCode word small)
      · exact readsAt_fail _
  · exact readsAt_fail _

theorem readsAt_errorCode {parts : Languages} :
    errorCode.ReadsAt cursor fun lexemes code =>
      PayloadForm parts (valueWord .error :: lexemes) (.error code) := by
  refine (readsAt_identifier _).bind ?_
  rintro word behind _ rfl -
  split
  · next code found =>
      exact readsAt_pure (.error (ErrorCode.agrees_of_ofToken? found))
  · exact readsAt_fail _

end Parser
end Source

theorem ValueKind.eq_keyword_of_ofKeyword? {word : String} {kind : ValueKind}
    (found : ofKeyword? word = some kind) : word = kind.keyword := by
  rw [ofKeyword?] at found
  have same := List.find?_some found
  exact (beq_iff_eq.mp same).symm

theorem OperationKind.eq_keyword_of_ofKeyword? {word : String}
    {kind : OperationKind} (found : ofKeyword? word = some kind) :
    word = kind.keyword := by
  rw [ofKeyword?] at found
  have same := List.find?_some found
  exact (beq_iff_eq.mp same).symm

namespace Source

open Source.Parser

theorem readsAt_valueKind {parts : Languages} {cursor : TokenCursor} :
    Parser.valueKind.ReadsAt cursor fun lexemes kind =>
      PayloadForm parts (valueWord .type :: lexemes) (.type kind) := by
  refine (readsAt_identifier _).bind ?_
  rintro word behind _ rfl -
  split
  · next kind found =>
      rw [ValueKind.eq_keyword_of_ofKeyword? found]
      exact readsAt_pure (.type kind)
  · exact readsAt_fail _

/-- Whether parsers of parts yield only what the parts may be. -/
structure PartsExact (parts : PartParsers) (languages : Languages) : Prop
    extends languages.BeginWorded where
  payload : ∀ cursor, parts.value.ReadsAt cursor languages.payload
  operation : ∀ cursor, parts.operation.ReadsAt cursor languages.operation

namespace PartsExact

variable {parts : PartParsers} {languages : Languages} {cursor : TokenCursor}

theorem tupleBody (precise : PartsExact parts languages) :
    parts.tupleBody.ReadsAt cursor fun lexemes items =>
      ∃ front, CommaList languages.payload front items ∧
        lexemes = enclosed .openParen .closeParen front :=
  readsAt_list precise.payload precise.wordedPayload (by nofun) (by nofun)

theorem entry (precise : PartsExact parts languages) (cursor : TokenCursor) :
    parts.entry.ReadsAt cursor (EntryForm languages) := by
  refine (precise.payload cursor).bind ?_
  intro key behind lexemes first _
  refine (readsAt_expect (by nofun)).bind ?_
  rintro - after _ rfl -
  exact (precise.payload after).map fun later value second =>
    .intro first second

theorem tableBody (precise : PartsExact parts languages) :
    parts.tableBody.ReadsAt cursor (TableForm languages) := by
  refine (readsAt_list precise.entry precise.toBeginWorded.entry (by nofun)
    (by nofun)).map ?_
  rintro _ pairs ⟨front, derived, rfl⟩
  exact .intro derived (Entries.keepsFirst_iff.mpr rfl)

theorem setBody (precise : PartsExact parts languages) :
    parts.setBody.ReadsAt cursor fun lexemes members =>
      PayloadForm languages (valueWord .set :: lexemes) (.set members) := by
  refine (readsAt_list precise.payload precise.wordedPayload (by nofun)
    (by nofun)).map ?_
  rintro _ values ⟨front, derived, rfl⟩
  exact .set derived (Members.keepsFirst_iff.mpr rfl)

/-- Every operation takes a lexeme at least, so a block does not end for want
of fuel. -/
theorem operations (precise : PartsExact parts languages) {fuel : Nat}
    (enough : cursor.rest.length < fuel) :
    (parts.operations fuel).ReadsAt cursor fun lexemes body =>
      ∃ front, OperationList languages.operation front body ∧
        lexemes = front ++ [.closeBrace] := by
  induction fuel generalizing cursor with
  | zero => exact absurd enough (Nat.not_lt_zero _)
  | succ fuel ih =>
      refine (readsAt_nextIf (by nofun)).bind ?_
      rintro (_ | _) start _ rfl whole
      · apply readsAt_get
        split
        · exact readsAt_fail _
        · refine (precise.operation start).bind ?_
          intro first behind lexemes here count
          have visible :=
            (precise.wordedOperation lexemes first here).length_pos
          refine readsAt_separator.bind ?_
          intro _ after mark separated fewer
          have short : after.rest.length < fuel := by
            simp only [cond_false, List.length_nil] at whole
            omega
          apply (ih short).map
          rintro _ others ⟨front, derived, rfl⟩
          refine ⟨lexemes ++ (mark ++ front), .more here separated derived, ?_⟩
          simp only [List.nil_append, List.append_assoc, cond_false]
      · exact readsAt_pure ⟨[], .empty, rfl⟩

theorem blockBody (precise : PartsExact parts languages) :
    parts.blockBody.ReadsAt cursor (BlockForm languages) := by
  refine readsAt_slots.bind ?_
  intro slots behind front named _
  refine (readsAt_expect (by nofun)).bind ?_
  rintro - start _ rfl -
  apply readsAt_get
  refine (precise.operations (Nat.lt_succ_self _)).map ?_
  rintro _ body ⟨lexemes, derived, rfl⟩
  exact .intro named derived

theorem binding (precise : PartsExact parts languages) :
    parts.binding.ReadsAt cursor fun lexemes operation =>
      PayloadForm languages (valueWord .bind :: lexemes)
        (.operation operation) := by
  refine (precise.payload cursor).bind ?_
  intro value behind lexemes first _
  refine (precise.payload behind).bind ?_
  intro target after later second _
  split
  · next callable executable =>
      cases target with
      | operation body =>
          cases executable
          apply readsAt_pure
          rw [List.append_nil]
          exact .bind first second
      | _ => cases executable
  · exact readsAt_fail _

theorem arguments (precise : PartsExact parts languages) (target : String) :
    parts.arguments.ReadsAt cursor fun lexemes values =>
      OperationForm languages
        (operationWord .call :: .identifier target :: lexemes)
        (.call target values) := by
  apply readsAt_get
  split
  · apply precise.tupleBody.imp
    rintro _ values ⟨front, derived, rfl⟩
    exact .callWith target derived
  · exact readsAt_pure (.call target)

theorem alternative (precise : PartsExact parts languages)
    {lexemes : List Lexeme} {cases : Entries}
    (derived : TableForm languages lexemes cases) :
    parts.alternative.ReadsAt cursor fun more otherwise =>
      OperationForm languages (operationWord .select :: (lexemes ++ more))
        (.select cases otherwise) := by
  refine (readsAt_nextIfWord "else").bind ?_
  rintro (_ | _) behind _ rfl -
  · apply readsAt_pure
    rw [cond_false, List.append_nil, List.append_nil]
    exact .select derived
  · exact (precise.operation behind).map fun _ _ last =>
      .selectElse derived last

/-- Behind its keyword, a payload is read in one of the forms of its kind. -/
theorem valueBody (precise : PartsExact parts languages) (kind : ValueKind) :
    (parts.valueBody kind).ReadsAt cursor fun lexemes value =>
      PayloadForm languages (valueWord kind :: lexemes) value := by
  cases kind with
  | empty => exact readsAt_pure .empty
  | number =>
      apply readsAt_integer.map
      rintro _ word rfl
      exact .number word
  | boolean => exact readsAt_boolean.map fun _ _ formed => formed
  | character => exact readsAt_character.map fun _ _ formed => formed
  | string =>
      apply readsAt_string.map
      rintro _ text rfl
      exact .string text
  | atom =>
      apply (readsAt_identifier _).map
      rintro _ name rfl
      exact .atom name
  | error => exact readsAt_errorCode.map fun _ _ formed => formed
  | type => exact readsAt_valueKind.map fun _ _ formed => formed
  | tuple =>
      apply precise.tupleBody.map
      rintro _ items ⟨front, derived, rfl⟩
      exact .tuple derived
  | table => exact precise.tableBody.map fun _ _ derived => .table derived
  | set => exact precise.setBody.map fun _ _ formed => formed
  | operation =>
      exact (precise.operation cursor).map fun _ _ derived =>
        .operation derived
  | block => exact precise.blockBody.map fun _ _ derived => .block derived
  | bind => exact precise.binding.map fun _ _ formed => formed

/-- Behind its keyword, an operation is read in one of the forms of its
kind. -/
theorem operationBody (precise : PartsExact parts languages)
    (kind : OperationKind) :
    (parts.operationBody kind kind).ReadsAt cursor fun lexemes operation =>
      OperationForm languages (operationWord kind :: lexemes) operation := by
  cases kind with
  | primitive which => exact readsAt_pure (.primitive which)
  | push =>
      exact (precise.payload cursor).map fun _ _ derived => .push derived
  | ifTrue =>
      exact (precise.operation cursor).map fun _ _ derived => .ifTrue derived
  | select =>
      refine precise.tableBody.bind fun cases behind lexemes derived _ => ?_
      exact (precise.alternative derived).map fun _ _ formed => formed
  | named use =>
      refine (readsAt_identifier _).bind ?_
      rintro name behind _ rfl -
      exact readsAt_pure (.named use name)
  | call =>
      refine (readsAt_identifier _).bind ?_
      rintro target behind _ rfl -
      exact (precise.arguments target).map fun _ _ formed => formed
  | loadNative =>
      apply readsAt_string.map
      rintro _ path rfl
      exact .loadNative path
  | native =>
      refine (readsAt_identifier _).bind ?_
      rintro bucket behind _ rfl -
      refine (readsAt_identifier _).bind ?_
      rintro name after _ rfl -
      exact readsAt_pure (.native bucket name)
  | block => exact precise.blockBody.imp fun _ _ derived => .block derived
  | partialBind =>
      refine (precise.payload cursor).bind ?_
      intro value behind lexemes first _
      exact (precise.operation behind).map fun _ _ second =>
        .partialBind first second

theorem openedValue (precise : PartsExact parts languages)
    (cursor : TokenCursor) :
    (parts.openValue .standard).ReadsAt cursor (PayloadForm languages) := by
  refine (readsAt_identifier _).bind ?_
  rintro keyword behind _ rfl -
  split
  · next kind known =>
      obtain ⟨found, same⟩ := Option.bind_eq_some_iff.mp known
      cases same.2
      rw [ValueKind.eq_keyword_of_ofKeyword? same.1]
      exact precise.valueBody kind
  · exact readsAt_fail _

theorem openedOperation (precise : PartsExact parts languages)
    (cursor : TokenCursor) :
    (parts.openOperation .standard).ReadsAt cursor
      (OperationForm languages) := by
  refine (readsAt_identifier _).bind ?_
  rintro keyword behind _ rfl -
  split
  · next kind form known =>
      obtain ⟨found, same⟩ := Option.bind_eq_some_iff.mp known
      cases same.2
      rw [OperationKind.eq_keyword_of_ofKeyword? same.1]
      exact precise.operationBody kind
  · exact readsAt_fail _

theorem succ (precise : PartsExact parts languages) :
    PartsExact
      { value := parts.openValue .standard
        operation := parts.openOperation .standard }
      ⟨PayloadForm languages, OperationForm languages⟩ where
  toBeginWorded := .forms languages
  payload := precise.openedValue
  operation := precise.openedOperation

end PartsExact

/-- The parsers of any number of levels yield only what is derived within
them. -/
theorem partsExact (levels : Nat) :
    PartsExact (.within .standard levels) (derivable levels) := by
  induction levels with
  | zero =>
      constructor
      · exact ⟨nofun, nofun⟩
      · exact fun _ => readsAt_fail _
      · exact fun _ => readsAt_fail _
  | succ levels ih => exact ih.succ

theorem lexemes_ofText_eq (text : String) :
    (TokenCursor.ofText text).rest.map Token.lexeme =
      grammaticalLexemes text := by
  rw [grammaticalLexemes, List.filter_map]
  rfl

/-- A text is a payload if its lexemes denote one. -/
theorem parseText_of_derivable {text : String} {value : Value}
    (derived : (derivable maxNesting).payload (grammaticalLexemes text)
      value) :
    parseText .standard text = .ok value := by
  have here := (lexemes_ofText_eq text).trans (List.append_nil _).symm
  have run : parsePayload .standard (.ofText text) = _ :=
    (partsCovered maxNesting).payload _ value derived _ [] here ⟨nofun, rfl⟩
  rw [parseText, run]
  exact if_pos (List.isEmpty_iff.mpr
    (List.map_eq_nil_iff.mp (TokenCursor.lexemes_skip here)))

theorem derivable_of_parseText {text : String} {value : Value}
    (read : parseText .standard text = .ok value) :
    (derivable maxNesting).payload (grammaticalLexemes text) value := by
  rw [parseText] at read
  split at read
  · next result later run =>
      split at read
      · next ended =>
          cases read
          obtain ⟨lexemes, derived, here⟩ :=
            (partsExact maxNesting).payload _ value later run
          rw [lexemes_ofText_eq, List.isEmpty_iff.mp ended, List.map_nil,
            List.append_nil] at here
          rw [here]
          exact derived
      · cases read
  · cases read

/-- A text is read as a value or refused with an error of parsing. -/
theorem parseText_ok_or_refused (dialect : Dialect) (text : String) :
    (∃ value, parseText dialect text = .ok value) ∨
      ∃ message context, parseText dialect text =
        .error { failure := .parse message context } := by
  rw [parseText]
  split
  · split
    · exact .inl ⟨_, rfl⟩
    · exact .inr ⟨_, _, rfl⟩
  · exact .inr ⟨_, _, rfl⟩

/-- The texts that are read as a value are exactly those whose lexemes denote
the value with at most 128 payloads and operations open at once; and a text
whose lexemes denote no value is refused with an error of parsing. -/
theorem grammar_is_exact (text : String) :
    (∀ value, parseText .standard text = .ok value ↔
      (derivable 128).payload (grammaticalLexemes text) value) ∧
    ((∀ value, ¬ (derivable 128).payload (grammaticalLexemes text) value) →
      ∃ message context, parseText .standard text =
        .error { failure := .parse message context }) := by
  constructor
  · intro value
    constructor
    · exact derivable_of_parseText
    · exact parseText_of_derivable
  · intro underivable
    rcases parseText_ok_or_refused .standard text with ⟨value, read⟩ | refused
    · exact absurd (derivable_of_parseText read) (underivable value)
    · exact refused

/-- Of two equal keys and of two equal members the first one counts, and an
`else` behind a call belongs to nothing. -/
theorem repeated_key_read_and_lone_else_refused :
    parseText .standard
        "table [atom k -> set [empty, empty,], # first\n atom k -> empty]" =
      .ok (.table [(.atom "k", .set [.empty])]) ∧
    ((∀ value, ¬ (derivable 128).payload
        (grammaticalLexemes "operation call f (empty) else nop") value) ∧
      ∃ message context,
        parseText .standard "operation call f (empty) else nop" =
          .error { failure := .parse message context }) := by
  constructor
  · have lexemes : grammaticalLexemes
        "table [atom k -> set [empty, empty,], # first\n atom k -> empty]" =
          [valueWord .table, .openBracket, valueWord .atom, .identifier "k",
            .arrow, valueWord .set, .openBracket, valueWord .empty, .comma,
            valueWord .empty, .comma, .closeBracket, .comma, valueWord .atom,
            .identifier "k", .arrow, valueWord .empty, .closeBracket] := by
      decide +kernel
    have members : CommaList (derivable 126).payload
        ([valueWord .empty] ++ [.comma, valueWord .empty, .comma])
        [.empty, .empty] :=
      .more .empty (@CommaList.more _ _ [valueWord .empty] _ _ _ .empty .empty)
    have repeated : (derivable 127).payload _ (.set [.empty]) :=
      .set members (Members.keepsFirst_iff.mpr rfl)
    have entries : CommaList (EntryForm (derivable 127)) _
        [(.atom "k", .set [.empty]), (.atom "k", .empty)] :=
      .more (.intro (.atom "k") repeated) (.last (.intro (.atom "k") .empty))
    apply ((grammar_is_exact _).1 _).mpr
    rw [lexemes]
    exact PayloadForm.table (.intro entries (Entries.keepsFirst_iff.mpr rfl))
  · have underivable : ∀ value, ¬ (derivable 128).payload
        (grammaticalLexemes "operation call f (empty) else nop") value := by
      intro value derived
      have read := ((grammar_is_exact _).1 value).mpr derived
      have refused : (parseText .standard
          "operation call f (empty) else nop").isOk = false := by
        decide +kernel
      rw [read] at refused
      cases refused
    exact ⟨underivable, (grammar_is_exact _).2 underivable⟩

end Source
end StackAssembly
