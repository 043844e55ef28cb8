import StackAssembly.Proofs.Source.Derivation

/-!
# What the grammar derives is recognised

The parsers decide by the next lexeme whether an optional part is there, and
take it if it seems to be.  This loses no derivation.  The parts that can be
missing at the end of a payload or an operation are the arguments of a call,
which begin with a parenthesis, and the alternative of a selection, which
begins with `else`; and neither of these can stand behind a payload or an
operation.
-/

namespace StackAssembly

namespace ErrorCode

/-- No word agrees with the tokens of two error codes. -/
theorem eq_of_agreesIgnoringCase {word : String}
    {left right : ErrorCode}
    (one : agreesIgnoringCase left.token word = true)
    (two : agreesIgnoringCase right.token word = true) : left = right := by
  have same : agreesIgnoringCase left.token right.token = true :=
    beq_iff_eq.mpr ((beq_iff_eq.mp one).trans (beq_iff_eq.mp two).symm)
  revert same
  cases left <;> cases right <;> decide

theorem agrees_of_ofToken? {word : String} {code : ErrorCode}
    (found : ofToken? word = some code) :
    agreesIgnoringCase code.token word = true := by
  rw [ofToken?] at found
  have agrees := List.find?_some found
  exact agrees

theorem ofToken?_eq_some_iff {word : String} {code : ErrorCode} :
    ofToken? word = some code ↔
      agreesIgnoringCase code.token word = true := by
  refine ⟨agrees_of_ofToken?, fun agrees => ?_⟩
  have listed : code ∈ all := by cases code <;> decide
  have known : (ofToken? word).isSome :=
    List.find?_isSome.mpr ⟨code, listed, agrees⟩
  obtain ⟨other, found⟩ := Option.isSome_iff_exists.mp known
  rw [found, eq_of_agreesIgnoringCase (agrees_of_ofToken? found) agrees]

end ErrorCode

namespace Source

open Source.Parser

namespace Parser

variable {α : Type}

/-- Whether a parser recognises everything in a language where an acceptable
lexeme follows. -/
def Covers (parser : Parser α) (language : Language α)
    (acceptable : Lexeme → Prop) : Prop :=
  ∀ lexemes value, language lexemes value →
    parser.Recognises lexemes value acceptable

section CommaLists

variable {item : Parser α} {language : Language α}
  {acceptable : Lexeme → Prop} {close : Lexeme} {lexemes : List Lexeme}
  {values : List α}

/-- A list is recognised up to its closing mark, with or without a comma
behind the last item. -/
theorem recognises_commaItems (covers : item.Covers language acceptable)
    (worded : language.BeginsWorded)
    (unworded : ∀ word, close ≠ .identifier word) (notComma : close ≠ .comma)
    (beforeComma : acceptable .comma) (beforeClose : acceptable close)
    (derived : CommaList language lexemes values) {fuel : Nat}
    (enough : lexemes.length < fuel) :
    (listItems close item fuel).Recognises (lexemes ++ [close]) values
      anything := by
  induction derived generalizing fuel with
  | empty =>
      obtain ⟨fuel, rfl⟩ := Nat.exists_eq_succ_of_ne_zero
        (Nat.ne_zero_of_lt enough)
      exact (recognises_nextIf close).after (recognises_pure [])
  | @last lexemes value here =>
      obtain ⟨fuel, rfl⟩ := Nat.exists_eq_succ_of_ne_zero
        (Nat.ne_zero_of_lt enough)
      have head := worded lexemes value here
      refine (not_recognises_nextIf close).looking ?_ fun next _ =>
        (head.append _).headD_ne unworded next
      refine (covers lexemes value here).bind ?_ fun _ _ => beforeClose
      refine (not_recognises_nextIf .comma).looking ?_ fun _ _ => notComma
      exact (recognises_expect close).after (recognises_pure [value])
  | @more lexemes later value values here others ih =>
      obtain ⟨fuel, rfl⟩ := Nat.exists_eq_succ_of_ne_zero
        (Nat.ne_zero_of_lt enough)
      have head := worded lexemes value here
      have fewer : later.length < fuel := by
        rw [List.length_append, List.length_cons] at enough
        omega
      rw [List.append_assoc, List.cons_append]
      refine (not_recognises_nextIf close).looking ?_ fun next _ =>
        (head.append _).headD_ne unworded next
      refine (covers lexemes value here).bind ?_ fun _ _ => beforeComma
      exact (recognises_nextIf .comma).after ((ih fewer).map (value :: ·))

theorem recognises_commaList {«open» : Lexeme}
    (covers : item.Covers language acceptable)
    (worded : language.BeginsWorded)
    (unworded : ∀ word, close ≠ .identifier word) (notComma : close ≠ .comma)
    (beforeComma : acceptable .comma) (beforeClose : acceptable close)
    (derived : CommaList language lexemes values) :
    (list «open» close item).Recognises (enclosed «open» close lexemes)
      values anything := by
  refine (recognises_expect «open»).after (.ofState fun cursor long => ?_)
  refine recognises_commaItems covers worded unworded notComma beforeComma
    beforeClose derived ?_
  have shown : (lexemes ++ [close]).length ≤ cursor.rest.length := long
  rw [List.length_append] at shown
  omega

end CommaLists

theorem recognises_nameList (what : String) {lexemes : List Lexeme}
    {names : List String} (derived : NameList lexemes names) {fuel : Nat}
    (enough : lexemes.length ≤ fuel) :
    (Parser.names what fuel).Recognises lexemes names (· ≠ .comma) := by
  induction derived generalizing fuel with
  | last name =>
      obtain ⟨fuel, rfl⟩ := Nat.exists_eq_succ_of_ne_zero
        (Nat.ne_zero_of_lt enough)
      refine (recognises_identifier what name).after ?_
      exact (not_recognises_nextIf .comma).bind
        (recognises_pure [name]).anywhere fun _ other => other
  | @more name later names others ih =>
      obtain ⟨fuel, rfl⟩ := Nat.exists_eq_succ_of_ne_zero
        (Nat.ne_zero_of_lt enough)
      have fewer : later.length ≤ fuel := by
        rw [List.length_cons, List.length_cons] at enough
        omega
      refine (recognises_identifier what name).after ?_
      exact (recognises_nextIf .comma).after ((ih fewer).map (name :: ·))

theorem covers_slots : Parser.slots.Covers SlotList (· = .openBrace) := by
  intro lexemes names derived
  cases derived with
  | none =>
      refine (not_recognises_nextIfWord "slots").looking
        (recognises_pure []).anywhere ?_
      rintro _ rfl
      rfl
  | some listed =>
      refine (recognises_nextIfWord "slots").after
        (.ofState fun cursor long => ?_)
      refine (recognises_nameList "slot name" listed
        (Nat.le_succ_of_le long)).weaken ?_
      rintro _ rfl
      exact nofun

/-- Nothing is passed over between operations where no separator stands. -/
theorem not_recognises_separator :
    Parser.separator.Recognises [] () fun next =>
      next ≠ .comma ∧ next ≠ .semicolon :=
  (not_recognises_nextIf .comma).looking
    ((not_recognises_nextIf .semicolon).discard.weaken fun _ other => other.2)
    fun _ other => other.1

/-- At most one separator is passed over. -/
theorem recognises_separation {mark : List Lexeme}
    (separated : Separator mark) :
    Parser.separator.Recognises mark () fun next =>
      next ≠ .comma ∧ next ≠ .semicolon := by
  cases separated with
  | none => exact not_recognises_separator
  | comma => exact ((recognises_nextIf .comma).after
      (recognises_pure ())).anywhere
  | semicolon =>
      refine (not_recognises_nextIf .comma).looking ?_ fun _ _ => nofun
      exact (recognises_nextIf .semicolon).discard.anywhere

theorem recognises_boolean (truth : Bool) :
    Parser.boolean.Recognises [.identifier (displayBoolean truth)] truth
      anything := by
  cases truth with
  | true => exact (recognises_nextIfWord "true").after (recognises_pure true)
  | false =>
      refine (not_recognises_nextIfWord "true").looking ?_ fun _ _ => rfl
      exact (recognises_nextIfWord "false").after (recognises_pure false)

theorem recognises_valueKind (kind : ValueKind) :
    Parser.valueKind.Recognises [valueWord kind] kind anything := by
  refine (recognises_identifier _ kind.keyword).after ?_
  cases kind <;> exact recognises_pure _

/-- A number below the bound is recognised as a character. -/
theorem recognises_characterCode {word : UInt64}
    (small : word.toNat < 2 ^ 32) :
    Parser.character.Recognises [.integer word] word.toUInt32 anything := by
  refine .ofPeek fun cursor same => ?_
  rw [same]
  refine (recognises_advance _).after ?_
  have fits : word.toNat < UInt32.size := small
  rw [if_pos fits]
  exact recognises_pure word.toUInt32

end Parser

theorem recognises_errorWord {word : String} {code : ErrorCode}
    (agrees : ErrorCode.agreesIgnoringCase code.token word = true) :
    Parser.errorCode.Recognises [.identifier word] code anything := by
  refine (recognises_identifier _ word).after ?_
  rw [ErrorCode.ofToken?_eq_some_iff.mpr agrees]
  exact recognises_pure code

theorem worded_valueWord (kind : ValueKind) (rest : List Lexeme) :
    Worded (valueWord kind :: rest) :=
  ⟨kind.keyword, rest, rfl, by cases kind <;> decide⟩

theorem keyword_ne_else (kind : OperationKind) : kind.keyword ≠ "else" := by
  rcases kind with which | _ | _ | _ | use | _ | _ | _ | _ | _
  · cases which <;> decide
  all_goals first | decide | (cases use <;> decide)

theorem worded_operationWord (kind : OperationKind) (rest : List Lexeme) :
    Worded (operationWord kind :: rest) :=
  ⟨kind.keyword, rest, rfl, keyword_ne_else kind⟩

/-- Whether a lexeme does not continue a selection. -/
def NotElse (next : Lexeme) : Prop :=
  next.isWord "else" = false

theorem Parser.Worded.headD_notElse {lexemes : List Lexeme}
    (worded : Worded lexemes) (next : Lexeme) :
    NotElse (lexemes.headD next) := by
  obtain ⟨word, rest, rfl, other⟩ := worded
  exact beq_false_of_ne other

/-- Whether a lexeme may stand behind a payload or an operation, being no
start of arguments or of an alternative. -/
def BehindPart (next : Lexeme) : Prop :=
  next ≠ .openParen ∧ NotElse next

theorem Parser.Worded.headD_behindPart {lexemes : List Lexeme}
    (worded : Worded lexemes) (next : Lexeme) :
    BehindPart (lexemes.headD next) :=
  ⟨worded.headD_ne (by nofun) next, worded.headD_notElse next⟩

theorem recognises_openValue {parts : PartParsers} {kind : ValueKind}
    {lexemes : List Lexeme} {value : Value} {acceptable : Lexeme → Prop}
    (body : (parts.valueBody kind).Recognises lexemes value acceptable) :
    (parts.openValue .standard).Recognises (valueWord kind :: lexemes) value
      acceptable := by
  refine (recognises_identifier "value type" kind.keyword).after ?_
  have known : Dialect.standard.valueFormOfKeyword? kind.keyword =
      some kind := by
    cases kind <;> rfl
  rw [known]
  exact body

theorem recognises_openOperation {parts : PartParsers} {kind : OperationKind}
    {lexemes : List Lexeme} {operation : Operation}
    {acceptable : Lexeme → Prop}
    (body : (parts.operationBody kind kind).Recognises lexemes operation
      acceptable) :
    (parts.openOperation .standard).Recognises
      (operationWord kind :: lexemes) operation acceptable := by
  refine (recognises_identifier "operation" kind.keyword).after ?_
  have known : Dialect.standard.operationFormOfKeyword? kind.keyword =
      some (kind, kind) := by
    rcases kind with which | _ | _ | _ | use | _ | _ | _ | _ | _
    · cases which <;> rfl
    all_goals first | rfl | (cases use <;> rfl)
  rw [known]
  exact body

/-- Whether payloads and operations begin with words. -/
structure Languages.BeginWorded (languages : Languages) : Prop where
  wordedPayload : languages.payload.BeginsWorded
  wordedOperation : languages.operation.BeginsWorded

namespace Languages.BeginWorded

theorem entry {languages : Languages} (begin : languages.BeginWorded) :
    Language.BeginsWorded (EntryForm languages) := by
  rintro _ _ ⟨first, -⟩
  exact (begin.wordedPayload _ _ first).append _

theorem forms (parts : Languages) :
    Languages.BeginWorded ⟨PayloadForm parts, OperationForm parts⟩ := by
  constructor
  · intro lexemes value derived
    cases derived <;> exact worded_valueWord _ _
  · intro lexemes operation derived
    cases derived <;> exact worded_operationWord _ _

end Languages.BeginWorded

/-- Whether parsers of parts recognise all that the parts may be. -/
structure PartsCovered (parts : PartParsers) (languages : Languages) : Prop
    extends languages.BeginWorded where
  payload : parts.value.Covers languages.payload BehindPart
  operation : parts.operation.Covers languages.operation BehindPart

namespace PartsCovered

variable {parts : PartParsers} {languages : Languages}

theorem tupleBody (covered : PartsCovered parts languages)
    {lexemes : List Lexeme} {items : List Value}
    (derived : CommaList languages.payload lexemes items) :
    parts.tupleBody.Recognises (enclosed .openParen .closeParen lexemes)
      items anything :=
  recognises_commaList covered.payload covered.wordedPayload (by nofun)
    (by nofun) ⟨nofun, rfl⟩ ⟨nofun, rfl⟩ derived

theorem entry (covered : PartsCovered parts languages) :
    parts.entry.Covers (EntryForm languages) BehindPart := by
  rintro _ _ ⟨first, second⟩
  exact (covered.payload _ _ first).bind
    ((recognises_expect .arrow).after
      ((covered.payload _ _ second).map fun value => (_, value)))
    fun _ _ => ⟨nofun, rfl⟩

theorem tableBody (covered : PartsCovered parts languages) :
    parts.tableBody.Covers (TableForm languages) anything := by
  rintro _ _ ⟨derived, keeps⟩
  rw [Entries.keepsFirst_iff.mp keeps]
  refine Recognises.map ?_ Entries.ofPairs
  exact recognises_commaList covered.entry
    covered.toBeginWorded.entry (by nofun)
    (by nofun) ⟨nofun, rfl⟩ ⟨nofun, rfl⟩ derived

theorem setBody (covered : PartsCovered parts languages)
    {lexemes : List Lexeme} {values members : List Value}
    (derived : CommaList languages.payload lexemes values)
    (keeps : KeepsFirst Value.equal values members) :
    parts.setBody.Recognises (enclosed .openBracket .closeBracket lexemes)
      members anything := by
  rw [Members.keepsFirst_iff.mp keeps]
  refine Recognises.map ?_ Members.ofValues
  exact recognises_commaList covered.payload covered.wordedPayload (by nofun)
    (by nofun) ⟨nofun, rfl⟩ ⟨nofun, rfl⟩ derived

/-- What follows an operation of a block begins neither arguments nor an
alternative, whether a separator stands between them or not. -/
theorem behindPart_separated {mark more : List Lexeme}
    (separated : Separator mark) (next : Lexeme)
    (behind : BehindPart (more.headD next)) :
    BehindPart ((mark ++ more).headD next) := by
  cases separated with
  | none => exact behind
  | comma => exact ⟨nofun, rfl⟩
  | semicolon => exact ⟨nofun, rfl⟩

/-- What follows the separator is no separator, and no part of the operation
in front of it. -/
theorem headD_operationList (covered : PartsCovered parts languages)
    {lexemes : List Lexeme} {body : List Operation}
    (derived : OperationList languages.operation lexemes body)
    (next : Lexeme) :
    BehindPart ((lexemes ++ [Lexeme.closeBrace]).headD next) ∧
      (lexemes ++ [Lexeme.closeBrace]).headD next ≠ .comma ∧
      (lexemes ++ [Lexeme.closeBrace]).headD next ≠ .semicolon := by
  cases derived with
  | empty => exact ⟨⟨nofun, rfl⟩, nofun, nofun⟩
  | @more lexemes mark later first others here separated rest =>
      have head := ((covered.wordedOperation lexemes first here).append
        (mark ++ later)).append [.closeBrace]
      exact ⟨head.headD_behindPart next, head.headD_ne (by nofun) next,
        head.headD_ne (by nofun) next⟩

/-- The operations of a block are recognised up to the closing brace. -/
theorem operations (covered : PartsCovered parts languages)
    {lexemes : List Lexeme} {body : List Operation}
    (derived : OperationList languages.operation lexemes body) {fuel : Nat}
    (enough : lexemes.length < fuel) :
    (parts.operations fuel).Recognises (lexemes ++ [.closeBrace]) body
      anything := by
  induction derived generalizing fuel with
  | empty =>
      obtain ⟨fuel, rfl⟩ := Nat.exists_eq_succ_of_ne_zero
        (Nat.ne_zero_of_lt enough)
      exact (recognises_nextIf .closeBrace).after (recognises_pure [])
  | @more lexemes mark later first others here separated rest ih =>
      obtain ⟨fuel, rfl⟩ := Nat.exists_eq_succ_of_ne_zero
        (Nat.ne_zero_of_lt enough)
      have head := covered.wordedOperation lexemes first here
      have fewer : later.length < fuel := by
        have visible := head.length_pos
        rw [List.length_append, List.length_append] at enough
        omega
      rw [List.append_assoc, List.append_assoc]
      refine (not_recognises_nextIf .closeBrace).looking
        (.ofState fun cursor long => ?_)
        fun next _ => (head.append _).headD_ne (by nofun) next
      have more : cursor.atEnd = false :=
        List.isEmpty_eq_false_iff.mpr
          (List.ne_nil_of_length_pos
            (Nat.lt_of_lt_of_le (head.append _).length_pos long))
      rw [more, if_neg Bool.false_ne_true]
      have behind := covered.headD_operationList rest
      refine (covered.operation lexemes first here).bind ?_ fun next _ =>
        behindPart_separated separated next (behind next).1
      exact (recognises_separation separated).bind
        ((ih fewer).map (first :: ·)) fun next _ => (behind next).2

theorem blockBody (covered : PartsCovered parts languages) :
    parts.blockBody.Covers (BlockForm languages) anything := by
  rintro _ _ ⟨named, derived⟩
  refine (covers_slots _ _ named).bind ?_ fun _ _ => rfl
  refine (recognises_expect .openBrace).after (.ofState fun cursor long => ?_)
  refine (covered.operations derived ?_).map (Operation.block _)
  have shown : (_ ++ [Lexeme.closeBrace]).length ≤ cursor.rest.length := long
  rw [List.length_append] at shown
  omega

theorem binding (covered : PartsCovered parts languages)
    {lexemes later : List Lexeme} {value : Value} {callable : Operation}
    (first : languages.payload lexemes value)
    (second : languages.payload later (.operation callable)) :
    parts.binding.Recognises (lexemes ++ later)
      (.partialBind value callable) BehindPart := by
  refine (covered.payload _ _ first).bind ?_ fun next _ =>
    (covered.wordedPayload _ _ second).headD_behindPart next
  intro cursor more here follows
  exact bind_of_ok (covered.payload _ _ second cursor more here follows)

/-- A call without arguments is recognised where no parenthesis follows. -/
theorem noArguments (parts : PartParsers) :
    parts.arguments.Recognises [] [] BehindPart := by
  intro cursor more here behind
  have other : ¬ cursor.peek = .openParen := by
    rw [TokenCursor.peek_eq_headD, here]
    exact behind.1
  show (if cursor.peek = .openParen then _ else _ : Parser _) cursor = _
  rw [if_neg other]
  rfl

theorem arguments (covered : PartsCovered parts languages)
    {lexemes : List Lexeme} {values : List Value}
    (derived : CommaList languages.payload lexemes values) :
    parts.arguments.Recognises (enclosed .openParen .closeParen lexemes)
      values anything := by
  refine .ofPeek fun cursor same => ?_
  rw [if_pos same]
  exact covered.tupleBody derived

theorem noAlternative (parts : PartParsers) :
    parts.alternative.Recognises [] none BehindPart :=
  (not_recognises_nextIfWord "else").looking
    (recognises_pure none).anywhere fun _ behind => behind.2

theorem alternative (covered : PartsCovered parts languages)
    {lexemes : List Lexeme} {otherwise : Operation}
    (derived : languages.operation lexemes otherwise) :
    parts.alternative.Recognises (.identifier "else" :: lexemes)
      (some otherwise) BehindPart :=
  (recognises_nextIfWord "else").after
    ((covered.operation _ _ derived).map some)

/-- A payload is recognised whichever of its forms it has. -/
theorem openedValue (covered : PartsCovered parts languages) :
    (parts.openValue .standard).Covers (PayloadForm languages)
      BehindPart := by
  intro lexemes value derived
  cases derived with
  | empty =>
      refine (recognises_openValue ?_).anywhere
      exact recognises_pure _
  | number word =>
      refine (recognises_openValue ?_).anywhere
      exact (recognises_integer word).map Value.number
  | yes =>
      refine (recognises_openValue ?_).anywhere
      exact (recognises_boolean true).map Value.boolean
  | no =>
      refine (recognises_openValue ?_).anywhere
      exact (recognises_boolean false).map Value.boolean
  | character code =>
      refine (recognises_openValue ?_).anywhere
      refine Recognises.map ?_ Value.character
      refine .ofPeek fun cursor same => ?_
      rw [same]
      exact (recognises_advance _).after (recognises_pure code)
  | characterCode word small =>
      refine (recognises_openValue ?_).anywhere
      exact (recognises_characterCode small).map Value.character
  | string text =>
      refine (recognises_openValue ?_).anywhere
      exact (recognises_string text).map Value.string
  | atom name =>
      refine (recognises_openValue ?_).anywhere
      exact (recognises_identifier "atom name" name).map Value.atom
  | error agrees =>
      refine (recognises_openValue ?_).anywhere
      exact (recognises_errorWord agrees).map Value.error
  | type kind =>
      refine (recognises_openValue ?_).anywhere
      exact (recognises_valueKind kind).map Value.type
  | tuple derived =>
      refine (recognises_openValue ?_).anywhere
      exact (covered.tupleBody derived).map Value.tuple
  | table derived =>
      refine (recognises_openValue ?_).anywhere
      exact (covered.tableBody _ _ derived).map Value.table
  | set derived keeps =>
      refine (recognises_openValue ?_).anywhere
      exact (covered.setBody derived keeps).map Value.set
  | operation derived =>
      exact recognises_openValue
        ((covered.operation _ _ derived).map Value.operation)
  | block derived =>
      refine (recognises_openValue ?_).anywhere
      exact (covered.blockBody _ _ derived).map Value.operation
  | bind first second =>
      exact recognises_openValue
        ((covered.binding first second).map Value.operation)

/-- An operation is recognised whichever of its forms it has. -/
theorem openedOperation (covered : PartsCovered parts languages) :
    (parts.openOperation .standard).Covers (OperationForm languages)
      BehindPart := by
  intro lexemes operation derived
  cases derived with
  | primitive which =>
      refine (recognises_openOperation ?_).anywhere
      cases which <;> exact recognises_pure _
  | push derived =>
      exact recognises_openOperation
        ((covered.payload _ _ derived).map Operation.push)
  | ifTrue derived =>
      exact recognises_openOperation
        ((covered.operation _ _ derived).map Operation.ifTrue)
  | @select lexemes cases derived =>
      have last := (noAlternative parts).map (Operation.select cases)
      have body : (parts.operationBody .select .select).Recognises
          (lexemes ++ []) (.select cases none) BehindPart :=
        (covered.tableBody lexemes cases derived).after last
      rw [List.append_nil] at body
      exact recognises_openOperation body
  | @selectElse lexemes later cases otherwise derived last =>
      have last := (covered.alternative last).map (Operation.select cases)
      exact recognises_openOperation
        ((covered.tableBody lexemes cases derived).after last)
  | named use name =>
      refine (recognises_openOperation ?_).anywhere
      exact (recognises_identifier "name" name).map (Operation.named use)
  | call target =>
      exact recognises_openOperation
        ((recognises_identifier _ target).after
          ((noArguments parts).map (Operation.call target)))
  | callWith target derived =>
      refine (recognises_openOperation ?_).anywhere
      exact (recognises_identifier _ target).after
        ((covered.arguments derived).map (Operation.call target))
  | loadNative path =>
      refine (recognises_openOperation ?_).anywhere
      exact (recognises_string path).map Operation.loadNative
  | native bucket name =>
      refine (recognises_openOperation ?_).anywhere
      exact (recognises_identifier _ bucket).after
        ((recognises_identifier _ name).map (Operation.native bucket))
  | block derived =>
      refine (@recognises_openOperation _ .block _ _ _ ?_).anywhere
      exact covered.blockBody _ _ derived
  | partialBind first second =>
      exact recognises_openOperation
        ((covered.payload _ _ first).bind
          ((covered.operation _ _ second).map (Operation.partialBind _))
          fun next _ =>
            (covered.wordedOperation _ _ second).headD_behindPart next)

theorem succ (covered : PartsCovered parts languages) :
    PartsCovered
      { value := parts.openValue .standard
        operation := parts.openOperation .standard }
      ⟨PayloadForm languages, OperationForm languages⟩ where
  toBeginWorded := .forms languages
  payload := covered.openedValue
  operation := covered.openedOperation

end PartsCovered

/-- The parsers of any number of levels recognise what is derived within
them. -/
theorem partsCovered (levels : Nat) :
    PartsCovered (.within .standard levels) (derivable levels) := by
  induction levels with
  | zero => exact ⟨⟨nofun, nofun⟩, nofun, nofun⟩
  | succ levels ih => exact ih.succ

end Source
end StackAssembly
