import Mathlib.Data.List.Forall2
import StackAssembly.Proofs.Source.Literals
import StackAssembly.Proofs.Value.WellFormed

/-!
# The lexemes of a listing

The lexemes of a listed value are told without regard to blanks and lines.  Of
the layout they depend only on whether the operations of a block stand on lines
of their own, for then nothing else separates them.  A listing is cut into
these lexemes.
-/

namespace StackAssembly
namespace Source

/-- The keyword of a kind of values as a lexeme. -/
def valueWord (kind : ValueKind) : Lexeme :=
  .identifier kind.keyword

/-- The keyword of a kind of operations as a lexeme. -/
def operationWord (kind : OperationKind) : Lexeme :=
  .identifier kind.keyword

/-- The lexemes of a list between marks. -/
def listLexemes («open» close : Lexeme) (items : List (List Lexeme)) :
    List Lexeme :=
  «open» :: (List.intercalate [.comma] items ++ [close])

/-- The lexemes of the slots of a block. -/
def slotsLexemes : List String → List Lexeme
  | [] => []
  | slots =>
      .identifier "slots" ::
        List.intercalate [.comma] (slots.map fun slot => [.identifier slot])

/-- What a layout puts between the operations of a block, apart from lines. -/
def separatorLexemes (layout : Layout) : List Lexeme :=
  if layout.multiLine then [] else [.semicolon]

/-- The lexemes of a block behind its keyword. -/
def blockLexemes (layout : Layout) (slots : List String)
    (operations : List (List Lexeme)) : List Lexeme :=
  slotsLexemes slots ++ .openBrace ::
    (List.intercalate (separatorLexemes layout) operations ++ [.closeBrace])

/-- The keyword that makes an operation a payload. -/
def payloadLexemes (asPayload : Bool) : List Lexeme :=
  if asPayload then [valueWord .operation] else []

mutual

/-- The lexemes of a value as a payload. -/
def valueLexemes (layout : Layout) : Value → List Lexeme
  | .empty => [valueWord .empty]
  | .number word => [valueWord .number, .integer word]
  | .boolean truth =>
      [valueWord .boolean, .identifier (displayBoolean truth)]
  | .character code => [valueWord .character, characterLexeme code]
  | .string text => [valueWord .string, .string text]
  | .atom name => [valueWord .atom, .identifier name]
  | .error code => [valueWord .error, .identifier code.token]
  | .type kind => [valueWord .type, valueWord kind]
  | .tuple items =>
      valueWord .tuple ::
        listLexemes .openParen .closeParen (itemsLexemes layout items)
  | .table entries =>
      valueWord .table ::
        listLexemes .openBracket .closeBracket (entriesLexemes layout entries)
  | .set members =>
      valueWord .set ::
        listLexemes .openBracket .closeBracket (itemsLexemes layout members)
  | .operation body => operationLexemes layout true body
  termination_by structural value => value

/-- The lexemes of each of a list of values. -/
def itemsLexemes (layout : Layout) : List Value → List (List Lexeme)
  | [] => []
  | value :: values => valueLexemes layout value :: itemsLexemes layout values
  termination_by structural values => values

/-- The lexemes of each entry of a table. -/
def entriesLexemes (layout : Layout) :
    List (Value × Value) → List (List Lexeme)
  | [] => []
  | (key, value) :: entries =>
      (valueLexemes layout key ++ .arrow :: valueLexemes layout value) ::
        entriesLexemes layout entries
  termination_by structural entries => entries

/-- The lexemes of an operation, either as a payload or as it stands in a
block. -/
def operationLexemes (layout : Layout) (asPayload : Bool) :
    Operation → List Lexeme
  | .primitive which =>
      payloadLexemes asPayload ++ [operationWord (.primitive which)]
  | .push value =>
      payloadLexemes asPayload ++
        operationWord .push :: valueLexemes layout value
  | .ifTrue body =>
      payloadLexemes asPayload ++
        operationWord .ifTrue :: operationLexemes layout false body
  | .select cases otherwise =>
      payloadLexemes asPayload ++
        operationWord .select ::
          (listLexemes .openBracket .closeBracket
              (entriesLexemes layout cases) ++
            alternativeLexemes layout otherwise)
  | .named use name =>
      payloadLexemes asPayload ++
        [operationWord (.named use), .identifier name]
  | .call target arguments =>
      payloadLexemes asPayload ++
        operationWord .call :: .identifier target ::
          listLexemes .openParen .closeParen (itemsLexemes layout arguments)
  | .loadNative path =>
      payloadLexemes asPayload ++ [operationWord .loadNative, .string path]
  | .native bucket name =>
      payloadLexemes asPayload ++
        [operationWord .native, .identifier bucket, .identifier name]
  | .block slots operations =>
      operationWord .block ::
        blockLexemes layout slots (operationsLexemes layout operations)
  | .partialBind value callable =>
      (if asPayload then valueWord .bind else operationWord .partialBind) ::
        (valueLexemes layout value ++
          operationLexemes layout asPayload callable)
  termination_by structural operation => operation

/-- The lexemes of the operation that a selection falls back to. -/
def alternativeLexemes (layout : Layout) : Option Operation → List Lexeme
  | none => []
  | some operation =>
      .identifier "else" :: operationLexemes layout false operation
  termination_by structural operation => operation

/-- The lexemes of each operation of a block. -/
def operationsLexemes (layout : Layout) :
    List Operation → List (List Lexeme)
  | [] => []
  | operation :: operations =>
      operationLexemes layout false operation ::
        operationsLexemes layout operations
  termination_by structural operations => operations

end

/-- Texts that are each cut are cut in a row between closed marks. -/
theorem writes_intercalate {mark : String} {lexemes : List Lexeme}
    (closed : Closed mark lexemes) (apart : parts mark = true)
    {texts : List String} {each : List (List Lexeme)}
    (writes : List.Forall₂ Writes texts each) :
    Writes (String.intercalate mark texts)
      (List.intercalate lexemes each) := by
  induction writes with
  | nil =>
      rw [String.intercalate_nil, List.intercalate_nil]
      exact closed_empty.writes
  | @cons text found texts each one later ih =>
      cases later with
      | nil =>
          rw [String.intercalate_singleton, List.intercalate_singleton]
          exact one
      | cons two more =>
          rw [String.intercalate_cons_cons, List.intercalate_cons_cons]
          exact (one.close closed apart).before ih

theorem closed_comma : Closed ", " [.comma] := fun rest =>
  .lexeme (by decide) rfl rfl (.blank (by decide) (.done rest))

/-- A list of texts is cut between marks. -/
theorem closed_list {opening closing : String} {front : List Lexeme}
    {«open» close : Lexeme} (opens : Closed opening (front ++ [«open»]))
    (closes : Closed closing [close]) (apart : parts closing = true)
    {texts : List String} {each : List (List Lexeme)}
    (writes : List.Forall₂ Writes texts each) :
    Closed (opening ++ String.intercalate ", " texts ++ closing)
      (front ++ listLexemes «open» close each) := by
  have cut := (opens.before (writes_intercalate closed_comma (by decide)
    writes)).close closes apart
  rwa [List.append_assoc, List.append_assoc] at cut

/-- A mark of one character is a lexeme. -/
theorem closed_mark {mark : String} {character : Char} {lexeme : Lexeme}
    (single : mark.toList = [character])
    (visible : Unicode.isWhiteSpace character = false)
    (scanned : ∀ rest, scan character rest = ⟨lexeme, 1⟩)
    (grammatical : lexeme.isGrammatical = true) : Closed mark [lexeme] := by
  intro rest
  rw [single]
  exact .lexeme visible (scanned rest) grammatical (.done rest)

theorem closed_space : Closed " " [] :=
  closed_blank (by decide)

theorem closed_closeParen : Closed ")" [.closeParen] :=
  closed_mark rfl (by decide) (fun _ => rfl) rfl

theorem closed_closeBracket : Closed "]" [.closeBracket] :=
  closed_mark rfl (by decide) (fun _ => rfl) rfl

theorem closed_openBrace : Closed "\x7b" [.openBrace] :=
  closed_mark rfl (by decide) (fun _ => rfl) rfl

theorem closed_closeBrace : Closed "\x7d" [.closeBrace] :=
  closed_mark rfl (by decide) (fun _ => rfl) rfl

theorem closed_openParen : Closed "(" [.openParen] :=
  closed_mark rfl (by decide) (fun _ => rfl) rfl

theorem closed_spaceOpenParen : Closed " (" [.openParen] :=
  closed_space.append closed_openParen

theorem closed_openBracket : Closed "[" [.openBracket] :=
  closed_mark rfl (by decide) (fun _ => rfl) rfl

theorem isIdentifier_valueKeyword (kind : ValueKind) :
    Text.isIdentifier kind.keyword = true := by
  cases kind <;> decide

theorem isIdentifier_operationKeyword (kind : OperationKind) :
    Text.isIdentifier kind.keyword = true := by
  rcases kind with which | _ | _ | _ | use | _ | _ | _ | _ | _
  · cases which <;> decide
  all_goals first | decide | (cases use <;> decide)

theorem closed_valueWord (kind : ValueKind) :
    Closed (kind.keyword ++ " ") [valueWord kind] :=
  closed_word (isIdentifier_valueKeyword kind) closed_space (by decide)

theorem closed_operationWord (kind : OperationKind) :
    Closed (kind.keyword ++ " ") [operationWord kind] :=
  closed_word (isIdentifier_operationKeyword kind) closed_space (by decide)

theorem closed_payloadMark (asPayload : Bool) :
    Closed (payloadMark asPayload) (payloadLexemes asPayload) := by
  cases asPayload with
  | true => exact closed_valueWord .operation
  | false => exact closed_empty

/-- The keyword of an operation is cut in either place. -/
theorem closed_markedWord (asPayload : Bool) (kind : OperationKind) :
    Closed (payloadMark asPayload ++ (kind.keyword ++ " "))
      (payloadLexemes asPayload ++ [operationWord kind]) :=
  (closed_payloadMark asPayload).append (closed_operationWord kind)

/-- The slots of a block are cut between its keyword and its brace. -/
theorem closed_displaySlots {slots : List String}
    (named : ∀ slot ∈ slots, Text.isIdentifier slot = true) :
    Closed (displaySlots slots) (slotsLexemes slots) := by
  cases slots with
  | nil => exact closed_empty
  | cons slot slots =>
      have writes : List.Forall₂ Writes (slot :: slots)
          ((slot :: slots).map fun slot => [.identifier slot]) := by
        rw [List.forall₂_map_right_iff, List.forall₂_same]
        exact fun slot member => writes_identifier (named slot member)
      have word : Closed "slots " [.identifier "slots"] :=
        closed_word (by decide : Text.isIdentifier "slots" = true)
          closed_space (by decide)
      have cut := (word.before (writes_intercalate closed_comma (by decide)
        writes)).close closed_space (by decide)
      rw [List.append_nil] at cut
      exact cut

theorem closed_newline (layout : Layout) (level : Nat) :
    Closed (layout.newline level) [] := by
  refine closed_blank ?_
  rw [Layout.newline, String.toList_ofList, List.all_cons,
    List.all_replicate]
  have line : Unicode.isWhiteSpace '\n' = true := by decide
  have space : Unicode.isWhiteSpace ' ' = true := by decide
  rw [line, space]
  split <;> rfl

theorem parts_newline (layout : Layout) (level : Nat) :
    parts (layout.newline level) = true := by
  rw [parts, Layout.newline, String.toList_ofList]
  show (!Text.isIdentifierChar '\n') = true
  decide

theorem join_map_append (mark first : String) (texts : List String) :
    String.join ((first :: texts).map (mark ++ ·)) =
      mark ++ String.intercalate mark (first :: texts) := by
  induction texts generalizing first with
  | nil => simp
  | cons second texts ih =>
      rw [List.map_cons, String.join_cons, ih, String.intercalate_cons_cons]
      simp only [String.append_assoc]

/-- The operations of a block are cut up to its closing brace. -/
theorem closed_listedBlockBody (layout : Layout) (level : Nat)
    {texts : List String} {each : List (List Lexeme)}
    (writes : List.Forall₂ Writes texts each) :
    Closed (listedBlockBody layout level texts)
      (List.intercalate (separatorLexemes layout) each ++ [.closeBrace]) := by
  have brace : Closed " \x7d" [.closeBrace] :=
    closed_space.append closed_closeBrace
  rw [listedBlockBody.eq_def, separatorLexemes]
  cases writes with
  | nil => exact brace
  | @cons text found texts each one later =>
      have writes := List.Forall₂.cons one later
      dsimp only
      by_cases lines : layout.multiLine = true
      · have operations := writes_intercalate
          (closed_newline layout (level + 1)) (parts_newline _ _) writes
        have cut := (((closed_newline layout (level + 1)).before
          operations).close (closed_newline layout level)
            (parts_newline _ _)).append closed_closeBrace
        rw [if_pos lines, if_pos lines, join_map_append]
        rw [List.nil_append, List.append_nil] at cut
        exact cut
      · have semicolon : Closed "; " [.semicolon] := fun rest =>
          .lexeme (by decide) rfl rfl (.blank (by decide) (.done rest))
        have operations := writes_intercalate semicolon (by decide) writes
        rw [if_neg lines, if_neg lines]
        exact (closed_space.before operations).close brace (by decide)

/-- A listed block is cut behind its keyword. -/
theorem closed_listedBlock (layout : Layout) (level : Nat)
    {slots : List String}
    (named : ∀ slot ∈ slots, Text.isIdentifier slot = true)
    {texts : List String} {each : List (List Lexeme)}
    (writes : List.Forall₂ Writes texts each) :
    Closed (listedBlockHead slots ++ listedBlockBody layout level texts)
      (operationWord .block :: blockLexemes layout slots each) := by
  have head := ((closed_operationWord .block).append
    (closed_displaySlots named)).append closed_openBrace
  have cut := head.append (closed_listedBlockBody layout level writes)
  rw [List.append_assoc, List.append_assoc] at cut
  exact cut

theorem isIdentifier_displayBoolean (truth : Bool) :
    Text.isIdentifier (displayBoolean truth) = true := by
  cases truth <;> decide

theorem isIdentifier_token (code : ErrorCode) :
    Text.isIdentifier code.token = true := by
  cases code <;> decide

/-- The condition that the names among the parts are identifiers. -/
def identifierNames : PartCondition :=
  .names (Text.isIdentifier · = true)

mutual

/-- A value whose names are identifiers is cut into its lexemes. -/
theorem writes_listedValue (layout : Layout) : (level : Nat) →
    (value : Value) → value.Throughout identifierNames →
      Writes (listedValue layout level value) (valueLexemes layout value)
  | _, .empty, _ => writes_identifier (isIdentifier_valueKeyword .empty)
  | _, .number word, _ => by
      have cut := (closed_valueWord .number).before
        (writes_decimal word.toNat_lt)
      rw [UInt64.ofNat_toNat] at cut
      exact cut
  | _, .boolean truth, _ =>
      (closed_valueWord .boolean).before
        (writes_identifier (isIdentifier_displayBoolean truth))
  | _, .character code, _ =>
      (closed_valueWord .character).before (writes_listedCharacter code)
  | _, .string text, _ =>
      (closed_valueWord .string).before (closed_listedString text).writes
  | _, .atom name, named =>
      (closed_valueWord .atom).before (writes_identifier named)
  | _, .error code, _ =>
      (closed_valueWord .error).before
        (writes_identifier (isIdentifier_token code))
  | _, .type kind, _ =>
      (closed_valueWord .type).before
        (writes_identifier (isIdentifier_valueKeyword kind))
  | level, .tuple items, named =>
      (@closed_list _ _ [valueWord .tuple] _ _
        ((closed_valueWord .tuple).append closed_openParen) closed_closeParen
        (by decide) _ _
        (writes_listedItems layout level items named.2)).writes
  | level, .table entries, named =>
      (@closed_list _ _ [valueWord .table] _ _
        ((closed_valueWord .table).append closed_openBracket)
        closed_closeBracket (by decide) _ _
        (writes_listedEntries layout level entries named.2)).writes
  | level, .set members, named =>
      (@closed_list _ _ [valueWord .set] _ _
        ((closed_valueWord .set).append closed_openBracket)
        closed_closeBracket (by decide) _ _
        (writes_listedItems layout level members named.2)).writes
  | level, .operation body, named =>
      writes_listedOperation layout true level body named.2
  termination_by structural _ value => value

theorem writes_listedItems (layout : Layout) : (level : Nat) →
    (values : List Value) → itemsThroughout identifierNames values →
      List.Forall₂ Writes (listedItems layout level values)
        (itemsLexemes layout values)
  | _, [], _ => .nil
  | level, value :: values, named =>
      .cons (writes_listedValue layout level value named.1)
        (writes_listedItems layout level values named.2)
  termination_by structural _ values => values

theorem writes_listedEntries (layout : Layout) : (level : Nat) →
    (entries : List (Value × Value)) →
    entriesThroughout identifierNames entries →
      List.Forall₂ Writes (listedEntries layout level entries)
        (entriesLexemes layout entries)
  | _, [], _ => .nil
  | level, (key, value) :: entries, named => by
      have arrow : Closed " -> " [.arrow] := fun rest =>
        .blank (by decide) (.lexeme (by decide) rfl rfl
          (.blank (by decide) (.done rest)))
      have cut := ((writes_listedValue layout level key named.1.1).close
        arrow (by decide)).before
          (writes_listedValue layout level value named.1.2)
      rw [List.append_assoc] at cut
      exact .cons cut (writes_listedEntries layout level entries named.2)
  termination_by structural _ entries => entries

/-- An operation whose names are identifiers is cut into its lexemes. -/
theorem writes_listedOperation (layout : Layout) (asPayload : Bool) :
    (level : Nat) → (operation : Operation) →
    operation.Throughout identifierNames →
      Writes (listedOperation layout asPayload level operation)
        (operationLexemes layout asPayload operation)
  | _, .primitive which, _ =>
      (closed_payloadMark asPayload).before
        (writes_identifier (isIdentifier_operationKeyword (.primitive which)))
  | level, .push value, named => by
      have cut := (closed_markedWord asPayload .push).before
        (writes_listedValue layout level value named.2)
      rw [List.append_assoc] at cut
      exact cut
  | level, .ifTrue body, named => by
      have cut := (closed_markedWord asPayload .ifTrue).before
        (writes_listedOperation layout false level body named.2)
      rw [List.append_assoc] at cut
      exact cut
  | level, .select cases otherwise, named => by
      have opening := (closed_payloadMark asPayload).append
        ((closed_operationWord .select).append closed_openBracket)
      rw [← List.append_assoc] at opening
      have cut := (closed_list opening closed_closeBracket (by decide)
        (writes_listedEntries layout level cases named.2.1)).before
          (writes_listedAlternative layout level otherwise named.2.2)
      rw [List.append_assoc, List.append_assoc] at cut
      exact cut
  | _, .named use name, named => by
      have word := writes_identifier
        (isIdentifier_operationKeyword (.named use))
      have cut := (((closed_payloadMark asPayload).before word).close
        closed_space (by decide)).before (writes_identifier named)
      rw [List.append_nil, List.append_assoc] at cut
      exact cut
  | level, .call target arguments, named => by
      have opening := ((closed_markedWord asPayload .call).before
        (writes_identifier named.1)).close closed_spaceOpenParen (by decide)
      have cut := (closed_list opening closed_closeParen (by decide)
        (writes_listedItems layout level arguments named.2)).writes
      rw [List.append_assoc, List.append_assoc] at cut
      exact cut
  | _, .loadNative path, _ => by
      have cut := (closed_markedWord asPayload .loadNative).append
        (closed_listedString path)
      rw [List.append_assoc] at cut
      exact cut.writes
  | _, .native bucket name, named => by
      have cut := (((closed_markedWord asPayload .native).before
        (writes_identifier named.1)).close closed_space (by decide)).before
          (writes_identifier named.2)
      rw [List.append_nil, List.append_assoc, List.append_assoc] at cut
      exact cut
  | level, .block slots operations, named =>
      (closed_listedBlock layout level named.1
        (writes_listedOperations layout (level + 1) operations
          named.2)).writes
  | level, .partialBind value callable, named => by
      have word : Closed (if asPayload then "bind " else "partial ")
          [if asPayload then valueWord .bind
            else operationWord .partialBind] := by
        cases asPayload with
        | true => exact closed_valueWord .bind
        | false => exact closed_operationWord .partialBind
      have cut := ((word.before
        (writes_listedValue layout level value named.2.1)).close closed_space
          (by decide)).before
            (writes_listedOperation layout asPayload level callable named.2.2)
      rw [List.append_nil, List.append_assoc] at cut
      exact cut
  termination_by structural _ operation => operation

theorem writes_listedAlternative (layout : Layout) : (level : Nat) →
    (otherwise : Option Operation) →
    alternativeThroughout identifierNames otherwise →
      Writes (listedAlternative layout level otherwise)
        (alternativeLexemes layout otherwise)
  | _, none, _ => closed_empty.writes
  | level, some operation, named =>
      (closed_space.append (closed_word
        (by decide : Text.isIdentifier "else" = true) closed_space
          (by decide))).before
        (writes_listedOperation layout false level operation named)
  termination_by structural _ otherwise => otherwise

theorem writes_listedOperations (layout : Layout) : (level : Nat) →
    (operations : List Operation) →
    operationsThroughout identifierNames operations →
      List.Forall₂ Writes (listedOperations layout level operations)
        (operationsLexemes layout operations)
  | _, [], _ => .nil
  | level, operation :: operations, named =>
      .cons (writes_listedOperation layout false level operation named.1)
        (writes_listedOperations layout level operations named.2)
  termination_by structural _ operations => operations

end

end Source
end StackAssembly
