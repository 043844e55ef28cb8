import StackAssembly.Proofs.Source.Completeness
import StackAssembly.Proofs.Source.TextNesting
import StackAssembly.Source.Program

/-!
# Listings are read back

The lexemes of a listed value denote the value, provided that its tables and
sets repeat nothing and that it opens no more payloads and operations than the
grammar allows.  So the listing is recognised as the value.  The proof goes up
level by level, as derivations are built.
-/

namespace StackAssembly
namespace Source

open Source.Parser

/-- Items with a comma between each two of them form a list. -/
theorem commaList_intercalate {α : Type} {item : Language α}
    {each : List (List Lexeme)} {values : List α}
    (derived : List.Forall₂ item each values) :
    CommaList item (List.intercalate [.comma] each) values := by
  induction derived with
  | nil => exact .empty
  | cons first later ih =>
      cases later with
      | nil =>
          rw [List.intercalate_singleton]
          exact .last first
      | cons second later =>
          rw [List.intercalate_cons_cons, List.append_assoc]
          exact .more first ih

theorem nameList_intercalate (name : String) (names : List String) :
    NameList
      (List.intercalate [.comma]
        ((name :: names).map fun name => [.identifier name]))
      (name :: names) := by
  induction names generalizing name with
  | nil => exact .last name
  | cons second names ih =>
      rw [List.map_cons, List.map_cons, List.intercalate_cons_cons]
      exact .more name (ih second)

theorem slotList_slotsLexemes (slots : List String) :
    SlotList (slotsLexemes slots) slots := by
  cases slots with
  | nil => exact .none
  | cons slot slots => exact .some (nameList_intercalate slot slots)

/-- Operations with a separator, or nothing, between each two of them form a
list. -/
theorem operationList_intercalate {operation : Language Operation}
    {mark : List Lexeme} (separated : Separator mark)
    {each : List (List Lexeme)} {body : List Operation}
    (derived : List.Forall₂ operation each body) :
    OperationList operation (List.intercalate mark each) body := by
  induction derived with
  | nil => exact .empty
  | @cons lexemes first each body here later ih =>
      cases later with
      | nil =>
          have alone := OperationList.more here .none .empty
          rw [List.append_nil, List.append_nil] at alone
          rw [List.intercalate_singleton]
          exact alone
      | cons second later =>
          rw [List.intercalate_cons_cons, List.append_assoc]
          exact .more here separated ih

theorem separator_separatorLexemes (layout : Layout) :
    Separator (separatorLexemes layout) := by
  rw [separatorLexemes]
  split
  · exact .none
  · exact .semicolon

/-- A character is listed as itself or as its code. -/
theorem payloadForm_character (parts : Languages) (code : UInt32) :
    PayloadForm parts [valueWord .character, characterLexeme code]
      (.character code) := by
  have numbered : PayloadForm parts
      [valueWord .character, .integer (UInt64.ofNat code.toNat)]
      (.character code) := by
    have number : (UInt64.ofNat code.toNat).toNat = code.toNat :=
      UInt64.toNat_ofNat_of_lt (Nat.lt_trans code.toNat_lt (by decide))
    have restored : (UInt64.ofNat code.toNat).toUInt32 = code := by
      rw [← UInt32.toNat_inj, UInt64.toNat_toUInt32, number]
      exact Nat.mod_eq_of_lt code.toNat_lt
    have small : (UInt64.ofNat code.toNat).toNat < 2 ^ 32 := by
      rw [number]
      exact code.toNat_lt
    have derived := @PayloadForm.characterCode parts _ small
    rw [restored] at derived
    exact derived
  rw [characterLexeme]
  split
  · split
    · exact .character code
    · exact numbered
  · exact numbered

/-- Whether everything that is listed within some levels of nesting is
derived. -/
structure ListingsDerived (layout : Layout) (levels : Nat)
    (languages : Languages) : Prop where
  value : ∀ value : Value, value.RepeatsNothing → value.textNesting ≤ levels →
    languages.payload (valueLexemes layout value) value
  operation : ∀ operation : Operation, operation.RepeatsNothing →
    operation.textNesting false ≤ levels →
      languages.operation (operationLexemes layout false operation) operation

namespace ListingsDerived

variable {layout : Layout} {levels : Nat} {languages : Languages}

theorem items (within : ListingsDerived layout levels languages)
    {values : List Value} (unrepeated : itemsThroughout .distinct values)
    (fit : itemsTextNesting values ≤ levels) :
    CommaList languages.payload
      (List.intercalate [.comma] (itemsLexemes layout values)) values := by
  apply commaList_intercalate
  induction values with
  | nil => exact .nil
  | cons value values ih =>
      obtain ⟨first, later⟩ := Nat.max_le.mp fit
      exact .cons (within.value value unrepeated.1 first)
        (ih unrepeated.2 later)

theorem entries (within : ListingsDerived layout levels languages)
    {entries : List (Value × Value)}
    (unrepeated : entriesThroughout .distinct entries)
    (fit : entriesTextNesting entries ≤ levels) :
    CommaList (EntryForm languages)
      (List.intercalate [.comma] (entriesLexemes layout entries))
      entries := by
  apply commaList_intercalate
  induction entries with
  | nil => exact .nil
  | cons entry entries ih =>
      obtain ⟨key, value⟩ := entry
      obtain ⟨first, later⟩ := Nat.max_le.mp fit
      obtain ⟨keyFits, valueFits⟩ := Nat.max_le.mp first
      exact .cons
        (.intro (within.value key unrepeated.1.1 keyFits)
          (within.value value unrepeated.1.2 valueFits))
        (ih unrepeated.2 later)

theorem table (within : ListingsDerived layout levels languages)
    {entries : List (Value × Value)} (distinct : Entries.Distinct entries)
    (unrepeated : entriesThroughout .distinct entries)
    (fit : entriesTextNesting entries ≤ levels) :
    TableForm languages
      (listLexemes .openBracket .closeBracket (entriesLexemes layout entries))
      entries :=
  .intro (within.entries unrepeated fit)
    (Entries.keepsFirst_iff.mpr (Entries.ofPairs_of_distinct distinct).symm)

theorem block (within : ListingsDerived layout levels languages)
    (slots : List String) {body : List Operation}
    (unrepeated : operationsThroughout .distinct body)
    (fit : operationsTextNesting body ≤ levels) :
    BlockForm languages
      (blockLexemes layout slots (operationsLexemes layout body))
      (.block slots body) := by
  refine .intro (slotList_slotsLexemes slots)
    (operationList_intercalate (separator_separatorLexemes layout) ?_)
  induction body with
  | nil => exact .nil
  | cons operation body ih =>
      obtain ⟨first, later⟩ := Nat.max_le.mp fit
      exact .cons (within.operation operation unrepeated.1 first)
        (ih unrepeated.2 later)

/-- An operation whose parts are derived is derived behind its own
keyword. -/
theorem operationForm (within : ListingsDerived layout levels languages)
    {operation : Operation} (unrepeated : operation.RepeatsNothing)
    (fit : operation.textNesting false ≤ levels + 1) :
    OperationForm languages (operationLexemes layout false operation)
      operation := by
  cases operation with
  | primitive which => exact .primitive which
  | push value =>
      exact .push (within.value value unrepeated.2
        (Nat.le_of_succ_le_succ fit))
  | ifTrue body =>
      exact .ifTrue (within.operation body unrepeated.2
        (Nat.le_of_succ_le_succ fit))
  | select cases otherwise =>
      obtain ⟨casesFit, lastFits⟩ :=
        Nat.max_le.mp (Nat.le_of_succ_le_succ fit)
      have table := within.table unrepeated.1 unrepeated.2.1 casesFit
      cases otherwise with
      | none =>
          have derived := OperationForm.select table
          rw [← List.append_nil (listLexemes _ _ _)] at derived
          exact derived
      | some operation =>
          exact .selectElse table
            (within.operation operation unrepeated.2.2 lastFits)
  | named use name => exact .named use name
  | call target arguments =>
      exact .callWith target
        (within.items unrepeated.2 (Nat.le_of_succ_le_succ fit))
  | loadNative path => exact .loadNative path
  | native bucket name => exact .native bucket name
  | block slots body =>
      exact .block (within.block slots unrepeated.2
        (Nat.le_of_succ_le_succ fit))
  | partialBind value callable =>
      obtain ⟨valueFits, callableFits⟩ :=
        Nat.max_le.mp (Nat.le_of_succ_le_succ fit)
      exact .partialBind (within.value value unrepeated.2.1 valueFits)
        (within.operation callable unrepeated.2.2 callableFits)

/-- An operation whose parts are derived is derived as a payload.  Blocks and
partial applications are told by their own keywords, and any other operation
follows the keyword of payloads. -/
theorem callableForm (within : ListingsDerived layout levels languages)
    {body : Operation} (unrepeated : body.RepeatsNothing)
    (fit : body.textNesting true ≤ levels + 1) :
    PayloadForm languages (operationLexemes layout true body)
      (.operation body) := by
  cases body with
  | block slots operations =>
      exact .block (within.block slots unrepeated.2
        (Nat.le_of_succ_le_succ fit))
  | partialBind value callable =>
      obtain ⟨valueFits, callableFits⟩ :=
        Nat.max_le.mp (Nat.le_of_succ_le_succ fit)
      exact .bind (within.value value unrepeated.2.1 valueFits)
        (within.value (.operation callable) ⟨trivial, unrepeated.2.2⟩
          callableFits)
  | _ =>
      exact .operation (within.operation _ unrepeated
        (Nat.le_of_succ_le_succ fit))

/-- A value whose parts are derived is derived behind its own keyword. -/
theorem payloadForm (within : ListingsDerived layout levels languages)
    {value : Value} (unrepeated : value.RepeatsNothing)
    (fit : value.textNesting ≤ levels + 1) :
    PayloadForm languages (valueLexemes layout value) value := by
  cases value with
  | empty => exact .empty
  | number word => exact .number word
  | boolean truth =>
      cases truth with
      | true => exact .yes
      | false => exact .no
  | character code => exact payloadForm_character languages code
  | string text => exact .string text
  | atom name => exact .atom name
  | error code => exact .error (beq_self_eq_true _)
  | type kind => exact .type kind
  | tuple items =>
      exact .tuple (within.items unrepeated.2 (Nat.le_of_succ_le_succ fit))
  | table entries =>
      exact .table (within.table unrepeated.1 unrepeated.2
        (Nat.le_of_succ_le_succ fit))
  | set members =>
      exact .set (within.items unrepeated.2 (Nat.le_of_succ_le_succ fit))
        (Members.keepsFirst_iff.mpr
          (Members.ofValues_of_distinct unrepeated.1).symm)
  | operation body => exact within.callableForm unrepeated.2 fit

end ListingsDerived

/-- What is listed within any number of levels is derived within them. -/
theorem listingsDerived (layout : Layout) (levels : Nat) :
    ListingsDerived layout levels (derivable levels) := by
  induction levels with
  | zero =>
      constructor
      · intro value _ fit
        exact absurd value.textNesting_pos (Nat.not_lt_of_le fit)
      · intro operation _ fit
        exact absurd (operation.textNesting_pos false) (Nat.not_lt_of_le fit)
  | succ levels ih =>
      constructor
      · exact fun value unrepeated fit => ih.payloadForm unrepeated fit
      · exact fun operation unrepeated fit => ih.operationForm unrepeated fit

/-- Whether a value can be listed so that it is read back. -/
structure Listable (value : Value) : Prop where
  /-- The tables and sets of the value repeat nothing. -/
  unrepeated : value.RepeatsNothing
  /-- The names in the value are identifiers. -/
  named : value.NamesAre (Text.isIdentifier · = true)
  /-- The listing opens no more than the grammar allows. -/
  fit : value.textNesting ≤ maxNesting

/-- A payload is read back where none is open. -/
theorem parsePayload_listed (layout : Layout) {value : Value}
    (listable : Listable value) {cursor : TokenCursor}
    {more : List Lexeme} (outermost : cursor.depth = 0)
    (here : cursor.rest.map Token.lexeme = valueLexemes layout value ++ more)
    (follows : BehindPart (more.headD .endOfInput)) :
    parsePayload .standard cursor =
      .ok value (cursor.skip (valueLexemes layout value).length) := by
  have derived := (listingsDerived layout maxNesting).value value
    listable.unrepeated listable.fit
  have run := (partsCovered maxNesting).payload _ value derived cursor more
    here follows
  rw [parsePayload, withParts, ← run]
  change (PartParsers.within _ (maxNesting - cursor.depth)).value cursor = _
  rw [outermost]
  rfl

/-- The lexemes of a statement. -/
def statementLexemes (layout : Layout) (entry : String × Value) :
    List Lexeme :=
  .identifier "value" :: .identifier entry.1 :: valueLexemes layout entry.2

theorem parseStatement_listed (layout : Layout) {entry : String × Value}
    (listable : Listable entry.2) {cursor : TokenCursor}
    {more : List Lexeme} (outermost : cursor.depth = 0)
    (here : cursor.rest.map Token.lexeme =
      statementLexemes layout entry ++ more)
    (follows : BehindPart (more.headD .endOfInput)) :
    parseStatement .standard cursor =
      .ok entry (cursor.skip (statementLexemes layout entry).length) := by
  obtain ⟨name, value⟩ := entry
  have word : nextIfWord "value" cursor = .ok true (cursor.skip 1) :=
    recognises_nextIfWord "value" cursor _ here trivial
  have behindWord := @TokenCursor.lexemes_skip cursor [.identifier "value"] _
    here
  have named : identifier "value name" (cursor.skip 1) =
      .ok name ((cursor.skip 1).skip 1) :=
    recognises_identifier _ name _ _ behindWord trivial
  have behindName := @TokenCursor.lexemes_skip _ [.identifier name] _
    behindWord
  have stillOutermost : ((cursor.skip 1).skip 1).depth = 0 := by
    rw [TokenCursor.depth_skip, TokenCursor.depth_skip, outermost]
  have payload := parsePayload_listed layout listable stillOutermost
    behindName follows
  rw [parseStatement, bind_of_ok word, if_pos rfl, bind_of_ok named,
    bind_of_ok payload]
  rfl

/-- Statements are read back one after the other. -/
theorem statementsFrom_listed (layout : Layout)
    {entries : List (String × Value)}
    (listable : ∀ entry ∈ entries, Listable entry.2) {cursor : TokenCursor}
    (outermost : cursor.depth = 0)
    (here : cursor.rest.map Token.lexeme =
      entries.flatMap (statementLexemes layout))
    {fuel : Nat} (enough : cursor.rest.length < fuel) :
    (statementsFrom .standard fuel cursor).1 = entries.map .ok := by
  induction entries generalizing cursor fuel with
  | nil =>
      obtain ⟨fuel, rfl⟩ := Nat.exists_eq_succ_of_ne_zero
        (Nat.ne_zero_of_lt enough)
      have ended : cursor.atEnd = true :=
        List.isEmpty_iff.mpr (List.map_eq_nil_iff.mp here)
      rw [statementsFrom, if_pos ended]
      rfl
  | cons entry entries ih =>
      obtain ⟨fuel, rfl⟩ := Nat.exists_eq_succ_of_ne_zero
        (Nat.ne_zero_of_lt enough)
      obtain ⟨first, others⟩ := List.forall_mem_cons.mp listable
      rw [List.flatMap_cons] at here
      have more : ¬ cursor.atEnd = true := by
        intro ended
        rw [List.isEmpty_iff.mp ended] at here
        cases here
      have follows : BehindPart
          ((entries.flatMap (statementLexemes layout)).headD .endOfInput) := by
        cases entries <;> exact ⟨by rintro ⟨⟩, rfl⟩
      have run := parseStatement_listed layout first outermost here follows
      have shorter :
          (cursor.skip (statementLexemes layout entry).length).rest.length <
            fuel := by
        rw [TokenCursor.rest_skip, List.length_drop]
        rw [TokenCursor.atEnd, List.isEmpty_iff_length_eq_zero] at more
        have visible : 0 < (statementLexemes layout entry).length :=
          Nat.succ_pos _
        omega
      have later := ih others ((TokenCursor.depth_skip _ _).trans outermost)
        (TokenCursor.lexemes_skip here) shorter
      rw [statementsFrom, if_neg more, run]
      exact congrArg (.ok entry :: ·) later

/-- A listed statement is cut into its lexemes. -/
theorem closed_listEntry (layout : Layout) {name : String} {value : Value}
    (named : Text.isIdentifier name = true) (listable : Listable value) :
    Closed (listEntry layout name value)
      (statementLexemes layout (name, value)) := by
  have word : Closed "value " [.identifier "value"] :=
    closed_word (by decide : Text.isIdentifier "value" = true) closed_space
      (by decide)
  have line : Closed "\n" [] := closed_blank (by decide)
  have payload := writes_listedValue layout 0 value listable.named
  have cut := (((word.before (writes_identifier named)).close closed_space
    (by decide)).before payload).close line (by decide)
  rw [List.append_nil, List.append_nil] at cut
  exact cut

theorem closed_listProgram (layout : Layout)
    {entries : List (String × Value)}
    (named : ∀ entry ∈ entries, Text.isIdentifier entry.1 = true)
    (listable : ∀ entry ∈ entries, Listable entry.2) :
    Closed (listProgram layout entries)
      (entries.flatMap (statementLexemes layout)) := by
  induction entries with
  | nil => exact closed_empty
  | cons entry entries ih =>
      obtain ⟨name, others⟩ := List.forall_mem_cons.mp named
      obtain ⟨first, rest⟩ := List.forall_mem_cons.mp listable
      rw [listProgram, List.map_cons, String.join_cons, List.flatMap_cons]
      exact (closed_listEntry layout name first).append (ih others rest)

theorem entriesOf_map_ok (entries : List (String × Value)) :
    entriesOf (entries.map .ok) = entries := by
  rw [entriesOf, List.filterMap_map]
  exact List.filterMap_some

theorem errorsOf_map_ok (entries : List (String × Value)) :
    errorsOf (entries.map .ok) = [] := by
  rw [errorsOf, List.filterMap_map]
  exact List.filterMap_none entries

/-- A listed program is read back. -/
theorem parseProgram_listed (layout : Layout)
    {entries : List (String × Value)}
    (named : ∀ entry ∈ entries, Text.isIdentifier entry.1 = true)
    (listable : ∀ entry ∈ entries, Listable entry.2) :
    parseProgram .standard (listProgram layout entries) = (entries, []) := by
  have cut := closed_listProgram layout named listable []
  rw [List.append_nil] at cut
  have here := cut.lexemes_ofText rfl
  have read := statementsFrom_listed layout listable rfl here
    (Nat.lt_succ_self _)
  rw [parseProgram, statements, read, entriesOf_map_ok, errorsOf_map_ok]

/-- A listed payload is read back. -/
theorem parseText_listed (layout : Layout) {value : Value}
    (listable : Listable value) :
    parseText .standard (listValue layout value) = .ok value := by
  have cut := writes_listedValue layout 0 value listable.named [] nofun
  rw [List.append_nil] at cut
  have here := cut.lexemes_ofText rfl
  have run := parsePayload_listed layout listable rfl
    (here.trans (List.append_nil _).symm) ⟨nofun, rfl⟩
  have ended := TokenCursor.lexemes_skip
    (here.trans (List.append_nil _).symm)
  rw [parseText, listValue, run]
  exact if_pos (List.isEmpty_iff.mpr (List.map_eq_nil_iff.mp ended))

/-- In every layout, listed programs and payloads are read back as they were,
down to the order of the entries of their tables and sets. -/
theorem listings_are_read_back (layout : Layout) :
    (∀ entries : List (String × Value),
      (∀ entry ∈ entries,
        Text.isIdentifier entry.1 = true ∧ Listable entry.2) →
        parseProgram .standard (listProgram layout entries) =
          (entries, [])) ∧
    (∀ value : Value, Listable value →
      parseText .standard (listValue layout value) = .ok value) := by
  refine ⟨fun entries each => ?_, fun value => parseText_listed layout⟩
  exact parseProgram_listed layout (fun entry member => (each entry member).1)
    (fun entry member => (each entry member).2)

/-- A callable value that is listed in another way as an operation, and that
holds a character which is none and a text with a control character. -/
def curriedBlock : Value :=
  .operation (.partialBind (.character 0xD800)
    (.block ["x", "else"]
      [.select [(.string "\x01a\"", .atom "k")] none,
        .partialBind (.set [.number 2, .number 1]) (.primitive .add),
        .ifTrue (.call "f" [])]))

theorem curriedBlock_read_back :
    Listable curriedBlock ∧
    (parseProgram .standard
        (listProgram .listing [("a", curriedBlock), ("a", .empty)]) =
      ([("a", curriedBlock), ("a", .empty)], []) ∧
    parseText .standard (listValue {} curriedBlock) = .ok curriedBlock) := by
  have curried : Listable curriedBlock := by
    constructor
    · simp only [curriedBlock, Value.RepeatsNothing, Operation.Throughout,
        Value.Throughout, PartCondition.distinct, itemsThroughout,
        entriesThroughout, alternativeThroughout, operationsThroughout]
      decide
    · simp only [curriedBlock, Value.NamesAre, Operation.Throughout,
        Value.Throughout, PartCondition.names, itemsThroughout,
        entriesThroughout, alternativeThroughout, operationsThroughout]
      decide
    · decide
  have empty : Listable .empty := ⟨trivial, trivial, by decide⟩
  refine ⟨curried,
    (listings_are_read_back .listing).1 [("a", curriedBlock), ("a", .empty)]
      ?_,
    (listings_are_read_back {}).2 curriedBlock curried⟩
  rintro entry (_ | ⟨_, _ | ⟨_, ⟨⟩⟩⟩)
  · exact ⟨by decide, curried⟩
  · exact ⟨by decide, empty⟩

end Source
end StackAssembly
