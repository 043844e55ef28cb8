import StackAssembly.Proofs.Image.Delivery
import StackAssembly.Proofs.Image.Spelling

/-!
# The normal form of what was decoded

The decoders of the standard dialect read exactly the spellings of values and
operations.  So whatever the bytes are that a value was decoded from, writing
the value again brings them into a normal form, from which the same value is
decoded once more.
-/

namespace StackAssembly
namespace Image

/-- The spelling that is written, without any oddity. -/
def Spelling.exact {α : Type} (write : α → List UInt8) : Spelling α :=
  fun bytes value odd => bytes = write value ∧ odd = []

theorem ItemSpelling.of_exact {α : Type} {write : α → List UInt8}
    {bytes : List UInt8} {values : List α} {odd : List Oddity}
    (read : ItemSpelling (.exact write) bytes values odd) :
    Spelling.exact (List.flatMap write) bytes values odd := by
  induction read with
  | nil => exact ⟨rfl, rfl⟩
  | cons first later ih =>
      obtain ⟨rfl, rfl⟩ := first
      obtain ⟨rfl, rfl⟩ := ih
      exact ⟨rfl, rfl⟩

namespace Decoder

variable {α β : Type}

/-- Whether a decoder passes over a spelling of whatever it yields. -/
def Spells (decoder : Decoder α) (spelling : Spelling α) : Prop :=
  ∀ reader value next, decoder reader = .ok value next →
    ∃ bytes odd, reader.rest = bytes ++ next.rest ∧ spelling bytes value odd

theorem Spells.imp {decoder : Decoder α} {spelling weaker : Spelling α}
    (spells : decoder.Spells spelling)
    (implies : ∀ bytes value odd, spelling bytes value odd →
      weaker bytes value odd) : decoder.Spells weaker := by
  intro reader value next run
  obtain ⟨bytes, odd, split, spelled⟩ := spells reader value next run
  exact ⟨bytes, odd, split, implies bytes value odd spelled⟩

/-- A spelling is one of a value that is delivered. -/
theorem Spells.delivered {decoder : Decoder α} {spelling : Spelling α}
    {accepted : α → Prop} (spells : decoder.Spells spelling)
    (delivers : decoder.Delivers accepted) :
    decoder.Spells fun bytes value odd =>
      accepted value ∧ spelling bytes value odd := by
  intro reader value next run
  obtain ⟨bytes, odd, split, spelled⟩ := spells reader value next run
  exact ⟨bytes, odd, split, (delivers reader value next run).1, spelled⟩

theorem spells_pure {spelling : Spelling α} {value : α} {odd : List Oddity}
    (spelled : spelling [] value odd) : Spells (pure value) spelling := by
  rintro reader _ _ ⟨⟩
  exact ⟨[], odd, rfl, spelled⟩

theorem spells_failAt {spelling : Spelling α} (start : Nat)
    (defect : Defect) : (failAt start defect).Spells spelling := by
  rintro reader value next ⟨⟩

theorem spells_fail {spelling : Spelling α} (defect : Defect) :
    (fail defect).Spells spelling := by
  rintro reader value next ⟨⟩

/-- The spelling of a whole begins with one of its first part. -/
theorem Spells.bind {first : Decoder α} {later : α → Decoder β}
    {front : Spelling α} {spelling : Spelling β} (one : first.Spells front)
    (two : ∀ bytes value odd, front bytes value odd →
      (later value).Spells fun more result others =>
        spelling (bytes ++ more) result (odd ++ others)) :
    (first >>= later).Spells spelling := by
  intro reader result next run
  obtain ⟨value, middle, ran, goesOn⟩ := exists_of_bind_ok run
  obtain ⟨bytes, odd, split, spelled⟩ := one reader value middle ran
  obtain ⟨more, others, splitLater, spelledLater⟩ :=
    two bytes value odd spelled middle result next goesOn
  refine ⟨bytes ++ more, odd ++ others, ?_, spelledLater⟩
  rw [split, splitLater, List.append_assoc]

/-- Behind a part that is spelled as it is written, only the oddities of the
rest count. -/
theorem Spells.after {first : Decoder α} {later : α → Decoder β}
    {write : α → List UInt8} {spelling : Spelling β}
    (one : first.Spells (.exact write))
    (two : ∀ value, (later value).Spells fun more result others =>
      spelling (write value ++ more) result others) :
    (first >>= later).Spells spelling := by
  refine one.bind ?_
  rintro _ value _ ⟨rfl, rfl⟩
  exact two value

theorem Spells.map {decoder : Decoder α} {front : Spelling α}
    {spelling : Spelling β} (spells : decoder.Spells front) {make : α → β}
    (makes : ∀ bytes value odd, front bytes value odd →
      spelling bytes (make value) odd) :
    Spells (do return make (← decoder)) spelling := by
  refine spells.bind fun bytes value odd spelled =>
    @spells_pure _ _ _ [] ?_
  rw [List.append_nil, List.append_nil]
  exact makes bytes value odd spelled

/-- A decoder may note its place before it reads. -/
theorem Spells.fromOffset {later : Nat → Decoder α} {spelling : Spelling α}
    (spells : ∀ start, (later start).Spells spelling) :
    (offset >>= later).Spells spelling :=
  fun reader => spells reader.offset reader

theorem spells_begin : Decoder.begin.Spells (.exact fun _ => []) := by
  rintro reader _ _ ⟨⟩
  exact ⟨[], [], rfl, rfl, rfl⟩

theorem spells_byte : byte.Spells (.exact fun byte => [byte]) := by
  intro reader value next run
  rw [byte_eq] at run
  match here : reader.rest with
  | [] =>
      rw [here] at run
      cases run
  | found :: rest =>
      rw [here] at run
      cases run
      exact ⟨[value], [], by simp [ByteReader.skip, here], rfl, rfl⟩

theorem spells_bytes (count : Nat) :
    (bytes count).Spells (.exact fun raw => raw) := by
  intro reader raw next run
  rw [bytes_eq] at run
  split at run
  · cases run
  · cases run
    exact ⟨_, [], (List.take_append_drop count reader.rest).symm, rfl, rfl⟩

theorem spells_untilByte (delimiter : UInt8) :
    (untilByte delimiter).Spells (.exact fun raw => raw ++ [delimiter]) := by
  intro reader raw next run
  rw [untilByte_eq] at run
  split at run
  · cases run
  · next more =>
      obtain ⟨rest, split⟩ := exists_behind_takeWhile
        (mt List.isEmpty_iff.mpr more)
      cases run
      refine ⟨_, [], ?_, rfl, rfl⟩
      rw [List.append_cons] at split
      have behind := congrArg ByteReader.rest (ByteReader.skip_eq_past split)
      rw [List.length_append] at behind
      exact split.trans (congrArg _ behind.symm)

/-- A number is spelled by its field, whatever the width. -/
theorem spells_number (width : Nat) :
    (Decoder.number width).Spells (.exact (numberField width)) := by
  rw [Decoder.number]
  split
  · exact spells_fail _
  · refine ((spells_bytes width).delivered (delivers_bytes width)).map ?_
    rintro _ raw _ ⟨length, rfl, rfl⟩
    refine ⟨?_, rfl⟩
    rw [← length, numberField_numberOfBytes]

theorem spells_length : Decoder.length.Spells (.exact lengthField) :=
  spells_number numberWidth

theorem spells_boolean : boolean.Spells FlagSpelling := by
  intro reader truth next run
  obtain ⟨byte, middle, ran, made⟩ := exists_of_bind_ok run
  obtain ⟨_, _, split, rfl, rfl⟩ := spells_byte reader byte middle ran
  cases made
  exact ⟨_, _, split, .intro byte⟩

/-- The bytes of a text have been passed over before it is made of them. -/
theorem spells_text (start : Nat) (defect : Defect) (raw : List UInt8) :
    (text start defect raw).Spells fun bytes written odd =>
      (bytes = [] ∧ odd = []) ∧ textBytes written = raw := by
  rw [text]
  split
  · next written denoted =>
      exact spells_pure ⟨⟨rfl, rfl⟩, textBytes_of_fromUTF8? denoted⟩
  · exact spells_failAt _ _

theorem spells_nameBody :
    nameBody.Spells
      (.exact fun written => textBytes written ++ [nameDelimiter]) := by
  refine .fromOffset fun start => (spells_untilByte nameDelimiter).after ?_
  intro raw
  refine (spells_text start .nameNotText raw).imp ?_
  rintro _ written _ ⟨⟨rfl, rfl⟩, rfl⟩
  exact ⟨List.append_nil _, rfl⟩

theorem spells_name : name.Spells (.exact nameField) := by
  refine .fromOffset fun start => spells_byte.after fun opening => ?_
  split
  · next found =>
      subst found
      refine spells_nameBody.imp ?_
      rintro _ written _ ⟨rfl, rfl⟩
      exact ⟨rfl, rfl⟩
  · exact spells_failAt _ _

theorem spells_data : data.Spells (.exact textField) := by
  refine spells_length.after fun count => .fromOffset fun start => ?_
  refine ((spells_bytes count).delivered (delivers_bytes count)).bind ?_
  rintro raw _ _ ⟨length, rfl, rfl⟩
  refine (spells_text start .stringNotText raw).imp ?_
  rintro _ written _ ⟨⟨rfl, rfl⟩, same⟩
  refine ⟨?_, rfl⟩
  rw [textField, same, length, List.append_nil]

theorem spells_many {item : Decoder α} {spelling : Spelling α}
    (spells : item.Spells spelling) (count : Nat) :
    (many item count).Spells fun bytes values odd =>
      values.length = count ∧ ItemSpelling spelling bytes values odd := by
  induction count with
  | zero => exact spells_pure ⟨rfl, .nil⟩
  | succ count ih =>
      refine spells.bind fun bytes value odd first => ih.map ?_
      rintro more values others ⟨length, later⟩
      exact ⟨congrArg (· + 1) length, .cons first later⟩

theorem spells_counted {item : Decoder α} {spelling : Spelling α}
    (spells : item.Spells spelling) :
    (counted item).Spells (CountedSpelling spelling) := by
  refine (spells_length.delivered delivers_length).bind ?_
  rintro _ count _ ⟨countable, rfl, rfl⟩
  refine (spells_many spells count).imp ?_
  rintro more values others ⟨rfl, items⟩
  exact .intro countable items

theorem spells_errorCode :
    Decoder.errorCode.Spells (.exact fun code => [code.toByte]) := by
  refine .fromOffset fun start => spells_byte.after fun byte => ?_
  split
  · next code found =>
      have same := List.find?_some found
      rw [beq_iff_eq] at same
      exact spells_pure ⟨congrArg ([·]) same.symm, rfl⟩
  · exact spells_failAt _ _

theorem spells_valueKind :
    Decoder.valueKind.Spells (.exact fun kind => [kind.code]) := by
  refine .fromOffset fun start => spells_byte.after fun byte => ?_
  split
  · next kind found =>
      have same := List.find?_some found
      rw [beq_iff_eq] at same
      exact spells_pure ⟨congrArg ([·]) same.symm, rfl⟩
  · exact spells_failAt _ _

end Decoder

/-- Whether readers of parts pass over spellings of what they yield. -/
structure SpellsParts (spellings : Spellings) (parts : PartDecoders) :
    Prop where
  value : parts.value.Spells spellings.value
  operation : parts.operation.Spells spellings.operation

namespace SpellsParts

open Decoder

variable {spellings : Spellings} {parts : PartDecoders}

theorem tuplePayload (spells : SpellsParts spellings parts) :
    parts.tuplePayload.Spells (CountedSpelling spellings.value) :=
  spells_counted spells.value

theorem entry (spells : SpellsParts spellings parts) :
    parts.entry.Spells (EntrySpelling spellings) :=
  spells.value.bind fun _ _ _ key => spells.value.map fun _ _ _ value =>
    .intro key value

theorem tablePayload (spells : SpellsParts spellings parts) :
    parts.tablePayload.Spells (TableSpelling spellings) := by
  refine (spells_counted spells.entry).bind fun bytes pairs odd read => ?_
  refine @spells_pure _ _ _ (keyOddities pairs) ?_
  rw [List.append_nil]
  exact .intro read

theorem setPayload (spells : SpellsParts spellings parts) :
    parts.setPayload.Spells (SetSpelling spellings) := by
  refine (spells_counted spells.value).bind fun bytes values odd read => ?_
  refine @spells_pure _ _ _ (memberOddities values) ?_
  rw [List.append_nil]
  exact .intro read

theorem alternative (spells : SpellsParts spellings parts) :
    parts.alternative.Spells (AlternativeSpelling spellings) := by
  refine spells_boolean.bind ?_
  rintro _ _ _ ⟨byte⟩
  split
  · next flagged =>
      exact spells.operation.map fun _ _ _ read =>
        .present (bne_iff_ne.mp flagged) read
  · next absent =>
      have zero : byte = 0 := by simpa using absent
      subst zero
      exact spells_pure .absent

/-- The payload of a value, behind the marker of its form, makes a spelling
with one level more. -/
theorem valuePayload (spells : SpellsParts spellings parts)
    {form : ValueKind} {marker : UInt8}
    (marked : form.marker? = some marker) :
    (parts.valuePayload form).Spells fun bytes value odd =>
      ValueSpelling spellings (marker :: bytes) value odd := by
  cases form <;> cases marked
  case empty => exact spells_pure .empty
  case number =>
    refine ((spells_number _).delivered (delivers_number _)).map ?_
    rintro _ number _ ⟨small, rfl, rfl⟩
    have read := @ValueSpelling.number spellings (.ofNat number)
    rw [Value.encode, UInt64.toNat_ofNat_of_lt' small] at read
    exact read
  case boolean =>
    exact spells_boolean.map fun _ _ _ read => .boolean read
  case character =>
    refine ((spells_number _).delivered (delivers_number _)).map ?_
    rintro _ number _ ⟨small, rfl, rfl⟩
    have read := @ValueSpelling.character spellings (.ofNat number)
    rw [Value.encode, UInt32.toNat_ofNat_of_lt' small] at read
    exact read
  case string =>
    refine (spells_data.delivered delivers_data).map ?_
    rintro _ text _ ⟨countable, rfl, rfl⟩
    exact .string countable
  case atom =>
    refine (spells_nameBody.delivered delivers_nameBody).map ?_
    rintro _ name _ ⟨free, rfl, rfl⟩
    exact .atom free
  case error =>
    refine spells_errorCode.map ?_
    rintro _ code _ ⟨rfl, rfl⟩
    exact .error code
  case type =>
    refine spells_valueKind.map ?_
    rintro _ kind _ ⟨rfl, rfl⟩
    exact .type kind
  case tuple => exact spells.tuplePayload.map fun _ _ _ read => .tuple read
  case table => exact spells.tablePayload.map fun _ _ _ read => .table read
  case set => exact spells.setPayload.map fun _ _ _ read => .set read
  case operation =>
    exact spells.operation.map fun _ _ _ read => .operation read

/-- The payload of an operation, behind the tag of its kind, makes a spelling
with one level more. -/
theorem operationPayload (spells : SpellsParts spellings parts)
    (kind : OperationKind) :
    (parts.operationPayload kind kind).Spells fun bytes operation odd =>
      OperationSpelling spellings (tagField kind ++ bytes) operation odd := by
  have named := spells_name.delivered delivers_name
  cases kind with
  | primitive which =>
      refine @spells_pure _ _ _ [] ?_
      rw [List.append_nil]
      exact .primitive which
  | push => exact spells.value.map fun _ _ _ read => .push read
  | ifTrue => exact spells.operation.map fun _ _ _ read => .ifTrue read
  | select =>
      refine spells.tablePayload.bind fun _ _ _ read => ?_
      exact spells.alternative.map fun _ _ _ last => .select read last
  | named use =>
      refine .fromOffset fun start => named.map ?_
      rintro _ name _ ⟨free, rfl, rfl⟩
      exact .named use free
  | call =>
      refine named.bind ?_
      rintro _ target _ ⟨free, rfl, rfl⟩
      exact spells.tuplePayload.map fun _ _ _ read => .call free read
  | loadNative =>
      refine (spells_data.delivered delivers_data).map ?_
      rintro _ path _ ⟨countable, rfl, rfl⟩
      exact .loadNative countable
  | native =>
      refine named.bind ?_
      rintro _ bucket _ ⟨free, rfl, rfl⟩
      refine named.map ?_
      rintro _ name _ ⟨alsoFree, rfl, rfl⟩
      exact .native free alsoFree
  | block =>
      refine ((spells_counted spells_name).delivered
        (delivers_counted delivers_name)).bind ?_
      rintro _ slots _ ⟨⟨countable, free⟩, ⟨-, names⟩⟩
      obtain ⟨rfl, rfl⟩ := names.of_exact
      refine (spells_counted spells.operation).map fun _ _ _ read => ?_
      rw [List.append_assoc]
      exact .block countable free read
  | partialBind =>
      refine spells.value.bind fun _ _ _ first => ?_
      exact spells.operation.map fun _ _ _ second =>
        .partialBind first second

end SpellsParts

/-- In the standard dialect, the marker of a form tells the form. -/
theorem marker?_of_standard {marker : UInt8} {form : ValueKind}
    (known : Dialect.standard.valueFormOfMarker? marker = some form) :
    form.marker? = some marker := by
  obtain ⟨kind, found, formed⟩ := Option.bind_eq_some_iff.mp known
  cases formed
  have same := List.find?_some found
  exact beq_iff_eq.mp same

/-- In the standard dialect, the tag of a kind tells the kind, whose payload
has the form of the kind. -/
theorem tagField_of_standard {tag : Nat} {kind form : OperationKind}
    (small : tag < 256 ^ tagWidth)
    (known : Dialect.standard.operationFormOfTag? (UInt32.ofNat tag) =
      some (kind, form)) :
    form = kind ∧ numberField tagWidth tag = tagField kind := by
  obtain ⟨other, found, formed⟩ := Option.bind_eq_some_iff.mp known
  cases formed
  have same := List.find?_some found
  rw [tagField, beq_iff_eq.mp same, UInt32.toNat_ofNat_of_lt' small]
  exact ⟨rfl, rfl⟩

/-- What is read within some levels of nesting is spelled within them. -/
theorem spellsParts_within (levels : Nat) :
    SpellsParts (spelled levels) (PartDecoders.within .standard levels) := by
  induction levels with
  | zero =>
      exact ⟨Decoder.spells_begin.after fun _ => Decoder.spells_fail _,
        Decoder.spells_begin.after fun _ => Decoder.spells_fail _⟩
  | succ levels ih =>
      constructor
      · refine Decoder.spells_begin.after fun _ => .fromOffset fun start => ?_
        refine Decoder.spells_byte.after fun marker => ?_
        split
        · next known => exact ih.valuePayload (marker?_of_standard known)
        · exact Decoder.spells_failAt _ _
      · refine Decoder.spells_begin.after fun _ => .fromOffset fun start => ?_
        refine ((Decoder.spells_number tagWidth).delivered
          (Decoder.delivers_number tagWidth)).bind ?_
        rintro _ tag _ ⟨small, rfl, rfl⟩
        split
        · next known =>
            obtain ⟨rfl, field⟩ := tagField_of_standard small known
            rw [field]
            exact ih.operationPayload _
        · exact Decoder.spells_failAt _ _

/-- Whether readers of parts read whatever is spelled. -/
structure ReadsSpelled (parts : PartDecoders) (spellings : Spellings) :
    Prop where
  value : ∀ {bytes value odd}, spellings.value bytes value odd →
    parts.value.Reads bytes True value
  operation : ∀ {bytes operation odd},
    spellings.operation bytes operation odd →
      parts.operation.Reads bytes True operation

namespace ReadsSpelled

open Decoder

variable {parts : PartDecoders} {spellings : Spellings}

theorem counted {α : Type} {item : Decoder α} {spelling : Spelling α}
    (each : ∀ {bytes value odd}, spelling bytes value odd →
      item.Reads bytes True value) {bytes : List UInt8} {values : List α}
    {odd : List Oddity} (read : CountedSpelling spelling bytes values odd) :
    (Decoder.counted item).Reads bytes True values := by
  obtain ⟨countable, items⟩ := read
  refine (reads_length countable).after ?_
  clear countable
  induction items with
  | nil => exact reads_pure []
  | cons first later ih => exact (each first).after (ih.map _)

theorem tablePayload (reads : ReadsSpelled parts spellings)
    {bytes : List UInt8} {entries : Entries} {odd : List Oddity}
    (read : TableSpelling spellings bytes entries odd) :
    parts.tablePayload.Reads bytes True entries := by
  obtain ⟨read⟩ := read
  refine (counted ?_ read).map Entries.ofPairs
  rintro _ _ _ ⟨first, second⟩
  exact (reads.value first).after ((reads.value second).map _)

theorem setPayload (reads : ReadsSpelled parts spellings)
    {bytes : List UInt8} {members : Members} {odd : List Oddity}
    (read : SetSpelling spellings bytes members odd) :
    parts.setPayload.Reads bytes True members := by
  obtain ⟨read⟩ := read
  exact (counted reads.value read).map Members.ofValues

theorem flag {bytes : List UInt8} {truth : Bool} {odd : List Oddity}
    (read : FlagSpelling bytes truth odd) :
    boolean.Reads bytes True truth := by
  obtain ⟨byte⟩ := read
  exact (reads_byte byte).map (· != 0)

theorem alternative (reads : ReadsSpelled parts spellings)
    {bytes : List UInt8} {otherwise : Option Operation} {odd : List Oddity}
    (read : AlternativeSpelling spellings bytes otherwise odd) :
    parts.alternative.Reads bytes True otherwise := by
  cases read with
  | absent => exact (reads_boolean false).after (reads_pure none)
  | @present byte _ _ _ flagged read =>
      refine (flag (.intro byte)).after ?_
      rw [if_pos (bne_iff_ne.mpr flagged)]
      exact (reads.operation read).map some

theorem openValue {levels : Nat} (within : ReadsWithin levels parts)
    (reads : ReadsSpelled parts spellings) {bytes : List UInt8}
    {value : Value} {odd : List Oddity}
    (read : ValueSpelling spellings bytes value odd) :
    (parts.openValue .standard).Reads bytes True value := by
  have leaf {value : Value} (readable : value.Throughout readableParts)
      (single : value.nesting = 1) :
      (parts.openValue .standard).Reads value.encode True value :=
    (within.openValue value readable).congr
      (iff_true_intro (by omega))
  cases read with
  | empty => exact leaf ⟨trivial, trivial⟩ rfl
  | number word => exact leaf ⟨trivial, trivial⟩ rfl
  | boolean read =>
      exact ReadsWithin.marked .boolean rfl ((flag read).map _)
  | character code => exact leaf ⟨trivial, trivial⟩ rfl
  | string countable => exact leaf ⟨countable, trivial⟩ rfl
  | atom free => exact leaf ⟨trivial, free⟩ rfl
  | error code => exact leaf ⟨trivial, trivial⟩ rfl
  | type kind => exact leaf ⟨trivial, trivial⟩ rfl
  | tuple read =>
      exact ReadsWithin.marked .tuple rfl ((counted reads.value read).map _)
  | table read =>
      exact ReadsWithin.marked .table rfl ((reads.tablePayload read).map _)
  | set read =>
      exact ReadsWithin.marked .set rfl ((reads.setPayload read).map _)
  | operation read =>
      exact ReadsWithin.marked .operation rfl ((reads.operation read).map _)

theorem openOperation {levels : Nat} (within : ReadsWithin levels parts)
    (reads : ReadsSpelled parts spellings) {bytes : List UInt8}
    {operation : Operation} {odd : List Oddity}
    (read : OperationSpelling spellings bytes operation odd) :
    (parts.openOperation .standard).Reads bytes True operation := by
  have leaf {operation : Operation}
      (readable : operation.Throughout readableParts)
      (single : operation.nesting = 1) :
      (parts.openOperation .standard).Reads operation.encode True operation :=
    (within.openOperation operation readable).congr
      (iff_true_intro (by omega))
  cases read with
  | primitive which => exact leaf ⟨trivial, trivial⟩ rfl
  | push read => exact ReadsWithin.tagged .push ((reads.value read).map _)
  | ifTrue read =>
      exact ReadsWithin.tagged .ifTrue ((reads.operation read).map _)
  | select read last =>
      exact ReadsWithin.tagged .select ((reads.tablePayload read).after
        ((reads.alternative last).map _))
  | named use free => exact leaf ⟨trivial, free⟩ rfl
  | call free read =>
      exact ReadsWithin.tagged .call ((reads_name free).after
        ((counted reads.value read).map _))
  | loadNative countable => exact leaf ⟨countable, trivial⟩ rfl
  | native free alsoFree => exact leaf ⟨trivial, free, alsoFree⟩ rfl
  | block countable free read =>
      rw [← List.append_assoc (lengthField _)]
      have names := (reads_counted countable fun slot member =>
        reads_name (free slot member)).congr
          (iff_true_intro fun _ _ => trivial)
      exact ReadsWithin.tagged .block (names.after
        ((counted reads.operation read).map _))
  | partialBind first second =>
      exact ReadsWithin.tagged .partialBind ((reads.value first).after
        ((reads.operation second).map _))

end ReadsSpelled

/-- What is spelled within some levels of nesting is read within them. -/
theorem readsSpelled_within (levels : Nat) :
    ReadsSpelled (PartDecoders.within .standard levels) (spelled levels) := by
  induction levels with
  | zero => exact ⟨nofun, nofun⟩
  | succ levels ih =>
      have within := readsWithin levels
      exact ⟨ih.openValue within, ih.openOperation within⟩

/-- Whether the spellings of a value are exactly the bytes from which it is
decoded. -/
def Accepts {α : Type} (decoder : Decoder α) (spelling : Spelling α) : Prop :=
  ∀ bytes value,
    (∃ next, decoder (.ofBytes bytes) = .ok value next ∧ next.rest = []) ↔
      ∃ odd, spelling bytes value odd

/-- Whether what is decoded has a normal form: written again, it is decoded
again, from no more bytes, and from the same bytes unless something odd was
read. -/
def Normalises {α : Type} (decoder : Decoder α) (write : α → List UInt8)
    (spelling : Spelling α) : Prop :=
  ∀ bytes value next, decoder (.ofBytes bytes) = .ok value next →
    (∃ again, decoder (.ofBytes (write value)) = .ok value again ∧
      again.offset = (write value).length ∧ again.rest = []) ∧
    (write value).length ≤ next.offset ∧
    (∃ odd, spelling (bytes.take next.offset) value odd) ∧
    ∀ odd, spelling (bytes.take next.offset) value odd →
      (write value = bytes.take next.offset ↔ odd = [])

section Decoded

variable {α : Type} {decoder : Decoder α} {write : α → List UInt8}
  {spelling : Spelling α} {accepted : α → Prop}

theorem Decoder.Reads.ends {bytes : List UInt8} {value : α}
    (reading : decoder.Reads bytes True value) :
    ∃ next, decoder (.ofBytes bytes) = .ok value next ∧
      next.offset = bytes.length ∧ next.rest = [] := by
  obtain ⟨reads, run⟩ :=
    (reading (.ofBytes bytes) [] (List.append_nil bytes).symm).1 trivial
  exact ⟨_, run, Nat.zero_add _, rfl⟩

theorem Decoder.Spells.accepts (spells : decoder.Spells spelling)
    (reads : ∀ {bytes value odd}, spelling bytes value odd →
      decoder.Reads bytes True value) : Accepts decoder spelling := by
  intro bytes value
  constructor
  · rintro ⟨next, run, ended⟩
    obtain ⟨passed, odd, split, spelled⟩ := spells _ value next run
    rw [ended, List.append_nil] at split
    change bytes = passed at split
    exact ⟨odd, split ▸ spelled⟩
  · rintro ⟨odd, spelled⟩
    obtain ⟨next, run, -, ended⟩ := (reads spelled).ends
    exact ⟨next, run, ended⟩

theorem Decoder.Spells.normalises (spells : decoder.Spells spelling)
    (delivers : decoder.Delivers accepted)
    (restores : ∀ value, accepted value →
      decoder.Reads (write value) True value)
    (tidied : spelling.TidiedBy write) :
    Normalises decoder write spelling := by
  intro bytes value next run
  obtain ⟨holds, passed, split, steady⟩ := delivers _ value next run
  have place := Decoder.Delivers.eq_past run split steady
  have offset : next.offset = passed.length :=
    (congrArg ByteReader.offset place).trans (Nat.zero_add _)
  obtain ⟨same, odd, splitSame, spelled⟩ := spells _ value next run
  obtain rfl : same = passed :=
    List.append_cancel_right (splitSame.symm.trans split)
  have consumed : bytes.take next.offset = same := by
    change bytes = same ++ next.rest at split
    rw [offset, split, List.take_left]
  rw [consumed, offset]
  refine ⟨(restores value holds).ends, (tidied _ _ _ spelled).1,
    ⟨odd, spelled⟩, fun other also => (tidied _ _ _ also).2⟩

end Decoded

/-- Values and operations are decoded from exactly their spellings, and
whatever bytes they are decoded from, they have a normal form. -/
theorem decoding_yields_normal_form :
    (Accepts (decodeValue .standard) (spelled maxNesting).value ∧
      Normalises (decodeValue .standard) Value.encode
        (spelled maxNesting).value) ∧
    (Accepts (decodeOperation .standard) (spelled maxNesting).operation ∧
      Normalises (decodeOperation .standard) Operation.encode
        (spelled maxNesting).operation) := by
  have spells := spellsParts_within maxNesting
  have reads := readsSpelled_within maxNesting
  have delivers := deliversWithin .standard maxNesting
  have within := readsWithin maxNesting
  have tidied := tidied_spelled maxNesting
  constructor
  · refine ⟨spells.value.accepts reads.value, ?_⟩
    refine spells.value.normalises delivers.value ?_ tidied.value
    rintro value ⟨readable, fits⟩
    exact (within.value value readable).congr (iff_true_intro fits)
  · refine ⟨spells.operation.accepts reads.operation, ?_⟩
    refine spells.operation.normalises delivers.operation ?_ tidied.operation
    rintro operation ⟨readable, fits⟩
    exact (within.operation operation readable).congr (iff_true_intro fits)

/-- A set of two truth values, spelled with different bytes for truth and
followed by another byte. -/
def oddSet : List UInt8 :=
  [0x55, 0, 0, 0, 0, 0, 0, 0, 2, 0x3f, 7, 0x3f, 1, 0xff]

theorem odd_set_normalised :
    ∃ next, decodeValue .standard (.ofBytes oddSet) =
        .ok (.set [.boolean true]) next ∧ next.offset = 13 ∧
      (∃ again, decodeValue .standard
          (.ofBytes (Value.set [.boolean true]).encode) =
            .ok (.set [.boolean true]) again ∧
        again.offset = 11 ∧ again.rest = []) ∧
      ∃ odd, odd ≠ [] ∧ (spelled maxNesting).value (oddSet.take 13)
        (.set [.boolean true]) odd := by
  have run : decodeValue .standard (.ofBytes oddSet) =
      .ok (.set [.boolean true])
        { offset := 13, rest := [0xff], depth := 0, reads := 3 } := rfl
  have normal := decoding_yields_normal_form.1.2 oddSet _ _ run
  obtain ⟨again, shorter, ⟨odd, spelled⟩, same⟩ := normal
  refine ⟨_, run, rfl, again, odd, ?_, spelled⟩
  intro none
  have written := (same odd spelled).mpr none
  exact absurd written (by decide)

end Image
end StackAssembly
