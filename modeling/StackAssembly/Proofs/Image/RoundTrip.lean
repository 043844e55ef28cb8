import StackAssembly.HostError
import StackAssembly.Image.Decode
import StackAssembly.Image.Encode
import StackAssembly.Proofs.Image.Reading
import StackAssembly.Proofs.Value.WellFormed

/-!
# Images are read back

Every well-formed value whose names do not contain the delimiter is read from
its bytes, whatever follows them, exactly when it nests no deeper than the
readers allow.  The proof goes up level by level: readers of parts that read
everything within some levels make readers of values and operations that read
everything within one level more.
-/

namespace StackAssembly
namespace Image

open Decoder

theorem encodeItems_eq_flatMap (values : List Value) :
    encodeItems values = values.flatMap Value.encode := by
  induction values with
  | nil => rfl
  | cons value values ih => rw [encodeItems, ih, List.flatMap_cons]

theorem encodeEntries_eq_flatMap (entries : List (Value × Value)) :
    encodeEntries entries =
      entries.flatMap fun entry => entry.1.encode ++ entry.2.encode := by
  induction entries with
  | nil => rfl
  | cons entry entries ih =>
      obtain ⟨key, value⟩ := entry
      rw [encodeEntries, ih, List.flatMap_cons, List.append_assoc]

theorem encodeOperations_eq_flatMap (operations : List Operation) :
    encodeOperations operations = operations.flatMap Operation.encode := by
  induction operations with
  | nil => rfl
  | cons operation operations ih =>
      rw [encodeOperations, ih, List.flatMap_cons]

theorem reads_errorCode (code : ErrorCode) :
    Decoder.errorCode.Reads [code.toByte] True code := by
  refine .fromOffset fun start => (reads_byte code.toByte).after ?_
  cases code <;> exact reads_pure _

theorem reads_valueKind (kind : ValueKind) :
    Decoder.valueKind.Reads [kind.code] True kind := by
  refine .fromOffset fun start => (reads_byte kind.code).after ?_
  cases kind <;> exact reads_pure _

theorem reads_begin : Decoder.begin.Reads [] True () :=
  .always fun reader suffix here => ⟨reader.reads + 1, by
    rw [List.nil_append] at here
    subst here
    rfl⟩

/-- The condition on the parts of what an image can hold. -/
def readableParts : PartCondition :=
  .and .wellFormed (.names DelimiterFree)

/-- Whether readers of parts read everything within some levels of nesting,
and complain about nesting otherwise. -/
structure ReadsWithin (levels : Nat) (parts : PartDecoders) : Prop where
  value : ∀ value : Value, value.Throughout readableParts →
    parts.value.Reads value.encode (value.nesting ≤ levels) value
  operation : ∀ operation : Operation, operation.Throughout readableParts →
    parts.operation.Reads operation.encode (operation.nesting ≤ levels)
      operation

namespace ReadsWithin

variable {levels : Nat} {parts : PartDecoders}

theorem tuplePayload (within : ReadsWithin levels parts) {items : List Value}
    (countable : Countable items.length)
    (readable : itemsThroughout readableParts items) :
    parts.tuplePayload.Reads (lengthField items.length ++ encodeItems items)
      (itemsNesting items ≤ levels) items := by
  rw [encodeItems_eq_flatMap]
  rw [itemsThroughout_iff] at readable
  exact (reads_counted countable fun item member =>
    within.value item (readable item member)).congr itemsNesting_le_iff.symm

theorem entry (within : ReadsWithin levels parts) {entry : Value × Value}
    (readable : entry.1.Throughout readableParts ∧
      entry.2.Throughout readableParts) :
    parts.entry.Reads (entry.1.encode ++ entry.2.encode)
      (entry.1.nesting ≤ levels ∧ entry.2.nesting ≤ levels) entry :=
  (within.value entry.1 readable.1).bind
    ((within.value entry.2 readable.2).map fun value => (entry.1, value))

theorem tablePayload (within : ReadsWithin levels parts)
    {entries : List (Value × Value)}
    (sound : Countable entries.length ∧ Entries.Distinct entries)
    (readable : entriesThroughout readableParts entries) :
    parts.tablePayload.Reads
      (lengthField entries.length ++ encodeEntries entries)
      (entriesNesting entries ≤ levels) entries := by
  rw [encodeEntries_eq_flatMap]
  rw [entriesThroughout_iff] at readable
  have reading := (reads_counted sound.1 fun entry member =>
    within.entry (readable entry member)).map Entries.ofPairs
  rw [Entries.ofPairs_of_distinct sound.2] at reading
  exact reading.congr entriesNesting_le_iff.symm

theorem setPayload (within : ReadsWithin levels parts) {members : List Value}
    (sound : Countable members.length ∧ Members.Distinct members)
    (readable : itemsThroughout readableParts members) :
    parts.setPayload.Reads
      (lengthField members.length ++ encodeItems members)
      (itemsNesting members ≤ levels) members := by
  have reading := (within.tuplePayload sound.1 readable).map Members.ofValues
  rw [Members.ofValues_of_distinct sound.2] at reading
  exact reading

theorem alternative (within : ReadsWithin levels parts)
    {otherwise : Option Operation}
    (readable : alternativeThroughout readableParts otherwise) :
    parts.alternative.Reads (encodeAlternative otherwise)
      (alternativeNesting otherwise ≤ levels) otherwise := by
  cases otherwise with
  | none =>
      exact ((reads_boolean false).after (reads_pure none)).congr
        (by simp [alternativeNesting])
  | some operation =>
      exact (reads_boolean true).after
        ((within.operation operation readable).map some)

theorem blockPayload (within : ReadsWithin levels parts)
    {slots : List String} {operations : List Operation}
    (countable : Countable slots.length ∧ Countable operations.length)
    (free : ∀ slot ∈ slots, DelimiterFree slot)
    (readable : operationsThroughout readableParts operations) :
    parts.blockPayload.Reads
      (lengthField slots.length ++ (slots.flatMap nameField ++
        (lengthField operations.length ++ encodeOperations operations)))
      (operationsNesting operations ≤ levels)
      (.block slots operations) := by
  rw [encodeOperations_eq_flatMap, ← List.append_assoc]
  rw [operationsThroughout_iff] at readable
  have names := (reads_counted countable.1 fun slot member =>
    reads_name (free slot member)).congr (iff_true_intro fun _ _ => trivial)
  have body := (reads_counted countable.2 fun operation member =>
    within.operation operation (readable operation member)).map
      (Operation.block slots)
  exact (names.after body).congr operationsNesting_le_iff.symm


/-- A value is read from its marker and its payload. -/
theorem marked (form : ValueKind) {marker : UInt8} {bytes : List UInt8}
    {fits : Prop} {value : Value}
    (known : Dialect.standard.valueFormOfMarker? marker = some form)
    (payload : (parts.valuePayload form).Reads bytes fits value) :
    (parts.openValue .standard).Reads (marker :: bytes) fits value := by
  refine reads_begin.after (.fromOffset fun start =>
    (reads_byte marker).after ?_)
  rw [known]
  exact payload

theorem ofTag?_tag (kind : OperationKind) :
    OperationKind.ofTag? (UInt32.ofNat kind.tag.toNat) = some kind := by
  rcases kind with which | _ | _ | _ | use | _ | _ | _ | _ | _
  · cases which <;> decide
  all_goals first | decide | (cases use <;> decide)

/-- An operation is read from its tag and its payload. -/
theorem tagged (kind : OperationKind) {bytes : List UInt8} {fits : Prop}
    {operation : Operation}
    (payload : (parts.operationPayload kind kind).Reads bytes fits operation) :
    (parts.openOperation .standard).Reads (tagField kind ++ bytes) fits
      operation := by
  have tag : (Decoder.number tagWidth).Reads (tagField kind) True
      kind.tag.toNat := by
    have reading := @reads_number tagWidth (by decide) (by decide)
      kind.tag.toNat
    rw [Nat.mod_eq_of_lt (by simpa [tagWidth] using kind.tag.toNat_lt)]
      at reading
    exact reading
  have known : Dialect.standard.operationFormOfTag?
      (UInt32.ofNat kind.tag.toNat) = some (kind, kind) := by
    rw [Dialect.operationFormOfTag?, ofTag?_tag]
    rfl
  refine reads_begin.after (.fromOffset fun start => tag.after ?_)
  rw [known]
  exact payload

/-- A value whose parts are read is read within one level more. -/
theorem openValue (within : ReadsWithin levels parts) (value : Value)
    (readable : value.Throughout readableParts) :
    (parts.openValue .standard).Reads value.encode
      (value.nesting ≤ levels + 1) value := by
  have leaf : value.nesting = 1 → (True ↔ value.nesting ≤ levels + 1) := by
    intro single
    simp [single]
  cases value with
  | empty => exact (marked .empty rfl (reads_pure _)).congr (leaf rfl)
  | number word =>
      have payload := (@reads_number numberWidth (by decide) (by decide)
        word.toNat).map fun number => Value.number (UInt64.ofNat number)
      rw [Nat.mod_eq_of_lt (by simpa [numberWidth] using word.toNat_lt),
        UInt64.ofNat_toNat] at payload
      exact (marked .number rfl payload).congr (leaf rfl)
  | boolean truth =>
      have payload := (reads_boolean truth).map Value.boolean
      exact (marked .boolean rfl payload).congr (leaf rfl)
  | character code =>
      have payload := (@reads_number characterWidth (by decide) (by decide)
        code.toNat).map fun number => Value.character (UInt32.ofNat number)
      rw [Nat.mod_eq_of_lt (by simpa [characterWidth] using code.toNat_lt),
        UInt32.ofNat_toNat] at payload
      exact (marked .character rfl payload).congr (leaf rfl)
  | string text =>
      have payload := (reads_data readable.1).map Value.string
      exact (marked .string rfl payload).congr (leaf rfl)
  | atom name =>
      -- The opening delimiter of the name is the marker.
      have payload := (reads_nameBody readable.2).map Value.atom
      exact (marked .atom rfl payload).congr (leaf rfl)
  | error code =>
      have payload := (reads_errorCode code).map Value.error
      exact (marked .error rfl payload).congr (leaf rfl)
  | type kind =>
      have payload := (reads_valueKind kind).map Value.type
      exact (marked .type rfl payload).congr (leaf rfl)
  | tuple items =>
      have payload := within.tuplePayload readable.1.1 readable.2
      exact (marked .tuple rfl (payload.map Value.tuple)).congr
        Nat.add_le_add_iff_right.symm
  | table entries =>
      have payload := within.tablePayload readable.1.1 readable.2
      exact (marked .table rfl (payload.map Value.table)).congr
        Nat.add_le_add_iff_right.symm
  | set members =>
      have payload := within.setPayload readable.1.1 readable.2
      exact (marked .set rfl (payload.map Value.set)).congr
        Nat.add_le_add_iff_right.symm
  | operation body =>
      have payload := within.operation body readable.2
      exact (marked .operation rfl (payload.map Value.operation)).congr
        Nat.add_le_add_iff_right.symm

/-- An operation whose parts are read is read within one level more. -/
theorem openOperation (within : ReadsWithin levels parts)
    (operation : Operation)
    (readable : operation.Throughout readableParts) :
    (parts.openOperation .standard).Reads operation.encode
      (operation.nesting ≤ levels + 1) operation := by
  have leaf : operation.nesting = 1 →
      (True ↔ operation.nesting ≤ levels + 1) := by
    intro single
    simp [single]
  cases operation with
  | primitive which =>
      have reading := tagged (.primitive which)
        (show (parts.operationPayload (.primitive which)
            (.primitive which)).Reads [] True (Operation.primitive which)
          from reads_pure (Operation.primitive which))
      rw [List.append_nil] at reading
      exact reading.congr (leaf rfl)
  | push value =>
      have payload := within.value value readable.2
      exact (tagged .push (payload.map Operation.push)).congr
        Nat.add_le_add_iff_right.symm
  | ifTrue body =>
      have payload := within.operation body readable.2
      exact (tagged .ifTrue (payload.map Operation.ifTrue)).congr
        Nat.add_le_add_iff_right.symm
  | select cases otherwise =>
      have table := within.tablePayload readable.1.1 readable.2.1
      have fallback := within.alternative readable.2.2
      rw [Operation.encode, ← List.append_assoc (lengthField cases.length)]
      refine (tagged .select (table.bind
        (fallback.map (Operation.select cases)))).congr ?_
      simp only [Operation.nesting, Nat.add_le_add_iff_right, Nat.max_le]
  | named use name =>
      have payload : (parts.operationPayload (.named use) (.named use)).Reads
          (nameField name) True (.named use name) :=
        .fromOffset fun start =>
          (reads_name readable.2).map (Operation.named use)
      exact (tagged (.named use) payload).congr (leaf rfl)
  | call target arguments =>
      have payload := within.tuplePayload readable.1.1 readable.2
      exact (tagged .call ((reads_name readable.1.2).after
        (payload.map (Operation.call target)))).congr
          Nat.add_le_add_iff_right.symm
  | loadNative path =>
      have payload := (reads_data readable.1).map Operation.loadNative
      exact (tagged .loadNative payload).congr (leaf rfl)
  | native bucket name =>
      exact (tagged .native ((reads_name readable.2.1).after
        ((reads_name readable.2.2).map (Operation.native bucket)))).congr
          (leaf rfl)
  | block slots operations =>
      have payload := within.blockPayload readable.1.1 readable.1.2 readable.2
      exact (tagged .block payload).congr Nat.add_le_add_iff_right.symm
  | partialBind value callable =>
      refine (tagged .partialBind ((within.value value readable.2.1).bind
        ((within.operation callable readable.2.2).map
          (Operation.partialBind value)))).congr ?_
      simp only [Operation.nesting, Nat.add_le_add_iff_right, Nat.max_le]

end ReadsWithin

/-- The readers of parts read everything within their levels of nesting. -/
theorem readsWithin (levels : Nat) :
    ReadsWithin levels (PartDecoders.within .standard levels) := by
  induction levels with
  | zero =>
      have refused {α : Type} (bytes : List UInt8) {nesting : Nat} (value : α)
          (positive : 0 < nesting) :
          Reads Decoder.refuse bytes (nesting ≤ 0) value := by
        intro reader suffix here
        refine ⟨fun none => by omega, fun _ => ?_⟩
        exact ⟨_, _, rfl, rfl, rfl⟩
      exact ⟨fun value _ => refused _ value value.nesting_pos,
        fun operation _ => refused _ operation operation.nesting_pos⟩
  | succ levels ih => exact ⟨ih.openValue, ih.openOperation⟩

theorem Value.throughout_readableParts {value : Value}
    (wellFormed : value.WellFormed) (free : value.NamesAre DelimiterFree) :
    value.Throughout readableParts :=
  StackAssembly.Value.Throughout.combine (PartCondition.follows_and _ _) value
    wellFormed free

theorem Operation.throughout_readableParts {operation : Operation}
    (wellFormed : operation.WellFormed)
    (free : operation.NamesAre DelimiterFree) :
    operation.Throughout readableParts :=
  StackAssembly.Operation.Throughout.combine (PartCondition.follows_and _ _)
    operation wellFormed free

/-- Whether a decoder, at the start of given bytes and whatever follows them,
yields a value and stops behind the bytes if the value nests no deeper than
allowed, and complains about nesting if it does. -/
def Restores {α : Type} (decoder : Decoder α) (bytes : List UInt8)
    (nesting : Nat) (value : α) : Prop :=
  ∀ suffix,
    (nesting ≤ maxNesting →
      ∃ next, decoder (.ofBytes (bytes ++ suffix)) = .ok value next ∧
        next.offset = bytes.length ∧ next.rest = suffix ∧ next.depth = 0) ∧
    (maxNesting < nesting →
      ∃ failure next,
        decoder (.ofBytes (bytes ++ suffix)) = .error failure next ∧
          HostError.ofDecodeError failure =
            { failure := .decode failure.offset "nesting too deep" })

theorem Decoder.Reads.restores {α : Type} {decoder : Decoder α}
    {bytes : List UInt8} {nesting : Nat} {value : α}
    (reading : decoder.Reads bytes (nesting ≤ maxNesting) value) :
    Restores decoder bytes nesting value := by
  intro suffix
  obtain ⟨done, refused⟩ := reading (.ofBytes (bytes ++ suffix)) suffix rfl
  constructor
  · intro fits
    obtain ⟨reads, run⟩ := done fits
    exact ⟨_, run, Nat.zero_add _, rfl, rfl⟩
  · intro deeper
    obtain ⟨failure, next, run, tooDeep, unnamed⟩ :=
      refused (Nat.not_le.mpr deeper)
    refine ⟨failure, next, run, ?_⟩
    rw [HostError.ofDecodeError, tooDeep, unnamed]
    rfl

/-- Every well-formed value and every well-formed operation whose names do not
contain the delimiter is restored from its bytes, exactly if it nests no
deeper than allowed. -/
theorem decode_restores_encode :
    (∀ value : Value, value.WellFormed → value.NamesAre DelimiterFree →
      Restores (decodeValue .standard) value.encode value.nesting value) ∧
    (∀ operation : Operation, operation.WellFormed →
      operation.NamesAre DelimiterFree →
        Restores (decodeOperation .standard) operation.encode
          operation.nesting operation) := by
  have within := readsWithin maxNesting
  constructor
  · intro value wellFormed free
    exact (within.value value
      (Value.throughout_readableParts wellFormed free)).restores
  · intro operation wellFormed free
    exact (within.operation operation
      (Operation.throughout_readableParts wellFormed free)).restores

/-- A block that mentions names of every sort and holds parts of most. -/
def mixedBlock : Operation :=
  .block ["$a", "b"]
    [.select [(.empty, .type .set)] (some (.named .load "$a")),
      .call "f" [.string "it's", .set [.number 1, .boolean true]],
      .native "io" "print",
      .partialBind (.atom "k") (.loadNative "cairn/io")]

theorem mixedBlock_restored_in_table :
    (mixedBlock.WellFormed ∧ mixedBlock.NamesAre DelimiterFree) ∧
    Restores (decodeOperation .standard) mixedBlock.encode 4 mixedBlock ∧
    Restores (decodeValue .standard)
      (Value.table [(.atom "m", .operation mixedBlock)]).encode 6
      (.table [(.atom "m", .operation mixedBlock)]) := by
  have wellFormed : mixedBlock.WellFormed := by
    simp only [mixedBlock, Operation.WellFormed, Operation.Throughout,
      Value.Throughout, PartCondition.wellFormed, PartCondition.sized,
      itemsThroughout, entriesThroughout, alternativeThroughout,
      operationsThroughout]
    decide
  have free : mixedBlock.NamesAre DelimiterFree := by
    simp only [mixedBlock, Operation.NamesAre, Operation.Throughout,
      Value.Throughout, PartCondition.names, itemsThroughout,
      entriesThroughout, alternativeThroughout, operationsThroughout]
    decide
  refine ⟨⟨wellFormed, free⟩,
    decode_restores_encode.2 mixedBlock wellFormed free,
    decode_restores_encode.1 (.table [(.atom "m", .operation mixedBlock)])
      ⟨⟨by decide, by decide⟩, ⟨trivial, trivial, wellFormed⟩, trivial⟩
      ⟨trivial, ⟨by show DelimiterFree "m"; decide, trivial, free⟩, trivial⟩⟩

end Image
end StackAssembly
