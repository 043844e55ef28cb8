import Mathlib.Data.List.TakeWhile
import StackAssembly.Proofs.Image.RoundTrip

/-!
# What decoders deliver

Whatever the bytes are and whatever the dialect is, a decoder delivers only
values that a program can build, whose names stand between delimiters and
which nest no deeper than allowed.  Decoders go by the bytes that they pass
over alone: with other bytes behind these, a decoder delivers the same value
and stops at the same place.  So nothing that was cut short is read as if it
were whole.
-/

namespace StackAssembly
namespace Image

/-- The reader at the same place, with other bytes in front of it. -/
def ByteReader.facing (reader : ByteReader) (bytes : List UInt8) :
    ByteReader :=
  { reader with rest := bytes }

theorem ByteReader.facing_past (reader : ByteReader)
    (bytes suffix rest : List UInt8) (reads : Nat) :
    (reader.past bytes suffix reads).facing rest =
      reader.past bytes rest reads :=
  rfl

namespace Decoder

variable {α β : Type}

/-- Whether a decoder delivers only values with a property, each from bytes
that it reads in the same way whatever follows them. -/
def Delivers (decoder : Decoder α) (accepted : α → Prop) : Prop :=
  ∀ reader value next, decoder reader = .ok value next →
    accepted value ∧
    ∃ bytes, reader.rest = bytes ++ next.rest ∧
      ∀ suffix, decoder (reader.facing (bytes ++ suffix)) =
        .ok value (reader.past bytes suffix next.reads)

/-- The reader behind what was delivered has passed over it. -/
theorem Delivers.eq_past {decoder : Decoder α} {reader next : ByteReader}
    {value : α} {bytes : List UInt8}
    (run : decoder reader = .ok value next)
    (split : reader.rest = bytes ++ next.rest)
    (same : ∀ suffix, decoder (reader.facing (bytes ++ suffix)) =
      .ok value (reader.past bytes suffix next.reads)) :
    next = reader.past bytes next.rest next.reads := by
  have again := same next.rest
  rw [← split] at again
  exact (EStateM.Result.ok.inj (run.symm.trans again)).2

theorem Delivers.imp {decoder : Decoder α} {accepted weaker : α → Prop}
    (delivers : decoder.Delivers accepted)
    (implies : ∀ value, accepted value → weaker value) :
    decoder.Delivers weaker := by
  intro reader value next run
  obtain ⟨holds, steady⟩ := delivers reader value next run
  exact ⟨implies value holds, steady⟩

theorem delivers_pure {accepted : α → Prop} {value : α}
    (holds : accepted value) : Delivers (pure value) accepted := by
  rintro reader _ _ ⟨⟩
  exact ⟨holds, [], rfl, fun suffix => rfl⟩

/-- Nothing is delivered where a defect is reported. -/
theorem delivers_failAt {accepted : α → Prop} (start : Nat)
    (defect : Defect) : (failAt start defect).Delivers accepted := by
  rintro reader value next ⟨⟩

theorem delivers_fail {accepted : α → Prop} (defect : Defect) :
    (fail defect).Delivers accepted := by
  rintro reader value next ⟨⟩

/-- A decoder may go on with what another one delivers. -/
theorem Delivers.bind {first : Decoder α} {later : α → Decoder β}
    {accepted : α → Prop} {acceptedLater : β → Prop}
    (one : first.Delivers accepted)
    (two : ∀ value, accepted value →
      (later value).Delivers acceptedLater) :
    (first >>= later).Delivers acceptedLater := by
  intro reader result next run
  obtain ⟨value, middle, ran, goesOn⟩ := exists_of_bind_ok run
  obtain ⟨holds, bytes, split, same⟩ := one reader value middle ran
  obtain ⟨holdsLater, more, splitLater, sameLater⟩ :=
    two value holds middle result next goesOn
  refine ⟨holdsLater, bytes ++ more, ?_, fun suffix => ?_⟩
  · rw [split, splitLater, List.append_assoc]
  · rw [List.append_assoc, bind_of_ok (same (more ++ suffix))]
    have behind := sameLater suffix
    rw [Delivers.eq_past ran split same, ByteReader.facing_past,
      ByteReader.past_past] at behind
    exact behind

/-- What is made of an accepted value is accepted. -/
theorem Delivers.map {decoder : Decoder α} {accepted : α → Prop}
    {acceptedLater : β → Prop} (delivers : decoder.Delivers accepted)
    {make : α → β} (makes : ∀ value, accepted value →
      acceptedLater (make value)) :
    Delivers (do return make (← decoder)) acceptedLater :=
  delivers.bind fun value holds => delivers_pure (makes value holds)

/-- A decoder may note its place before it reads. -/
theorem Delivers.fromOffset {later : Nat → Decoder α} {accepted : α → Prop}
    (delivers : ∀ start, (later start).Delivers accepted) :
    (offset >>= later).Delivers accepted :=
  fun reader => delivers reader.offset reader

theorem delivers_begin : Decoder.begin.Delivers fun _ => True := by
  rintro reader _ _ ⟨⟩
  exact ⟨trivial, [], rfl, fun suffix => rfl⟩

/-- What is passed over byte by byte is passed over whatever follows. -/
theorem steady_of_skip {decoder : Decoder α} {value : α}
    {bytes rest : List UInt8} {reader : ByteReader}
    (split : reader.rest = bytes ++ rest)
    (skips : ∀ {other : ByteReader} {suffix : List UInt8},
      other.rest = bytes ++ suffix →
        decoder other = .ok value (other.skip bytes.length)) :
    ∃ passed, reader.rest = passed ++ (reader.skip bytes.length).rest ∧
      ∀ suffix, decoder (reader.facing (passed ++ suffix)) =
        .ok value (reader.past passed suffix
          (reader.skip bytes.length).reads) := by
  refine ⟨bytes, ?_, fun suffix => ?_⟩
  · rw [ByteReader.skip_eq_past split, split]
    rfl
  · rw [skips rfl, ByteReader.skip_eq_past rfl]
    rfl

theorem delivers_byte : byte.Delivers fun _ => True := by
  intro reader value next run
  rw [byte_eq] at run
  match here : reader.rest with
  | [] =>
      rw [here] at run
      cases run
  | found :: rest =>
      rw [here] at run
      cases run
      have steady := @steady_of_skip _ byte _ [value] rest reader here
        byte_of_cons
      rw [here] at steady
      exact ⟨trivial, steady⟩

/-- Bytes are delivered as many as asked for. -/
theorem delivers_bytes (count : Nat) :
    (bytes count).Delivers fun raw => raw.length = count := by
  intro reader raw next run
  rw [bytes_eq] at run
  split at run
  · cases run
  · next enough =>
      cases run
      have length : (reader.rest.take count).length = count := by
        rw [List.length_take] at enough ⊢
        omega
      have steady := steady_of_skip
        (List.take_append_drop count reader.rest).symm bytes_of_append
      rw [length] at steady
      exact ⟨length, steady⟩

/-- Behind what precedes a delimiter there is nothing, or the delimiter. -/
theorem exists_behind_takeWhile {delimiter : UInt8} {bytes : List UInt8}
    (more : bytes.drop (bytes.takeWhile (· != delimiter)).length ≠ []) :
    ∃ rest, bytes =
      bytes.takeWhile (· != delimiter) ++ delimiter :: rest := by
  induction bytes with
  | nil => exact absurd rfl more
  | cons byte bytes ih =>
      by_cases found : byte = delimiter
      · exact ⟨bytes, by simp [found]⟩
      · have passed : (byte != delimiter) = true := bne_iff_ne.mpr found
        rw [List.takeWhile_cons_of_pos (p := (· != delimiter)) passed]
          at more ⊢
        obtain ⟨rest, split⟩ := ih more
        exact ⟨rest, by rw [List.cons_append, ← split]⟩

/-- What stands in front of a delimiter does not contain it. -/
theorem delivers_untilByte (delimiter : UInt8) :
    (untilByte delimiter).Delivers fun raw => delimiter ∉ raw := by
  intro reader raw next run
  have free : delimiter ∉ reader.rest.takeWhile (· != delimiter) := by
    intro member
    have apart := List.mem_takeWhile_imp member
    exact bne_iff_ne.mp apart rfl
  rw [untilByte_eq] at run
  split at run
  · cases run
  · next more =>
      obtain ⟨rest, split⟩ := exists_behind_takeWhile
        (mt List.isEmpty_iff.mpr more)
      cases run
      have steady := @steady_of_skip _ (untilByte delimiter) _
        (reader.rest.takeWhile (· != delimiter) ++ [delimiter]) rest reader
        (by rw [List.append_assoc]; exact split)
        fun {other suffix} here => by
          rw [untilByte_of_append free (by rw [here, List.append_assoc]; rfl),
            List.length_append]
          rfl
      rw [List.length_append] at steady
      exact ⟨free, steady⟩

/-- A number is less than its width allows. -/
theorem delivers_number (width : Nat) :
    (Decoder.number width).Delivers fun number => number < 256 ^ width := by
  rw [Decoder.number]
  split
  · exact delivers_fail _
  · exact (delivers_bytes width).map fun raw length =>
      length ▸ numberOfBytes_lt raw

/-- A 64-bit word expresses every length that is delivered. -/
theorem delivers_length : Decoder.length.Delivers Countable :=
  (delivers_number numberWidth).imp fun _ small => small

theorem delivers_boolean : boolean.Delivers fun _ => True :=
  delivers_byte.map fun _ _ => trivial

/-- A text has the bytes that denote it. -/
theorem delivers_text (start : Nat) (defect : Defect) (raw : List UInt8) :
    (text start defect raw).Delivers fun written =>
      textBytes written = raw := by
  rw [text]
  split
  · next written denoted =>
      exact delivers_pure (textBytes_of_fromUTF8? denoted)
  · exact delivers_failAt _ _

theorem delivers_nameBody : nameBody.Delivers DelimiterFree := by
  refine .fromOffset fun start => ?_
  refine (delivers_untilByte nameDelimiter).bind fun raw free => ?_
  refine (delivers_text start .nameNotText raw).imp fun written same => ?_
  rw [DelimiterFree, same]
  exact free

/-- A name stands between delimiters. -/
theorem delivers_name : name.Delivers DelimiterFree := by
  refine .fromOffset fun start => delivers_byte.bind fun opening _ => ?_
  split
  · exact delivers_nameBody
  · exact delivers_failAt _ _

/-- A 64-bit word expresses the length of a text. -/
theorem delivers_data : data.Delivers CountableText := by
  refine delivers_length.bind fun count countable => ?_
  refine .fromOffset fun start => ?_
  refine (delivers_bytes count).bind fun raw length => ?_
  refine (delivers_text start .stringNotText raw).imp fun written same => ?_
  rw [CountableText, same, length]
  exact countable

/-- Items are delivered as many as stated, each of them accepted. -/
theorem delivers_many {item : Decoder α} {accepted : α → Prop}
    (delivers : item.Delivers accepted) (count : Nat) :
    (many item count).Delivers fun items =>
      items.length = count ∧ ∀ one ∈ items, accepted one := by
  induction count with
  | zero => exact delivers_pure ⟨rfl, nofun⟩
  | succ count ih =>
      refine delivers.bind fun first holds => ih.map fun later each => ?_
      exact ⟨congrArg (· + 1) each.1, List.forall_mem_cons.mpr
        ⟨holds, each.2⟩⟩

theorem delivers_counted {item : Decoder α} {accepted : α → Prop}
    (delivers : item.Delivers accepted) :
    (counted item).Delivers fun items =>
      Countable items.length ∧ ∀ one ∈ items, accepted one := by
  refine delivers_length.bind fun count countable => ?_
  refine (delivers_many delivers count).imp fun items each => ?_
  exact ⟨each.1 ▸ countable, each.2⟩

theorem delivers_errorCode : Decoder.errorCode.Delivers fun _ => True := by
  refine .fromOffset fun start => delivers_byte.bind fun byte _ => ?_
  split
  · exact delivers_pure trivial
  · exact delivers_failAt _ _

theorem delivers_valueKind : Decoder.valueKind.Delivers fun _ => True := by
  refine .fromOffset fun start => delivers_byte.bind fun byte _ => ?_
  split
  · exact delivers_pure trivial
  · exact delivers_failAt _ _

theorem delivers_refuse {accepted : α → Prop} :
    (Decoder.refuse : Decoder α).Delivers accepted :=
  delivers_begin.bind fun _ _ => delivers_fail _

end Decoder

/-- Whether readers of parts deliver only what an image can hold within some
levels of nesting. -/
structure DeliversWithin (levels : Nat) (parts : PartDecoders) : Prop where
  value : parts.value.Delivers fun value =>
    value.Throughout readableParts ∧ value.nesting ≤ levels
  operation : parts.operation.Delivers fun operation =>
    operation.Throughout readableParts ∧ operation.nesting ≤ levels

namespace DeliversWithin

open Decoder

variable {levels : Nat} {parts : PartDecoders}

theorem tuplePayload (within : DeliversWithin levels parts) :
    parts.tuplePayload.Delivers fun items =>
      Countable items.length ∧ itemsThroughout readableParts items ∧
        itemsNesting items ≤ levels := by
  refine (delivers_counted within.value).imp fun items each => ?_
  rw [itemsThroughout_iff, itemsNesting_le_iff, ← forall₂_and]
  exact each

theorem entry (within : DeliversWithin levels parts) :
    parts.entry.Delivers fun entry =>
      (entry.1.Throughout readableParts ∧
        entry.2.Throughout readableParts) ∧
      entry.1.nesting ≤ levels ∧ entry.2.nesting ≤ levels :=
  within.value.bind fun _ key => within.value.map fun _ value =>
    ⟨⟨key.1, value.1⟩, key.2, value.2⟩

theorem tablePayload (within : DeliversWithin levels parts) :
    parts.tablePayload.Delivers fun entries =>
      (Countable entries.length ∧ Entries.Distinct entries) ∧
        entriesThroughout readableParts entries ∧
        entriesNesting entries ≤ levels := by
  refine (delivers_counted within.entry).map fun pairs each => ?_
  obtain ⟨countable, holds⟩ := each
  refine ⟨⟨?_, Entries.distinct_ofPairs pairs⟩, ?_⟩
  · exact Nat.lt_of_le_of_lt (Entries.length_ofPairs_le pairs) countable
  · rw [entriesThroughout_iff, entriesNesting_le_iff, ← forall₂_and]
    exact fun entry member => holds entry (Entries.mem_of_mem_ofPairs member)

theorem setPayload (within : DeliversWithin levels parts) :
    parts.setPayload.Delivers fun members =>
      (Countable members.length ∧ Members.Distinct members) ∧
        itemsThroughout readableParts members ∧
        itemsNesting members ≤ levels := by
  refine (delivers_counted within.value).map fun values each => ?_
  obtain ⟨countable, holds⟩ := each
  refine ⟨⟨?_, Members.distinct_ofValues values⟩, ?_⟩
  · exact Nat.lt_of_le_of_lt (Members.length_ofValues_le values) countable
  · rw [itemsThroughout_iff, itemsNesting_le_iff, ← forall₂_and]
    exact fun member among => holds member (Members.mem_of_mem_ofValues among)

theorem alternative (within : DeliversWithin levels parts) :
    parts.alternative.Delivers fun otherwise =>
      alternativeThroughout readableParts otherwise ∧
        alternativeNesting otherwise ≤ levels := by
  refine delivers_boolean.bind fun present _ => ?_
  split
  · exact within.operation.map fun operation holds => holds
  · exact delivers_pure ⟨trivial, Nat.zero_le levels⟩

theorem blockPayload (within : DeliversWithin levels parts) :
    parts.blockPayload.Delivers fun block =>
      block.Throughout readableParts ∧ block.nesting ≤ levels + 1 := by
  refine (delivers_counted delivers_name).bind fun slots named => ?_
  refine (delivers_counted within.operation).map fun operations each => ?_
  obtain ⟨countable, holds⟩ := each
  rw [forall₂_and, ← operationsThroughout_iff,
    ← operationsNesting_le_iff] at holds
  exact ⟨⟨⟨⟨named.1, countable⟩, named.2⟩, holds.1⟩,
    Nat.succ_le_succ holds.2⟩

/-- Whatever the form, the payload of a value delivers a value within one
level more. -/
theorem valuePayload (within : DeliversWithin levels parts)
    (form : ValueKind) :
    (parts.valuePayload form).Delivers fun value =>
      value.Throughout readableParts ∧ value.nesting ≤ levels + 1 := by
  have single : 1 ≤ levels + 1 := Nat.le_add_left 1 levels
  cases form with
  | empty => exact delivers_pure ⟨⟨trivial, trivial⟩, single⟩
  | number =>
      exact (delivers_number _).map fun _ _ => ⟨⟨trivial, trivial⟩, single⟩
  | boolean =>
      exact delivers_boolean.map fun _ _ => ⟨⟨trivial, trivial⟩, single⟩
  | character =>
      exact (delivers_number _).map fun _ _ => ⟨⟨trivial, trivial⟩, single⟩
  | string =>
      exact delivers_data.map fun _ countable =>
        ⟨⟨countable, trivial⟩, single⟩
  | atom =>
      exact delivers_nameBody.map fun _ free => ⟨⟨trivial, free⟩, single⟩
  | error =>
      exact delivers_errorCode.map fun _ _ => ⟨⟨trivial, trivial⟩, single⟩
  | type =>
      exact delivers_valueKind.map fun _ _ => ⟨⟨trivial, trivial⟩, single⟩
  | tuple =>
      exact within.tuplePayload.map fun _ holds =>
        ⟨⟨⟨holds.1, trivial⟩, holds.2.1⟩, Nat.succ_le_succ holds.2.2⟩
  | table =>
      exact within.tablePayload.map fun _ holds =>
        ⟨⟨⟨holds.1, trivial⟩, holds.2.1⟩, Nat.succ_le_succ holds.2.2⟩
  | set =>
      exact within.setPayload.map fun _ holds =>
        ⟨⟨⟨holds.1, trivial⟩, holds.2.1⟩, Nat.succ_le_succ holds.2.2⟩
  | operation | block | bind =>
      exact within.operation.map fun _ holds =>
        ⟨⟨⟨trivial, trivial⟩, holds.1⟩, Nat.succ_le_succ holds.2⟩

/-- Whatever the kind and the form, the payload of an operation delivers an
operation within one level more. -/
theorem operationPayload (within : DeliversWithin levels parts)
    (kind form : OperationKind) :
    (parts.operationPayload kind form).Delivers fun operation =>
      operation.Throughout readableParts ∧
        operation.nesting ≤ levels + 1 := by
  have single : 1 ≤ levels + 1 := Nat.le_add_left 1 levels
  cases form with
  | primitive other =>
      rw [PartDecoders.operationPayload]
      cases kind with
      | primitive which => exact delivers_pure ⟨⟨trivial, trivial⟩, single⟩
      | _ => exact delivers_fail _
  | push =>
      exact within.value.map fun _ holds =>
        ⟨⟨⟨trivial, trivial⟩, holds.1⟩, Nat.succ_le_succ holds.2⟩
  | ifTrue =>
      exact within.operation.map fun _ holds =>
        ⟨⟨⟨trivial, trivial⟩, holds.1⟩, Nat.succ_le_succ holds.2⟩
  | select =>
      refine within.tablePayload.bind fun cases table => ?_
      exact within.alternative.map fun _ fallback =>
        ⟨⟨⟨table.1, trivial⟩, table.2.1, fallback.1⟩,
          Nat.succ_le_succ (Nat.max_le.mpr ⟨table.2.2, fallback.2⟩)⟩
  | named other =>
      refine .fromOffset fun start => delivers_name.bind fun name free => ?_
      cases kind with
      | named use => exact delivers_pure ⟨⟨trivial, free⟩, single⟩
      | _ => exact delivers_failAt _ _
  | call =>
      refine delivers_name.bind fun target free => ?_
      exact within.tuplePayload.map fun _ holds =>
        ⟨⟨⟨holds.1, free⟩, holds.2.1⟩, Nat.succ_le_succ holds.2.2⟩
  | loadNative =>
      exact delivers_data.map fun _ countable =>
        ⟨⟨countable, trivial⟩, single⟩
  | native =>
      refine delivers_name.bind fun bucket free => ?_
      exact delivers_name.map fun _ alsoFree =>
        ⟨⟨trivial, free, alsoFree⟩, single⟩
  | block => exact within.blockPayload
  | partialBind =>
      refine within.value.bind fun value bound => ?_
      exact within.operation.map fun _ holds =>
        ⟨⟨⟨trivial, trivial⟩, bound.1, holds.1⟩,
          Nat.succ_le_succ (Nat.max_le.mpr ⟨bound.2, holds.2⟩)⟩

end DeliversWithin

/-- The readers of parts deliver nothing beyond their levels of nesting. -/
theorem deliversWithin (dialect : Dialect) (levels : Nat) :
    DeliversWithin levels (PartDecoders.within dialect levels) := by
  induction levels with
  | zero => exact ⟨Decoder.delivers_refuse, Decoder.delivers_refuse⟩
  | succ levels ih =>
      constructor
      · refine Decoder.delivers_begin.bind fun _ _ => ?_
        refine .fromOffset fun start => ?_
        refine Decoder.delivers_byte.bind fun marker _ => ?_
        split
        · exact ih.valuePayload _
        · exact Decoder.delivers_failAt _ _
      · refine Decoder.delivers_begin.bind fun _ _ => ?_
        refine .fromOffset fun start => ?_
        refine (Decoder.delivers_number tagWidth).bind fun tag _ => ?_
        split
        · exact ih.operationPayload _ _
        · exact Decoder.delivers_failAt _ _

/-- A value that is decoded nests no deeper than allowed. -/
theorem delivers_decodeValue (dialect : Dialect) :
    (decodeValue dialect).Delivers fun value =>
      value.Throughout readableParts ∧ value.nesting ≤ maxNesting := by
  intro reader value next run
  obtain ⟨⟨readable, nested⟩, steady⟩ :=
    (deliversWithin dialect (maxNesting - reader.depth)).value reader value
      next run
  exact ⟨⟨readable, Nat.le_trans nested (Nat.sub_le _ _)⟩, steady⟩

/-- An entry that is decoded can be read back. -/
theorem delivers_decodeEntry (dialect : Dialect) :
    (decodeEntry dialect).Delivers fun entry =>
      (DelimiterFree entry.1 ∧ entry.2.Throughout readableParts) ∧
        entry.2.nesting ≤ maxNesting := by
  refine Decoder.delivers_name.bind fun name free => ?_
  intro reader entry next run
  match ran : decodeValue dialect reader with
  | .error failure middle =>
      simp only [ran] at run
      cases run
  | .ok value middle =>
      simp only [ran] at run
      cases run
      obtain ⟨⟨readable, fits⟩, bytes, split, same⟩ :=
        delivers_decodeValue dialect reader value next ran
      refine ⟨⟨⟨free, readable⟩, fits⟩, bytes, split, fun suffix => ?_⟩
      simp only [same suffix]

end Image
end StackAssembly
