import StackAssembly.Image.Header
import StackAssembly.Proofs.Image.NestingLevels

/-!
# Bytes that mean harm

Whatever the bytes are, what the dialect makes of them, and in whatever order
fields and parts are read, with failures passed over: a reader only goes
forward and never behind the last byte, what was opened is closed again, a
failure is reported at a place between the start of the reading and the end,
and nothing is begun without a byte to go with it.
-/

namespace StackAssembly
namespace Image

/-- Whether a reader came from another one by passing over bytes alone.  Of
the parts that were begun, `owed` had no byte to go with them before, and
`left` have none now. -/
structure ByteReader.Leads (owed left : Nat) (reader next : ByteReader) :
    Prop where
  /-- The bytes in between are those that were next. -/
  passed : ∃ bytes, reader.rest = bytes ++ next.rest ∧
    next.offset = reader.offset + bytes.length
  /-- As much is open as before. -/
  depth : next.depth = reader.depth
  /-- Every other part that was begun has a byte to go with it. -/
  reads : next.reads + reader.offset + owed ≤
    reader.reads + next.offset + left

namespace ByteReader.Leads

variable {owed middle left : Nat} {reader next last : ByteReader}

theorem refl (reader : ByteReader) (fewer : owed ≤ left) :
    reader.Leads owed left reader :=
  ⟨⟨[], rfl, rfl⟩, rfl, by omega⟩

theorem trans (one : reader.Leads owed middle next)
    (two : next.Leads middle left last) : reader.Leads owed left last := by
  obtain ⟨⟨bytes, split, offset⟩, depth, reads⟩ := one
  obtain ⟨⟨more, splitLater, offsetLater⟩, depthLater, readsLater⟩ := two
  refine ⟨⟨bytes ++ more, ?_, ?_⟩, depthLater.trans depth, by omega⟩
  · rw [split, splitLater, List.append_assoc]
  · rw [offsetLater, offset, List.length_append, Nat.add_assoc]

theorem skip {count : Nat} (enough : count ≤ reader.rest.length)
    (paid : owed ≤ count + left) : reader.Leads owed left (reader.skip count) := by
  refine ⟨⟨reader.rest.take count, ?_, ?_⟩, rfl, ?_⟩
  · exact (List.take_append_drop count reader.rest).symm
  · rw [List.length_take, Nat.min_eq_left enough]
    rfl
  · change reader.reads + reader.offset + owed ≤
      reader.reads + (reader.offset + count) + left
    omega

theorem offset_le (leads : reader.Leads owed left next) :
    reader.offset ≤ next.offset := by
  obtain ⟨⟨bytes, -, offset⟩, -, -⟩ := leads
  omega

/-- The last byte stays at its place. -/
theorem limit (leads : reader.Leads owed left next) :
    next.offset + next.rest.length = reader.offset + reader.rest.length := by
  obtain ⟨⟨bytes, split, offset⟩, -, -⟩ := leads
  rw [offset, split, List.length_append, Nat.add_assoc]

end ByteReader.Leads

/-- Whether a run leads on from a reader, and a failure is reported between
two places. -/
def EndsWithin {α : Type} (low high owed left : Nat) (reader : ByteReader) :
    EStateM.Result DecodeError ByteReader α → Prop
  | .ok _ next => reader.Leads owed left next
  | .error failure next =>
      reader.Leads owed 1 next ∧ low ≤ failure.offset ∧ failure.offset ≤ high

theorem EndsWithin.after {α : Type} {low high owed middle left : Nat}
    {reader next : ByteReader} {result : EStateM.Result DecodeError ByteReader α}
    (ends : EndsWithin low high middle left next result)
    (leads : reader.Leads owed middle next) :
    EndsWithin low high owed left reader result := by
  cases result with
  | ok value last => exact leads.trans ends
  | error failure last => exact ⟨leads.trans ends.1, ends.2⟩

namespace Decoder

/-- Whether a decoder that starts between two places stays between them. -/
def Contained {α : Type} (low high owed left : Nat) (decoder : Decoder α) :
    Prop :=
  ∀ reader : ByteReader, low ≤ reader.offset →
    reader.offset + reader.rest.length = high →
      EndsWithin low high owed left reader (decoder reader)

variable {α β : Type} {low high owed middle left : Nat}

theorem Contained.bind {first : Decoder α} {later : α → Decoder β}
    (one : first.Contained low high owed middle)
    (two : ∀ value, (later value).Contained low high middle left) :
    (first >>= later).Contained low high owed left := by
  intro reader above below
  have ends := one reader above below
  cases run : first reader with
  | error failure next =>
      rw [run] at ends
      rw [bind_of_error run]
      exact ends
  | ok value next =>
      rw [run] at ends
      rw [bind_of_ok run]
      refine (two value next ?_ ?_).after ends
      · exact Nat.le_trans above ends.offset_le
      · rw [ByteReader.Leads.limit ends, below]

theorem contained_failAt {start : Nat} (above : low ≤ start)
    (below : start ≤ high) (few : owed ≤ 1) (defect : Defect) :
    (failAt (α := α) start defect).Contained low high owed left :=
  fun reader _ _ => ⟨.refl reader few, above, below⟩

/-- The place of the next byte lies between the places. -/
theorem Contained.fromOffset {later : Nat → Decoder α}
    (contained : ∀ start, low ≤ start ∧ start ≤ high →
      (later start).Contained low high owed left) :
    (offset >>= later).Contained low high owed left := by
  intro reader above below
  exact contained reader.offset ⟨above, by omega⟩ reader above below

theorem contained_fail (few : owed ≤ 1) (defect : Defect) :
    (fail (α := α) defect).Contained low high owed left :=
  .fromOffset fun _ here => contained_failAt here.1 here.2 few defect

theorem contained_begin : Decoder.begin.Contained low high 0 1 := by
  intro reader _ _
  refine ⟨⟨[], rfl, rfl⟩, rfl, ?_⟩
  change reader.reads + 1 + reader.offset + 0 ≤
    reader.reads + reader.offset + 1
  omega

/-- A byte goes with a part that was begun. -/
theorem contained_byte (few : owed ≤ 1) :
    byte.Contained low high owed 0 := by
  intro reader above below
  rw [byte_eq]
  match here : reader.rest with
  | [] => exact ⟨.refl reader few, above, Nat.le_of_add_right_le below.le⟩
  | first :: rest =>
      exact .skip (by rw [here]; exact Nat.le_add_left 1 _) few

theorem contained_bytes {count : Nat} (few : owed ≤ 1)
    (paid : owed ≤ count) :
    (bytes count).Contained low high owed 0 := by
  intro reader above below
  rw [bytes_eq]
  split
  · exact ⟨.refl reader few, above, Nat.le_of_add_right_le below.le⟩
  · next enough =>
      rw [List.length_take] at enough
      exact .skip (by omega) paid

theorem contained_untilByte (delimiter : UInt8) :
    (untilByte delimiter).Contained low high 0 0 := by
  intro reader above below
  rw [untilByte_eq]
  split
  · exact ⟨.refl reader (Nat.zero_le 1), above,
      Nat.le_of_add_right_le below.le⟩
  · next more =>
      refine .skip ?_ (Nat.zero_le _)
      have rest : 0 < (reader.rest.drop
          (reader.rest.takeWhile (· != delimiter)).length).length :=
        List.length_pos_iff.mpr (mt List.isEmpty_iff.mpr more)
      rw [List.length_drop] at rest
      omega

/-- A number goes with a part that was begun. -/
theorem contained_number (width : Nat) (few : owed ≤ 1) :
    (Decoder.number width).Contained low high owed 0 := by
  rw [Decoder.number]
  split
  · exact contained_fail few _
  · refine (contained_bytes few (by omega)).bind fun raw => ?_
    exact fun reader _ _ => .refl reader (Nat.le_refl 0)

/-- Staying between two places goes through decoders. -/
theorem compositional_contained (low high : Nat) :
    Compositional (fun start => low ≤ start ∧ start ≤ high)
      fun _ decoder _ => decoder.Contained low high 0 0 where
  pure _ reader _ _ := .refl reader (Nat.le_refl 0)
  bind one two := one.bind two
  fromOffset later := .fromOffset later
  failAt _ defect here :=
    contained_failAt here.1 here.2 (Nat.zero_le 1) defect
  byte := contained_byte (Nat.zero_le 1)
  bytes count := contained_bytes (Nat.zero_le 1) (Nat.zero_le count)
  untilByte := contained_untilByte

end Decoder

open Decoder

/-- Whether readers of parts that start between two places stay between
them. -/
abbrev PartDecoders.Contained (low high : Nat) (parts : PartDecoders) : Prop :=
  parts.Related (fun _ decoder _ => decoder.Contained low high 0 0) parts

/-- The readers of parts stay between any two places, and begin no part
without a byte to go with it. -/
theorem contained_within (dialect : Dialect) (levels low high : Nat) :
    (PartDecoders.within dialect levels).Contained low high := by
  induction levels with
  | zero =>
      exact ⟨contained_begin.bind fun _ => contained_fail (Nat.le_refl 1) _,
        contained_begin.bind fun _ => contained_fail (Nat.le_refl 1) _⟩
  | succ levels ih =>
      have goes := compositional_contained low high
      -- The marker or the tag goes with the part that was begun, so that
      -- the payload starts with nothing owed.
      constructor
      · refine contained_begin.bind fun _ => .fromOffset fun start here => ?_
        refine (contained_byte (Nat.le_refl 1)).bind fun marker => ?_
        split
        · exact ih.valuePayload goes _
        · exact goes.failAt start _ here
      · refine contained_begin.bind fun _ => .fromOffset fun start here => ?_
        refine (contained_number tagWidth (Nat.le_refl 1)).bind fun tag => ?_
        split
        · exact ih.operationPayload goes _ _
        · exact goes.failAt start _ here

theorem contained_decodeParts (dialect : Dialect) (low high : Nat) :
    (decodeParts dialect).Contained low high :=
  ⟨fun reader => (contained_within dialect (maxNesting - reader.depth) low
      high).value reader,
    fun reader => (contained_within dialect (maxNesting - reader.depth) low
      high).operation reader⟩

theorem contained_decodeEntry (dialect : Dialect) (low high : Nat) :
    (decodeEntry dialect).Contained low high 0 0 := by
  refine (compositional_contained low high).name.bind fun name => ?_
  intro reader above below
  have ends := (contained_decodeParts dialect low high).value reader above below
  change EndsWithin low high 0 0 reader (decodeValue dialect reader) at ends
  cases run : decodeValue dialect reader with
  | ok value next =>
      rw [run] at ends
      simp only [run]
      exact ends
  | error failure next =>
      rw [run] at ends
      simp only [run]
      exact ends

/-- What can be asked of a stream of bytes. -/
inductive StreamCall where
  | byte
  | bytes (count : Nat)
  | number (width : Nat)
  | length
  | boolean
  | untilByte (delimiter : UInt8)
  | name
  | nameBody
  | data
  | header
  | enter
  | leave
  | value
  | operation
  | entry
  | tuplePayload
  | tablePayload
  | setPayload
  | blockPayload
  deriving DecidableEq

/-- Run a decoder for its effect. -/
def Decoder.discarding {α : Type} (decoder : Decoder α) : ImageReader Unit := do
  let _ ← decoder.reporting

namespace StreamCall

/-- Do what is asked of the stream. -/
def run (dialect : Dialect) : StreamCall → ImageReader Unit
  | .byte => Decoder.byte.discarding
  | .bytes count => (Decoder.bytes count).discarding
  | .number width => (Decoder.number width).discarding
  | .length => Decoder.length.discarding
  | .boolean => Decoder.boolean.discarding
  | .untilByte delimiter => (Decoder.untilByte delimiter).discarding
  | .name => Decoder.name.discarding
  | .nameBody => Decoder.nameBody.discarding
  | .data => Decoder.data.discarding
  | .header => readHeader
  | .enter => Decoder.enter.discarding
  | .leave => modify ByteReader.leave
  | .value => (decodeValue dialect).discarding
  | .operation => (decodeOperation dialect).discarding
  | .entry => (decodeEntry dialect).discarding
  | .tuplePayload => (decodeParts dialect).tuplePayload.discarding
  | .tablePayload => (decodeParts dialect).tablePayload.discarding
  | .setPayload => (decodeParts dialect).setPayload.discarding
  | .blockPayload => (decodeParts dialect).blockPayload.discarding

/-- Whether values or operations are decoded. -/
def IsDecoding : StreamCall → Prop
  | .value | .operation | .entry | .tuplePayload | .tablePayload
  | .setPayload | .blockPayload => True
  | _ => False

/-- Where a call leaves the stream, whether or not it fails. -/
def after (dialect : Dialect) (reader : ByteReader) (call : StreamCall) :
    ByteReader :=
  match call.run dialect reader with
  | .ok _ next => next
  | .error _ next => next

/-- Where calls leave a stream that starts with the given bytes. -/
def afterAll (dialect : Dialect) (bytes : List UInt8)
    (calls : List StreamCall) : ByteReader :=
  calls.foldl (after dialect) (.ofBytes bytes)

end StreamCall

/-- Whether a reader is on a sequence of bytes. -/
structure ByteReader.On (bytes : List UInt8) (reader : ByteReader) : Prop where
  /-- It is not behind the last byte. -/
  within : reader.offset ≤ bytes.length
  /-- It is going to read what it has not read. -/
  rest : reader.rest = bytes.drop reader.offset
  /-- No more is open than may be. -/
  depth : reader.depth ≤ maxNesting

/-- Whether the run of a decoder leads on from a reader, and reports failures
as defects of the image at places up to the given one. -/
def EndsHarmless (reader : ByteReader) (limit : Nat) :
    EStateM.Result HostError ByteReader Unit → Prop
  | .ok _ next => reader.Leads 0 1 next
  | .error failure next =>
      reader.Leads 0 1 next ∧
        ∃ offset message, failure.failure = .decode offset message ∧
          reader.offset ≤ offset ∧ offset ≤ limit

/-- Whether a call that decodes values or operations does no harm. -/
structure HarmlessDecoding (dialect : Dialect) (bytes : List UInt8)
    (reader : ByteReader) (call : StreamCall) : Prop where
  /-- What was opened is closed again. -/
  depth : (call.after dialect reader).depth = reader.depth
  /-- At most one more part is begun than bytes are passed over. -/
  reads : (call.after dialect reader).reads ≤
    reader.reads + ((call.after dialect reader).offset - reader.offset) + 1
  /-- A failure is a defect at a place from the start of the call on. -/
  failure : ∀ failure next, call.run dialect reader = .error failure next →
    ∃ offset message, failure.failure = .decode offset message ∧
      reader.offset ≤ offset ∧ offset ≤ bytes.length

/-- Whether a call does no harm to a stream with the given bytes. -/
structure HarmlessCall (dialect : Dialect) (bytes : List UInt8)
    (reader : ByteReader) (call : StreamCall) : Prop where
  /-- The stream does not go back. -/
  forward : reader.offset ≤ (call.after dialect reader).offset
  /-- The stream stays on its bytes. -/
  on : (call.after dialect reader).On bytes
  /-- Nor does what is decoded do harm. -/
  decoding : call.IsDecoding → HarmlessDecoding dialect bytes reader call

namespace ByteReader

variable {bytes : List UInt8} {reader next : ByteReader}

theorem on_ofBytes (bytes : List UInt8) : (ByteReader.ofBytes bytes).On bytes :=
  ⟨Nat.zero_le _, rfl, Nat.zero_le _⟩

theorem On.limit (on : reader.On bytes) :
    reader.offset + reader.rest.length = bytes.length := by
  rw [on.rest, List.length_drop, Nat.add_sub_cancel' on.within]

theorem On.of_leads {owed left : Nat} (on : reader.On bytes)
    (leads : reader.Leads owed left next) : next.On bytes := by
  have limit := leads.limit
  rw [on.limit] at limit
  obtain ⟨⟨passed, split, offset⟩, depth, -⟩ := leads
  refine ⟨by omega, ?_, depth ▸ on.depth⟩
  rw [on.rest] at split
  rw [offset, ← List.drop_drop, split, List.drop_left]

end ByteReader

theorem Decoder.discarding_eq {α : Type} (decoder : Decoder α)
    (reader : ByteReader) :
    decoder.discarding reader =
      match decoder reader with
      | .ok _ next => .ok () next
      | .error failure next => .error (.ofDecodeError failure) next := by
  cases run : decoder reader with
  | ok value next =>
      have reported : decoder.reporting reader = .ok value next := by
        rw [Decoder.reporting, run]
      exact bind_of_ok reported
  | error failure next =>
      have reported : decoder.reporting reader =
          .error (.ofDecodeError failure) next := by
        rw [Decoder.reporting, run]
      exact bind_of_error reported

namespace StreamCall

variable {bytes : List UInt8} {reader : ByteReader} {dialect : Dialect}

theorem endsHarmless_discarding {α : Type} {decoder : Decoder α}
    (contained : ∀ low high, decoder.Contained low high 0 0)
    (on : reader.On bytes) :
    EndsHarmless reader bytes.length (decoder.discarding reader) := by
  have ends := contained reader.offset bytes.length reader (Nat.le_refl _)
    on.limit
  rw [Decoder.discarding_eq]
  cases run : decoder reader with
  | ok value next =>
      rw [run] at ends
      exact ends.trans (.refl next (Nat.zero_le 1))
  | error failure next =>
      rw [run] at ends
      exact ⟨ends.1, _, _, rfl, ends.2⟩

/-- What is decoded stays on the bytes. -/
theorem endsHarmless_run (dialect : Dialect) {call : StreamCall}
    (decoding : call.IsDecoding) (on : reader.On bytes) :
    EndsHarmless reader bytes.length (call.run dialect reader) := by
  have parts := contained_decodeParts dialect
  have goes := compositional_contained
  cases call with
  | value => exact endsHarmless_discarding (fun _ _ => (parts _ _).value) on
  | operation =>
      exact endsHarmless_discarding (fun _ _ => (parts _ _).operation) on
  | entry =>
      exact endsHarmless_discarding (contained_decodeEntry dialect) on
  | tuplePayload =>
      exact endsHarmless_discarding
        (fun _ _ => (parts _ _).tuplePayload (goes _ _)) on
  | tablePayload =>
      exact endsHarmless_discarding
        (fun _ _ => (parts _ _).tablePayload (goes _ _)) on
  | setPayload =>
      exact endsHarmless_discarding
        (fun _ _ => (parts _ _).setPayload (goes _ _)) on
  | blockPayload =>
      exact endsHarmless_discarding
        (fun _ _ => (parts _ _).blockPayload (goes _ _)) on
  | _ => exact decoding.elim

theorem leads_of_endsHarmless {limit : Nat} {call : StreamCall}
    (ends : EndsHarmless reader limit (call.run dialect reader)) :
    reader.Leads 0 1 (call.after dialect reader) := by
  rw [after]
  cases run : call.run dialect reader with
  | ok value next =>
      rw [run] at ends
      exact ends
  | error failure next =>
      rw [run] at ends
      exact ends.1

theorem leads_header (dialect : Dialect) (on : reader.On bytes) :
    reader.Leads 0 1 (StreamCall.header.after dialect reader) := by
  have ends := endsHarmless_discarding
    (fun low high => (compositional_contained low high).byte) on
  change reader.Leads 0 1 (match readHeader reader with
    | .ok _ next => next
    | .error _ next => next)
  rw [Decoder.discarding_eq] at ends
  cases run : Decoder.byte reader with
  | ok found next =>
      have reported : Decoder.byte.reporting reader = .ok found next := by
        rw [Decoder.reporting, run]
      rw [run] at ends
      rw [readHeader, bind_of_ok reported]
      by_cases known : found = formatVersion
      · rw [if_pos known]
        exact ends
      · rw [if_neg known]
        exact ends
  | error failure next =>
      have reported : Decoder.byte.reporting reader =
          .error (.ofDecodeError failure) next := by
        rw [Decoder.reporting, run]
      rw [run] at ends
      rw [readHeader, bind_of_error reported]
      exact ends.1

theorem on_enter (on : reader.On bytes) :
    (StreamCall.enter.after dialect reader).On bytes ∧
      reader.offset ≤ (StreamCall.enter.after dialect reader).offset := by
  have entered := Decoder.discarding_eq Decoder.enter reader
  rw [Decoder.enter_eq] at entered
  rw [after, run, entered]
  by_cases full : maxNesting ≤ reader.depth
  · rw [if_pos full]
    exact ⟨on, Nat.le_refl _⟩
  · rw [if_neg full]
    exact ⟨⟨on.within, on.rest, Nat.lt_of_not_le full⟩, Nat.le_refl _⟩

/-- Whatever is asked of a stream, it goes on along the bytes. -/
theorem on_after (dialect : Dialect) (on : reader.On bytes)
    (call : StreamCall) :
    (call.after dialect reader).On bytes ∧
      reader.offset ≤ (call.after dialect reader).offset := by
  have goes := compositional_contained
  have leading (ends : EndsHarmless reader bytes.length
      (call.run dialect reader)) :
      (call.after dialect reader).On bytes ∧
        reader.offset ≤ (call.after dialect reader).offset :=
    ⟨on.of_leads (leads_of_endsHarmless ends),
      (leads_of_endsHarmless ends).offset_le⟩
  have decoding (decodes : call.IsDecoding) :=
    leading (endsHarmless_run dialect decodes on)
  have field {α : Type} {decoder : Decoder α}
      (contained : ∀ low high, decoder.Contained low high 0 0)
      (runs : call.run dialect = decoder.discarding) :=
    leading (runs ▸ endsHarmless_discarding contained on)
  cases call with
  | byte => exact field (fun _ _ => (goes _ _).byte) rfl
  | bytes count => exact field (fun _ _ => (goes _ _).bytes count) rfl
  | number width => exact field (fun _ _ => (goes _ _).number width) rfl
  | length => exact field (fun _ _ => (goes _ _).number numberWidth) rfl
  | boolean => exact field (fun _ _ => (goes _ _).boolean) rfl
  | untilByte delimiter =>
      exact field (fun _ _ => (goes _ _).untilByte delimiter) rfl
  | name => exact field (fun _ _ => (goes _ _).name) rfl
  | nameBody => exact field (fun _ _ => (goes _ _).nameBody) rfl
  | data => exact field (fun _ _ => (goes _ _).data) rfl
  | header =>
      have leads := leads_header dialect on
      exact ⟨on.of_leads leads, leads.offset_le⟩
  | enter => exact on_enter on
  | leave =>
      exact ⟨⟨on.within, on.rest, Nat.le_trans (Nat.sub_le _ 1) on.depth⟩,
        Nat.le_refl _⟩
  | _ => exact decoding trivial

theorem on_afterAll (dialect : Dialect) (bytes : List UInt8)
    (calls : List StreamCall) : (afterAll dialect bytes calls).On bytes := by
  have along (reader : ByteReader) (on : reader.On bytes) :
      (calls.foldl (after dialect) reader).On bytes := by
    induction calls generalizing reader with
    | nil => exact on
    | cons call calls ih => exact ih _ (on_after dialect on call).1
  exact along _ (ByteReader.on_ofBytes bytes)

theorem harmlessDecoding (on : reader.On bytes) {call : StreamCall}
    (decoding : call.IsDecoding) :
    HarmlessDecoding dialect bytes reader call := by
  have ends := endsHarmless_run dialect decoding on
  have leads := leads_of_endsHarmless ends
  refine ⟨leads.depth, ?_, ?_⟩
  · have forward := leads.offset_le
    have reads := leads.reads
    omega
  · intro failure next run
    rw [run] at ends
    exact ends.2

end StreamCall

/-- Values and operations are read with what is open counted up and down, and
no call on a stream does harm, whatever the bytes, the dialect and the calls
before are. -/
theorem hostile_bytes_do_no_harm (dialect : Dialect) :
    (decodeValue dialect =
        ((decodeParts dialect).markedValue dialect).nested ∧
      decodeOperation dialect =
        ((decodeParts dialect).taggedOperation dialect).nested) ∧
    ∀ (bytes : List UInt8) (calls : List StreamCall) (call : StreamCall),
      HarmlessCall dialect bytes (StreamCall.afterAll dialect bytes calls)
        call := by
  refine ⟨⟨decodeValue_eq_nested dialect, decodeOperation_eq_nested dialect⟩,
    fun bytes calls call => ?_⟩
  have on := StreamCall.on_afterAll dialect bytes calls
  obtain ⟨stays, forward⟩ := StreamCall.on_after dialect on call
  exact ⟨forward, stays, StreamCall.harmlessDecoding on⟩

/-- A byte and a tuple of all but endlessly many items, of which one and a
half are there. -/
def boastfulTuple : List UInt8 :=
  [0, 0x28, 255, 255, 255, 255, 255, 255, 255, 255, 0x45, 0x23, 1]

/-- After a name could not be read and a part was opened, reading the tuple
begins three parts and fails. -/
theorem boastful_tuple_does_no_harm :
    StreamCall.IsDecoding .value ∧
    (∃ failure next,
      StreamCall.value.run .standard
        (StreamCall.afterAll .standard boastfulTuple [.name, .enter]) =
          .error failure next ∧ next.offset = 12 ∧ next.reads = 3) ∧
    HarmlessDecoding .standard boastfulTuple
      (StreamCall.afterAll .standard boastfulTuple [.name, .enter]) .value := by
  have harmless := (hostile_bytes_do_no_harm .standard).2 boastfulTuple
    [.name, .enter] .value
  exact ⟨trivial, ⟨_, _, rfl, rfl, rfl⟩, harmless.decoding trivial⟩

end Image
end StackAssembly
