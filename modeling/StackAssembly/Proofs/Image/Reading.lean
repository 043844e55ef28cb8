import StackAssembly.Image.ByteReader
import StackAssembly.Proofs.Computation
import StackAssembly.Proofs.Image.Field

/-!
# Reading what was written

A decoder *reads* given bytes as a value if, whatever follows them, it answers
the value and stops behind them.  What is nested too deep cannot be read, so
the statement comes with the condition under which reading succeeds.  Where
the condition fails, the decoder complains about nesting and about nothing
else.  Reading in this sense goes through sequences of decoders, and every
field is read back by its decoder.
-/

namespace StackAssembly
namespace Image

/-- The reader that has passed over the given bytes to what follows them. -/
def ByteReader.past (reader : ByteReader) (bytes suffix : List UInt8)
    (reads : Nat) : ByteReader where
  offset := reader.offset + bytes.length
  rest := suffix
  depth := reader.depth
  reads := reads

@[simp]
theorem ByteReader.past_past (reader : ByteReader)
    (bytes suffix more rest : List UInt8) (reads later : Nat) :
    (reader.past bytes suffix reads).past more rest later =
      reader.past (bytes ++ more) rest later := by
  simp [past, Nat.add_assoc]

theorem ByteReader.skip_eq_past {reader : ByteReader}
    {bytes suffix : List UInt8} (here : reader.rest = bytes ++ suffix) :
    reader.skip bytes.length = reader.past bytes suffix reader.reads := by
  simp [skip, past, here]

/-- Whether a name can stand between delimiters. -/
def DelimiterFree (name : String) : Prop :=
  nameDelimiter ∉ textBytes name

instance (name : String) : Decidable (DelimiterFree name) :=
  inferInstanceAs (Decidable (nameDelimiter ∉ textBytes name))

/-- Whether a failure is the complaint about nesting. -/
def DecodeError.IsTooDeep (failure : DecodeError) : Prop :=
  failure.defect = .nestingTooDeep ∧ failure.entry = none

namespace Decoder

variable {α β : Type}

/-- Whether a decoder reads the given bytes as a value, provided that they fit
into the levels of nesting that are left. -/
def Reads (decoder : Decoder α) (bytes : List UInt8) (fits : Prop)
    (value : α) : Prop :=
  ∀ reader suffix, reader.rest = bytes ++ suffix →
    (fits → ∃ reads,
      decoder reader = .ok value (reader.past bytes suffix reads)) ∧
    (¬ fits → ∃ failure next,
      decoder reader = .error failure next ∧ failure.IsTooDeep)

/-- Reading that succeeds in all circumstances. -/
theorem Reads.always {decoder : Decoder α} {bytes : List UInt8} {value : α}
    (run : ∀ reader suffix, reader.rest = bytes ++ suffix →
      ∃ reads, decoder reader = .ok value (reader.past bytes suffix reads)) :
    decoder.Reads bytes True value :=
  fun reader suffix here =>
    ⟨fun _ => run reader suffix here, fun never => (never trivial).elim⟩

theorem Reads.congr {decoder : Decoder α} {bytes : List UInt8} {value : α}
    {fits other : Prop} (reading : decoder.Reads bytes fits value)
    (same : fits ↔ other) : decoder.Reads bytes other value := by
  rw [← propext same]
  exact reading

theorem reads_pure (value : α) : Reads (pure value) [] True value := by
  refine .always fun reader suffix here => ⟨reader.reads, ?_⟩
  rw [List.nil_append] at here
  subst here
  rfl

/-- Two decoders in sequence read two sequences of bytes in sequence. -/
theorem Reads.bind {first : Decoder α} {later : α → Decoder β}
    {bytes more : List UInt8} {fits fitting : Prop} {value : α} {result : β}
    (one : first.Reads bytes fits value)
    (two : (later value).Reads more fitting result) :
    (first >>= later).Reads (bytes ++ more) (fits ∧ fitting) result := by
  intro reader suffix here
  obtain ⟨done, refused⟩ :=
    one reader (more ++ suffix) (by rw [here, List.append_assoc])
  by_cases holds : fits
  · obtain ⟨reads, run⟩ := done holds
    obtain ⟨doneLater, refusedLater⟩ :=
      two (reader.past bytes (more ++ suffix) reads) suffix rfl
    rw [bind_of_ok run]
    constructor
    · intro both
      simpa using doneLater both.2
    · intro notBoth
      exact refusedLater fun also => notBoth ⟨holds, also⟩
  · obtain ⟨failure, next, run, tooDeep⟩ := refused holds
    refine ⟨fun both => (holds both.1).elim, fun _ => ?_⟩
    exact ⟨failure, next, bind_of_error run, tooDeep⟩

/-- What always succeeds leaves the condition to what follows it. -/
theorem Reads.after {first : Decoder α} {later : α → Decoder β}
    {bytes more : List UInt8} {fits : Prop} {value : α} {result : β}
    (one : first.Reads bytes True value)
    (two : (later value).Reads more fits result) :
    (first >>= later).Reads (bytes ++ more) fits result :=
  (one.bind two).congr (and_iff_right trivial)

/-- What is made of a value that is read is read from the same bytes. -/
theorem Reads.map {decoder : Decoder α} {bytes : List UInt8} {fits : Prop}
    {value : α} (reading : decoder.Reads bytes fits value) (make : α → β) :
    Reads (do return make (← decoder)) bytes fits (make value) := by
  have both := @Reads.bind _ _ decoder (fun value => pure (make value))
    _ _ _ _ _ _ reading (reads_pure (make value))
  rw [List.append_nil] at both
  exact both.congr (and_iff_left trivial)

/-- A decoder may note its place before it reads. -/
theorem Reads.fromOffset {later : Nat → Decoder α} {bytes : List UInt8}
    {fits : Prop} {value : α}
    (reading : ∀ start, (later start).Reads bytes fits value) :
    (offset >>= later).Reads bytes fits value := by
  intro reader suffix here
  exact reading reader.offset reader suffix here

theorem byte_eq (reader : ByteReader) :
    byte reader = match reader.rest with
      | [] => .error { offset := reader.offset, defect := .endOfStream } reader
      | first :: _ => .ok first (reader.skip 1) := by
  obtain ⟨offset, unread, depth, reads⟩ := reader
  cases unread <;> rfl

theorem bytes_eq (count : Nat) (reader : ByteReader) :
    bytes count reader =
      if (reader.rest.take count).length < count then
        .error
          { offset := reader.offset
            defect := .tooFewBytes count reader.rest.length } reader
      else
        .ok (reader.rest.take count) (reader.skip count) := by
  change (if (reader.rest.take count).length < count then
      fail (.tooFewBytes count reader.rest.length)
    else do
      set (reader.skip count)
      return reader.rest.take count : Decoder _) reader = _
  split <;> rfl

theorem untilByte_eq (delimiter : UInt8) (reader : ByteReader) :
    untilByte delimiter reader =
      if (reader.rest.drop
          (reader.rest.takeWhile (· != delimiter)).length).isEmpty then
        .error { offset := reader.offset, defect := .unterminatedField } reader
      else
        .ok (reader.rest.takeWhile (· != delimiter))
          (reader.skip
            ((reader.rest.takeWhile (· != delimiter)).length + 1)) := by
  change (if (reader.rest.drop
        (reader.rest.takeWhile (· != delimiter)).length).isEmpty then
      fail .unterminatedField
    else do
      set (reader.skip
        ((reader.rest.takeWhile (· != delimiter)).length + 1))
      return reader.rest.takeWhile (· != delimiter) : Decoder _) reader = _
  split <;> rfl

theorem byte_of_cons {reader : ByteReader} {first : UInt8}
    {rest : List UInt8} (here : reader.rest = first :: rest) :
    byte reader = .ok first (reader.skip 1) := by
  rw [byte_eq, here]

theorem bytes_of_append {reader : ByteReader} {raw rest : List UInt8}
    (here : reader.rest = raw ++ rest) :
    bytes raw.length reader = .ok raw (reader.skip raw.length) := by
  rw [bytes_eq, here, List.take_left, if_neg (Nat.lt_irrefl _)]

theorem untilByte_of_append {reader : ByteReader} {delimiter : UInt8}
    {raw rest : List UInt8} (free : delimiter ∉ raw)
    (here : reader.rest = raw ++ delimiter :: rest) :
    untilByte delimiter reader = .ok raw (reader.skip (raw.length + 1)) := by
  have taken : reader.rest.takeWhile (· != delimiter) = raw := by
    have apart : ∀ byte ∈ raw, (byte != delimiter) = true := by
      intro byte member
      exact bne_iff_ne.mpr fun same => free (same ▸ member)
    rw [here, List.takeWhile_append_of_pos apart]
    simp
  rw [untilByte_eq, taken, here, List.drop_left, if_neg (by simp)]

theorem reads_byte (first : UInt8) : byte.Reads [first] True first := by
  refine .always fun reader suffix here => ⟨reader.reads, ?_⟩
  rw [byte_of_cons here]
  exact congrArg _ (ByteReader.skip_eq_past here)

theorem reads_bytes (raw : List UInt8) :
    (bytes raw.length).Reads raw True raw := by
  refine .always fun reader suffix here => ⟨reader.reads, ?_⟩
  rw [bytes_of_append here, ByteReader.skip_eq_past here]

theorem reads_untilByte {delimiter : UInt8} {raw : List UInt8}
    (free : delimiter ∉ raw) :
    (untilByte delimiter).Reads (raw ++ [delimiter]) True raw := by
  refine .always fun reader suffix here => ⟨reader.reads, ?_⟩
  rw [untilByte_of_append free (by rw [here, List.append_assoc]; rfl),
    ← ByteReader.skip_eq_past here, List.length_append]
  rfl

/-- A number is read from its field, reduced to the width of the field. -/
theorem reads_number {width : Nat} (positive : 0 < width)
    (small : width ≤ 8) (number : Nat) :
    (Decoder.number width).Reads (numberField width number) True
      (number % 256 ^ width) := by
  have reading := (reads_bytes (numberField width number)).map numberOfBytes
  rw [length_numberField, numberOfBytes_numberField] at reading
  rw [Decoder.number, if_neg (by omega)]
  exact reading

/-- A length is read from its field if a 64-bit word expresses it. -/
theorem reads_length {count : Nat} (countable : count < UInt64.size) :
    Decoder.length.Reads (lengthField count) True count := by
  have reading := @reads_number numberWidth (by decide) (by decide) count
  rw [Nat.mod_eq_of_lt (by simpa [numberWidth] using countable)] at reading
  exact reading

theorem reads_boolean (truth : Bool) :
    boolean.Reads (booleanField truth) True truth := by
  have reading := (reads_byte (if truth then 1 else 0)).map (· != 0)
  cases truth <;> exact reading

/-- The bytes of a text denote it wherever they stand. -/
theorem reads_text (start : Nat) (defect : Defect) (written : String) :
    (text start defect (textBytes written)).Reads [] True written := by
  rw [text, fromUTF8?_textBytes]
  exact reads_pure written

/-- The part of a name behind its opening delimiter is read back. -/
theorem reads_nameBody {written : String} (free : DelimiterFree written) :
    nameBody.Reads (textBytes written ++ [nameDelimiter]) True written := by
  refine .fromOffset fun start => ?_
  have reading := (reads_untilByte free).after
    (reads_text start .nameNotText written)
  rw [List.append_nil] at reading
  exact reading

/-- A name that does not contain the delimiter is read from its field. -/
theorem reads_name {written : String} (free : DelimiterFree written) :
    name.Reads (nameField written) True written := by
  refine .fromOffset fun start => ?_
  refine (reads_byte nameDelimiter).after ?_
  rw [if_pos rfl]
  exact reads_nameBody free

/-- A text is read from its field if a 64-bit word expresses its length. -/
theorem reads_data {written : String}
    (countable : (textBytes written).length < UInt64.size) :
    data.Reads (textField written) True written := by
  refine (reads_length countable).after (.fromOffset fun start => ?_)
  have reading := (reads_bytes (textBytes written)).after
    (reads_text start .stringNotText written)
  rw [List.append_nil] at reading
  exact reading

/-- Items that are read from their bytes are read one after the other. -/
theorem reads_many {item : Decoder α} {write : α → List UInt8}
    {fits : α → Prop} {values : List α}
    (each : ∀ value ∈ values, item.Reads (write value) (fits value) value) :
    (many item values.length).Reads (values.flatMap write)
      (∀ value ∈ values, fits value) values := by
  induction values with
  | nil => exact (reads_pure []).congr (by simp)
  | cons value values ih =>
      have first := each value List.mem_cons_self
      have later := ih fun other member =>
        each other (List.mem_cons_of_mem value member)
      exact (first.bind (later.map (value :: ·))).congr
        (List.forall_mem_cons).symm

/-- Items that are read from their bytes are read after their count. -/
theorem reads_counted {item : Decoder α} {write : α → List UInt8}
    {fits : α → Prop} {values : List α}
    (countable : values.length < UInt64.size)
    (each : ∀ value ∈ values, item.Reads (write value) (fits value) value) :
    (counted item).Reads
      (lengthField values.length ++ values.flatMap write)
      (∀ value ∈ values, fits value) values :=
  (reads_length countable).after (reads_many each)

end Decoder
end Image
end StackAssembly
