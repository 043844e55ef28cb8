import StackAssembly.Proofs.Image.Delivery

/-!
# Where values end in an image

Values, operations and entries bear their own end: what is decoded, and how
many bytes it takes, follows from these bytes alone.  Whatever stands behind
them is of no influence, and if one of them is missing nothing is decoded.  In
particular, no bytes of a value are the front part of the bytes of another.
-/

namespace StackAssembly
namespace Image
namespace Decoder

variable {α : Type} {decoder : Decoder α} {accepted : α → Prop}
  {place : ByteReader} {bytes other : List UInt8} {value : α} {length : Nat}

/-- Whether a decoder answers a value at a place in front of bytes, and passes
over so many of them. -/
def Consumes (decoder : Decoder α) (place : ByteReader) (bytes : List UInt8)
    (value : α) (length : Nat) : Prop :=
  length ≤ bytes.length ∧
    ∃ reads, decoder (place.facing bytes) =
      .ok value (place.past (bytes.take length) (bytes.drop length) reads)

/-- Whether a decoder goes by the bytes that it passes over, and needs all of
them, wherever it starts. -/
structure SelfDelimiting (decoder : Decoder α) : Prop where
  /-- An answer takes a front part of the bytes. -/
  consumes : ∀ {place bytes value next},
    decoder (place.facing bytes) = .ok value next →
      ∃ length, decoder.Consumes place bytes value length ∧
        next.offset = place.offset + length
  /-- In front of other bytes that begin alike, the answer is the same. -/
  steady : ∀ {place bytes other value length},
    decoder.Consumes place bytes value length →
      other.take length = bytes.take length →
        decoder.Consumes place other value length
  /-- In front of fewer bytes, there is no answer. -/
  incomplete : ∀ {place bytes value length},
    decoder.Consumes place bytes value length →
      ∀ fewer < length, ∃ failure last,
        decoder (place.facing (bytes.take fewer)) = .error failure last

/-- The bytes that are consumed are answered alike whatever follows them. -/
theorem Delivers.of_consumes (delivers : decoder.Delivers accepted)
    (consumes : decoder.Consumes place bytes value length)
    (suffix : List UInt8) :
    ∃ reads, decoder (place.facing (bytes.take length ++ suffix)) =
      .ok value (place.past (bytes.take length) suffix reads) := by
  obtain ⟨-, reads, run⟩ := consumes
  obtain ⟨-, front, split, same⟩ := delivers _ value _ run
  have parts : bytes.take length ++ bytes.drop length =
      front ++ bytes.drop length :=
    (List.take_append_drop length bytes).trans split
  obtain rfl := List.append_cancel_right parts
  exact ⟨reads, same suffix⟩

/-- An answer takes a front part of the bytes. -/
theorem Delivers.exists_consumes (delivers : decoder.Delivers accepted)
    {next : ByteReader}
    (run : decoder (place.facing bytes) = .ok value next) :
    ∃ length, decoder.Consumes place bytes value length ∧
      next.offset = place.offset + length := by
  obtain ⟨-, front, split, same⟩ := delivers _ value next run
  change bytes = front ++ next.rest at split
  have behind := Delivers.eq_past run split same
  refine ⟨front.length, ⟨?_, next.reads, ?_⟩,
    congrArg ByteReader.offset behind⟩
  · rw [split, List.length_append]
    exact Nat.le_add_right _ _
  · rw [split, List.take_left, List.drop_left]
    exact same next.rest

/-- Whatever delivers values in the same way before all bytes is
self-delimiting. -/
theorem Delivers.selfDelimiting (delivers : decoder.Delivers accepted) :
    decoder.SelfDelimiting where
  consumes := delivers.exists_consumes
  steady := by
    intro place bytes other value length consumes alike
    obtain ⟨reads, run⟩ :=
      delivers.of_consumes consumes (other.drop length)
    rw [← alike, List.take_append_drop] at run
    refine ⟨?_, reads, run⟩
    have lengths := congrArg List.length alike
    rw [List.length_take, List.length_take] at lengths
    have within := consumes.1
    omega
  incomplete := by
    intro place bytes value length consumes fewer less
    cases run : decoder (place.facing (bytes.take fewer)) with
    | error failure last => exact ⟨failure, last, rfl⟩
    | ok found last =>
        -- What is found in fewer bytes is also found in all of them.
        obtain ⟨taken, shorter, -⟩ := delivers.exists_consumes run
        obtain ⟨reads, again⟩ := delivers.of_consumes shorter
          ((bytes.take fewer).drop taken ++ bytes.drop fewer)
        rw [← List.append_assoc, List.take_append_drop,
          List.take_append_drop] at again
        obtain ⟨within, others, whole⟩ := consumes
        have places := congrArg ByteReader.offset
          (EStateM.Result.ok.inj (again.symm.trans whole)).2
        have short := shorter.1
        simp only [ByteReader.past, List.length_take] at places short
        omega

end Decoder

/-- Values, operations and entries bear their own end, in every dialect and
wherever in a stream they stand. -/
theorem decoding_is_self_delimiting (dialect : Dialect) :
    (decodeValue dialect).SelfDelimiting ∧
      (decodeOperation dialect).SelfDelimiting ∧
      (decodeEntry dialect).SelfDelimiting := by
  have within (levels : Nat) := deliversWithin dialect levels
  refine ⟨(delivers_decodeValue dialect).selfDelimiting, ?_,
    (delivers_decodeEntry dialect).selfDelimiting⟩
  have delivers : (decodeOperation dialect).Delivers fun _ => True := by
    intro reader operation next run
    obtain ⟨-, steady⟩ := (within (maxNesting - reader.depth)).operation
      reader operation next run
    exact ⟨trivial, steady⟩
  exact delivers.selfDelimiting

/-- The bytes of a name and a table of one entry, followed by two others. -/
def tableAndMore : List UInt8 :=
  encodeEntry "t" (.table [(.boolean true, .atom "x")]) ++ [7, 0x27]

/-- The entry ends in front of the two other bytes, whatever they are, and
without its last byte it is none. -/
theorem tableAndMore_ends_behind_table :
    let entry : String × Value := ("t", .table [(.boolean true, .atom "x")])
    (decodeEntry .standard).Consumes (.ofBytes []) tableAndMore entry 17 ∧
      (decodeEntry .standard).Consumes (.ofBytes [])
        (tableAndMore.take 17 ++ [0, 0, 0]) entry 17 ∧
      ∃ failure last, decodeEntry .standard
        (.ofBytes (tableAndMore.take 16)) = .error failure last := by
  intro entry
  have consumes : (decodeEntry .standard).Consumes (.ofBytes [])
      tableAndMore entry 17 := by
    refine ⟨by decide, 3, ?_⟩
    rfl
  have delimited := (decoding_is_self_delimiting .standard).2.2
  exact ⟨consumes, delimited.steady consumes rfl,
    delimited.incomplete consumes 16 (by decide)⟩

end Image
end StackAssembly
