import StackAssembly.Proofs.Image.Composition
import StackAssembly.Proofs.Image.Reading

/-!
# Levels of nesting and open parts

The readers of parts are built level by level.  The same readers are had by
counting what is open: a value or an operation is read by opening one more,
reading its payload with the decoders themselves, and closing it again,
whether or not the payload could be read.
-/

namespace StackAssembly
namespace Image

/-- The decoders as readers of the parts of a payload. -/
def decodeParts (dialect : Dialect) : PartDecoders where
  value := decodeValue dialect
  operation := decodeOperation dialect

/-- Close the innermost open value or operation behind a decoder, also where
the decoder fails. -/
def Decoder.closing {α : Type} (decoder : Decoder α) : Decoder α :=
  fun reader =>
    match decoder reader with
    | .ok value next => .ok value next.leave
    | .error failure next => .error failure next.leave

/-- Run a decoder with one more value or operation open. -/
def Decoder.nested {α : Type} (decoder : Decoder α) : Decoder α := do
  Decoder.begin
  Decoder.enter
  decoder.closing

/-- The reader at the same place, with so many parts open. -/
def ByteReader.atDepth (reader : ByteReader) (depth : Nat) : ByteReader :=
  { reader with depth }

theorem ByteReader.rest_atDepth (reader : ByteReader) (depth : Nat) :
    (reader.atDepth depth).rest = reader.rest :=
  rfl

theorem ByteReader.leave_atDepth (reader : ByteReader) :
    (reader.atDepth (reader.depth + 1)).leave = reader :=
  rfl

/-- Whether two runs end alike, the second one with one more part open. -/
inductive Mirrors {α : Type} (depth : Nat) :
    EStateM.Result DecodeError ByteReader α →
      EStateM.Result DecodeError ByteReader α → Prop where
  | ok (value : α) (next : ByteReader) (kept : next.depth = depth) :
      Mirrors depth (.ok value next) (.ok value (next.atDepth (depth + 1)))
  | error (failure : DecodeError) (next : ByteReader)
      (kept : next.depth = depth) :
      Mirrors depth (.error failure next)
        (.error failure (next.atDepth (depth + 1)))

/-- Whether a decoder reads with one more part open as another one reads. -/
def Decoder.OneDeeper (depth : Nat) ⦃α : Type⦄ (decoder deeper : Decoder α) :
    Prop :=
  ∀ reader, reader.depth = depth →
    Mirrors depth (decoder reader) (deeper (reader.atDepth (depth + 1)))

namespace Decoder

theorem OneDeeper.bind {α β : Type} {depth : Nat} {first other : Decoder α}
    {later otherLater : α → Decoder β} (one : OneDeeper depth first other)
    (two : ∀ value, OneDeeper depth (later value) (otherLater value)) :
    OneDeeper depth (first >>= later) (other >>= otherLater) := by
  intro reader here
  have mirrored := one reader here
  cases run : first reader with
  | ok value next =>
      rw [run] at mirrored
      generalize runDeeper : other (reader.atDepth (depth + 1)) = deeper
        at mirrored
      cases mirrored with
      | ok _ _ kept =>
          rw [bind_of_ok run, bind_of_ok runDeeper]
          exact two value next kept
  | error failure next =>
      rw [run] at mirrored
      generalize runDeeper : other (reader.atDepth (depth + 1)) = deeper
        at mirrored
      cases mirrored with
      | error _ _ kept =>
          rw [bind_of_error run, bind_of_error runDeeper]
          exact .error failure next kept

/-- No decoder looks at the number of open parts. -/
theorem compositional_oneDeeper (depth : Nat) :
    Compositional (fun _ => True) (OneDeeper depth) where
  pure value reader here := .ok value reader here
  bind one two := one.bind two
  fromOffset later reader here := later reader.offset trivial reader here
  failAt start defect _ reader here := .error _ reader here
  byte reader here := by
    rw [byte_eq, byte_eq, ByteReader.rest_atDepth]
    cases reader.rest with
    | nil => exact .error _ reader here
    | cons first rest => exact .ok first (reader.skip 1) here
  bytes count reader here := by
    rw [bytes_eq, bytes_eq, ByteReader.rest_atDepth]
    split
    · exact .error _ reader here
    · exact .ok _ (reader.skip count) here
  untilByte delimiter reader here := by
    rw [untilByte_eq, untilByte_eq, ByteReader.rest_atDepth]
    split
    · exact .error _ reader here
    · exact .ok _ (reader.skip _) here

theorem oneDeeper_begin (depth : Nat) :
    OneDeeper depth Decoder.begin Decoder.begin :=
  fun _ here => .ok () _ here

end Decoder

open Decoder

/-- The readers of parts do not look at the number of open parts. -/
theorem oneDeeper_within (dialect : Dialect) (depth levels : Nat) :
    (PartDecoders.within dialect levels).Related (OneDeeper depth)
      (PartDecoders.within dialect levels) := by
  have goes := compositional_oneDeeper depth
  have begun := oneDeeper_begin depth
  induction levels with
  | zero =>
      exact ⟨begun.bind fun _ => goes.fail _, begun.bind fun _ => goes.fail _⟩
  | succ levels ih =>
      exact ⟨begun.bind fun _ => ih.markedValue goes dialect,
        begun.bind fun _ => ih.taggedOperation goes dialect⟩

/-- With one more part open, the decoders read as the readers of parts within
the levels that are then left. -/
theorem oneDeeper_decodeParts (dialect : Dialect) {depth levels : Nat}
    (left : depth + 1 + levels = maxNesting) :
    (PartDecoders.within dialect levels).Related (OneDeeper depth)
      (decodeParts dialect) := by
  obtain rfl : levels = maxNesting - (depth + 1) := by omega
  have same :=
    oneDeeper_within dialect depth (maxNesting - (depth + 1))
  exact ⟨fun reader here => same.value reader here,
    fun reader here => same.operation reader here⟩

theorem Decoder.enter_eq (reader : ByteReader) :
    Decoder.enter reader =
      if maxNesting ≤ reader.depth then
        .error { offset := reader.offset, defect := .nestingTooDeep } reader
      else
        .ok () (reader.atDepth (reader.depth + 1)) := by
  change (if maxNesting ≤ reader.depth then Decoder.fail .nestingTooDeep
    else set (reader.atDepth (reader.depth + 1)) : Decoder _) reader = _
  split <;> rfl

/-- A reader of parts that opens one more level reads with one more part
open. -/
theorem withParts_eq_nested {α : Type} {dialect : Dialect}
    {read body : PartDecoders → Decoder α}
    (refused : read (PartDecoders.within dialect 0) = Decoder.refuse)
    (opened : ∀ levels, read (PartDecoders.within dialect (levels + 1)) =
      Decoder.begin >>= fun _ => body (PartDecoders.within dialect levels))
    (goes : ∀ {depth parts others},
      parts.Related (OneDeeper depth) others →
        OneDeeper depth (body parts) (body others)) :
    withParts dialect read = (body (decodeParts dialect)).nested := by
  funext reader
  change read (PartDecoders.within dialect (maxNesting - reader.depth)) reader
    = (Decoder.enter >>= fun _ => (body (decodeParts dialect)).closing)
        { reader with reads := reader.reads + 1 }
  generalize counted : { reader with reads := reader.reads + 1 } = begun
  have depth : begun.depth = reader.depth := by rw [← counted]
  -- Levels are used up exactly where no more may be opened.
  by_cases full : maxNesting ≤ reader.depth
  · have entered := Decoder.enter_eq begun
    rw [depth, if_pos full] at entered
    rw [Nat.sub_eq_zero_of_le full, refused, bind_of_error entered, ← counted]
    rfl
  · obtain ⟨levels, left⟩ : ∃ levels, reader.depth + 1 + levels = maxNesting :=
      ⟨maxNesting - (reader.depth + 1), by omega⟩
    have entered := Decoder.enter_eq begun
    rw [if_neg (depth ▸ full)] at entered
    have mirrored := goes (oneDeeper_decodeParts dialect left) begun depth
    have opens : maxNesting - reader.depth = levels + 1 := by omega
    have begins : (Decoder.begin >>= fun _ =>
        body (PartDecoders.within dialect levels)) reader =
          body (PartDecoders.within dialect levels) begun := by
      rw [← counted]
      rfl
    rw [opens, opened, begins, bind_of_ok entered, depth, Decoder.closing]
    generalize body (PartDecoders.within dialect levels) begun = plain
      at mirrored ⊢
    generalize body (decodeParts dialect) _ = deeper at mirrored ⊢
    cases mirrored with
    | ok value next kept =>
        rw [← kept]
        exact congrArg _ next.leave_atDepth.symm
    | error failure next kept =>
        rw [← kept]
        exact congrArg _ next.leave_atDepth.symm

/-- A value is read by opening one more part. -/
theorem decodeValue_eq_nested (dialect : Dialect) :
    decodeValue dialect =
      ((decodeParts dialect).markedValue dialect).nested :=
  withParts_eq_nested rfl (fun _ => PartDecoders.openValue_eq dialect _)
    fun each => each.markedValue (compositional_oneDeeper _) dialect

/-- An operation is read by opening one more part. -/
theorem decodeOperation_eq_nested (dialect : Dialect) :
    decodeOperation dialect =
      ((decodeParts dialect).taggedOperation dialect).nested :=
  withParts_eq_nested rfl (fun _ => PartDecoders.openOperation_eq dialect _)
    fun each => each.taggedOperation (compositional_oneDeeper _) dialect

end Image
end StackAssembly
