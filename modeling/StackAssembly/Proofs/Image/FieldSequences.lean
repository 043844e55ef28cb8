import StackAssembly.Proofs.Image.Reading
import StackAssembly.Proofs.Value.WellFormed

/-!
# Fields behind one another

Nothing but their order holds the fields of an image together: what has been
written does not say which kinds of fields it consists of.  If the kinds are
asked for in the order in which they were written, every field is found where
the one before it ends, whatever is written behind them all.
-/

namespace StackAssembly
namespace Image

/-- What can be written as one field. -/
inductive Field where
  | byte (value : UInt8)
  | number (width value : Nat)
  | length (count : Nat)
  | boolean (truth : Bool)
  | name (text : String)
  | data (text : String)
  deriving DecidableEq

/-- What has to be known to read a field. -/
inductive FieldKind where
  | byte
  | number (width : Nat)
  | length
  | boolean
  | name
  | data

namespace Field

/-- Write a field behind the bytes that have been written. -/
def writeBehind (written : List UInt8) : Field → List UInt8
  | .byte value => written ++ [value]
  | .number width value => written ++ numberField width value
  | .length count => written ++ lengthField count
  | .boolean truth => written ++ booleanField truth
  | .name text => written ++ nameField text
  | .data text => written ++ textField text

/-- The kind of a field, which its content is no part of. -/
def kind : Field → FieldKind
  | .byte _ => .byte
  | .number width _ => .number width
  | .length _ => .length
  | .boolean _ => .boolean
  | .name _ => .name
  | .data _ => .data

/-- Whether something can be written so that nothing but the high digits of a
number gets lost. -/
def Writable : Field → Prop
  | .number width _ => 1 ≤ width ∧ width ≤ 8
  | .length count => Countable count
  | .name text => DelimiterFree text
  | .data text => CountableText text
  | .byte _ | .boolean _ => True

instance : (field : Field) → Decidable field.Writable
  | .number width _ => inferInstanceAs (Decidable (1 ≤ width ∧ width ≤ 8))
  | .length count => inferInstanceAs (Decidable (Countable count))
  | .name text => inferInstanceAs (Decidable (DelimiterFree text))
  | .data text => inferInstanceAs (Decidable (CountableText text))
  | .byte _ | .boolean _ => .isTrue trivial

/-- What is left of a field once it has been written. -/
def reduced : Field → Field
  | .number width value => .number width (value % 2 ^ (8 * width))
  | field => field

end Field

/-- Read a field of a kind. -/
def FieldKind.read : FieldKind → Decoder Field
  | .byte => do return .byte (← Decoder.byte)
  | .number width => do return .number width (← Decoder.number width)
  | .length => do return .length (← Decoder.length)
  | .boolean => do return .boolean (← Decoder.boolean)
  | .name => do return .name (← Decoder.name)
  | .data => do return .data (← Decoder.data)

/-- Read fields of the given kinds, one behind the other. -/
def readFields : List FieldKind → Decoder (List Field)
  | [] => return []
  | kind :: kinds => do
      let first ← kind.read
      let later ← readFields kinds
      return first :: later

/-- A field is added to what has been written, which stays as it is. -/
theorem Field.writeBehind_eq_append (written : List UInt8) (field : Field) :
    field.writeBehind written = written ++ field.writeBehind [] := by
  cases field <;> rfl

theorem foldl_writeBehind (written : List UInt8) (fields : List Field) :
    fields.foldl Field.writeBehind written =
      written ++ fields.flatMap (Field.writeBehind []) := by
  induction fields generalizing written with
  | nil => exact (List.append_nil written).symm
  | cons field fields ih =>
      rw [List.foldl_cons, ih, field.writeBehind_eq_append,
        List.append_assoc, List.flatMap_cons]

/-- A field is read from its bytes by its kind. -/
theorem reads_field {field : Field} (writable : field.Writable) :
    field.kind.read.Reads (field.writeBehind []) True field.reduced := by
  cases field with
  | byte value => exact (Decoder.reads_byte value).map Field.byte
  | number width value =>
      obtain ⟨positive, small⟩ := writable
      have bytes : 256 ^ width = 2 ^ (8 * width) := (Nat.pow_mul 2 8 width).symm
      have reading := (Decoder.reads_number positive small value).map
        (Field.number width)
      rw [bytes] at reading
      exact reading
  | length count => exact (Decoder.reads_length writable).map Field.length
  | boolean truth => exact (Decoder.reads_boolean truth).map Field.boolean
  | name text => exact (Decoder.reads_name writable).map Field.name
  | data text => exact (Decoder.reads_data writable).map Field.data

/-- Every field starts where the one before it ends. -/
theorem reads_fields {fields : List Field}
    (writable : ∀ field ∈ fields, field.Writable) :
    (readFields (fields.map Field.kind)).Reads
      (fields.flatMap (Field.writeBehind [])) True
      (fields.map Field.reduced) := by
  induction fields with
  | nil => exact Decoder.reads_pure []
  | cons field fields ih =>
      obtain ⟨first, later⟩ := List.forall_mem_cons.mp writable
      rw [List.flatMap_cons]
      apply (reads_field first).after
      exact (ih later).map (field.reduced :: ·)

/-- Fields that are written one behind the other are read one behind the other
by asking for their kinds in this order, wherever their bytes stand and
whatever follows them.  Every field is read as it was written, a number up to
its width, and reading ends where writing has ended. -/
theorem fields_are_read_in_order {fields : List Field}
    (writable : ∀ field ∈ fields, field.Writable) (suffix : List UInt8)
    (reader : ByteReader)
    (here : reader.rest = fields.foldl Field.writeBehind [] ++ suffix) :
    ∃ next, readFields (fields.map Field.kind) reader =
        .ok (fields.map Field.reduced) next ∧
      next.offset =
        reader.offset + (fields.foldl Field.writeBehind []).length ∧
      next.rest = suffix ∧ next.depth = reader.depth := by
  rw [foldl_writeBehind, List.nil_append] at here ⊢
  obtain ⟨reads, run⟩ := (reads_fields writable reader suffix here).1 trivial
  exact ⟨_, run, rfl, rfl, rfl⟩

/-- Quotation marks in a text and behind the fields end no name, and a number
loses what does not fit into two bytes. -/
theorem quoted_fields_read_in_order :
    let fields : List Field :=
      [.byte 0x27, .name "größe", .number 2 0x12345, .data "it's",
        .boolean true, .length 3]
    (∀ field ∈ fields, field.Writable) ∧
    ∃ next, readFields (fields.map Field.kind)
        (.ofBytes (fields.foldl Field.writeBehind [] ++ [0x27])) =
      .ok [.byte 0x27, .name "größe", .number 2 0x2345, .data "it's",
        .boolean true, .length 3] next ∧
      next.offset = 33 ∧ next.rest = [0x27] := by
  intro fields
  have writable : ∀ field ∈ fields, field.Writable := by decide
  obtain ⟨next, run, offset, rest, -⟩ := fields_are_read_in_order writable
    [0x27] (.ofBytes (fields.foldl Field.writeBehind [] ++ [0x27])) rfl
  refine ⟨writable, next, run, ?_, rest⟩
  rw [offset]
  decide

end Image
end StackAssembly
