import StackAssembly.Proofs.Image.RoundTrip
import Mathlib.Data.List.Flatten

/-!
# Spellings of values in bytes

Reading is more tolerant than writing: a truth value may be any byte, and a
table or a set may list a key or a member more than once.  The rules here say
which bytes are read as which value, and they note every such *oddity*.  What
is written for the value is never longer than what was read, and it is the same
exactly where nothing odd was read.

As in the grammar of texts, the rules tell what a value or an operation
consists of, given what its parts may be, and are applied as many times as
values and operations may be open at once.
-/

namespace StackAssembly
namespace Image

/-- Something that can be read and is never written. -/
inductive Oddity where
  /-- A truth value, or the flag of a fallback, other than 0 and 1. -/
  | flag (byte : UInt8)
  /-- A key of a table that equals an earlier key of it. -/
  | repeatedKey
  /-- A member of a set that equals an earlier member of it. -/
  | repeatedMember
  deriving DecidableEq

/-- Bytes together with what they are read as and the oddities among them. -/
abbrev Spelling (α : Type) : Type := List UInt8 → α → List Oddity → Prop

/-- The spellings of the two kinds of parts that contain one another. -/
structure Spellings where
  /-- The bytes of values. -/
  value : Spelling Value
  /-- The bytes of operations. -/
  operation : Spelling Operation

/-- The oddity of the byte of a truth value. -/
def flagOddities (byte : UInt8) : List Oddity :=
  if byte = 0 ∨ byte = 1 then [] else [.flag byte]

/-- The oddity of the entries of a table. -/
def keyOddities (pairs : List (Value × Value)) : List Oddity :=
  if Entries.Distinct pairs then [] else [.repeatedKey]

/-- The oddity of the members of a set. -/
def memberOddities (values : List Value) : List Oddity :=
  if Members.Distinct values then [] else [.repeatedMember]

/-- A truth value: every byte other than zero stands for truth. -/
inductive FlagSpelling : Spelling Bool where
  | intro (byte : UInt8) :
      FlagSpelling [byte] (byte != 0) (flagOddities byte)

/-- Items one after the other. -/
inductive ItemSpelling {α : Type} (item : Spelling α) :
    Spelling (List α) where
  | nil : ItemSpelling item [] [] []
  | cons {bytes more : List UInt8} {value : α} {values : List α}
      {odd others : List Oddity} (first : item bytes value odd)
      (later : ItemSpelling item more values others) :
      ItemSpelling item (bytes ++ more) (value :: values) (odd ++ others)

/-- Items behind their count. -/
inductive CountedSpelling {α : Type} (item : Spelling α) :
    Spelling (List α) where
  | intro {bytes : List UInt8} {values : List α} {odd : List Oddity}
      (countable : Countable values.length)
      (items : ItemSpelling item bytes values odd) :
      CountedSpelling item (lengthField values.length ++ bytes) values odd

/-- A key and its value. -/
inductive EntrySpelling (parts : Spellings) : Spelling (Value × Value) where
  | intro {bytes more : List UInt8} {key value : Value}
      {odd others : List Oddity} (first : parts.value bytes key odd)
      (second : parts.value more value others) :
      EntrySpelling parts (bytes ++ more) (key, value) (odd ++ others)

/-- The entries of a table, of which the first for a key counts. -/
inductive TableSpelling (parts : Spellings) : Spelling Entries where
  | intro {bytes : List UInt8} {pairs : List (Value × Value)}
      {odd : List Oddity}
      (read : CountedSpelling (EntrySpelling parts) bytes pairs odd) :
      TableSpelling parts bytes (Entries.ofPairs pairs)
        (odd ++ keyOddities pairs)

/-- The members of a set, of which the first of equal ones counts. -/
inductive SetSpelling (parts : Spellings) : Spelling Members where
  | intro {bytes : List UInt8} {values : List Value} {odd : List Oddity}
      (read : CountedSpelling parts.value bytes values odd) :
      SetSpelling parts bytes (Members.ofValues values)
        (odd ++ memberOddities values)

/-- A fallback behind a flag for its presence. -/
inductive AlternativeSpelling (parts : Spellings) :
    Spelling (Option Operation) where
  | absent : AlternativeSpelling parts [0] none []
  | present {byte : UInt8} {bytes : List UInt8} {operation : Operation}
      {odd : List Oddity} (flagged : byte ≠ 0)
      (read : parts.operation bytes operation odd) :
      AlternativeSpelling parts (byte :: bytes) (some operation)
        (flagOddities byte ++ odd)

/-- The spellings of values. -/
inductive ValueSpelling (parts : Spellings) : Spelling Value where
  | empty : ValueSpelling parts Value.empty.encode .empty []
  | number (word : UInt64) :
      ValueSpelling parts (Value.number word).encode (.number word) []
  | boolean {bytes : List UInt8} {truth : Bool} {odd : List Oddity}
      (read : FlagSpelling bytes truth odd) :
      ValueSpelling parts (0x3f :: bytes) (.boolean truth) odd
  | character (code : UInt32) :
      ValueSpelling parts (Value.character code).encode (.character code) []
  | string {text : String} (countable : CountableText text) :
      ValueSpelling parts (Value.string text).encode (.string text) []
  | atom {name : String} (free : DelimiterFree name) :
      ValueSpelling parts (Value.atom name).encode (.atom name) []
  | error (code : ErrorCode) :
      ValueSpelling parts (Value.error code).encode (.error code) []
  | type (kind : ValueKind) :
      ValueSpelling parts (Value.type kind).encode (.type kind) []
  | tuple {bytes : List UInt8} {items : List Value} {odd : List Oddity}
      (read : CountedSpelling parts.value bytes items odd) :
      ValueSpelling parts (0x28 :: bytes) (.tuple items) odd
  | table {bytes : List UInt8} {entries : Entries} {odd : List Oddity}
      (read : TableSpelling parts bytes entries odd) :
      ValueSpelling parts (0x5b :: bytes) (.table entries) odd
  | set {bytes : List UInt8} {members : Members} {odd : List Oddity}
      (read : SetSpelling parts bytes members odd) :
      ValueSpelling parts (0x55 :: bytes) (.set members) odd
  | operation {bytes : List UInt8} {body : Operation} {odd : List Oddity}
      (read : parts.operation bytes body odd) :
      ValueSpelling parts (0x4f :: bytes) (.operation body) odd

/-- The spellings of operations. -/
inductive OperationSpelling (parts : Spellings) : Spelling Operation where
  | primitive (which : Primitive) :
      OperationSpelling parts (Operation.primitive which).encode
        (.primitive which) []
  | push {bytes : List UInt8} {value : Value} {odd : List Oddity}
      (read : parts.value bytes value odd) :
      OperationSpelling parts (tagField .push ++ bytes) (.push value) odd
  | ifTrue {bytes : List UInt8} {body : Operation} {odd : List Oddity}
      (read : parts.operation bytes body odd) :
      OperationSpelling parts (tagField .ifTrue ++ bytes) (.ifTrue body) odd
  | select {bytes more : List UInt8} {cases : Entries}
      {otherwise : Option Operation} {odd others : List Oddity}
      (read : TableSpelling parts bytes cases odd)
      (last : AlternativeSpelling parts more otherwise others) :
      OperationSpelling parts (tagField .select ++ (bytes ++ more))
        (.select cases otherwise) (odd ++ others)
  | named (use : NameUse) {name : String} (free : DelimiterFree name) :
      OperationSpelling parts (Operation.named use name).encode
        (.named use name) []
  | call {target : String} {bytes : List UInt8} {arguments : List Value}
      {odd : List Oddity} (free : DelimiterFree target)
      (read : CountedSpelling parts.value bytes arguments odd) :
      OperationSpelling parts
        (tagField .call ++ (nameField target ++ bytes))
        (.call target arguments) odd
  | loadNative {path : String} (countable : CountableText path) :
      OperationSpelling parts (Operation.loadNative path).encode
        (.loadNative path) []
  | native {bucket name : String} (free : DelimiterFree bucket)
      (alsoFree : DelimiterFree name) :
      OperationSpelling parts (Operation.native bucket name).encode
        (.native bucket name) []
  | block {slots : List String} {bytes : List UInt8}
      {operations : List Operation} {odd : List Oddity}
      (countable : Countable slots.length)
      (free : ∀ slot ∈ slots, DelimiterFree slot)
      (read : CountedSpelling parts.operation bytes operations odd) :
      OperationSpelling parts
        (tagField .block ++ (lengthField slots.length ++
          (slots.flatMap nameField ++ bytes)))
        (.block slots operations) odd
  | partialBind {bytes more : List UInt8} {value : Value}
      {callable : Operation} {odd others : List Oddity}
      (first : parts.value bytes value odd)
      (second : parts.operation more callable others) :
      OperationSpelling parts (tagField .partialBind ++ (bytes ++ more))
        (.partialBind value callable) (odd ++ others)

/-- What is spelled with at most so many values and operations open at
once. -/
def spelled : (levels : Nat) → Spellings
  | 0 => ⟨fun _ _ _ => False, fun _ _ _ => False⟩
  | levels + 1 =>
      ⟨ValueSpelling (spelled levels), OperationSpelling (spelled levels)⟩

/-- Whether written bytes are no longer than those that were read, and the
same exactly if nothing odd was read. -/
def Tidies (written read : List UInt8) (odd : List Oddity) : Prop :=
  written.length ≤ read.length ∧ (written = read ↔ odd = [])

namespace Tidies

variable {written read more rest : List UInt8} {odd others : List Oddity}

theorem refl (bytes : List UInt8) : Tidies bytes bytes [] :=
  ⟨Nat.le_refl _, iff_of_true rfl rfl⟩

/-- Parts that are no longer make the same whole only if each is the same. -/
theorem append (one : Tidies written read odd)
    (two : Tidies more rest others) :
    Tidies (written ++ more) (read ++ rest) (odd ++ others) := by
  obtain ⟨short, same⟩ := one
  obtain ⟨shortLater, sameLater⟩ := two
  constructor
  · simp only [List.length_append]
    omega
  · rw [List.append_eq_nil_iff, ← same, ← sameLater]
    constructor
    · intro whole
      have lengths := congrArg List.length whole
      simp only [List.length_append] at lengths
      exact List.append_inj whole (by omega)
    · rintro ⟨rfl, rfl⟩
      rfl

theorem behind (front : List UInt8) (tidies : Tidies written read odd) :
    Tidies (front ++ written) (front ++ read) odd :=
  (refl front).append tidies

theorem cons (byte : UInt8) (tidies : Tidies written read odd) :
    Tidies (byte :: written) (byte :: read) odd :=
  tidies.behind [byte]

end Tidies

/-- Whether what is written for a value tidies all of its spellings. -/
def Spelling.TidiedBy {α : Type} (spelling : Spelling α)
    (write : α → List UInt8) : Prop :=
  ∀ bytes value odd, spelling bytes value odd →
    Tidies (write value) bytes odd

theorem flagOddities_eq_nil_iff {byte : UInt8} :
    flagOddities byte = [] ↔ byte = 0 ∨ byte = 1 := by
  unfold flagOddities
  split <;> simp_all

theorem tidies_flag (byte : UInt8) :
    Tidies (booleanField (byte != 0)) [byte] (flagOddities byte) := by
  refine ⟨Nat.le_refl 1, ?_⟩
  rw [flagOddities_eq_nil_iff, booleanField]
  by_cases zero : byte = 0
  · subst zero
    decide
  rw [bne_iff_ne.mpr zero]
  constructor
  · intro same
    exact .inr (List.cons.inj same).1.symm
  · rintro (rfl | rfl)
    · exact absurd rfl zero
    · rfl

theorem FlagSpelling.tidied : Spelling.TidiedBy FlagSpelling booleanField := by
  rintro _ _ _ ⟨byte⟩
  exact tidies_flag byte

section Items

variable {α : Type} {item : Spelling α} {write : α → List UInt8}

theorem ItemSpelling.tidied (each : item.TidiedBy write) :
    (ItemSpelling item).TidiedBy fun values => values.flatMap write := by
  intro bytes values odd read
  induction read with
  | nil => exact .refl []
  | cons first later ih => exact (each _ _ _ first).append ih

theorem CountedSpelling.tidied (each : item.TidiedBy write) :
    (CountedSpelling item).TidiedBy fun values =>
      lengthField values.length ++ values.flatMap write := by
  rintro _ _ _ ⟨countable, items⟩
  exact (ItemSpelling.tidied each _ _ _ items).behind _

/-- Leaving out items that repeat others shortens what was read, and keeping
all of them does not change it. -/
theorem CountedSpelling.tidied_of_sublist (each : item.TidiedBy write)
    {bytes : List UInt8} {values kept : List α} {odd dropped : List Oddity}
    (read : CountedSpelling item bytes values odd)
    (within : kept.Sublist values) (whole : kept = values ↔ dropped = []) :
    Tidies (lengthField kept.length ++ kept.flatMap write) bytes
      (odd ++ dropped) := by
  by_cases same : kept = values
  · rw [whole.mp same, List.append_nil, same]
    exact CountedSpelling.tidied each _ _ _ read
  obtain ⟨countable, items⟩ := read
  have short := (ItemSpelling.tidied each _ _ _ items).1
  have fewer : kept.length < values.length :=
    Nat.lt_of_le_of_ne within.length_le (mt within.eq_of_length same)
  constructor
  · have shorter := (within.flatMap write).length_le
    simp only [List.length_append, lengthField, length_numberField]
    exact Nat.add_le_add_left (Nat.le_trans shorter short) _
  · refine iff_of_false (fun equal => ?_) fun none => ?_
    -- The counts come first and are equally long, so they would be equal.
    · have counts := (List.append_inj equal (by simp [lengthField])).1
      have counted := lengthField_injective
        (Nat.lt_trans fewer countable) countable counts
      omega
    · exact same (whole.mpr (List.append_eq_nil_iff.mp none).2)

end Items

/-- Whether written values and operations tidy the spellings of parts. -/
structure Spellings.Tidied (parts : Spellings) : Prop where
  value : parts.value.TidiedBy Value.encode
  operation : parts.operation.TidiedBy Operation.encode

namespace Spellings.Tidied

variable {parts : Spellings}

theorem tuple (tidied : parts.Tidied) :
    (CountedSpelling parts.value).TidiedBy fun items =>
      lengthField items.length ++ encodeItems items := by
  intro bytes items odd read
  simp only [encodeItems_eq_flatMap]
  exact CountedSpelling.tidied tidied.value _ _ _ read

theorem table (tidied : parts.Tidied) :
    (TableSpelling parts).TidiedBy fun entries =>
      lengthField entries.length ++ encodeEntries entries := by
  have each : (EntrySpelling parts).TidiedBy fun entry =>
      entry.1.encode ++ entry.2.encode := by
    rintro _ _ _ ⟨first, second⟩
    exact (tidied.value _ _ _ first).append (tidied.value _ _ _ second)
  rintro bytes _ _ ⟨read⟩
  simp only [encodeEntries_eq_flatMap]
  refine read.tidied_of_sublist each (Entries.ofPairs_sublist _) ?_
  rw [Entries.ofPairs_eq_self_iff, keyOddities]
  split <;> simp_all

theorem set (tidied : parts.Tidied) :
    (SetSpelling parts).TidiedBy fun members =>
      lengthField members.length ++ encodeItems members := by
  rintro bytes _ _ ⟨read⟩
  simp only [encodeItems_eq_flatMap]
  refine read.tidied_of_sublist tidied.value (Members.ofValues_sublist _) ?_
  rw [Members.ofValues_eq_self_iff, memberOddities]
  split <;> simp_all

theorem alternative (tidied : parts.Tidied) :
    (AlternativeSpelling parts).TidiedBy encodeAlternative := by
  intro bytes otherwise odd read
  cases read with
  | absent => exact .refl _
  | @present byte _ _ _ flagged read =>
      have flag := tidies_flag byte
      rw [bne_iff_ne.mpr flagged] at flag
      exact flag.append (tidied.operation _ _ _ read)

theorem block (tidied : parts.Tidied) :
    (CountedSpelling parts.operation).TidiedBy fun operations =>
      lengthField operations.length ++ encodeOperations operations := by
  intro bytes operations odd read
  simp only [encodeOperations_eq_flatMap]
  exact CountedSpelling.tidied tidied.operation _ _ _ read

theorem valueSpelling (tidied : parts.Tidied) :
    (ValueSpelling parts).TidiedBy Value.encode := by
  intro bytes value odd read
  cases read with
  | boolean read => exact (FlagSpelling.tidied _ _ _ read).cons _
  | tuple read => exact (tidied.tuple _ _ _ read).cons _
  | table read => exact (tidied.table _ _ _ read).cons _
  | set read => exact (tidied.set _ _ _ read).cons _
  | operation read => exact (tidied.operation _ _ _ read).cons _
  | _ => exact .refl _

theorem operationSpelling (tidied : parts.Tidied) :
    (OperationSpelling parts).TidiedBy Operation.encode := by
  intro bytes operation odd read
  cases read with
  | push read => exact (tidied.value _ _ _ read).behind _
  | ifTrue read => exact (tidied.operation _ _ _ read).behind _
  | select read last =>
      rw [Operation.encode, ← List.append_assoc (lengthField _)]
      exact ((tidied.table _ _ _ read).append
        (tidied.alternative _ _ _ last)).behind _
  | call free read =>
      exact ((tidied.tuple _ _ _ read).behind _).behind _
  | block countable free read =>
      exact (((tidied.block _ _ _ read).behind _).behind _).behind _
  | partialBind first second =>
      exact ((tidied.value _ _ _ first).append
        (tidied.operation _ _ _ second)).behind _
  | _ => exact .refl _

end Spellings.Tidied

/-- What is written tidies whatever is spelled. -/
theorem tidied_spelled (levels : Nat) : (spelled levels).Tidied := by
  induction levels with
  | zero => exact ⟨nofun, nofun⟩
  | succ levels ih => exact ⟨ih.valueSpelling, ih.operationSpelling⟩

end Image
end StackAssembly
