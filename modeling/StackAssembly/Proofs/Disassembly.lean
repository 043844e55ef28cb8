import StackAssembly.Disassembly
import StackAssembly.Proofs.Assembly

/-!
# Disassembly is faithful

What is decoded from an image can be listed so that it is read back: its
tables and sets repeat nothing, and no listing nests deeper than an image.  So
the listing of an image is a program with the entries of the image, in their
order.  The image of a store lists its entries in the order of their names; if
these names hold no delimiters, assembling the listing restores the image, and
no other image is restored.  A name that holds delimiters is taken apart into
entries whose order need not be that of their names.
-/

namespace StackAssembly

open Image

/-- Whether the name of an entry and all names in its value are
identifiers. -/
def NamedEntry (entry : String × Value) : Prop :=
  Text.isIdentifier entry.1 = true ∧
    entry.2.NamesAre (Text.isIdentifier · = true)

/-- What an image can hold repeats nothing in its tables and sets. -/
theorem follows_distinct :
    PartCondition.Follows readableParts readableParts .distinct where
  onValue value holds _ := by
    cases value with
    | table entries => exact holds.1.2
    | set members => exact holds.1.2
    | _ => trivial
  onOperation operation holds _ := by
    cases operation with
    | select cases otherwise => exact holds.1.2
    | _ => trivial

/-- A value of an image whose names are identifiers can be listed. -/
theorem listable_of_readable {value : Value}
    (readable : value.Throughout readableParts)
    (fits : value.nesting ≤ maxNesting)
    (named : value.NamesAre (Text.isIdentifier · = true)) :
    Source.Listable value where
  unrepeated :=
    Value.Throughout.combine follows_distinct value readable readable
  named := named
  fit := Nat.le_trans value.textNesting_le_nesting fits

section Entries

variable {dialect : Dialect} {fuel : Nat} {reader last : ByteReader}
  {entries : List (String × Value)}

theorem decodeEntries_succ (dialect : Dialect) (fuel : Nat)
    (reader : ByteReader) :
    decodeEntries dialect (fuel + 1) reader =
      if reader.atEnd then .ok [] reader
      else (do
        let first ← decodeEntry dialect
        let later ← decodeEntries dialect fuel
        return first :: later : Decoder _) reader := by
  change (if reader.atEnd then (return [] : Decoder _) else _) reader = _
  split <;> rfl

/-- Where entries are decoded, the reader is at its end, or one entry is
followed by others. -/
theorem decodeEntries_cases
    (run : decodeEntries dialect (fuel + 1) reader = .ok entries last) :
    (reader.rest = [] ∧ entries = [] ∧ last = reader) ∨
    ∃ first later next, entries = first :: later ∧ reader.rest ≠ [] ∧
      decodeEntry dialect reader = .ok first next ∧
      decodeEntries dialect fuel next = .ok later last := by
  rw [decodeEntries_succ] at run
  split at run
  · next ended =>
      cases run
      exact .inl ⟨List.isEmpty_iff.mp ended, rfl, rfl⟩
  · next more =>
      obtain ⟨first, next, ran, goesOn⟩ := exists_of_bind_ok run
      obtain ⟨later, final, rest, returned⟩ := exists_of_bind_ok goesOn
      cases returned
      exact .inr ⟨first, later, next, rfl, mt List.isEmpty_iff.mpr more, ran,
        rest⟩

/-- An entry takes bytes. -/
theorem length_rest_lt_of_decodeEntry {entry : String × Value}
    {next : ByteReader} (run : decodeEntry dialect reader = .ok entry next) :
    next.rest.length < reader.rest.length := by
  obtain ⟨-, bytes, split, same⟩ :=
    delivers_decodeEntry dialect reader entry next run
  have visible : bytes ≠ [] := by
    rintro rfl
    cases same []
  have positive := List.length_pos_iff.mpr visible
  rw [split, List.length_append]
  omega

/-- All bytes are decoded, into entries that can be read back. -/
theorem readable_of_decodeEntries
    (run : decodeEntries dialect fuel reader = .ok entries last)
    (enough : reader.rest.length < fuel) :
    last.rest = [] ∧
      ∀ entry ∈ entries, ReadableEntry entry ∧ FitsImage entry := by
  induction fuel generalizing reader entries with
  | zero => cases enough
  | succ fuel ih =>
      rcases decodeEntries_cases run with
        ⟨ended, rfl, rfl⟩ | ⟨first, later, next, rfl, more, one, rest⟩
      · exact ⟨ended, nofun⟩
      · have shorter := length_rest_lt_of_decodeEntry one
        obtain ⟨ended, others⟩ := ih rest (by omega)
        have holds := (delivers_decodeEntry dialect reader first next one).1
        exact ⟨ended, List.forall_mem_cons.mpr ⟨holds, others⟩⟩

/-- From the bytes of entries nothing but these entries is decoded. -/
theorem eq_of_decodeEntries_encoded {todo : List (String × Value)}
    (readable : ∀ entry ∈ todo, ReadableEntry entry)
    (shallow : reader.depth = 0) (here : reader.rest = entriesBytes todo)
    (run : decodeEntries .standard fuel reader = .ok entries last)
    (enough : reader.rest.length < fuel) : entries = todo := by
  induction todo generalizing reader entries fuel with
  | nil =>
      obtain ⟨fuel, rfl⟩ := Nat.exists_eq_add_of_lt enough
      rcases decodeEntries_cases run with
        ⟨-, rfl, -⟩ | ⟨first, later, next, -, more, -, -⟩
      · rfl
      · exact absurd here more
  | cons entry todo ih =>
      obtain ⟨fuel, rfl⟩ := Nat.exists_eq_add_of_lt enough
      obtain ⟨one, others⟩ := List.forall_mem_cons.mp readable
      have split : reader.rest =
          encodeEntry entry.1 entry.2 ++ entriesBytes todo := here
      obtain ⟨done, refused⟩ := decodeEntry_encodeEntry one shallow split
      rcases decodeEntries_cases run with
        ⟨ended, -, -⟩ | ⟨first, later, next, rfl, -, decoded, rest⟩
      · rw [ended] at split
        have nothing := (List.append_eq_nil_iff.mp split.symm).1
        exact absurd nothing (encodeEntry_ne_nil _ _)
      · have shorter := length_rest_lt_of_decodeEntry decoded
        by_cases fits : FitsImage entry
        · obtain ⟨reads, whole⟩ := done fits
          cases decoded.symm.trans whole
          have behind : (reader.past (encodeEntry entry.1 entry.2)
              (entriesBytes todo) reads).depth = 0 := shallow
          rw [ih others behind rfl rest (by omega)]
        · obtain ⟨failure, final, refusal⟩ := refused fits
          cases decoded.symm.trans refusal

end Entries

/-- The image that is disassembled has the header and the listed entries. -/
theorem exists_of_disassemble {image : List UInt8} {listing : String}
    (listed : disassemble image = .ok listing) :
    ∃ entries last,
      decodeImage .standard (.ofBytes image) = .ok entries last ∧
      listing = Source.listProgram .listing entries := by
  rw [disassemble] at listed
  split at listed
  · next entries last decoded =>
      cases listed
      exact ⟨entries, last, decoded, rfl⟩
  · cases listed

/-- Behind the header, an image is decoded into entries. -/
theorem decodeEntries_of_decodeImage {dialect : Dialect}
    {reader last : ByteReader} {entries : List (String × Value)}
    (decoded : decodeImage dialect reader = .ok entries last) :
    ∃ next, readHeader reader = .ok () next ∧
      decodeEntries dialect (next.rest.length + 1) next =
        .ok entries last := by
  obtain ⟨_, next, header, rest⟩ := exists_of_bind_ok decoded
  refine ⟨next, header, ?_⟩
  change (Decoder.reporting
    (decodeEntries dialect (next.rest.length + 1))) next = _ at rest
  rw [Decoder.reporting] at rest
  split at rest
  · next run =>
      cases rest
      exact run
  · cases rest

/-- The image of a store is decoded into the entries of the store. -/
theorem eq_of_decodeImage_image {store : Bindings}
    (readable : ∀ entry ∈ store.entries, ReadableEntry entry)
    {entries : List (String × Value)} {last : ByteReader}
    (decoded : decodeImage .standard (.ofBytes store.image) =
      .ok entries last) : entries = store.entries := by
  obtain ⟨next, header, run⟩ := decodeEntries_of_decodeImage decoded
  have known : readHeader (.ofBytes store.image) =
      .ok () ((ByteReader.ofBytes store.image).past [formatVersion]
        (entriesBytes store.entries) 0) :=
    rfl
  cases header.symm.trans known
  have behind : ((ByteReader.ofBytes store.image).past [formatVersion]
      (entriesBytes store.entries) 0).depth = 0 := rfl
  exact eq_of_decodeEntries_encoded readable behind rfl run
    (Nat.lt_succ_self _)

/-- Adding a program that is read without an error gathers its entries. -/
theorem Assembly.addSource_of_parsed {source text : String}
    {entries : List (String × Value)}
    (parsed : Source.parseProgram .standard text = (entries, [])) :
    let assembly := Assembly.addSource {} source text
    let gathered := Bindings.empty.gather entries
    assembly.store = gathered.1 ∧
      (assembly.diagnostics = [] ↔ gathered.2 = []) := by
  intro assembly gathered
  have added : assembly = Assembly.addSource {} source text := rfl
  rw [addSource, parsed] at added
  rw [added]
  refine ⟨rfl, ?_⟩
  simp [gathered, Bindings.empty]

/-- A listing is a program with exactly the entries of its image, whose names
are identifiers.  Assembling it makes the image again if and only if the image
is that of a store whose names hold no delimiters. -/
theorem disassembly_is_faithful {image : List UInt8} {listing : String}
    (listed : disassemble image = .ok listing) :
    ∃ entries last,
      decodeImage .standard (.ofBytes image) = .ok entries last ∧
      last.rest = [] ∧
      ((∀ entry ∈ entries, NamedEntry entry) →
        Source.parseProgram .standard listing = (entries, []) ∧
        ∀ source,
          let assembly := Assembly.addSource {} source listing
          (assembly.diagnostics = [] ∧ assembly.image = image) ↔
            ∃ store : Bindings,
              (∀ entry ∈ store.entries, ReadableEntry entry) ∧
              store.image = image) := by
  obtain ⟨entries, last, decoded, rfl⟩ := exists_of_disassemble listed
  obtain ⟨next, -, run⟩ := decodeEntries_of_decodeImage decoded
  obtain ⟨ended, readable⟩ := readable_of_decodeEntries run
    (Nat.lt_succ_self _)
  refine ⟨entries, last, decoded, ended, fun named => ?_⟩
  have parsed : Source.parseProgram .standard
      (Source.listProgram .listing entries) = (entries, []) := by
    refine Source.parseProgram_listed .listing
      (fun entry member => (named entry member).1) fun entry member => ?_
    obtain ⟨⟨-, holds⟩, fits⟩ := readable entry member
    exact listable_of_readable holds fits (named entry member).2
  refine ⟨parsed, fun source => ?_⟩
  obtain ⟨gathered, silent⟩ :=
    @Assembly.addSource_of_parsed source _ entries parsed
  dsimp only
  rw [silent, Assembly.image, gathered]
  -- The gathered store is one that has the image, and if any store has it,
  -- then its entries are the decoded ones, already in order.
  constructor
  · rintro ⟨-, same⟩
    refine ⟨_, fun entry member => ?_, same⟩
    rcases Bindings.mem_of_mem_gather member with old | among
    · cases old
    · exact (readable entry among).1
  · rintro ⟨store, readableStore, rfl⟩
    have same := eq_of_decodeImage_image readableStore decoded
    obtain ⟨bound, all, entriesBound⟩ :=
      @Bindings.gather_of_ordered entries .empty (by
        rw [same]
        exact store.ordered)
    rw [all]
    refine ⟨rfl, congrArg Bindings.image (Bindings.ext ?_)⟩
    rw [entriesBound, same]
    rfl

/-- The block that adds two to its argument. -/
def addsTwo : Operation :=
  .block ["x"]
    [.partialBind (.number 2) (.primitive .add), .named .loadSlot "x"]

/-- A store with a number and the block. -/
def adder : Bindings :=
  .ofPairs [("step", .number 2), ("add", .operation addsTwo)]

/-- How the two values are listed. -/
def adderListing : String :=
  "value add block slots x \x7b\n    partial number 2 add\n" ++
    "    loadslot x\n\x7d\nvalue step number 2\n"

/-- The two values are listed, read back, and assembled to their image. -/
theorem adder_reassembled :
    disassemble adder.image = .ok adderListing ∧
    Source.parseProgram .standard adderListing = (adder.entries, []) ∧
    let assembly := Assembly.addSource {} "step.casm" adderListing
    assembly.diagnostics = [] ∧ assembly.image = adder.image := by
  have listed : disassemble adder.image = .ok adderListing := by
    decide +kernel
  have sorted : adder.entries =
      [("add", .operation addsTwo), ("step", .number 2)] := rfl
  have readable : ∀ entry ∈ adder.entries, ReadableEntry entry := by
    rw [sorted]
    simp only [List.forall_mem_cons, List.not_mem_nil, false_implies,
      implies_true, and_true, ReadableEntry, addsTwo, readableParts,
      PartCondition.and, PartCondition.wellFormed, PartCondition.sized,
      PartCondition.names, Value.Throughout, Operation.Throughout,
      operationsThroughout]
    decide
  have named : ∀ entry ∈ adder.entries, NamedEntry entry := by
    rw [sorted]
    simp only [List.forall_mem_cons, List.not_mem_nil, false_implies,
      implies_true, and_true, NamedEntry, addsTwo, Value.NamesAre,
      PartCondition.names,
      Value.Throughout, Operation.Throughout, operationsThroughout]
    decide
  obtain ⟨entries, last, decoded, -, faithful⟩ :=
    disassembly_is_faithful listed
  obtain rfl := eq_of_decodeImage_image readable decoded
  obtain ⟨parsed, restored⟩ := faithful named
  exact ⟨listed, parsed, (restored _).mpr ⟨adder, readable, rfl⟩⟩

/-- A store with one value, under a name that holds delimiters. -/
def delimitedName : Bindings :=
  .ofPairs [("b'E'a", .empty)]

/-- The entries that its image can also be taken for. -/
def takenApart : List (String × Value) :=
  [("b", .empty), ("a", .empty)]

/-- How these entries are listed. -/
def takenApartListing : String :=
  "value b empty\nvalue a empty\n"

/-- The image of a store need not be restored if a name in the store holds
delimiters.  It is decoded into two entries whose names are identifiers, listed
in this order, and assembled in the order of their names. -/
theorem delimitedName_not_restored :
    (∃ last, decodeImage .standard (.ofBytes delimitedName.image) =
      .ok takenApart last) ∧
    (∀ entry ∈ takenApart, NamedEntry entry) ∧
    disassemble delimitedName.image = .ok takenApartListing ∧
    Source.parseProgram .standard takenApartListing = (takenApart, []) ∧
    ∀ source,
      let assembly := Assembly.addSource {} source takenApartListing
      assembly.diagnostics = [] ∧
        assembly.image = (Bindings.ofPairs takenApart).image ∧
        assembly.image ≠ delimitedName.image := by
  have parsed :
      Source.parseProgram .standard takenApartListing = (takenApart, []) := by
    rfl
  refine ⟨⟨_, by rfl⟩, ?_, by decide +kernel, parsed, fun source => ?_⟩
  · simp only [takenApart, List.forall_mem_cons, List.not_mem_nil,
      false_implies, implies_true, and_true]
    exact ⟨⟨by decide, trivial⟩, ⟨by decide, trivial⟩⟩
  · obtain ⟨gathered, silent⟩ :=
      @Assembly.addSource_of_parsed source _ _ parsed
    dsimp only
    rw [silent, Assembly.image, gathered]
    exact ⟨rfl, rfl, by decide⟩

end StackAssembly
