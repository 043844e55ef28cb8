import StackAssembly.Machine.Loading
import StackAssembly.Proofs.Image.Delivery

/-!
# Stores are loaded back

The image of a store lists its entries in the order of their names.  Loading
it into an empty store therefore puts every entry behind those loaded before
it.  It ends at the first value that nests deeper than images allow, and where
the image was cut off: no front part of an entry is read as an entry.
-/

namespace StackAssembly

/-- A name behind all others is bound at the end. -/
theorem putEntry_of_behind {entries : List (String × Value)} {name : String}
    (behind : ∀ entry ∈ entries, entry.1 < name) (value : Value) :
    putEntry name value entries = entries ++ [(name, value)] := by
  induction entries with
  | nil => rfl
  | cons head tail ih =>
      have less : head.1 < name := behind head List.mem_cons_self
      have notLess : ¬ name < head.1 := fun more =>
        Std.lt_irrefl (String.lt_trans less more)
      have differs : name ≠ head.1 := fun same =>
        Std.lt_irrefl (same ▸ less)
      rw [putEntry, if_neg notLess, if_neg differs, ih fun entry member =>
        behind entry (List.mem_cons_of_mem head member), List.cons_append]

theorem mem_of_mem_putEntry {name : String} {value : Value}
    {entries : List (String × Value)} {entry : String × Value}
    (member : entry ∈ putEntry name value entries) :
    entry = (name, value) ∨ entry ∈ entries := by
  induction entries with
  | nil => exact .inl (List.mem_singleton.mp member)
  | cons head tail ih =>
      rw [putEntry] at member
      split at member
      · exact List.mem_cons.mp member
      · split at member
        · exact (List.mem_cons.mp member).imp_right
            (List.mem_cons_of_mem head)
        · rcases List.mem_cons.mp member with same | later
          · exact .inr (same ▸ List.mem_cons_self)
          · exact (ih later).imp_right (List.mem_cons_of_mem head)

namespace Bindings

/-- A name behind all bound ones can be bound, and stands behind them. -/
theorem define?_of_behind {store : Bindings} {name : String}
    (behind : ∀ entry ∈ store.entries, entry.1 < name) (value : Value) :
    ∃ bound, store.define? name value = some bound ∧
      bound.entries = store.entries ++ [(name, value)] := by
  have absent : store.contains name = false := by
    rw [contains, get?, Option.isSome_map, Option.isSome_eq_false_iff,
      Option.isNone_iff_eq_none, List.find?_eq_none]
    intro entry member same
    have less := behind entry member
    rw [eq_of_beq same] at less
    exact Std.lt_irrefl less
  refine ⟨store.set name value, ?_, putEntry_of_behind behind value⟩
  rw [define?, absent, if_neg Bool.false_ne_true]

end Bindings

/-- Whether an image of an entry can be read back: its value nests no deeper
than images allow. -/
def FitsImage (entry : String × Value) : Prop :=
  entry.2.nesting ≤ maxNesting

instance : DecidablePred FitsImage := fun entry =>
  inferInstanceAs (Decidable (entry.2.nesting ≤ maxNesting))

namespace Image

/-- A value is read where nothing is open as it is at the start of bytes. -/
theorem decodeValue_of_shallow {reader : ByteReader}
    (shallow : reader.depth = 0) :
    decodeValue .standard reader =
      (PartDecoders.within .standard maxNesting).value reader := by
  change (PartDecoders.within .standard (maxNesting - reader.depth)).value
    reader = _
  rw [shallow, Nat.sub_zero]

/-- Behind its name, an entry is its value. -/
theorem decodeEntry_of_name {dialect : Dialect} {reader next : ByteReader}
    {name : String} (run : Decoder.name reader = .ok name next) :
    decodeEntry dialect reader =
      match decodeValue dialect next with
      | .ok value last => .ok (name, value) last
      | .error failure last =>
          .error { failure with entry := some name } last :=
  bind_of_ok run

/-- Whether the image of an entry is read back, nesting apart. -/
def ReadableEntry (entry : String × Value) : Prop :=
  DelimiterFree entry.1 ∧ entry.2.Throughout readableParts

/-- An entry is read from its bytes exactly if it fits into an image. -/
theorem decodeEntry_encodeEntry {entry : String × Value}
    (readable : ReadableEntry entry) {reader : ByteReader}
    {suffix : List UInt8} (shallow : reader.depth = 0)
    (here : reader.rest = encodeEntry entry.1 entry.2 ++ suffix) :
    (FitsImage entry → ∃ reads, decodeEntry .standard reader =
      .ok entry (reader.past (encodeEntry entry.1 entry.2) suffix reads)) ∧
    (¬ FitsImage entry → ∃ failure next,
      decodeEntry .standard reader = .error failure next) := by
  obtain ⟨readName, -⟩ := Decoder.reads_name readable.1 reader
    (entry.2.encode ++ suffix) (by rw [here, encodeEntry, List.append_assoc])
  obtain ⟨reads, runName⟩ := readName trivial
  obtain ⟨done, refused⟩ := (readsWithin maxNesting).value entry.2 readable.2
    (reader.past (nameField entry.1) (entry.2.encode ++ suffix) reads) suffix
    rfl
  have value := @decodeValue_of_shallow
    (reader.past (nameField entry.1) (entry.2.encode ++ suffix) reads) shallow
  rw [decodeEntry_of_name runName]
  constructor
  · intro fits
    obtain ⟨later, run⟩ := done fits
    refine ⟨later, ?_⟩
    rw [value, run, ByteReader.past_past, encodeEntry]
  · intro deep
    obtain ⟨failure, next, run, -⟩ := refused deep
    refine ⟨{ failure with entry := some entry.1 }, next, ?_⟩
    rw [value, run]

/-- An entry that is cut off cannot be read. -/
theorem decodeEntry_of_cut {entry : String × Value}
    (readable : ReadableEntry entry) {reader : ByteReader} {length : Nat}
    (shallow : reader.depth = 0)
    (cut : length < (encodeEntry entry.1 entry.2).length)
    (here : reader.rest = (encodeEntry entry.1 entry.2).take length) :
    ∃ failure next, decodeEntry .standard reader = .error failure next := by
  match run : decodeEntry .standard reader with
  | .error failure next => exact ⟨failure, next, rfl⟩
  | .ok value next =>
      -- What was read would also be read from the whole entry, and leave the
      -- part that was cut off.
      obtain ⟨-, bytes, split, same⟩ :=
        delivers_decodeEntry .standard reader value next run
      have whole := same
        (next.rest ++ (encodeEntry entry.1 entry.2).drop length)
      rw [← List.append_assoc, ← split, here, List.take_append_drop] at whole
      obtain ⟨done, refused⟩ := @decodeEntry_encodeEntry entry readable
        (reader.facing (encodeEntry entry.1 entry.2)) [] shallow
        (List.append_nil _).symm
      by_cases fits : FitsImage entry
      · obtain ⟨reads, all⟩ := done fits
        have left := congrArg ByteReader.rest
          (EStateM.Result.ok.inj (whole.symm.trans all)).2
        have nothing := (List.append_eq_nil_iff.mp left).2
        rw [List.drop_eq_nil_iff] at nothing
        omega
      · obtain ⟨failure, last, refusal⟩ := refused fits
        cases whole.symm.trans refusal

end Image

open Image

theorem encodeEntry_ne_nil (name : String) (value : Value) :
    encodeEntry name value ≠ [] :=
  List.cons_ne_nil _ _

/-- The first entries whose bytes, one entry after the other, lie within the
given number of bytes. -/
def wholeEntries : (length : Nat) → List (String × Value) →
    List (String × Value)
  | _, [] => []
  | length, entry :: entries =>
      let size := (encodeEntry entry.1 entry.2).length
      if size ≤ length then entry :: wholeEntries (length - size) entries
      else []

/-- The bytes of entries, one after the other. -/
def entriesBytes (entries : List (String × Value)) : List UInt8 :=
  entries.flatMap fun entry => encodeEntry entry.1 entry.2

@[simp]
theorem length_entriesBytes_cons (entry : String × Value)
    (entries : List (String × Value)) :
    (entriesBytes (entry :: entries)).length =
      (encodeEntry entry.1 entry.2).length +
        (entriesBytes entries).length := by
  rw [entriesBytes, List.flatMap_cons, List.length_append]
  rfl

theorem wholeEntries_of_le {length : Nat} {entries : List (String × Value)}
    (within : (entriesBytes entries).length ≤ length) :
    wholeEntries length entries = entries := by
  induction entries generalizing length with
  | nil => rfl
  | cons entry entries ih =>
      rw [length_entriesBytes_cons] at within
      rw [wholeEntries, if_pos (by omega), ih (by omega)]

theorem wholeEntries_eq_take (length : Nat)
    (entries : List (String × Value)) :
    wholeEntries length entries =
      entries.take (wholeEntries length entries).length := by
  induction entries generalizing length with
  | nil => rfl
  | cons entry entries ih =>
      rw [wholeEntries]
      split
      · rw [List.length_cons, List.take_succ_cons, ← ih]
      · rfl

/-- An entry is within if the bytes up to its end are. -/
theorem lt_length_wholeEntries_iff {length index : Nat}
    {entries : List (String × Value)} (inside : index < entries.length) :
    index < (wholeEntries length entries).length ↔
      (entriesBytes (entries.take (index + 1))).length ≤ length := by
  induction entries generalizing length index with
  | nil => cases inside
  | cons entry entries ih =>
      rw [wholeEntries, List.take_succ_cons, length_entriesBytes_cons]
      split
      · cases index with
        | zero => simpa [entriesBytes]
        | succ index =>
            rw [List.length_cons, Nat.add_lt_add_iff_right,
              ih (Nat.lt_of_succ_lt_succ inside)]
            omega
      · simp only [List.length_nil]
        omega

section Entry

variable {dialect : Dialect} {fuel : Nat} {store bound : Bindings}
  {reader next : ByteReader} {entry : String × Value}

/-- Loading ends where no entry can be read. -/
theorem loadEntries_of_error
    (refused : ∃ failure next,
      decodeEntry dialect reader = .error failure next) :
    ∃ last, loadEntries dialect (fuel + 1) store reader =
      (store, 0, last) := by
  obtain ⟨failure, next, run⟩ := refused
  rw [loadEntries]
  split
  · exact ⟨reader, rfl⟩
  · rw [run]
    exact ⟨next, rfl⟩

/-- Loading goes on behind an entry whose name can be bound. -/
theorem loadEntries_of_ok (more : reader.rest ≠ [])
    (run : decodeEntry dialect reader = .ok entry next)
    (defined : store.define? entry.1 entry.2 = some bound) :
    loadEntries dialect (fuel + 1) store reader =
      ((loadEntries dialect fuel bound next).1,
        (loadEntries dialect fuel bound next).2.1 + 1,
        (loadEntries dialect fuel bound next).2.2) := by
  have unread : ¬ reader.atEnd = true := fun ended =>
    more (List.isEmpty_iff.mp ended)
  rw [loadEntries, if_neg unread, run]
  dsimp only
  rw [defined]

end Entry

/-- The entries of an ordered image go behind those loaded before, up to the
first that does not fit or is cut off. -/
theorem loadEntries_image {todo : List (String × Value)} {store : Bindings}
    {length : Nat} (ordered : Ordered (store.entries ++ todo))
    (readable : ∀ entry ∈ todo, ReadableEntry entry)
    {reader : ByteReader} (shallow : reader.depth = 0)
    (here : reader.rest = (entriesBytes todo).take length)
    {fuel : Nat} (enough : (wholeEntries length todo).length < fuel) :
    ∃ loaded last, loadEntries .standard fuel store reader =
        (loaded, ((wholeEntries length todo).takeWhile
          (FitsImage ·)).length, last) ∧
      loaded.entries = store.entries ++
        (wholeEntries length todo).takeWhile (FitsImage ·) := by
  obtain ⟨fuel, rfl⟩ : ∃ more, fuel = more + 1 := ⟨fuel - 1, by omega⟩
  induction todo generalizing store reader fuel length with
  | nil =>
      refine ⟨store, reader, ?_, by simp [wholeEntries]⟩
      have ended : reader.atEnd = true := by
        rw [ByteReader.atEnd, here]
        simp [entriesBytes]
      rw [loadEntries, if_pos ended]
      rfl
  | cons entry todo ih =>
      have one := readable entry List.mem_cons_self
      rw [wholeEntries] at enough ⊢
      by_cases whole : (encodeEntry entry.1 entry.2).length ≤ length
      · rw [if_pos whole] at enough ⊢
        have split : reader.rest = encodeEntry entry.1 entry.2 ++
            (entriesBytes todo).take
              (length - (encodeEntry entry.1 entry.2).length) := by
          rw [here, entriesBytes, List.flatMap_cons, List.take_append,
            List.take_of_length_le whole]
          rfl
        obtain ⟨done, refused⟩ := decodeEntry_encodeEntry one shallow split
        by_cases fits : FitsImage entry
        · obtain ⟨reads, run⟩ := done fits
          have more : reader.rest ≠ [] := by
            rw [split]
            simp [encodeEntry_ne_nil]
          have behind : ∀ old ∈ store.entries, old.1 < entry.1 :=
            fun old member => (List.pairwise_append.mp ordered).2.2 old
              member entry List.mem_cons_self
          obtain ⟨bound, defined, entries⟩ :=
            Bindings.define?_of_behind behind entry.2
          have orderedLater : Ordered (bound.entries ++ todo) := by
            rw [entries, List.append_assoc]
            exact ordered
          obtain ⟨fuel, rfl⟩ : ∃ more, fuel = more + 1 :=
            ⟨fuel - 1, by rw [List.length_cons] at enough; omega⟩
          have shallowLater : (reader.past (encodeEntry entry.1 entry.2)
              ((entriesBytes todo).take
                (length - (encodeEntry entry.1 entry.2).length))
              reads).depth = 0 := shallow
          obtain ⟨loaded, last, later, same⟩ := ih orderedLater
            (fun other member => readable other
              (List.mem_cons_of_mem _ member))
            shallowLater rfl fuel (Nat.lt_of_succ_lt_succ enough)
          rw [List.takeWhile_cons_of_pos (by simpa using fits)]
          refine ⟨loaded, last, ?_, ?_⟩
          · rw [loadEntries_of_ok more run defined, later, List.length_cons]
          · rw [same, entries, List.append_assoc, List.singleton_append]
        · obtain ⟨last, stopped⟩ := loadEntries_of_error (refused fits)
          rw [List.takeWhile_cons_of_neg (by simpa using fits)]
          exact ⟨store, last, stopped, (List.append_nil _).symm⟩
      · rw [if_neg whole]
        have cut : reader.rest =
            (encodeEntry entry.1 entry.2).take length := by
          rw [here, entriesBytes, List.flatMap_cons,
            List.take_append_of_le_length (by omega)]
        obtain ⟨last, stopped⟩ := loadEntries_of_error
          (decodeEntry_of_cut one shallow (by omega) cut)
        exact ⟨store, last, stopped, (List.append_nil _).symm⟩

theorem length_wholeEntries_le (length : Nat)
    (entries : List (String × Value)) :
    (wholeEntries length entries).length ≤
      ((entriesBytes entries).take length).length := by
  induction entries generalizing length with
  | nil => exact Nat.zero_le _
  | cons entry entries ih =>
      have positive := List.length_pos_iff.mpr
        (encodeEntry_ne_nil entry.1 entry.2)
      have later := ih (length - (encodeEntry entry.1 entry.2).length)
      rw [List.length_take] at later ⊢
      rw [wholeEntries, length_entriesBytes_cons]
      split
      · rw [List.length_cons]
        omega
      · exact Nat.zero_le _

/-- What the cut image of a store restores are the entries within the bytes
that are left, up to the first entry that does not fit. -/
theorem loadImage_cut_image {store : Bindings}
    (readable : ∀ entry ∈ store.entries, ReadableEntry entry)
    (length : Nat) :
    ∃ loaded last, loadImage .standard .empty
        (.ofBytes (store.image.take (length + 1))) =
        (loaded, ((wholeEntries length store.entries).takeWhile
          (FitsImage ·)).length, last) ∧
      loaded.entries = (wholeEntries length store.entries).takeWhile
        (FitsImage ·) := by
  let rest := (entriesBytes store.entries).take length
  have header : readHeader
      (.ofBytes (store.image.take (length + 1))) =
      .ok () ((ByteReader.ofBytes (store.image.take (length + 1))).past
        [formatVersion] rest 0) :=
    rfl
  obtain ⟨loaded, last, run, entries⟩ := @loadEntries_image store.entries
    .empty length store.ordered readable
    ((ByteReader.ofBytes (store.image.take (length + 1))).past
      [formatVersion] rest 0) rfl rfl _
    (Nat.lt_succ_of_le (length_wholeEntries_le length store.entries))
  refine ⟨loaded, last, ?_, entries⟩
  rw [loadImage, header]
  exact run

/-- What the image of a store restores is the store up to the first entry
that does not fit. -/
theorem loadImage_image {store : Bindings}
    (readable : ∀ entry ∈ store.entries, ReadableEntry entry) :
    ∃ loaded last, loadImage .standard .empty (.ofBytes store.image) =
        (loaded, (store.entries.takeWhile (FitsImage ·)).length, last) ∧
      loaded.entries = store.entries.takeWhile (FitsImage ·) := by
  have uncut : store.image.take ((entriesBytes store.entries).length + 1) =
      store.image :=
    List.take_of_length_le (Nat.le_refl _)
  have all : wholeEntries (entriesBytes store.entries).length
      store.entries = store.entries :=
    wholeEntries_of_le (Nat.le_refl _)
  have restored := loadImage_cut_image readable
    (entriesBytes store.entries).length
  rw [uncut, all] at restored
  exact restored

end StackAssembly
