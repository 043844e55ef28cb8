import Mathlib.Order.Bounds.Basic
import StackAssembly.Proofs.Disassembly
import StackAssembly.Proofs.Machine.Bindings

/-!
# What loading an image does to a machine

An image whose version is not the known one is left alone.  From any other one
the entries are read one after the other, and loading takes the longest front
part of them whose names are free and differ.  It ends there, whether the next
entry cannot be read, repeats a name or is missing, and of that entry nothing
stays.
-/

namespace StackAssembly

open Image

/-- The entries that stand one behind the other from a place on, up to the end
of the bytes or to the first that cannot be read. -/
inductive Lists (dialect : Dialect) :
    ByteReader → List (String × Value) → Prop where
  | ended {reader : ByteReader} (nothing : reader.rest = []) :
      Lists dialect reader []
  | unreadable {reader next : ByteReader} {failure : DecodeError}
      (run : decodeEntry dialect reader = .error failure next) :
      Lists dialect reader []
  | entry {reader next : ByteReader} {entry : String × Value}
      {entries : List (String × Value)} (more : reader.rest ≠ [])
      (run : decodeEntry dialect reader = .ok entry next)
      (later : Lists dialect next entries) :
      Lists dialect reader (entry :: entries)

/-- The numbers of entries, counted from the first, whose names are free and
differ from each other. -/
def loadableCounts (store : Bindings) (entries : List (String × Value)) :
    Set Nat :=
  { count | count ≤ entries.length ∧
      ((entries.take count).map Prod.fst).Nodup ∧
      ∀ entry ∈ entries.take count, store.contains entry.1 = false }

section Counts

variable {store : Bindings} {name : String} {value : Value}
  {entries : List (String × Value)}

theorem zero_mem_loadableCounts (store : Bindings)
    (entries : List (String × Value)) : 0 ∈ loadableCounts store entries :=
  ⟨Nat.zero_le _, List.nodup_nil, nofun⟩

theorem isGreatest_loadableCounts_nil (store : Bindings) :
    IsGreatest (loadableCounts store []) 0 :=
  ⟨zero_mem_loadableCounts store [], fun _ loadable => loadable.1⟩

/-- Nothing is loadable if the first name is bound. -/
theorem isGreatest_loadableCounts_of_taken
    (taken : store.contains name = true) :
    IsGreatest (loadableCounts store ((name, value) :: entries)) 0 := by
  refine ⟨zero_mem_loadableCounts store _, ?_⟩
  rintro (_ | count) ⟨-, -, free⟩
  · exact Nat.le_refl 0
  · have first := free (name, value) List.mem_cons_self
    rw [taken] at first
    cases first

/-- If the first name is free, the others count behind it. -/
theorem succ_mem_loadableCounts_iff (free : store.contains name = false)
    {count : Nat} :
    count + 1 ∈ loadableCounts store ((name, value) :: entries) ↔
      count ∈ loadableCounts (store.set name value) entries := by
  simp only [loadableCounts, Set.mem_ofPred_eq, List.length_cons,
    Nat.add_le_add_iff_right, List.take_succ_cons, List.map_cons,
    List.nodup_cons, List.forall_mem_cons, List.mem_map,
    Bindings.contains_set_eq_false_iff]
  constructor
  · rintro ⟨within, ⟨fresh, distinct⟩, -, freeLater⟩
    refine ⟨within, distinct, fun entry member => ⟨?_, freeLater entry member⟩⟩
    exact fun same => fresh ⟨entry, member, same⟩
  · rintro ⟨within, distinct, apart⟩
    refine ⟨within, ⟨?_, distinct⟩, free,
      fun entry member => (apart entry member).2⟩
    rintro ⟨entry, member, same⟩
    exact (apart entry member).1 same

theorem isGreatest_loadableCounts_of_free
    (free : store.contains name = false) {count : Nat}
    (greatest : IsGreatest (loadableCounts (store.set name value) entries)
      count) :
    IsGreatest (loadableCounts store ((name, value) :: entries))
      (count + 1) := by
  refine ⟨(succ_mem_loadableCounts_iff free).mpr greatest.1, ?_⟩
  rintro (_ | other) loadable
  · exact Nat.zero_le _
  · exact Nat.succ_le_succ
      (greatest.2 ((succ_mem_loadableCounts_iff free).mp loadable))

end Counts

/-- Entries are listed from every place. -/
theorem exists_lists (dialect : Dialect) (reader : ByteReader) :
    ∃ entries, Lists dialect reader entries := by
  generalize size : reader.rest.length = length
  induction length using Nat.strong_induction_on generalizing reader with
  | _ length ih =>
      by_cases nothing : reader.rest = []
      · exact ⟨[], .ended nothing⟩
      · cases run : decodeEntry dialect reader with
        | error failure next => exact ⟨[], .unreadable run⟩
        | ok entry next =>
            have shorter := length_rest_lt_of_decodeEntry run
            obtain ⟨entries, later⟩ := ih next.rest.length
              (size ▸ shorter) next rfl
            exact ⟨entry :: entries, .entry nothing run later⟩

/-- What is bound behind loading some entries. -/
def Bindings.Gains (store : Bindings) (entries : List (String × Value))
    (loaded : Bindings) : Prop :=
  ∀ name value, loaded.get? name = some value ↔
    store.get? name = some value ∨ (name, value) ∈ entries

theorem Bindings.gains_nil (store : Bindings) : store.Gains [] store :=
  fun _ _ => (or_iff_left List.not_mem_nil).symm

/-- An entry of a free name is gained in front of the others. -/
theorem Bindings.Gains.cons {store loaded : Bindings} {name : String}
    {value : Value} {entries : List (String × Value)}
    (free : store.contains name = false)
    (gains : (store.set name value).Gains entries loaded) :
    store.Gains ((name, value) :: entries) loaded := by
  intro other found
  rw [gains other found, get?_set, List.mem_cons, Prod.mk.injEq, ← or_assoc]
  refine or_congr_left ?_
  split
  · next same =>
      subst same
      rw [contains_eq_false_iff.mp free, Option.some_inj, eq_comm]
      simp
  · next differs =>
      exact (or_iff_left fun both => differs both.1).symm

/-- Loading takes as many of the listed entries as can be loaded. -/
theorem loadEntries_of_lists {dialect : Dialect} {reader : ByteReader}
    {entries : List (String × Value)}
    (lists : Lists dialect reader entries) {fuel : Nat}
    (enough : reader.rest.length < fuel) (store : Bindings) :
    IsGreatest (loadableCounts store entries)
        (loadEntries dialect fuel store reader).2.1 ∧
      store.Gains
        (entries.take (loadEntries dialect fuel store reader).2.1)
        (loadEntries dialect fuel store reader).1 := by
  obtain ⟨fuel, rfl⟩ := Nat.exists_eq_add_of_lt enough
  generalize reader.rest.length + fuel = fuel at *
  induction lists generalizing fuel store with
  | @ended reader nothing =>
      have done : reader.atEnd = true := List.isEmpty_iff.mpr nothing
      rw [loadEntries, if_pos done]
      exact ⟨isGreatest_loadableCounts_nil store, store.gains_nil⟩
  | @unreadable reader next failure run =>
      obtain ⟨last, stopped⟩ := @loadEntries_of_error dialect fuel store
        reader ⟨failure, next, run⟩
      rw [stopped]
      exact ⟨isGreatest_loadableCounts_nil store, store.gains_nil⟩
  | @entry reader next entry entries more run later ih =>
      obtain ⟨name, value⟩ := entry
      cases taken : store.contains name with
      | true =>
          have refused : store.define? name value = none := by
            rw [Bindings.define?, taken, if_pos rfl]
          have unread : ¬ reader.atEnd = true :=
            mt List.isEmpty_iff.mp more
          rw [loadEntries, if_neg unread, run]
          dsimp only
          rw [refused]
          exact ⟨isGreatest_loadableCounts_of_taken taken, store.gains_nil⟩
      | false =>
          have defined : store.define? name value =
              some (store.set name value) := by
            rw [Bindings.define?, taken, if_neg Bool.false_ne_true]
          have shorter := length_rest_lt_of_decodeEntry run
          obtain ⟨fuel, rfl⟩ : ∃ fewer, fuel = fewer + 1 :=
            ⟨fuel - 1, by omega⟩
          obtain ⟨greatest, gains⟩ := ih (store.set name value) fuel
            (by omega)
          rw [loadEntries_of_ok more run defined]
          exact ⟨isGreatest_loadableCounts_of_free taken greatest,
            gains.cons taken⟩

/-- An image of another version, or without one, is left alone. -/
theorem loadImage_of_other_version (dialect : Dialect) (store : Bindings)
    {reader : ByteReader}
    (other : reader.peek? ≠ some formatVersion) :
    ∃ last, loadImage dialect store reader = (store, 0, last) := by
  obtain ⟨offset, rest, depth, reads⟩ := reader
  cases rest with
  | nil => exact ⟨_, rfl⟩
  | cons version rest =>
      have differs : version ≠ formatVersion :=
        fun same => other (congrArg some same)
      have refused : ∃ failure next,
          readHeader ⟨offset, version :: rest, depth, reads⟩ =
            .error failure next := by
        refine ⟨{ failure := .versionMismatch formatVersion version },
          (ByteReader.mk offset (version :: rest) depth reads).skip 1, ?_⟩
        change (if version = formatVersion then (return () : ImageReader Unit)
          else throw { failure := .versionMismatch formatVersion version })
            _ = _
        rw [if_neg differs]
        rfl
      obtain ⟨failure, next, run⟩ := refused
      rw [loadImage, run]
      exact ⟨next, rfl⟩

/-- An image of the known version is loaded from its second byte on. -/
theorem loadImage_of_version (dialect : Dialect) (store : Bindings)
    {reader : ByteReader}
    (version : reader.peek? = some formatVersion) :
    loadImage dialect store reader =
      loadEntries dialect ((reader.skip 1).rest.length + 1) store
        (reader.skip 1) := by
  obtain ⟨offset, rest, depth, reads⟩ := reader
  cases rest with
  | nil => cases version
  | cons first rest =>
      cases version
      rfl

/-- Loading an image changes nothing but the store.  An image without the known
version at its front is left alone.  From any other one exactly the entries are
bound that form the longest front part of the listed ones whose names are free
and differ. -/
theorem loading_takes_longest_front {ν : Type} (machine : Machine ν)
    (reader : ByteReader) :
    let loaded := machine.loadImage reader
    (reader.peek? ≠ some formatVersion →
      loaded.1 = machine ∧ loaded.2.1 = 0) ∧
    (reader.peek? = some formatVersion →
      ∃ entries, Lists machine.dialect (reader.skip 1) entries ∧
        IsGreatest (loadableCounts machine.store entries) loaded.2.1 ∧
        machine.store.Gains (entries.take loaded.2.1) loaded.1.store ∧
        (∀ name value, machine.store.get? name = some value →
          loaded.1.store.get? name = some value) ∧
        loaded.1 = { machine with store := loaded.1.store }) := by
  intro loaded
  have result : loaded = (fun found : Bindings × Nat × ByteReader =>
      ({ machine with store := found.1 }, found.2.1, found.2.2))
        (StackAssembly.loadImage machine.dialect machine.store reader) :=
    rfl
  constructor
  · intro other
    obtain ⟨last, run⟩ := loadImage_of_other_version machine.dialect
      machine.store other
    rw [result, run]
    exact ⟨rfl, rfl⟩
  · intro version
    obtain ⟨entries, lists⟩ :=
      exists_lists machine.dialect (reader.skip 1)
    obtain ⟨greatest, gains⟩ := loadEntries_of_lists lists
      (Nat.lt_succ_self _) machine.store
    rw [← loadImage_of_version machine.dialect machine.store version]
      at greatest gains
    rw [result]
    exact ⟨entries, lists, greatest, gains,
      fun name value bound => (gains name value).mpr (.inl bound), rfl⟩

/-- The image of a collection that is not ordered and of which one name is
bound already. -/
def unorderedImage : List UInt8 :=
  formatVersion :: entriesBytes
    [("d", .number 4), ("a", .empty), ("b", .atom "x"), ("c", .empty)]

/-- Of four entries the first two are loaded, the third one has a name that is
bound. -/
theorem unorderedImage_loaded_up_to_bound_name :
    let machine : Machine Unit :=
      { store := .ofPairs [("b", .boolean true)], stack := [.number 1] }
    let loaded := machine.loadImage (.ofBytes unorderedImage)
    (ByteReader.ofBytes unorderedImage).peek? = some formatVersion ∧
      loaded.2.1 = 2 ∧ loaded.1.stack = [.number 1] ∧
      ∃ entries,
        Lists .standard ((ByteReader.ofBytes unorderedImage).skip 1) entries ∧
        IsGreatest (loadableCounts machine.store entries) 2 ∧
        machine.store.Gains (entries.take 2) loaded.1.store := by
  intro machine loaded
  have version : (ByteReader.ofBytes unorderedImage).peek? =
      some formatVersion := rfl
  have count : loaded.2.1 = 2 := by decide +kernel
  obtain ⟨entries, lists, greatest, gains, -, rest⟩ :=
    (loading_takes_longest_front machine (.ofBytes unorderedImage)).2 version
  rw [count] at greatest gains
  exact ⟨version, count, congrArg Machine.stack rest, entries, lists,
    greatest, gains⟩

end StackAssembly
