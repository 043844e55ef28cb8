import StackAssembly.Proofs.Machine.Loading

/-!
# Images that were cut off

An image may end at any byte, in the middle of a field or between two entries.
Loading what is left of the image of a store restores exactly the entries that
are whole, so that a damaged image yields a part of the store and nothing else.
-/

namespace StackAssembly

/-- The number of bytes in the image of a store up to the end of an entry,
which is the length of the image of the entries up to this one. -/
def Bindings.entryEnd (store : Bindings) (index : Nat) : Nat :=
  (Image.formatVersion :: entriesBytes (store.entries.take (index + 1))).length

theorem Bindings.entryEnd_le (store : Bindings) (index : Nat) :
    store.entryEnd index ≤ store.image.length := by
  have front := List.take_append_drop (index + 1) store.entries
  have bytes : store.image.length = (Image.formatVersion ::
      (entriesBytes (store.entries.take (index + 1)) ++
        entriesBytes (store.entries.drop (index + 1)))).length := by
    rw [entriesBytes, entriesBytes, ← List.flatMap_append, front]
    rfl
  rw [bytes, entryEnd, List.length_cons, List.length_cons,
    List.length_append]
  omega

/-- Whether all entries of a store are read back from its image. -/
def Bindings.Restorable (store : Bindings) : Prop :=
  ∀ entry ∈ store.entries, Image.ReadableEntry entry ∧ FitsImage entry

/-- What is left of the image of a restorable store restores the whole
entries. -/
theorem Bindings.Restorable.loadImage_take {store : Bindings}
    (restorable : store.Restorable) (length : Nat) :
    ∃ count ≤ store.size, ∃ loaded last,
      loadImage .standard .empty (.ofBytes (store.image.take length)) =
        (loaded, count, last) ∧
      loaded.entries = store.entries.take count ∧
      ∀ index < store.size,
        (index < count ↔ store.entryEnd index ≤ length) := by
  cases length with
  | zero =>
      -- Not even the version of the format is left.
      refine ⟨0, Nat.zero_le _, .empty, .ofBytes [], rfl, rfl, ?_⟩
      intro index inside
      simp [entryEnd]
  | succ length =>
      have fit : (wholeEntries length store.entries).takeWhile
          (FitsImage ·) = wholeEntries length store.entries := by
        rw [List.takeWhile_eq_self_iff]
        intro entry member
        rw [wholeEntries_eq_take] at member
        exact decide_eq_true
          (restorable entry (List.mem_of_mem_take member)).2
      obtain ⟨loaded, last, run, entries⟩ := loadImage_cut_image
        (fun entry member => (restorable entry member).1) length
      rw [fit] at run entries
      refine ⟨_, ?_, loaded, last, run, ?_, ?_⟩
      · rw [wholeEntries_eq_take, List.length_take]
        exact Nat.min_le_right _ _
      · rw [← wholeEntries_eq_take, entries]
      · intro index inside
        rw [lt_length_wholeEntries_iff inside, entryEnd, List.length_cons,
          Nat.add_le_add_iff_right]

/-- From the first bytes of the image of a store, an empty machine loads
exactly the entries that end within these bytes, in their order, and nothing
else changes.  From the whole image it loads the store, whose image is the
same again. -/
theorem loadImage_of_cut {ν : Type} {store : Bindings}
    (restorable : store.Restorable) (length : Nat) :
    let loaded := ({} : Machine ν).loadImage
      (.ofBytes (store.image.take length))
    (∃ count ≤ store.size,
      loaded.2.1 = count ∧
      loaded.1 = { ({} : Machine ν) with store := loaded.1.store } ∧
      loaded.1.store.entries = store.entries.take count ∧
      ∀ index < store.size,
        (index < count ↔ store.entryEnd index ≤ length)) ∧
    (store.image.length ≤ length →
      loaded.2.1 = store.size ∧ loaded.1.store = store ∧
        loaded.1.store.image = store.image) := by
  intro loaded
  obtain ⟨count, atMost, restored, last, run, entries, whole⟩ :=
    restorable.loadImage_take length
  have result : loaded = ({ store := restored }, count, last) := by
    change (fun found : Bindings × Nat × Image.ByteReader =>
      (({ store := found.1 } : Machine ν), found.2.1, found.2.2))
        (StackAssembly.loadImage .standard .empty
          (.ofBytes (store.image.take length))) = _
    rw [run]
  rw [result]
  refine ⟨⟨count, atMost, rfl, rfl, entries, whole⟩, fun uncut => ?_⟩
  have all : count = store.size := by
    by_contra less
    have inside : count < store.size := Nat.lt_of_le_of_ne atMost less
    have ends := Nat.le_trans (store.entryEnd_le count) uncut
    exact Nat.lt_irrefl count ((whole count inside).mpr ends)
  have same : restored = store := by
    apply Bindings.ext
    rw [entries, all, Bindings.size, List.take_length]
  exact ⟨all, same, congrArg Bindings.image same⟩

/-- A store with an atom and a tuple of a number. -/
def atomAndTuple : Bindings :=
  .ofPairs [("pair", .tuple [.number 7]), ("key", .atom "x")]

/-- Without its last byte, the image of the two values restores the first
one. -/
theorem atomAndTuple_without_last_byte :
    atomAndTuple.Restorable ∧ atomAndTuple.image.length = 33 ∧
    let loaded := ({} : Machine Unit).loadImage
      (.ofBytes (atomAndTuple.image.take 32))
    loaded.2.1 = 1 ∧ loaded.1.store.entries = [("key", .atom "x")] := by
  have listed : atomAndTuple.entries =
      [("key", .atom "x"), ("pair", .tuple [.number 7])] := rfl
  have restorable : atomAndTuple.Restorable := by
    intro entry member
    rw [listed] at member
    simp only [List.mem_cons, List.not_mem_nil, or_false] at member
    obtain rfl | rfl := member
    · exact ⟨⟨by decide, trivial, by show Image.DelimiterFree "x"; decide⟩,
        by decide⟩
    · exact ⟨⟨by decide, ⟨by show Countable 1; decide, trivial⟩,
        ⟨trivial, trivial⟩, trivial⟩, by decide⟩
  refine ⟨restorable, rfl, ?_⟩
  obtain ⟨⟨count, atMost, counted, -, entries, whole⟩, -⟩ :=
    @loadImage_of_cut Unit _ restorable 32
  have first : 0 < count := (whole 0 (by decide)).mpr (by decide)
  have second : ¬ 1 < count := fun more =>
    absurd ((whole 1 (by decide)).mp more) (by decide)
  have single : count = 1 := by omega
  dsimp only at counted entries ⊢
  rw [counted, entries, listed, single]
  exact ⟨rfl, rfl⟩

end StackAssembly
