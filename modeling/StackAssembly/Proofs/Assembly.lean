import Mathlib.Data.List.TakeWhile
import StackAssembly.Assembly
import StackAssembly.Proofs.Machine.Loading
import StackAssembly.Proofs.Source.RoundTrip
import StackAssembly.Proofs.Text.CharacterClasses

/-!
# Assemblies are loaded back

Whatever the sources of an assembly are, its values can be built by a program
and its names are identifiers.  The image of the assembly is therefore read
back up to the first value that nests too deep for an image.  Such values
occur: the grammar counts a block or a partial application that is a payload
once, and an image counts it twice, as a value and as an operation.
-/

namespace StackAssembly

/-- The delimiter of names is no part of an identifier. -/
theorem Image.delimiterFree_of_isIdentifier {name : String}
    (identifier : Text.isIdentifier name = true) : DelimiterFree name := by
  intro member
  rw [textBytes_eq_flatMap] at member
  obtain ⟨character, among, byte⟩ := List.mem_flatMap.mp member
  have same := toNat_eq_of_mem_utf8EncodeChar (by decide) byte
  have quote : character = '\'' := Char.toNat_inj.mp same.symm
  have goesOn := Text.isIdentifierChar_of_mem identifier among
  rw [quote] at goesOn
  exact absurd goesOn (by decide)

/-- Whether a text can be held in memory, where no text takes more than
`2 ^ 63 - 1` bytes. -/
def FitsMemory (text : String) : Prop :=
  (Image.textBytes text).length < 2 ^ 63

instance (text : String) : Decidable (FitsMemory text) :=
  inferInstanceAs (Decidable (_ < _))

open Source in
/-- The entries of a text are sound, whatever is wrong with the text. -/
theorem soundEntry_of_mem_parseProgram {dialect : Dialect} {text : String}
    (fits : FitsMemory text) {entry : String × Value}
    (member : entry ∈ (parseProgram dialect text).1) :
    SoundEntry (Text.isIdentifier · = true) entry := by
  refine soundEntry_of_mem_statementsFrom (sound_ofText ?_) member
  have bound : 2 ^ 63 + 1 < UInt64.size := by decide
  simp only [FitsMemory, Countable] at fits ⊢
  omega

namespace Bindings

/-- Whether all entries of a store are sound. -/
def Sound (property : String → Prop) (store : Bindings) : Prop :=
  ∀ entry ∈ store.entries, Source.SoundEntry property entry

variable {property : String → Prop}

theorem mem_of_mem_gather {entries : List (String × Value)}
    {store : Bindings} {entry : String × Value}
    (member : entry ∈ (store.gather entries).1.entries) :
    entry ∈ store.entries ∨ entry ∈ entries := by
  induction entries generalizing store with
  | nil => exact .inl member
  | cons first later ih =>
      rw [Bindings.gather] at member
      split at member
      · next bound defined =>
          rw [Bindings.define?] at defined
          split at defined
          · cases defined
          · cases defined
            rcases ih member with old | new
            · rcases mem_of_mem_putEntry old with same | older
              · exact .inr (same ▸ List.mem_cons_self)
              · exact .inl older
            · exact .inr (List.mem_cons_of_mem first new)
      · exact (ih member).imp_right (List.mem_cons_of_mem first)

theorem Sound.gather {entries : List (String × Value)} {store : Bindings}
    (sound : store.Sound property)
    (each : ∀ entry ∈ entries, Source.SoundEntry property entry) :
    (store.gather entries).1.Sound property := by
  intro entry member
  rcases mem_of_mem_gather member with old | new
  · exact sound entry old
  · exact each entry new

/-- Entries whose names come in their order are all gathered. -/
theorem gather_of_ordered {entries : List (String × Value)}
    {store : Bindings} (ordered : Ordered (store.entries ++ entries)) :
    ∃ bound, store.gather entries = (bound, []) ∧
      bound.entries = store.entries ++ entries := by
  induction entries generalizing store with
  | nil => exact ⟨store, rfl, (List.append_nil _).symm⟩
  | cons entry entries ih =>
      have behind : ∀ old ∈ store.entries, old.1 < entry.1 :=
        fun old member => (List.pairwise_append.mp ordered).2.2 old member
          entry List.mem_cons_self
      obtain ⟨next, defined, put⟩ := define?_of_behind behind entry.2
      have orderedLater : Ordered (next.entries ++ entries) := by
        rw [put, List.append_assoc]
        exact ordered
      obtain ⟨bound, gathered, all⟩ := ih orderedLater
      refine ⟨bound, ?_, ?_⟩
      · rw [Bindings.gather, defined]
        exact gathered
      · rw [all, put, List.append_assoc, List.singleton_append]

theorem Sound.readable {store : Bindings}
    (sound : store.Sound (Text.isIdentifier · = true)) :
    ∀ entry ∈ store.entries, Image.ReadableEntry entry := by
  intro entry member
  obtain ⟨named, accepted⟩ := sound entry member
  refine ⟨Image.delimiterFree_of_isIdentifier named, ?_⟩
  have weaken := @PartCondition.names_follows _ Image.DelimiterFree
    (fun _ => Image.delimiterFree_of_isIdentifier) .wellFormed
  have follows : PartCondition.Follows
      (Source.acceptedParts (Text.isIdentifier · = true))
      (Source.acceptedParts (Text.isIdentifier · = true))
      Image.readableParts :=
    ⟨fun part holds _ => ⟨holds.1, weaken.onValue part holds.2 holds.1⟩,
      fun part holds _ => ⟨holds.1, weaken.onOperation part holds.2 holds.1⟩⟩
  exact Value.Throughout.combine follows entry.2 accepted accepted

end Bindings

namespace Assembly

theorem store_addSource (assembly : Assembly) (source text : String) :
    (assembly.addSource source text).store =
      (assembly.store.gather (Source.parseProgram .standard text).1).1 := by
  rw [addSource]

/-- The entries of an assembly are sound, whatever is wrong with its
sources. -/
theorem sound_addSources {sources : List (String × String)}
    {assembly : Assembly}
    (sound : assembly.store.Sound (Text.isIdentifier · = true))
    (fit : ∀ source ∈ sources, FitsMemory source.2) :
    (assembly.addSources sources).store.Sound
      (Text.isIdentifier · = true) := by
  induction sources generalizing assembly with
  | nil => exact sound
  | cons source sources ih =>
      obtain ⟨first, later⟩ := List.forall_mem_cons.mp fit
      have added : (assembly.addSource source.1 source.2).store.Sound
          (Text.isIdentifier · = true) := by
        rw [store_addSource]
        exact sound.gather fun entry => soundEntry_of_mem_parseProgram first
      rw [addSources, List.foldl_cons]
      exact ih added later

/-- Of an assembly, loading its image restores the values in the order of
their names up to the first one that nests too deep.  So all of them are
restored exactly if none nests deeper than an image allows. -/
theorem loadImage_addSources {ν : Type} {sources : List (String × String)}
    (fit : ∀ source ∈ sources, FitsMemory source.2) :
    let assembly := Assembly.addSources {} sources
    let loaded := ({} : Machine ν).loadImage (.ofBytes assembly.image)
    (loaded.1.store.entries =
        assembly.store.entries.takeWhile (·.2.nesting ≤ maxNesting) ∧
      loaded.2.1 = loaded.1.store.size) ∧
    ((loaded.2.1 = assembly.size ∧ loaded.1.store = assembly.store) ↔
      ∀ entry ∈ assembly.store.entries, entry.2.nesting ≤ maxNesting) := by
  intro assembly loaded
  have sound : assembly.store.Sound (Text.isIdentifier · = true) :=
    sound_addSources (fun entry member => nomatch member) fit
  obtain ⟨store, last, run, entries⟩ := loadImage_image sound.readable
  have result : loaded = ({ store := store },
      (assembly.store.entries.takeWhile (FitsImage ·)).length, last) := by
    change (fun found : Bindings × Nat × Image.ByteReader =>
      (({ store := found.1 } : Machine ν), found.2.1, found.2.2))
        (StackAssembly.loadImage .standard .empty
          (.ofBytes assembly.store.image)) = _
    rw [run]
  have restored : loaded.1.store.entries =
      assembly.store.entries.takeWhile (·.2.nesting ≤ maxNesting) := by
    rw [result]
    exact entries
  refine ⟨⟨restored, ?_⟩, ?_, ?_⟩
  · rw [result, ← entries]
    rfl
  · rintro ⟨-, same⟩ entry member
    rw [same] at restored
    have all := List.takeWhile_eq_self_iff.mp restored.symm entry member
    exact of_decide_eq_true all
  · intro fits
    have all : assembly.store.entries.takeWhile
        (·.2.nesting ≤ maxNesting) = assembly.store.entries :=
      List.takeWhile_eq_self_iff.mpr fun entry member =>
        decide_eq_true (fits entry member)
    rw [all] at restored
    refine ⟨?_, Bindings.ext restored⟩
    rw [result]
    exact congrArg List.length all

/-- Blocks that each push the next one. -/
def nestedBlocks : (count : Nat) → Value
  | 0 => .operation (.block [] [])
  | count + 1 => .operation (.block [] [.push (nestedBlocks count)])

theorem nesting_nestedBlocks (count : Nat) :
    (nestedBlocks count).nesting = 3 * count + 2 := by
  induction count with
  | zero => rfl
  | succ count ih =>
      simp only [nestedBlocks, Value.nesting, Operation.nesting,
        operationsNesting, ih]
      omega

theorem textNesting_nestedBlocks (count : Nat) :
    (nestedBlocks count).textNesting = 2 * count + 1 := by
  induction count with
  | zero => rfl
  | succ count ih =>
      have opened : openedBy false = 1 := rfl
      simp only [nestedBlocks, Value.textNesting, Operation.textNesting,
        operationsTextNesting, opened, ih]
      omega

theorem throughout_nestedBlocks {condition : PartCondition}
    (onOperation : ∀ body, condition.onValue (.operation body))
    (onPush : ∀ value, condition.onOperation (.push value))
    (onBlock : ∀ body, condition.onOperation (.block [] body))
    (count : Nat) : (nestedBlocks count).Throughout condition := by
  induction count with
  | zero => exact ⟨onOperation _, onBlock _, trivial⟩
  | succ count ih =>
      exact ⟨onOperation _, onBlock _, ⟨onPush _, ih⟩, trivial⟩

/-- Sixty-three blocks may be nested in a text. -/
theorem listable_nestedBlocks {count : Nat} (few : count ≤ 63) :
    Source.Listable (nestedBlocks count) where
  unrepeated :=
    throughout_nestedBlocks (fun _ => trivial) (fun _ => trivial)
      (fun _ => trivial) count
  named :=
    throughout_nestedBlocks (fun _ => trivial) (fun _ => trivial)
      (fun _ _ => nofun) count
  fit := by
    rw [textNesting_nestedBlocks, maxNesting]
    omega

/-- Two statements, of which the second one nests deeper than an image
allows. -/
def deepSource : String :=
  Source.listProgram {} [("main", nestedBlocks 0), ("zdeep", nestedBlocks 43)]

theorem deepSource_loaded_in_part :
    FitsMemory deepSource ∧
    let assembly := Assembly.addSources {} [("deep", deepSource)]
    let loaded := ({} : Machine Unit).loadImage (.ofBytes assembly.image)
    assembly.diagnostics = [] ∧ assembly.size = 2 ∧ loaded.2.1 = 1 := by
  have fits : FitsMemory deepSource := by decide +kernel
  have parsed : Source.parseProgram .standard deepSource =
      ([("main", nestedBlocks 0), ("zdeep", nestedBlocks 43)], []) := by
    refine Source.parseProgram_listed {} ?_ ?_
    · decide
    · rintro entry (_ | ⟨_, _ | ⟨_, ⟨⟩⟩⟩)
      · exact listable_nestedBlocks (by decide)
      · exact listable_nestedBlocks (by decide)
  have single : Assembly.addSources {} [("deep", deepSource)] =
      Assembly.addSource {} "deep" deepSource := by
    rw [addSources, List.foldl_cons, List.foldl_nil]
  have gathered :
      (Assembly.addSources {} [("deep", deepSource)]).store.entries =
        [("main", nestedBlocks 0), ("zdeep", nestedBlocks 43)] := by
    rw [single, store_addSource, parsed]
    rfl
  have noted :
      (Assembly.addSources {} [("deep", deepSource)]).diagnostics = [] := by
    rw [single, addSource, parsed]
    rfl
  have partly := @loadImage_addSources Unit [("deep", deepSource)]
    (List.forall_mem_singleton.mpr fits)
  dsimp only at partly ⊢
  obtain ⟨⟨restored, counted⟩, -⟩ := partly
  rw [counted, size, Bindings.size, Bindings.size, restored, gathered]
  refine ⟨fits, noted, rfl, ?_⟩
  simp [nesting_nestedBlocks, maxNesting]

end Assembly
end StackAssembly
