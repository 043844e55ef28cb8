import Mathlib.Data.List.Induction
import Mathlib.Tactic.Ring
import StackAssembly.Image.Field

/-!
# Fields and what they denote

A number is recovered from its field up to the width of the field, and a text
from its bytes.
-/

namespace StackAssembly
namespace Image

@[simp]
theorem length_numberField (width number : Nat) :
    (numberField width number).length = width := by
  induction width with
  | zero => rfl
  | succ width ih => simp [numberField, ih]

/-- Reading the bytes of a number behind others puts it into their lowest
places. -/
theorem foldl_numberField (width number start : Nat) :
    (numberField width number).foldl
        (fun number byte => number * 256 + byte.toNat) start =
      start * 256 ^ width + number % 256 ^ width := by
  induction width generalizing start with
  | zero => simp [numberField, Nat.mod_one]
  | succ width ih =>
      have split : number % 256 ^ (width + 1) =
          number % 256 ^ width +
            256 ^ width * (number / 256 ^ width % 256) := by
        rw [Nat.pow_succ, Nat.mod_mul]
      have shifted : number >>> (8 * width) = number / 256 ^ width := by
        rw [Nat.shiftRight_eq_div_pow, Nat.pow_mul]
      have digit : (UInt8.ofNat (number / 256 ^ width)).toNat =
          number / 256 ^ width % 256 := by
        simp
      rw [numberField, shifted, List.foldl_cons, ih, digit, split]
      ring

/-- A field of a number denotes the number reduced to the width. -/
theorem numberOfBytes_numberField (width number : Nat) :
    numberOfBytes (numberField width number) = number % 256 ^ width := by
  simp [numberOfBytes, foldl_numberField]

/-- A sequence of bytes denotes a number of their width. -/
theorem numberOfBytes_lt (raw : List UInt8) :
    numberOfBytes raw < 256 ^ raw.length := by
  induction raw using List.reverseRecOn with
  | nil => exact Nat.one_pos
  | append_singleton raw byte ih =>
      have small := byte.toNat_lt
      simp only [numberOfBytes, List.foldl_append, List.foldl_cons,
        List.foldl_nil, List.length_append, List.length_singleton,
        Nat.pow_succ] at ih ⊢
      omega

theorem numberOfBytes_concat (raw : List UInt8) (byte : UInt8) :
    numberOfBytes (raw ++ [byte]) = numberOfBytes raw * 256 + byte.toNat := by
  simp [numberOfBytes]

/-- Sequences of bytes of one length denote different numbers. -/
theorem numberOfBytes_injective_of_length_eq {raw other : List UInt8}
    (length : raw.length = other.length)
    (same : numberOfBytes raw = numberOfBytes other) : raw = other := by
  induction raw using List.reverseRecOn generalizing other with
  | nil => exact (List.length_eq_zero_iff.mp length.symm).symm
  | append_singleton raw byte ih =>
      rcases List.eq_nil_or_concat other with rfl | ⟨front, last, rfl⟩
      · simp at length
      · rw [List.concat_eq_append] at length same ⊢
        rw [numberOfBytes_concat, numberOfBytes_concat] at same
        have small := byte.toNat_lt
        have smallLast := last.toNat_lt
        have fronts : raw = front := by
          apply ih
          · simpa using length
          · omega
        have lasts : byte = last := UInt8.toNat_inj.mp (by omega)
        rw [fronts, lasts]

/-- Bytes are the field of the number that they denote. -/
theorem numberField_numberOfBytes (raw : List UInt8) :
    numberField raw.length (numberOfBytes raw) = raw := by
  apply numberOfBytes_injective_of_length_eq
  · rw [length_numberField]
  · rw [numberOfBytes_numberField, Nat.mod_eq_of_lt (numberOfBytes_lt raw)]

theorem lengthField_injective {count other : Nat}
    (countable : count < UInt64.size) (countableOther : other < UInt64.size)
    (same : lengthField count = lengthField other) : count = other := by
  have denoted := congrArg numberOfBytes same
  have width : 256 ^ numberWidth = UInt64.size := rfl
  simp only [lengthField, numberOfBytes_numberField, width] at denoted
  rwa [Nat.mod_eq_of_lt countable, Nat.mod_eq_of_lt countableOther] at denoted

@[simp]
theorem toByteArray_textBytes (text : String) :
    (textBytes text).toByteArray = text.toUTF8 := by
  apply ByteArray.ext
  simp [textBytes]

/-- The bytes of a text denote it. -/
theorem fromUTF8?_textBytes (text : String) :
    String.fromUTF8? (textBytes text).toByteArray = some text := by
  rw [toByteArray_textBytes, String.toUTF8_eq_toByteArray,
    String.fromUTF8?, dif_pos text.isValidUTF8]
  rfl

/-- The text that bytes denote has these bytes. -/
theorem textBytes_of_fromUTF8? {raw : List UInt8} {written : String}
    (denoted : String.fromUTF8? raw.toByteArray = some written) :
    textBytes written = raw := by
  rw [String.fromUTF8?] at denoted
  split at denoted
  · cases denoted
    simp [textBytes, String.fromUTF8]
  · cases denoted

theorem textBytes_eq_flatMap (text : String) :
    textBytes text = text.toList.flatMap String.utf8EncodeChar := by
  rw [textBytes, String.toUTF8_eq_toByteArray, ← String.utf8Encode_toList,
    List.utf8Encode]
  simp

theorem length_textBytes (text : String) :
    (textBytes text).length = (text.toList.map Char.utf8Size).sum := by
  simp [textBytes_eq_flatMap, List.length_flatMap]

/-- A small byte occurs only in the encoding of the character with its
number. -/
theorem toNat_eq_of_mem_utf8EncodeChar {character : Char} {byte : UInt8}
    (small : byte.toNat < 128)
    (member : byte ∈ String.utf8EncodeChar character) :
    byte.toNat = character.toNat := by
  -- The bytes of a longer encoding have their highest bit set.
  have high (low offset : Nat) (least : 128 ≤ offset)
      (bounded : low + offset < 256) : byte ≠ UInt8.ofNat (low + offset) := by
    intro same
    rw [same, UInt8.toNat_ofNat', Nat.mod_eq_of_lt bounded] at small
    omega
  simp only [String.utf8EncodeChar] at member
  split at member
  · next single =>
      rw [List.mem_singleton.mp member, UInt8.toNat_ofNat',
        Nat.mod_eq_of_lt (by omega)]
      rfl
  split at member
  · simp only [List.mem_cons, List.not_mem_nil, or_false] at member
    rcases member with same | same <;>
      exact (high _ _ (by decide) (by omega) same).elim
  split at member
  · simp only [List.mem_cons, List.not_mem_nil, or_false] at member
    rcases member with same | same | same <;>
      exact (high _ _ (by decide) (by omega) same).elim
  · simp only [List.mem_cons, List.not_mem_nil, or_false] at member
    rcases member with same | same | same | same <;>
      exact (high _ _ (by decide) (by omega) same).elim

end Image
end StackAssembly
