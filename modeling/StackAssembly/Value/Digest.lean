import StackAssembly.Value.Basic

/-!
# Digests of values

A digest reduces a value to one word so that equal values have equal digests.
It reads a list of words that the value feeds to it.  The entries of a table
and the members of a set are digested one by one and their digests are added,
so that the order of insertion leaves no trace.
-/

namespace StackAssembly

/-- A way of reducing a list of words to one word. -/
abbrev DigestFunction := List UInt64 → UInt64

/-- The words that a text feeds: its bytes in UTF-8 and a byte that occurs in
no text. -/
def textWords (text : String) : List UInt64 :=
  text.toUTF8.data.toList.map UInt8.toUInt64 ++ [0xff]

/-- The words that a list of texts feeds: their number and their words. -/
def textListWords (texts : List String) : List UInt64 :=
  UInt64.ofNat texts.length :: texts.flatMap textWords

mutual

/-- The words that a value feeds to a digest. -/
def Value.words (digest : DigestFunction) : Value → List UInt64
  | .empty => [1]
  | .number word => [2, word]
  | .boolean truth => [3, if truth then 1 else 0]
  | .character code => [4, code.toUInt64]
  | .string text => 5 :: textWords text
  | .atom name => 6 :: textWords name
  | .error code => [7, code.toByte.toUInt64]
  | .type kind => [8, kind.code.toUInt64]
  | .tuple items => 9 :: UInt64.ofNat items.length :: itemWords digest items
  | .table entries =>
      [10, UInt64.ofNat entries.length, entryDigests digest entries]
  | .set members =>
      [11, UInt64.ofNat members.length, memberDigests digest members]
  | .operation body => 12 :: body.words digest
  termination_by structural value => value

/-- The words of a sequence of values. -/
def itemWords (digest : DigestFunction) : List Value → List UInt64
  | [] => []
  | value :: values => value.words digest ++ itemWords digest values
  termination_by structural values => values

/-- The sum of the digests of the members of a set. -/
def memberDigests (digest : DigestFunction) : List Value → UInt64
  | [] => 0
  | value :: values =>
      digest (value.words digest) + memberDigests digest values
  termination_by structural values => values

/-- The sum of the digests of the entries of a table. -/
def entryDigests (digest : DigestFunction) :
    List (Value × Value) → UInt64
  | [] => 0
  | (key, value) :: entries =>
      digest (key.words digest ++ value.words digest) +
        entryDigests digest entries
  termination_by structural entries => entries

/-- The words that an operation feeds to a digest. -/
def Operation.words (digest : DigestFunction) : Operation → List UInt64
  | .primitive which => [which.tag.toUInt64]
  | .push value => 2 :: value.words digest
  | .ifTrue body => 30 :: body.words digest
  | .select cases otherwise =>
      34 :: UInt64.ofNat cases.length :: entryDigests digest cases ::
        alternativeWords digest otherwise
  | .named use name => use.tag.toUInt64 :: textWords name
  | .call target arguments =>
      50 :: (textWords target ++ UInt64.ofNat arguments.length ::
        itemWords digest arguments)
  | .loadNative path => 90 :: textWords path
  | .native bucket name => 91 :: (textWords bucket ++ textWords name)
  | .block slots operations =>
      100 :: (textListWords slots ++ UInt64.ofNat operations.length ::
        operationWords digest operations)
  | .partialBind value callable =>
      101 :: (value.words digest ++ callable.words digest)
  termination_by structural operation => operation

/-- The words of an optional operation. -/
def alternativeWords (digest : DigestFunction) :
    Option Operation → List UInt64
  | none => [0]
  | some operation => 1 :: operation.words digest
  termination_by structural operation => operation

/-- The words of a sequence of operations. -/
def operationWords (digest : DigestFunction) :
    List Operation → List UInt64
  | [] => []
  | operation :: operations =>
      operation.words digest ++ operationWords digest operations
  termination_by structural operations => operations

end

/-- A multiplicative digest of a list of words. -/
def foldWords (words : List UInt64) : UInt64 :=
  words.foldl (fun sum word => (sum ^^^ word) * 0x100000001b3)
    0xcbf29ce484222325

/-- The digest of a value. -/
def Value.digest (value : Value) : UInt64 :=
  foldWords (value.words foldWords)

end StackAssembly
