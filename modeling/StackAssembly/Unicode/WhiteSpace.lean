import StackAssembly.Unicode.CodeRange

/-!
# White space

The Unicode property `White_Space`: the characters that may stand between two
lexemes of a source text.
-/

namespace StackAssembly
namespace Unicode

/-- Code points with the property `White_Space`, in increasing order. -/
def whiteSpaceRanges : List CodeRange :=
  [⟨0x9, 0xd⟩, ⟨0x20, 0x20⟩, ⟨0x85, 0x85⟩, ⟨0xa0, 0xa0⟩, ⟨0x1680, 0x1680⟩,
    ⟨0x2000, 0x200a⟩, ⟨0x2028, 0x2029⟩, ⟨0x202f, 0x202f⟩, ⟨0x205f, 0x205f⟩,
    ⟨0x3000, 0x3000⟩]

/-- Whether a character separates lexemes. -/
def isWhiteSpace (character : Char) : Bool :=
  covers whiteSpaceRanges character.toNat

end Unicode
end StackAssembly
