import StackAssembly.Text.Numeral
import StackAssembly.Unicode.DefaultIgnorable
import StackAssembly.Unicode.GraphemeExtend
import StackAssembly.Unicode.Printable

/-!
# Quoted text

Text in messages stands between quotation marks.  A backslash announces every
character that would end the quotation or that cannot be seen on its own.
-/

namespace StackAssembly
namespace Text

/-- Whether a character cannot be seen, or not on its own: it is not printable,
it is ignorable, or it is a mark on the character before it. -/
def isHidden (character : Char) : Bool :=
  !Unicode.isPrintable character || Unicode.isDefaultIgnorable character ||
    Unicode.isAttachedMark character

/-- How one character is written between the given quotation marks. -/
def quotedCharacter (mark character : Char) : String :=
  if character = '\x00' then "\\0"
  else if character = '\t' then "\\t"
  else if character = '\r' then "\\r"
  else if character = '\n' then "\\n"
  else if character = '\\' then "\\\\"
  else if character = mark then String.ofList ['\\', mark]
  else if isHidden character then
    "\\u\x7b" ++ lowerHex character.toNat ++ "\x7d"
  else String.singleton character

/-- A text between the given quotation marks. -/
def quoted (mark : Char) (text : String) : String :=
  String.singleton mark ++
    String.join (text.toList.map (quotedCharacter mark)) ++
    String.singleton mark

end Text
end StackAssembly
