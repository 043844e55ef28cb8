/-!
# Numerals

The digits with which numbers are written in texts and messages.
-/

namespace StackAssembly
namespace Text

/-- The decimal digits of a number, without leading zeros. -/
def decimal (number : Nat) : String :=
  String.ofList (Nat.toDigits 10 number)

/-- The hexadecimal digits of a number, with small letters. -/
def lowerHex (number : Nat) : String :=
  String.ofList (Nat.toDigits 16 number)

/-- Put zeros in front of digits until there are `width` of them. -/
def padZeros (width : Nat) (digits : List Char) : List Char :=
  List.replicate (width - digits.length) '0' ++ digits

/-- At least `width` hexadecimal digits of a number, with small letters. -/
def paddedLowerHex (width number : Nat) : String :=
  String.ofList (padZeros width (Nat.toDigits 16 number))

/-- At least `width` hexadecimal digits of a number, with capital letters. -/
def paddedUpperHex (width number : Nat) : String :=
  String.ofList
    (padZeros width ((Nat.toDigits 16 number).map Char.toUpper))

end Text
end StackAssembly
