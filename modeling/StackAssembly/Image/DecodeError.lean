import StackAssembly.OperationKind
import StackAssembly.Text.Numeral

/-!
# Failures of reading an image
-/

namespace StackAssembly
namespace Image

/-- What is wrong with the bytes of an image. -/
inductive Defect where
  | endOfStream
  | tooFewBytes (needed remaining : Nat)
  | invalidWidth (width : Nat)
  | unterminatedField
  | expectedName
  | nameNotText
  | stringNotText
  | nestingTooDeep
  | unknownMarker (byte : UInt8)
  | unknownTag (tag : Nat)
  | unknownErrorCode (byte : UInt8)
  | unknownKindCode (byte : UInt8)
  | missingPayload (kind : OperationKind)
  | unexpectedName (kind : OperationKind)
  deriving DecidableEq

/-- The wording of a defect. -/
def Defect.message : Defect → String
  | .endOfStream => "unexpected end of stream"
  | .tooFewBytes needed remaining =>
      "needed " ++ Text.decimal needed ++ " bytes, " ++
        Text.decimal remaining ++ " remain"
  | .invalidWidth width => "invalid number width " ++ Text.decimal width
  | .unterminatedField => "unterminated field"
  | .expectedName => "expected identifier"
  | .nameNotText => "identifier is not UTF-8"
  | .stringNotText => "string is not UTF-8"
  | .nestingTooDeep => "nesting too deep"
  | .unknownMarker byte =>
      "unknown value marker 0x" ++ Text.paddedLowerHex 2 byte.toNat
  | .unknownTag tag => "unknown operation tag " ++ Text.decimal tag
  | .unknownErrorCode byte =>
      "unknown error code " ++ Text.decimal byte.toNat
  | .unknownKindCode byte => "unknown type code " ++ Text.decimal byte.toNat
  | .missingPayload kind =>
      "operation " ++ kind.keyword ++ " needs a payload"
  | .unexpectedName kind => "operation " ++ kind.keyword ++ " takes no name"

/-- A defect at a place of an image. -/
structure DecodeError where
  /-- The number of bytes before the place. -/
  offset : Nat
  /-- What is wrong there. -/
  defect : Defect
  /-- The name of the entry whose value was being read. -/
  entry : Option String := none
  deriving DecidableEq

end Image
end StackAssembly
