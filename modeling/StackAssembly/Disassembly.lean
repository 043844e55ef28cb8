import StackAssembly.Image.Decode
import StackAssembly.Image.Header
import StackAssembly.Source.Listing

/-!
# Disassembly

An image is disassembled into a source text that lists its entries.
-/

namespace StackAssembly

open Image

/-- Read entries up to the end of the image.  Every entry takes bytes, so the
fuel lasts if it exceeds their number. -/
def decodeEntries (dialect : Dialect) :
    (fuel : Nat) → Decoder (List (String × Value))
  | 0 => return []
  | fuel + 1 => do
      if (← get).atEnd then
        return []
      let first ← decodeEntry dialect
      let later ← decodeEntries dialect fuel
      return first :: later

/-- Read the header and the entries of an image. -/
def decodeImage (dialect : Dialect) :
    ImageReader (List (String × Value)) := do
  readHeader
  (decodeEntries dialect ((← get).rest.length + 1)).reporting

/-- The source text that lists the entries of an image. -/
def disassemble (image : List UInt8) : Except HostError String :=
  match decodeImage .standard (.ofBytes image) with
  | .ok entries _ => .ok (Source.listProgram .listing entries)
  | .error failure _ => .error failure

end StackAssembly
