import StackAssembly.HostError
import StackAssembly.Image.ByteReader

/-!
# The header of an image

An image starts with the version of its format, and only one version exists.
-/

namespace StackAssembly
namespace Image

/-- A computation that reads an image and reports its failures to the host. -/
abbrev ImageReader (α : Type) := EStateM HostError ByteReader α

/-- Report the defects that a decoder finds to the host. -/
def Decoder.reporting {α : Type} (decoder : Decoder α) : ImageReader α :=
  fun reader =>
    match decoder reader with
    | .ok value next => .ok value next
    | .error failure next => .error (.ofDecodeError failure) next

/-- Read the version of the format and refuse any other than the known one. -/
def readHeader : ImageReader Unit := do
  let found ← Decoder.byte.reporting
  if found = formatVersion then
    return ()
  else
    throw { failure := .versionMismatch formatVersion found }

end Image
end StackAssembly
