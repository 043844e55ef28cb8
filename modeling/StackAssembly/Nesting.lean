/-!
# Nesting

Images and source texts share one bound on nesting, so that what can be
written in one can be written in the other.
-/

namespace StackAssembly

/-- The greatest number of values and operations that may be open at once. -/
def maxNesting : Nat := 128

end StackAssembly
