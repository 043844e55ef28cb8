/-!
# Ranges of code points

A property of characters is given by the ranges of code points that have it.
The ranges of a table are disjoint and increase, so that a search may stop at
the first range that starts beyond the code point in question.
-/

namespace StackAssembly
namespace Unicode

/-- A range of code points, with both ends included. -/
structure CodeRange where
  /-- The least code point of the range. -/
  first : Nat
  /-- The greatest code point of the range. -/
  last : Nat

/-- Whether one of the increasing ranges holds the code point. -/
def covers : List CodeRange → Nat → Bool
  | [], _ => false
  | range :: later, code =>
      if code < range.first then false
      else if code ≤ range.last then true
      else covers later code

end Unicode
end StackAssembly
