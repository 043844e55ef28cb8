import StackAssembly.Machine.Bindings

/-!
# Slot frames

Every activation of a block has a frame, in which the slots of the block are
bound.  Only the innermost frame can be read and changed.
-/

namespace StackAssembly

/-- The frames of the active blocks, the innermost one first. -/
abbrev Frames := List Bindings

namespace Frames

/-- The value of a slot of the innermost frame. -/
def get? (frames : Frames) (name : String) : Option Value :=
  frames.head?.bind fun frame => frame.get? name

/-- Bind a slot in the innermost frame, if there is one. -/
def set? (frames : Frames) (name : String) (value : Value) :
    Option Frames :=
  match frames with
  | [] => none
  | frame :: outer => some (frame.set name value :: outer)

end Frames
end StackAssembly
