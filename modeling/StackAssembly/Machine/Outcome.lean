import StackAssembly.Value.Basic

/-!
# Outcomes and faults

What an executed operation tells the block around it, and what a failing
operation leaves behind.
-/

namespace StackAssembly

/-- What an executed operation tells the block around it. -/
inductive Outcome where
  | success
  | error
  | halt
  | restartBlock
  | exitBlock
  | again
  deriving DecidableEq, Inhabited

/-- A failure of an operation, with the operands it had taken. -/
structure Fault where
  /-- The kind of failure. -/
  code : ErrorCode
  /-- The operands, in the order in which they were popped. -/
  operands : List Value := []

end StackAssembly
