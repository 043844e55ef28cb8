/-!
# Runs of computations

Decoders and parsers are computations with a state and a failure.  A sequence
of two computations runs as its first part does, and goes on with the second
part where the first one succeeds.
-/

namespace StackAssembly

section Bind

variable {ε σ α β : Type} {first : EStateM ε σ α} {later : α → EStateM ε σ β}
  {state next : σ} {value : α} {failure : ε}

theorem bind_of_ok (run : first state = .ok value next) :
    (first >>= later) state = later value next := by
  change EStateM.bind first later state = later value next
  rw [EStateM.bind, run]

theorem bind_of_error (run : first state = .error failure next) :
    (first >>= later) state = .error failure next := by
  change EStateM.bind first later state = .error failure next
  rw [EStateM.bind, run]

/-- A sequence that succeeds does so in both of its parts. -/
theorem exists_of_bind_ok {result : β} {last : σ}
    (run : (first >>= later) state = .ok result last) :
    ∃ value next, first state = .ok value next ∧
      later value next = .ok result last := by
  cases ran : first state with
  | error failure next =>
      rw [bind_of_error ran] at run
      cases run
  | ok value next =>
      rw [bind_of_ok ran] at run
      exact ⟨value, next, rfl, run⟩

end Bind

end StackAssembly
