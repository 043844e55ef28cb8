import StackAssembly.Console
import StackAssembly.Machine.Loading

/-!
# Running images
-/

namespace StackAssembly

/-- How an image is run. -/
structure RunSettings where
  /-- The name of the value that is run. -/
  entryPoint : String := defaultEntryPoint
  /-- Whether the notifications of block activations are kept. -/
  traced : Bool := false
  deriving DecidableEq

/-- What running an image came to. -/
structure RunResult where
  /-- The number of values loaded from the image. -/
  loaded : Nat
  /-- The outcome of the entry point. -/
  outcome : Outcome
  /-- The values left on the stack, with its top first. -/
  stack : List Value
  /-- The printed text. -/
  printed : String
  /-- The notifications that were kept, the first one first. -/
  trace : List Notification

/-- Whether a run ended without an error. -/
def RunResult.succeeded (result : RunResult) : Bool :=
  result.outcome != .error

/-- The displays of the values of a stack, the bottom first and each on a
line. -/
def displayStack (stack : List Value) : String :=
  String.join (stack.reverse.map fun value => value.display ++ "\n")

/-- The operation that a run starts with. -/
def entryOperation (store : Bindings) (entryPoint : String) :
    Except HostError Operation :=
  match store.get? entryPoint with
  | none => .error { failure := .undefinedValue entryPoint }
  | some value =>
      match value.callable? with
      | none => .error { failure := .notCallable entryPoint }
      | some operation => .ok operation

/-- A fresh machine for the given settings. -/
def RunSettings.machine (settings : RunSettings) : Machine ConsoleNative :=
  { Machine.prepare id settings.entryPoint with
    trace := if settings.traced then some [] else none }

/-- Load an image into a fresh machine and run its entry point.  Without
enough fuel there is no result. -/
def runImage (fuel : Nat) (image : List UInt8) (settings : RunSettings) :
    Option (Except HostError RunResult) :=
  let (machine, count, _) := settings.machine.loadImage (.ofBytes image)
  match entryOperation machine.store settings.entryPoint with
  | .error failure => some (.error failure)
  | .ok operation =>
      (execute ConsoleNative.run fuel operation machine).map fun execution =>
        .ok
          { loaded := count
            outcome := execution.1
            stack := execution.2.stack
            printed := execution.2.printed
            trace := (execution.2.trace.getD []).reverse }

end StackAssembly
