import StackAssembly.Image.DecodeError
import StackAssembly.Text.Numeral

/-!
# Errors reported to the host

What can go wrong outside the running program: in reading images and source
texts, and in starting a program.
-/

namespace StackAssembly

/-- What went wrong. -/
inductive HostFailure where
  | decode (offset : Nat) (message : String)
  | versionMismatch (expected found : UInt8)
  | parse (message context : String)
  | io (message : String)
  | undefinedValue (name : String)
  | notCallable (name : String)
  deriving DecidableEq

/-- Where it went wrong: the source being processed and the value that was
being read. -/
structure ErrorContext where
  /-- The name of the source. -/
  source : Option String := none
  /-- The name of the value. -/
  value : Option String := none
  deriving DecidableEq

/-- A failure with what is known about its place. -/
structure HostError where
  /-- What went wrong. -/
  failure : HostFailure
  /-- Where it went wrong, when that has been noted. -/
  context : Option ErrorContext := none
  deriving DecidableEq

/-- The wording of a failure. -/
def HostFailure.message : HostFailure → String
  | .decode offset message =>
      "decode error at offset " ++ Text.decimal offset ++ ": " ++ message
  | .versionMismatch expected found =>
      "format version mismatch: expected " ++ Text.decimal expected.toNat ++
        ", found " ++ Text.decimal found.toNat
  | .parse message context =>
      "parse error: " ++ message ++ " (near `" ++ context ++ "`)"
  | .io message => "i/o error: " ++ message
  | .undefinedValue name => "undefined value: " ++ name
  | .notCallable name => "value is not callable: " ++ name

/-- The wording of a context. -/
def ErrorContext.message (context : ErrorContext) : String :=
  match context.source, context.value with
  | none, none => ""
  | some source, none => "in " ++ source
  | none, some value => "(value " ++ value ++ ")"
  | some source, some value => "in " ++ source ++ " (value " ++ value ++ ")"

namespace HostError

/-- The wording of an error: the failure and, after a space, its context. -/
def message (error : HostError) : String :=
  match error.context with
  | none => error.failure.message
  | some context => error.failure.message ++ " " ++ context.message

/-- Replace what is known about the place of an error. -/
def withContext (error : HostError) (context : ErrorContext) : HostError :=
  { error with context := some context }

/-- Note the source in which an error arose. -/
def inSource (error : HostError) (source : String) : HostError :=
  error.withContext
    { error.context.getD {} with source := some source }

/-- The error for a defect of an image. -/
def ofDecodeError (error : Image.DecodeError) : HostError where
  failure := .decode error.offset error.defect.message
  context := error.entry.map fun name => { value := some name }

end HostError
end StackAssembly
