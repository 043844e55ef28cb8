/-!
# Error codes

The closed list of failures that a running program can meet.  They are values
of the language: a failing operation leaves its code on the data stack.
-/

namespace StackAssembly

/-- A failure that a program can meet, inspect and compare. -/
inductive ErrorCode where
  | notFound
  | typeMismatch
  | insufficientArguments
  | outOfBounds
  | alreadyExisting
  | divByZero
  | unexpectedResult
  | syntaxError
  | notImplemented
  deriving DecidableEq, Inhabited

namespace ErrorCode

/-- Every error code, in the order of their bytes. -/
def all : List ErrorCode :=
  [.notFound, .typeMismatch, .insufficientArguments, .outOfBounds,
    .alreadyExisting, .divByZero, .unexpectedResult, .syntaxError,
    .notImplemented]

/-- The byte that stands for an error code in an image. -/
def toByte : ErrorCode → UInt8
  | .notFound => 1
  | .typeMismatch => 2
  | .insufficientArguments => 3
  | .outOfBounds => 4
  | .alreadyExisting => 5
  | .divByZero => 6
  | .unexpectedResult => 7
  | .syntaxError => 8
  | .notImplemented => 9

/-- The word that stands for an error code in a source text. -/
def token : ErrorCode → String
  | .notFound => "not_found"
  | .typeMismatch => "type_mismatch"
  | .insufficientArguments => "insufficient_arguments"
  | .outOfBounds => "out_of_bounds"
  | .alreadyExisting => "already_existing"
  | .divByZero => "div_by_zero"
  | .unexpectedResult => "unexpected_result"
  | .syntaxError => "syntax_error"
  | .notImplemented => "not_implemented"

/-- The error code with the given byte. -/
def ofByte? (byte : UInt8) : Option ErrorCode :=
  all.find? fun code => code.toByte == byte

/-- Whether two texts agree up to the case of the ASCII letters. -/
def agreesIgnoringCase (left right : String) : Bool :=
  left.toList.map Char.toLower == right.toList.map Char.toLower

/-- The error code with the given word, in any mixture of ASCII cases. -/
def ofToken? (word : String) : Option ErrorCode :=
  all.find? fun code => agreesIgnoringCase code.token word

/-- The complaint about a word that names no error code. -/
def unknownMessage (word : String) : String :=
  "unknown error code: " ++ word

end ErrorCode
end StackAssembly
