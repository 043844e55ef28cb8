import StackAssembly.Machine.Execute

/-!
# Printing natives

The library that lets a program print values.  Strings and atoms are printed
as they are, other values as they are displayed.
-/

namespace StackAssembly

/-- The text of a value as it is printed. -/
def Value.render (value : Value) : String :=
  value.text?.getD value.display

/-- The natives that print. -/
inductive ConsoleNative where
  | print
  | write
  deriving DecidableEq

namespace ConsoleNative

/-- The path under which the printing natives are offered. -/
def path : String := "cairn/io"

/-- The library of the printing natives, with symbols made from them. -/
def library {ν : Type} (symbol : ConsoleNative → ν) : Library ν where
  bucket := "io"
  operations := [("print", symbol .print), ("write", symbol .write)]

/-- What follows a printed value. -/
def ending : ConsoleNative → String
  | .print => "\n"
  | .write => ""

/-- Print the top value, which is taken off the stack. -/
def run {ν : Type} (action : ConsoleNative) (machine : Machine ν) :
    Execution ν :=
  match machine.pop? with
  | some (value, rest) =>
      (.success, rest.print (value.render ++ action.ending))
  | none => (.error, machine.raise { code := .insufficientArguments })

end ConsoleNative

/-- The machine with the printing natives on offer. -/
def Machine.prepare {ν : Type} (symbol : ConsoleNative → ν)
    (entryPoint : String) : Machine ν :=
  { entryPoint : Machine ν }.provide ConsoleNative.path
    (ConsoleNative.library symbol)

end StackAssembly
