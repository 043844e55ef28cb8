import StackAssembly.Assembly
import StackAssembly.CommandLine
import StackAssembly.Disassembly

/-!
# The program

Files are read and written here, and results are printed; what they are is
decided elsewhere.
-/

namespace StackAssembly
namespace Program

/-- Fuel for runs from the command line, more than any run can burn. -/
def fuel : Nat := 1000000000000000000

/-- Report an error. -/
def report (error : HostError) : IO Unit :=
  IO.eprintln error.message

/-- Do something with a file and report a failure, which is described by the
given verb. -/
def withFile {α : Type} (verb file : String) (action : IO α) :
    IO (Option α) := do
  try
    return some (← action)
  catch failure =>
    report
      { failure := .io
          ("failed to " ++ verb ++ " '" ++ file ++ "': " ++
            toString failure) }
    return none

/-- Add the files that can be read to an assembly.  The answer also tells
whether all of them could. -/
def addFiles (assembly : Assembly) :
    List String → IO (Assembly × Bool)
  | [] => return (assembly, true)
  | file :: files => do
      match ← withFile "read" file (IO.FS.readFile file) with
      | none =>
          let (whole, _) ← addFiles assembly files
          return (whole, false)
      | some text =>
          let next := assembly.addSource file text
          if let some added := next.reports.getLast? then
            IO.eprintln
              (file ++ ": " ++ Text.decimal added.loaded ++ " values, " ++
                Text.decimal added.errors ++ " errors")
          addFiles next files

/-- Assemble source files and write the image. -/
def assembleFiles (inputs : List String) (output : String) : IO UInt32 := do
  let (assembly, complete) ← addFiles {} inputs
  for diagnostic in assembly.diagnostics do
    IO.eprintln diagnostic.display
  let bytes := assembly.image.toByteArray
  match ← withFile "write" output (IO.FS.writeBinFile output bytes) with
  | none => return 1
  | some () => return if complete && !assembly.hasErrors then 0 else 1

/-- List the entries of an image. -/
def listImage (file : String) (image : List UInt8) : IO UInt32 := do
  match disassemble image with
  | .ok listing =>
      IO.print listing
      return 0
  | .error failure =>
      report (failure.inSource file)
      return 1

/-- Run an image and print the stack that is left. -/
def runFile (file : String) (image : List UInt8) (settings : RunSettings) :
    IO UInt32 := do
  match runImage fuel image settings with
  | none => return 1
  | some (.error failure) =>
      report (failure.inSource file)
      return 1
  | some (.ok result) =>
      for notification in result.trace do
        IO.eprintln notification.display
      IO.print result.printed
      IO.print (displayStack result.stack)
      return if result.succeeded then 0 else 1

/-- Do what a command asks for. -/
def perform : Command → IO UInt32
  | .assemble inputs output => assembleFiles inputs output
  | .run file settings listing => do
      match ← withFile "read" file (IO.FS.readBinFile file) with
      | none => return 1
      | some bytes =>
          let image := bytes.data.toList
          if listing then listImage file image
          else runFile file image settings

end Program
end StackAssembly

/-- Do what the command line asks for. -/
def main (arguments : List String) : IO UInt32 := do
  match StackAssembly.Command.ofArguments? arguments with
  | some command => StackAssembly.Program.perform command
  | none =>
      IO.eprint StackAssembly.Command.usage
      return 2
