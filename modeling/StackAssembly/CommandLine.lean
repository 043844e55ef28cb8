import StackAssembly.Run

/-!
# The command line

Two commands exist: one assembles source files into an image, and one runs an
image or lists what it holds.
-/

namespace StackAssembly

/-- What the user asks for. -/
inductive Command where
  | assemble (inputs : List String) (output : String)
  | run (image : String) (settings : RunSettings) (disassemble : Bool)
  deriving DecidableEq

namespace Command

/-- How the program is called. -/
def usage : String :=
  "usage: assemble INPUT... [-o OUTPUT]\n" ++
    "       run IMAGE [--entry NAME] [--trace] [--disassemble]\n"

/-- The file that an image is written to unless told otherwise. -/
def defaultOutput : String := "out.image"

/-- Read the arguments of the assembler behind the given inputs. -/
def assembleArguments (inputs : List String) (output : String) :
    List String → Option Command
  | [] =>
      if inputs.isEmpty then none else some (.assemble inputs output)
  | "-o" :: file :: rest => assembleArguments inputs file rest
  | "--output" :: file :: rest => assembleArguments inputs file rest
  | argument :: rest =>
      if argument.startsWith "-" then none
      else assembleArguments (inputs ++ [argument]) output rest

/-- Read the arguments of the runner behind those already read. -/
def runArguments (image : Option String) (settings : RunSettings)
    (disassemble : Bool) : List String → Option Command
  | [] => image.map fun file => .run file settings disassemble
  | "--entry" :: name :: rest =>
      runArguments image { settings with entryPoint := name } disassemble rest
  | "--trace" :: rest =>
      runArguments image { settings with traced := true } disassemble rest
  | "--disassemble" :: rest => runArguments image settings true rest
  | argument :: rest =>
      if argument.startsWith "-" then none
      else if image.isSome then none
      else runArguments (some argument) settings disassemble rest

/-- The command that arguments ask for. -/
def ofArguments? : List String → Option Command
  | "assemble" :: rest => assembleArguments [] defaultOutput rest
  | "run" :: rest => runArguments none {} false rest
  | _ => none

end Command

/-- How a notification is shown. -/
def Notification.display (notification : Notification) : String :=
  let place :=
    " (stack " ++ Text.decimal notification.stackLength ++ ", frames " ++
      Text.decimal notification.frameCount ++ ")"
  match notification.event with
  | .entering => "entering block" ++ place
  | .leaving => "leaving block" ++ place
  | .executing index =>
      let shown := notification.operations[index]?.map Operation.display
      "executing " ++ shown.getD "" ++ place

end StackAssembly
