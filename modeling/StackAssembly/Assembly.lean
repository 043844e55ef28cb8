import StackAssembly.Machine.Loading

/-!
# Assemblies

An assembly gathers the statements of several source texts into one store and
reports what it had to leave out: statements that fail, and statements for
names that are bound already.
-/

namespace StackAssembly

/-- What adding a source to an assembly came to. -/
structure SourceReport where
  /-- The name of the source. -/
  source : String
  /-- The number of statements that were added. -/
  loaded : Nat
  /-- The number of statements that were left out. -/
  errors : Nat
  deriving DecidableEq

/-- Why a statement was left out. -/
inductive Omission where
  | failed (error : Source.ParseError)
  | alreadyDefined (name : String)
  deriving DecidableEq

/-- The wording of a reason. -/
def Omission.message : Omission → String
  | .failed error => error.display
  | .alreadyDefined name => "value `" ++ name ++ "` is already defined"

/-- A statement left out of an assembly. -/
structure Diagnostic where
  /-- The name of the source of the statement. -/
  source : String
  /-- Why it was left out. -/
  omission : Omission
  deriving DecidableEq

/-- How a diagnostic is shown. -/
def Diagnostic.display (diagnostic : Diagnostic) : String :=
  diagnostic.source ++ ": " ++ diagnostic.omission.message

/-- The statements gathered so far, with the reports about them. -/
structure Assembly where
  /-- The gathered values. -/
  store : Bindings := .empty
  /-- One report for each source, the first one first. -/
  reports : List SourceReport := []
  /-- The diagnostics of all sources, the first one first. -/
  diagnostics : List Diagnostic := []

/-- Bind those of the entries whose names are free.  The answer is the store
and the names that were bound already. -/
def Bindings.gather (store : Bindings) :
    List (String × Value) → Bindings × List String
  | [] => (store, [])
  | (name, value) :: entries =>
      match store.define? name value with
      | some bound => bound.gather entries
      | none =>
          let result := store.gather entries
          (result.1, name :: result.2)

namespace Assembly

/-- Add the statements of a source. -/
def addSource (assembly : Assembly) (source text : String) : Assembly :=
  let (entries, errors) := Source.parseProgram .standard text
  let (store, repeated) := assembly.store.gather entries
  let omissions :=
    errors.map Omission.failed ++ repeated.map Omission.alreadyDefined
  { store
    reports := assembly.reports ++
      [{ source
         loaded := entries.length - repeated.length
         errors := omissions.length }]
    diagnostics := assembly.diagnostics ++
      omissions.map fun omission => { source, omission } }

/-- Add sources one after the other. -/
def addSources (assembly : Assembly) (sources : List (String × String)) :
    Assembly :=
  sources.foldl (fun sum source => sum.addSource source.1 source.2) assembly

/-- The number of gathered values. -/
def size (assembly : Assembly) : Nat :=
  assembly.store.size

/-- Whether a statement was left out. -/
def hasErrors (assembly : Assembly) : Bool :=
  !assembly.diagnostics.isEmpty

/-- The image of the gathered values. -/
def image (assembly : Assembly) : List UInt8 :=
  assembly.store.image

end Assembly
end StackAssembly
