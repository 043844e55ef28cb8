import StackAssembly.OperationKind
import StackAssembly.ValueKind

/-!
# Dialects

A dialect says which kinds of values and operations are understood, and for
each of them in what form its payload is written.  The form is that of some
kind in the standard dialect, where every kind is understood in its own form.
The same dialect directs the reading of images and of source texts.
-/

namespace StackAssembly

/-- The forms in which the understood kinds are written. -/
structure Dialect where
  /-- The form of the values of a kind. -/
  valueForm : ValueKind → Option ValueKind
  /-- The form of the operations of a kind. -/
  operationForm : OperationKind → Option OperationKind

namespace Dialect

/-- The dialect that understands nothing. -/
def empty : Dialect where
  valueForm _ := none
  operationForm _ := none

/-- The dialect that understands every kind in its own form. -/
def standard : Dialect where
  valueForm kind := some kind
  operationForm kind := some kind

/-- Give the values of a kind a form, in place of the one they had. -/
def setValueForm (dialect : Dialect) (kind form : ValueKind) : Dialect :=
  { dialect with
    valueForm := fun other =>
      if other = kind then some form else dialect.valueForm other }

/-- Give the operations of a kind a form, in place of the one they had. -/
def setOperationForm (dialect : Dialect) (kind form : OperationKind) :
    Dialect :=
  { dialect with
    operationForm := fun other =>
      if other = kind then some form else dialect.operationForm other }

/-- The form of the values that a marker introduces. -/
def valueFormOfMarker? (dialect : Dialect) (marker : UInt8) :
    Option ValueKind :=
  (ValueKind.ofMarker? marker).bind dialect.valueForm

/-- The form of the values that a keyword introduces. -/
def valueFormOfKeyword? (dialect : Dialect) (keyword : String) :
    Option ValueKind :=
  (ValueKind.ofKeyword? keyword).bind dialect.valueForm

/-- A kind of operations together with its form. -/
def operationFormOf? (dialect : Dialect) (kind : OperationKind) :
    Option (OperationKind × OperationKind) :=
  (dialect.operationForm kind).map fun form => (kind, form)

/-- The kind of the operations that a tag introduces, and their form. -/
def operationFormOfTag? (dialect : Dialect) (tag : UInt32) :
    Option (OperationKind × OperationKind) :=
  (OperationKind.ofTag? tag).bind dialect.operationFormOf?

/-- The kind of the operations that a keyword introduces, and their form. -/
def operationFormOfKeyword? (dialect : Dialect) (keyword : String) :
    Option (OperationKind × OperationKind) :=
  (OperationKind.ofKeyword? keyword).bind dialect.operationFormOf?

end Dialect
end StackAssembly
