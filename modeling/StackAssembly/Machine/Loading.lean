import StackAssembly.Image.Decode
import StackAssembly.Image.Encode
import StackAssembly.Image.Header
import StackAssembly.Machine.State
import StackAssembly.Source.Program

/-!
# Loading and saving

Named values are loaded into the store from an image or from a source text.
Loading stops at the first thing that cannot be read and at the first name
that is bound already; what was loaded before stays.
-/

namespace StackAssembly

/-- Load the entries of an image behind its header.  Every entry takes bytes,
so the fuel lasts if it exceeds their number. -/
def loadEntries (dialect : Dialect) :
    (fuel : Nat) → Bindings → Image.ByteReader →
      Bindings × Nat × Image.ByteReader
  | 0, store, reader => (store, 0, reader)
  | fuel + 1, store, reader =>
      if reader.atEnd then
        (store, 0, reader)
      else
        match Image.decodeEntry dialect reader with
        | .error _ next => (store, 0, next)
        | .ok (name, value) next =>
            match store.define? name value with
            | none => (store, 0, next)
            | some bound =>
                let (result, count, last) :=
                  loadEntries dialect fuel bound next
                (result, count + 1, last)

/-- Load an image.  The answer is the store, the number of entries loaded and
the place where reading ended. -/
def loadImage (dialect : Dialect) (store : Bindings)
    (reader : Image.ByteReader) : Bindings × Nat × Image.ByteReader :=
  match Image.readHeader reader with
  | .error _ next => (store, 0, next)
  | .ok () next => loadEntries dialect (next.rest.length + 1) store next

/-- Load the statements of a source text.  Every statement takes a token, so
the fuel lasts if it exceeds their number. -/
def loadStatements (dialect : Dialect) :
    (fuel : Nat) → Bindings → Source.Session →
      Bindings × Nat × Source.Session
  | 0, store, session => (store, 0, session)
  | fuel + 1, store, session =>
      if session.cursor.atEnd then
        (store, 0, session)
      else
        match session.attempt (Source.parseStatement dialect) with
        | (none, next) => (store, 0, next)
        | (some (name, value), next) =>
            match store.define? name value with
            | none => (store, 0, next)
            | some bound =>
                let (result, count, last) :=
                  loadStatements dialect fuel bound next
                (result, count + 1, last)

/-- Load a source text.  The answer is the store, the number of statements
loaded and the session where reading ended. -/
def loadSource (dialect : Dialect) (store : Bindings)
    (session : Source.Session) : Bindings × Nat × Source.Session :=
  loadStatements dialect (session.cursor.rest.length + 1) store session

/-- The image of a store: the version and the entries in the order of their
names. -/
def Bindings.image (store : Bindings) : List UInt8 :=
  Image.formatVersion ::
    store.entries.flatMap fun entry => encodeEntry entry.1 entry.2

namespace Machine

variable {ν : Type}

/-- Load an image into the store of a machine. -/
def loadImage (machine : Machine ν) (reader : Image.ByteReader) :
    Machine ν × Nat × Image.ByteReader :=
  let (store, count, last) :=
    StackAssembly.loadImage machine.dialect machine.store reader
  ({ machine with store }, count, last)

/-- Load a source text into the store of a machine. -/
def loadSource (machine : Machine ν) (session : Source.Session) :
    Machine ν × Nat × Source.Session :=
  let (store, count, last) :=
    StackAssembly.loadSource machine.dialect machine.store session
  ({ machine with store }, count, last)

end Machine
end StackAssembly
