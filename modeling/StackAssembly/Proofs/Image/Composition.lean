import StackAssembly.Image.Decode

/-!
# Relations that go through decoders

Every decoder is composed of a few that look at the bytes.  A relation between
decoders that holds of these and goes through sequences therefore holds of
all fields, and of the payloads whenever it holds of the readers of parts.
-/

namespace StackAssembly
namespace Image
namespace Decoder

/-- Whether a relation between decoders goes through what decoders are made
of, where defects may be reported at the allowed places. -/
structure Compositional (allowed : Nat → Prop)
    (related : ∀ ⦃α : Type⦄, Decoder α → Decoder α → Prop) : Prop where
  pure : ∀ {α : Type} (value : α), related (pure value) (pure value)
  bind : ∀ {α β : Type} {first other : Decoder α}
    {later otherLater : α → Decoder β}, related first other →
      (∀ value, related (later value) (otherLater value)) →
        related (first >>= later) (other >>= otherLater)
  fromOffset : ∀ {α : Type} {later otherLater : Nat → Decoder α},
    (∀ start, allowed start → related (later start) (otherLater start)) →
      related (offset >>= later) (offset >>= otherLater)
  failAt : ∀ {α : Type} (start : Nat) (defect : Defect), allowed start →
    related (failAt (α := α) start defect) (failAt start defect)
  byte : related byte byte
  bytes : ∀ count, related (bytes count) (bytes count)
  untilByte : ∀ delimiter, related (untilByte delimiter) (untilByte delimiter)

namespace Compositional

variable {allowed : Nat → Prop}
  {related : ∀ ⦃α : Type⦄, Decoder α → Decoder α → Prop}
  {α β : Type}

section Fields

variable (goes : Compositional allowed related)

include goes

theorem map {first other : Decoder α} (one : related first other)
    (make : α → β) :
    related (do return make (← first)) (do return make (← other)) :=
  goes.bind one fun value => goes.pure (make value)

theorem fail (defect : Defect) :
    related (Decoder.fail (α := α) defect) (Decoder.fail defect) :=
  goes.fromOffset fun start here => goes.failAt start defect here

theorem number (width : Nat) :
    related (Decoder.number width) (Decoder.number width) := by
  rw [Decoder.number]
  split
  · exact goes.fail _
  · exact goes.map (goes.bytes width) numberOfBytes

theorem boolean : related Decoder.boolean Decoder.boolean :=
  goes.map goes.byte (· != 0)

theorem text {start : Nat} (here : allowed start) (defect : Defect)
    (raw : List UInt8) :
    related (Decoder.text start defect raw)
      (Decoder.text start defect raw) := by
  rw [Decoder.text]
  split
  · exact goes.pure _
  · exact goes.failAt start defect here

theorem nameBody : related Decoder.nameBody Decoder.nameBody :=
  goes.fromOffset fun _ here =>
    goes.bind (goes.untilByte nameDelimiter) fun raw =>
      goes.text here .nameNotText raw

theorem name : related Decoder.name Decoder.name := by
  refine goes.fromOffset fun start here => goes.bind goes.byte fun opening => ?_
  split
  · exact goes.nameBody
  · exact goes.failAt start .expectedName here

theorem data : related Decoder.data Decoder.data := by
  refine goes.bind (goes.number numberWidth) fun count => ?_
  exact goes.fromOffset fun start here =>
    goes.bind (goes.bytes count) fun raw => goes.text here .stringNotText raw

theorem errorCode : related Decoder.errorCode Decoder.errorCode := by
  refine goes.fromOffset fun start here => goes.bind goes.byte fun byte => ?_
  split
  · exact goes.pure _
  · exact goes.failAt start _ here

theorem valueKind : related Decoder.valueKind Decoder.valueKind := by
  refine goes.fromOffset fun start here => goes.bind goes.byte fun byte => ?_
  split
  · exact goes.pure _
  · exact goes.failAt start _ here

theorem many {item other : Decoder α} (one : related item other)
    (count : Nat) :
    related (Decoder.many item count) (Decoder.many other count) := by
  induction count with
  | zero => exact goes.pure []
  | succ count ih => exact goes.bind one fun first => goes.map ih (first :: ·)

theorem counted {item other : Decoder α} (one : related item other) :
    related (Decoder.counted item) (Decoder.counted other) :=
  goes.bind (goes.number numberWidth) fun count => goes.many one count

end Fields

end Compositional
end Decoder

/-- Read a value whose beginning has been counted. -/
def PartDecoders.markedValue (dialect : Dialect) (parts : PartDecoders) :
    Decoder Value := do
  let start ← Decoder.offset
  let marker ← Decoder.byte
  match dialect.valueFormOfMarker? marker with
  | some form => parts.valuePayload form
  | none => Decoder.failAt start (.unknownMarker marker)

/-- Read an operation whose beginning has been counted. -/
def PartDecoders.taggedOperation (dialect : Dialect) (parts : PartDecoders) :
    Decoder Operation := do
  let start ← Decoder.offset
  let tag ← Decoder.number tagWidth
  match dialect.operationFormOfTag? (UInt32.ofNat tag) with
  | some (kind, form) => parts.operationPayload kind form
  | none => Decoder.failAt start (.unknownTag tag)

theorem PartDecoders.openValue_eq (dialect : Dialect) (parts : PartDecoders) :
    parts.openValue dialect =
      Decoder.begin >>= fun _ => parts.markedValue dialect :=
  rfl

theorem PartDecoders.openOperation_eq (dialect : Dialect)
    (parts : PartDecoders) :
    parts.openOperation dialect =
      Decoder.begin >>= fun _ => parts.taggedOperation dialect :=
  rfl

/-- Whether the readers of parts are related. -/
structure PartDecoders.Related
    (related : ∀ ⦃α : Type⦄, Decoder α → Decoder α → Prop)
    (parts others : PartDecoders) : Prop where
  value : related parts.value others.value
  operation : related parts.operation others.operation

namespace PartDecoders.Related

open Decoder

variable {allowed : Nat → Prop}
  {related : ∀ ⦃α : Type⦄, Decoder α → Decoder α → Prop}
  {parts others : PartDecoders}

variable (each : Related related parts others)
  (goes : Compositional allowed related)

include each goes

theorem tuplePayload : related parts.tuplePayload others.tuplePayload :=
  goes.counted each.value

theorem tablePayload : related parts.tablePayload others.tablePayload := by
  refine goes.map (goes.counted ?_) Entries.ofPairs
  exact goes.bind each.value fun key => goes.map each.value (key, ·)

theorem setPayload : related parts.setPayload others.setPayload :=
  goes.map (goes.counted each.value) Members.ofValues

theorem alternative : related parts.alternative others.alternative := by
  refine goes.bind goes.boolean fun present => ?_
  split
  · exact goes.map each.operation some
  · exact goes.pure none

theorem blockPayload : related parts.blockPayload others.blockPayload := by
  refine goes.bind (goes.counted goes.name) fun slots => ?_
  exact goes.map (goes.counted each.operation) (Operation.block slots)

/-- What relates the readers of parts relates the payloads of values. -/
theorem valuePayload (form : ValueKind) :
    related (parts.valuePayload form) (others.valuePayload form) := by
  cases form with
  | empty => exact goes.pure _
  | number => exact goes.map (goes.number _) _
  | boolean => exact goes.map goes.boolean _
  | character => exact goes.map (goes.number _) _
  | string => exact goes.map goes.data _
  | atom => exact goes.map goes.nameBody _
  | error => exact goes.map goes.errorCode _
  | type => exact goes.map goes.valueKind _
  | tuple => exact goes.map (each.tuplePayload goes) _
  | table => exact goes.map (each.tablePayload goes) _
  | set => exact goes.map (each.setPayload goes) _
  | operation | block | bind => exact goes.map each.operation _

/-- What relates the readers of parts relates the payloads of operations. -/
theorem operationPayload (kind form : OperationKind) :
    related (parts.operationPayload kind form)
      (others.operationPayload kind form) := by
  cases form with
  | primitive which =>
      rw [PartDecoders.operationPayload, PartDecoders.operationPayload]
      cases Operation.ofKind? kind with
      | some operation => exact goes.pure operation
      | none => exact goes.fail _
  | push => exact goes.map each.value _
  | ifTrue => exact goes.map each.operation _
  | select =>
      exact goes.bind (each.tablePayload goes) fun cases =>
        goes.map (each.alternative goes) _
  | named use =>
      refine goes.fromOffset fun start here => goes.bind goes.name fun name => ?_
      cases kind with
      | named other => exact goes.pure _
      | _ => exact goes.failAt start _ here
  | call =>
      exact goes.bind goes.name fun target =>
        goes.map (each.tuplePayload goes) _
  | loadNative => exact goes.map goes.data _
  | native =>
      exact goes.bind goes.name fun bucket => goes.map goes.name _
  | block => exact each.blockPayload goes
  | partialBind =>
      exact goes.bind each.value fun value => goes.map each.operation _

theorem markedValue (dialect : Dialect) :
    related (parts.markedValue dialect) (others.markedValue dialect) := by
  refine goes.fromOffset fun start here =>
    goes.bind goes.byte fun marker => ?_
  split
  · exact each.valuePayload goes _
  · exact goes.failAt start _ here

theorem taggedOperation (dialect : Dialect) :
    related (parts.taggedOperation dialect)
      (others.taggedOperation dialect) := by
  refine goes.fromOffset fun start here =>
    goes.bind (goes.number tagWidth) fun tag => ?_
  split
  · exact each.operationPayload goes _ _
  · exact goes.failAt start _ here

end PartDecoders.Related
end Image
end StackAssembly
