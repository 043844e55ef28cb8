import StackAssembly.Machine.State
import StackAssembly.Source.Program
import StackAssembly.Value.Cast
import StackAssembly.Value.Container

/-!
# Rules of the stack

Most primitives take one or two operands off the stack and put results in
their place, or refuse the operands with an error code.  Such a rule says
nothing about the rest of the stack.
-/

namespace StackAssembly

/-- What takes the place of operands: results, the first of which becomes the
top, or the code of a refusal. -/
abbrev RuleResult := Except ErrorCode (List Value)

/-- A rule for one operand, or for two of which the top one comes first. -/
inductive StackRule where
  | unary (rule : Value → RuleResult)
  | binary (rule : Value → Value → RuleResult)

namespace StackRule

/-- A rule for two numbers. -/
def arithmetic (operation : UInt64 → UInt64 → Except ErrorCode UInt64) :
    StackRule :=
  .binary fun first second =>
    match first, second with
    | .number left, .number right =>
        (operation left right).map fun result => [.number result]
    | _, _ => .error .typeMismatch

/-- A rule for two numbers of which the second must not be zero. -/
def division (operation : UInt64 → UInt64 → UInt64) : StackRule :=
  arithmetic fun left right =>
    if right = 0 then .error .divByZero else .ok (operation left right)

/-- A rule for two truth values or, bit by bit, for two numbers. -/
def logic (onTruth : Bool → Bool → Bool)
    (onWords : UInt64 → UInt64 → UInt64) : StackRule :=
  .binary fun first second =>
    match first, second with
    | .boolean left, .boolean right => .ok [.boolean (onTruth left right)]
    | .number left, .number right => .ok [.number (onWords left right)]
    | _, _ => .error .typeMismatch

/-- The complement of a truth value or of the bits of a number. -/
def complement : Value → RuleResult
  | .boolean truth => .ok [.boolean !truth]
  | .number word => .ok [.number (~~~word)]
  | _ => .error .typeMismatch

/-- The elements of a tuple, the last one on top. -/
def spread : Value → RuleResult
  | .tuple items => .ok items.reverse
  | _ => .error .typeMismatch

/-- The number of elements of a container. -/
def count (container : Value) : RuleResult :=
  match container.size? with
  | some size => .ok [.number (UInt64.ofNat size)]
  | none => .error .typeMismatch

/-- The value of a key in a table, or the element of another container at a
position. -/
def element (key container : Value) : RuleResult :=
  match container with
  | .table entries =>
      match Entries.lookup? entries key with
      | some value => .ok [value]
      | none => .error .notFound
  | .tuple _ | .set _ | .string _ =>
      match key with
      | .number position =>
          match container.elementAt? position.toNat with
          | some value => .ok [value]
          | none => .error .outOfBounds
      | _ => .error .typeMismatch
  | _ => .error .typeMismatch

/-- A position as the result of a search. -/
def position (found : Option Nat) : RuleResult :=
  match found with
  | some index => .ok [.number (UInt64.ofNat index)]
  | none => .error .notFound

/-- The position of a value in a tuple or of a character in a string, the
value of a key in a table or `empty`, or whether a set has a member. -/
def search (needle container : Value) : RuleResult :=
  match container with
  | .tuple items => position (items.findIdx? fun item => item.equal needle)
  | .string text =>
      match needle with
      | .character code =>
          position (text.toList.findIdx? fun letter => Text.code letter == code)
      | _ => .error .typeMismatch
  | .table entries => .ok [(Entries.lookup? entries needle).getD .empty]
  | .set members => .ok [.boolean (Members.has members needle)]
  | _ => .error .typeMismatch

/-- A container grown by a value. -/
def grow (value container : Value) : RuleResult :=
  match container.append value with
  | .ok grown => .ok [grown]
  | .error rejection => .error rejection.code

/-- A value cast to the kind given on top of it. -/
def cast (target value : Value) : RuleResult :=
  match target with
  | .type kind =>
      match value.cast? kind with
      | some converted => .ok [converted]
      | none => .error .typeMismatch
  | _ => .error .typeMismatch

/-- A callable bound to the value below it. -/
def bind (callable value : Value) : RuleResult :=
  match callable.callable? with
  | some operation => .ok [.operation (.partialBind value operation)]
  | none => .error .typeMismatch

/-- The value that a string denotes in the textual grammar. -/
def parse (dialect : Dialect) : Value → RuleResult
  | .string text =>
      match Source.parseText dialect text with
      | .ok value => .ok [value]
      | .error _ => .error .syntaxError
  | _ => .error .typeMismatch

/-- The rule of a primitive that has one. -/
def ofPrimitive? (dialect : Dialect) : Primitive → Option StackRule
  | .pop => some (.unary fun _ => .ok [])
  | .dup => some (.unary fun value => .ok [value, value])
  | .swap => some (.binary fun top second => .ok [second, top])
  | .add => some (arithmetic fun left right => .ok (left + right))
  | .sub => some (arithmetic fun left right => .ok (left - right))
  | .mul => some (arithmetic fun left right => .ok (left * right))
  | .div => some (division (· / ·))
  | .mod => some (division (· % ·))
  | .and => some (logic (· && ·) (· &&& ·))
  | .or => some (logic (· || ·) (· ||| ·))
  | .xor => some (logic (· != ·) (· ^^^ ·))
  | .not => some (.unary complement)
  | .eq =>
      some (.binary fun left right => .ok [.boolean (left.equal right)])
  | .bind => some (.binary bind)
  | .typeOf => some (.unary fun value => .ok [.type value.kind])
  | .typeCast => some (.binary cast)
  | .unpack => some (.unary spread)
  | .element => some (.binary element)
  | .find => some (.binary search)
  | .append => some (.binary grow)
  | .size => some (.unary count)
  | .parse => some (.unary (parse dialect))
  | _ => none

end StackRule
end StackAssembly
