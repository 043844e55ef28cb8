import StackAssembly.Proofs.Source.ListedLexemes
import StackAssembly.Proofs.Source.Recognition
import StackAssembly.Proofs.Value.Insertion

/-!
# The grammar as a set of rules

Which sequences of lexemes denote a value or an operation, said by rules and
not by a parser.  A rule does not look ahead and prefers nothing: where a part
may be left out, the sequences with it and those without it are both derived.

The rules for a payload or an operation tell what it consists of, given what
its parts may be.  Derivations in which a bounded number of payloads and
operations are open at once are obtained by applying the rules that many
times.
-/

namespace StackAssembly
namespace Source

/-- Sequences of lexemes together with what they denote. -/
abbrev Language (α : Type) : Type := List Lexeme → α → Prop

/-- The two syntactic classes that contain one another. -/
structure Languages where
  /-- What denotes a value. -/
  payload : Language Value
  /-- What denotes an operation. -/
  operation : Language Operation

/-- Items with commas between them, and perhaps one behind the last item. -/
inductive CommaList {α : Type} (item : Language α) : Language (List α) where
  | empty : CommaList item [] []
  | last {lexemes : List Lexeme} {value : α} (derived : item lexemes value) :
      CommaList item lexemes [value]
  | more {lexemes later : List Lexeme} {value : α} {values : List α}
      (derived : item lexemes value)
      (others : CommaList item later values) :
      CommaList item (lexemes ++ .comma :: later) (value :: values)

/-- What stands between two marks. -/
def enclosed («open» close : Lexeme) (lexemes : List Lexeme) : List Lexeme :=
  «open» :: (lexemes ++ [close])

/-- One or more names with commas between them, and none behind the last. -/
inductive NameList : Language (List String) where
  | last (name : String) : NameList [.identifier name] [name]
  | more (name : String) {later : List Lexeme} {names : List String}
      (others : NameList later names) :
      NameList (.identifier name :: .comma :: later) (name :: names)

/-- The slots of a block, if it has any. -/
inductive SlotList : Language (List String) where
  | none : SlotList [] []
  | some {lexemes : List Lexeme} {names : List String}
      (derived : NameList lexemes names) :
      SlotList (.identifier "slots" :: lexemes) names

/-- What may stand behind an operation of a block. -/
inductive Separator : List Lexeme → Prop where
  | none : Separator []
  | comma : Separator [.comma]
  | semicolon : Separator [.semicolon]

/-- Operations, each one with or without a separator behind it. -/
inductive OperationList (operation : Language Operation) :
    Language (List Operation) where
  | empty : OperationList operation [] []
  | more {lexemes mark later : List Lexeme} {first : Operation}
      {others : List Operation} (derived : operation lexemes first)
      (separated : Separator mark)
      (rest : OperationList operation later others) :
      OperationList operation (lexemes ++ (mark ++ later)) (first :: others)

/-- The slots and the body of a block. -/
inductive BlockForm (parts : Languages) : Language Operation where
  | intro {front lexemes : List Lexeme} {slots : List String}
      {body : List Operation} (named : SlotList front slots)
      (derived : OperationList parts.operation lexemes body) :
      BlockForm parts (front ++ enclosed .openBrace .closeBrace lexemes)
        (.block slots body)

/-- A key and its value. -/
inductive EntryForm (parts : Languages) : Language (Value × Value) where
  | intro {lexemes later : List Lexeme} {key value : Value}
      (first : parts.payload lexemes key)
      (second : parts.payload later value) :
      EntryForm parts (lexemes ++ .arrow :: later) (key, value)

/-- The entries of a table, of which the first for a key counts. -/
inductive TableForm (parts : Languages) : Language Entries where
  | intro {lexemes : List Lexeme} {pairs entries : List (Value × Value)}
      (derived : CommaList (EntryForm parts) lexemes pairs)
      (keeps : KeepsFirst Entries.sameKey pairs entries) :
      TableForm parts (enclosed .openBracket .closeBracket lexemes) entries

/-- The forms of payloads. -/
inductive PayloadForm (parts : Languages) : Language Value where
  | empty : PayloadForm parts [valueWord .empty] .empty
  | number (word : UInt64) :
      PayloadForm parts [valueWord .number, .integer word] (.number word)
  | yes :
      PayloadForm parts [valueWord .boolean, .identifier "true"]
        (.boolean true)
  | no :
      PayloadForm parts [valueWord .boolean, .identifier "false"]
        (.boolean false)
  | character (code : UInt32) :
      PayloadForm parts [valueWord .character, .character code]
        (.character code)
  | characterCode (word : UInt64) (small : word.toNat < 2 ^ 32) :
      PayloadForm parts [valueWord .character, .integer word]
        (.character word.toUInt32)
  | string (text : String) :
      PayloadForm parts [valueWord .string, .string text] (.string text)
  | atom (name : String) :
      PayloadForm parts [valueWord .atom, .identifier name] (.atom name)
  | error {word : String} {code : ErrorCode}
      (agrees : ErrorCode.agreesIgnoringCase code.token word = true) :
      PayloadForm parts [valueWord .error, .identifier word] (.error code)
  | type (kind : ValueKind) :
      PayloadForm parts [valueWord .type, valueWord kind] (.type kind)
  | tuple {lexemes : List Lexeme} {items : List Value}
      (derived : CommaList parts.payload lexemes items) :
      PayloadForm parts
        (valueWord .tuple :: enclosed .openParen .closeParen lexemes)
        (.tuple items)
  | table {lexemes : List Lexeme} {entries : Entries}
      (derived : TableForm parts lexemes entries) :
      PayloadForm parts (valueWord .table :: lexemes) (.table entries)
  | set {lexemes : List Lexeme} {values members : List Value}
      (derived : CommaList parts.payload lexemes values)
      (keeps : KeepsFirst Value.equal values members) :
      PayloadForm parts
        (valueWord .set :: enclosed .openBracket .closeBracket lexemes)
        (.set members)
  | operation {lexemes : List Lexeme} {body : Operation}
      (derived : parts.operation lexemes body) :
      PayloadForm parts (valueWord .operation :: lexemes) (.operation body)
  | block {lexemes : List Lexeme} {body : Operation}
      (derived : BlockForm parts lexemes body) :
      PayloadForm parts (valueWord .block :: lexemes) (.operation body)
  | bind {lexemes later : List Lexeme} {value : Value} {callable : Operation}
      (first : parts.payload lexemes value)
      (second : parts.payload later (.operation callable)) :
      PayloadForm parts (valueWord .bind :: (lexemes ++ later))
        (.operation (.partialBind value callable))

/-- The forms of operations. -/
inductive OperationForm (parts : Languages) : Language Operation where
  | primitive (which : Primitive) :
      OperationForm parts [operationWord (.primitive which)]
        (.primitive which)
  | push {lexemes : List Lexeme} {value : Value}
      (derived : parts.payload lexemes value) :
      OperationForm parts (operationWord .push :: lexemes) (.push value)
  | ifTrue {lexemes : List Lexeme} {body : Operation}
      (derived : parts.operation lexemes body) :
      OperationForm parts (operationWord .ifTrue :: lexemes) (.ifTrue body)
  | select {lexemes : List Lexeme} {cases : Entries}
      (derived : TableForm parts lexemes cases) :
      OperationForm parts (operationWord .select :: lexemes)
        (.select cases none)
  | selectElse {lexemes later : List Lexeme} {cases : Entries}
      {otherwise : Operation} (derived : TableForm parts lexemes cases)
      (last : parts.operation later otherwise) :
      OperationForm parts
        (operationWord .select :: (lexemes ++ .identifier "else" :: later))
        (.select cases (some otherwise))
  | named (use : NameUse) (name : String) :
      OperationForm parts [operationWord (.named use), .identifier name]
        (.named use name)
  | call (target : String) :
      OperationForm parts [operationWord .call, .identifier target]
        (.call target [])
  | callWith (target : String) {lexemes : List Lexeme}
      {arguments : List Value}
      (derived : CommaList parts.payload lexemes arguments) :
      OperationForm parts
        (operationWord .call :: .identifier target ::
          enclosed .openParen .closeParen lexemes)
        (.call target arguments)
  | loadNative (path : String) :
      OperationForm parts [operationWord .loadNative, .string path]
        (.loadNative path)
  | native (bucket name : String) :
      OperationForm parts
        [operationWord .native, .identifier bucket, .identifier name]
        (.native bucket name)
  | block {lexemes : List Lexeme} {body : Operation}
      (derived : BlockForm parts lexemes body) :
      OperationForm parts (operationWord .block :: lexemes) body
  | partialBind {lexemes later : List Lexeme} {value : Value}
      {callable : Operation} (first : parts.payload lexemes value)
      (second : parts.operation later callable) :
      OperationForm parts (operationWord .partialBind :: (lexemes ++ later))
        (.partialBind value callable)

/-- What is derived with at most so many payloads and operations open at
once. -/
def derivable : (levels : Nat) → Languages
  | 0 => ⟨fun _ _ => False, fun _ _ => False⟩
  | levels + 1 =>
      ⟨PayloadForm (derivable levels), OperationForm (derivable levels)⟩

/-- The lexemes of a text that the grammar sees: neither comments nor the end
of input. -/
def grammaticalLexemes (text : String) : List Lexeme :=
  ((tokens text).map Token.lexeme).filter Lexeme.isGrammatical

/-- Whether everything in a language begins with a word that is no `else`. -/
def Language.BeginsWorded {α : Type} (language : Language α) : Prop :=
  ∀ lexemes value, language lexemes value → Parser.Worded lexemes

end Source
end StackAssembly
