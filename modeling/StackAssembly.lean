import StackAssembly.Assembly
import StackAssembly.CommandLine
import StackAssembly.Console
import StackAssembly.Dialect
import StackAssembly.Disassembly
import StackAssembly.ErrorCode
import StackAssembly.HostError
import StackAssembly.Image.ByteReader
import StackAssembly.Image.Decode
import StackAssembly.Image.DecodeError
import StackAssembly.Image.Encode
import StackAssembly.Image.Field
import StackAssembly.Image.Header
import StackAssembly.Machine.Attempt
import StackAssembly.Machine.Bindings
import StackAssembly.Machine.Combinator
import StackAssembly.Machine.Execute
import StackAssembly.Machine.Frames
import StackAssembly.Machine.Loading
import StackAssembly.Machine.Outcome
import StackAssembly.Machine.StackRule
import StackAssembly.Machine.State
import StackAssembly.Main
import StackAssembly.Nesting
import StackAssembly.OperationKind
import StackAssembly.Proofs.Assembly
import StackAssembly.Proofs.Computation
import StackAssembly.Proofs.Disassembly
import StackAssembly.Proofs.Gathering
import StackAssembly.Proofs.Image.Composition
import StackAssembly.Proofs.Image.Containment
import StackAssembly.Proofs.Image.Delivery
import StackAssembly.Proofs.Image.Field
import StackAssembly.Proofs.Image.FieldSequences
import StackAssembly.Proofs.Image.NestingLevels
import StackAssembly.Proofs.Image.NormalForm
import StackAssembly.Proofs.Image.Reading
import StackAssembly.Proofs.Image.RoundTrip
import StackAssembly.Proofs.Image.SelfDelimiting
import StackAssembly.Proofs.Image.Spelling
import StackAssembly.Proofs.Machine.Bindings
import StackAssembly.Proofs.Machine.ContainerAccess
import StackAssembly.Proofs.Machine.CutImage
import StackAssembly.Proofs.Machine.ElementwiseFilter
import StackAssembly.Proofs.Machine.ElementwiseMap
import StackAssembly.Proofs.Machine.FailedCombinator
import StackAssembly.Proofs.Machine.Finality
import StackAssembly.Proofs.Machine.FrameKeeping
import StackAssembly.Proofs.Machine.Fuel
import StackAssembly.Proofs.Machine.Globals
import StackAssembly.Proofs.Machine.History
import StackAssembly.Proofs.Machine.ImageLoading
import StackAssembly.Proofs.Machine.Invocation
import StackAssembly.Proofs.Machine.LeftFold
import StackAssembly.Proofs.Machine.Loading
import StackAssembly.Proofs.Machine.NameKeeping
import StackAssembly.Proofs.Machine.Names
import StackAssembly.Proofs.Machine.NativeActivation
import StackAssembly.Proofs.Machine.Notifications
import StackAssembly.Proofs.Machine.OperandRestoration
import StackAssembly.Proofs.Machine.Placement
import StackAssembly.Proofs.Machine.Plan
import StackAssembly.Proofs.Machine.Relocation
import StackAssembly.Proofs.Machine.RunInduction
import StackAssembly.Proofs.Machine.SlotScope
import StackAssembly.Proofs.Machine.StackLocality
import StackAssembly.Proofs.Machine.Steps
import StackAssembly.Proofs.Source.Acceptance
import StackAssembly.Proofs.Source.Agreement
import StackAssembly.Proofs.Source.CharacterReading
import StackAssembly.Proofs.Source.Completeness
import StackAssembly.Proofs.Source.Coverage
import StackAssembly.Proofs.Source.Cutting
import StackAssembly.Proofs.Source.Derivation
import StackAssembly.Proofs.Source.ErrorPositions
import StackAssembly.Proofs.Source.FailurePlaces
import StackAssembly.Proofs.Source.FailureReports
import StackAssembly.Proofs.Source.GrammarExactness
import StackAssembly.Proofs.Source.IdentifierTokens
import StackAssembly.Proofs.Source.ListedLexemes
import StackAssembly.Proofs.Source.Literals
import StackAssembly.Proofs.Source.Recognition
import StackAssembly.Proofs.Source.Recording
import StackAssembly.Proofs.Source.Recovery
import StackAssembly.Proofs.Source.RoundTrip
import StackAssembly.Proofs.Source.Scanning
import StackAssembly.Proofs.Source.TextNames
import StackAssembly.Proofs.Source.TextNesting
import StackAssembly.Proofs.Text.CharacterClasses
import StackAssembly.Proofs.TextLoading
import StackAssembly.Proofs.Value.Casting
import StackAssembly.Proofs.Value.Equality
import StackAssembly.Proofs.Value.Extensionality
import StackAssembly.Proofs.Value.Indexing
import StackAssembly.Proofs.Value.Insertion
import StackAssembly.Proofs.Value.Matching
import StackAssembly.Proofs.Value.Names
import StackAssembly.Proofs.Value.PartInduction
import StackAssembly.Proofs.Value.Parts
import StackAssembly.Proofs.Value.Reordering
import StackAssembly.Proofs.Value.WellFormed
import StackAssembly.Run
import StackAssembly.Source.Grammar
import StackAssembly.Source.Lexeme
import StackAssembly.Source.Listing
import StackAssembly.Source.ParseError
import StackAssembly.Source.Parser
import StackAssembly.Source.Program
import StackAssembly.Source.Scan
import StackAssembly.Source.Token
import StackAssembly.Text.CharacterCode
import StackAssembly.Text.Identifier
import StackAssembly.Text.Numeral
import StackAssembly.Text.Quoted
import StackAssembly.Unicode.Alphabetic
import StackAssembly.Unicode.CodeRange
import StackAssembly.Unicode.DefaultIgnorable
import StackAssembly.Unicode.GraphemeExtend
import StackAssembly.Unicode.Printable
import StackAssembly.Unicode.WhiteSpace
import StackAssembly.Value.Basic
import StackAssembly.Value.Cast
import StackAssembly.Value.Container
import StackAssembly.Value.Digest
import StackAssembly.Value.Display
import StackAssembly.Value.Equality
import StackAssembly.Value.Indexed
import StackAssembly.Value.Keyed
import StackAssembly.ValueKind
