import DynImp.Builtin
import DynImp.Console
import DynImp.Count
import DynImp.Decimal
import DynImp.Decimal.Arithmetic
import DynImp.Decimal.Binary
import DynImp.Decimal.Logarithm
import DynImp.Decimal.Text
import DynImp.Eval.Builtin
import DynImp.Eval.Exec
import DynImp.Eval.Fault
import DynImp.Eval.Operators
import DynImp.Eval.Trail
import DynImp.Eval.World
import DynImp.Expr
import DynImp.Form
import DynImp.Grammar.Expr
import DynImp.Grammar.Literal
import DynImp.Grammar.Program
import DynImp.Grammar.Reader
import DynImp.Heap
import DynImp.Main
import DynImp.Numeral
import DynImp.Program
import DynImp.Proofs.Eval.Coherence
import DynImp.Proofs.Eval.Faults
import DynImp.Proofs.Eval.Still
import DynImp.Proofs.Eval.Tags
import DynImp.Proofs.Grammar.Display
import DynImp.Proofs.Grammar.Leads
import DynImp.Proofs.Heap.Acyclic
import DynImp.Proofs.Heap.Equality
import DynImp.Proofs.Run.Acyclic
import DynImp.Proofs.Run.Contract
import DynImp.Proofs.Run.Invariant
import DynImp.Proofs.Run.Linking
import DynImp.Proofs.Run.Model
import DynImp.Proofs.Run.Names
import DynImp.Proofs.Run.Preservation
import DynImp.Proofs.Run.Returns
import DynImp.Proofs.Run.Safety
import DynImp.Proofs.Run.StoreTyping
import DynImp.Proofs.Scope
import DynImp.Proofs.Text.Quoted
import DynImp.Proofs.Token.Finality
import DynImp.Proofs.Token.Lookahead
import DynImp.Proofs.Token.Spelling
import DynImp.Proofs.Typing.Checked
import DynImp.Proofs.Typing.Parts
import DynImp.Proofs.Typing.Program
import DynImp.Proofs.Typing.Rules
import DynImp.Registers
import DynImp.Scalar
import DynImp.Scope
import DynImp.Scope.Script
import DynImp.Session
import DynImp.Source
import DynImp.Text.Alphabetic
import DynImp.Text.Blank
import DynImp.Text.Escape
import DynImp.Text.Numeric
import DynImp.Text.Quoted
import DynImp.Text.RangeTable
import DynImp.Text.Unprintable
import DynImp.Text.Width
import DynImp.Token
import DynImp.Token.Scan
import DynImp.Ty
import DynImp.Typing.Expr
import DynImp.Typing.Fault
import DynImp.Typing.Program
import DynImp.Value
import DynImp.Proofs.Grammar.Phrase
import DynImp.Proofs.Grammar.Takes
import DynImp.Proofs.Token.Tiling
import DynImp.Proofs.Grammar.Reads
import DynImp.Proofs.Grammar.Unplaced
import DynImp.Proofs.Grammar.Expressions
import DynImp.Proofs.Grammar.Statements
import DynImp.Proofs.Grammar.Programs
import DynImp.Proofs.Grammar.Prefix
import DynImp.Proofs.Grammar.Trees
import DynImp.Proofs.Grammar.Words
import DynImp.Proofs.Grammar.Writing
import DynImp.Proofs.Grammar.Faithful
import DynImp.Proofs.Grammar.Grammatical
import DynImp.Proofs.Grammar.Rereading
import DynImp.Proofs.Grammar.Texts
import DynImp.Proofs.Grammar.RoundTrip
import DynImp.Proofs.Typing.Bare
import DynImp.Proofs.Typing.Inversion
import DynImp.Proofs.Typing.Annotated
import DynImp.Proofs.Typing.Annotation
import DynImp.Proofs.Typing.Slots
import DynImp.Proofs.Run.Agreement
import DynImp.Proofs.Run.Lockstep
import DynImp.Proofs.Run.Scoping
import DynImp.Proofs.Layout
import DynImp.Proofs.Run.Frames
import DynImp.Proofs.Run.Compositional
import DynImp.Proofs.Run.Persistence
import DynImp.Proofs.Run.Output
import DynImp.Proofs.Scope.Desk
import DynImp.Proofs.Diagnostics
import DynImp.Proofs.Console
import DynImp.Proofs.Grammar.Values
import DynImp.Proofs.Heap.Containment
import DynImp.Proofs.Heap.Reachability
import DynImp.Proofs.Run.Sound
import DynImp.Proofs.Eval.Done
import DynImp.Proofs.Run.Assignment
import DynImp.Proofs.Run.Alike
import DynImp.Proofs.Run.DeadCode
import DynImp.Proofs.Decimal.Number
import DynImp.Proofs.Decimal.Rounding
import DynImp.Proofs.Decimal.Division
import DynImp.Proofs.Decimal.Text
import DynImp.Proofs.Eval.Power
import DynImp.Proofs.Bases
import DynImp.Proofs.Grammar.Relocated
import DynImp.Proofs.Token.Margins
import DynImp.Proofs.Trimming
import DynImp.Proofs.Run.Entry
