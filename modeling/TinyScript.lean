import TinyScript.Main
import TinyScript.Program.SExpr
import TinyScript.Proofs.Heap.Collection
import TinyScript.Proofs.Bytecode.Run
import TinyScript.Proofs.Program.Nodes
import TinyScript.Proofs.Bytecode.Layout
import TinyScript.Proofs.Bytecode.Places
import TinyScript.Proofs.Bytecode.Dispatch
import TinyScript.Proofs.Bytecode.StackHeight
import TinyScript.Proofs.Number.Equality
import TinyScript.Proofs.Parser.Grammar
import TinyScript.Proofs.Parser.Literals
import TinyScript.Proofs.Backend.Placed
import TinyScript.Proofs.Scope
import TinyScript.Proofs.Backend.State
import TinyScript.Proofs.Backend.Simulation
import TinyScript.Proofs.Backend.Agreement
import TinyScript.Proofs.Renaming.Value
import TinyScript.Proofs.Renaming.Heap
import TinyScript.Proofs.Renaming.Builtin
import TinyScript.Proofs.Renaming.Machine
import TinyScript.Proofs.Renaming.Session
import TinyScript.Proofs.Typing.Heap
import TinyScript.Proofs.Typing.Builtin
import TinyScript.Proofs.Typing.Machine
import TinyScript.Proofs.Typing.Session
import TinyScript.Proofs.Backend.Failure
import TinyScript.Proofs.Bytecode.Generation
import TinyScript.Proofs.Parser.Writing
import TinyScript.Proofs.Parser.Scanning
import TinyScript.Proofs.Parser.Reading
import TinyScript.Proofs.Parser.Expressions
import TinyScript.Proofs.Parser.RoundTrip
import TinyScript.Proofs.Backend.Divergence
import TinyScript.Proofs.Heap.History
import TinyScript.Proofs.Scope.Contents
import TinyScript.Proofs.Scope.Refinement
import TinyScript.Proofs.Evaluator.Effect
import TinyScript.Proofs.Evaluator.Isolation
import TinyScript.Proofs.Evaluator.LoopFree
import TinyScript.Proofs.Evaluator.Termination
import TinyScript.Proofs.Lexer.Branches
import TinyScript.Proofs.Lexer.Partition
import TinyScript.Proofs.Parser.Lookahead
import TinyScript.Proofs.Parser.Rejection
import TinyScript.Proofs.Heap.RootOrder
import TinyScript.Proofs.Session.ModuleCache
import TinyScript.Proofs.Session.Retention
import TinyScript.Proofs.Bytecode.Relocation
import TinyScript.Proofs.Bytecode.Splitting
import TinyScript.Proofs.Lexer.Progress
import TinyScript.Proofs.Shell.Dialogue
import TinyScript.Proofs.Parser.Templates
import TinyScript.Proofs.Bytecode.StepLimit
import TinyScript.Proofs.Lexer.OpenTemplates
import TinyScript.Proofs.Backend.Names
import TinyScript.Proofs.Bytecode.Forward
import TinyScript.Proofs.Evaluator.Frames
import TinyScript.Proofs.Evaluator.CallDepth
import TinyScript.Proofs.Heap.Unfolding
import TinyScript.Proofs.Evaluator.Mapping
import TinyScript.Proofs.Parser.Positions
import TinyScript.Proofs.Evaluator.Contracts
import TinyScript.Proofs.Parser.Brackets
import TinyScript.Proofs.Shell.Completeness
import TinyScript.Proofs.Lexer.Peeking
import TinyScript.Proofs.Lexer.Quoting
import TinyScript.Proofs.Bytecode.Pool
import TinyScript.Proofs.Builtin.Slices
