import PushMachine.Json.Basic
import PushMachine.Decimal.Shortest
import PushMachine.Decimal.Layout
import PushMachine.Decimal.Reader
import PushMachine.Json.Printer
import PushMachine.Json.Token
import PushMachine.Json.Reader
import PushMachine.Text.Ranges
import PushMachine.Text.Letter
import PushMachine.Text.Combining
import PushMachine.Text.Hidden
import PushMachine.Text.Blank
import PushMachine.Text.Quoted
import PushMachine.Text.Search
import PushMachine.StackId
import PushMachine.Term
import PushMachine.Code
import PushMachine.Display
import PushMachine.Number
import PushMachine.Coercion
import PushMachine.Registry
import PushMachine.State
import PushMachine.Script
import PushMachine.Item
import PushMachine.Limits
import PushMachine.Instruction
import PushMachine.Instruction.Shuffle
import PushMachine.Instruction.Arithmetic
import PushMachine.Instruction.Logic
import PushMachine.Instruction.Printing
import PushMachine.Instruction.Strings
import PushMachine.Instruction.Vectors
import PushMachine.Instruction.CodeEditing
import PushMachine.Instruction.Control
import PushMachine.InstructionSet
import PushMachine.Limits.Text
import PushMachine.StopReason
import PushMachine.Event
import PushMachine.Machine
import PushMachine.Genome
import PushMachine.Storage
import PushMachine.Random
import PushMachine.Simplifier
import PushMachine.Profiler
import PushMachine.Samples
import PushMachine.Proofs.Closure
import PushMachine.Proofs.CodeScripts
import PushMachine.Proofs.CollectionScripts
import PushMachine.Proofs.CoreInstructions
import PushMachine.Proofs.DataScripts
import PushMachine.Proofs.Discipline
import PushMachine.Proofs.GenomeRoundTrip
import PushMachine.Proofs.Occurrence
import PushMachine.Proofs.Operations
import PushMachine.Proofs.RegistryHistory
import PushMachine.Proofs.Rollback
import PushMachine.Proofs.StackTyping
import PushMachine.Proofs.Steps
import PushMachine.Proofs.CodeRoundTrip
import PushMachine.Proofs.RunLimits
import PushMachine.Proofs.CodeSize
import PushMachine.Proofs.CollectionSize
import PushMachine.Proofs.StoredCode
import PushMachine.Proofs.StorageRoundTrip
import PushMachine.Proofs.ScriptRules
import PushMachine.Proofs.Footprint
import PushMachine.Proofs.Grouping
import PushMachine.Proofs.References
import PushMachine.Proofs.DeclaredStacks
import PushMachine.Proofs.StackGrowth
import PushMachine.Proofs.FrameRule
import PushMachine.Proofs.InstructionNames
import PushMachine.Proofs.Dispatches
import PushMachine.Proofs.Tracing
import PushMachine.Proofs.Reuse
import PushMachine.Proofs.PrintedText
import PushMachine.Proofs.NormalForm
import PushMachine.Proofs.Classification
import PushMachine.Proofs.Sampling
import PushMachine.Proofs.Simplification
import PushMachine.Proofs.GroupedCode
import PushMachine.Proofs.PendingWork
import PushMachine.Proofs.CountedLoops
import PushMachine.Proofs.VectorLoops
import PushMachine.Proofs.CodeMap
import PushMachine.Proofs.WhileLoops
import PushMachine.Proofs.PreOrder
import PushMachine.Proofs.Insertion
import PushMachine.Proofs.Inference
import PushMachine.Proofs.Arguments
import PushMachine.Proofs.IntegerArithmetic
import PushMachine.Proofs.Rearrangement
import PushMachine.Proofs.TextMatches
import PushMachine.Proofs.TextReplacement
import PushMachine.Proofs.TextSplitting
import PushMachine.Proofs.VectorSearch
import PushMachine.Proofs.Computations
import PushMachine.Proofs.SummingPrograms
import PushMachine.Proofs.LineBreaks
import PushMachine.Proofs.Profiling
import PushMachine.Proofs.OpenGroups
import PushMachine.Proofs.DepthAddressing
