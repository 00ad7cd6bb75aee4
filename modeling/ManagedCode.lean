import ManagedCode.Builder.Sequence
import ManagedCode.Main
import ManagedCode.Proofs.Verify.Frame
import ManagedCode.Proofs.StackType.Consistency
import ManagedCode.Proofs.Verify.Alike
import ManagedCode.Proofs.Verify.Interchange
import ManagedCode.Proofs.Verify.Agreement
import ManagedCode.Proofs.Builder.Emit
import ManagedCode.Proofs.Builder.Operations
import ManagedCode.Proofs.Builder.Run
import ManagedCode.Proofs.Builder.MarkedLabel
import ManagedCode.Proofs.Graph.Built
import ManagedCode.Proofs.Graph.Subtyping
import ManagedCode.Proofs.Graph.Search
import ManagedCode.Proofs.Graph.Interned
import ManagedCode.Proofs.StackType.Fits
import ManagedCode.Proofs.StackType.Join
import ManagedCode.Proofs.StackType.Widening
import ManagedCode.Proofs.Verify.Known
import ManagedCode.Proofs.Builder.Known
import ManagedCode.Proofs.Builder.Widening
import ManagedCode.Proofs.Verify.Memory
import ManagedCode.Proofs.Builder.Finished
import ManagedCode.Proofs.Builder.Exits
import ManagedCode.Proofs.StackType.Merging
import ManagedCode.Proofs.Builder.Merging
import ManagedCode.Proofs.Builder.Evolution
import ManagedCode.Proofs.Builder.Atomicity
import ManagedCode.Proofs.StackType.Symmetry
import ManagedCode.Proofs.StackType.Operators
import ManagedCode.Proofs.StackType.Least
import ManagedCode.Proofs.Builder.Generalize
import ManagedCode.Proofs.Verify.Null
import ManagedCode.Proofs.Builder.Depth
import ManagedCode.Proofs.Builder.Lineage
import ManagedCode.Proofs.Builder.Lenient
import ManagedCode.Proofs.Builder.Clearing
import ManagedCode.Proofs.Graph.Grown
import ManagedCode.Proofs.Verify.Assignability
import ManagedCode.Proofs.Builder.Differ
import ManagedCode.Proofs.Source.Spelling
import ManagedCode.Proofs.Source.Steady
import ManagedCode.Proofs.Source.Independence
import ManagedCode.Proofs.Source.Numbering
import ManagedCode.Proofs.Source.Literal
import ManagedCode.Proofs.Source.Constrained
import ManagedCode.Proofs.Builder.Locals
import ManagedCode.Proofs.Graph.Members
import ManagedCode.Proofs.Builder.Calls
import ManagedCode.Proofs.Source.Numbered
