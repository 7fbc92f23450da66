import PlainC.Composition
import PlainC.Main
import PlainC.Proofs.Answering.Session
import PlainC.Proofs.Blaming.Pointing
import PlainC.Proofs.Comparison.Entries
import PlainC.Proofs.Comparison.Sieving
import PlainC.Proofs.Comparison.Wrapping
import PlainC.Proofs.Conservation.Names
import PlainC.Proofs.Expression.Grouping
import PlainC.Proofs.Naming.Registry
import PlainC.Proofs.Naming.Session
import PlainC.Proofs.Parsing.Declarator
import PlainC.Proofs.Reprinting.Text
import PlainC.Proofs.Scanning.Joining
import PlainC.Proofs.Scanning.Quoting
import PlainC.Proofs.Scanning.Spacing
import PlainC.Proofs.Soundness.Program
import PlainC.Session
import PlainC.Tree.Walk
import PlainC.Proofs.Scanning.Literal
import PlainC.Proofs.Composing.Checking
import PlainC.Proofs.Composing.Making
import PlainC.Proofs.Composing.Validity
import PlainC.Proofs.Scanning.Refusing
import PlainC.Proofs.Composing.Layering
import PlainC.Proofs.Specifying.Words
import PlainC.Proofs.Specifying.Order
import PlainC.Proofs.Branching.Nearest
import PlainC.Proofs.Declaring.Sharing
import PlainC.Proofs.Reprinting.Description
