import PageOutline.Text.Printable
import PageOutline.Value.Literal
import PageOutline.Cursor
import PageOutline.Tree
import PageOutline.Database
import PageOutline.Page.Outliner
import PageOutline.Page.Render
import PageOutline.Text.Point
import PageOutline.Value.Knot
import PageOutline.Yaml.Content
import PageOutline.Session
import PageOutline.Proofs.Forest.Ledger
import PageOutline.Proofs.Forest.RoundTrip
import PageOutline.Proofs.Forest.WellFormed
import PageOutline.Proofs.Sweep.Books
import PageOutline.Proofs.Sweep.Page
import PageOutline.Proofs.Issues
import PageOutline.Proofs.Joining.Beside
import PageOutline.Proofs.Joining.Concat
import PageOutline.Proofs.Repair
import PageOutline.Proofs.Schema
import PageOutline.Proofs.Descriptors
import PageOutline.Proofs.Traversal
import PageOutline.Proofs.Merging
import PageOutline.Proofs.Placing.Anywhere
import PageOutline.Proofs.Codes
import PageOutline.Proofs.Padding.Nodes
import PageOutline.Proofs.Padding.Insertion
import PageOutline.Proofs.Lockstep
import PageOutline.Proofs.Grammar
import PageOutline.Proofs.Pages
import PageOutline.Proofs.Links
import PageOutline.Proofs.Matching
import PageOutline.Proofs.Nesting
import PageOutline.Proofs.Failures
import PageOutline.Proofs.Placing.Blocks
import PageOutline.Proofs.Loading
import PageOutline.Proofs.Overrides
import PageOutline.Proofs.Faults
import PageOutline.Proofs.Strangers
import PageOutline.Proofs.Views
import PageOutline.Proofs.Literals
import PageOutline.Proofs.Sweep.Rooted
import PageOutline.Proofs.Rendering
import PageOutline.Proofs.Paths
import PageOutline.Proofs.SettingsFiles
import PageOutline.Proofs.Keys
import PageOutline.Proofs.Mappings
import PageOutline.Proofs.Duplicates
import PageOutline.Proofs.Feeding
