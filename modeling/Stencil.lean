import Stencil.Catalog.Basic
import Stencil.Catalog.Install
import Stencil.Catalog.Reader
import Stencil.Command.Options
import Stencil.Command.Run
import Stencil.Context
import Stencil.Decimal
import Stencil.Document
import Stencil.Event.Basic
import Stencil.Event.Hub
import Stencil.Json.Basic
import Stencil.Json.Path
import Stencil.Json.Printer
import Stencil.Json.Reader
import Stencil.Main
import Stencil.OrderedMap
import Stencil.Placeholder
import Stencil.Proofs.OrderedMap
import Stencil.Proofs.Plain
import Stencil.Proofs.Reference
import Stencil.Registry
import Stencil.Report
import Stencil.Section.Basic
import Stencil.Section.Expansion
import Stencil.Section.Name
import Stencil.Stage
import Stencil.Tag.Basic
import Stencil.Tag.Escape
import Stencil.Tag.Filling
import Stencil.Tag.Reader
import Stencil.Template.Basic
import Stencil.Template.Binding
import Stencil.Template.Redraw
import Stencil.Template.Rendering
import Stencil.Text.Blank
import Stencil.Text.CodeSet
import Stencil.Text.Extending
import Stencil.Text.Printable
import Stencil.Text.Quoted
import Stencil.Text.Width
import Stencil.Toml.Basic
import Stencil.Toml.Reader
import Stencil.Toml.Scalar
import Stencil.Toml.Text
import Stencil.Toml.Tree
import Stencil.Proofs.Walk
import Stencil.Proofs.Depth
import Stencil.Proofs.Record
import Stencil.Proofs.Pure
import Stencil.Proofs.Order
import Stencil.Proofs.Recovery
import Stencil.Proofs.Locality
import Stencil.Proofs.Piece
import Stencil.Proofs.Seam
import Stencil.Proofs.Slice
import Stencil.Proofs.Division
import Stencil.Proofs.Place
import Stencil.Proofs.Offset
import Stencil.Proofs.Filling
import Stencil.Proofs.Joining
import Stencil.Proofs.Escaping
import Stencil.Proofs.Outline
import Stencil.Proofs.Layering
import Stencil.Proofs.Call
import Stencil.Proofs.History
import Stencil.Proofs.Installation
import Stencil.Proofs.Fields
import Stencil.Proofs.Insertion
import Stencil.Proofs.Installed
import Stencil.Proofs.Chronicle
import Stencil.Proofs.Account
import Stencil.Proofs.Operation
import Stencil.Proofs.Snapshot
import Stencil.Proofs.Standing
import Stencil.Proofs.Handle
import Stencil.Proofs.Subscription
import Stencil.Proofs.Forwarding
import Stencil.Proofs.Compilation
import Stencil.Proofs.Redrawing
import Stencil.Proofs.Position
import Stencil.Proofs.Step
import Stencil.Proofs.Decision
import Stencil.Proofs.Reading
import Stencil.Proofs.Alphabet
import Stencil.Proofs.Concatenation
import Stencil.Proofs.LetterCase
import Stencil.Proofs.Location
import Stencil.Proofs.Naming
import Stencil.Proofs.Repetition
import Stencil.Proofs.News
import Stencil.Proofs.Overtaking
import Stencil.Proofs.Promptness
import Stencil.Proofs.Assignment
import Stencil.Proofs.Replica
import Stencil.Proofs.Bookkeeping
import Stencil.Proofs.Discipline
import Stencil.Proofs.Listing
