import Pinout.Main
import Pinout.Proofs.Catalog.Forest
import Pinout.Proofs.Constraint.Restoring
import Pinout.Proofs.Definition.Faults
import Pinout.Proofs.Definition.Printing
import Pinout.Proofs.Session.Failure
import Pinout.Proofs.Catalog.Cycles
import Pinout.Proofs.Definition.Joining
import Pinout.Proofs.Catalog.Loading
import Pinout.Proofs.Session.Wiring
import Pinout.Proofs.Session.Succeeding
import Pinout.Proofs.Session.Thinning
import Pinout.Proofs.Catalog.Plain
import Pinout.Proofs.Grid.Columns
import Pinout.Proofs.Constraint.Selection
import Pinout.Proofs.Constraint.Generated
import Pinout.Proofs.Definition.Bare
import Pinout.Proofs.Catalog.Registering
import Pinout.Proofs.Catalog.Growing
import Pinout.Proofs.Catalog.Embedding
import Pinout.Proofs.Catalog.Further
import Pinout.Proofs.Catalog.Order
import Pinout.Proofs.Session.Repeating
import Pinout.Proofs.Catalog.Naming
import Pinout.Proofs.Wing.Stacks
import Pinout.Proofs.Session.Stopping
import Pinout.Proofs.CommandLine.Output
import Pinout.Proofs.Export.Json
import Pinout.Proofs.Catalog.Counterparts
import Pinout.Proofs.Export.Summaries
import Pinout.Proofs.Export.Choosing
import Pinout.Proofs.Text.Lower
import Pinout.Proofs.Catalog.Headers
import Pinout.Proofs.BusRange
import Pinout.Proofs.BusRange.Display
import Pinout.Proofs.Moves
import Pinout.Proofs.Catalog.Moving
import Pinout.Proofs.Wing.Landing
import Pinout.Proofs.Wing.Showing
import Pinout.Proofs.Constraint.Composing
import Pinout.Proofs.Constraint.Grammar
import Pinout.Proofs.Constraint.Reading
import Pinout.Proofs.Constraint.Choosing
import Pinout.Proofs.Constraint.Layout
import Pinout.Proofs.Catalog.Lookups
import Pinout.Proofs.Definition.Cutting
import Pinout.Proofs.Definition.Layout
import Pinout.Proofs.Text.Spans
import Pinout.Proofs.Definition.Excerpts
import Pinout.Proofs.Directives
import Pinout.Proofs.Text.Bytes
import Pinout.Proofs.Definition.Slices
import Pinout.Proofs.Definition.Markers
import Pinout.Proofs.Definition.Tiling
import Pinout.Proofs.Definition.Display
import Pinout.Proofs.Wing.Destinations
import Pinout.Proofs.Wing.Slots
import Pinout.Proofs.Wing.Mentions
import Pinout.Proofs.Additions.Merging
