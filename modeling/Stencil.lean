import Stencil.Formatter.Builtin
import Stencil.Program.Listing
import Stencil.Settings.Discovery
import Stencil.Template
import Stencil.Proofs.Condition.Complements
import Stencil.Proofs.Condition.Integers
import Stencil.Proofs.Formatter.Integers
import Stencil.Proofs.Formatter.Roundtrip
import Stencil.Proofs.Formatter.Suggestions
import Stencil.Proofs.Layout.Conservation
import Stencil.Proofs.Layout.Echoes
import Stencil.Proofs.Layout.Nesting
import Stencil.Proofs.Layout.Ranges
import Stencil.Proofs.Layout.Seats
import Stencil.Proofs.Layout.Shallow
import Stencil.Proofs.Layout.Tails
import Stencil.Proofs.Layout.Terminated
import Stencil.Proofs.Marker.Roundtrip
import Stencil.Proofs.Outline.Conjunction
import Stencil.Proofs.Outline.Endless
import Stencil.Proofs.Outline.Identity
import Stencil.Proofs.Outline.Lookups
import Stencil.Proofs.Outline.Rearranged
import Stencil.Proofs.Outline.Undivided
import Stencil.Proofs.Outline.WellFormed
import Stencil.Proofs.Program.Arrangement
import Stencil.Proofs.Program.Bases
import Stencil.Proofs.Program.Composition
import Stencil.Proofs.Program.Consistency
import Stencil.Proofs.Program.Encoding
import Stencil.Proofs.Program.Failure
import Stencil.Proofs.Program.Reordered
import Stencil.Proofs.Program.Safety
import Stencil.Proofs.Program.Sequenced
import Stencil.Proofs.Program.Shape
import Stencil.Proofs.Program.Skipped
import Stencil.Proofs.Program.Substitution
import Stencil.Proofs.Program.WithoutData
import Stencil.Proofs.Settings.Removal
import Stencil.Proofs.Formatter.Nesting
import Stencil.Proofs.Settings.Ignored
