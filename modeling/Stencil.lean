import Stencil.Files
import Stencil.Main
import Stencil.Proofs.Code.Keys
import Stencil.Proofs.Grammar.Errors
import Stencil.Proofs.Machine.Heights
import Stencil.Proofs.Rendering.Concatenation
import Stencil.Proofs.Rendering.FreeNames
import Stencil.Proofs.Rendering.Loops
import Stencil.Proofs.Grammar.Depth
import Stencil.Proofs.Grammar.Limits
import Stencil.Proofs.Rendering.ErrorSpans
import Stencil.Proofs.Rendering.Literals
import Stencil.Proofs.Rendering.Stages
import Stencil.Proofs.Searching
import Stencil.Proofs.Session.Histories
import Stencil.Proofs.Session.Assignments
import Stencil.Proofs.Tiling.Merging
import Stencil.Proofs.Arithmetic
import Stencil.Proofs.Machine.ScopeHistories
import Stencil.Proofs.Template.Renaming
import Stencil.Proofs.Listing.Lines
import Stencil.Proofs.Listing.Trees
import Stencil.Proofs.Listing.Reading
import Stencil.Proofs.Session.Values
