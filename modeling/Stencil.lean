import Stencil.Environment.Description
import Stencil.Loader.Directory
import Stencil.Render
import Stencil.Template.Trace
import Stencil.Proofs.Render.Restoration
import Stencil.Proofs.Render.Inheritance
import Stencil.Proofs.Template.Escaping
import Stencil.Proofs.Template.WellFormed
import Stencil.Proofs.Template.RoundTrip
import Stencil.Proofs.Template.Observing
import Stencil.Proofs.Template.Contexts
import Stencil.Proofs.Expr.Climbing
import Stencil.Proofs.Token.Nesting
import Stencil.Proofs.Token.Coverage
import Stencil.Proofs.Render.Policy
import Stencil.Proofs.Render.Isolation
import Stencil.Proofs.Render.Attribution
import Stencil.Proofs.Render.Truncation
import Stencil.Proofs.Render.Nesting
import Stencil.Proofs.Expr.Precedence
import Stencil.Proofs.Template.Content
import Stencil.Proofs.Template.Layout
import Stencil.Proofs.Render.Candidates
import Stencil.Proofs.Render.Embedding
import Stencil.Proofs.Render.Paths
import Stencil.Proofs.Token.Reader
import Stencil.Token.Buffer
import Stencil.Proofs.Token.Buffer
import Stencil.Proofs.Render.Rounds
import Stencil.Proofs.Escape
import Stencil.Proofs.Expr.Interpolation
import Stencil.Proofs.Template.Credits
import Stencil.Proofs.Render.Search
import Stencil.Proofs.Render.Trail
import Stencil.Proofs.Render.Inert
import Stencil.Proofs.Render.Endless
import Stencil.Proofs.Token.Places
import Stencil.Proofs.Render.Required
import Stencil.Proofs.Render.Seclusion
import Stencil.Proofs.Render.Constancy
import Stencil.Proofs.Token.Longest
import Stencil.Proofs.Token.Comments
import Stencil.Proofs.Template.Unclosed
import Stencil.Proofs.Loader.Directory
import Stencil.Proofs.Value.Equality
import Stencil.Proofs.Render.Reescaping
import Stencil.Proofs.Render.Filtered
import Stencil.Proofs.Template.Enclosing
