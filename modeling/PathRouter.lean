import PathRouter.Text.Basic
import PathRouter.Text.Blank
import PathRouter.Text.Printable
import PathRouter.Text.Quoted
import PathRouter.Template.Basic
import PathRouter.Template.Fault
import PathRouter.Template.Reader
import PathRouter.Regex.Basic
import PathRouter.Regex.Match
import PathRouter.Pattern.Basic
import PathRouter.Assoc
import PathRouter.Number.Integer
import PathRouter.Routing.Params
import PathRouter.Routing.Trie
import PathRouter.Routing.Resolver
import PathRouter.Routing.Context
import PathRouter.Number.Single
import PathRouter.Http.Status
import PathRouter.Http.Headers
import PathRouter.Http.Request
import PathRouter.Http.Writer
import PathRouter.Failure.Frame
import PathRouter.Failure.Basic
import PathRouter.Failure.Negotiation
import PathRouter.Failure.Json
import PathRouter.Failure.Description
import PathRouter.Handler.Basic
import PathRouter.Handler.Methods
import PathRouter.Router.Basic
import PathRouter.Router.Refusal
import PathRouter.Router.Builder
import PathRouter.Toml.Basic
import PathRouter.Toml.Lexeme
import PathRouter.Toml.Number
import PathRouter.Toml.Document
import PathRouter.Config.SocketAddress
import PathRouter.Config.Basic
import PathRouter.Config.File
import PathRouter.Router.Server
import PathRouter.Demo
import PathRouter.Main
import PathRouter.Proofs.Text
import PathRouter.Proofs.Trie
import PathRouter.Proofs.Template
import PathRouter.Proofs.Reading
import PathRouter.Proofs.Compile
import PathRouter.Proofs.Ways
import PathRouter.Proofs.Scan
import PathRouter.Proofs.Precedence
import PathRouter.Proofs.Language
import PathRouter.Proofs.Source
import PathRouter.Proofs.Assoc
import PathRouter.Proofs.Params
import PathRouter.Proofs.Leaf
import PathRouter.Proofs.Single
import PathRouter.Proofs.Seam
import PathRouter.Proofs.Reach
import PathRouter.Proofs.Joining
import PathRouter.Proofs.Nesting
import PathRouter.Proofs.Stepping
import PathRouter.Proofs.Agreement
import PathRouter.Proofs.Division
import PathRouter.Proofs.Methods
import PathRouter.Proofs.Registration
import PathRouter.Proofs.Consistency
import PathRouter.Proofs.Convergence
import PathRouter.Proofs.Outcomes
import PathRouter.Proofs.Headers
import PathRouter.Proofs.Head
import PathRouter.Proofs.Calls
import PathRouter.Proofs.History
import PathRouter.Proofs.Listing
import PathRouter.Proofs.Walk
import PathRouter.Proofs.Passage
import PathRouter.Proofs.Trace
import PathRouter.Proofs.Fallback
import PathRouter.Proofs.Redirection
import PathRouter.Proofs.Rendering
import PathRouter.Proofs.OwnHeader
import PathRouter.Proofs.Allow
import PathRouter.Proofs.InPlace
import PathRouter.Proofs.Mount
import PathRouter.Proofs.Thrown
import PathRouter.Proofs.Exchange
import PathRouter.Proofs.PlainMap
import PathRouter.Proofs.Faults
import PathRouter.Proofs.Identity
import PathRouter.Proofs.ValueHistory
import PathRouter.Proofs.Preference
import PathRouter.Proofs.Segments
import PathRouter.Proofs.Visits
import PathRouter.Proofs.Omission
import PathRouter.Proofs.Stack
