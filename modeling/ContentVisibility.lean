import ContentVisibility.Main
import ContentVisibility.Proofs.Json.Scalars
import ContentVisibility.Settings.Record
import ContentVisibility.Proofs.Json.Brackets
import ContentVisibility.Proofs.Json.Written
import ContentVisibility.Proofs.Widget.Thinned
import ContentVisibility.Proofs.Widget.Position
import ContentVisibility.Proofs.Service.Answers
import ContentVisibility.Proofs.Service.Page
import ContentVisibility.Proofs.Service.Audience
import ContentVisibility.Proofs.Json.HeldBack
import ContentVisibility.Proofs.Json.Kinds
import ContentVisibility.Proofs.Rule.Embedding
import ContentVisibility.Proofs.Service.Embedding
import ContentVisibility.Proofs.Identifier.Written
import ContentVisibility.Proofs.Json.Fields
import ContentVisibility.Proofs.Rule.Written
import ContentVisibility.Proofs.Json.Local
import ContentVisibility.Proofs.Json.LocalDocument
import ContentVisibility.Proofs.Rule.Trimmed
import ContentVisibility.Proofs.Rule.Flaws
import ContentVisibility.Proofs.Service.Flaws
import ContentVisibility.Proofs.Service.Request
import ContentVisibility.Proofs.Service.Cancellation
import ContentVisibility.Proofs.Widget.Passes
import ContentVisibility.Proofs.Rule.Cut
import ContentVisibility.Proofs.Widget.Alike
import ContentVisibility.Proofs.Service.Policy
import ContentVisibility.Proofs.User.Groups
import ContentVisibility.Proofs.Rule.Sight
import ContentVisibility.Proofs.Service.Warnings
import ContentVisibility.Proofs.Service.Collection
import ContentVisibility.Proofs.Service.Lookups
import ContentVisibility.Proofs.Service.Collaborators
import ContentVisibility.Proofs.Rule.Literal
import ContentVisibility.Proofs.Widget.Visits
import ContentVisibility.Proofs.Service.Decided
import ContentVisibility.Proofs.Settings.Check
import ContentVisibility.Proofs.Command.Steps
import ContentVisibility.Proofs.Service.Intact
import ContentVisibility.Proofs.User.Directory
import ContentVisibility.Proofs.Command.Listing
import ContentVisibility.Proofs.Command.Policy
import ContentVisibility.Proofs.Widget.Successive
import ContentVisibility.Proofs.Service.Successive
import ContentVisibility.Proofs.Rule.Satisfiable
import ContentVisibility.Proofs.Identifier.Spelled
import ContentVisibility.Proofs.Rule.Tests
import ContentVisibility.Proofs.Rule.Order
import ContentVisibility.Proofs.Rule.Operators
import ContentVisibility.Proofs.Rule.Listed
import ContentVisibility.Proofs.Service.Listed
import ContentVisibility.Proofs.Rule.Texts
import ContentVisibility.Proofs.Identifier.Order
import ContentVisibility.Proofs.Rule.Canonical
import ContentVisibility.Proofs.Json.Edited
import ContentVisibility.Proofs.Rule.Newer
import ContentVisibility.Proofs.Settings.Merged
import ContentVisibility.Proofs.Settings.Chosen
import ContentVisibility.Proofs.Settings.Variables
import ContentVisibility.Proofs.Settings.Precedence
import ContentVisibility.Proofs.Json.Passing
import ContentVisibility.Proofs.Json.Grammar
import ContentVisibility.Proofs.Json.Steady
import ContentVisibility.Proofs.Json.AsHeld
import ContentVisibility.Proofs.User.Loaded
import ContentVisibility.Proofs.Identifier.Forms
