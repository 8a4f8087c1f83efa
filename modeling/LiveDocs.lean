import LiveDocs.Main
import LiveDocs.Proofs.Bindings
import LiveDocs.Proofs.Json.FieldPath
import LiveDocs.Proofs.Json.Merge
import LiveDocs.Proofs.Request
import LiveDocs.Proofs.Reference
import LiveDocs.Proofs.Path
import LiveDocs.Proofs.Text.Words
import LiveDocs.Proofs.Store.Documents
import LiveDocs.Proofs.Store.Refusal
import LiveDocs.Proofs.Pass.Reading
import LiveDocs.Proofs.Store.Writes
import LiveDocs.Proofs.Store.Listeners
import LiveDocs.Proofs.Session.Run
import LiveDocs.Proofs.Session.AbortSignals
import LiveDocs.Proofs.Session.Listeners
import LiveDocs.Proofs.Session.Updates
import LiveDocs.Proofs.Session.Completion
import LiveDocs.Proofs.Store.Map
import LiveDocs.Proofs.Store.Notices
import LiveDocs.Proofs.Store.Seeds
import LiveDocs.Proofs.Store.Additions
import LiveDocs.Proofs.Store.History
import LiveDocs.Proofs.Store.InsertionOrder
import LiveDocs.Proofs.Store.Pending
import LiveDocs.Proofs.Store.PartialWrites
import LiveDocs.Proofs.Query.Paging
import LiveDocs.Proofs.Query.Evaluation
import LiveDocs.Proofs.Query.Filters
import LiveDocs.Proofs.Query.EqualValues
import LiveDocs.Proofs.Query.Cursors
import LiveDocs.Proofs.Query.Building
import LiveDocs.Proofs.Template.Placeholder
import LiveDocs.Proofs.Template.FirstLevel
import LiveDocs.Proofs.Session.Results
import LiveDocs.Proofs.Pass.Trouble
import LiveDocs.Proofs.Stream.Effort
import LiveDocs.Proofs.Session.Queue
import LiveDocs.Proofs.Session.Rest
import LiveDocs.Proofs.Mutation
import LiveDocs.Proofs.Mutation.Routing
import LiveDocs.Proofs.Pass.Planning
import LiveDocs.Proofs.Pass.RootFields
import LiveDocs.Proofs.Pass.Selection
import LiveDocs.Proofs.Pass.Exports
import LiveDocs.Proofs.Pass.Shape
import LiveDocs.Proofs.Pass.Typenames
import LiveDocs.Proofs.Pass.Alike
import LiveDocs.Proofs.Pass.Aliases
import LiveDocs.Proofs.Pass.Errors
import LiveDocs.Proofs.Pass.Failures
import LiveDocs.Proofs.Pass.ReadBack
import LiveDocs.Proofs.Pass.Tracking
import LiveDocs.Proofs.Session.FirstPass
import LiveDocs.Proofs.Session.SinglePass
