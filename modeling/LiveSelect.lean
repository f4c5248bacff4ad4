import LiveSelect.Main
import LiveSelect.Query.Copy
import LiveSelect.Query.Operation
import LiveSelect.Query.Procedure
import LiveSelect.Query.Delivery
import LiveSelect.Proofs.Edits
import LiveSelect.Proofs.Maps
import LiveSelect.Proofs.Numbering
import LiveSelect.Proofs.JoinIndex
import LiveSelect.Proofs.ItemLists
import LiveSelect.Proofs.WellFormed
import LiveSelect.Proofs.Reachable
import LiveSelect.Proofs.Pairing
import LiveSelect.Proofs.Twin
import LiveSelect.Proofs.TwinText
import LiveSelect.Proofs.TwinOperations
import LiveSelect.Proofs.Copies
import LiveSelect.Proofs.Consistency
import LiveSelect.Proofs.CopyBehaviour
import LiveSelect.Proofs.FinishOrder
import LiveSelect.Proofs.Outerness
import LiveSelect.Proofs.Neighbours
import LiveSelect.Proofs.FromClause
import LiveSelect.Proofs.Refusals
import LiveSelect.Proofs.Notices
import LiveSelect.Proofs.Snapshots
import LiveSelect.Proofs.Agreement
import LiveSelect.Proofs.Unseen
import LiveSelect.Proofs.Announcements
import LiveSelect.Proofs.Mirror
import LiveSelect.Proofs.MirrorOperations
import LiveSelect.Proofs.Indexing
import LiveSelect.Proofs.Arenas
import LiveSelect.Proofs.Scope
import LiveSelect.Proofs.References
import LiveSelect.Proofs.Layout
import LiveSelect.Proofs.Linkage
import LiveSelect.Proofs.Describing
import LiveSelect.Proofs.Loading
import LiveSelect.Proofs.Verdict
import LiveSelect.Proofs.Combination
import LiveSelect.Proofs.RoundTrip
import LiveSelect.Proofs.Inside
import LiveSelect.Proofs.Outside
import LiveSelect.Proofs.HandWritten
import LiveSelect.Proofs.Readiness
import LiveSelect.Proofs.ObserverCopies
import LiveSelect.Proofs.Strays
import LiveSelect.Proofs.Removals
import LiveSelect.Proofs.Cancelling
import LiveSelect.Proofs.Lookup
import LiveSelect.Proofs.Spelling
import LiveSelect.Proofs.Reattachment
import LiveSelect.Proofs.OuterFlags
import LiveSelect.Proofs.Grouping
import LiveSelect.Proofs.WhereClause
import LiveSelect.Proofs.GraphView
import LiveSelect.Proofs.Expressions
import LiveSelect.Proofs.Recency
import LiveSelect.Proofs.Renaming
import LiveSelect.Proofs.BlankTexts
import LiveSelect.Proofs.Delivery
