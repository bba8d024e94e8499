import DocumentStore.Action
import DocumentStore.Aliases
import DocumentStore.Backend.Basic
import DocumentStore.Backend.Faults
import DocumentStore.Backend.Memory
import DocumentStore.Calendar.Date
import DocumentStore.Calendar.Instant
import DocumentStore.Calendar.Printer
import DocumentStore.Calendar.Reader
import DocumentStore.Clone
import DocumentStore.Collection
import DocumentStore.Connection
import DocumentStore.Criteria.Basic
import DocumentStore.Criteria.Operator
import DocumentStore.Criteria.Reader
import DocumentStore.Decimal.Printer
import DocumentStore.Decimal.Reader
import DocumentStore.Decimal.Shortest
import DocumentStore.Document.Basic
import DocumentStore.Document.Raw
import DocumentStore.Document.Timer
import DocumentStore.Error
import DocumentStore.Filter.Comparable
import DocumentStore.Filter.Truth
import DocumentStore.Item
import DocumentStore.Json.Numeral
import DocumentStore.Json.Printer
import DocumentStore.Json.Record
import DocumentStore.Json.Tree
import DocumentStore.Json.Value
import DocumentStore.Limits
import DocumentStore.Operation
import DocumentStore.OrderedMap
import DocumentStore.Proofs.Action
import DocumentStore.Proofs.Action.Effects
import DocumentStore.Proofs.Action.InOrder
import DocumentStore.Proofs.Aliases
import DocumentStore.Proofs.Aliases.Collisions
import DocumentStore.Proofs.Aliases.Inversion
import DocumentStore.Proofs.Backend.Table
import DocumentStore.Proofs.Calendar.Chronology
import DocumentStore.Proofs.Calendar.Padded
import DocumentStore.Proofs.Calendar.RoundTrip
import DocumentStore.Proofs.Calendar.TextOrder
import DocumentStore.Proofs.Criteria.Leaves
import DocumentStore.Proofs.Criteria.Markers
import DocumentStore.Proofs.Criteria.Nodes
import DocumentStore.Proofs.Criteria.Pruning
import DocumentStore.Proofs.Criteria.Relations
import DocumentStore.Proofs.Double.Integers
import DocumentStore.Proofs.Double.Nearest
import DocumentStore.Proofs.Double.Rounding
import DocumentStore.Proofs.Filter.Agreement
import DocumentStore.Proofs.Filter.Compound
import DocumentStore.Proofs.Filter.Doubles
import DocumentStore.Proofs.Filter.Guard
import DocumentStore.Proofs.Filter.Integers
import DocumentStore.Proofs.Filter.Misuse
import DocumentStore.Proofs.Filter.NestedPaths
import DocumentStore.Proofs.Filter.Renaming
import DocumentStore.Proofs.Filter.SelfMatch
import DocumentStore.Proofs.Item
import DocumentStore.Proofs.Json.Paths
import DocumentStore.Proofs.OrderedMap
import DocumentStore.Proofs.Positions
import DocumentStore.Proofs.Query.Comparisons
import DocumentStore.Proofs.Query.Grammar
import DocumentStore.Proofs.Query.KeyMatch
import DocumentStore.Proofs.Query.Layout
import DocumentStore.Proofs.Query.Markers
import DocumentStore.Proofs.Query.Nesting
import DocumentStore.Proofs.Query.Operands
import DocumentStore.Proofs.Query.Pieces
import DocumentStore.Proofs.Query.Quoting
import DocumentStore.Proofs.Query.Reading
import DocumentStore.Proofs.Query.Selection
import DocumentStore.Proofs.Result
import DocumentStore.Proofs.Schema.Registry
import DocumentStore.Proofs.Service.Creation
import DocumentStore.Proofs.Service.Deletion
import DocumentStore.Proofs.Service.DeletionByIds
import DocumentStore.Proofs.Service.DeletionByValue
import DocumentStore.Proofs.Service.DeletionEnds
import DocumentStore.Proofs.Service.DerivedExpiry
import DocumentStore.Proofs.Service.EachItem
import DocumentStore.Proofs.Service.ExpiryInStep
import DocumentStore.Proofs.Service.Filing
import DocumentStore.Proofs.Service.Interleaving
import DocumentStore.Proofs.Service.Isolation
import DocumentStore.Proofs.Service.KeyPaths
import DocumentStore.Proofs.Service.Marking
import DocumentStore.Proofs.Service.Merging
import DocumentStore.Proofs.Service.PartitionScope
import DocumentStore.Proofs.Service.Reachable
import DocumentStore.Proofs.Service.ReadBack
import DocumentStore.Proofs.Service.Refusals
import DocumentStore.Proofs.Service.Requests
import DocumentStore.Proofs.Service.Revision
import DocumentStore.Proofs.Service.Search
import DocumentStore.Proofs.Service.SoftDeletion
import DocumentStore.Proofs.Service.SparedItems
import DocumentStore.Proofs.Service.Ticks
import DocumentStore.Proofs.Service.WayBack
import DocumentStore.Proofs.Service.Windows
import DocumentStore.Proofs.Store.Comparing
import DocumentStore.Proofs.Store.Insertion
import DocumentStore.Proofs.Store.KeyRows
import DocumentStore.Proofs.Store.PageOffsets
import DocumentStore.Proofs.Store.Pages
import DocumentStore.Proofs.Store.Projection
import DocumentStore.Proofs.Store.Purge
import DocumentStore.Proofs.Store.Removal
import DocumentStore.Proofs.Store.Results
import DocumentStore.Proofs.Store.Sorting
import DocumentStore.Proofs.Term.ArrayElements
import DocumentStore.Proofs.Term.Arrays
import DocumentStore.PurgeDelay
import DocumentStore.Query.Basic
import DocumentStore.Query.Clause
import DocumentStore.Query.Literal
import DocumentStore.Query.Options
import DocumentStore.Query.Search
import DocumentStore.Reserved
import DocumentStore.ReturnValue
import DocumentStore.Schema.Basic
import DocumentStore.Schema.Json
import DocumentStore.Schema.Registry
import DocumentStore.Service.Basic
import DocumentStore.Service.Checks
import DocumentStore.Service.Cloning
import DocumentStore.Service.Creation
import DocumentStore.Service.Deletion
import DocumentStore.Service.Expiry
import DocumentStore.Service.Revision
import DocumentStore.Service.Search
import DocumentStore.Store.Basic
import DocumentStore.Store.Key
import DocumentStore.Store.Projection
import DocumentStore.Store.Results
import DocumentStore.Store.Sorting
import DocumentStore.Store.Stamp
import DocumentStore.Term.Basic
import DocumentStore.Term.Reading
import DocumentStore.Text.Blank
import DocumentStore.Text.Listing
import DocumentStore.Text.Scan
import DocumentStore.Text.Segments
import DocumentStore.Text.Unprintable
import DocumentStore.Word
