import Recount.Action
import Recount.Count.Basic
import Recount.Count.Item
import Recount.Count.Request
import Recount.Count.Status
import Recount.Count.Transition
import Recount.Count.Variance
import Recount.Count.Version
import Recount.Counting.Lifecycle
import Recount.Counting.Recording
import Recount.Counting.Review
import Recount.Database.Call
import Recount.Database.Column
import Recount.Database.Counts
import Recount.Database.Mappings
import Recount.Database.Tables
import Recount.Decimal.Arithmetic
import Recount.Decimal.Basic
import Recount.Decimal.Numeral
import Recount.Digest.Sha256
import Recount.Digest.Text
import Recount.Double.Basic
import Recount.Double.Shortest
import Recount.Erp.Postgres
import Recount.Erp.Preview
import Recount.Erp.Session
import Recount.Error
import Recount.File.Csv
import Recount.File.Defect
import Recount.File.Export
import Recount.File.Items
import Recount.File.Sheet
import Recount.File.Table
import Recount.File.Utf8
import Recount.Http.Api
import Recount.Http.Encoded
import Recount.Http.Message
import Recount.Http.Operation
import Recount.Http.Resource
import Recount.Http.Upload
import Recount.Id
import Recount.Json.Decode
import Recount.Json.Printer
import Recount.Json.Reader
import Recount.Json.Scan
import Recount.Json.Value
import Recount.Load.Batch
import Recount.Load.Field
import Recount.Load.Record
import Recount.Load.Transform
import Recount.Loading.Import
import Recount.Loading.Load
import Recount.Loading.Store
import Recount.Loading.Summary
import Recount.Mapping.Basic
import Recount.Mapping.Manage
import Recount.Mapping.Parts
import Recount.Name
import Recount.Power
import Recount.Program
import Recount.Proofs.Accounting
import Recount.Proofs.ActiveMapping
import Recount.Proofs.Addition
import Recount.Proofs.Agreement
import Recount.Proofs.Batches
import Recount.Proofs.Concurrent.Alone
import Recount.Proofs.Concurrent.Asking
import Recount.Proofs.Concurrent.Founded
import Recount.Proofs.Concurrent.History
import Recount.Proofs.Concurrent.Ledger
import Recount.Proofs.Concurrent.MappingWrites
import Recount.Proofs.Concurrent.Replay
import Recount.Proofs.Concurrent.Sound
import Recount.Proofs.Concurrent.Unfolding
import Recount.Proofs.Concurrent.World
import Recount.Proofs.Confinement
import Recount.Proofs.Count.Computing
import Recount.Proofs.Count.Item
import Recount.Proofs.Count.Stages
import Recount.Proofs.Counting.Entries
import Recount.Proofs.Counting.Recording
import Recount.Proofs.Counting.Recounting
import Recount.Proofs.Counting.Resolving
import Recount.Proofs.Database.Columns
import Recount.Proofs.Database.Reading
import Recount.Proofs.Database.Seen
import Recount.Proofs.Database.Serving
import Recount.Proofs.Database.Statements
import Recount.Proofs.Database.Transactions
import Recount.Proofs.Decimal.Numeral
import Recount.Proofs.Decimal.Quotient
import Recount.Proofs.Decimal.Rounding
import Recount.Proofs.Decimal.Value
import Recount.Proofs.Deduplication
import Recount.Proofs.Deletion
import Recount.Proofs.Failure
import Recount.Proofs.Fallback
import Recount.Proofs.FieldMappings
import Recount.Proofs.File.Rows
import Recount.Proofs.File.Table
import Recount.Proofs.Finality
import Recount.Proofs.Integrity
import Recount.Proofs.Isolation
import Recount.Proofs.ItemCodes
import Recount.Proofs.KnownTables
import Recount.Proofs.Lifecycle
import Recount.Proofs.Load.Applying
import Recount.Proofs.Load.Merging
import Recount.Proofs.Loading.History
import Recount.Proofs.Loading.Overflow
import Recount.Proofs.Loading.Reading
import Recount.Proofs.Loading.Storing
import Recount.Proofs.Loading.Upserting
import Recount.Proofs.Mapping.Changing
import Recount.Proofs.MappingChanges
import Recount.Proofs.NextVersion
import Recount.Proofs.Overflow
import Recount.Proofs.Parameters
import Recount.Proofs.Percentage
import Recount.Proofs.Program.Keeps
import Recount.Proofs.Program.Reaches
import Recount.Proofs.Reloading
import Recount.Proofs.Replacement
import Recount.Proofs.RequiredColumns
import Recount.Proofs.Resolution
import Recount.Proofs.Result
import Recount.Proofs.RoundTrip
import Recount.Proofs.RowLimit
import Recount.Proofs.RowNumbers
import Recount.Proofs.Serializability
import Recount.Proofs.Sessions
import Recount.Proofs.Settlement
import Recount.Proofs.Sql.Alias
import Recount.Proofs.Sql.Alphabet
import Recount.Proofs.Sql.AnyLimit
import Recount.Proofs.Sql.Columns
import Recount.Proofs.Sql.Lexical
import Recount.Proofs.Sql.Limiting
import Recount.Proofs.Sql.Placeholders
import Recount.Proofs.Sql.Reading
import Recount.Proofs.Sql.Reference
import Recount.Proofs.Sql.Rereading
import Recount.Proofs.Sql.Resolving
import Recount.Proofs.Sql.Rewriting
import Recount.Proofs.StockQuantities
import Recount.Proofs.Store.Answers
import Recount.Proofs.Store.Effects
import Recount.Proofs.Store.Fitting
import Recount.Proofs.Store.Mappings
import Recount.Proofs.Store.Origins
import Recount.Proofs.Store.Reported
import Recount.Proofs.Store.Settled
import Recount.Proofs.Store.Sound
import Recount.Proofs.StoredMapping
import Recount.Proofs.TableAliases
import Recount.Proofs.TableReferences
import Recount.Proofs.TemplateText
import Recount.Proofs.Tenant.Calls
import Recount.Proofs.Tenant.Entitled
import Recount.Proofs.Tenant.Moving
import Recount.Proofs.Tenant.Orderly
import Recount.Proofs.Tenant.Part
import Recount.Proofs.Tenant.Performing
import Recount.Proofs.Tenant.Writes
import Recount.Proofs.Text.Trim
import Recount.Proofs.Time.Text
import Recount.Proofs.Variances
import Recount.Proofs.Warehouse
import Recount.Proofs.WriteBack.Outcome
import Recount.Proofs.WriteBack.Replacing
import Recount.Proofs.WriteBack.Retries
import Recount.Proofs.WriteBack.Sending
import Recount.Proofs.WriteTarget
import Recount.Rehearsal.Script
import Recount.Rehearsal.Server
import Recount.Rehearsal.StandIn
import Recount.Rehearsal.World
import Recount.Settings
import Recount.Sql.Alias
import Recount.Sql.Catalog
import Recount.Sql.Defect
import Recount.Sql.Dialect
import Recount.Sql.Identifier
import Recount.Sql.Query
import Recount.Sql.Template
import Recount.Store.Basic
import Recount.Store.Call
import Recount.Store.Counts
import Recount.Store.Mappings
import Recount.Text.Class
import Recount.Text.Integer
import Recount.Text.Letter
import Recount.Text.Log
import Recount.Text.Trim
import Recount.Text.Units
import Recount.Time
import Recount.Token
import Recount.WriteBack.Basic
import Recount.WriteBack.Send
