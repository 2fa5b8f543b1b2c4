import ActiveGraphSurreal.Library.Answers
import ActiveGraphSurreal.Library.Atomic
import ActiveGraphSurreal.Library.CallTree
import ActiveGraphSurreal.Library.Clients
import ActiveGraphSurreal.Library.Confined
import ActiveGraphSurreal.Library.Distance
import ActiveGraphSurreal.Library.Framing
import ActiveGraphSurreal.Library.HashChain
import ActiveGraphSurreal.Library.Json
import ActiveGraphSurreal.Library.JsonRoundTrip
import ActiveGraphSurreal.Library.JsonText
import ActiveGraphSurreal.Library.Records
import ActiveGraphSurreal.Library.SnapshotDb
import ActiveGraphSurreal.Library.Steps
import ActiveGraphSurreal.Library.Traces
import ActiveGraphSurreal.Library.Typestate
import ActiveGraphSurreal.Config
import ActiveGraphSurreal.Connection
import ActiveGraphSurreal.Database
import ActiveGraphSurreal.Errors
import ActiveGraphSurreal.EventStore
import ActiveGraphSurreal.GraphStore
import ActiveGraphSurreal.Harness
import ActiveGraphSurreal.Keys
import ActiveGraphSurreal.Runtime
import ActiveGraphSurreal.Serde
import ActiveGraphSurreal.Sessions
import ActiveGraphSurreal.Proofs.Addressed
import ActiveGraphSurreal.Proofs.Brackets
import ActiveGraphSurreal.Proofs.Canonical
import ActiveGraphSurreal.Proofs.Chain
import ActiveGraphSurreal.Proofs.Clearing
import ActiveGraphSurreal.Proofs.Codecs
import ActiveGraphSurreal.Proofs.Concurrent
import ActiveGraphSurreal.Proofs.Configuring
import ActiveGraphSurreal.Proofs.Contents
import ActiveGraphSurreal.Proofs.Conversions
import ActiveGraphSurreal.Proofs.Counters
import ActiveGraphSurreal.Proofs.Determined
import ActiveGraphSurreal.Proofs.ForkFailures
import ActiveGraphSurreal.Proofs.Forking
import ActiveGraphSurreal.Proofs.Handles
import ActiveGraphSurreal.Proofs.Histories
import ActiveGraphSurreal.Proofs.Importing
import ActiveGraphSurreal.Proofs.Insertion
import ActiveGraphSurreal.Proofs.Installing
import ActiveGraphSurreal.Proofs.Isolation
import ActiveGraphSurreal.Proofs.Ledger
import ActiveGraphSurreal.Proofs.LedgerWrites
import ActiveGraphSurreal.Proofs.ListModel
import ActiveGraphSurreal.Proofs.Logs
import ActiveGraphSurreal.Proofs.MapModel
import ActiveGraphSurreal.Proofs.Maps
import ActiveGraphSurreal.Proofs.Metadata
import ActiveGraphSurreal.Proofs.Moments
import ActiveGraphSurreal.Proofs.Mutating
import ActiveGraphSurreal.Proofs.Neighborhood
import ActiveGraphSurreal.Proofs.Opening
import ActiveGraphSurreal.Proofs.Parts
import ActiveGraphSurreal.Proofs.Provider
import ActiveGraphSurreal.Proofs.ReadOnly
import ActiveGraphSurreal.Proofs.Readers
import ActiveGraphSurreal.Proofs.Readiness
import ActiveGraphSurreal.Proofs.Reading
import ActiveGraphSurreal.Proofs.Reference
import ActiveGraphSurreal.Proofs.RelationMoment
import ActiveGraphSurreal.Proofs.Replaying
import ActiveGraphSurreal.Proofs.Reporting
import ActiveGraphSurreal.Proofs.Rules
import ActiveGraphSurreal.Proofs.Running
import ActiveGraphSurreal.Proofs.SchemaVersions
import ActiveGraphSurreal.Proofs.Settling
import ActiveGraphSurreal.Proofs.SharedMaps
import ActiveGraphSurreal.Proofs.Sockets
import ActiveGraphSurreal.Proofs.Tailing
import ActiveGraphSurreal.Proofs.Tampering
import ActiveGraphSurreal.Proofs.Upgrading
import ActiveGraphSurreal.Proofs.Views
import ActiveGraphSurreal.Proofs.Visible
import ActiveGraphSurreal.Proofs.Writers
