import KeyedState.Backend.Iteration
import KeyedState.Backend.Lifecycle
import KeyedState.Backend.Procedure
import KeyedState.Closeables
import KeyedState.Compression.Stream
import KeyedState.Config.Json
import KeyedState.Config.Message
import KeyedState.Hex
import KeyedState.Host.Access
import KeyedState.Host.Basic
import KeyedState.Json.Access
import KeyedState.Json.Parser
import KeyedState.Json.Printer
import KeyedState.KeyContext
import KeyedState.KeyGroup.Assignment
import KeyedState.Metrics
import KeyedState.Query
import KeyedState.Schema.Binary
import KeyedState.Schema.Exact
import KeyedState.Schema.Json
import KeyedState.Serializer
import KeyedState.State.Access
import KeyedState.State.Descriptor
import KeyedState.State.Message
import KeyedState.State.Named
import KeyedState.State.Reduction
import KeyedState.Storage.Basic
import KeyedState.Storage.Message
import KeyedState.Storage.Table
import KeyedState.Storage.Tracking
import KeyedState.Storage.Ttl
import KeyedState.Proofs.Table.Groups
import KeyedState.Proofs.Storage.Contents
import KeyedState.Proofs.Action
import KeyedState.Proofs.Backend.Ownership
import KeyedState.Proofs.Backend.Rescaling
import KeyedState.Proofs.Storage.Expiry
import KeyedState.Proofs.Backend.Faults
import KeyedState.Proofs.Backend.Following
import KeyedState.Proofs.KeyGroup.Operators
import KeyedState.Proofs.Table.Levels
import KeyedState.Proofs.Table.Listings
import KeyedState.Proofs.Table.FlatMap
import KeyedState.Proofs.Backend.Restore
import KeyedState.Proofs.State.Presence
import KeyedState.Proofs.Backend.Enumeration
import KeyedState.Proofs.Backend.Scoping
import KeyedState.Proofs.Backend.Refusals
import KeyedState.Proofs.Backend.Lookups
import KeyedState.Proofs.Closeables
import KeyedState.Proofs.Storage.Kinds
import KeyedState.Proofs.Backend.Creation
import KeyedState.Proofs.Storage.Transparency
import KeyedState.Proofs.KeyContext
import KeyedState.Proofs.Backend.Stopping
import KeyedState.Proofs.State.OwnValue
import KeyedState.Proofs.Backend.Locality
import KeyedState.Proofs.Backend.Switching
import KeyedState.Proofs.State.Gathering
import KeyedState.Proofs.Backend.Sessions
import KeyedState.Proofs.KeyGroup.Ranges
import KeyedState.Proofs.Metrics.Means
import KeyedState.Proofs.Storage.Sampling
import KeyedState.Proofs.KeyGroup.Defaults
import KeyedState.Proofs.KeyGroup.Hashing
