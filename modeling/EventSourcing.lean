import EventSourcing.Aggregate
import EventSourcing.Aggregate.Loading
import EventSourcing.Aggregate.Storing
import EventSourcing.Checkpoint
import EventSourcing.Checkpoint.Batched
import EventSourcing.Command
import EventSourcing.Command.Execution
import EventSourcing.Digest.Murmur3
import EventSourcing.Digest.Sha1
import EventSourcing.Digest.Word
import EventSourcing.Faults
import EventSourcing.Json.Read
import EventSourcing.Json.Record
import EventSourcing.Json.Write
import EventSourcing.Metadata
import EventSourcing.Payload
import EventSourcing.Proofs.Atomicity
import EventSourcing.Proofs.Backoff
import EventSourcing.Proofs.CaughtUp
import EventSourcing.Proofs.Checkpoint
import EventSourcing.Proofs.Checkpoint.Batching
import EventSourcing.Proofs.CommitSequence
import EventSourcing.Proofs.CommitSequence.Gapless
import EventSourcing.Proofs.CommitSequence.Taking
import EventSourcing.Proofs.Delivery
import EventSourcing.Proofs.Digest.Murmur3
import EventSourcing.Proofs.Execution
import EventSourcing.Proofs.Finding
import EventSourcing.Proofs.Gap
import EventSourcing.Proofs.Lifetime
import EventSourcing.Proofs.Loading
import EventSourcing.Proofs.Publishing
import EventSourcing.Proofs.Publishing.Chains
import EventSourcing.Proofs.Registry
import EventSourcing.Proofs.Registry.Binding
import EventSourcing.Proofs.Registry.RoundTrip
import EventSourcing.Proofs.Resuming
import EventSourcing.Proofs.Run.Accounting
import EventSourcing.Proofs.Run.Acknowledging
import EventSourcing.Proofs.Run.Attempts
import EventSourcing.Proofs.Run.Checkpointing
import EventSourcing.Proofs.Run.Committing
import EventSourcing.Proofs.Run.Deferral
import EventSourcing.Proofs.Run.Dispatching
import EventSourcing.Proofs.Run.Drawing
import EventSourcing.Proofs.Run.Ending
import EventSourcing.Proofs.Run.Fence
import EventSourcing.Proofs.Run.History
import EventSourcing.Proofs.Run.Lanes
import EventSourcing.Proofs.Run.Lifecycle
import EventSourcing.Proofs.Run.Occupancy
import EventSourcing.Proofs.Run.Reading
import EventSourcing.Proofs.Run.Recovering
import EventSourcing.Proofs.Run.Retrying
import EventSourcing.Proofs.Run.Settling
import EventSourcing.Proofs.Run.Sourcing
import EventSourcing.Proofs.Run.Transition
import EventSourcing.Proofs.Run.Verdict
import EventSourcing.Proofs.Saving
import EventSourcing.Proofs.Simulation
import EventSourcing.Proofs.Snapshot
import EventSourcing.Proofs.Store.Expecting
import EventSourcing.Proofs.Store.Ledger
import EventSourcing.Proofs.Store.Log
import EventSourcing.Proofs.Store.Readability
import EventSourcing.Proofs.Store.Shelves
import EventSourcing.Proofs.Stream.Naming
import EventSourcing.Proofs.Traffic
import EventSourcing.Proofs.Undisturbed
import EventSourcing.Proofs.Uuid
import EventSourcing.Publishing
import EventSourcing.Publishing.Gateway
import EventSourcing.Publishing.Recorder
import EventSourcing.Registry
import EventSourcing.Registry.Codec
import EventSourcing.Registry.Indexed
import EventSourcing.Registry.Variants
import EventSourcing.Sample.Booking
import EventSourcing.Sample.Counter
import EventSourcing.Sample.Keys
import EventSourcing.Sample.Outlet
import EventSourcing.Sample.Routes
import EventSourcing.Sample.Shapes
import EventSourcing.Sample.Tally
import EventSourcing.Sample.Ticks
import EventSourcing.Simulation.Clock
import EventSourcing.Simulation.Feed
import EventSourcing.Simulation.Script
import EventSourcing.Simulation.Session
import EventSourcing.Simulation.Strand
import EventSourcing.Simulation.World
import EventSourcing.Store
import EventSourcing.Store.Event
import EventSourcing.Store.Faulty
import EventSourcing.Store.Memory
import EventSourcing.Store.Shelved
import EventSourcing.Stream.Name
import EventSourcing.Stream.Version
import EventSourcing.Subscription
import EventSourcing.Subscription.CommitSequence
import EventSourcing.Subscription.Committer
import EventSourcing.Subscription.Error
import EventSourcing.Subscription.Gap
import EventSourcing.Subscription.Message
import EventSourcing.Subscription.Options
import EventSourcing.Subscription.Retry
import EventSourcing.Subscription.Run.Handling
import EventSourcing.Subscription.Run.Polling
import EventSourcing.Subscription.Run.State
import EventSourcing.Subscription.Run.Step
import EventSourcing.Subscription.Saving
import EventSourcing.Subscription.Source
import EventSourcing.Subscription.Status
import EventSourcing.Table
import EventSourcing.Text.Display
import EventSourcing.Text.Hex
import EventSourcing.Time
import EventSourcing.Time.Split
import EventSourcing.Uuid
