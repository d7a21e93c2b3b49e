import Occupancy.Main
import Occupancy.Postgres.Script
import Occupancy.Redis.Script
import Occupancy.Server.Machine
import Occupancy.Viewer.Arguments
import Occupancy.Viewer.Describe
import Occupancy.Viewer.Rates
import Occupancy.Proofs.Calendar
import Occupancy.Proofs.Timestamp
import Occupancy.Proofs.Session.Moves
import Occupancy.Proofs.Session.Billing
import Occupancy.Proofs.Store.Commands
import Occupancy.Proofs.Store.Histories
import Occupancy.Proofs.Store.Permanence
import Occupancy.Proofs.Store.Machine
import Occupancy.Proofs.Store.Contention
import Occupancy.Proofs.Store.Devices
import Occupancy.Proofs.Operation.Interleaving
import Occupancy.Proofs.Operation.Lockstep
import Occupancy.Proofs.Http.Answers
import Occupancy.Proofs.Broker.Memory
import Occupancy.Proofs.Fanout.Registry
import Occupancy.Proofs.Fanout.Supervisor
import Occupancy.Proofs.Fanout.Floor
import Occupancy.Proofs.Fanout.Relay
import Occupancy.Proofs.Fanout.Slots
import Occupancy.Proofs.Fanout.Debts
import Occupancy.Proofs.Fanout.Coverage
import Occupancy.Proofs.Fanout.Conflation
import Occupancy.Proofs.Fanout.Outbox
import Occupancy.Proofs.Fanout.Stranding
import Occupancy.Proofs.Fanout.Shelf
import Occupancy.Proofs.Fanout.LatestValue
import Occupancy.Proofs.Fanout.Frames
import Occupancy.Proofs.Fanout.Venue
import Occupancy.Proofs.Fanout.Timely
import Occupancy.Proofs.Fanout.OnTheWay
import Occupancy.Proofs.Fanout.Accepted
import Occupancy.Proofs.Fanout.Viewing
import Occupancy.Proofs.Session.Limit
import Occupancy.Proofs.Store.Independence
import Occupancy.Proofs.Fanout.Bookkeeping
import Occupancy.Proofs.Operation.Effects
import Occupancy.Proofs.Broker.Refinement
import Occupancy.Proofs.Reading.Views
import Occupancy.Proofs.Postgres.Transactions
import Occupancy.Proofs.Postgres.Changes
import Occupancy.Proofs.Postgres.Batches
import Occupancy.Proofs.Reading.Identifiers
import Occupancy.Proofs.Reading.Timestamps
import Occupancy.Proofs.Postgres.Tables
import Occupancy.Proofs.Postgres.Requests
import Occupancy.Proofs.Postgres.Kept
import Occupancy.Proofs.Postgres.Mirror
import Occupancy.Proofs.Postgres.Readings
import Occupancy.Proofs.Postgres.Agreement
import Occupancy.Proofs.Session.Pauses
import Occupancy.Proofs.Postgres.Operable
import Occupancy.Proofs.Reading.Topics
import Occupancy.Proofs.Redis.Leftovers
import Occupancy.Proofs.Redis.Stale
import Occupancy.Proofs.Store.Expiry
import Occupancy.Proofs.Session.Extension
import Occupancy.Proofs.Fanout.Isolation
import Occupancy.Proofs.Fanout.Attendance
import Occupancy.Proofs.Reading.Spelling
import Occupancy.Proofs.Viewer.Endpoint
import Occupancy.Proofs.Fanout.Dialling
import Occupancy.Proofs.Fanout.Succession
import Occupancy.Proofs.Operation.Dealings
import Occupancy.Proofs.Operation.Sweeping
import Occupancy.Proofs.Viewer.Rates
import Occupancy.Proofs.Server.Logs
import Occupancy.Proofs.Config.Files
