import LaunchPad.Lib.Async
import LaunchPad.Lib.RelyGuarantee
import LaunchPad.Lib.Table
import LaunchPad.Inventory
import LaunchPad.Proofs.Ledger
import LaunchPad.Proofs.Expiry
import LaunchPad.Lib.Hoare
import LaunchPad.Proofs.HeldSeats
import LaunchPad.Lib.Repository
import LaunchPad.Order
import LaunchPad.Workflow
import LaunchPad.Proofs.SeatSteps
import LaunchPad.Proofs.Standing
import LaunchPad.Proofs.Partition
import LaunchPad.Proofs.Holding
import LaunchPad.Proofs.LockOrder
import LaunchPad.Proofs.Contention
import LaunchPad.Proofs.Sequential
import LaunchPad.Proofs.Confirmation
import LaunchPad.Proofs.ConfirmedSeat
import LaunchPad.Money
import LaunchPad.Proofs.Money
import LaunchPad.Inbox
import LaunchPad.Proofs.Inbox
import LaunchPad.Outbox
import LaunchPad.Proofs.Outbox
import LaunchPad.Idempotency
import LaunchPad.Lib.Progress
import LaunchPad.Proofs.Idempotency
import LaunchPad.Proofs.Exclusion
import LaunchPad.Proofs.Callback
import LaunchPad.Proofs.Tickets
import LaunchPad.Proofs.Refunds
import LaunchPad.Proofs.RefundKeys
import LaunchPad.Lib.Protocol
import LaunchPad.Methods
import LaunchPad.Proofs.Repertoire
import LaunchPad.Proofs.ReservationEnds
import LaunchPad.Proofs.Charges
import LaunchPad.Proofs.Deliveries
import LaunchPad.Proofs.Fencing
import LaunchPad.Proofs.Retry
import LaunchPad.Lib.Machine
import LaunchPad.Proofs.Sweeps
import LaunchPad.Proofs.Published
import LaunchPad.Proofs.PublishedOnce
import LaunchPad.Proofs.Fifo
import LaunchPad.OutboxTransaction
import LaunchPad.Proofs.AtLeastOnce
import LaunchPad.DeadLetter
import LaunchPad.Proofs.DeadLetters
import LaunchPad.Proofs.DomainPool
import LaunchPad.Proofs.AuditTrail
import LaunchPad.Proofs.Replies
import LaunchPad.Proofs.Declines
import LaunchPad.Proofs.Repeats
import LaunchPad.Lib.Bucket
import LaunchPad.RateLimit
import LaunchPad.Catalog
import LaunchPad.Proofs.RateLimit
import LaunchPad.Lib.Serial
import LaunchPad.Proofs.EventStatus
import LaunchPad.Proofs.CatalogRequests
import LaunchPad.Proofs.Freshness
import LaunchPad.Proofs.RetryAfter
import LaunchPad.Proofs.OnePlace
import LaunchPad.Proofs.Replays
import LaunchPad.Proofs.Draining
import LaunchPad.CreateEvent
import LaunchPad.Proofs.ScanAgrees
import LaunchPad.Proofs.Creation
import LaunchPad.Proofs.Rehydration
import LaunchPad.Proofs.Attempts
import LaunchPad.OrderEvents
import LaunchPad.Proofs.EventFacts
import LaunchPad.Proofs.ResetMs
import LaunchPad.Coalescer
import LaunchPad.Proofs.SingleFlight
import LaunchPad.Lib.Text
import LaunchPad.Proofs.Upcasting
import LaunchPad.LoadShedder
import LaunchPad.Proofs.Slots
import LaunchPad.Lib.RoundRobin
import LaunchPad.LoadBalancer
import LaunchPad.Proofs.Turns
import LaunchPad.Proofs.RetryLoop
import LaunchPad.Proofs.Scoping
import LaunchPad.Json
import LaunchPad.Proofs.Stringify
import LaunchPad.Proofs.Fingerprint
import LaunchPad.InjectedFaults
import LaunchPad.Lib.Erasure
import LaunchPad.Lib.Stages
import LaunchPad.Lib.StaleWrites
import LaunchPad.NaiveInventory
import LaunchPad.Pipeline
import LaunchPad.Proofs.ConsumedOnce
import LaunchPad.Proofs.InjectedFaults
import LaunchPad.Proofs.NaiveInventory
import LaunchPad.Proofs.Pipeline
import LaunchPad.EventText
import LaunchPad.Proofs.EventText
import LaunchPad.App
import LaunchPad.Proofs.App
import LaunchPad.Proofs.Rationing
