import Mobility.Lib.Machine
import Mobility.Payout.Balances
import Mobility.Payout.Frozen
import Mobility.Payout.Batches
import Mobility.Payout.Submission
import Mobility.Payout.Adjustments
import Mobility.Payout.Automatic
import Mobility.Payout.System
import Mobility.Payout.Inversion
import Mobility.Lib.Table
import Mobility.Payout.Effects
import Mobility.Payout.Keys
import Mobility.Payout.Transitions
import Mobility.Payout.Consistency
import Mobility.Payout.FinalGate
import Mobility.Payout.OpenReservations
import Mobility.Payout.SubmissionSafety
import Mobility.Payout.Ledger
import Mobility.Payout.Allocation
import Mobility.Payout.Funding
import Mobility.Payout.LedgerRuns
import Mobility.Payout.TripAuthority
import Mobility.Payout.EvidenceOrder
import Mobility.Trips.Types
import Mobility.Trips.Receipts
import Mobility.Trips.Lifecycle
import Mobility.Trips.Ingest
import Mobility.Lib.Newest
import Mobility.Pay.Daily
import Mobility.Pay.Positions
import Mobility.Trips.Analytics
import Mobility.Pay.Engine
import Mobility.Pay.Eligibility
import Mobility.Pay.Credits
import Mobility.Pay.Overlaps
import Mobility.Pay.Reserved
import Mobility.Pay.Corrections
import Mobility.Trips.Processing
import Mobility.Trips.System
import Mobility.Trips.Effects
import Mobility.Pay.Inversion
import Mobility.Trips.Transitions
import Mobility.Trips.SealedEvidence
import Mobility.Trips.Predecessors
import Mobility.Trips.Admission
import Mobility.Pay.Calculations
import Mobility.Trips.PricedPings
import Mobility.Wire.Canonical
import Mobility.Wire.Timestamps
import Mobility.Wire.Payloads
import Mobility.Wire.Client
import Mobility.Wire.Manifests
import Mobility.Trips.LateData
import Mobility.Lib.Totals
import Mobility.Lib.Traces
import Mobility.Billing.Types
import Mobility.Billing.Receipts
import Mobility.Billing.Settlements
import Mobility.Billing.Authority
import Mobility.Billing.Changes
import Mobility.Billing.System
import Mobility.Billing.Cash
import Mobility.Billing.CashRuns
import Mobility.Billing.Refunds
import Mobility.Billing.Liability
import Mobility.Billing.LiabilityRuns
import Mobility.Billing.Readiness
import Mobility.Email.Delivery
import Mobility.Email.Fencing
import Mobility.Lib.Leaders
import Mobility.Replay.Detection
import Mobility.Replay.Orders
import Mobility.Replay.Holds
import Mobility.Retention.Calendar
import Mobility.Retention.Purge
import Mobility.Retention.Evidence
import Mobility.Retention.Recovery
import Mobility.Retention.Completion
import Mobility.Billing.Budget
import Mobility.Billing.Pauses
import Mobility.Billing.PauseRuns
import Mobility.Billing.Receivables
import Mobility.Lib.Draws
import Mobility.Payout.Preview
import Mobility.Payout.PreviewRows
import Mobility.Payout.Recoveries
import Mobility.Payout.ReservedRows
import Mobility.Payout.Relabelled
import Mobility.Payout.PreviewAgreement
import Mobility.Files.Types
import Mobility.Files.Deletions
import Mobility.Files.Uploads
import Mobility.Files.Submissions
import Mobility.Files.Retention
import Mobility.Files.Effects
import Mobility.Files.Invariant
import Mobility.Files.Finalization
import Mobility.Files.Safety
import Mobility.Lib.Tallies
import Mobility.Lib.Cuts
import Mobility.Lib.Expiring
import Mobility.Lib.Accruals
import Mobility.Pay.Classification
import Mobility.Pay.CreditedDistance
import Mobility.Pay.Midnights
import Mobility.Pay.Convergence
import Mobility.Payout.EarningsDays
import Mobility.Payout.EarningsTrips
import Mobility.Payout.EarningsGroups
import Mobility.Payout.EarningsTotals
import Mobility.Payout.OffsetRuns
import Mobility.Reports.Windows
import Mobility.Reports.Schedule
import Mobility.Auth.RateLimit
import Mobility.Auth.FailedLogins
import Mobility.Files.Queue
import Mobility.Files.QueueRounds
import Mobility.Files.QueueRuns
import Mobility.Files.QueueCompleteness
import Mobility.Files.QueueLinks
import Mobility.Trips.Acknowledgements
import Mobility.Billing.FundingHistory
import Mobility.Billing.FundedRuns
import Mobility.Lib.Scans
import Mobility.Pay.Stops
import Mobility.Lib.Ceilings
import Mobility.Payout.AutomaticScan
import Mobility.Payout.Conservation
import Mobility.Payout.DayCeiling
import Mobility.Lib.Increments
import Mobility.Pay.Recorded
import Mobility.Pay.DayTargets
import Mobility.Pay.Executed
import Mobility.Pay.DayTotals
import Mobility.Pay.DayRuns
import Mobility.Lib.Keyed
import Mobility.Lib.Relocate
import Mobility.Device.Queue
import Mobility.Device.View
import Mobility.Device.Steps
import Mobility.Device.Custody
import Mobility.Device.Boundary
import Mobility.Device.SeenEvidence
import Mobility.Device.Adoption
import Mobility.Device.AdoptedStore
import Mobility.Device.Runs
import Mobility.Device.Counts
import Mobility.Wire.Buildable
import Mobility.Device.Closing
import Mobility.Lib.Exclusive
import Mobility.Lib.Histories
import Mobility.Assignments.Types
import Mobility.Assignments.Terms
import Mobility.Assignments.Lifecycle
import Mobility.Assignments.Campaigns
import Mobility.Assignments.System
import Mobility.Assignments.Dossiers
import Mobility.Assignments.Effects
import Mobility.Assignments.Runs
import Mobility.Assignments.LiveJobs
import Mobility.Assignments.Decisions
import Mobility.Assignments.FrozenOffers
import Mobility.Assignments.Activations
