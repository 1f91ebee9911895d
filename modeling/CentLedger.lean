import CentLedger.Console.Wire
import CentLedger.Main
import CentLedger.Proofs.Conservation
import CentLedger.Proofs.Interleaving
import CentLedger.Proofs.Reconciliation
import CentLedger.Proofs.Solitary
import CentLedger.Sql.Store
import CentLedger.Sql.Wire
import CentLedger.Proofs.LockOrder
import CentLedger.Proofs.Deadlock
import CentLedger.Proofs.Tickets
import CentLedger.Proofs.Shutdown
import CentLedger.Proofs.PoolUse
import CentLedger.Proofs.Custody
import CentLedger.Proofs.BoundValues
import CentLedger.Proofs.BalanceTrail
import CentLedger.Proofs.TransferAgreement
import CentLedger.Proofs.RegistryMap
import CentLedger.Proofs.BatchUse
import CentLedger.Proofs.OfficeUse
import CentLedger.Proofs.Dispatch
import CentLedger.Proofs.Bookings
import CentLedger.Proofs.Filings
import CentLedger.Proofs.BestEffort
import CentLedger.Proofs.Tallies
import CentLedger.Proofs.RowEncoding
import CentLedger.Proofs.Commutation
import CentLedger.Proofs.WrittenEvents
import CentLedger.Proofs.StandingJobs
import CentLedger.Proofs.TransferFaults
import CentLedger.Proofs.Conversions
import CentLedger.Proofs.RetainedBatches
import CentLedger.Proofs.Certificates
import CentLedger.Proofs.TimedHistories
import CentLedger.Proofs.StoreTables
import CentLedger.Proofs.SubscriptionLog
import CentLedger.Proofs.Averages
