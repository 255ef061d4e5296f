import Lending.CommandLine.Files
import Lending.Main
import Lending.Proofs.Csv.Report
import Lending.Proofs.Engine.Atomicity
import Lending.Proofs.Engine.CreditLimit
import Lending.Proofs.Engine.LoanAccounts
import Lending.Proofs.Engine.Onward
import Lending.Proofs.Engine.References
import Lending.Proofs.Engine.Stamps
import Lending.Proofs.Engine.Scopes
import Lending.Proofs.Engine.LockTable
import Lending.Proofs.Engine.Exclusion
import Lending.Proofs.Engine.Pruning
import Lending.Proofs.Engine.Locking
import Lending.Proofs.Engine.Deliveries
import Lending.Proofs.Engine.Workload
import Lending.Proofs.Engine.Interference
import Lending.Proofs.Engine.Orderly
import Lending.Proofs.Engine.Writes
import Lending.Proofs.Engine.PaymentWork
import Lending.Proofs.Engine.FirstWrite
import Lending.Proofs.Engine.Progress
import Lending.Proofs.Engine.Confirmations
import Lending.Proofs.Engine.Retries
import Lending.Proofs.Engine.LoanRetries
import Lending.Proofs.Engine.Punctual
import Lending.Proofs.Engine.Deciding
import Lending.Proofs.Engine.Budgets
import Lending.Proofs.Engine.Agenda
import Lending.Proofs.Engine.Refusals
import Lending.Proofs.Engine.StaleTimers
import Lending.Proofs.Json.Documents
import Lending.Proofs.Store.Reopening
import Lending.Proofs.Scenario.Replays
import Lending.Proofs.Scenario.Rows
import Lending.Proofs.Schedule.DueDates
import Lending.Proofs.Schedule.Exact
import Lending.Proofs.Scenario.SettleRows
