import SharkCollector.PathTree
import SharkCollector.Runs
import SharkCollector.Firebase
import SharkCollector.Records
import SharkCollector.BorrowersTable
import SharkCollector.PaymentsTable
import SharkCollector.BorrowerScreen
import SharkCollector.Ledger
import SharkCollector.ProperRuns
import SharkCollector.PaymentsTree
import SharkCollector.PaymentHistory
import SharkCollector.Session
import SharkCollector.Cloud
import SharkCollector.Origins
import SharkCollector.Feeds
import SharkCollector.Delivery
import SharkCollector.RejectedWrites
import SharkCollector.Convergence
import SharkCollector.Isolation
import SharkCollector.System
import SharkCollector.DeviceSessions
import SharkCollector.Moves
import SharkCollector.Screens
import SharkCollector.Integrity
import SharkCollector.TrapFree
