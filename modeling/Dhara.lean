import Dhara.Client.Admission
import Dhara.Client.Listing
import Dhara.Client.Truthfulness
import Dhara.Environment.Exactness
import Dhara.JsonText.Values
import Dhara.Metrics.Histogram
import Dhara.Playground.Confidentiality
import Dhara.Playground.Namespacing
import Dhara.Playground.Queue
import Dhara.Playground.Retention
import Dhara.Playground.RetryAfter
import Dhara.Playground.Bursts
import Dhara.Playground.Scenarios
import Dhara.Playground.Timeline
import Dhara.Pool.Budget
import Dhara.Pool.Health
import Dhara.Pool.NoLoss
import Dhara.Pool.Outcomes
import Dhara.Server.Cancellation
import Dhara.Store.ClaimExclusivity
import Dhara.Store.ClaimOrder
import Dhara.Store.Counters
import Dhara.Store.EnqueueCounter
import Dhara.Store.FailureAtomicity
import Dhara.Store.Idempotency
import Dhara.Store.Listing
import Dhara.Store.PayloadConflicts
import Dhara.Store.Timeline
import Dhara.Transaction.Stamps
import Dhara.Transaction.Traces
import Dhara.Machine
import Dhara.Playground.CrashManager
import Dhara.Playground.CrashProcess
import Dhara.Playground.CrashRecovery
import Dhara.Server.Retry
import Dhara.Lifecycle.Links
import Dhara.Lifecycle.Outages
import Dhara.Lifecycle.Shutdown
import Dhara.Playground.Isolation
