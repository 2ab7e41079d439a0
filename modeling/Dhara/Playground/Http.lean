import Dhara.Playground.Service
import Dhara.Store.Listing

/-!
# What the playground shows

Four endpoints read tasks: the listing and the task of the core API, and the
snapshot and the task detail of the playground.  They build their answers
from three projections of a row, the `Task` of the client, the `TaskView` of
a listing, and the `StoredTask` of a detail.

A reply is the status, the `Retry-After` header and the value that
`json.Encoder` writes.  Whatever else a request depends on is part of its
surroundings: the rate limiter, the faults of the queries, the clocks, the
counters of the process, and the order in which the server returns rows that
`ORDER BY` leaves open.  The status of the crash demo, which is read from
another schema, is left out.
-/

namespace Dhara.Playground.Http

open Dhara.Environment (trimSpace)
open Dhara.JsonText (hexLetter)
open Dhara.Store

/-! ## Replies -/

/-- A value that `json.Encoder` writes. -/
inductive Value where
  | bool (value : Bool)
  | int (value : Int)
  | text (value : GoString)
  | time (value : Time)
  | raw (value : GoString)
  | list (items : List Value)
  | object (members : List (String × Value))

/-- A member that `omitempty` leaves out if it is nil. -/
def omitNil {Content : Type} (name : String) (encode : Content → Value)
    (content : Option Content) : List (String × Value) :=
  content.toList.map fun value => (name, encode value)

/-- A reply of the server. -/
structure Reply where
  status : Nat
  retryAfter : Option Int := none
  body : Value

def writeError (status : Nat) (message : GoString) : Reply :=
  ⟨status, none, .object [("error", .text message)]⟩

def writeRetryAfter (wait : Time) : Reply :=
  let secs := max 1 (wait.tdiv 1000000)
  ⟨429, some secs,
    .object
      [("error",
          .text (ascii "rate limit exceeded; slow down and try again")),
        ("retry_after_sec", .int secs)]⟩

/-- `writeServiceError`. -/
def writeServiceError : ServiceError → Reply
  | .queueFull =>
      { writeError 429
          (ascii "playground queue is full; wait for existing tasks to drain")
        with retryAfter := some 5 }
  | .sessionRequired =>
      writeError 400 (ascii "a valid X-Playground-Session header is required")
  | .client (.store .taskConflict) =>
      writeError 409 (ascii "idempotency key reused with a different payload")
  | .badRequest message => writeError 400 message
  | .client (.validation message) => writeError 400 (ascii message)
  | _ => writeError 500 (ascii "request failed")

/-! ## Requests -/

/-- The parsers of `strconv` and of the UUID library. -/
structure Parsers where
  atoi : GoString → Option Int
  parseUUID : GoString → Option TaskId

/-- `strconv.ParseBool`. -/
def parseBool (text : GoString) : Option Bool :=
  if ["1", "t", "T", "TRUE", "true", "True"].any
      fun word => text = ascii word then
    some true
  else if ["0", "f", "F", "FALSE", "false", "False"].any
      fun word => text = ascii word then
    some false
  else
    none

/-- The digits of a UUID from a position on. -/
def hexDigits (id : TaskId) (start count : Nat) : GoString :=
  (List.range count).map fun offset =>
    hexLetter ((id.toNat >>> (4 * (31 - (start + offset)))) % 16)

/-- `UUID.String`. -/
def uuidString (id : TaskId) : GoString :=
  hexDigits id 0 8 ++ ascii "-" ++ hexDigits id 8 4 ++ ascii "-" ++
    hexDigits id 12 4 ++ ascii "-" ++ hexDigits id 16 4 ++ ascii "-" ++
    hexDigits id 20 12

theorem uuidString_ne_nil (id : TaskId) : uuidString id ≠ [] := by
  simp [uuidString, ascii]

/-- The counters of a process, as far as a snapshot shows them. -/
structure Metrics where
  tasksEnqueuedTotal : Int := 0
  tasksCompletedTotal : Int := 0
  taskAttemptFailuresTotal : Int := 0
  tasksRetriedTotal : Int := 0
  tasksDeadTotal : Int := 0
  tasksCanceledTotal : Int := 0
  tasksReapedTotal : Int := 0
  workersActive : Int := 0
  workersInflight : Int := 0

/-- What a request meets besides the committed rows. -/
structure Surroundings where
  wait : Option Time := none
  faults : Nat → Option Fault := fun _ => none
  serverNow : Nat → Time := fun _ => 0
  clock : Nat → Time := fun _ => 0
  ties : TaskId → Nat := fun _ => 0
  workerCount : Int := 0
  workerPrefix : GoString := []
  clientMetrics : Metrics := {}
  workerMetrics : Option Metrics := none
  crashEnabled : Bool := false

/-- The parameters of a query string, as `Get` returns them. -/
abbrev Query := String → GoString

/-- `SessionFromRequest`, from the header of the session. -/
def sessionFromRequest (parsers : Parsers) (header : GoString) :
    Except ServiceError GoString :=
  let raw := trimSpace header
  if raw = [] then
    .error .sessionRequired
  else
    match parsers.parseUUID raw with
    | none => .error .sessionRequired
    | some id => .ok (uuidString id)

/-! ## Queries -/

/-- The statuses a filter may name. -/
def isStatus (status : GoString) : Bool :=
  [TaskStatus.pending, .running, .completed, .canceled, .dead].any
    fun known => status = statusText known

/--
`LIKE` on the bytes of a text.  The wildcards stand for any text and for one
character, and a backslash takes the next byte literally.
-/
def like : GoString → GoString → Bool
  | [], text => text = []
  | 37 :: pattern, text => text.tails.any fun rest => like pattern rest
  | 95 :: pattern, text =>
      match text with
      | [] => false
      | _ :: rest => like pattern (rest.dropWhile isTail)
  | 92 :: byte :: pattern, text =>
      match text with
      | [] => false
      | first :: rest => first = byte && like pattern rest
  | byte :: pattern, text =>
      match text with
      | [] => false
      | first :: rest => first = byte && like pattern rest

/-- Later times come first, and rows at one time in the server's order. -/
def newerFirst (ties : TaskId → Nat) (time : TaskRecord → Time)
    (first second : TaskRecord) : Bool :=
  time second < time first ∨
    (time first = time second ∧ ties first.id ≤ ties second.id)

theorem newerFirst_trans {ties : TaskId → Nat} {time : TaskRecord → Time}
    {first second third : TaskRecord}
    (newer : newerFirst ties time first second = true)
    (newest : newerFirst ties time second third = true) :
    newerFirst ties time first third = true := by
  simp only [newerFirst, decide_eq_true_eq] at newer newest ⊢
  rcases newer with above | ⟨same, ahead⟩
  · rcases newest with higher | ⟨equal, _⟩
    · exact Or.inl (lt_trans higher above)
    · exact Or.inl (equal ▸ above)
  · rcases newest with higher | ⟨equal, further⟩
    · exact Or.inl (same ▸ higher)
    · exact Or.inr ⟨same.trans equal, ahead.trans further⟩

theorem newerFirst_total (ties : TaskId → Nat) (time : TaskRecord → Time)
    (first second : TaskRecord) :
    (newerFirst ties time first second ||
      newerFirst ties time second first) = true := by
  simp only [newerFirst, Bool.or_eq_true, decide_eq_true_eq]
  rcases lt_trichotomy (time first) (time second) with
    older | same | newer
  · exact Or.inr (Or.inl older)
  · rcases le_total (ties first.id) (ties second.id) with ahead | behind
    · exact Or.inl (Or.inr ⟨same, ahead⟩)
    · exact Or.inr (Or.inr ⟨same.symm, behind⟩)
  · exact Or.inl (Or.inl newer)

/-- `ORDER BY created_at DESC`. -/
def orderByCreatedAt (ties : TaskId → Nat) (rows : List TaskRecord) :
    List TaskRecord :=
  rows.mergeSort (newerFirst ties TaskRecord.createdAt)

/-- `ORDER BY locked_at DESC NULLS LAST`. -/
def orderByLockedAt (ties : TaskId → Nat) (rows : List TaskRecord) :
    List TaskRecord :=
  rows.mergeSort fun first second =>
    match first.lockedAt, second.lockedAt with
    | some _, none => true
    | none, some _ => false
    | _, _ =>
        newerFirst ties (fun row => row.lockedAt.getD 0) first second

section Queries

variable (surroundings : Surroundings)

/-- The answer of the server to a query. -/
def answered (position : Nat) (context : String) :
    Except StoreError Unit :=
  match surroundings.faults position with
  | some fault => .error (.wrapped context fault)
  | none => .ok ()

/-- The rows of a page of `List`. -/
def listedRows (filter : TaskListFilter) (rows : List TaskRecord) :
    List TaskRecord :=
  ((orderByCreatedAt surroundings.ties
    (rows.filter filter.accepts)).drop filter.offset.toNat).take
      filter.limit.toNat

/-- `List`.  The filter of the type is a parameter of both queries. -/
def list (filter : TaskListFilter) (rows : List TaskRecord) :
    Except StoreError (List TaskRow × Nat) :=
  match toText filter.type with
  | .error fault => .error (.wrapped "count tasks" fault)
  | .ok _ => do
      answered surroundings 0 "count tasks"
      answered surroundings 1 "list tasks"
      return ((listedRows surroundings filter rows).map scanSummary,
        rows.countP filter.accepts)

/-- The order in which the server returns rows of one creation time. -/
def Surroundings.arrangement : Arrangement where
  arrange := orderByCreatedAt surroundings.ties
  perm rows := List.mergeSort_perm rows _
  descending rows := by
    have sorted :
        (orderByCreatedAt surroundings.ties rows).Pairwise
          fun first second =>
            newerFirst surroundings.ties TaskRecord.createdAt first
              second = true := by
      apply List.pairwise_mergeSort
      · intro first second third
        exact newerFirst_trans
      · exact newerFirst_total surroundings.ties TaskRecord.createdAt
    apply sorted.imp
    intro first second newer
    simp only [newerFirst, decide_eq_true_eq] at newer
    rcases newer with above | ⟨same, _⟩
    · exact above.le
    · exact same.ge

/-- The listing is the one of the queries that `List` assembles. -/
theorem list_eq_store_list {filter : TaskListFilter}
    (readable : filter.Readable) (limited : 0 ≤ filter.limit)
    (skips : 0 ≤ filter.offset) (rows : List TaskRecord) :
    list surroundings filter rows =
      Store.list
        (fun position =>
          if position < 2 then surroundings.faults position else none)
        surroundings.arrangement filter rows := by
  rw [list, toText_of_isText readable.2, Store.list,
    TaskListFilter.countQuery_run readable,
    TaskListFilter.selectQuery_run readable limited skips,
    List.countP_eq_length_filter]
  simp only [answered, roundTrip, Nat.zero_lt_two, Nat.one_lt_two, if_true]
  cases surroundings.faults 0 with
  | some fault => rfl
  | none =>
      cases surroundings.faults 1 with
      | some fault => rfl
      | none =>
          simp only [Except.mapError, Except.bind]
          rw [scanListed_calm fun later reached =>
            if_neg (not_lt.mpr reached)]
          rfl

/-- `GetById`. -/
def getById (id : TaskId) (rows : List TaskRecord) :
    Except StoreError (Option TaskRow) :=
  match surroundings.faults 0 with
  | some fault => .error (.database fault)
  | none => .ok ((rows.find? fun row => row.id = id).map scanTask)

/-- `QueueDBMetrics`. -/
structure QueueMetrics where
  tasksPending : Nat
  tasksRunning : Nat
  tasksCompleted : Nat
  tasksCanceled : Nat
  tasksDead : Nat
  tasksPendingReady : Nat
  tasksPendingDelayed : Nat

/-- `GetQueueDBMetrics`. -/
def getQueueDBMetrics (position : Nat) (rows : List TaskRecord) :
    Except StoreError QueueMetrics := do
  answered surroundings position "get queue db metrics"
  let now := surroundings.serverNow position
  let count := fun status =>
    rows.countP fun row => row.status = status
  return {
    tasksPending := count .pending
    tasksRunning := count .running
    tasksCompleted := count .completed
    tasksCanceled := count .canceled
    tasksDead := count .dead
    tasksPendingReady :=
      rows.countP fun row => row.status = .pending ∧ row.runAt ≤ now
    tasksPendingDelayed :=
      rows.countP fun row => row.status = .pending ∧ now < row.runAt }

/-- `StoredTask`. -/
structure StoredTask where
  id : TaskId
  type : GoString
  payload : GoString := []
  idempotencyKey : Option GoString
  status : TaskStatus
  priority : Int
  attempts : Int
  maxRetries : Int
  runAt : Time
  startedAt : Option Time
  completedAt : Option Time
  lockedAt : Option Time
  lockedBy : Option GoString
  lastError : Option GoString
  createdAt : Time
  updatedAt : Time

/-- The columns that `ListRecent` selects. -/
def scanRecent (row : TaskRecord) : StoredTask :=
  { id := row.id
    type := row.type.bytes
    idempotencyKey := row.idempotencyKey.map Text.bytes
    status := row.status
    priority := row.priority
    attempts := row.attempts
    maxRetries := row.maxRetries
    runAt := row.runAt
    startedAt := row.startedAt
    completedAt := row.completedAt
    lockedAt := row.lockedAt
    lockedBy := row.lockedBy.map Text.bytes
    lastError := row.lastError.map Text.bytes
    createdAt := row.createdAt
    updatedAt := row.updatedAt }

/-- The columns that `GetStoredTask` selects. -/
def scanStored (row : TaskRecord) : StoredTask :=
  { scanRecent row with payload := row.payload }

/-- `TaskView`. -/
structure TaskView where
  id : TaskId
  type : GoString
  status : TaskStatus
  priority : Int
  attempts : Int
  maxRetries : Int
  runAt : Time
  startedAt : Option Time
  completedAt : Option Time
  lockedBy : Option GoString
  lockedAt : Option Time
  lastError : Option GoString
  createdAt : Time
  updatedAt : Time
  durationMS : Option Int
  idempotencyKey : Option GoString

/-- `Time.Sub` in milliseconds, with the limits of a `Duration`. -/
def milliseconds (later earlier : Time) : Int :=
  (max (-9223372036854775) (min 9223372036854775 (later - earlier))).tdiv 1000

/-- The duration that `toTaskView` shows. -/
def shownDuration (task : StoredTask) (now : Time) : Option Int :=
  task.startedAt.bind fun startedAt =>
    match task.status with
    | .pending => none
    | .running => some (milliseconds now startedAt)
    | _ =>
        task.completedAt.map fun completedAt =>
          milliseconds completedAt startedAt

/-- `toTaskView`. -/
def toTaskView (task : StoredTask) (now : Time) : TaskView :=
  { id := task.id
    type := task.type
    status := task.status
    priority := task.priority
    attempts := task.attempts
    maxRetries := task.maxRetries
    runAt := task.runAt
    startedAt := task.startedAt
    completedAt := task.completedAt
    lockedBy := task.lockedBy
    lockedAt := task.lockedAt
    lastError := task.lastError
    createdAt := task.createdAt
    updatedAt := task.updatedAt
    durationMS := shownDuration task now
    idempotencyKey := task.idempotencyKey }

/-- The limit of `ListRecent`. -/
def recentLimit (limit : Int) : Int :=
  let limit := if limit < 1 then 100 else limit
  if 200 < limit then 200 else limit

/-- The `WHERE` clause of `ListRecent`. -/
def recentAccepts (session status : GoString) (row : TaskRecord) : Bool :=
  (session = [] ∨
      row.idempotencyKey.any fun key =>
        like (ascii "demo:" ++ session ++ ascii ":%") key.bytes) ∧
    (status = [] ∨ statusText row.status = status)

/-- The rows that `ListRecent` returns. -/
def recentRows (session status : GoString) (limit : Int)
    (rows : List TaskRecord) : List TaskRecord :=
  (orderByCreatedAt surroundings.ties
    (rows.filter (recentAccepts session status))).take
      (recentLimit limit).toNat

/-- The views of the rows, each at its own time. -/
def recentViews (rows : List TaskRecord) : List TaskView :=
  rows.mapIdx fun index row =>
    toTaskView (scanRecent row) (surroundings.clock index)

/-- `ListRecent`. -/
def listRecent (position : Nat) (session status : GoString) (limit : Int)
    (rows : List TaskRecord) : Except StoreError (List TaskView) := do
  answered surroundings position "list recent tasks"
  return recentViews surroundings
    (recentRows surroundings session status limit rows)

/-- `WorkerLease`. -/
structure WorkerLease where
  workerID : GoString
  taskID : TaskId
  taskType : GoString
  attempts : Int
  lockedAt : Option Time

/-- The lease of a row that is locked. -/
def scanLease (row : TaskRecord) : Option WorkerLease :=
  row.lockedBy.map fun workerID =>
    { workerID := workerID.bytes
      taskID := row.id
      taskType := row.type.bytes
      attempts := row.attempts
      lockedAt := row.lockedAt }

/-- `ListRunning`. -/
def listRunning (position : Nat) (limit : Int)
    (rows : List TaskRecord) : Except StoreError (List WorkerLease) := do
  answered surroundings position "list running tasks"
  let limit := if limit < 1 then 20 else limit
  let running :=
    rows.filter fun row => row.status = .running ∧ row.lockedBy.isSome
  return ((orderByLockedAt surroundings.ties running).take
    limit.toNat).filterMap scanLease

/-- `GetStoredTask`. -/
def getStoredTask (id : TaskId) (rows : List TaskRecord) :
    Except StoreError (Option StoredTask) :=
  match surroundings.faults 0 with
  | some fault => .error (.wrapped "get stored task" fault)
  | none => .ok ((rows.find? fun row => row.id = id).map scanStored)

/-- `TaskLog`. -/
structure TaskLog where
  status : TaskStatus
  message : GoString
  createdAt : Time

/-- `ORDER BY created_at ASC, id ASC`. -/
def olderLog (first second : LogRecord) : Bool :=
  first.createdAt < second.createdAt ∨
    (first.createdAt = second.createdAt ∧ first.id ≤ second.id)

/-- `TaskLogs`. -/
def taskLogs (position : Nat) (id : TaskId) (limit : Int)
    (db : Database) : Except StoreError (List TaskLog) := do
  answered surroundings position "list task logs"
  let limit := if limit < 1 ∨ 200 < limit then 100 else limit
  let entries := ((db.logsOf id).mergeSort olderLog).take limit.toNat
  return entries.map fun entry =>
    ⟨entry.status, entry.message.bytes, entry.createdAt⟩

/-- `Throughput`. -/
structure Throughput where
  enqueuedLastMinute : Nat
  completedLastMinute : Nat
  deadLastMinute : Nat

/-- `Throughput` of the store. -/
def throughput (position : Nat) (rows : List TaskRecord) :
    Except StoreError Throughput := do
  answered surroundings position "throughput query"
  let since := surroundings.serverNow position - minute
  return {
    enqueuedLastMinute := rows.countP fun row => since < row.createdAt
    completedLastMinute :=
      rows.countP fun row => row.completedAt.any (since < ·)
    deadLastMinute :=
      rows.countP fun row => row.status = .dead ∧ since < row.updatedAt }

end Queries

/-! ## The service -/

/-- `WorkerPool`. -/
structure WorkerPool where
  configured : Int
  workerPrefix : GoString
  active : Int
  inflight : Int
  leases : List WorkerLease

/-- `Snapshot`. -/
structure Snapshot where
  generatedAt : Time
  scope : GoString
  statusFilter : GoString
  queue : QueueMetrics
  throughput : Throughput
  clientMetrics : Metrics
  workerMetrics : Metrics
  workerPool : WorkerPool
  tasks : List TaskView
  crashEnabled : Bool

/-- `TaskDetail`. -/
structure TaskDetail where
  task : TaskView
  owned : Bool
  payload : GoString := []
  logs : List TaskLog := []

section Service

variable (runtime : Runtime) (surroundings : Surroundings)

/-- The errors of a query, as the service passes them on. -/
def serviceResult {Result : Type} :
    Except StoreError Result → Except ServiceError Result
  | .error error => .error (.client (.store error))
  | .ok result => .ok result

/-- The scope of a snapshot, if the session fits it. -/
def snapshotScope (session scope : GoString) :
    Except ServiceError GoString :=
  let trimmed := runtime.toLower (trimSpace scope)
  let scope := if trimmed = [] then ascii "all" else trimmed
  if scope ≠ ascii "all" ∧ scope ≠ ascii "mine" then
    .error (.badRequest (ascii "scope must be 'all' or 'mine'"))
  else if scope = ascii "mine" ∧ session = [] then
    .error .sessionRequired
  else
    .ok scope

/-- The status filter of a snapshot. -/
def snapshotStatus (status : GoString) : Except ServiceError GoString :=
  let status := runtime.toUpper (trimSpace status)
  if status = [] ∨ isStatus status then
    .ok status
  else
    .error (.badRequest (ascii "status must be a valid task status"))

/-- The tasks of a snapshot, which shows errors only to their owner. -/
def shownTasks (scope : GoString) (tasks : List TaskView) :
    List TaskView :=
  if scope ≠ ascii "mine" then
    tasks.map fun task => { task with lastError := none }
  else
    tasks

/-- The queries of `Snapshot`. -/
def readSnapshot (session scope status : GoString) (limit : Int)
    (rows : List TaskRecord) : Except StoreError Snapshot := do
  let queue ← getQueueDBMetrics surroundings 0 rows
  let throughput ← throughput surroundings 1 rows
  let querySession := if scope = ascii "mine" then session else []
  let tasks ← listRecent surroundings 2 querySession status limit rows
  let leases ← listRunning surroundings 3 32 rows
  let workerMetrics := surroundings.workerMetrics.getD {}
  return {
    generatedAt := surroundings.clock tasks.length
    scope := scope
    statusFilter := status
    queue := queue
    throughput := throughput
    clientMetrics := surroundings.clientMetrics
    workerMetrics := workerMetrics
    workerPool :=
      { configured := surroundings.workerCount
        workerPrefix := surroundings.workerPrefix
        active := workerMetrics.workersActive
        inflight := workerMetrics.workersInflight
        leases := leases }
    tasks := shownTasks scope tasks
    crashEnabled := surroundings.crashEnabled }

/-- `Snapshot`. -/
def snapshot (session scope status : GoString) (limit : Int)
    (rows : List TaskRecord) : Except ServiceError Snapshot := do
  let scope ← snapshotScope runtime session scope
  let status ← snapshotStatus runtime status
  serviceResult (readSnapshot surroundings session scope status limit rows)

/-- The detail of a task that was found. -/
def detailOf (session : GoString) (task : StoredTask) (db : Database) :
    Except StoreError TaskDetail :=
  let owned := keyBelongsToSession task.idempotencyKey session
  let view := toTaskView task (surroundings.clock 0)
  if !owned then
    .ok { task := { view with lastError := none }, owned := owned }
  else do
    let logs ← taskLogs surroundings 1 task.id 100 db
    return {
      task := view
      owned := owned
      payload := task.payload
      logs := logs }

/-- `TaskDetail` of the service. -/
def taskDetail (session : GoString) (id : TaskId) (db : Database) :
    Except ServiceError TaskDetail :=
  match getStoredTask surroundings id db.tasks.rows with
  | .error error => .error (.client (.store error))
  | .ok none => .error .taskNotFound
  | .ok (some task) =>
      serviceResult (detailOf surroundings session task db)

end Service

/-! ## The encodings -/

/-- A `Task`, with the names of its tags. -/
def encodeTask (task : Task) : Value :=
  .object
    ([("id", .text (uuidString task.id)), ("type", .text task.type),
        ("status", .text ((task.status.map statusText).getD [])),
        ("priority", .int task.priority),
        ("attempts", .int task.attempts),
        ("max_retries", .int task.maxRetries),
        ("run_at", .time task.runAt)] ++
      omitNil "idempotency_key" .text task.idempotencyKey ++
      omitNil "started_at" .time task.startedAt ++
      omitNil "completed_at" .time task.completedAt ++
      omitNil "last_error" .text task.lastError ++
      [("created_at", .time task.createdAt),
        ("updated_at", .time task.updatedAt)])

/-- A `TaskView`.  The tag of its idempotency key is `json:"-"`. -/
def encodeTaskView (view : TaskView) : Value :=
  .object
    ([("id", .text (uuidString view.id)), ("type", .text view.type),
        ("status", .text (statusText view.status)),
        ("priority", .int view.priority),
        ("attempts", .int view.attempts),
        ("max_retries", .int view.maxRetries),
        ("run_at", .time view.runAt)] ++
      omitNil "started_at" .time view.startedAt ++
      omitNil "completed_at" .time view.completedAt ++
      omitNil "locked_by" .text view.lockedBy ++
      omitNil "locked_at" .time view.lockedAt ++
      omitNil "last_error" .text view.lastError ++
      [("created_at", .time view.createdAt),
        ("updated_at", .time view.updatedAt)] ++
      omitNil "duration_ms" .int view.durationMS)

/-- A `WorkerLease`. -/
def encodeLease (lease : WorkerLease) : Value :=
  .object
    ([("worker_id", .text lease.workerID),
        ("task_id", .text (uuidString lease.taskID)),
        ("task_type", .text lease.taskType),
        ("attempts", .int lease.attempts)] ++
      omitNil "locked_at" .time lease.lockedAt)

/-- The `Overview` of a snapshot. -/
def encodeOverview (snapshot : Snapshot) : Value :=
  .object
    [("pending", .int snapshot.queue.tasksPending),
      ("pending_ready", .int snapshot.queue.tasksPendingReady),
      ("pending_delayed", .int snapshot.queue.tasksPendingDelayed),
      ("running", .int snapshot.queue.tasksRunning),
      ("completed", .int snapshot.queue.tasksCompleted),
      ("dead", .int snapshot.queue.tasksDead),
      ("canceled", .int snapshot.queue.tasksCanceled),
      ("workers_active", .int snapshot.workerMetrics.workersActive),
      ("workers_inflight", .int snapshot.workerMetrics.workersInflight),
      ("enqueued_last_minute", .int snapshot.throughput.enqueuedLastMinute),
      ("completed_last_minute", .int snapshot.throughput.completedLastMinute),
      ("dead_last_minute", .int snapshot.throughput.deadLastMinute),
      ("tasks_enqueued_total",
        .int snapshot.clientMetrics.tasksEnqueuedTotal),
      ("tasks_completed_total",
        .int snapshot.workerMetrics.tasksCompletedTotal),
      ("task_attempt_failures_total",
        .int snapshot.workerMetrics.taskAttemptFailuresTotal),
      ("tasks_retried_total", .int snapshot.workerMetrics.tasksRetriedTotal),
      ("tasks_dead_total", .int snapshot.workerMetrics.tasksDeadTotal),
      ("tasks_canceled_total",
        .int snapshot.clientMetrics.tasksCanceledTotal),
      ("tasks_reaped_total", .int snapshot.workerMetrics.tasksReapedTotal)]

/-- A `Snapshot`. -/
def encodeSnapshot (snapshot : Snapshot) : Value :=
  .object
    ([("generated_at", .time snapshot.generatedAt),
        ("scope", .text snapshot.scope)] ++
      (if snapshot.statusFilter = [] then []
        else [("status_filter", .text snapshot.statusFilter)]) ++
      [("overview", encodeOverview snapshot),
        ("worker_pool",
          .object
            [("configured", .int snapshot.workerPool.configured),
              ("prefix", .text snapshot.workerPool.workerPrefix),
              ("active", .int snapshot.workerPool.active),
              ("inflight", .int snapshot.workerPool.inflight),
              ("leases",
                .list (snapshot.workerPool.leases.map encodeLease))]),
        ("tasks", .list (snapshot.tasks.map encodeTaskView)),
        ("crash_enabled", .bool snapshot.crashEnabled)])

/-- A `TaskLog`. -/
def encodeLog (entry : TaskLog) : Value :=
  .object
    [("status", .text (statusText entry.status)),
      ("message", .text entry.message),
      ("created_at", .time entry.createdAt)]

/-- A `TaskDetail`. -/
def encodeDetail (detail : TaskDetail) : Value :=
  .object
    ([("task", encodeTaskView detail.task),
        ("owned", .bool detail.owned)] ++
      (if detail.payload = [] then []
        else [("payload", .raw detail.payload)]) ++
      (if detail.logs = [] then []
        else [("logs", .list (detail.logs.map encodeLog))]))

/-! ## The handlers -/

/-- `sanitizeTask`. -/
def sanitizeTask (task : Task) : Task :=
  { task with idempotencyKey := none, lastError := none }

section Handlers

variable (runtime : Runtime) (parsers : Parsers) (surroundings : Surroundings)

/-- The status filter of `handleListTasks`. -/
def statusParameter (query : Query) : Except Reply GoString :=
  if query "status" = [] then
    .ok []
  else
    let status := runtime.toUpper (trimSpace (query "status"))
    if isStatus status then .ok status
    else
      .error (writeError 400 (ascii "status must be a valid task status"))

/-- The retrying filter of `handleListTasks`. -/
def retryingParameter (query : Query) : Except Reply (Option Bool) :=
  if query "retrying" = [] then
    .ok none
  else
    match parseBool (query "retrying") with
    | none =>
        .error (writeError 400 (ascii "retrying must be true or false"))
    | some retrying => .ok (some retrying)

/-- A number of the query string, with its default and its check. -/
def numberParameter (query : Query) (name : String) (default : Int)
    (valid : Int → Bool) (message : GoString) : Except Reply Int :=
  if query name = [] then
    .ok default
  else
    match parsers.atoi (query name) with
    | none => .error (writeError 400 message)
    | some number =>
        if valid number then .ok number
        else .error (writeError 400 message)

/-- The filter of `handleListTasks`. -/
def listFilter (query : Query) : Except Reply TaskListFilter := do
  let status ← statusParameter runtime query
  let retrying ← retryingParameter query
  let limit ←
    numberParameter parsers query "limit" 20 (fun number => 1 ≤ number)
      (ascii "limit must be a positive integer")
  let offset ←
    numberParameter parsers query "offset" 0 (fun number => 0 ≤ number)
      (ascii "offset must be a non-negative integer")
  return {
    status := status
    type := query "type"
    retrying := retrying
    limit := min limit 100
    offset := offset }

/-- `handleListTasks`, after the rate limiter. -/
def handleListTasks (query : Query) (db : Database) : Reply :=
  match listFilter runtime parsers query with
  | .error reply => reply
  | .ok filter =>
      match list surroundings filter db.tasks.rows with
      | .error _ => writeError 500 (ascii "failed to list tasks")
      | .ok (tasks, total) =>
          let shown := tasks.map fun task => sanitizeTask (newTask task)
          ⟨200, none,
            .object
              [("limit", .int filter.limit),
                ("offset", .int filter.offset),
                ("tasks", .list (shown.map encodeTask)),
                ("total", .int total)]⟩

/-- `handleGetTask`, after the rate limiter. -/
def handleGetTask (pathId : GoString) (db : Database) : Reply :=
  match parsers.parseUUID pathId with
  | none => writeError 400 (ascii "invalid task id")
  | some id =>
      match getById surroundings id db.tasks.rows with
      | .error _ => writeError 500 (ascii "failed to get task")
      | .ok none => writeError 404 (ascii "task not found")
      | .ok (some task) =>
          ⟨200, none, encodeTask (sanitizeTask (newTask task))⟩

/-- The session that `handleSnapshot` reads. -/
def snapshotSession (header scope : GoString) :
    Except ServiceError GoString :=
  if scope = ascii "mine" then
    sessionFromRequest parsers header
  else
    .ok []

/-- `handleSnapshot`, after the rate limiter. -/
def handleSnapshot (header : GoString) (query : Query) (db : Database) :
    Reply :=
  match snapshotSession parsers header (query "scope") with
  | .error error => writeServiceError error
  | .ok session =>
      match numberParameter parsers query "limit" 100
          (fun number => 1 ≤ number ∧ number ≤ 200)
          (ascii "limit must be between 1 and 200") with
      | .error reply => reply
      | .ok limit =>
          match snapshot runtime surroundings session (query "scope")
              (query "status") limit db.tasks.rows with
          | .error error => writeServiceError error
          | .ok snapshot => ⟨200, none, encodeSnapshot snapshot⟩

/-- The session of a request, or none. -/
def viewer (header : GoString) : GoString :=
  match sessionFromRequest parsers header with
  | .error _ => []
  | .ok session => session

/-- `handleTaskDetail`, after the rate limiter. -/
def handleTaskDetail (header pathId : GoString) (db : Database) : Reply :=
  match parsers.parseUUID pathId with
  | none => writeError 400 (ascii "invalid task id")
  | some id =>
      match taskDetail surroundings (viewer parsers header) id db with
      | .error .taskNotFound => writeError 404 (ascii "task not found")
      | .error _ => writeError 500 (ascii "failed to load task")
      | .ok detail => ⟨200, none, encodeDetail detail⟩

/-- The requests that read tasks. -/
inductive Read where
  | listTasks (query : Query)
  | getTask (pathId : GoString)
  | snapshot (query : Query)
  | taskDetail (pathId : GoString)

/-- The reply to a request with the given session header. -/
def respond (header : GoString) (request : Read) (db : Database) :
    Reply :=
  match surroundings.wait with
  | some wait => writeRetryAfter wait
  | none =>
      match request with
      | .listTasks query =>
          handleListTasks runtime parsers surroundings query db
      | .getTask pathId => handleGetTask parsers surroundings pathId db
      | .snapshot query =>
          handleSnapshot runtime parsers surroundings header query db
      | .taskDetail pathId =>
          handleTaskDetail parsers surroundings header pathId db

end Handlers

end Dhara.Playground.Http
