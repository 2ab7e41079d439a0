import Dhara.Store.Statement

/-!
# The methods of the task store

Each method of `PostgresTaskStore` is a transaction program: the statements
in the order of the source, every error branch with its context, the log
messages, and the counters.  A program that is done inside a transaction is
the deferred rollback.

`TaskRow` is the Go structure; `TaskRecord` is the stored row.  The lock
columns of `TaskRow` are left out because no method reads or fills them.
-/

namespace Dhara.Store

open Dhara.Transaction

/-- The zero value of `time.Time`. -/
def zeroTime : Time := -62135596800000000

/-- `TaskRow`.  The status of a row that was never stored is empty. -/
structure TaskRow where
  id : TaskId := 0
  type : GoString := []
  payload : GoString := []
  payloadHash : GoString := []
  idempotencyKey : Option GoString := none
  status : Option TaskStatus := none
  priority : Int := 0
  attempts : Int := 0
  maxRetries : Int := 0
  runAt : Time := zeroTime
  startedAt : Option Time := none
  completedAt : Option Time := none
  lastError : Option GoString := none
  createdAt : Time := zeroTime
  updatedAt : Time := zeroTime
deriving DecidableEq

/--
The errors of the store: the sentinels of `dharatype`, the errors of the
driver with the context they are wrapped in, an undecodable payload, and the
panic of dereferencing a missing idempotency key.
-/
inductive StoreError where
  | taskConflict
  | taskNotFound
  | taskNotAvailable
  | taskOwnershipLost
  | taskNotDead
  | noRows
  | invalidPayload
  | nilDereference
  | database (fault : Fault)
  | wrapped (context : String) (fault : Fault)
deriving DecidableEq

/-- The process counters the store moves. -/
inductive Counter where
  | tasksEnqueuedTotal
  | tasksCanceledTotal
  | tasksCompletedTotal
  | taskAttemptFailuresTotal
  | tasksRetriedTotal
  | tasksDeadTotal
  | tasksReapedTotal
deriving DecidableEq

/-- What a method returns. -/
inductive Response where
  | created (task : TaskRow) (result : Except StoreError Bool)
  | enqueued (results : List (TaskRow × Except StoreError Bool))
      (committed : Except StoreError Bool)
  | task (result : Except StoreError TaskRow)
  | unit (result : Except StoreError Unit)
  | count (result : Except StoreError Nat)
deriving DecidableEq

/-- The result of `Create`, and what is seen of the task it leaves. -/
def Response.creation {Seen : Type} (seen : TaskRow → Seen) :
    Response → Option (Seen × Except StoreError Bool)
  | .created returned result => some (seen returned, result)
  | _ => none

/-- A method in progress. -/
abbrev StoreProgram (Result : Type) :=
  Program Stmt Reply Fault Counter Result

/-! ## Scans -/

/-- The columns returned by the updates of `Cancel` and `RetryDead`. -/
def scanSummary (row : TaskRecord) : TaskRow :=
  { id := row.id
    type := row.type.bytes
    idempotencyKey := row.idempotencyKey.map Text.bytes
    status := some row.status
    priority := row.priority
    attempts := row.attempts
    maxRetries := row.maxRetries
    runAt := row.runAt
    startedAt := row.startedAt
    completedAt := row.completedAt
    lastError := row.lastError.map Text.bytes
    createdAt := row.createdAt
    updatedAt := row.updatedAt }

/-- The columns `GetById` selects. -/
def scanTask (row : TaskRecord) : TaskRow :=
  { scanSummary row with payload := row.payload }

/-- The columns `getByTypeAndIdempotencyKey` selects. -/
def scanHashed (row : TaskRecord) : TaskRow :=
  { scanTask row with payloadHash := row.payloadHash }

/-- The columns the update of `Claim` returns. -/
def scanClaimed (row : TaskRecord) : TaskRow :=
  { id := row.id
    type := row.type.bytes
    payload := row.payload
    attempts := row.attempts
    maxRetries := row.maxRetries
    idempotencyKey := row.idempotencyKey.map Text.bytes }

/-- The columns the `INSERT` of `insertTask` returns. -/
def scanInserted (task : TaskRow) (row : TaskRecord) : TaskRow :=
  { task with
    id := row.id
    status := some row.status
    attempts := row.attempts
    createdAt := row.createdAt
    updatedAt := row.updatedAt }

/-! ## Round trips with their error branch -/

section RoundTrips

variable {Result : Type} (fail : StoreError → Result)

/-- `ts.db.Begin`. -/
def openTx (next : StoreProgram Result) : StoreProgram Result :=
  .begin fun
    | .error fault => .done (fail (.wrapped "begin tx" fault))
    | .ok () => next

/-- A statement without a result, in the transaction. -/
def sendTx (stmt : Stmt) (context : String)
    (next : StoreProgram Result) : StoreProgram Result :=
  .exec stmt fun
    | .error fault => .done (fail (.wrapped context fault))
    | .ok _ => next

/-- `insertLog`. -/
def insertLog (id : TaskId) (status : TaskStatus) (message : GoString)
    (context : String) (next : StoreProgram Result) :
    StoreProgram Result :=
  sendTx fail (.insertLog id status message) context next

/-- `tx.Commit`. -/
def commitTx (context : String) (next : StoreProgram Result) :
    StoreProgram Result :=
  .commit fun
    | .error fault => .done (fail (.wrapped context fault))
    | .ok () => next

/-- `GetById`: no row is a nil task. -/
def getById (id : TaskId) (next : Option TaskRow → StoreProgram Result) :
    StoreProgram Result :=
  .query (.getById id) fun
    | .error fault => .done (fail (.database fault))
    | .ok none => next none
    | .ok (some row) => next (some (scanTask row))

end RoundTrips

/-! ## Enqueueing -/

section Enqueue

variable (platform : Platform) {Result : Type}

/-- `getByTypeAndIdempotencyKey`. -/
def getByTypeAndIdempotencyKey (type key : GoString)
    (next : Except StoreError TaskRow → StoreProgram Result) :
    StoreProgram Result :=
  .exec (.getByTypeAndIdempotencyKey type key) fun
    | .error fault => next (.error (.database fault))
    | .ok none => next (.error .noRows)
    | .ok (some row) => next (.ok (scanHashed row))

/-- The parameters of the `INSERT` for a task. -/
def TaskRow.insertArgs (task : TaskRow) (payloadHash : GoString) :
    InsertArgs :=
  { type := task.type
    payload := task.payload
    payloadHash
    idempotencyKey := task.idempotencyKey
    priority := task.priority
    maxRetries := task.maxRetries
    runAt := task.runAt }

/--
The replay branch of `insertTask`: compare the hash of the existing task.
-/
def replayTask (task : TaskRow) (payloadHash : GoString)
    (next : TaskRow → Except StoreError Bool → StoreProgram Result) :
    StoreProgram Result :=
  match task.idempotencyKey with
  | none => next task (.error .nilDereference)
  | some key =>
      getByTypeAndIdempotencyKey task.type key fun
        | .error error => next task (.error error)
        | .ok existing =>
            if existing.payloadHash = payloadHash then
              next existing (.ok false)
            else
              next task (.error .taskConflict)

/--
`insertTask`.  Only `ErrNoRows` is looked at after the `INSERT`; any other
error falls through to the branch that reports a created task.
-/
def insertTask (task : TaskRow)
    (next : TaskRow → Except StoreError Bool → StoreProgram Result) :
    StoreProgram Result :=
  match hashPayload platform task.payload with
  | none => next task (.error .invalidPayload)
  | some payloadHash =>
      .exec (.insertTask (task.insertArgs payloadHash)) fun
        | .ok none => replayTask task payloadHash next
        | .ok (some row) =>
            .count .tasksEnqueuedTotal 1
              (next (scanInserted task row) (.ok true))
        | .error _ =>
            .count .tasksEnqueuedTotal 1 (next task (.ok true))

/-- `CreateTx`. -/
def createTx (task : TaskRow)
    (next : TaskRow → Except StoreError Bool → StoreProgram Result) :
    StoreProgram Result :=
  insertTask platform task next

/-- `Create`. -/
def create (task : TaskRow) : StoreProgram Response :=
  openTx (fun error => .created task (.error error))
    (createTx platform task fun task result =>
      match result with
      | .error error => .done (.created task (.error error))
      | .ok created =>
          commitTx (fun error => .created task (.error error))
            "commit tx" (.done (.created task (.ok created))))

/-- `CreateTx` on one task after the other, whatever they return. -/
def createEach :
    List TaskRow →
      List (TaskRow × Except StoreError Bool) →
      (List (TaskRow × Except StoreError Bool) → StoreProgram Result) →
      StoreProgram Result
  | [], results, next => next results
  | task :: rest, results, next =>
      createTx platform task fun task result =>
        createEach rest (results ++ [(task, result)]) next

/--
A caller-owned transaction: `CreateTx` on each task, then a commit or a
rollback that depends on what the calls returned.
-/
def callerTx (tasks : List TaskRow)
    (commits : List (TaskRow × Except StoreError Bool) → Bool) :
    StoreProgram Response :=
  openTx (fun error => .enqueued [] (.error error))
    (createEach platform tasks [] fun results =>
      if commits results then
        commitTx (fun error => .enqueued results (.error error))
          "commit tx" (.done (.enqueued results (.ok true)))
      else
        .done (.enqueued results (.ok false)))

end Enqueue

/-! ## Clients -/

/-- A failed method that returns a task. -/
def failTask (error : StoreError) : Response :=
  .task (.error error)

/-- A failed method that returns nothing. -/
def failUnit (error : StoreError) : Response :=
  .unit (.error error)

/-- A failed method that returns a count. -/
def failCount (error : StoreError) : Response :=
  .count (.error error)

/--
`Cancel`.  If no row is updated, the current state is read on a connection of
its own.
-/
def cancel (id : TaskId) : StoreProgram Response :=
  openTx failTask
    (.exec (.update id .cancel) fun
      | .error fault =>
          .done (failTask (.wrapped "cancel task" fault))
      | .ok none =>
          getById failTask id fun
            | none => .done (failTask .taskNotFound)
            | some current => .done (.task (.ok current))
      | .ok (some row) =>
          insertLog failTask row.id .canceled
            (ascii "task canceled by user request") "insert cancel log"
            (commitTx failTask "commit cancel"
              (.count .tasksCanceledTotal 1
                (.done (.task (.ok (scanSummary row)))))))

/-- `RetryDead`. -/
def retryDead (taskID : TaskId) : StoreProgram Response :=
  openTx failTask
    (.exec (.update taskID .retryDead) fun
      | .error fault =>
          .done (failTask (.wrapped "retry dead task" fault))
      | .ok none =>
          getById failTask taskID fun
            | none => .done (failTask .taskNotFound)
            | some _ => .done (failTask .taskNotDead)
      | .ok (some row) =>
          sendTx failTask (.deleteDeadLetters taskID)
            "delete dead letter"
            (insertLog failTask taskID .pending
              (ascii "manual retry requested") "insert retry log"
              (commitTx failTask "commit retry dead"
                (.done (.task (.ok (scanSummary row)))))))

/-! ## Workers -/

/-- The log message of `Claim`. -/
def claimLogMessage (workerID : GoString) (task : TaskRow) : GoString :=
  ascii "claimed by worker " ++ workerID ++ ascii " (attempt " ++
    itoa task.attempts ++ ascii "/" ++ itoa task.maxRetries ++ ascii ")"

/-- `Claim`. -/
def claim (workerID : GoString) : StoreProgram Response :=
  openTx failTask
    (.exec (.selectDue workerID) fun
      | .error fault => .done (failTask (.database fault))
      | .ok none => .done (failTask .taskNotAvailable)
      | .ok (some id) =>
          .exec (.update id (.claim workerID)) fun
            | .error fault => .done (failTask (.database fault))
            | .ok none => .done (failTask .taskNotAvailable)
            | .ok (some row) =>
                insertLog failTask row.id .running
                  (claimLogMessage workerID (scanClaimed row))
                  "insert claim log"
                  (commitTx failTask "commit claim"
                    (.done (.task (.ok (scanClaimed row))))))

/-- `Heartbeat`. -/
def heartbeat (taskID : TaskId) (workerID : GoString) :
    StoreProgram Response :=
  .query (.update taskID (.heartbeat workerID)) fun
    | .error fault => .done (failUnit (.wrapped "hearbeat task" fault))
    | .ok none => .done (failUnit .taskOwnershipLost)
    | .ok (some _) => .done (.unit (.ok ()))

/-- The log message of `MarkCompleted`. -/
def completedLogMessage (workerID : GoString) (durationMs : Int) :
    GoString :=
  ascii "completed by worker " ++ workerID ++ ascii " after " ++
    itoa durationMs ++ ascii "ms"

/-- The log message of `MarkPending`. -/
def pendingLogMessage (task : TaskRow) (lastError : GoString)
    (nextRunAt : Time) : GoString :=
  ascii "attempt " ++ itoa task.attempts ++ ascii "/" ++
    itoa task.maxRetries ++ ascii " failed, retrying at " ++
    formatRFC3339 nextRunAt ++ ascii ": " ++ lastError

/-- The log message of `MarkDead`. -/
def deadLogMessage (reason : GoString) : GoString :=
  ascii "marked dead: " ++ reason

/--
The common start of the three methods that end an execution: open a
transaction and update the row if the worker still owns it.
-/
def updateOwned (taskID : TaskId) (update : Update) (context : String)
    (next : StoreProgram Response) : StoreProgram Response :=
  openTx failUnit
    (.exec (.update taskID update) fun
      | .error fault => .done (failUnit (.wrapped context fault))
      | .ok none => .done (failUnit .taskOwnershipLost)
      | .ok (some _) => next)

/-- `MarkCompleted`. -/
def markCompleted (taskID : TaskId) (workerID : GoString)
    (durationMs : Int) : StoreProgram Response :=
  updateOwned taskID (.markCompleted workerID) "mark complete"
    (insertLog failUnit taskID .completed
      (completedLogMessage workerID durationMs) "insert complete log"
      (commitTx failUnit "commit complete"
        (.count .tasksCompletedTotal 1 (.done (.unit (.ok ()))))))

/-- `MarkPending`. -/
def markPending (task : TaskRow) (workerID lastError : GoString)
    (nextRunAt : Time) : StoreProgram Response :=
  updateOwned task.id (.markPending workerID lastError nextRunAt)
    "mark pending"
    (insertLog failUnit task.id .pending
      (pendingLogMessage task lastError nextRunAt) "insert pending log"
      (commitTx failUnit "commit pending"
        (.count .taskAttemptFailuresTotal 1
          (.count .tasksRetriedTotal 1 (.done (.unit (.ok ())))))))

/-- `MarkDead`. -/
def markDead (taskID : TaskId) (workerID lastError reason : GoString) :
    StoreProgram Response :=
  updateOwned taskID (.markDead workerID lastError) "mark dead"
    (sendTx failUnit (.insertDeadLetter taskID lastError)
      "insert dead letter"
      (insertLog failUnit taskID .dead (deadLogMessage reason)
        "insert dead log"
        (commitTx failUnit "commit dead"
          (.count .taskAttemptFailuresTotal 1
            (.count .tasksDeadTotal 1 (.done (.unit (.ok ()))))))))

/-! ## Reapers -/

/-- The log message for one reaped task. -/
def reaperLogMessage (reaperID : GoString) (task : ReapedTask) :
    GoString :=
  let progress := itoa task.attempts ++ ascii "/" ++ itoa task.maxRetries
  match task.status with
  | .pending =>
      ascii "reaped by " ++ reaperID ++
        ascii ": stale heartbeat; previous worker=" ++ task.lockedBy ++
        ascii "; attempt " ++ progress ++ ascii " requeued"
  | .dead =>
      ascii "reaped by " ++ reaperID ++
        ascii ": stale heartbeat; previous worker=" ++ task.lockedBy ++
        ascii "; attempt exhausted (" ++ progress ++ ascii ")"
  | _ => ascii "reaped by " ++ reaperID ++ ascii ": stale heartbeat"

/-- The `rows.Next` loop and the check of `rows.Err`. -/
def scanReaped (next : StoreProgram Response) :
    List ReapedTask → StoreProgram Response
  | [] =>
      .scan fun
        | .error fault =>
            .done (failCount (.wrapped "iterate reaped rows" fault))
        | .ok () => next
  | _ :: rest =>
      .scan fun
        | .error fault =>
            .done (failCount (.wrapped "scan reaped row" fault))
        | .ok () => scanReaped next rest

/-- The loop that logs every reaped task. -/
def logReaped (reaperID : GoString) (next : StoreProgram Response) :
    List ReapedTask → StoreProgram Response
  | [] => next
  | task :: rest =>
      insertLog failCount task.id task.status
        (reaperLogMessage reaperID task) "insert reaper log"
        (logReaped reaperID next rest)

/-- `RequeueStaleRunning`. -/
def requeueStaleRunning (staleThreshold : Time) (reaperID : GoString) :
    StoreProgram Response :=
  openTx failCount
    (.exec (.requeueStale staleThreshold) fun
      | .error fault =>
          .done (failCount (.wrapped "requeue stale running" fault))
      | .ok reaped =>
          scanReaped
            (logReaped reaperID
              (commitTx failCount "commit requeue stale running"
                (.count .tasksReapedTotal reaped.length
                  (.done (.count (.ok reaped.length)))))
              reaped)
            reaped)

/-! ## Calls -/

/-- A call of one of the methods that can change the database. -/
inductive Call where
  | create (task : TaskRow)
  | callerTx (tasks : List TaskRow)
      (commits : List (TaskRow × Except StoreError Bool) → Bool)
  | cancel (id : TaskId)
  | claim (workerID : GoString)
  | heartbeat (taskID : TaskId) (workerID : GoString)
  | markCompleted (taskID : TaskId) (workerID : GoString)
      (durationMs : Int)
  | markPending (task : TaskRow) (workerID lastError : GoString)
      (nextRunAt : Time)
  | markDead (taskID : TaskId) (workerID lastError reason : GoString)
  | retryDead (taskID : TaskId)
  | requeueStaleRunning (staleThreshold : Time) (reaperID : GoString)

/-- The program of a call. -/
def Call.program (platform : Platform) : Call → StoreProgram Response
  | .create task => Store.create platform task
  | .callerTx tasks commits => Store.callerTx platform tasks commits
  | .cancel id => Store.cancel id
  | .claim workerID => Store.claim workerID
  | .heartbeat taskID workerID => Store.heartbeat taskID workerID
  | .markCompleted taskID workerID durationMs =>
      Store.markCompleted taskID workerID durationMs
  | .markPending task workerID lastError nextRunAt =>
      Store.markPending task workerID lastError nextRunAt
  | .markDead taskID workerID lastError reason =>
      Store.markDead taskID workerID lastError reason
  | .retryDead taskID => Store.retryDead taskID
  | .requeueStaleRunning staleThreshold reaperID =>
      Store.requeueStaleRunning staleThreshold reaperID

end Dhara.Store
