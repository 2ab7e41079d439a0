import Dhara.Store.TaskStore

/-!
# The public types

The tasks a client sees, and the parameters it inserts them with.  Durations
are in microseconds, as all times of the model are.
-/

namespace Dhara

open Dhara.Store

/-- `Task`.  The payload is not part of it. -/
structure Task where
  id : TaskId
  type : GoString
  status : Option TaskStatus
  priority : Int
  attempts : Int
  maxRetries : Int
  runAt : Time
  idempotencyKey : Option GoString
  startedAt : Option Time
  completedAt : Option Time
  lastError : Option GoString
  createdAt : Time
  updatedAt : Time
deriving DecidableEq

/-- The last error a client is shown. -/
def visibleError (task : TaskRow) : Option GoString :=
  match task.status with
  | some .dead => task.lastError
  | some .running => task.lastError
  | some .pending => if 0 < task.attempts then task.lastError else none
  | _ => none

/-- `newTask`. -/
def newTask (task : TaskRow) : Task :=
  { id := task.id
    type := task.type
    status := task.status
    priority := task.priority
    attempts := task.attempts
    maxRetries := task.maxRetries
    runAt := task.runAt
    idempotencyKey := task.idempotencyKey
    startedAt := task.startedAt
    completedAt := task.completedAt
    lastError := visibleError task
    createdAt := task.createdAt
    updatedAt := task.updatedAt }

/-- `EnqueueResult`. -/
structure EnqueueResult where
  task : Task
  duplicate : Bool
deriving DecidableEq

/-- `InsertParams`.  A missing field is a nil pointer. -/
structure InsertParams where
  type : GoString
  payload : Option GoString := none
  idempotencyKey : Option GoString := none
  priority : Option Int := none
  maxRetries : Option Int := none
  runAt : Option Time := none

/-- `DefaultPriority`. -/
def defaultPriority : Int := 0

/-- `DefaultMaxRetries`. -/
def defaultMaxRetries : Int := 5

/-- Parameters after `Normalize`, in which only the key may be missing. -/
structure NormalParams where
  type : GoString
  payload : GoString
  idempotencyKey : Option GoString
  priority : Int
  maxRetries : Int
  runAt : Time

/-- `Normalize`. -/
def InsertParams.normalize (params : InsertParams) (now : Time) :
    NormalParams :=
  { type := params.type
    payload := params.payload.getD (ascii "\x7b\x7d")
    idempotencyKey := params.idempotencyKey
    priority := params.priority.getD defaultPriority
    maxRetries := params.maxRetries.getD defaultMaxRetries
    runAt := params.runAt.getD now }

/-- One minute. -/
def minute : Time := 60000000

/-- `Validate`. -/
def NormalParams.validate (params : NormalParams) (now : Time) :
    Except String Unit :=
  if params.type = [] then
    .error "type is required"
  else if 100 < params.type.length then
    .error "type must be 100 characters or fewer"
  else if params.priority < 0 ∨ 100 < params.priority then
    .error "priority must be between 0 and 100"
  else if params.maxRetries < 0 ∨ 20 < params.maxRetries then
    .error "max_retries must be between 0 and 20"
  else if params.idempotencyKey.any fun key => 255 < key.length then
    .error "idempotency_key must be 255 characters or fewer"
  else if 64 * 1024 < params.payload.length then
    .error "payload must not exceed 64KB"
  else if params.runAt < now - 5 * minute then
    .error "run_at cannot be in the past"
  else if now + 30 * 24 * 60 * minute < params.runAt then
    .error "run_at cannot be more than 30 days in the future"
  else
    .ok ()

/-- `toStoreTask`. -/
def NormalParams.toStoreTask (params : NormalParams) : TaskRow :=
  { type := params.type
    payload := params.payload
    idempotencyKey := params.idempotencyKey
    priority := params.priority
    maxRetries := params.maxRetries
    runAt := params.runAt }

/-- `EnqueueOption`. -/
abbrev EnqueueOption := InsertParams → InsertParams

/-- `WithIdempotencyKey`. -/
def withIdempotencyKey (key : GoString) : EnqueueOption :=
  fun params => { params with idempotencyKey := some key }

/-- `WithPriority`. -/
def withPriority (priority : Int) : EnqueueOption :=
  fun params => { params with priority := some priority }

/-- `WithMaxRetries`. -/
def withMaxRetries (maxRetries : Int) : EnqueueOption :=
  fun params => { params with maxRetries := some maxRetries }

/-- `WithRunAt`. -/
def withRunAt (runAt : Time) : EnqueueOption :=
  fun params => { params with runAt := some runAt }

end Dhara
