import Mathlib.Algebra.Group.Int.Defs
import Mathlib.Algebra.Group.Nat.Defs
import Dhara.Schema
import Dhara.Store.HashUtils
import Dhara.Transaction.Program

/-!
# The SQL statements of the task store

Every statement of the store is a constructor of `Stmt`, and `eval` is its
meaning on the state its transaction sees: the reply the driver scans, the
row changes, and the row locks it takes.  The `WHERE` and `SET` clauses of
the eight guarded updates are the cases of `Change.guard` and `Change.set`.

The reserved resources are the task rows and the pairs of a type and an
idempotency key.  An uncommitted insertion holds both.
-/

namespace Dhara.Store

open Dhara.Transaction

variable {value : GoString} {db : Database}

/-! ## Faults -/

/-- The errors the server reports for a statement. -/
inductive SqlState where
  | stringDataRightTruncation
  | numericValueOutOfRange
  | datetimeFieldOverflow
  | characterNotInRepertoire
  | invalidTextRepresentation
  | foreignKeyViolation
  | uniqueViolation
  | checkViolation
  | inFailedSqlTransaction
  | other (code : Nat)
deriving DecidableEq, Repr

/--
The errors of the driver.

A done context and an argument that cannot be encoded are noticed before the
statement is sent.
-/
inductive Fault where
  | connection
  | contextDone
  | encodeArgs
  | txClosed
  | txCommitRollback
  | server (state : SqlState)
deriving DecidableEq, Repr

/-- The fault is raised before the statement reaches the server. -/
def Fault.driverSide : Fault → Bool
  | .contextDone => true
  | .encodeArgs => true
  | _ => false

theorem bind_eq_ok_iff {Error First Second : Type}
    {value : Except Error First} {next : First → Except Error Second}
    {result : Second} :
    value.bind next = .ok result ↔
      ∃ first, value = .ok first ∧ next first = .ok result := by
  cases value <;> simp [Except.bind]

theorem map_eq_ok_iff {First Second : Type}
    {value : Except Fault First} {next : First → Second}
    {result : Second} :
    value.map next = .ok result ↔
      ∃ first, value = .ok first ∧ next first = result := by
  cases value <;> simp [Except.map]

/-! ## Column types -/

/-- Encode a Go string as a text parameter. -/
def toText (value : GoString) : Except Fault Text :=
  if valid : isText value = true then
    .ok ⟨value, valid⟩
  else
    .error (.server .characterNotInRepertoire)

/-- The first `limit` characters, by their leading bytes. -/
def takeRunes : Nat → GoString → GoString
  | _, [] => []
  | limit, byte :: rest =>
      if isTail byte then
        byte :: takeRunes limit rest
      else
        match limit with
        | 0 => []
        | limit + 1 => byte :: takeRunes limit rest

/--
Assignment to a `VARCHAR` column.  An excess of spaces is cut off, any other
excess is an error.
-/
def varchar (limit : Nat) (value : Text) : Except Fault Text :=
  if (runeCount value.bytes).any (· ≤ limit) then
    .ok value
  else if (value.bytes.drop (takeRunes limit value.bytes).length).all
      (· = 32) then
    toText (takeRunes limit value.bytes)
  else
    .error (.server .stringDataRightTruncation)

/-- The largest value of an `INT` column. -/
def maxInt4 : Int := 2147483647

/-- Encode a Go integer as an `INT` parameter. -/
def int4 (value : Int) : Except Fault Int :=
  if -2147483648 ≤ value ∧ value ≤ maxInt4 then
    .ok value
  else
    .error .encodeArgs

/-- The microseconds from the epoch of Go to that of `TIMESTAMPTZ`. -/
def epoch : Time := 946684800000000

/-- The timestamp that pgx sends for a Go time: 64 bits of microseconds. -/
def sentTime (value : Time) : Time :=
  (value - epoch).bmod (2 ^ 64) + epoch

/-- A value of `TIMESTAMPTZ`.  The ends of the 64 bits are the infinities. -/
def IsTimestamp (value : Time) : Prop :=
  (-210866803200000000 ≤ value ∧ value < 9224318016000000000) ∨
    value = epoch - 2 ^ 63 ∨ value = epoch + (2 ^ 63 - 1)

instance : DecidablePred IsTimestamp :=
  fun _ => inferInstanceAs (Decidable (_ ∨ _))

/-- Encode a Go time as a `TIMESTAMPTZ` parameter. -/
def timestamptz (value : Time) : Except Fault Time :=
  if IsTimestamp (sentTime value) then
    .ok (sentTime value)
  else
    .error (.server .datetimeFieldOverflow)

theorem timestamptz_eq_ok_iff {value stored : Time} :
    timestamptz value = .ok stored ↔
      IsTimestamp (sentTime value) ∧ sentTime value = stored := by
  unfold timestamptz
  split_ifs with inside <;> simp [inside]

/-- Convert a payload parameter to `JSONB`. -/
def toJsonb (platform : Platform) (payload : GoString) :
    Except Fault GoString :=
  match platform.jsonb payload with
  | some stored => .ok stored
  | none => .error (.server .invalidTextRepresentation)

theorem toText_eq_ok_iff {text : Text} :
    toText value = .ok text ↔ text.bytes = value := by
  unfold toText
  split_ifs with valid
  · simp only [Except.ok.injEq]
    constructor
    · intro equal
      rw [← equal]
    · intro equal
      exact Text.ext equal.symm
  · constructor
    · intro equal
      cases equal
    · intro equal
      exact absurd (equal ▸ text.valid) valid

/-- A text within the limit is stored as it is. -/
theorem toText_of_isText (valid : isText value = true) :
    toText value = .ok ⟨value, valid⟩ :=
  dif_pos valid

theorem isText_of_toText {text : Text}
    (encoded : toText value = .ok text) : isText value = true := by
  rw [← toText_eq_ok_iff.mp encoded]
  exact text.valid

theorem varchar_of_length
    {limit : Nat} {value : Text} (short : value.bytes.length ≤ limit) :
    varchar limit value = .ok value := by
  have valid := value.valid
  simp only [isText, Bool.and_eq_true] at valid
  rcases Option.isSome_iff_exists.mp valid.1 with ⟨count, counted⟩
  have bounded := runeCount_le_length counted
  have within : (runeCount value.bytes).any (· ≤ limit) = true := by
    rw [counted]
    simp only [Option.any_some, decide_eq_true_eq]
    omega
  rw [varchar, if_pos within]

/-- The first characters and the rest. -/
theorem takeRunes_append (limit : Nat) (bytes : GoString) :
    ∃ rest, takeRunes limit bytes ++ rest = bytes := by
  fun_induction takeRunes limit bytes with
  | case1 => exact ⟨[], rfl⟩
  | case2 limit byte rest tail induction =>
      rcases induction with ⟨excess, equal⟩
      exact ⟨excess, by rw [List.cons_append, equal]⟩
  | case3 byte rest => exact ⟨byte :: rest, rfl⟩
  | case4 limit byte rest head induction =>
      rcases induction with ⟨excess, equal⟩
      exact ⟨excess, by rw [List.cons_append, equal]⟩

/-- A text that does not end in a space is stored as it is, if at all. -/
theorem varchar_of_getLast
    {limit : Nat} {value stored : Text} {last : UInt8}
    (ends : value.bytes.getLast? = some last) (solid : last ≠ 32)
    (fitted : varchar limit value = .ok stored) : stored = value := by
  unfold varchar at fitted
  split_ifs at fitted with short spaces
  · cases fitted
    rfl
  · rcases takeRunes_append limit value.bytes with ⟨excess, equal⟩
    generalize takeRunes limit value.bytes = kept at *
    have bound := toText_eq_ok_iff.mp fitted
    rw [← equal, List.drop_left, List.all_eq_true] at spaces
    apply Text.ext
    rw [bound, ← equal]
    cases excess with
    | nil => simp
    | cons first rest =>
        rw [← equal, List.getLast?_append_cons] at ends
        have space := spaces last (List.mem_of_getLast? ends)
        exact (solid (by simpa using space)).elim

/-! ## Guarded updates -/

/-- The updates of `tasks`, with their parameters bound. -/
inductive Change where
  | cancel
  | claim (workerID : Text)
  | heartbeat (workerID : Text)
  | markCompleted (workerID : Text)
  | markPending (workerID lastError : Text) (runAt : Time)
  | markDead (workerID lastError : Text)
  | retryDead
  | toDead
  | toPending
deriving DecidableEq

/-- The literal of the `to_dead` clause of the reaper. -/
def staleDeadError : Text :=
  ⟨ascii "reaped: stale heartbeat (max retries exhausted)", by decide +kernel⟩

/-- The literal of the `to_pending` clause of the reaper. -/
def stalePendingError : Text :=
  ⟨ascii "reaped: stale heartbeat", by decide +kernel⟩

/-- The `WHERE` clauses, apart from the primary key. -/
def Change.guard : Change → TaskRecord → Bool
  | .cancel, row => row.status = .pending
  | .claim _, _ => true
  | .heartbeat workerID, row => row.ownedBy workerID
  | .markCompleted workerID, row => row.ownedBy workerID
  | .markPending workerID _ _, row => row.ownedBy workerID
  | .markDead workerID _, row => row.ownedBy workerID
  | .retryDead, row => row.status = .dead
  | .toDead, row => row.maxRetries ≤ row.attempts
  | .toPending, row => (row.attempts : Int) < row.maxRetries

/-- The `SET` clauses. -/
def Change.set (now : Time) : Change → TaskRecord → TaskRecord
  | .cancel, row => { row with status := .canceled, updatedAt := now }
  | .claim workerID, row =>
      { row with
        status := .running
        lockedBy := some workerID
        lockedAt := some now
        startedAt := some now
        attempts := row.attempts + 1
        updatedAt := now }
  | .heartbeat _, row =>
      { row with lockedAt := some now, updatedAt := now }
  | .markCompleted _, row =>
      { row with
        status := .completed
        completedAt := some now
        lockedBy := none
        lockedAt := none
        updatedAt := now }
  | .markPending _ lastError runAt, row =>
      { row with
        status := .pending
        lastError := some lastError
        runAt := runAt
        lockedBy := none
        lockedAt := none
        updatedAt := now }
  | .markDead _ lastError, row =>
      { row with
        status := .dead
        lastError := some lastError
        lockedBy := none
        lockedAt := none
        updatedAt := now }
  | .retryDead, row =>
      { row with
        status := .pending
        attempts := 0
        runAt := now
        lockedBy := none
        lockedAt := none
        startedAt := none
        completedAt := none
        lastError := none
        updatedAt := now }
  | .toDead, row =>
      { row with
        status := .dead
        lastError := some staleDeadError
        lockedBy := none
        lockedAt := none
        updatedAt := now }
  | .toPending, row =>
      { row with
        status := .pending
        lastError := some stalePendingError
        runAt := now
        lockedBy := none
        lockedAt := none
        updatedAt := now }

/-- The new value of `attempts` does not fit its column. -/
def Change.overflows : Change → TaskRecord → Bool
  | .claim _, row => maxInt4 < row.attempts + 1
  | _, _ => false

/-- No update touches the fixed columns. -/
@[simp]
theorem Change.set_fixed
    (change : Change) (now : Time) (row : TaskRecord) :
    (change.set now row).fixed = row.fixed := by
  cases change <;> rfl

@[simp]
theorem Change.set_id
    (change : Change) (now : Time) (row : TaskRecord) :
    (change.set now row).id = row.id := by
  cases change <;> rfl

@[simp]
theorem Change.set_identity
    (change : Change) (now : Time) (row : TaskRecord) :
    (change.set now row).identity = row.identity :=
  TaskRecord.identity_of_fixed (change.set_fixed now row)

/-- The guarded updates of a single row, with the arguments of the call. -/
inductive Update where
  | cancel
  | claim (workerID : GoString)
  | heartbeat (workerID : GoString)
  | markCompleted (workerID : GoString)
  | markPending (workerID lastError : GoString) (runAt : Time)
  | markDead (workerID lastError : GoString)
  | retryDead
deriving DecidableEq

/-- Bind the parameters of an update. -/
def Update.encode : Update → Except Fault Change
  | .cancel => .ok .cancel
  | .claim workerID =>
      (toText workerID).bind fun text =>
        (varchar 100 text).map .claim
  | .heartbeat workerID => (toText workerID).map .heartbeat
  | .markCompleted workerID => (toText workerID).map .markCompleted
  | .markPending workerID lastError runAt =>
      (toText workerID).bind fun worker =>
        (toText lastError).bind fun error =>
          (timestamptz runAt).map fun time =>
            .markPending worker error time
  | .markDead workerID lastError =>
      (toText workerID).bind fun worker =>
        (toText lastError).map fun error => .markDead worker error
  | .retryDead => .ok .retryDead

section Encodings

variable {workerID lastError : GoString} {runAt : Time} {change : Change}

theorem Update.encode_claim
    (encoded : (Update.claim workerID).encode = .ok change) :
    ∃ text worker,
      toText workerID = .ok text ∧ varchar 100 text = .ok worker ∧
        change = .claim worker := by
  simp only [Update.encode, bind_eq_ok_iff, map_eq_ok_iff] at encoded
  rcases encoded with ⟨text, bound, worker, fitted, equal⟩
  exact ⟨text, worker, bound, fitted, equal.symm⟩

theorem Update.encode_heartbeat
    (encoded : (Update.heartbeat workerID).encode = .ok change) :
    ∃ worker, toText workerID = .ok worker ∧ change = .heartbeat worker := by
  simp only [Update.encode, map_eq_ok_iff] at encoded
  rcases encoded with ⟨worker, bound, equal⟩
  exact ⟨worker, bound, equal.symm⟩

theorem Update.encode_markCompleted
    (encoded : (Update.markCompleted workerID).encode = .ok change) :
    ∃ worker,
      toText workerID = .ok worker ∧ change = .markCompleted worker := by
  simp only [Update.encode, map_eq_ok_iff] at encoded
  rcases encoded with ⟨worker, bound, equal⟩
  exact ⟨worker, bound, equal.symm⟩

theorem Update.encode_markPending
    (encoded :
      (Update.markPending workerID lastError runAt).encode = .ok change) :
    ∃ worker error time,
      toText workerID = .ok worker ∧ toText lastError = .ok error ∧
        timestamptz runAt = .ok time ∧
        change = .markPending worker error time := by
  simp only [Update.encode, bind_eq_ok_iff, map_eq_ok_iff] at encoded
  rcases encoded with
    ⟨worker, bound, error, valid, time, inside, equal⟩
  exact ⟨worker, error, time, bound, valid, inside, equal.symm⟩

theorem Update.encode_markDead
    (encoded : (Update.markDead workerID lastError).encode = .ok change) :
    ∃ worker error,
      toText workerID = .ok worker ∧ toText lastError = .ok error ∧
        change = .markDead worker error := by
  simp only [Update.encode, bind_eq_ok_iff, map_eq_ok_iff] at encoded
  rcases encoded with ⟨worker, bound, error, valid, equal⟩
  exact ⟨worker, error, bound, valid, equal.symm⟩

end Encodings

/-! ## Statements -/

/-- The parameters of the `INSERT` of `insertTask`. -/
structure InsertArgs where
  type : GoString
  payload : GoString
  payloadHash : GoString
  idempotencyKey : Option GoString
  priority : Int
  maxRetries : Int
  runAt : Time
deriving DecidableEq

/-- The statements the store sends. -/
inductive Stmt where
  | insertTask (args : InsertArgs)
  | getByTypeAndIdempotencyKey (type key : GoString)
  | getById (id : TaskId)
  | update (id : TaskId) (update : Update)
  | selectDue (workerID : GoString)
  | insertDeadLetter (id : TaskId) (lastError : GoString)
  | deleteDeadLetters (id : TaskId)
  | requeueStale (threshold : Time)
  | insertLog (id : TaskId) (status : TaskStatus) (message : GoString)
deriving DecidableEq

/-- A row returned by the statement of the reaper. -/
structure ReapedTask where
  id : TaskId
  status : TaskStatus
  attempts : Int
  maxRetries : Int
  lockedBy : GoString
deriving DecidableEq

/-- What the driver scans from the reply. -/
@[reducible]
def Reply : Stmt → Type
  | .insertTask _ => Option TaskRecord
  | .getByTypeAndIdempotencyKey _ _ => Option TaskRecord
  | .getById _ => Option TaskRecord
  | .update _ _ => Option TaskRecord
  | .selectDue _ => Option TaskId
  | .insertDeadLetter _ _ => Unit
  | .deleteDeadLetters _ => Unit
  | .requeueStale _ => List ReapedTask
  | .insertLog _ _ _ => Unit

/-- What a transaction can hold a lock on. -/
inductive Resource where
  | task (id : TaskId)
  | key (type key : Text)
deriving DecidableEq

/--
The choices of the server: which of several equally ranked rows a `LIMIT 1`
returns, the generated UUID, and the value of the log sequence.
-/
structure Oracle where
  pick : Nat
  newId : TaskId
  logId : Nat
deriving DecidableEq

/-- The columns of an insertion after conversion to their types. -/
structure EncodedTask where
  type : Text
  payload : GoString
  payloadHash : GoString
  idempotencyKey : Option Text
  priority : Int
  maxRetries : Int
  runAt : Time
deriving DecidableEq

/-- Convert the optional idempotency key. -/
def encodeKey : Option GoString → Except Fault (Option Text)
  | none => .ok none
  | some key =>
      (toText key).bind fun text => (varchar 255 text).map some

/-- Convert the parameters and check the constraints on single columns. -/
def InsertArgs.encode (platform : Platform) (args : InsertArgs) :
    Except Fault EncodedTask := do
  let priority ← int4 args.priority
  let maxRetries ← int4 args.maxRetries
  let text ← toText args.type
  let type ← varchar 100 text
  let key ← encodeKey args.idempotencyKey
  let payload ← toJsonb platform args.payload
  let runAt ← timestamptz args.runAt
  if type.bytes = [] then
    .error (.server .checkViolation)
  else
    .ok
      { type
        payload
        payloadHash := args.payloadHash
        idempotencyKey := key
        priority
        maxRetries
        runAt }

theorem encodeKey_some
    {key : GoString} {stored : Option Text}
    (encoded : encodeKey (some key) = .ok stored) :
    ∃ text column,
      toText key = .ok text ∧ varchar 255 text = .ok column ∧
        stored = some column := by
  simp only [encodeKey, bind_eq_ok_iff, map_eq_ok_iff] at encoded
  rcases encoded with ⟨text, bound, column, fitted, equal⟩
  exact ⟨text, column, bound, fitted, equal.symm⟩

/-- The columns that the later lookups depend on. -/
theorem InsertArgs.encode_columns
    {platform : Platform} {args : InsertArgs} {task : EncodedTask}
    (encoded : args.encode platform = .ok task) :
    (∃ text,
      toText args.type = .ok text ∧ varchar 100 text = .ok task.type) ∧
      encodeKey args.idempotencyKey = .ok task.idempotencyKey ∧
      task.payloadHash = args.payloadHash ∧
      platform.jsonb args.payload = some task.payload := by
  simp only [InsertArgs.encode, bind, bind_eq_ok_iff] at encoded
  rcases encoded with
    ⟨priority, _, maxRetries, _, text, bound, type, fitted, key, keyed,
      payload, stored, runAt, _, equal⟩
  split_ifs at equal
  cases equal
  refine ⟨⟨text, bound, fitted⟩, keyed, rfl, ?_⟩
  unfold toJsonb at stored
  split at stored
  · cases stored
    assumption
  · cases stored

/-- The inserted row, with the column defaults. -/
def EncodedTask.record (task : EncodedTask) (id : TaskId) (now : Time) :
    TaskRecord :=
  { id
    idempotencyKey := task.idempotencyKey
    type := task.type
    payload := task.payload
    payloadHash := task.payloadHash
    status := .pending
    priority := task.priority
    attempts := 0
    maxRetries := task.maxRetries
    runAt := task.runAt
    startedAt := none
    completedAt := none
    lockedBy := none
    lockedAt := none
    lastError := none
    createdAt := now
    updatedAt := now }

/-- The resources an uncommitted insertion reserves. -/
def reserved (id : TaskId) (type : Text) : Option Text → List Resource
  | none => [.task id]
  | some key => [.task id, .key type key]

/-- The key of an insertion is taken by a committed row. -/
def EncodedTask.conflicts (task : EncodedTask) (db : Database) : Bool :=
  task.idempotencyKey.any fun key => (db.findKey task.type key).isSome

/-- The unlocked due rows. -/
def dueRows (now : Time) (others : Resource → Bool) (db : Database) :
    List TaskRecord :=
  db.tasks.rows.filter fun row =>
    row.due now && !others (.task row.id)

/-- The due rows that the `ORDER BY` clause may put first. -/
def frontRows (now : Time) (others : Resource → Bool) (db : Database) :
    List TaskRecord :=
  (dueRows now others db).filter fun row =>
    (dueRows now others db).all fun other => !other.precedes row

/-- The unlocked stale rows. -/
def staleRows (now threshold : Time) (others : Resource → Bool)
    (db : Database) : List TaskRecord :=
  db.tasks.rows.filter fun row =>
    row.stale now threshold && !others (.task row.id)

/-- The row of the reaper's result for one stale task. -/
def reapedTask (status : TaskStatus) (row : TaskRecord) : ReapedTask :=
  { id := row.id
    status
    attempts := row.attempts
    maxRetries := row.maxRetries
    lockedBy := (row.lockedBy.map Text.bytes).getD [] }

/-! ## Evaluation -/

/-- The `INSERT … ON CONFLICT DO NOTHING` of `insertTask`. -/
def evalInsert (platform : Platform) (now : Time) (oracle : Oracle)
    (args : InsertArgs) (db : Database) :
    Except Fault (Effect (Option TaskRecord) Write Resource) :=
  (args.encode platform).bind fun task =>
    if task.conflicts db then
      .ok { reply := none }
    else if (db.find oracle.newId).isSome then
      .error (.server .uniqueViolation)
    else
      .ok
        { reply := some (task.record oracle.newId now)
          writes := [.insertTask (task.record oracle.newId now)]
          locks := reserved oracle.newId task.type task.idempotencyKey }

/-- A guarded update of the row with the given primary key. -/
def evalUpdate (now : Time) (id : TaskId) (update : Update)
    (db : Database) :
    Except Fault (Effect (Option TaskRecord) Write Resource) :=
  update.encode.bind fun change =>
    match db.find id with
    | none => .ok { reply := none }
    | some row =>
        if change.guard row then
          if change.overflows row then
            .error (.server .numericValueOutOfRange)
          else
            .ok
              { reply := some (change.set now row)
                writes := [.updateTask (change.set now row)]
                locks := [.task id] }
        else
          .ok { reply := none }

/-- The sub-select of `Claim`, with `FOR UPDATE SKIP LOCKED`. -/
def evalSelectDue (now : Time) (others : Resource → Bool)
    (oracle : Oracle) (db : Database) :
    Effect (Option TaskId) Write Resource :=
  let front := frontRows now others db
  match front[oracle.pick % front.length]? with
  | none => { reply := none }
  | some row => { reply := some row.id, locks := [.task row.id] }

/-- The statement of `RequeueStaleRunning`. -/
def evalRequeueStale (now threshold : Time) (others : Resource → Bool)
    (db : Database) : Effect (List ReapedTask) Write Resource :=
  let stale := staleRows now threshold others db
  let dead := stale.filter Change.toDead.guard
  let pending := stale.filter Change.toPending.guard
  { reply :=
      dead.map (reapedTask .dead) ++ pending.map (reapedTask .pending)
    writes :=
      (dead.map fun row => .updateTask (Change.toDead.set now row)) ++
        (pending.map fun row =>
          .updateTask (Change.toPending.set now row)) ++
        dead.map fun row =>
          .insertDeadLetter ⟨row.id, staleDeadError, now⟩
    locks := stale.map fun row => .task row.id }

/-- A row of a table that references `tasks`. -/
def evalReferencing (id : TaskId) (write : Write) (db : Database) :
    Except Fault (Effect Unit Write Resource) :=
  if (db.find id).isSome then
    .ok { reply := (), writes := [write] }
  else
    .error (.server .foreignKeyViolation)

variable {effect : Effect (Option TaskRecord) Write Resource}

theorem evalInsert_cases
    {platform : Platform} {now : Time} {oracle : Oracle} {args : InsertArgs}
    (evaluated : evalInsert platform now oracle args db = .ok effect) :
    ∃ task,
      args.encode platform = .ok task ∧
        ((task.conflicts db = true ∧ effect = { reply := none }) ∨
          (task.conflicts db = false ∧ db.find oracle.newId = none ∧
            effect =
              { reply := some (task.record oracle.newId now)
                writes := [.insertTask (task.record oracle.newId now)]
                locks :=
                  reserved oracle.newId task.type
                    task.idempotencyKey })) := by
  rw [evalInsert, bind_eq_ok_iff] at evaluated
  rcases evaluated with ⟨task, encoded, evaluated⟩
  refine ⟨task, encoded, ?_⟩
  split_ifs at evaluated with conflict taken
  · cases evaluated
    exact Or.inl ⟨conflict, rfl⟩
  · cases evaluated
    refine Or.inr ⟨by simpa using conflict, ?_, rfl⟩
    simpa using taken

theorem evalUpdate_cases
    {now : Time} {id : TaskId} {update : Update}
    (evaluated : evalUpdate now id update db = .ok effect) :
    ∃ change,
      update.encode = .ok change ∧
        (((∀ row, db.find id = some row → change.guard row = false) ∧
            effect = { reply := none }) ∨
          ∃ row,
            db.find id = some row ∧ change.guard row = true ∧
              effect =
                { reply := some (change.set now row)
                  writes := [.updateTask (change.set now row)]
                  locks := [.task id] }) := by
  rw [evalUpdate, bind_eq_ok_iff] at evaluated
  rcases evaluated with ⟨change, encoded, evaluated⟩
  refine ⟨change, encoded, ?_⟩
  cases found : db.find id with
  | none =>
      simp only [found] at evaluated
      cases evaluated
      exact Or.inl ⟨by simp, rfl⟩
  | some row =>
      simp only [found] at evaluated
      split_ifs at evaluated with guarded overflow
      · cases evaluated
        exact Or.inr ⟨row, rfl, guarded, rfl⟩
      · cases evaluated
        refine Or.inl ⟨?_, rfl⟩
        intro other same
        cases same
        simpa using guarded

theorem evalSelectDue_cases
    (now : Time) (others : Resource → Bool) (oracle : Oracle)
    (db : Database) :
    evalSelectDue now others oracle db = { reply := none } ∨
      ∃ row,
        db.find row.id = some row ∧ row.due now = true ∧
          others (.task row.id) = false ∧
          evalSelectDue now others oracle db =
            { reply := some row.id, locks := [.task row.id] } := by
  simp only [evalSelectDue]
  cases picked :
      (frontRows now others db)[
        oracle.pick % (frontRows now others db).length]? with
  | none => exact Or.inl rfl
  | some row =>
      have member := List.mem_of_getElem? picked
      simp only [frontRows, dueRows, List.mem_filter,
        Bool.and_eq_true, Bool.not_eq_true'] at member
      rcases member with ⟨⟨stored, due, free⟩, _⟩
      exact Or.inr ⟨row, Database.find_of_mem stored, due, free, rfl⟩

theorem evalReferencing_cases
    {id : TaskId} {write : Write} {effect : Effect Unit Write Resource}
    (evaluated : evalReferencing id write db = .ok effect) :
    effect = { reply := (), writes := [write] } := by
  unfold evalReferencing at evaluated
  split_ifs at evaluated
  cases evaluated
  rfl

/-- One statement on the state its transaction sees. -/
def eval (platform : Platform) (now : Time) (others : Resource → Bool)
    (oracle : Oracle) (stmt : Stmt) (db : Database) :
    Except Fault (Effect (Reply stmt) Write Resource) :=
  match stmt with
  | .insertTask args => evalInsert platform now oracle args db
  | .getByTypeAndIdempotencyKey type key =>
      (toText type).bind fun type =>
        (toText key).map fun key => { reply := db.findKey type key }
  | .getById id => .ok { reply := db.find id }
  | .update id update => evalUpdate now id update db
  | .selectDue workerID =>
      (toText workerID).map fun _ => evalSelectDue now others oracle db
  | .insertDeadLetter id lastError =>
      (toText lastError).bind fun error =>
        evalReferencing id (.insertDeadLetter ⟨id, error, now⟩) db
  | .deleteDeadLetters id =>
      .ok { reply := (), writes := [.deleteDeadLetters id] }
  | .requeueStale threshold =>
      .ok (evalRequeueStale now threshold others db)
  | .insertLog id status message =>
      (toText message).bind fun text =>
        evalReferencing id
          (.insertLog ⟨oracle.logId, id, status, text, now⟩) db

/--
The statement has to wait for a lock of another transaction.  An insertion
waits for an uncommitted one with the same key, an update for the holder of
a row it matches, and `SKIP LOCKED` never waits.
-/
def waits (platform : Platform) (others : Resource → Bool)
    (oracle : Oracle) (stmt : Stmt) (db : Database) : Bool :=
  match stmt with
  | .insertTask args =>
      match args.encode platform with
      | .error _ => false
      | .ok task =>
          (reserved oracle.newId task.type task.idempotencyKey).any others
  | .update id update =>
      match update.encode with
      | .error _ => false
      | .ok change =>
          (db.find id).any fun row =>
            change.guard row && others (.task id)
  | _ => false

/-- The database engine under the store. -/
def postgres (platform : Platform) :
    Engine Stmt Reply Fault Database Write Resource Oracle Time where
  apply := Write.apply
  eval := eval platform
  waits := waits platform
  driverSide := Fault.driverSide
  closed := .txClosed
  aborted := .server .inFailedSqlTransaction
  refused := .txCommitRollback

end Dhara.Store
