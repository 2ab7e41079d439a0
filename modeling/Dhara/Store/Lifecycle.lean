import Dhara.Store.TaskStore

/-!
# The task life cycle

The abstract model of the store.  A `Move` is one transition of one task: a
guarded update together with its dead letter and its log entry.  `Lawful`
says which writes a call may commit: fresh rows, one heartbeat, one move, or
the moves of a reaper run on different tasks.

`Lawful.viewStep` is the single inversion lemma: a lawful commit takes the
view of every task through at most one step of its life cycle.
-/

namespace Dhara.Store

open Dhara.Transaction

variable {writes : List Write} {call : Call} {id : TaskId}

/-! ## Moves -/

/-- One transition of one task, and the log entry that goes with it. -/
structure Move where
  row : TaskRecord
  change : Change
  now : Time
  logId : Nat
  message : Text

/-- The row after the move. -/
def Move.after (move : Move) : TaskRecord :=
  move.change.set move.now move.row

/-- The log entry of the move. -/
def Move.log (move : Move) : LogRecord :=
  ⟨move.logId, move.row.id, move.after.status, move.message, move.now⟩

/-- The dead letters of the task after the move. -/
def Move.lettersAfter (move : Move) (letters : List DeadLetterRecord) :
    List DeadLetterRecord :=
  match move.change with
  | .markDead _ lastError =>
      letters ++ [⟨move.row.id, lastError, move.now⟩]
  | .toDead => letters ++ [⟨move.row.id, staleDeadError, move.now⟩]
  | .retryDead => []
  | _ => letters

/-- The writes to the dead letters that go with a change. -/
def Change.letterWrites (now : Time) (row : TaskRecord) :
    Change → List Write
  | .markDead _ lastError =>
      [.insertDeadLetter ⟨row.id, lastError, now⟩]
  | .toDead => [.insertDeadLetter ⟨row.id, staleDeadError, now⟩]
  | .retryDead => [.deleteDeadLetters row.id]
  | _ => []

/-- The writes to the dead letters that go with the move. -/
def Move.letterWrites (move : Move) : List Write :=
  move.change.letterWrites move.now move.row

/-- The writes of a transaction that makes the given moves. -/
def writesOf (moves : List Move) : List Write :=
  moves.map (fun move => .updateTask move.after) ++
    moves.flatMap Move.letterWrites ++
    moves.map fun move => .insertLog move.log

/-- The states in which a change is a transition of the life cycle. -/
def Change.Enabled (now : Time) (row : TaskRecord) : Change → Prop
  | .cancel => row.status = .pending
  | .claim _ => row.due now = true
  | .heartbeat _ => False
  | .markCompleted workerID => row.ownedBy workerID = true
  | .markPending workerID _ _ => row.ownedBy workerID = true
  | .markDead workerID _ => row.ownedBy workerID = true
  | .retryDead => row.status = .dead
  | .toDead => row.status = .running ∧ row.maxRetries ≤ row.attempts
  | .toPending =>
      row.status = .running ∧ (row.attempts : Int) < row.maxRetries

/-- The move is possible in the given state. -/
structure Move.Legal (move : Move) (db : Database) : Prop where
  found : db.find move.row.id = some move.row
  enabled : move.change.Enabled move.now move.row

/-- The move is one the call makes. -/
def Call.Performs (call : Call) (move : Move) : Prop :=
  match call with
  | .create _ => False
  | .callerTx _ _ => False
  | .cancel id =>
      move.row.id = id ∧ move.change = .cancel ∧
        move.message.bytes = ascii "task canceled by user request"
  | .claim workerID =>
      (Update.claim workerID).encode = .ok move.change ∧
        move.message.bytes = claimLogMessage workerID (scanClaimed move.after)
  | .heartbeat _ _ => False
  | .markCompleted taskID workerID durationMs =>
      move.row.id = taskID ∧
        (Update.markCompleted workerID).encode = .ok move.change ∧
        move.message.bytes = completedLogMessage workerID durationMs
  | .markPending task workerID lastError nextRunAt =>
      move.row.id = task.id ∧
        (Update.markPending workerID lastError nextRunAt).encode =
          .ok move.change ∧
        move.message.bytes = pendingLogMessage task lastError nextRunAt
  | .markDead taskID workerID lastError reason =>
      move.row.id = taskID ∧
        (Update.markDead workerID lastError).encode = .ok move.change ∧
        move.message.bytes = deadLogMessage reason
  | .retryDead taskID =>
      move.row.id = taskID ∧ move.change = .retryDead ∧
        move.message.bytes = ascii "manual retry requested"
  | .requeueStaleRunning threshold reaperID =>
      (move.change = .toDead ∨ move.change = .toPending) ∧
        move.row.stale move.now threshold = true ∧
        move.message.bytes =
          reaperLogMessage reaperID (reapedTask move.after.status move.row)

/-- The changes each method can make. -/
def Call.makes : Call → Change → Bool
  | .cancel _, .cancel => true
  | .claim _, .claim _ => true
  | .markCompleted _ _ _, .markCompleted _ => true
  | .markPending _ _ _ _, .markPending _ _ _ => true
  | .markDead _ _ _ _, .markDead _ _ => true
  | .retryDead _, .retryDead => true
  | .requeueStaleRunning _ _, .toDead => true
  | .requeueStaleRunning _ _, .toPending => true
  | _, _ => false

variable {move : Move}

theorem Call.Performs.makes
    (performs : call.Performs move) :
    call.makes move.change = true := by
  cases call with
  | cancel id =>
      rw [performs.2.1]
      rfl
  | claim workerID =>
      rcases Update.encode_claim performs.1 with ⟨_, worker, _, _, equal⟩
      rw [equal]
      rfl
  | markCompleted taskID workerID durationMs =>
      rcases Update.encode_markCompleted performs.2.1 with
        ⟨worker, _, equal⟩
      rw [equal]
      rfl
  | markPending task workerID lastError nextRunAt =>
      rcases Update.encode_markPending performs.2.1 with
        ⟨worker, error, time, _, _, _, equal⟩
      rw [equal]
      rfl
  | markDead taskID workerID lastError reason =>
      rcases Update.encode_markDead performs.2.1 with
        ⟨worker, error, _, _, equal⟩
      rw [equal]
      rfl
  | retryDead taskID =>
      rw [performs.2.1]
      rfl
  | requeueStaleRunning threshold reaperID =>
      rcases performs.1 with dead | pending
      · rw [dead]
        rfl
      · rw [pending]
        rfl
  | _ => exact performs.elim

@[simp]
theorem Move.after_id (move : Move) : move.after.id = move.row.id :=
  move.change.set_id move.now move.row

@[simp]
theorem Move.after_fixed (move : Move) :
    move.after.fixed = move.row.fixed :=
  move.change.set_fixed move.now move.row

theorem Move.after_identity (move : Move) :
    move.row.identity = move.after.identity :=
  (move.change.set_identity move.now move.row).symm

@[simp]
theorem Move.log_taskId (move : Move) : move.log.taskId = move.row.id :=
  rfl

theorem Move.letterWrites_task (move : Move) :
    ∀ write ∈ move.letterWrites, write.task = move.row.id := by
  intro write member
  unfold Move.letterWrites Change.letterWrites at member
  split at member <;> simp_all [Write.task]

/-! ## Lawful commits -/

/-- The tasks a call enqueues. -/
def Call.tasks : Call → List TaskRow
  | .create task => [task]
  | .callerTx tasks _ => tasks
  | _ => []

/-- The row is what the `INSERT` of one of the call's tasks stores. -/
def Call.Enqueues (platform : Platform) (call : Call)
    (row : TaskRecord) : Prop :=
  ∃ task ∈ call.tasks, ∃ payloadHash encoded now,
    hashPayload platform task.payload = some payloadHash ∧
      (task.insertArgs payloadHash).encode platform = .ok encoded ∧
      row = encoded.record row.id now

/-- The writes a call may commit on a state. -/
inductive Lawful (platform : Platform) (db : Database) :
    Call → List Write → Prop where
  | enqueue (call : Call) (rows : List TaskRecord)
      (enqueues : ∀ row ∈ rows, call.Enqueues platform row)
      (free : ∀ row ∈ rows, db.Free row)
      (apart :
        rows.Pairwise fun first second =>
          ¬ first.identity.Clashes second.identity) :
      Lawful platform db call (rows.map .insertTask)
  | beat (taskID : TaskId) (workerID : Text) (row : TaskRecord)
      (now : Time) (found : db.find taskID = some row)
      (owned : row.ownedBy workerID = true) :
      Lawful platform db (.heartbeat taskID workerID.bytes)
        [.updateTask ((Change.heartbeat workerID).set now row)]
  | move (call : Call) (move : Move) (legal : move.Legal db)
      (performs : call.Performs move) :
      Lawful platform db call (writesOf [move])
  | reap (threshold : Time) (reaperID : GoString) (moves : List Move)
      (distinct : (moves.map fun move => move.row.id).Nodup)
      (legal : ∀ move ∈ moves, move.Legal db)
      (performs :
        ∀ move ∈ moves,
          (Call.requeueStaleRunning threshold reaperID).Performs move) :
      Lawful platform db (.requeueStaleRunning threshold reaperID)
        (writesOf moves)

/-- The row that the updates of a transaction leave for a task. -/
def written (id : TaskId) (writes : List Write) : Option TaskRecord :=
  writes.findSome? fun
    | .updateTask row => if row.id = id then some row else none
    | _ => none

/--
One step in the life of a task, made by a call: its view before, the row the
call wrote, and its view after.  A call that does not concern the task leaves
its view as it is.
-/
inductive ViewStep (platform : Platform) (call : Call) :
    TaskView → Option TaskRecord → TaskView → Prop where
  | stay (view : TaskView) : ViewStep platform call view none view
  | enqueue (row : TaskRecord) (logs : List LogRecord)
      (letters : List DeadLetterRecord)
      (enqueues : call.Enqueues platform row) :
      ViewStep platform call ⟨none, logs, letters⟩ none
        ⟨some row, logs, letters⟩
  | beat (workerID : Text) (row : TaskRecord) (now : Time)
      (logs : List LogRecord) (letters : List DeadLetterRecord)
      (owned : row.ownedBy workerID = true)
      (called : call = .heartbeat row.id workerID.bytes) :
      ViewStep platform call ⟨some row, logs, letters⟩
        (some ((Change.heartbeat workerID).set now row))
        ⟨some ((Change.heartbeat workerID).set now row), logs, letters⟩
  | move (move : Move) (logs : List LogRecord)
      (letters : List DeadLetterRecord)
      (enabled : move.change.Enabled move.now move.row)
      (performs : call.Performs move) :
      ViewStep platform call ⟨some move.row, logs, letters⟩
        (some move.after)
        ⟨some move.after, logs ++ [move.log], move.lettersAfter letters⟩

theorem written_eq_none
    (other : ∀ write ∈ writes, write.task ≠ id) :
    written id writes = none := by
  rw [written, List.findSome?_eq_none_iff]
  intro write member
  cases write with
  | updateTask row => exact if_neg (other _ member)
  | _ => rfl

theorem written_insertions (id : TaskId) (rows : List TaskRecord) :
    written id (rows.map .insertTask) = none := by
  rw [written, List.findSome?_eq_none_iff]
  intro write member
  rcases List.mem_map.mp member with ⟨row, _, equal⟩
  subst write
  rfl

/-! ## Lawful commits step the views -/

section Views

variable {platform : Platform} {db : Database}
  {letters : List DeadLetterRecord} {row : TaskRecord} {logs : List LogRecord}

theorem view_applyAll_other
    (other : ∀ write ∈ writes, write.task ≠ id) (db : Database) :
    ((postgres platform).applyAll writes db).view id = db.view id := by
  induction writes generalizing db with
  | nil => rfl
  | cons write rest induction =>
      rw [Engine.applyAll_cons,
        induction fun later member =>
          other later (List.mem_cons_of_mem write member)]
      exact Write.view_other (other write (by simp)) db

theorem view_updateWrite
    (start : db.view move.row.id = ⟨some move.row, logs, letters⟩) :
    ((postgres platform).applyAll [.updateTask move.after] db).view
        move.row.id =
      ⟨some move.after, logs, letters⟩ := by
  have found : db.find move.after.id = some move.row := by
    rw [move.after_id, ← Database.view_row, start]
  have stepped := Write.view_updateTask found move.after_identity
  rw [move.after_id, start] at stepped
  exact stepped

theorem view_letterWrites
    {row : Option TaskRecord}
    (start : db.view move.row.id = ⟨row, logs, letters⟩) :
    ((postgres platform).applyAll move.letterWrites db).view
        move.row.id =
      ⟨row, logs, move.lettersAfter letters⟩ := by
  have inserted :
      ∀ lastError,
        ((Write.insertDeadLetter
            ⟨move.row.id, lastError, move.now⟩).apply db).view
          move.row.id =
            ⟨row, logs, letters ++ [⟨move.row.id, lastError, move.now⟩]⟩ := by
    intro lastError
    have stepped :=
      Write.view_insertDeadLetter ⟨move.row.id, lastError, move.now⟩ db
    rw [← Database.view_deadLetters, start] at stepped
    exact stepped
  unfold Move.letterWrites Change.letterWrites Move.lettersAfter
  cases move.change with
  | markDead workerID lastError => exact inserted lastError
  | toDead => exact inserted staleDeadError
  | retryDead =>
      have stepped := Write.view_deleteDeadLetters move.row.id db
      rw [start] at stepped
      exact stepped
  | _ => exact start

theorem view_logWrite
    {row : Option TaskRecord}
    (start : db.view move.row.id = ⟨row, logs, letters⟩) :
    ((postgres platform).applyAll [.insertLog move.log] db).view
        move.row.id =
      ⟨row, logs ++ [move.log], letters⟩ := by
  have stepped := Write.view_insertLog move.log db
  rw [move.log_taskId, ← Database.view_logs, start] at stepped
  exact stepped

theorem writesOf_task
    {moves : List Move} (other : ∀ move ∈ moves, move.row.id ≠ id) :
    ∀ write ∈ writesOf moves, write.task ≠ id := by
  intro write member
  simp only [writesOf, List.mem_append, List.mem_map,
    List.mem_flatMap] at member
  rcases member with (⟨move, occurs, equal⟩ | ⟨move, occurs, letter⟩) |
    ⟨move, occurs, equal⟩
  · subst write
    simpa [Write.task] using other move occurs
  · rw [move.letterWrites_task write letter]
    exact other move occurs
  · subst write
    simpa [Write.task] using other move occurs

/-- The moves on both sides of a member concern other tasks. -/
theorem split_moves
    {moves : List Move} (distinct : (moves.map fun move => move.row.id).Nodup)
    (member : move ∈ moves) :
    ∃ before after,
      moves = before ++ move :: after ∧
        (∀ other ∈ before, other.row.id ≠ move.row.id) ∧
        ∀ other ∈ after, other.row.id ≠ move.row.id := by
  rcases List.append_of_mem member with ⟨before, after, equal⟩
  subst moves
  simp only [List.map_append, List.map_cons, List.nodup_append,
    List.nodup_cons, List.mem_map, List.mem_cons] at distinct
  rcases distinct with ⟨_, ⟨fresh, _⟩, apart⟩
  refine ⟨before, after, rfl, ?_, ?_⟩
  · intro other occurs same
    exact apart _ ⟨other, occurs, rfl⟩ _ (Or.inl rfl) same
  · intro other occurs same
    exact fresh ⟨other, occurs, same⟩

/-- A transaction of moves writes the row after the move. -/
theorem written_writesOf
    {moves : List Move} (distinct : (moves.map fun move => move.row.id).Nodup)
    (member : move ∈ moves) :
    written move.row.id (writesOf moves) = some move.after := by
  rcases split_moves distinct member with
    ⟨before, after, equal, earlier, _⟩
  subst moves
  have skipped :
      written move.row.id
        (before.map fun other => .updateTask other.after) = none := by
    apply written_eq_none
    intro write occurs
    rcases List.mem_map.mp occurs with ⟨other, inside, equal⟩
    subst write
    rw [Write.task, Move.after_id]
    exact earlier other inside
  unfold written at skipped
  simp [written, writesOf, List.findSome?_append, skipped]

/-- In one phase of a transaction a task only sees its own writes. -/
theorem view_phase
    {phase : Move → List Write}
    (ownTask : ∀ move, ∀ write ∈ phase move, write.task = move.row.id)
    {before after : List Move}
    (earlier : ∀ other ∈ before, other.row.id ≠ move.row.id)
    (later : ∀ other ∈ after, other.row.id ≠ move.row.id)
    {first second : TaskView}
    (own :
      ∀ db : Database, db.view move.row.id = first →
        ((postgres platform).applyAll (phase move) db).view
          move.row.id = second)
    (start : db.view move.row.id = first) :
    ((postgres platform).applyAll
        ((before ++ move :: after).flatMap phase) db).view
      move.row.id = second := by
  have others :
      ∀ side : List Move, (∀ other ∈ side, other.row.id ≠ move.row.id) →
        ∀ write ∈ side.flatMap phase, write.task ≠ move.row.id := by
    intro side apart write occurs
    rcases List.mem_flatMap.mp occurs with ⟨other, inside, written⟩
    rw [ownTask other write written]
    exact apart other inside
  rw [List.flatMap_append, List.flatMap_cons, Engine.applyAll_append,
    Engine.applyAll_append, view_applyAll_other (others after later)]
  apply own
  rw [view_applyAll_other (others before earlier), start]

/-- A transaction of moves takes each of its tasks through its own move. -/
theorem view_writesOf
    {moves : List Move} (distinct : (moves.map fun move => move.row.id).Nodup)
    (member : move ∈ moves) (found : db.find move.row.id = some move.row) :
    ((postgres platform).applyAll (writesOf moves) db).view
        move.row.id =
      ⟨some move.after, db.logsOf move.row.id ++ [move.log],
        move.lettersAfter (db.deadLettersOf move.row.id)⟩ := by
  rcases split_moves distinct member with
    ⟨before, after, equal, earlier, later⟩
  subst moves
  rw [writesOf, Engine.applyAll_append, Engine.applyAll_append,
    List.map_eq_flatMap, List.map_eq_flatMap]
  have start :
      db.view move.row.id =
        ⟨some move.row, db.logsOf move.row.id,
          db.deadLettersOf move.row.id⟩ := by
    rw [Database.view, found]
  apply view_phase (by simp [Write.task]) earlier later fun _ => view_logWrite
  apply view_phase Move.letterWrites_task earlier later
    fun _ => view_letterWrites
  exact view_phase (by simp [Write.task]) earlier later
    (fun _ => view_updateWrite) start

/-- A transaction of insertions stores exactly its rows. -/
theorem rows_insertions
    {rows : List TaskRecord} (free : ∀ row ∈ rows, db.Free row)
    (apart :
      rows.Pairwise fun first second =>
        ¬ first.identity.Clashes second.identity) :
    ((postgres platform).applyAll (rows.map .insertTask) db).tasks.rows =
      db.tasks.rows ++ rows := by
  induction rows generalizing db with
  | nil => simp
  | cons row rest induction =>
      rw [List.pairwise_cons] at apart
      have stored := Write.rows_insertTask (free row (by simp))
      rw [List.map_cons, Engine.applyAll_cons]
      change ((postgres platform).applyAll (rest.map .insertTask)
        ((Write.insertTask row).apply db)).tasks.rows = _
      rw [induction ?_ apart.2, stored]
      · simp
      · intro later member old occurs
        rw [stored, List.mem_append, List.mem_singleton] at occurs
        rcases occurs with earlier | equal
        · exact free later (List.mem_cons_of_mem row member) old earlier
        · subst old
          exact apart.1 later member

theorem logs_insertions
    (rows : List TaskRecord) (db : Database) :
    ((postgres platform).applyAll (rows.map .insertTask) db).taskLogs =
        db.taskLogs ∧
      ((postgres platform).applyAll (rows.map .insertTask)
        db).deadLetters = db.deadLetters := by
  induction rows generalizing db with
  | nil => exact ⟨rfl, rfl⟩
  | cons row rest induction =>
      exact induction ((Write.insertTask row).apply db)

theorem view_insertions
    {rows : List TaskRecord} (free : ∀ row ∈ rows, db.Free row)
    (apart :
      rows.Pairwise fun first second =>
        ¬ first.identity.Clashes second.identity)
    (member : row ∈ rows) :
    ((postgres platform).applyAll (rows.map .insertTask) db).view
        row.id =
      { db.view row.id with row := some row } := by
  have stored :
      ((postgres platform).applyAll (rows.map .insertTask) db).find
        row.id = some row := by
    apply Database.find_of_mem
    rw [rows_insertions free apart]
    exact List.mem_append_right _ member
  rw [Database.view, stored, Database.logsOf, Database.deadLettersOf,
    (logs_insertions rows db).1, (logs_insertions rows db).2]
  rfl

/-- A transaction of moves steps the views of its tasks only. -/
theorem viewStep_writesOf
    {moves : List Move} (distinct : (moves.map fun move => move.row.id).Nodup)
    (legal : ∀ move ∈ moves, move.Legal db)
    (performs : ∀ move ∈ moves, call.Performs move) (id : TaskId) :
    ViewStep platform call (db.view id) (written id (writesOf moves))
      (((postgres platform).applyAll (writesOf moves) db).view id) := by
  by_cases occurs : ∃ move ∈ moves, move.row.id = id
  · rcases occurs with ⟨move, member, same⟩
    subst id
    have found := (legal move member).found
    rw [view_writesOf distinct member found, Database.view, found,
      written_writesOf distinct member]
    exact .move move _ _ (legal move member).enabled (performs move member)
  · have other : ∀ write ∈ writesOf moves, write.task ≠ id := by
      apply writesOf_task
      intro move member same
      exact occurs ⟨move, member, same⟩
    rw [view_applyAll_other other, written_eq_none other]
    exact .stay _

/-- A lawful commit takes the view of every task through one step. -/
theorem Lawful.viewStep
    (lawful : Lawful platform db call writes) (id : TaskId) :
    ViewStep platform call (db.view id) (written id writes)
      (((postgres platform).applyAll writes db).view id) := by
  cases lawful with
  | enqueue call rows enqueues free apart =>
      rw [written_insertions]
      by_cases occurs : ∃ row ∈ rows, row.id = id
      · rcases occurs with ⟨row, member, same⟩
        subst id
        rw [view_insertions free apart member, Database.view,
          (free row member).find_eq_none]
        exact .enqueue row _ _ (enqueues row member)
      · rw [view_applyAll_other]
        · exact .stay _
        · intro write member same
          rcases List.mem_map.mp member with ⟨row, inside, equal⟩
          subst write
          exact occurs ⟨row, inside, same⟩
  | beat taskID workerID row now found owned =>
      have sameId := Database.find_id found
      subst taskID
      by_cases same : row.id = id
      · subst id
        have stored :
            db.find ((Change.heartbeat workerID).set now row).id = some row :=
          found
        have stepped :
            ((postgres platform).applyAll
              [.updateTask ((Change.heartbeat workerID).set now row)]
                db).view row.id = _ :=
          Write.view_updateTask stored rfl
        have wrote :
            written row.id
                [.updateTask ((Change.heartbeat workerID).set now row)] =
              some ((Change.heartbeat workerID).set now row) := by
          simp [written]
        rw [stepped, wrote, Database.view, found]
        exact .beat workerID row now _ _ owned rfl
      · have other :
            ∀ write ∈
              [Write.updateTask ((Change.heartbeat workerID).set now row)],
              write.task ≠ id := by
          simpa [Write.task] using same
        rw [view_applyAll_other other, written_eq_none other]
        exact .stay _
  | move call move legal performs =>
      apply viewStep_writesOf (by simp)
      · simpa using legal
      · simpa using performs
  | reap threshold reaperID moves distinct legal performs =>
      exact viewStep_writesOf distinct legal performs id

/-- A row stays stored with its fixed columns. -/
theorem ViewStep.fixed
    {before after : TaskView} {wrote : Option TaskRecord}
    (step : ViewStep platform call before wrote after)
    (found : before.row = some row) :
    ∃ current, after.row = some current ∧ current.fixed = row.fixed := by
  cases step with
  | stay => exact ⟨row, found, rfl⟩
  | enqueue fresh => cases found
  | beat workerID old now =>
      cases found
      exact ⟨_, rfl, Change.set_fixed _ now row⟩
  | move move =>
      cases found
      exact ⟨_, rfl, move.after_fixed⟩

/-- A row written by anything but a heartbeat is the result of a move. -/
theorem ViewStep.of_written
    {before after : TaskView}
    (step : ViewStep platform call before (some row) after)
    (notBeat : ∀ taskID workerID, call ≠ .heartbeat taskID workerID) :
    ∃ move : Move,
      before.row = some move.row ∧ after.row = some move.after ∧
        move.after = row ∧
        move.change.Enabled move.now move.row ∧ call.Performs move := by
  generalize wrote : some row = written at step
  cases step with
  | stay => cases wrote
  | enqueue => cases wrote
  | beat workerID old now logs letters owned called =>
      exact (notBeat _ _ called).elim
  | move move logs letters enabled performs =>
      cases wrote
      exact ⟨move, rfl, rfl, rfl, enabled, performs⟩

/-- What a call commits that moves one task. -/
theorem Lawful.moves
    (lawful : Lawful platform db call writes) (wrote : writes ≠ [])
    (enqueuesNothing : call.tasks = [])
    (notBeat : ∀ taskID workerID, call ≠ .heartbeat taskID workerID)
    (notReap :
      ∀ threshold reaperID, call ≠ .requeueStaleRunning threshold reaperID) :
    ∃ move : Move,
      writes = writesOf [move] ∧ move.Legal db ∧ call.Performs move := by
  cases lawful with
  | enqueue call rows enqueues free apart =>
      cases rows with
      | nil => exact (wrote rfl).elim
      | cons row rest =>
          rcases enqueues row (by simp) with ⟨task, member, _⟩
          rw [enqueuesNothing] at member
          cases member
  | beat taskID workerID => exact (notBeat _ _ rfl).elim
  | move call move legal performs =>
      exact ⟨move, rfl, legal, performs⟩
  | reap threshold reaperID => exact (notReap _ _ rfl).elim

theorem Lawful.keeps
    (lawful : Lawful platform db call writes) (keeps : db.Keeps row) :
    ((postgres platform).applyAll writes db).Keeps row := by
  rcases keeps with ⟨current, found, same⟩
  rcases (lawful.viewStep row.id).fixed found with
    ⟨later, stored, kept⟩
  exact ⟨later, stored, kept.trans same⟩

end Views

end Dhara.Store
