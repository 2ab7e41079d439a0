import Dhara.Table
import Dhara.Text

/-!
# The task queue schema

The three tables of the migration: `tasks`, `task_logs` and `dead_letters`.
The primary key and the unique constraint on `(type, idempotency_key)` are
the clash relation of the task table.  A NULL idempotency key clashes with
nothing.
-/

namespace Dhara

/-- The values the `CHECK` on `tasks.status` admits. -/
inductive TaskStatus where
  | pending
  | running
  | completed
  | canceled
  | dead
deriving DecidableEq, Repr

/-- A UUID. -/
abbrev TaskId := BitVec 128

/-- A row of `tasks`. -/
structure TaskRecord where
  id : TaskId
  idempotencyKey : Option Text
  type : Text
  payload : GoString
  payloadHash : GoString
  status : TaskStatus
  priority : Int
  attempts : Nat
  maxRetries : Int
  runAt : Time
  startedAt : Option Time
  completedAt : Option Time
  lockedBy : Option Text
  lockedAt : Option Time
  lastError : Option Text
  createdAt : Time
  updatedAt : Time
deriving DecidableEq

/-- A row of `task_logs`. -/
structure LogRecord where
  id : Nat
  taskId : TaskId
  status : TaskStatus
  message : Text
  createdAt : Time
deriving DecidableEq

/-- A row of `dead_letters`. -/
structure DeadLetterRecord where
  taskId : TaskId
  lastError : Text
  createdAt : Time
deriving DecidableEq

/-- The columns under a uniqueness constraint. -/
structure Identity where
  id : TaskId
  type : Text
  idempotencyKey : Option Text
deriving DecidableEq

/-- The primary key, or `tasks_idempotency_type_key`, would be violated. -/
def Identity.Clashes (first second : Identity) : Prop :=
  first.id = second.id ∨
    (first.type = second.type ∧
      first.idempotencyKey.isSome = true ∧
      first.idempotencyKey = second.idempotencyKey)

instance : DecidableRel Identity.Clashes := fun first second =>
  inferInstanceAs
    (Decidable
      (first.id = second.id ∨
        (first.type = second.type ∧
          first.idempotencyKey.isSome = true ∧
          first.idempotencyKey = second.idempotencyKey)))

theorem Identity.Clashes.symm
    (first second : Identity) (clash : first.Clashes second) :
    second.Clashes first := by
  rcases clash with sameId | ⟨sameType, keyed, sameKey⟩
  · exact Or.inl sameId.symm
  · exact Or.inr ⟨sameType.symm, sameKey ▸ keyed, sameKey.symm⟩

theorem Identity.clashes_of_id
    (first second : Identity) (same : first.id = second.id) :
    first.Clashes second :=
  Or.inl same

def TaskRecord.identity (row : TaskRecord) : Identity :=
  ⟨row.id, row.type, row.idempotencyKey⟩

/-- The columns that no statement ever updates. -/
def TaskRecord.fixed (row : TaskRecord) :
    TaskId × Option Text × Text × GoString × GoString × Int × Int ×
      Time :=
  (row.id, row.idempotencyKey, row.type, row.payload, row.payloadHash,
    row.priority, row.maxRetries, row.createdAt)

theorem TaskRecord.identity_of_fixed
    {first second : TaskRecord} (same : first.fixed = second.fixed) :
    first.identity = second.identity := by
  simp only [TaskRecord.fixed, Prod.mk.injEq] at same
  simp [TaskRecord.identity, same]

/-- The row is `RUNNING` and locked by the worker. -/
def TaskRecord.ownedBy (row : TaskRecord) (workerID : Text) : Bool :=
  row.status = .running ∧ row.lockedBy = some workerID

/-- The row waits for a worker and its time has come. -/
def TaskRecord.due (now : Time) (row : TaskRecord) : Bool :=
  row.status = .pending ∧ row.runAt ≤ now

/-- The row is `RUNNING` without a heartbeat since the threshold. -/
def TaskRecord.stale (now threshold : Time) (row : TaskRecord) : Bool :=
  row.status = .running ∧ row.lockedAt.any (· < now - threshold)

/-- `ORDER BY priority DESC, run_at ASC` puts the first row before. -/
def TaskRecord.precedes (first second : TaskRecord) : Bool :=
  second.priority < first.priority ∨
    (first.priority = second.priority ∧ first.runAt < second.runAt)

/-- The task table with its constraints. -/
abbrev TaskTable := Table TaskRecord.identity Identity.Clashes

/-- The committed content of the schema. -/
structure Database where
  tasks : TaskTable
  taskLogs : List LogRecord
  deadLetters : List DeadLetterRecord

/-- The schema right after the migration. -/
def Database.empty : Database :=
  ⟨Table.empty, [], []⟩

/-- The task with the given primary key. -/
def Database.find (db : Database) (id : TaskId) : Option TaskRecord :=
  db.tasks.lookup Identity.id id

/-- The task with the given type and idempotency key. -/
def Database.findKey (db : Database) (type key : Text) :
    Option TaskRecord :=
  db.tasks.rows.find? fun row =>
    row.type = type ∧ row.idempotencyKey = some key

/-- The audit trail of one task, oldest entry first. -/
def Database.logsOf (db : Database) (id : TaskId) : List LogRecord :=
  db.taskLogs.filter fun entry => entry.taskId = id

/-- The dead letters of one task. -/
def Database.deadLettersOf (db : Database) (id : TaskId) :
    List DeadLetterRecord :=
  db.deadLetters.filter fun letter => letter.taskId = id

@[simp]
theorem Database.find_empty (id : TaskId) :
    Database.empty.find id = none :=
  rfl

@[simp]
theorem Database.logsOf_empty (id : TaskId) :
    Database.empty.logsOf id = [] :=
  rfl

@[simp]
theorem Database.deadLettersOf_empty (id : TaskId) :
    Database.empty.deadLettersOf id = [] :=
  rfl

variable {row : TaskRecord} {db : Database} {id : TaskId}

theorem Database.find_eq_some_iff :
    db.find id = some row ↔ row ∈ db.tasks.rows ∧ row.id = id :=
  Table.lookup_eq_some_iff Identity.Clashes.symm Identity.clashes_of_id

theorem Database.find_eq_none_iff :
    db.find id = none ↔ ∀ row ∈ db.tasks.rows, row.id ≠ id :=
  Table.lookup_eq_none_iff

theorem Database.find_id
    (found : db.find id = some row) :
    row.id = id :=
  (Database.find_eq_some_iff.mp found).2

theorem Database.find_of_mem
    (member : row ∈ db.tasks.rows) :
    db.find row.id = some row :=
  Database.find_eq_some_iff.mpr ⟨member, rfl⟩

theorem Database.ids_nodup (db : Database) :
    (db.tasks.rows.map fun row => row.id).Nodup := by
  rw [List.Nodup, List.pairwise_map]
  apply db.tasks.distinct.imp
  intro first second apart same
  exact apart (Or.inl same)

theorem Database.findKey_eq_some_iff
    {type key : Text} :
    db.findKey type key = some row ↔
      row ∈ db.tasks.rows ∧ row.type = type ∧
        row.idempotencyKey = some key := by
  constructor
  · intro found
    exact
      ⟨List.mem_of_find?_eq_some found,
        by simpa using List.find?_some found⟩
  · rintro ⟨member, sameType, sameKey⟩
    cases found : db.findKey type key with
    | none =>
        have absent := List.find?_eq_none.mp found row member
        simp [sameType, sameKey] at absent
    | some other =>
        have otherMember := List.mem_of_find?_eq_some found
        have otherKeyed :
            other.type = type ∧ other.idempotencyKey = some key := by
          simpa using List.find?_some found
        have same : other = row := by
          apply db.tasks.eq_of_clash Identity.Clashes.symm otherMember member
          refine Or.inr ⟨?_, ?_, ?_⟩
          · exact otherKeyed.1.trans sameType.symm
          · simp [TaskRecord.identity, otherKeyed.2]
          · exact otherKeyed.2.trans sameKey.symm
        rw [same]

theorem Database.findKey_eq_none_iff
    {type key : Text} :
    db.findKey type key = none ↔
      ∀ row ∈ db.tasks.rows,
        row.type = type → row.idempotencyKey ≠ some key := by
  simp [Database.findKey]

/-- The row clashes with none of the table. -/
def Database.Free (db : Database) (row : TaskRecord) : Prop :=
  ∀ old ∈ db.tasks.rows, ¬ old.identity.Clashes row.identity

theorem Database.Free.find_eq_none
    (free : db.Free row) :
    db.find row.id = none := by
  rw [Database.find_eq_none_iff]
  intro old member same
  exact free old member (Or.inl same)

/-- The row is stored, up to the columns that may change. -/
def Database.Keeps (db : Database) (row : TaskRecord) : Prop :=
  ∃ current, db.find row.id = some current ∧ current.fixed = row.fixed

theorem Database.Keeps.of_mem
    (member : row ∈ db.tasks.rows) : db.Keeps row :=
  ⟨row, Database.find_of_mem member, rfl⟩

theorem Database.free_iff :
    db.Free row ↔
      db.find row.id = none ∧
        ∀ key, row.idempotencyKey = some key →
          db.findKey row.type key = none := by
  constructor
  · intro free
    refine ⟨free.find_eq_none, ?_⟩
    intro key keyed
    rw [Database.findKey_eq_none_iff]
    intro old member sameType sameKey
    apply free old member
    refine Or.inr ⟨sameType, ?_, ?_⟩
    · simp [TaskRecord.identity, sameKey]
    · exact sameKey.trans keyed.symm
  · rintro ⟨absent, untaken⟩ old member clash
    rcases clash with sameId | ⟨sameType, keyed, sameKey⟩
    · exact Database.find_eq_none_iff.mp absent old member sameId
    · rcases Option.isSome_iff_exists.mp keyed with ⟨key, oldKeyed⟩
      exact Database.findKey_eq_none_iff.mp
        (untaken key (sameKey.symm.trans oldKeyed)) old member
        sameType oldKeyed

/-! ## Writes -/

/-- The row changes a statement can make. -/
inductive Write where
  | insertTask (row : TaskRecord)
  | updateTask (row : TaskRecord)
  | insertLog (entry : LogRecord)
  | insertDeadLetter (letter : DeadLetterRecord)
  | deleteDeadLetters (id : TaskId)

/-- Apply one row change. -/
def Write.apply : Write → Database → Database
  | .insertTask row, db => { db with tasks := db.tasks.insert row }
  | .updateTask row, db => { db with tasks := db.tasks.replace row }
  | .insertLog entry, db =>
      { db with taskLogs := db.taskLogs ++ [entry] }
  | .insertDeadLetter letter, db =>
      { db with deadLetters := db.deadLetters ++ [letter] }
  | .deleteDeadLetters id, db =>
      { db with
        deadLetters :=
          db.deadLetters.filter fun letter => letter.taskId ≠ id }

/-- The task whose row, logs or dead letters a write changes. -/
def Write.task : Write → TaskId
  | .insertTask row => row.id
  | .updateTask row => row.id
  | .insertLog entry => entry.taskId
  | .insertDeadLetter letter => letter.taskId
  | .deleteDeadLetters id => id

/-! ## Views

The view of a task is everything the three tables hold about it.  A write
only changes the view of its own task.
-/

/-- The row, the audit trail and the dead letters of one task. -/
@[ext]
structure TaskView where
  row : Option TaskRecord
  logs : List LogRecord
  deadLetters : List DeadLetterRecord

/-- What the database holds about one task. -/
def Database.view (db : Database) (id : TaskId) : TaskView :=
  ⟨db.find id, db.logsOf id, db.deadLettersOf id⟩

@[simp]
theorem Database.view_row (db : Database) (id : TaskId) :
    (db.view id).row = db.find id :=
  rfl

@[simp]
theorem Database.view_logs (db : Database) (id : TaskId) :
    (db.view id).logs = db.logsOf id :=
  rfl

@[simp]
theorem Database.view_deadLetters (db : Database) (id : TaskId) :
    (db.view id).deadLetters = db.deadLettersOf id :=
  rfl

theorem Write.view_other
    {write : Write} (other : write.task ≠ id) (db : Database) :
    (write.apply db).view id = db.view id := by
  cases write with
  | insertTask row =>
      have sameRow : ((Write.insertTask row).apply db).find id =
          db.find id :=
        Table.lookup_insert_other other
      rw [Database.view, sameRow]
      rfl
  | updateTask row =>
      have sameRow : ((Write.updateTask row).apply db).find id =
          db.find id :=
        Table.lookup_replace_other other
      rw [Database.view, sameRow]
      rfl
  | insertLog entry =>
      change entry.taskId ≠ id at other
      have sameLogs : ((Write.insertLog entry).apply db).logsOf id =
          db.logsOf id := by
        simp [Write.apply, Database.logsOf, other]
      rw [Database.view, sameLogs]
      rfl
  | insertDeadLetter letter =>
      change letter.taskId ≠ id at other
      have sameLetters :
          ((Write.insertDeadLetter letter).apply db).deadLettersOf id =
            db.deadLettersOf id := by
        simp [Write.apply, Database.deadLettersOf, other]
      rw [Database.view, sameLetters]
      rfl
  | deleteDeadLetters task =>
      change task ≠ id at other
      have sameLetters :
          ((Write.deleteDeadLetters task).apply db).deadLettersOf id =
            db.deadLettersOf id := by
        simp only [Write.apply, Database.deadLettersOf, List.filter_filter]
        apply List.filter_congr
        intro letter _
        by_cases same : letter.taskId = id
        · simp [same, Ne.symm other]
        · simp [same]
      rw [Database.view, sameLetters]
      rfl

theorem Write.view_updateTask
    {old : TaskRecord} (found : db.find row.id = some old)
    (same : old.identity = row.identity) :
    ((Write.updateTask row).apply db).view row.id =
      { db.view row.id with row := some row } := by
  have replaced : ((Write.updateTask row).apply db).find row.id =
      some row :=
    Table.lookup_replace_same Identity.Clashes.symm
      Identity.clashes_of_id found same
  rw [Database.view, replaced]
  rfl

theorem Write.rows_insertTask
    (free : db.Free row) :
    ((Write.insertTask row).apply db).tasks.rows = db.tasks.rows ++ [row] :=
  Table.rows_insert free

theorem Write.view_insertTask
    (free : db.Free row) :
    ((Write.insertTask row).apply db).view row.id =
      { db.view row.id with row := some row } := by
  have stored : ((Write.insertTask row).apply db).find row.id =
      some row := by
    apply Database.find_of_mem
    rw [Write.rows_insertTask free]
    simp
  rw [Database.view, stored]
  rfl

theorem Write.view_insertLog
    (entry : LogRecord) (db : Database) :
    ((Write.insertLog entry).apply db).view entry.taskId =
      { db.view entry.taskId with
        logs := db.logsOf entry.taskId ++ [entry] } := by
  simp [Database.view, Write.apply, Database.find, Database.logsOf,
    Database.deadLettersOf]

theorem Write.view_insertDeadLetter
    (letter : DeadLetterRecord) (db : Database) :
    ((Write.insertDeadLetter letter).apply db).view letter.taskId =
      { db.view letter.taskId with
        deadLetters := db.deadLettersOf letter.taskId ++ [letter] } := by
  simp [Database.view, Write.apply, Database.find, Database.logsOf,
    Database.deadLettersOf]

theorem Write.view_deleteDeadLetters (id : TaskId) (db : Database) :
    ((Write.deleteDeadLetters id).apply db).view id =
      { db.view id with deadLetters := [] } := by
  simp [Database.view, Write.apply, Database.find, Database.logsOf,
    Database.deadLettersOf]

end Dhara
