import Dhara.Playground.Retention
import Dhara.Playground.Service
import Dhara.Store.Creation

/-!
# The queue of the playground

Requests of visitors, workers, reapers and retention work on one queue.  A
request that enqueues holds `enqueueMu` from its capacity check to its last
insertion.  `RetryOwned` reads the status of the task before it takes the
mutex, and checks the capacity only if it has read `DEAD`.

A call of the store takes effect as a whole, and everything else may happen
between two calls.  The invariant counts, on top of the queue, the tasks that
the holder of the mutex has been admitted for and has not inserted yet.
-/

namespace Dhara.Playground

open Dhara.Store Dhara.Transaction

variable {db : Database} {after : Database} {id : TaskId} {call : Call}

/-! ## Requests in progress -/

/-- What a request still has to do. -/
inductive Work where
  | inserts (plan : Plan)
  | retry (id : TaskId) (status : TaskStatus)
  | cancel (id : TaskId)

/-- What a request returns. -/
inductive Outcome where
  | refused (error : ServiceError)
  | enqueued (result : EnqueueResult)
  | scenario (name : GoString) (count : Nat) (taskIDs : List TaskId)
      (error : Option ServiceError)
  | task (task : Task)

/-- Where a request is. -/
inductive Stage where
  | arrived (request : Request)
  | ready (work : Work)
  | holding (work : Work)
  | admitted (work : Work) (taskIDs : List TaskId)
  | returned (outcome : Outcome)

/-- The work is done under the mutex. -/
def Work.locks : Work → Bool
  | .cancel _ => false
  | _ => true

/-- The capacity that is checked before the work is done. -/
def Work.needs : Work → Option Nat
  | .inserts plan => some plan.count
  | .retry _ .dead => some 1
  | _ => none

/-- `GetStoredTask` and `requireOwned` in front of a retry or a cancel. -/
def readOwned (session : GoString) (id : TaskId)
    (work : TaskStatus → Work) (fault : Option Fault)
    (db : Database) : Stage :=
  match fault with
  | some fault =>
      .returned (.refused (.wrapped "get stored task" fault))
  | none =>
      match db.find id with
      | none => .returned (.refused .taskNotFound)
      | some row =>
          match requireOwned (row.idempotencyKey.map Text.bytes)
              session with
          | .error error => .returned (.refused error)
          | .ok () => .ready (work row.status)

/-- The insertions of a request, if its checks succeed. -/
def planned : Except ServiceError Plan → Stage
  | .error error => .returned (.refused error)
  | .ok plan => .ready (.inserts plan)

/-- The depth of the queue that `QueueMetrics` reports. -/
def queueDepth (db : Database) : Int :=
  (db.tasks.rows.countP fun row => row.status = .pending) +
    (db.tasks.rows.countP fun row => row.status = .running)

/-- `ensureCapacity`. -/
def ensureCapacity (config : Config) (count : Nat)
    (fault : Option Fault) (db : Database) :
    Except ServiceError Unit :=
  match fault with
  | some fault => .error (.wrapped "read queue depth" fault)
  | none =>
      if config.maxPending < queueDepth db + count then
        .error .queueFull
      else
        .ok ()

/-- The check in front of the work. -/
def Work.check (config : Config) (fault : Option Fault) (db : Database)
    (work : Work) : Except ServiceError Unit :=
  match work.needs with
  | none => .ok ()
  | some count => ensureCapacity config count fault db

/-! ## Calls of the client -/

/-- The result of `Insert`, from what `Create` returns. -/
def receipt : Response → Except ClientError EnqueueResult
  | .created task result => enqueueResult task result
  | _ => .error (.store .noRows)

/-- The outcome of a request that `RetryTask` or `CancelTask` answers. -/
def taskResult
    (answer : Except StoreError TaskRow → Except ClientError Task) :
    Response → Outcome
  | .task result =>
      match answer result with
      | .error error => .refused (.client error)
      | .ok task => .task task
  | _ => .refused (.client (.store .noRows))

/-- The outcome of a request with insertions that ends with an error. -/
def Plan.failed (plan : Plan) (taskIDs : List TaskId)
    (error : ServiceError) : Outcome :=
  match plan.scenario with
  | none => .refused error
  | some name => .scenario name 0 taskIDs (some error)

section Calls

variable (platform : Platform)

/-- `Insert`: its result and the committed state after it. -/
def insert (now : Time) (params : InsertParams) (answers : Answers)
    (db : Database) : Except ClientError EnqueueResult × Database :=
  match (params.normalize now).validate now with
  | .error message => (.error (.validation message), db)
  | .ok () =>
      let outcome :=
        execute platform
          ⟨.create (params.normalize now).toStoreTask, answers⟩ db
      (receipt outcome.result, outcome.link.db)

/-- The next insertion of a request, or its end. -/
def Plan.next (plan : Plan) (taskIDs : List TaskId) (now : Time)
    (uuid : GoString) (answers : Answers) (db : Database) :
    Stage × Database :=
  if taskIDs.length < plan.count then
    match plan.insertion taskIDs.length now uuid with
    | .error error => (.returned (plan.failed taskIDs error), db)
    | .ok params =>
        let inserted := insert platform now params answers db
        match inserted.1 with
        | .error error =>
            (.returned (plan.failed taskIDs (.client error)), inserted.2)
        | .ok result =>
            match plan.scenario with
            | none => (.returned (.enqueued result), inserted.2)
            | some _ =>
                (.admitted (.inserts plan) (taskIDs ++ [result.task.id]),
                  inserted.2)
  else
    (.returned
      (.scenario (plan.scenario.getD []) taskIDs.length taskIDs none),
      db)

/-- The next call of the client that a request makes. -/
def Work.next (work : Work) (taskIDs : List TaskId) (now : Time)
    (uuid : GoString) (answers : Answers) (db : Database) :
    Stage × Database :=
  match work with
  | .inserts plan => plan.next platform taskIDs now uuid answers db
  | .retry id _ =>
      let outcome := execute platform ⟨.retryDead id, answers⟩ db
      (.returned (taskResult retryTask outcome.result), outcome.link.db)
  | .cancel id =>
      let outcome := execute platform ⟨.cancel id, answers⟩ db
      (.returned (taskResult cancelTask outcome.result), outcome.link.db)

end Calls

/-! ## The system -/

/-- The committed state, the requests, and the holder of `enqueueMu`. -/
structure State where
  db : Database
  requests : List Stage := []
  holder : Option Nat := none

/-- The calls of workers and reapers. -/
def inBackground : Call → Bool
  | .claim _ => true
  | .heartbeat _ _ => true
  | .markCompleted _ _ _ => true
  | .markPending _ _ _ _ => true
  | .markDead _ _ _ _ => true
  | .requeueStaleRunning _ _ => true
  | _ => false

/-- What a retention run deletes. -/
structure Sweep where
  rows : TaskId → Bool
  logs : LogRecord → Bool
  letters : DeadLetterRecord → Bool

/-- What a retention run leaves. -/
def sweep (deleted : Sweep) (db : Database) : Database where
  tasks := db.tasks.filter fun row => !deleted.rows row.id
  taskLogs := db.taskLogs.filter fun entry => !deleted.logs entry
  deadLetters := db.deadLetters.filter fun letter => !deleted.letters letter

/-- A step of the system. -/
inductive Step where
  | arrive (request : Request)
  | prepare (index : Nat) (now : Time) (uuid : GoString)
      (fault : Option Fault)
  | lock (index : Nat)
  | check (index : Nat) (fault : Option Fault)
  | call (index : Nat) (now : Time) (uuid : GoString)
      (answers : Answers)
  | background (call : Call) (answers : Answers)
  | retain (cutoff : Time) (deleted : Sweep)

section Steps

variable (platform : Platform) (runtime : Runtime) (config : Config)

/-- The part of a request before the mutex. -/
def Request.prepare (request : Request) (now : Time) (uuid : GoString)
    (fault : Option Fault) (db : Database) : Stage :=
  match request with
  | .createTask session input =>
      planned (Playground.createTask runtime config session input now uuid)
  | .enqueueBurst session size =>
      planned (Playground.enqueueBurst runtime config session size)
  | .enqueueFlaky session count mode succeedAfterMS =>
      planned
        (Playground.enqueueFlaky runtime config session count mode
          succeedAfterMS)
  | .enqueueSlow session count =>
      planned (Playground.enqueueSlow runtime config session count)
  | .retryOwned session id =>
      readOwned session id (.retry id) fault db
  | .cancelOwned session id =>
      readOwned session id (fun _ => .cancel id) fault db

/-- The request is at its next stage; the mutex is free after its end. -/
def State.proceed (state : State) (index : Nat)
    (next : Stage × Database) : State where
  db := next.2
  requests := state.requests.set index next.1
  holder :=
    match next.1 with
    | .returned _ =>
        if state.holder = some index then none else state.holder
    | _ => state.holder

/-- One step. -/
def State.step (state : State) : Step → Option State
  | .arrive request =>
      some { state with requests := state.requests ++ [.arrived request] }
  | .prepare index now uuid fault =>
      match state.requests[index]? with
      | some (.arrived request) =>
          some
            (state.proceed index
              (request.prepare runtime config now uuid fault state.db,
                state.db))
      | _ => none
  | .lock index =>
      match state.requests[index]?, state.holder with
      | some (.ready work), none =>
          if work.locks then
            some
              { state with
                requests := state.requests.set index (.holding work)
                holder := some index }
          else
            none
      | _, _ => none
  | .check index fault =>
      match state.requests[index]? with
      | some (.holding work) =>
          match work.check config fault state.db with
          | .error error =>
              some
                (state.proceed index (.returned (.refused error), state.db))
          | .ok () =>
              some (state.proceed index (.admitted work [], state.db))
      | _ => none
  | .call index now uuid answers =>
      match state.requests[index]? with
      | some (.admitted work taskIDs) =>
          some
            (state.proceed index
              (work.next platform taskIDs now uuid answers state.db))
      | some (.ready (.cancel id)) =>
          some
            (state.proceed index
              (Work.next platform (.cancel id) [] now uuid answers state.db))
      | _ => none
  | .background call answers =>
      if inBackground call then
        some
          { state with
            db := (execute platform ⟨call, answers⟩ state.db).link.db }
      else
        none
  | .retain cutoff deleted =>
      if state.db.tasks.rows.all fun row =>
          !deleted.rows row.id || expired cutoff row then
        some { state with db := sweep deleted state.db }
      else
        none

/-- The state after a run. -/
def State.follow (state : State) : List Step → Option State
  | [] => some state
  | step :: rest =>
      (state.step platform runtime config step).bind fun next =>
        next.follow rest

/--
A task whose retry skips the capacity check, because it was not `DEAD` when
its status was read, is not `DEAD` when it is retried.
-/
def Step.upToDate (state : State) : Step → Bool
  | .call index _ _ _ =>
      match state.requests[index]? with
      | some (.admitted (.retry id status) _) =>
          status = .dead ∨
            (state.db.find id).all fun row => row.status ≠ .dead
      | _ => true
  | _ => true

/-- No retry of the run relies on a status that is out of date. -/
def State.upToDate (state : State) : List Step → Bool
  | [] => true
  | step :: rest =>
      step.upToDate state &&
        match state.step platform runtime config step with
        | none => true
        | some next => next.upToDate rest

end Steps

/-! ## Retention -/

theorem find_sweep (deleted : Sweep) (db : Database) (id : TaskId) :
    (sweep deleted db).find id =
      if deleted.rows id then none else db.find id := by
  have found :
      (sweep deleted db).find id =
        (db.find id).filter fun row => !deleted.rows row.id :=
    find_filter _ db id
  rw [found]
  cases stored : db.find id with
  | none => simp
  | some row =>
      rw [← Database.find_id stored]
      cases gone : deleted.rows row.id <;> simp [Option.filter, gone]

theorem publishes_untouched
    {platform : Platform} {commits : Commits}
    (published : (contract platform).Publishes db commits after)
    (other : ∀ commit ∈ commits, ∀ write ∈ commit.2, write.task ≠ id) :
    after.view id = db.view id := by
  induction published with
  | nil => rfl
  | snoc earlier call writes lawful induction =>
      rw [view_applyAll_other (other (call, writes) (by simp))]
      exact induction fun commit member =>
        other commit (List.mem_append_left _ member)

/-- A retention run that commits leaves the rows that a sweep leaves. -/
theorem deleteOlderThan_sweeps
    {platform : Platform} {cutoff : Time} {faults : Nat → Option Fault}
    {first second third : Commits}
    {afterFirst afterSecond afterThird : Database} {count : Nat}
    (reached : Reached platform db)
    (firstly : (contract platform).Publishes db first afterFirst)
    (secondly : (contract platform).Publishes afterFirst second afterSecond)
    (thirdly : (contract platform).Publishes afterSecond third afterThird)
    (locked :
      ∀ commit ∈ third, ∀ write ∈ commit.2,
        oldTask cutoff afterSecond write.task = false)
    (done :
      (deleteOlderThan platform cutoff faults first second third db).1 =
        .ok count) :
    ∃ deleted : Sweep,
      (∀ row ∈ afterThird.tasks.rows,
        deleted.rows row.id = true → expired cutoff row = true) ∧
        ∀ id,
          (deleteOlderThan platform cutoff faults first second third
              db).2.find id =
            (sweep deleted afterThird).find id := by
  have overlay :=
    cleanup_overlay reached.lettered firstly secondly thirdly locked
      (deleteOlderThan_committed done)
  refine ⟨⟨oldTask cutoff afterSecond, fun _ => false, fun _ => false⟩,
    ?_, ?_⟩
  · intro row member old
    replace old : oldTask cutoff afterSecond row.id = true := old
    have same : afterThird.view row.id = afterSecond.view row.id :=
      publishes_untouched thirdly fun commit listed write written equal => by
        have spared := locked commit listed write written
        rw [equal, old] at spared
        cases spared
    have found := congrArg TaskView.row same
    rw [Database.view_row, Database.view_row,
      Database.find_of_mem member] at found
    rw [oldTask, ← found] at old
    exact old
  · intro id
    rw [find_sweep]
    split_ifs with old
    · exact congrArg TaskView.row (overlay.clean id old)
    · exact (overlay.kept id (Bool.eq_false_of_not_eq_true old)).row

/-! ## The depth of the queue -/

/-- The row counts for the depth of the queue. -/
def active (row : TaskRecord) : Bool :=
  row.status = .pending ∨ row.status = .running

/-- The tasks in the queue. -/
def activeIds (db : Database) : List TaskId :=
  (db.tasks.rows.filter active).map TaskRecord.id

/-- The task is in the queue. -/
def activeAt (db : Database) (id : TaskId) : Bool :=
  (db.find id).any active

theorem mem_activeIds :
    id ∈ activeIds db ↔ activeAt db id = true := by
  simp only [activeIds, activeAt, List.mem_map, List.mem_filter,
    Option.any_eq_true]
  constructor
  · rintro ⟨row, ⟨member, queued⟩, same⟩
    exact ⟨row, Database.find_eq_some_iff.mpr ⟨member, same⟩, queued⟩
  · rintro ⟨row, found, queued⟩
    have stored := Database.find_eq_some_iff.mp found
    exact ⟨row, ⟨stored.1, queued⟩, stored.2⟩

theorem activeIds_nodup (db : Database) : (activeIds db).Nodup := by
  have sub : List.Sublist (activeIds db) (db.tasks.rows.map TaskRecord.id) :=
    List.Sublist.map TaskRecord.id List.filter_sublist
  exact db.ids_nodup.sublist sub

theorem queueDepth_eq (db : Database) :
    queueDepth db = (activeIds db).length := by
  have split :
      ∀ rows : List TaskRecord,
        (rows.filter active).length =
          (rows.countP fun row => row.status = .pending) +
            rows.countP fun row => row.status = .running := by
    intro rows
    induction rows with
    | nil => rfl
    | cons row rest induction =>
        cases status : row.status <;>
          simp [active, status, induction] <;> omega
  rw [queueDepth, activeIds, List.length_map, split]
  push_cast
  rfl

theorem queueDepth_le
    {before : Database}
    (left : ∀ id, activeAt after id = true → activeAt before id = true) :
    queueDepth after ≤ queueDepth before := by
  rw [queueDepth_eq, queueDepth_eq]
  have sub : activeIds after ⊆ activeIds before := by
    intro id member
    exact mem_activeIds.mpr (left id (mem_activeIds.mp member))
  exact_mod_cast
    (List.subperm_of_subset (activeIds_nodup after) sub).length_le

theorem queueDepth_le_succ
    {before : Database} {joined : TaskId}
    (left :
      ∀ id, activeAt after id = true →
        activeAt before id = true ∨ id = joined) :
    queueDepth after ≤ queueDepth before + 1 := by
  rw [queueDepth_eq, queueDepth_eq]
  have sub : activeIds after ⊆ joined :: activeIds before := by
    intro id member
    rcases left id (mem_activeIds.mp member) with old | new
    · exact List.mem_cons_of_mem _ (mem_activeIds.mpr old)
    · rw [new]
      exact List.mem_cons_self
  exact_mod_cast
    (List.subperm_of_subset (activeIds_nodup after) sub).length_le

/-! ## What the calls do to the depth -/

/-- The calls that bring no task into the queue. -/
def drains : Call → Bool
  | .cancel _ => true
  | call => inBackground call

theorem drains_of_background
    (background : inBackground call = true) :
    drains call = true := by
  cases call with
  | cancel id => rfl
  | _ => exact background

theorem ViewStep.drains
    {platform : Platform} {before after : TaskView}
    {wrote : Option TaskRecord}
    (step : ViewStep platform call before wrote after)
    (quiet : drains call = true) (queued : after.row.any active = true) :
    before.row.any active = true := by
  cases step with
  | stay => exact queued
  | enqueue row logs letters enqueues =>
      rcases enqueues with ⟨task, member, _⟩
      cases call <;> simp_all [Call.tasks, Playground.drains, inBackground]
  | beat workerID row now logs letters owned =>
      simp only [TaskRecord.ownedBy, decide_eq_true_eq] at owned
      simp [active, owned.1]
  | move move logs letters enabled performs =>
      have made := performs.makes
      have notRetry : move.change ≠ .retryDead := by
        intro revived
        rw [revived] at made
        cases call <;>
          simp_all [Call.makes, Playground.drains, inBackground]
      cases changed : move.change <;>
        simp_all [Change.Enabled, TaskRecord.due, TaskRecord.ownedBy,
          active, Move.after, Change.set]

section Depth

variable {platform : Platform} {db : Database}

theorem Lawful.drains
    {writes : List Write} (lawful : Lawful platform db call writes)
    (quiet : drains call = true) :
    queueDepth ((postgres platform).applyAll writes db) ≤ queueDepth db := by
  apply queueDepth_le
  intro id queued
  exact ViewStep.drains (lawful.viewStep id) quiet queued

/-- A call that brings no task into the queue. -/
theorem execute_drains
    (platform : Platform) (db : Database) (call : Call)
    (quiet : drains call = true) (answers : Answers) :
    queueDepth (execute platform ⟨call, answers⟩ db).link.db ≤
      queueDepth db := by
  rcases execute_delivers platform ⟨call, answers⟩ db with
    ⟨published, publishes, _⟩
  have kept :
      ∀ current other writes,
        drains other = true → queueDepth current ≤ queueDepth db →
          Lawful platform current other writes →
            queueDepth ((postgres platform).applyAll writes current) ≤
              queueDepth db :=
    fun _ _ _ calm held lawful => (Lawful.drains lawful calm).trans held
  apply publishes.invariant_of (contract platform) kept _ le_rfl
  intro commit member
  rcases List.mem_map.mp member with ⟨writes, _, equal⟩
  rw [← equal]
  exact quiet

/-- A commit whose writes concern one task lets one task in. -/
theorem queueDepth_writes
    (platform : Platform) (db : Database) {writes : List Write}
    (id : TaskId) (own : ∀ write ∈ writes, write.task = id) :
    queueDepth ((postgres platform).applyAll writes db) ≤
      queueDepth db + 1 := by
  apply queueDepth_le_succ
  intro other queued
  by_cases same : other = id
  · exact Or.inr same
  · refine Or.inl ?_
    have kept :
        ((postgres platform).applyAll writes db).view other =
          db.view other := by
      apply view_applyAll_other
      intro write member equal
      exact same (equal.symm.trans (own write member))
    have sameRow := congrArg TaskView.row kept
    rw [Database.view_row, Database.view_row] at sameRow
    rwa [activeAt, sameRow] at queued

/-- `Create` stores at most one row. -/
theorem execute_create_db (task : TaskRow) (answers : Answers) :
    (execute platform ⟨.create task, answers⟩ db).link.db = db ∨
      ∃ row,
        (execute platform ⟨.create task, answers⟩ db).link.db =
          (postgres platform).applyAll [.insertTask row] db := by
  cases execute_create platform task answers db with
  | failed fails => exact Or.inl fails.same
  | inserted row result stored => exact Or.inr ⟨row, stored⟩
  | found row same => exact Or.inl same
  | swallowed payloadHash fault same => exact Or.inl same

theorem insert_depth (platform : Platform) (db : Database)
    (now : Time) (params : InsertParams) (answers : Answers) :
    queueDepth (insert platform now params answers db).2 ≤
      queueDepth db + 1 := by
  unfold insert
  split
  · exact Int.le_add_one le_rfl
  · rcases execute_create_db (params.normalize now).toStoreTask answers
      with same | ⟨row, stored⟩
    · exact Int.le_add_one (le_of_eq (congrArg queueDepth same))
    · refine le_of_eq_of_le (congrArg queueDepth stored)
        (queueDepth_writes platform db row.id ?_)
      simp [Write.task]

/-- `RetryDead` moves one dead task or changes nothing. -/
theorem execute_retry_db (id : TaskId) (answers : Answers) :
    (execute platform ⟨.retryDead id, answers⟩ db).link.db = db ∨
      ∃ move : Move,
        (execute platform ⟨.retryDead id, answers⟩ db).link.db =
            (postgres platform).applyAll (writesOf [move]) db ∧
          db.find id = some move.row ∧ move.row.status = .dead := by
  rcases execute_delivers platform ⟨.retryDead id, answers⟩ db with
    ⟨published, publishes, ensured⟩
  rcases ensured with ⟨move, committed, _, performs, _⟩ | ⟨committed, _⟩
  · rw [List.nil_append] at committed
    subst published
    rcases publishes.of_single (contract platform) with
      ⟨lawful, applied⟩
    rcases Lawful.moves lawful (by simp [writesOf]) rfl
        (fun _ _ equal => by cases equal)
        (fun _ _ equal => by cases equal) with
      ⟨other, sameWrites, legal, performed⟩
    refine Or.inr ⟨other, ?_, ?_, ?_⟩
    · rw [applied, sameWrites]
    · rw [← performed.1]
      exact legal.found
    · have enabled := legal.enabled
      rw [performed.2.1] at enabled
      exact enabled
  · rw [List.nil_append] at committed
    subst published
    exact Or.inl (publishes.eq_of_nil (contract platform))

theorem execute_retry_depth (platform : Platform) (db : Database)
    (id : TaskId) (answers : Answers) :
    queueDepth (execute platform ⟨.retryDead id, answers⟩ db).link.db ≤
      queueDepth db + 1 := by
  rcases execute_retry_db id answers with same | ⟨move, moved, _⟩
  · rw [same]
    exact Int.le_add_one le_rfl
  · rw [moved]
    apply queueDepth_writes platform db move.row.id
    intro write member
    by_contra other
    have apart : ∀ only ∈ [move], only.row.id ≠ write.task := by
      simpa using Ne.symm other
    exact writesOf_task apart write member rfl

/-- The retry of a task that is not dead changes nothing. -/
theorem execute_retry_current (answers : Answers)
    (current : ∀ row, db.find id = some row → row.status ≠ .dead) :
    (execute platform ⟨.retryDead id, answers⟩ db).link.db = db := by
  rcases execute_retry_db id answers with same | ⟨move, _, found, dead⟩
  · exact same
  · exact absurd dead (current move.row found)

theorem sweep_depth (deleted : Sweep) :
    queueDepth (sweep deleted db) ≤ queueDepth db := by
  apply queueDepth_le
  intro id queued
  rw [activeAt, find_sweep] at queued
  rw [activeAt]
  split_ifs at queued
  · simp at queued
  · exact queued

end Depth

/-! ## The invariant -/

/-- The tasks that a request may still let in. -/
def Stage.reserved : Stage → Nat
  | .admitted (.inserts plan) taskIDs => plan.count - taskIDs.length
  | .admitted (.retry _ .dead) _ => 1
  | _ => 0

/-- The request holds the mutex. -/
def Stage.inside : Stage → Bool
  | .holding _ => true
  | .admitted _ _ => true
  | _ => false

/-- The request has returned. -/
def Stage.ended : Stage → Bool
  | .returned _ => true
  | _ => false

variable {stage : Stage}

theorem Stage.reserved_of_outside
    (outside : stage.inside = false) :
    stage.reserved = 0 := by
  cases stage with
  | admitted work taskIDs => cases outside
  | _ => rfl

/-- The tasks that the holder of the mutex may still let in. -/
def State.reserved (state : State) : Nat :=
  match state.holder with
  | none => 0
  | some index => (state.requests[index]?).elim 0 Stage.reserved

/-- Only the holder is inside, and what it may let in fits the queue. -/
structure Capped (config : Config) (state : State) : Prop where
  exclusive :
    ∀ index stage,
      state.requests[index]? = some stage → stage.inside = true →
        state.holder = some index
  room : queueDepth state.db + state.reserved ≤ config.maxPending

section Invariant

variable {platform : Platform} {runtime : Runtime} {config : Config}
  {state : State} {index : Nat} {work : Work}

theorem Capped.depth (capped : Capped config state) :
    queueDepth state.db ≤ config.maxPending := by
  have room := capped.room
  omega

theorem Capped.of_depth
    (capped : Capped config state)
    (less : queueDepth db ≤ queueDepth state.db) :
    Capped config { state with db } := by
  refine ⟨capped.exclusive, ?_⟩
  have room := capped.room
  change queueDepth db + state.reserved ≤ config.maxPending
  omega

theorem State.proceed_requests
    (state : State) (index : Nat) (next : Stage × Database) :
    (state.proceed index next).requests = state.requests.set index next.1 :=
  rfl

theorem State.proceed_holder
    (state : State) (index : Nat) (next : Stage × Database) :
    (state.proceed index next).holder =
      if next.1.ended ∧ state.holder = some index then none
      else state.holder := by
  simp only [State.proceed]
  cases next.1 <;> simp [Stage.ended]

theorem State.proceed_same
    (found : state.requests[index]? = some stage) (next : Stage × Database) :
    (state.proceed index next).requests[index]? = some next.1 := by
  have valid := (List.getElem?_eq_some_iff.mp found).1
  rw [State.proceed_requests, List.getElem?_set_self valid]

theorem State.proceed_other
    (state : State) {other : Nat} (apart : index ≠ other)
    (next : Stage × Database) :
    (state.proceed index next).requests[other]? = state.requests[other]? := by
  rw [State.proceed_requests, List.getElem?_set_ne apart]

theorem Stage.outside_of_ended
    (ended : stage.ended = true) :
    stage.inside = false := by
  cases stage with
  | returned outcome => rfl
  | _ => cases ended

/-- A step of the holder that stays within its admission. -/
theorem Capped.proceed_inside
    (capped : Capped config state)
    (found : state.requests[index]? = some stage)
    (inside : stage.inside = true) {next : Stage × Database}
    (room : queueDepth next.2 + next.1.reserved ≤ config.maxPending) :
    Capped config (state.proceed index next) := by
  have held := capped.exclusive index stage found inside
  have sole :
      ∀ other stage,
        (state.proceed index next).requests[other]? = some stage →
          stage.inside = true → other = index ∧ stage = next.1 := by
    intro other stage stored within
    by_cases same : index = other
    · subst other
      rw [State.proceed_same found, Option.some.injEq] at stored
      exact ⟨rfl, stored.symm⟩
    · rw [state.proceed_other same] at stored
      have holds := capped.exclusive other stage stored within
      rw [held, Option.some.injEq] at holds
      exact absurd holds same
  cases ended : next.1.ended with
  | true =>
      have free : (state.proceed index next).holder = none := by
        rw [State.proceed_holder, if_pos ⟨ended, held⟩]
      refine ⟨?_, ?_⟩
      · intro other stage stored within
        rcases sole other stage stored within with ⟨_, equal⟩
        rw [equal, Stage.outside_of_ended ended] at within
        cases within
      · rw [State.reserved, free]
        change queueDepth next.2 + 0 ≤ config.maxPending
        omega
  | false =>
      have kept : (state.proceed index next).holder = some index := by
        rw [State.proceed_holder, ended]
        simpa using held
      refine ⟨?_, ?_⟩
      · intro other stage stored within
        rcases sole other stage stored within with ⟨same, _⟩
        rw [same]
        exact kept
      · rw [State.reserved, kept]
        simp only [State.proceed_same found, Option.elim_some]
        exact room

/-- A step of a request that does not hold the mutex. -/
theorem Capped.proceed_outside
    (capped : Capped config state)
    (found : state.requests[index]? = some stage)
    (outside : stage.inside = false) {next : Stage × Database}
    (stays : next.1.inside = false)
    (less : queueDepth next.2 ≤ queueDepth state.db) :
    Capped config (state.proceed index next) := by
  have sameReserved :
      (state.proceed index next).reserved = state.reserved := by
    rw [State.reserved, State.reserved, State.proceed_holder]
    cases held : state.holder with
    | none => simp
    | some holder =>
        by_cases same : index = holder
        · subst holder
          simp only [found, Option.elim_some,
            Stage.reserved_of_outside outside]
          split_ifs
          · rfl
          · simp only [State.proceed_same found, Option.elim_some]
            exact Stage.reserved_of_outside stays
        · rw [if_neg fun both =>
            same (Option.some.inj both.2).symm]
          simp only [state.proceed_other same]
  refine ⟨?_, ?_⟩
  · intro other stage stored within
    have apart : index ≠ other := by
      intro same
      subst other
      rw [State.proceed_same found, Option.some.injEq] at stored
      rw [← stored, stays] at within
      cases within
    rw [state.proceed_other apart] at stored
    have holds := capped.exclusive other stage stored within
    rw [State.proceed_holder, if_neg, holds]
    rintro ⟨_, mine⟩
    rw [holds, Option.some.injEq] at mine
    exact apart mine.symm
  · rw [sameReserved]
    have room := capped.room
    change queueDepth next.2 + state.reserved ≤ config.maxPending
    omega

/-- What a request does before the mutex leaves it outside. -/
theorem Request.prepare_outside
    (request : Request) (now : Time) (uuid : GoString)
    (fault : Option Fault) (db : Database) :
    (request.prepare runtime config now uuid fault db).inside =
      false := by
  have plans :
      ∀ plan : Except ServiceError Plan, (planned plan).inside = false := by
    intro plan
    cases plan <;> rfl
  have reads :
      ∀ session id work,
        (readOwned session id work fault db).inside = false := by
    intro session id work
    unfold readOwned
    split
    · rfl
    · split
      · rfl
      · split <;> rfl
  cases request with
  | createTask session input => exact plans _
  | enqueueBurst session size => exact plans _
  | enqueueFlaky session count mode succeedAfterMS => exact plans _
  | enqueueSlow session count => exact plans _
  | retryOwned session id => exact reads _ _ _
  | cancelOwned session id =>
      exact reads session id fun _ => .cancel id

/-- The admission covers the work. -/
theorem Work.check_room
    {fault : Option Fault} (depth : queueDepth db ≤ config.maxPending)
    (passed : work.check config fault db = .ok ()) :
    queueDepth db + (Stage.admitted work []).reserved ≤
      config.maxPending := by
  have ensured :
      ∀ count, ensureCapacity config count fault db = .ok () →
        queueDepth db + count ≤ config.maxPending := by
    intro count checked
    unfold ensureCapacity at checked
    split at checked
    · cases checked
    · split_ifs at checked with full
      omega
  cases work with
  | inserts plan =>
      have room := ensured plan.count passed
      simpa [Stage.reserved] using room
  | retry id status =>
      cases status with
      | dead =>
          have room := ensured 1 passed
          simpa [Stage.reserved] using room
      | _ => simpa [Stage.reserved] using depth
  | cancel id => simpa [Stage.reserved] using depth

/-- An insertion uses up one of the tasks its request was admitted for. -/
theorem Plan.next_room
    (plan : Plan) (taskIDs : List TaskId) (now : Time) (uuid : GoString)
    (answers : Answers)
    (room :
      queueDepth db +
          (Stage.admitted (.inserts plan) taskIDs).reserved ≤
        config.maxPending) :
    queueDepth
          (plan.next platform taskIDs now uuid answers db).2 +
        (plan.next platform taskIDs now uuid answers db).1.reserved ≤
      config.maxPending := by
  simp only [Stage.reserved] at room
  unfold Plan.next
  split_ifs with more
  · split
    · change queueDepth db + 0 ≤ config.maxPending
      omega
    · rename_i params _
      have grown := insert_depth platform db now params answers
      generalize insert platform now params answers db = inserted
        at grown ⊢
      rcases inserted with ⟨result, after⟩
      change queueDepth after ≤ queueDepth db + 1 at grown
      cases result with
      | error error =>
          change queueDepth after + 0 ≤ config.maxPending
          omega
      | ok result =>
          cases plan.scenario with
          | none =>
              change queueDepth after + 0 ≤ config.maxPending
              omega
          | some name =>
              simp only [Stage.reserved, List.length_append,
                List.length_singleton]
              omega
  · change queueDepth db + 0 ≤ config.maxPending
    omega

/-- A call of the client stays within the admission of its request. -/
theorem Work.next_room
    {taskIDs : List TaskId}
    (current :
      ∀ id status, work = .retry id status → status ≠ .dead →
        ∀ row, db.find id = some row → row.status ≠ .dead)
    (now : Time) (uuid : GoString) (answers : Answers)
    (room :
      queueDepth db + (Stage.admitted work taskIDs).reserved ≤
        config.maxPending) :
    queueDepth (work.next platform taskIDs now uuid answers db).2 +
        (work.next platform taskIDs now uuid answers db).1.reserved ≤
      config.maxPending := by
  cases work with
  | inserts plan => exact plan.next_room taskIDs now uuid answers room
  | retry id status =>
      change queueDepth
        (execute platform ⟨.retryDead id, answers⟩ db).link.db + 0 ≤
          config.maxPending
      by_cases dead : status = .dead
      · subst status
        have grown := execute_retry_depth platform db id answers
        simp only [Stage.reserved] at room
        omega
      · rw [execute_retry_current answers (current id status rfl dead)]
        omega
  | cancel id =>
      change queueDepth
        (execute platform ⟨.cancel id, answers⟩ db).link.db + 0 ≤
          config.maxPending
      have drained := execute_drains platform db (.cancel id) rfl answers
      simp only [Stage.reserved] at room
      omega

section

variable (capped : Capped config state)

include capped

theorem Capped.arrive (request : Request) :
    Capped config
      { state with requests := state.requests ++ [.arrived request] } := by
  have stored :
      ∀ index : Nat,
        (state.requests ++ [Stage.arrived request])[index]? =
            state.requests[index]? ∨
          state.requests[index]? = none ∧
            (state.requests ++ [Stage.arrived request])[index]? =
              some (Stage.arrived request) := by
    intro index
    rcases lt_trichotomy index state.requests.length with
      early | equal | late
    · exact Or.inl (List.getElem?_append_left early)
    · subst equal
      simp
    · have short : state.requests[index]? = none := by simp; omega
      have ends :
          (state.requests ++ [Stage.arrived request])[index]? = none := by
        simp
        omega
      exact Or.inl (ends.trans short.symm)
  refine ⟨?_, ?_⟩
  · intro index stage found inside
    rcases stored index with same | ⟨_, new⟩
    · exact capped.exclusive index stage (same ▸ found) inside
    · have arrived :
          (state.requests ++ [Stage.arrived request])[index]? =
            some stage := found
      rw [arrived, Option.some.injEq] at new
      subst stage
      cases inside
  · have room := capped.room
    have same :
        State.reserved
            { state with
              requests := state.requests ++ [.arrived request] } =
          state.reserved := by
      simp only [State.reserved]
      cases state.holder with
      | none => rfl
      | some index =>
          rcases stored index with same | ⟨old, new⟩
          · simp only [same]
          · simp only [old, new, Option.elim_none, Option.elim_some]
            rfl
    rw [same]
    exact room

theorem Capped.lock
    (found : state.requests[index]? = some (.ready work))
    (free : state.holder = none) :
    Capped config
      { state with
        requests := state.requests.set index (.holding work)
        holder := some index } := by
  have valid := (List.getElem?_eq_some_iff.mp found).1
  refine ⟨?_, ?_⟩
  · intro other stage stored inside
    by_cases same : index = other
    · rw [same]
    · have kept : state.requests[other]? = some stage := by
        rw [← stored, List.getElem?_set_ne same]
      have held := capped.exclusive other stage kept inside
      rw [free] at held
      cases held
  · have depth := capped.depth
    simpa [State.reserved, List.getElem?_set_self valid,
      Stage.reserved] using depth

theorem Capped.admitted_room {taskIDs : List TaskId}
    (found : state.requests[index]? = some (.admitted work taskIDs)) :
    queueDepth state.db + (Stage.admitted work taskIDs).reserved ≤
      config.maxPending := by
  have held := capped.exclusive index _ found rfl
  have room := capped.room
  simpa only [State.reserved, held, found, Option.elim_some] using room

/-- One step keeps the invariant. -/
theorem Capped.step {step : Step} {next : State}
    (current : step.upToDate state = true)
    (stepped : state.step platform runtime config step = some next) :
    Capped config next := by
  cases step with
  | arrive request =>
      cases stepped
      exact capped.arrive request
  | prepare index now uuid fault =>
      simp only [State.step] at stepped
      split at stepped
      · rename_i request found
        cases stepped
        exact capped.proceed_outside found rfl
          (request.prepare_outside now uuid fault state.db) le_rfl
      · cases stepped
  | lock index =>
      simp only [State.step] at stepped
      split at stepped
      · rename_i work found free
        split_ifs at stepped
        cases stepped
        exact capped.lock found free
      · cases stepped
  | check index fault =>
      simp only [State.step] at stepped
      split at stepped
      · rename_i work found
        split at stepped
        · cases stepped
          exact capped.proceed_inside found rfl (by
            change queueDepth state.db + 0 ≤ config.maxPending
            have depth := capped.depth
            omega)
        · rename_i passed
          cases stepped
          exact capped.proceed_inside found rfl
            (Work.check_room capped.depth passed)
      · cases stepped
  | call index now uuid answers =>
      simp only [State.step] at stepped
      split at stepped
      · rename_i work taskIDs found
        cases stepped
        refine capped.proceed_inside found rfl
          (Work.next_room ?_ now uuid answers (capped.admitted_room found))
        intro id status equal alive row stored
        subst work
        simp only [Step.upToDate, found, stored, alive, false_or,
          Option.all_some, decide_eq_true_eq] at current
        exact current
      · rename_i id found
        cases stepped
        exact capped.proceed_outside found rfl rfl
          (execute_drains platform state.db (.cancel id) rfl answers)
      · cases stepped
  | background call answers =>
      simp only [State.step] at stepped
      split_ifs at stepped with allowed
      cases stepped
      exact capped.of_depth
        (execute_drains platform state.db call
          (drains_of_background allowed) answers)
  | retain cutoff deleted =>
      simp only [State.step] at stepped
      split_ifs at stepped
      cases stepped
      exact capped.of_depth (sweep_depth deleted)

/-- Every run without outdated retries keeps the invariant. -/
theorem Capped.follow {run : List Step} {final : State}
    (current : state.upToDate platform runtime config run = true)
    (followed : state.follow platform runtime config run = some final) :
    Capped config final := by
  induction run generalizing state with
  | nil =>
      cases followed
      exact capped
  | cons step rest induction =>
      rw [State.follow, Option.bind_eq_some_iff] at followed
      rcases followed with ⟨next, stepped, followed⟩
      rw [State.upToDate, stepped, Bool.and_eq_true] at current
      exact induction (capped.step current.1 stepped) current.2 followed

end

end Invariant

/--
The queue stays within `MaxPending` in every state of every run in which no
task dies between the read of its status and its retry.
-/
theorem queue_cap_of_current_retries
    (platform : Platform) (runtime : Runtime) (config : Config)
    (db : Database) (start : queueDepth db ≤ config.maxPending)
    (run : List Step) (final : State)
    (followed : State.follow platform runtime config { db } run = some final)
    (current : State.upToDate platform runtime config { db } run = true) :
    queueDepth final.db ≤ config.maxPending := by
  have capped : Capped config { db } := by
    refine ⟨?_, ?_⟩
    · intro index stage found
      simp at found
    · simpa [State.reserved] using start
  exact (capped.follow current followed).depth

/-! ## A task that dies before its retry -/

/-- The session of a visitor. -/
def visitor : GoString := ascii "00000000-0000-4000-8000-000000000001"

/-- An echo task is created for the visitor by request `index`. -/
def echoCreated (index : Nat) (id : TaskId) : List Step :=
  [.arrive (.createTask visitor { type := typeEcho, runAt := some 0 }),
    .prepare index 0 (itoa index) none, .lock index, .check index none,
    .call index 0 [] (calm id 0)]

/-- The retry reads the status before the task dies. -/
def outdatedRetry : List Step :=
  echoCreated 0 7 ++
    [.background (.claim (ascii "w")) (calm 0 0),
      .arrive (.retryOwned visitor 7), .prepare 1 0 [] none,
      .background (.markDead 7 (ascii "w") (ascii "e") (ascii "e"))
        (calm 0 0)] ++
    echoCreated 2 8 ++
    [.lock 1, .check 1 none, .call 1 0 [] (calm 0 0)]

/-- The retry reads the status after the task has died. -/
def timelyRetry : List Step :=
  echoCreated 0 7 ++
    [.background (.claim (ascii "w")) (calm 0 0),
      .background (.markDead 7 (ascii "w") (ascii "e") (ascii "e"))
        (calm 0 0),
      .arrive (.retryOwned visitor 7), .prepare 1 0 [] none, .lock 1,
      .check 1 none, .call 1 0 [] (calm 0 0)]

theorem outdatedRetry_exceeds_cap :
    (State.follow echoPlatform plainRuntime { maxPending := 1 }
        { db := .empty } outdatedRetry).map
      (fun final => queueDepth final.db) = some 2 := by
  decide +kernel

theorem timelyRetry_within_cap :
    (State.follow echoPlatform plainRuntime { maxPending := 1 }
        { db := .empty } timelyRetry).isSome = true ∧
      ∀ final,
        State.follow echoPlatform plainRuntime { maxPending := 1 }
            { db := .empty } timelyRetry = some final →
          queueDepth final.db ≤ 1 := by
  refine ⟨by decide +kernel, fun final followed => ?_⟩
  exact queue_cap_of_current_retries echoPlatform plainRuntime
    { maxPending := 1 } .empty (by decide) timelyRetry final followed
    (by decide +kernel)

end Dhara.Playground
