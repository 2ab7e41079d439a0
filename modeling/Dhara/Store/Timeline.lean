import Dhara.Store.Invariants
import Dhara.Transaction.Counters
import Dhara.Transaction.Stamps

/-!
# The order of the log entries

A log entry gets its number from the sequence of its table when it is
inserted, and the start time of its transaction as its time.  Its task is
locked by then, because the same transaction has updated the row.

So the numbers of the entries of a task follow the order in which the status
of the task was changed.  Its times do so only if the transactions began in
that order.
-/

namespace Dhara.Store

open Dhara.Transaction

variable {id : TaskId} {db : Database} {entry : LogRecord} {stmt : Stmt}

/-- The stamps of the log entries. -/
def logStamping : Stamping Write Resource Oracle Time where
  about
    | .insertLog entry => some (.task entry.taskId)
    | _ => none
  number
    | .insertLog entry => entry.id
    | _ => 0
  time
    | .insertLog entry => entry.createdAt
    | _ => 0
  draw := Oracle.logId

/-- What is asked of the methods about their log entries. -/
abbrev logWatch : Watch Database Write Resource Time Response :=
  logStamping.watch Database Response

section Statements

variable {platform : Platform}

/-- The task a statement writes a log entry about. -/
def Stmt.logged : Stmt → Option TaskId
  | .insertLog id _ _ => some id
  | _ => none

/-- The log entries a statement writes. -/
theorem eval_logs
    {now : Time} {others : Resource → Bool} {oracle : Oracle}
    {effect : Effect (Reply stmt) Write Resource}
    (evaluated : eval platform now others oracle stmt db = .ok effect)
    (member : .insertLog entry ∈ effect.writes) :
    stmt.logged = some entry.taskId ∧ entry.id = oracle.logId ∧
      entry.createdAt = now := by
  cases stmt with
  | insertTask args =>
      rcases evalInsert_cases evaluated with
        ⟨task, _, ⟨_, equal⟩ | ⟨_, _, equal⟩⟩
      · simp [equal] at member
      · simp [equal] at member
  | update id update =>
      rcases evalUpdate_cases evaluated with
        ⟨change, _, ⟨_, equal⟩ | ⟨row, _, _, equal⟩⟩
      · simp [equal] at member
      · simp [equal] at member
  | selectDue workerID =>
      simp only [eval, map_eq_ok_iff] at evaluated
      rcases evaluated with ⟨_, _, equal⟩
      subst effect
      rcases evalSelectDue_cases now others oracle db with
        equal | ⟨row, _, _, _, equal⟩
      · simp [equal] at member
      · simp [equal] at member
  | requeueStale threshold =>
      cases evaluated
      simp [evalRequeueStale] at member
  | insertLog id status message =>
      simp only [eval, bind_eq_ok_iff] at evaluated
      rcases evaluated with ⟨text, _, evaluated⟩
      rw [evalReferencing_cases evaluated] at member
      cases List.mem_singleton.mp member
      exact ⟨rfl, rfl, rfl⟩
  | insertDeadLetter id lastError =>
      simp only [eval, bind_eq_ok_iff] at evaluated
      rcases evaluated with ⟨text, _, evaluated⟩
      simp [evalReferencing_cases evaluated] at member
  | getByTypeAndIdempotencyKey type key =>
      simp only [eval, bind_eq_ok_iff, map_eq_ok_iff] at evaluated
      rcases evaluated with ⟨text, _, other, _, equal⟩
      simp [← equal] at member
  | getById id =>
      cases evaluated
      simp at member
  | deleteDeadLetters id =>
      cases evaluated
      simp at member

theorem logStamping_about
    {write : Write} {res : Resource}
    (stamped : logStamping.about write = some res) :
    ∃ entry, write = .insertLog entry ∧ res = .task entry.taskId := by
  cases write with
  | insertLog entry =>
      cases stamped
      exact ⟨entry, rfl, rfl⟩
  | _ => cases stamped

theorem logStamping_sound : logStamping.Sound (postgres platform) := by
  intro clock others oracle stmt db effect evaluated write member res stamped
  rcases logStamping_about stamped with ⟨entry, equal, _⟩
  subst write
  exact (eval_logs evaluated member).2

end Statements

/-! ## The methods -/

section Programs

variable
    {platform : Platform} {tx : Option (Tx Write Resource Time)}
    {locks : List Resource}

variable {next : StoreProgram Response} {fail : StoreError → Response}
  {context : String}

variable {update : Update}

/-- The open transaction has locked these resources. -/
def Holding (locks : List Resource)
    (tx : Option (Tx Write Resource Time)) : Prop :=
  ∀ opened, tx = some opened → locks ⊆ opened.locks

theorem exec_obeys
    {next : Except Fault (Reply stmt) → StoreProgram Response}
    (failing :
      ∀ fault after,
        (next (.error fault)).Obeys (postgres platform) logWatch after)
    (logged : ∀ id, stmt.logged = some id → Holding [.task id] tx)
    (answered :
      ∀ now others oracle db effect,
        eval platform now others oracle stmt db = .ok effect →
          ∀ after, Holding effect.locks after →
            (∀ locks, Holding locks tx → Holding locks after) →
              (next (.ok effect.reply)).Obeys (postgres platform)
                logWatch after) :
    (Program.exec stmt next).Obeys (postgres platform) logWatch tx := by
  refine ⟨fun fault after _ => failing fault after, ?_⟩
  intro opened others oracle db effect located held _ evaluated
  constructor
  · apply logStamping_sound.extend held evaluated
    intro write member res stamped
    rcases logStamping_about stamped with ⟨entry, equal, about⟩
    subst write
    subst res
    have known := logged _ (eval_logs evaluated member).1
    exact List.mem_append_left _ (known opened located (by simp))
  · apply answered _ _ _ _ effect evaluated
    · intro current same
      cases same
      exact List.subset_append_right _ _
    · intro locks holding current same
      cases same
      exact List.subset_append_of_subset_left _ (holding opened located)

theorem sendTx_obeys
    (logged : ∀ id, stmt.logged = some id → .task id ∈ locks)
    (holding : Holding locks tx)
    (sent :
      ∀ after, Holding locks after →
        next.Obeys (postgres platform) logWatch after) :
    (sendTx fail stmt context next).Obeys (postgres platform) logWatch
      tx := by
  apply exec_obeys
  · intro fault after
    exact True.intro
  · intro id target opened located
    simpa using holding opened located (logged id target)
  · intro now others oracle db effect _ after _ grows
    exact sent after (grows locks holding)

theorem commitTx_obeys
    (committed : next.Obeys (postgres platform) logWatch none) :
    (commitTx fail context next).Obeys (postgres platform) logWatch
      tx :=
  ⟨fun _ _ _ => True.intro, committed⟩

theorem openTx_obeys
    (opened : ∀ tx, next.Obeys (postgres platform) logWatch tx) :
    (openTx fail next).Obeys (postgres platform) logWatch tx :=
  ⟨fun _ _ _ => True.intro, fun _ => opened _⟩

theorem getById_obeys
    {next : Option TaskRow → StoreProgram Response}
    (answered : ∀ task, (next task).Obeys (postgres platform) logWatch tx) :
    (getById fail id next).Obeys (postgres platform) logWatch tx := by
  refine ⟨fun _ _ _ => True.intro, ?_⟩
  intro clock others oracle db effect _ evaluated
  cases evaluated
  refine ⟨?_, ?_⟩
  · intro write member
    simp at member
  · cases db.find id with
    | none => exact answered none
    | some row => exact answered (some (scanTask row))

/-- A guarded update of one row, followed by what is logged about it. -/
theorem update_obeys
    {next : Except Fault (Option TaskRecord) → StoreProgram Response}
    (failing :
      ∀ fault after,
        (next (.error fault)).Obeys (postgres platform) logWatch after)
    (missed :
      ∀ after, (next (.ok none)).Obeys (postgres platform) logWatch after)
    (updated :
      ∀ row after, row.id = id → Holding [.task id] after →
        (next (.ok (some row))).Obeys (postgres platform) logWatch after) :
    (Program.exec (.update id update) next).Obeys (postgres platform)
      logWatch tx := by
  apply exec_obeys failing (fun _ impossible => by cases impossible)
  intro now others oracle db effect evaluated after holding _
  rcases evalUpdate_cases evaluated with
    ⟨change, _, ⟨_, equal⟩ | ⟨row, found, _, equal⟩⟩
  · subst effect
    exact missed after
  · subst effect
    apply updated _ after _ holding
    rw [change.set_id]
    exact Database.find_id found

/-- No log entry is written while tasks are enqueued. -/
theorem createTx_obeys
    {task : TaskRow}
    {next : TaskRow → Except StoreError Bool → StoreProgram Response}
    (returned :
      ∀ task result after,
        (next task result).Obeys (postgres platform) logWatch after) :
    (createTx platform task next).Obeys (postgres platform) logWatch
      tx := by
  unfold createTx insertTask
  cases hashPayload platform task.payload with
  | none => exact returned _ _ _
  | some payloadHash =>
      apply exec_obeys
      · intro fault after
        exact returned _ _ after
      · intro id impossible
        cases impossible
      · intro now others oracle db effect _ after _ _
        cases effect.reply with
        | some row => exact returned _ _ after
        | none =>
            change (replayTask task payloadHash next).Obeys _ _ after
            unfold replayTask
            cases task.idempotencyKey with
            | none => exact returned _ _ after
            | some key =>
                apply exec_obeys
                · intro fault last
                  exact returned _ _ last
                · intro id impossible
                  cases impossible
                · intro now others oracle db effect _ last _ _
                  cases effect.reply with
                  | none => exact returned _ _ last
                  | some row =>
                      dsimp only
                      split_ifs
                      · exact returned _ _ last
                      · exact returned _ _ last

theorem createEach_obeys
    {next : List (TaskRow × Except StoreError Bool) → StoreProgram Response}
    (returned :
      ∀ results after,
        (next results).Obeys (postgres platform) logWatch after)
    (tasks : List TaskRow)
    (results : List (TaskRow × Except StoreError Bool))
    (tx : Option (Tx Write Resource Time)) :
    (createEach platform tasks results next).Obeys (postgres platform)
      logWatch tx := by
  induction tasks generalizing results tx with
  | nil => exact returned results tx
  | cons task rest induction =>
      apply createTx_obeys
      intro task result after
      exact induction _ after

/-- A transaction that ends an execution. -/
theorem updateOwned_obeys
    (updated :
      ∀ after, Holding [.task id] after →
        next.Obeys (postgres platform) logWatch after) :
    (updateOwned id update context next).Obeys (postgres platform)
      logWatch tx := by
  apply openTx_obeys
  intro opened
  apply update_obeys
  · intro fault after
    exact True.intro
  · intro after
    exact True.intro
  · intro row after _ holding
    exact updated after holding

theorem insertLog_obeys
    {status : TaskStatus} {message : GoString} (holding : Holding locks tx)
    (member : .task id ∈ locks)
    (sent :
      ∀ after, Holding locks after →
        next.Obeys (postgres platform) logWatch after) :
    (insertLog fail id status message context next).Obeys
      (postgres platform) logWatch tx := by
  apply sendTx_obeys _ holding sent
  intro target same
  cases same
  exact member

theorem scanReaped_obeys
    (scanned : next.Obeys (postgres platform) logWatch tx)
    (reaped : List ReapedTask) :
    (scanReaped next reaped).Obeys (postgres platform) logWatch tx := by
  induction reaped with
  | nil => exact ⟨fun _ _ _ => True.intro, scanned⟩
  | cons task rest induction =>
      exact ⟨fun _ _ _ => True.intro, induction⟩

theorem logReaped_obeys
    {reaperID : GoString}
    (logged : ∀ after, next.Obeys (postgres platform) logWatch after)
    (reaped : List ReapedTask) (holding : Holding locks tx)
    (locked : ∀ task ∈ reaped, .task task.id ∈ locks) :
    (logReaped reaperID next reaped).Obeys (postgres platform) logWatch
      tx := by
  induction reaped generalizing tx with
  | nil => exact logged tx
  | cons task rest induction =>
      apply insertLog_obeys holding (locked task (by simp))
      intro after grown
      apply induction grown
      intro other member
      exact locked other (List.mem_cons_of_mem task member)

/-- The reaper has locked what it reports. -/
theorem mem_locks_of_reaped
    {now threshold : Time} {others : Resource → Bool} {task : ReapedTask}
    (member : task ∈ (evalRequeueStale now threshold others db).reply) :
    .task task.id ∈ (evalRequeueStale now threshold others db).locks := by
  simp only [evalRequeueStale, List.mem_append, List.mem_map,
    List.mem_filter] at member ⊢
  rcases member with ⟨row, ⟨stale, _⟩, equal⟩ | ⟨row, ⟨stale, _⟩, equal⟩
  · exact ⟨row, stale, by rw [← equal]; rfl⟩
  · exact ⟨row, stale, by rw [← equal]; rfl⟩

variable (platform) in
/-- Every method writes its log entries under the lock on their task. -/
theorem Call.program_obeys (call : Call) :
    (call.program platform).Obeys (postgres platform) logWatch none := by
  cases call with
  | create task =>
      unfold Call.program Store.create
      apply openTx_obeys
      intro opened
      apply createTx_obeys
      intro task result after
      cases result with
      | error error => exact True.intro
      | ok created => exact commitTx_obeys True.intro
  | callerTx tasks commits =>
      unfold Call.program Store.callerTx
      apply openTx_obeys
      intro opened
      apply createEach_obeys
      intro results after
      split_ifs
      · exact commitTx_obeys True.intro
      · exact True.intro
  | cancel id =>
      apply openTx_obeys
      intro opened
      apply update_obeys
      · intro fault after
        exact True.intro
      · intro after
        apply getById_obeys
        intro task
        cases task with
        | none => exact True.intro
        | some current => exact True.intro
      · intro row after same holding
        subst id
        exact insertLog_obeys holding (by simp) fun _ _ =>
          commitTx_obeys True.intro
  | claim workerID =>
      apply openTx_obeys
      intro opened
      apply exec_obeys
      · intro fault after
        exact True.intro
      · intro id impossible
        cases impossible
      · intro now others oracle db effect _ after _ _
        cases effect.reply with
        | none => exact True.intro
        | some id =>
            apply update_obeys
            · intro fault last
              exact True.intro
            · intro last
              exact True.intro
            · intro row last same holding
              subst id
              exact insertLog_obeys holding (by simp) fun _ _ =>
                commitTx_obeys True.intro
  | heartbeat taskID workerID =>
      refine ⟨fun _ _ _ => True.intro, ?_⟩
      intro clock others oracle db effect _ evaluated
      change eval platform clock others oracle
        (.update taskID (.heartbeat workerID)) db = .ok effect
        at evaluated
      constructor
      · intro write member
        cases stamped : logStamping.about write with
        | none => rfl
        | some res =>
            rcases logStamping_about stamped with ⟨entry, equal, _⟩
            subst write
            cases (eval_logs evaluated member).1
      · cases effect.reply with
        | none => exact True.intro
        | some row => exact True.intro
  | markCompleted taskID workerID durationMs =>
      apply updateOwned_obeys
      intro after holding
      exact insertLog_obeys holding (by simp) fun _ _ =>
        commitTx_obeys True.intro
  | markPending task workerID lastError nextRunAt =>
      apply updateOwned_obeys
      intro after holding
      exact insertLog_obeys holding (by simp) fun _ _ =>
        commitTx_obeys True.intro
  | markDead taskID workerID lastError reason =>
      apply updateOwned_obeys
      intro after holding
      apply sendTx_obeys (by simp [Stmt.logged]) holding
      intro later kept
      exact insertLog_obeys kept (by simp) fun _ _ =>
        commitTx_obeys True.intro
  | retryDead taskID =>
      apply openTx_obeys
      intro opened
      apply update_obeys
      · intro fault after
        exact True.intro
      · intro after
        apply getById_obeys
        intro task
        cases task with
        | none => exact True.intro
        | some current => exact True.intro
      · intro row after _ holding
        apply sendTx_obeys (by simp [Stmt.logged]) holding
        intro later kept
        exact insertLog_obeys kept (by simp) fun _ _ =>
          commitTx_obeys True.intro
  | requeueStaleRunning staleThreshold reaperID =>
      apply openTx_obeys
      intro opened
      apply exec_obeys
      · intro fault after
        exact True.intro
      · intro id impossible
        cases impossible
      · intro now others oracle db effect evaluated after holding _
        cases evaluated
        apply scanReaped_obeys
        apply logReaped_obeys _ _ holding
        · intro task member
          exact mem_locks_of_reaped member
        · intro last
          exact commitTx_obeys True.intro

/-! Every method opens its transaction first, if it opens one. -/

theorem createTx_beginless
    {Result : Type} {task : TaskRow}
    {next : TaskRow → Except StoreError Bool → StoreProgram Result}
    (returned : ∀ task result, (next task result).Beginless) :
    (createTx platform task next).Beginless := by
  unfold createTx insertTask
  cases hashPayload platform task.payload with
  | none => exact returned _ _
  | some payloadHash =>
      intro reply
      match reply with
      | .error fault => exact returned _ _
      | .ok (some row) => exact returned _ _
      | .ok none =>
          change (replayTask task payloadHash next).Beginless
          unfold replayTask
          cases task.idempotencyKey with
          | none => exact returned _ _
          | some key =>
              intro found
              match found with
              | .error fault => exact returned _ _
              | .ok none => exact returned _ _
              | .ok (some row) =>
                  dsimp only
                  split_ifs
                  · exact returned _ _
                  · exact returned _ _

theorem createEach_beginless
    {Result : Type}
    {next : List (TaskRow × Except StoreError Bool) → StoreProgram Result}
    (returned : ∀ results, (next results).Beginless)
    (tasks : List TaskRow)
    (results : List (TaskRow × Except StoreError Bool)) :
    (createEach platform tasks results next).Beginless := by
  induction tasks generalizing results with
  | nil => exact returned results
  | cons task rest induction =>
      apply createTx_beginless
      intro task result
      exact induction _

theorem sendTx_beginless
    {Result : Type} {fail : StoreError → Result} {next : StoreProgram Result}
    (sent : next.Beginless) :
    (sendTx fail stmt context next).Beginless := by
  intro reply
  cases reply with
  | error fault => exact True.intro
  | ok _ => exact sent

theorem commitTx_beginless
    {Result : Type} {fail : StoreError → Result} {next : StoreProgram Result}
    (committed : next.Beginless) :
    (commitTx fail context next).Beginless := by
  intro reply
  cases reply with
  | error fault => exact True.intro
  | ok _ => exact committed

theorem openTx_opensFirst
    {Result : Type} {fail : StoreError → Result}
    {next : StoreProgram Result} (opened : next.Beginless) :
    (openTx fail next).OpensFirst := by
  intro reply
  cases reply with
  | error fault => exact True.intro
  | ok _ => exact opened

theorem getById_beginless
    {Result : Type} {fail : StoreError → Result}
    {next : Option TaskRow → StoreProgram Result}
    (answered : ∀ task, (next task).Beginless) :
    (getById fail id next).Beginless := by
  intro reply
  match reply with
  | .error fault => exact True.intro
  | .ok none => exact answered none
  | .ok (some row) => exact answered (some (scanTask row))

theorem updateOwned_opensFirst
    (updated : next.Beginless) :
    (updateOwned id update context next).OpensFirst := by
  apply openTx_opensFirst
  intro reply
  match reply with
  | .error fault => exact True.intro
  | .ok none => exact True.intro
  | .ok (some row) => exact updated

theorem scanReaped_beginless
    (scanned : next.Beginless)
    (reaped : List ReapedTask) : (scanReaped next reaped).Beginless := by
  induction reaped with
  | nil =>
      intro reply
      cases reply with
      | error fault => exact True.intro
      | ok _ => exact scanned
  | cons task rest induction =>
      intro reply
      cases reply with
      | error fault => exact True.intro
      | ok _ => exact induction

theorem logReaped_beginless
    {reaperID : GoString} (logged : next.Beginless)
    (reaped : List ReapedTask) :
    (logReaped reaperID next reaped).Beginless := by
  induction reaped with
  | nil => exact logged
  | cons task rest induction => exact sendTx_beginless induction

variable (platform) in
theorem Call.program_opensFirst (call : Call) :
    (call.program platform).OpensFirst := by
  cases call with
  | create task =>
      unfold Call.program Store.create
      apply openTx_opensFirst
      apply createTx_beginless
      intro task result
      cases result with
      | error error => exact True.intro
      | ok created => exact commitTx_beginless True.intro
  | callerTx tasks commits =>
      unfold Call.program Store.callerTx
      apply openTx_opensFirst
      apply createEach_beginless
      intro results
      split_ifs
      · exact commitTx_beginless True.intro
      · exact True.intro
  | cancel id =>
      apply openTx_opensFirst
      intro reply
      match reply with
      | .error fault => exact True.intro
      | .ok none =>
          apply getById_beginless
          intro task
          cases task with
          | none => exact True.intro
          | some current => exact True.intro
      | .ok (some row) =>
          exact sendTx_beginless (commitTx_beginless True.intro)
  | claim workerID =>
      apply openTx_opensFirst
      intro reply
      match reply with
      | .error fault => exact True.intro
      | .ok none => exact True.intro
      | .ok (some id) =>
          intro updated
          match updated with
          | .error fault => exact True.intro
          | .ok none => exact True.intro
          | .ok (some row) =>
              exact sendTx_beginless (commitTx_beginless True.intro)
  | heartbeat taskID workerID =>
      intro reply
      match reply with
      | .error fault => exact True.intro
      | .ok none => exact True.intro
      | .ok (some row) => exact True.intro
  | markCompleted taskID workerID durationMs =>
      exact updateOwned_opensFirst
        (sendTx_beginless (commitTx_beginless True.intro))
  | markPending task workerID lastError nextRunAt =>
      exact updateOwned_opensFirst
        (sendTx_beginless (commitTx_beginless True.intro))
  | markDead taskID workerID lastError reason =>
      exact updateOwned_opensFirst (sendTx_beginless
        (sendTx_beginless (commitTx_beginless True.intro)))
  | retryDead taskID =>
      apply openTx_opensFirst
      intro reply
      match reply with
      | .error fault => exact True.intro
      | .ok none =>
          apply getById_beginless
          intro task
          cases task with
          | none => exact True.intro
          | some current => exact True.intro
      | .ok (some row) =>
          exact sendTx_beginless
            (sendTx_beginless (commitTx_beginless True.intro))
  | requeueStaleRunning staleThreshold reaperID =>
      apply openTx_opensFirst
      intro reply
      match reply with
      | .error fault => exact True.intro
      | .ok reaped =>
          apply scanReaped_beginless
          apply logReaped_beginless
          exact commitTx_beginless True.intro

end Programs

/-! ## Schedules -/

section Schedules

variable {platform : Platform} {schedule : List StoreLabel}
  {config : StoreConfig} {commit : StoreCommit}

/-- The log sequence hands out increasing numbers. -/
def Sequenced (schedule : List StoreLabel) : Prop :=
  (logStamping.drawn schedule).Pairwise (· ≤ ·)

instance (schedule : List StoreLabel) : Decidable (Sequenced schedule) :=
  inferInstanceAs (Decidable (List.Pairwise _ _))

theorem interleave_stamped
    (sequenced : Sequenced schedule)
    (followed : interleave platform db schedule = some config) :
    logStamping.Ordered schedule config ∧
      logStamping.Timed (Call.program platform) schedule config :=
  logStamping_sound.follow (Call.program_opensFirst platform)
    (Call.program_obeys platform)
    (fun _ _ reached => (interleave_ok reached).disjoint) sequenced
    followed

/-- The log entries of a task that a commit writes. -/
def entriesOf (id : TaskId) (commit : StoreCommit) : List LogRecord :=
  commit.writes.filterMap fun
    | .insertLog entry => if entry.taskId = id then some entry else none
    | _ => none

/-- The log entries of a task, in the order in which they were committed. -/
def timeline (id : TaskId) (history : List StoreCommit) :
    List LogRecord :=
  history.flatMap (entriesOf id)

/-- The status a task is moved to, if it is moved. -/
def transition (before after : Option TaskRecord) : Option TaskStatus :=
  match before, after with
  | some old, some new =>
      if old.status = new.status then none else some new.status
  | _, _ => none

variable (platform) in
/-- The status transitions of a task, in the order of the commits. -/
def transitions (id : TaskId) (start : Database)
    (history : List StoreCommit) : List TaskStatus :=
  ((postgres platform).replay start history).filterMap fun entry =>
    transition (entry.1.find id)
      (((postgres platform).applyAll entry.2.writes entry.1).find id)

theorem mem_entriesOf :
    entry ∈ entriesOf id commit ↔
      .insertLog entry ∈ commit.writes ∧ entry.taskId = id := by
  rw [entriesOf, List.mem_filterMap]
  constructor
  · rintro ⟨write, member, equal⟩
    cases write with
    | insertLog other =>
        dsimp only at equal
        split_ifs at equal with same
        cases equal
        exact ⟨member, same⟩
    | _ => cases equal
  · rintro ⟨member, same⟩
    exact ⟨.insertLog entry, member, if_pos same⟩

theorem logsOf_applyAll
    (id : TaskId) (db : Database) (commit : StoreCommit) :
    ((postgres platform).applyAll commit.writes db).logsOf id =
      db.logsOf id ++ entriesOf id commit := by
  unfold entriesOf
  generalize commit.writes = writes
  induction writes generalizing db with
  | nil => simp
  | cons write rest induction =>
      rw [Engine.applyAll_cons, induction]
      cases write with
      | insertLog entry =>
          by_cases same : entry.taskId = id
          · simp [postgres, Write.apply, Database.logsOf, same]
          · simp [postgres, Write.apply, Database.logsOf, same]
      | _ => rfl

theorem Transition.ne {first second : TaskStatus}
    (edge : Transition first second) : first ≠ second := by
  cases edge <;> decide

/-- A step in the life of a task logs the transition it makes. -/
theorem ViewStep.entries
    {call : Call} {before after : TaskView}
    {written : Option TaskRecord}
    (step : ViewStep platform call before written after) :
    ∃ entries,
      after.logs = before.logs ++ entries ∧
        entries.map LogRecord.status =
          (transition before.row after.row).toList := by
  cases step with
  | stay =>
      refine ⟨[], by simp, ?_⟩
      cases before.row with
      | none => rfl
      | some row => simp [transition]
  | enqueue row logs letters enqueues => exact ⟨[], by simp, rfl⟩
  | beat workerID row now logs letters owned called =>
      exact ⟨[], by simp, by simp [transition, Change.set]⟩
  | move move logs letters enabled performs =>
      refine ⟨[move.log], rfl, ?_⟩
      have moved := (Move.transition enabled).ne
      simp [transition, moved, Move.log]

/-- A commit logs the transition it makes. -/
theorem Lawful.entriesOf_status
    (lawful : Lawful platform db commit.call commit.writes) (id : TaskId) :
    (entriesOf id commit).map LogRecord.status =
      (transition (db.find id)
        (((postgres platform).applyAll commit.writes db).find
          id)).toList := by
  rcases (lawful.viewStep id).entries with ⟨entries, grown, moved⟩
  rw [Database.view_logs, Database.view_logs, logsOf_applyAll,
    List.append_cancel_left_eq] at grown
  rw [grown, moved]
  rfl

variable (platform) in
theorem logsOf_foldl
    (id : TaskId) (db : Database) (history : List StoreCommit) :
    (history.foldl
        (fun current commit =>
          (postgres platform).applyAll commit.writes current)
        db).logsOf id =
      db.logsOf id ++ timeline id history := by
  induction history generalizing db with
  | nil => simp [timeline]
  | cons commit rest induction =>
      rw [List.foldl_cons, induction, logsOf_applyAll]
      simp [timeline]

/-- The audit trail is the timeline. -/
theorem interleave_logsOf
    (followed : interleave platform .empty schedule = some config)
    (id : TaskId) :
    config.db.logsOf id = timeline id config.history := by
  rw [← (interleave_ok followed).publishes.replay.1, logsOf_foldl]
  rfl

/-- The timeline shows every transition. -/
theorem interleave_transitions
    (followed : interleave platform db schedule = some config) (id : TaskId) :
    (timeline id config.history).map LogRecord.status =
      transitions platform id db config.history := by
  have lawful := (interleave_ok followed).publishes.replay.2
  have commits :
      ((postgres platform).replay db config.history).map Prod.snd =
        config.history :=
    Engine.replay_map_snd db config.history
  calc
    (timeline id config.history).map LogRecord.status
      = ((postgres platform).replay db config.history).flatMap
          fun entry => (entriesOf id entry.2).map LogRecord.status := by
        rw [timeline, ← commits, List.flatMap_map, List.map_flatMap, commits]
    _ = ((postgres platform).replay db config.history).flatMap
          fun entry =>
            (transition (entry.1.find id)
              (((postgres platform).applyAll entry.2.writes
                entry.1).find id)).toList := by
        apply List.flatMap_congr
        intro entry member
        exact Lawful.entriesOf_status (lawful entry member) id
    _ = transitions platform id db config.history := by
        rw [transitions, List.filterMap_eq_flatMap_toList]

/-! ## Order -/

/-- Transitions are committed in the order in which they were begun. -/
def BegunInOrder (schedule : List StoreLabel) (id : TaskId)
    (history : List StoreCommit) : Prop :=
  history.Pairwise fun first second =>
    entriesOf id first ≠ [] → entriesOf id second ≠ [] →
      ∀ early late, beganAt first.session schedule = some early →
        beganAt second.session schedule = some late → early ≤ late

/-- The time of an entry is that of the `BEGIN` of its transaction. -/
theorem beganAt_of_mem_entriesOf
    (timed : logStamping.Timed (Call.program platform) schedule config)
    (member : commit ∈ config.history)
    (occurs : entry ∈ entriesOf id commit) :
    beganAt commit.session schedule = some entry.createdAt :=
  timed.committed commit member (.insertLog entry)
    (mem_entriesOf.mp occurs).1 (.task entry.taskId) rfl

/-- The times of a timeline are in order if its transactions are. -/
theorem timeline_times_iff
    (timed : logStamping.Timed (Call.program platform) schedule config)
    (id : TaskId) :
    (timeline id config.history).Pairwise
        (fun first second => first.createdAt ≤ second.createdAt) ↔
      BegunInOrder schedule id config.history := by
  have began :
      ∀ commit ∈ config.history, ∀ entry ∈ entriesOf id commit,
        beganAt commit.session schedule = some entry.createdAt :=
    fun commit member entry occurs =>
      beganAt_of_mem_entriesOf timed member occurs
  rw [timeline, List.pairwise_flatMap, BegunInOrder]
  constructor
  · rintro ⟨_, ordered⟩
    refine ordered.imp_of_mem ?_
    intro first second member follows inOrder some₁ some₂ early late
      begun later
    rcases List.exists_mem_of_ne_nil _ some₁ with ⟨entry, occurs⟩
    rcases List.exists_mem_of_ne_nil _ some₂ with ⟨other, appears⟩
    rw [began first member entry occurs] at begun
    rw [began second follows other appears] at later
    cases begun
    cases later
    exact inOrder entry occurs other appears
  · intro ordered
    constructor
    · intro commit member
      apply List.pairwise_of_forall_mem_list
      intro first occurs second appears
      have same :=
        (began commit member first occurs).symm.trans
          (began commit member second appears)
      exact le_of_eq (Option.some.inj same)
    · refine ordered.imp_of_mem ?_
      intro first second member follows inOrder entry occurs other appears
      exact inOrder (List.ne_nil_of_mem occurs)
        (List.ne_nil_of_mem appears) _ _
        (began first member entry occurs)
        (began second follows other appears)

/-- The numbers of a timeline are in order. -/
theorem timeline_ids
    (ordered : logStamping.Ordered schedule config) (id : TaskId) :
    (timeline id config.history).Pairwise
      (fun first second => first.id ≤ second.id) := by
  have whole :
      timeline id config.history =
        config.written.filterMap fun
          | .insertLog entry =>
              if entry.taskId = id then some entry else none
          | _ => none := by
    rw [Config.written, List.filterMap_flatMap]
    rfl
  rw [whole, List.pairwise_filterMap]
  refine ordered.committed.ordered.imp ?_
  intro first second inOrder entry chosen other selected
  cases first with
  | insertLog left =>
      cases second with
      | insertLog right =>
          simp only [Option.ite_none_right_eq_some,
            Option.some.injEq] at chosen selected
          rcases chosen with ⟨about, equal⟩
          rcases selected with ⟨same, also⟩
          subst equal also
          exact inOrder (.task id) (by rw [← about]; rfl)
            (by rw [← same]; rfl)
      | _ => cases selected
  | _ => cases chosen

end Schedules

end Dhara.Store
