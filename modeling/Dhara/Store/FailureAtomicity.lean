import Dhara.Store.AuditTrail

/-!
# Failure atomicity

The seven methods that change the state of a task are fail-safe: every error
branch returns at once, nothing is counted before the commit, and nothing can
fail after it.  A call that meets a fault at any round trip therefore returns
an error and leaves the tables and the counters as they were.
-/

namespace Dhara.Store

open Dhara.Transaction

/-- The methods that change the state of a task in one transaction. -/
def Call.transactional : Call → Bool
  | .cancel _ => true
  | .claim _ => true
  | .markCompleted _ _ _ => true
  | .markPending _ _ _ _ => true
  | .markDead _ _ _ _ => true
  | .retryDead _ => true
  | .requeueStaleRunning _ _ => true
  | _ => false

/-! ## The methods are fail-safe -/

section FailSafe

variable (platform : Platform) {next : StoreProgram Response}
  {context : String}

/-- A program of the store that gives up at the first fault. -/
def Safe (program : StoreProgram Response) : Prop :=
  FailSafe (postgres platform) (fun result => result.failed = true) program

variable {platform} {fail : StoreError → Response}

theorem safe_openTx
    (fails : ∀ error, (fail error).failed = true)
    (safe : Safe platform next) :
    Safe platform (openTx fail next) :=
  ⟨fun _ => ⟨_, rfl, fails _⟩, safe⟩

theorem safe_sendTx
    (fails : ∀ error, (fail error).failed = true) {stmt : Stmt}
    (safe : Safe platform next) :
    Safe platform (sendTx fail stmt context next) :=
  ⟨fun _ => ⟨_, rfl, fails _⟩, fun _ => safe⟩

theorem safe_insertLog
    (fails : ∀ error, (fail error).failed = true) {id : TaskId}
    {status : TaskStatus} {message : GoString} (safe : Safe platform next) :
    Safe platform (insertLog fail id status message context next) :=
  safe_sendTx fails safe

theorem safe_commitTx
    (fails : ∀ error, (fail error).failed = true) (settled : Settled next) :
    Safe platform (commitTx fail context next) :=
  ⟨fun _ => ⟨_, rfl, fails _⟩, settled⟩

theorem readOnly_getById (id : TaskId) :
    (postgres platform).ReadOnly (.getById id) := by
  intro now others oracle db effect evaluated
  cases evaluated
  rfl

theorem safe_getById
    (fails : ∀ error, (fail error).failed = true)
    {id : TaskId} {next : Option TaskRow → StoreProgram Response}
    (safe : ∀ found, Safe platform (next found)) :
    Safe platform (getById fail id next) := by
  refine ⟨readOnly_getById id, fun _ => ⟨_, rfl, fails _⟩, ?_⟩
  intro reply
  cases reply with
  | none => exact safe none
  | some row => exact safe (some (scanTask row))

/-- A guarded update that either misses or is followed by safe steps. -/
theorem safe_update
    {id : TaskId} {update : Update}
    {next : Except Fault (Option TaskRecord) → StoreProgram Response}
    (refused :
      ∀ fault,
        GivesUp (fun result : Response => result.failed = true)
          (next (.error fault)))
    (missed : Safe platform (next (.ok none)))
    (updated : ∀ row, Safe platform (next (.ok (some row)))) :
    Safe platform (.exec (.update id update) next) := by
  refine ⟨refused, ?_⟩
  intro reply
  cases reply with
  | none => exact missed
  | some row => exact updated row

theorem safe_updateOwned
    {taskID : TaskId} {update : Update} (safe : Safe platform next) :
    Safe platform (updateOwned taskID update context next) := by
  apply safe_openTx fun _ => rfl
  apply safe_update
  · exact fun _ => ⟨_, rfl, rfl⟩
  · exact True.intro
  · exact fun _ => safe

theorem safe_scanReaped
    (safe : Safe platform next) (reaped : List ReapedTask) :
    Safe platform (scanReaped next reaped) := by
  induction reaped with
  | nil => exact ⟨fun _ => ⟨_, rfl, rfl⟩, safe⟩
  | cons task rest induction =>
      exact ⟨fun _ => ⟨_, rfl, rfl⟩, induction⟩

theorem safe_logReaped
    {reaperID : GoString} (safe : Safe platform next)
    (reaped : List ReapedTask) :
    Safe platform (logReaped reaperID next reaped) := by
  induction reaped with
  | nil => exact safe
  | cons task rest induction =>
      exact safe_insertLog (fun _ => rfl) induction

theorem Call.safe
    {call : Call} (transactional : call.transactional = true) :
    Safe platform (call.program platform) := by
  cases call with
  | cancel id =>
      apply safe_openTx fun _ => rfl
      apply safe_update
      · exact fun _ => ⟨_, rfl, rfl⟩
      · apply safe_getById fun _ => rfl
        intro found
        cases found <;> exact True.intro
      · intro row
        apply safe_insertLog fun _ => rfl
        exact safe_commitTx (fun _ => rfl) True.intro
  | claim workerID =>
      apply safe_openTx fun _ => rfl
      refine ⟨fun _ => ⟨_, rfl, rfl⟩, ?_⟩
      intro reply
      cases reply with
      | none => exact True.intro
      | some id =>
          apply safe_update
          · exact fun _ => ⟨_, rfl, rfl⟩
          · exact True.intro
          · intro row
            apply safe_insertLog fun _ => rfl
            exact safe_commitTx (fun _ => rfl) True.intro
  | markCompleted taskID workerID durationMs =>
      apply safe_updateOwned
      apply safe_insertLog fun _ => rfl
      exact safe_commitTx (fun _ => rfl) True.intro
  | markPending task workerID lastError nextRunAt =>
      apply safe_updateOwned
      apply safe_insertLog fun _ => rfl
      exact safe_commitTx (fun _ => rfl) True.intro
  | markDead taskID workerID lastError reason =>
      apply safe_updateOwned
      apply safe_sendTx fun _ => rfl
      apply safe_insertLog fun _ => rfl
      exact safe_commitTx (fun _ => rfl) True.intro
  | retryDead taskID =>
      apply safe_openTx fun _ => rfl
      apply safe_update
      · exact fun _ => ⟨_, rfl, rfl⟩
      · apply safe_getById fun _ => rfl
        intro found
        cases found <;> exact True.intro
      · intro row
        apply safe_sendTx fun _ => rfl
        apply safe_insertLog fun _ => rfl
        exact safe_commitTx (fun _ => rfl) True.intro
  | requeueStaleRunning threshold reaperID =>
      apply safe_openTx fun _ => rfl
      refine ⟨fun _ => ⟨_, rfl, rfl⟩, ?_⟩
      intro reaped
      apply safe_scanReaped
      apply safe_logReaped
      exact safe_commitTx (fun _ => rfl) True.intro
  | _ => cases transactional

end FailSafe

/-! ## What becomes visible -/

/--
A change of status comes with its log entry, and a death with its dead
letter.
-/
def Accounted (before after : TaskView) : Prop :=
  ∀ old new, before.row = some old → after.row = some new →
    old.status ≠ new.status →
      (∃ entry,
        after.logs = before.logs ++ [entry] ∧
          entry.taskId = new.id ∧ entry.status = new.status) ∧
        (new.status = .dead →
          ∃ letter,
            after.deadLetters = before.deadLetters ++ [letter] ∧
              letter.taskId = new.id ∧
              some letter.lastError = new.lastError)

/-- A move to `DEAD` adds the dead letter. -/
theorem Move.lettersAfter_dead
    {move : Move} (enabled : move.change.Enabled move.now move.row)
    (died : move.after.status = .dead)
    (letters : List DeadLetterRecord) :
    ∃ letter,
      move.lettersAfter letters = letters ++ [letter] ∧
        letter.taskId = move.row.id ∧
        some letter.lastError = move.after.lastError := by
  rcases move with ⟨row, change, now, logId, message⟩
  cases change with
  | markDead workerID lastError =>
      exact ⟨⟨row.id, lastError, now⟩, rfl, rfl, rfl⟩
  | toDead => exact ⟨⟨row.id, staleDeadError, now⟩, rfl, rfl, rfl⟩
  | heartbeat workerID => exact enabled.elim
  | _ => cases died

theorem ViewStep.accounted
    {platform : Platform} {call : Call} {before after : TaskView}
    {wrote : Option TaskRecord}
    (step : ViewStep platform call before wrote after) :
    Accounted before after := by
  intro old new found stored changed
  cases step with
  | stay =>
      rw [found] at stored
      cases stored
      exact (changed rfl).elim
  | enqueue => cases found
  | beat workerID row now logs letters owned =>
      cases found
      cases stored
      exact (changed rfl).elim
  | move move logs letters enabled performs =>
      cases found
      cases stored
      rw [move.after_id]
      exact ⟨⟨move.log, rfl, rfl, rfl⟩,
        fun died => move.lettersAfter_dead enabled died letters⟩

/--
A transactional call that meets a fault anywhere returns an error and leaves
the tables and the counters as they were.  Under every schedule of any number
of sessions, every committed change of a status comes with its log entry and
every committed death with its dead letter, and no reachable state has a
`DEAD` row without one.
-/
theorem failed_calls_change_nothing
    (platform : Platform) (invocation : Invocation)
    (transactional : invocation.call.transactional = true) :
    (∀ db : Database,
      (execute platform invocation db).faulted = true →
        (execute platform invocation db).result.failed = true ∧
          (execute platform invocation db).link.db = db ∧
          (execute platform invocation db).counts = []) ∧
      (∀ (db : Database) (schedule : List StoreLabel)
        (config : StoreConfig),
        interleave platform db schedule = some config →
          ∀ (label : StoreLabel) (next : StoreConfig),
            (postgres platform).step (Call.program platform) config
                label = some next →
              ∀ id, Accounted (config.db.view id) (next.db.view id)) ∧
      ∀ (schedule : List StoreLabel) (config : StoreConfig),
        interleave platform .empty schedule = some config →
          ∀ row ∈ config.db.tasks.rows,
            (path (config.db.logsOf row.id)).getLast? =
                some row.status ∧
              (row.status = .dead →
                (config.db.deadLettersOf row.id).length = 1) := by
  refine ⟨?_, ?_, ?_⟩
  · intro db faulted
    exact (Call.safe transactional).run (postgres platform)
      invocation.answers ⟨db, none⟩ faulted
  · intro db schedule config followed label next stepped id
    rcases step_viewStep (interleave_ok followed).toCoherent stepped id with
      ⟨other, wrote, step⟩
    exact step.accounted
  · intro schedule config followed row member
    have found := Database.find_of_mem member
    have untracked : TrailOk (Database.empty.view row.id) := rfl
    have trailOk :=
      interleave_view (fun _ _ _ _ step ok => step.trail ok) followed
        untracked
    have absent : ViewOk (Database.empty.view row.id) := rfl
    have viewOk :=
      interleave_view (fun _ _ _ _ step ok => step.ok ok) followed absent
    rw [TrailOk, Database.view_row, found] at trailOk
    rw [ViewOk, Database.view_row, found] at viewOk
    refine ⟨trailOk.last, ?_⟩
    intro dead
    exact viewOk.letters_length.trans (if_pos dead)

/-- A worker whose commit is refused. -/
def refusedDeath : Invocation :=
  ⟨.markDead 7 (ascii "w") (ascii "e") (ascii "r"), calmExcept 4 .connection⟩

/-- The state after a task was enqueued and claimed. -/
def claimedState : Database :=
  executeAll echoPlatform .empty
    [⟨.create (emailTask []), calm 7 0⟩, ⟨.claim (ascii "w"), calm 0 0⟩]

theorem refusedDeath_changes_nothing :
    (execute echoPlatform refusedDeath claimedState).result =
        failUnit (.wrapped "commit dead" .connection) ∧
      (execute echoPlatform refusedDeath claimedState).link.db =
        claimedState ∧
      (execute echoPlatform refusedDeath claimedState).counts = [] := by
  have faulted :
      (execute echoPlatform refusedDeath claimedState).faulted =
        true := by
    decide +kernel
  have kept :=
    (failed_calls_change_nothing echoPlatform refusedDeath rfl).1
      claimedState faulted
  refine ⟨?_, kept.2⟩
  decide +kernel

end Dhara.Store
