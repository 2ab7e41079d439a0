import Dhara.Pool.System
import Dhara.Store.Execution
import Dhara.Store.FailureAtomicity
import Mathlib.Data.Rat.Floor

/-!
# The outcome of an execution

`execute` ends with one write of the outcome: `MarkCompleted`, `MarkPending`
or `MarkDead`.  The text of a handler's error and the value of a panic flow
unchanged into the text columns of this write.  If they are no valid text,
the write is refused and the row stays `RUNNING`; otherwise the outcome is
recorded.
-/

namespace Dhara.Pool

open Dhara.Store Dhara.Transaction

variable {row : TaskRecord} {change : Change}

/-! ## Backoff -/

/-- A value of `rand.Float64`. -/
structure Random where
  value : ℚ
  nonnegative : 0 ≤ value
  belowOne : value < 1

/-- `computeBackoff`. -/
def computeBackoff (settings : Settings) (attempts : Int)
    (random : Random) : Time :=
  let attempt := (max (attempts - 1) 0).toNat
  let exp : ℚ := min settings.maxBackoff (settings.baseBackoff * 2 ^ attempt)
  ⌊random.value * exp⌋

theorem positiveOr_pos {default value : Int} (positive : 0 < default) :
    0 < positiveOr default value := by
  unfold positiveOr
  split_ifs <;> omega

theorem normalize_backoffs (settings : Settings) :
    0 < settings.normalize.baseBackoff ∧
      0 < settings.normalize.maxBackoff := by
  have base : 0 < positiveOr 10000000 settings.baseBackoff :=
    positiveOr_pos (by decide)
  have top : 0 < positiveOr 300000000 settings.maxBackoff :=
    positiveOr_pos (by decide)
  refine ⟨?_, top⟩
  simp only [Settings.normalize]
  split_ifs
  · exact top
  · exact base

theorem computeBackoff_nonneg (settings : Settings) (attempts : Int)
    (random : Random) :
    0 ≤ computeBackoff settings.normalize attempts random := by
  have positive := normalize_backoffs settings
  have base : (0 : ℚ) ≤ settings.normalize.baseBackoff := by
    exact_mod_cast positive.1.le
  have top : (0 : ℚ) ≤ settings.normalize.maxBackoff := by
    exact_mod_cast positive.2.le
  apply Int.floor_nonneg.mpr
  apply mul_nonneg random.nonnegative
  apply le_min top
  positivity

/-! ## Behaviours -/

/-- What `execute` meets: no handler, or a handler that ends somehow. -/
inductive Behaviour where
  | unregistered
  | ended (handled : Handled)
deriving DecidableEq

/-- The error of the handler, if there is a handler and it fails. -/
def Behaviour.error : Behaviour → Option GoString
  | .unregistered => none
  | .ended handled => runTaskHandler handled

/-- The handler returned nil. -/
def Behaviour.succeeds (behaviour : Behaviour) : Prop :=
  behaviour ≠ .unregistered ∧ behaviour.error = none

/-- The handler returned an error or panicked. -/
def Behaviour.fails (behaviour : Behaviour) : Prop :=
  behaviour.error ≠ none

/-- The text that the handler gave: of its error, or of its panic. -/
def Behaviour.text : Behaviour → Option GoString
  | .unregistered => none
  | .ended (.returned error) => error
  | .ended (.panicked value) => some value

/--
One `execute` of a worker on a claimed task.  The clock is read at the
resolution of the column when the handler has ended.
-/
structure Execution where
  settings : Settings
  workerID : Text
  task : TaskRow
  behaviour : Behaviour
  failedAt : Time
  random : Random
  taskDurationMS : Int

/-- The time of the next attempt. -/
def Execution.nextRunAt (execution : Execution) : Time :=
  execution.failedAt +
    computeBackoff execution.settings.normalize execution.task.attempts
      execution.random

/-- The write that `execute` makes. -/
def Execution.write (execution : Execution) : Call :=
  match execution.behaviour with
  | .unregistered =>
      markUnregistered execution.workerID.bytes execution.task
  | .ended handled =>
      markHandled execution.workerID.bytes execution.task handled
        execution.nextRunAt execution.taskDurationMS

/-- The attempts of the task are used up. -/
def Execution.exhausted (execution : Execution) : Prop :=
  execution.task.maxRetries ≤ execution.task.attempts

/--
The columns can store the failure and the time of the retry, and a time that
is too large for pgx is not taken for one before the failure.
-/
structure Execution.Recordable (execution : Execution) : Prop where
  text : ∀ text, execution.behaviour.text = some text → isText text = true
  time :
    execution.behaviour.fails → ¬ execution.exhausted →
      IsTimestamp (sentTime execution.nextRunAt) ∧
        (sentTime execution.nextRunAt ≠ execution.nextRunAt →
          execution.failedAt ≤ sentTime execution.nextRunAt)

/-- The row shows the outcome of the execution. -/
structure Execution.ShownBy (execution : Execution)
    (row : TaskRecord) : Prop where
  left : row.status ≠ .running
  completed : row.status = .completed ↔ execution.behaviour.succeeds
  dead :
    row.status = .dead ↔
      execution.behaviour = .unregistered ∨
        execution.behaviour.fails ∧ execution.exhausted
  pending :
    row.status = .pending ↔ execution.behaviour.fails ∧ ¬ execution.exhausted
  runAt : row.status = .pending → execution.failedAt ≤ row.runAt

/--
The row shows the outcome, and the write of the execution took effect once.
-/
structure Execution.Recorded (platform : Platform)
    (execution : Execution) (before after : Database) : Prop where
  row : ∃ row, after.find execution.task.id = some row ∧ execution.ShownBy row
  once :
    ∃ move,
      move.Legal before ∧ execution.write.Performs move ∧
        after = (postgres platform).applyAll (writesOf [move]) before

/-- The stored time is not before the failure, unless it was wrapped. -/
theorem Execution.failedAt_le_sentTime (execution : Execution) :
    execution.failedAt ≤ sentTime execution.nextRunAt ↔
      (sentTime execution.nextRunAt ≠ execution.nextRunAt →
        execution.failedAt ≤ sentTime execution.nextRunAt) := by
  refine ⟨fun later _ => later, fun wrapped => ?_⟩
  by_cases same : sentTime execution.nextRunAt = execution.nextRunAt
  · rw [same]
    exact Int.le_add_of_nonneg_right (computeBackoff_nonneg _ _ _)
  · exact wrapped same

/-! ## The writes -/

section Writes

variable {platform : Platform} {answers : Answers} {db : Database}
  {fail : StoreError → Response} {update : Update}

section

variable (quiet : ∀ position, (answers position).fault = none)

include quiet

theorem run_openTx_quiet
    (next : StoreProgram Response) :
    (postgres platform).run (openTx fail next) answers ⟨db, none⟩ =
      (postgres platform).run next (answers.drop 1)
        ⟨db, some { startedAt := (answers 0).clock }⟩ := by
  rcases run_openTx answers db fail next with
    ⟨⟨position, faulty⟩, _⟩ | ⟨_, runs⟩
  · exact absurd (quiet position) faulty
  · exact runs

theorem run_sendTx_quiet
    {stmt : Stmt} {context : String} {next : StoreProgram Response}
    {tx : Tx Write Resource Time} (usable : tx.failed = false)
    {effect : Effect (Reply stmt) Write Resource}
    (evaluated :
      eval platform tx.startedAt (answers 0).others (answers 0).oracle
          stmt ((postgres platform).applyAll tx.writes db) =
        .ok effect) :
    (postgres platform).run (sendTx fail stmt context next) answers
        ⟨db, some tx⟩ =
      (postgres platform).run next (answers.drop 1)
        ⟨db,
          some
            { tx with
              writes := tx.writes ++ effect.writes
              locks := tx.locks ++ effect.locks }⟩ := by
  rw [sendTx, run_exec_answered usable (quiet 0) evaluated]

theorem run_commitTx_quiet
    {context : String} {next : StoreProgram Response}
    {tx : Tx Write Resource Time} (usable : tx.failed = false) :
    (postgres platform).run (commitTx fail context next) answers
        ⟨db, some tx⟩ =
      (postgres platform).run next (answers.drop 1)
        ⟨(postgres platform).applyAll tx.writes db, none⟩ := by
  rcases run_commitTx answers db fail usable with
    ⟨faulty, _⟩ | ⟨_, runs⟩
  · exact absurd (quiet 0) faulty
  · exact runs

/-- The guarded update, if its parameters are refused. -/
theorem updateOwned_refused {fault : Fault}
    (refused : update.encode = .error fault) (id : TaskId) (context : String)
    (next : StoreProgram Response) :
    GaveUp db
      ((postgres platform).run (updateOwned id update context next)
        answers ⟨db, none⟩) := by
  rw [updateOwned, run_openTx_quiet quiet]
  rcases run_exec platform (answers.drop 1) db (.update id update) _
      (opened_usable (answers 0).clock) with
    ⟨failure, _, runs⟩ | ⟨effect, _, evaluated, _⟩
  · rw [runs]
    exact (aborted_done rfl failure _).gaveUp fun _ => rfl
  · simp only [eval, evalUpdate, refused, Except.bind] at evaluated
    cases evaluated

/-- The guarded update, if the worker owns the row. -/
theorem updateOwned_runs
    (found : db.find row.id = some row) (encoded : update.encode = .ok change)
    (guarded : change.guard row = true) (fits : change.overflows row = false)
    (context : String) (next : StoreProgram Response) :
    (postgres platform).run (updateOwned row.id update context next)
        answers ⟨db, none⟩ =
      (postgres platform).run next (answers.drop 2)
        ⟨db,
          some
            { startedAt := (answers 0).clock
              writes := [.updateTask (change.set (answers 0).clock row)]
              locks := [.task row.id] }⟩ := by
  rw [updateOwned, run_openTx_quiet quiet]
  have evaluated :
      eval platform (answers 0).clock ((answers.drop 1) 0).others
          ((answers.drop 1) 0).oracle (.update row.id update) db =
        .ok
          { reply := some (change.set (answers 0).clock row)
            writes := [.updateTask (change.set (answers 0).clock row)]
            locks := [.task row.id] } := by
    simp [eval, evalUpdate, encoded, Except.bind, found, guarded, fits]
  have calm : ((answers.drop 1) 0).fault = none := quiet 1
  rw [run_exec_answered (opened_usable _) calm evaluated, Answers.drop_drop]
  rfl

/-- The log entry and the commit at the end of a write. -/
theorem insertLog_commits
    {id : TaskId} {message : GoString}
    (tx : Tx Write Resource Time) (usable : tx.failed = false)
    (valid : isText message = true)
    (present :
      (((postgres platform).applyAll tx.writes db).find id).isSome = true)
    (status : TaskStatus) (logContext context : String)
    (next : StoreProgram Response) :
    ∃ logId,
      (postgres platform).run
          (insertLog failUnit id status message logContext
            (commitTx failUnit context next))
          answers ⟨db, some tx⟩ =
        (postgres platform).run next (answers.drop 2)
          ⟨(postgres platform).applyAll
              (tx.writes ++
                [.insertLog
                  ⟨logId, id, status, ⟨message, valid⟩, tx.startedAt⟩]) db,
            none⟩ := by
  refine ⟨(answers 0).oracle.logId, ?_⟩
  have evaluated :
      eval platform tx.startedAt (answers 0).others (answers 0).oracle
          (.insertLog id status message)
          ((postgres platform).applyAll tx.writes db) =
        .ok
          { reply := ()
            writes :=
              [.insertLog
                ⟨(answers 0).oracle.logId, id, status,
                  ⟨message, valid⟩, tx.startedAt⟩] } := by
    simp [eval, toText_of_isText valid, Except.bind, evalReferencing, present]
  have later : ∀ position, ((answers.drop 1) position).fault = none :=
    fun position => quiet (position + 1)
  rw [insertLog, run_sendTx_quiet quiet usable evaluated,
    run_commitTx_quiet later]
  · rw [Answers.drop_drop]
  · exact usable

end

variable {row : TaskRecord} {workerID : Text}

theorem find_updated (platform : Platform) (change : Change) (now : Time)
    (found : db.find row.id = some row) :
    ((postgres platform).applyAll [.updateTask (change.set now row)]
        db).find row.id =
      some (change.set now row) := by
  have stored : db.find (change.set now row).id = some row := by
    rw [change.set_id, found]
  have viewed :=
    Write.view_updateTask stored (change.set_identity now row).symm
  rw [change.set_id] at viewed
  exact congrArg TaskView.row viewed

/-- A write that updates the row and logs, if the worker owns the row. -/
theorem updateOwned_commits
    (quiet : ∀ position, (answers position).fault = none)
    (found : db.find row.id = some row) (encoded : update.encode = .ok change)
    (guarded : change.guard row = true) (fits : change.overflows row = false)
    {message : GoString} (valid : isText message = true) (status : TaskStatus)
    (updateContext logContext context : String)
    (next : StoreProgram Response) :
    ∃ logId,
      (postgres platform).run
          (updateOwned row.id update updateContext
            (insertLog failUnit row.id status message logContext
              (commitTx failUnit context next)))
          answers ⟨db, none⟩ =
        (postgres platform).run next (answers.drop 4)
          ⟨(postgres platform).applyAll
              [.updateTask (change.set (answers 0).clock row),
                .insertLog
                  ⟨logId, row.id, status, ⟨message, valid⟩,
                    (answers 0).clock⟩] db,
            none⟩ := by
  have present := find_updated platform change (answers 0).clock found
  have later : ∀ position, ((answers.drop 2) position).fault = none :=
    fun position => quiet (position + 2)
  have logged :=
    insertLog_commits later
      { startedAt := (answers 0).clock
        writes := [.updateTask (change.set (answers 0).clock row)]
        locks := [.task row.id] }
      rfl valid (by rw [present]; rfl) status logContext context next
  rcases logged with ⟨logId, logged⟩
  refine ⟨logId, ?_⟩
  rw [updateOwned_runs quiet found encoded guarded fits, logged,
    Answers.drop_drop]
  rfl

/-- The call makes one move on the row, with the given change. -/
def Settles (platform : Platform) (call : Call) (answers : Answers)
    (row : TaskRecord) (change : Change) (db : Database) : Prop :=
  ∃ move,
    move.row = row ∧ move.change = change ∧ call.Performs move ∧
      (Store.execute platform ⟨call, answers⟩ db).link.db =
        (postgres platform).applyAll (writesOf [move]) db

theorem markCompleted_settles
    (platform : Platform)
    (quiet : ∀ position, (answers position).fault = none)
    (found : db.find row.id = some row)
    (owned : row.ownedBy workerID = true) (durationMs : Int) :
    Settles platform
      (.markCompleted row.id workerID.bytes durationMs) answers row
      (.markCompleted workerID) db := by
  have encoded :
      (Update.markCompleted workerID.bytes).encode =
        .ok (.markCompleted workerID) := by
    simp [Update.encode, toText_of_isText workerID.valid, Except.map]
  have literals :
      ∀ literal ∈ ["completed by worker ", " after ", "ms"],
        isText (ascii literal) = true := by
    decide +kernel
  have valid :
      isText (completedLogMessage workerID.bytes durationMs) = true := by
    simp only [completedLogMessage, List.append_assoc, isText_append,
      literals, isText_itoa, workerID.valid, List.mem_cons, true_or,
      or_true]
  rcases updateOwned_commits quiet found encoded owned rfl valid
      .completed "mark complete" "insert complete log"
      "commit complete" _ with
    ⟨logId, runs⟩
  refine ⟨⟨row, .markCompleted workerID, (answers 0).clock, logId,
    ⟨_, valid⟩⟩, rfl, rfl, ⟨rfl, encoded, rfl⟩, ?_⟩
  rw [Store.execute, Call.program, markCompleted, runs]
  rfl

theorem markPending_settles
    (platform : Platform)
    (quiet : ∀ position, (answers position).fault = none)
    {task : TaskRow} (same : row.id = task.id)
    (found : db.find row.id = some row)
    (owned : row.ownedBy workerID = true) {error : GoString}
    (valid : isText error = true) {nextRunAt : Time}
    (inside : IsTimestamp (sentTime nextRunAt)) :
    Settles platform
      (.markPending task workerID.bytes error nextRunAt) answers row
      (.markPending workerID ⟨error, valid⟩ (sentTime nextRunAt))
      db := by
  have encoded :
      (Update.markPending workerID.bytes error nextRunAt).encode =
        .ok (.markPending workerID ⟨error, valid⟩ (sentTime nextRunAt)) := by
    simp [Update.encode, toText_of_isText workerID.valid,
      toText_of_isText valid, timestamptz, inside, Except.map,
      Except.bind]
  have literals :
      ∀ literal ∈ ["attempt ", "/", " failed, retrying at ", ": "],
        isText (ascii literal) = true := by
    decide +kernel
  have readable : isText (pendingLogMessage task error nextRunAt) = true := by
    simp only [pendingLogMessage, List.append_assoc, isText_append,
      literals, isText_itoa, isText_formatRFC3339, valid,
      List.mem_cons, true_or, or_true]
  rcases updateOwned_commits quiet found encoded owned rfl readable
      .pending "mark pending" "insert pending log" "commit pending" _
      with
    ⟨logId, runs⟩
  refine ⟨⟨row,
    .markPending workerID ⟨error, valid⟩ (sentTime nextRunAt),
    (answers 0).clock, logId, ⟨_, readable⟩⟩, rfl, rfl,
    ⟨same, encoded, rfl⟩, ?_⟩
  rw [Store.execute, Call.program, markPending, ← same, runs]
  rfl

theorem markDead_settles
    (platform : Platform)
    (quiet : ∀ position, (answers position).fault = none)
    (found : db.find row.id = some row)
    (owned : row.ownedBy workerID = true) {error reason : GoString}
    (valid : isText error = true) (readable : isText reason = true) :
    Settles platform (.markDead row.id workerID.bytes error reason)
      answers row (.markDead workerID ⟨error, valid⟩) db := by
  have encoded :
      (Update.markDead workerID.bytes error).encode =
        .ok (.markDead workerID ⟨error, valid⟩) := by
    simp [Update.encode, toText_of_isText workerID.valid,
      toText_of_isText valid, Except.map, Except.bind]
  have literal : isText (ascii "marked dead: ") = true :=
    isText_ascii (by simp)
  have message : isText (deadLogMessage reason) = true := by
    rw [deadLogMessage, isText_append literal, readable]
  have later : ∀ position, ((answers.drop 2) position).fault = none :=
    fun position => quiet (position + 2)
  have last : ∀ position, ((answers.drop 3) position).fault = none :=
    fun position => quiet (position + 3)
  have present :=
    find_updated platform (.markDead workerID ⟨error, valid⟩)
      (answers 0).clock found
  have buried :
      eval platform (answers 0).clock ((answers.drop 2) 0).others
          ((answers.drop 2) 0).oracle (.insertDeadLetter row.id error)
          ((postgres platform).applyAll
            [.updateTask
              ((Change.markDead workerID ⟨error, valid⟩).set
                (answers 0).clock row)] db) =
        .ok
          { reply := ()
            writes :=
              [.insertDeadLetter
                ⟨row.id, ⟨error, valid⟩, (answers 0).clock⟩] } := by
    simp only [eval, toText_of_isText valid, Except.bind,
      evalReferencing, present]
    rfl
  have kept :
      (((postgres platform).applyAll
          [.updateTask
              ((Change.markDead workerID ⟨error, valid⟩).set
                (answers 0).clock row),
            .insertDeadLetter
              ⟨row.id, ⟨error, valid⟩, (answers 0).clock⟩] db).find
        row.id).isSome = true :=
    congrArg Option.isSome present
  rcases insertLog_commits last
      { startedAt := (answers 0).clock
        writes :=
          [.updateTask
              ((Change.markDead workerID ⟨error, valid⟩).set
                (answers 0).clock row),
            .insertDeadLetter ⟨row.id, ⟨error, valid⟩, (answers 0).clock⟩]
        locks := [.task row.id] }
      rfl message kept .dead "insert dead log" "commit dead" _ with
    ⟨logId, logged⟩
  refine ⟨⟨row, .markDead workerID ⟨error, valid⟩, (answers 0).clock,
    logId, ⟨_, message⟩⟩, rfl, rfl, ⟨rfl, encoded, rfl⟩, ?_⟩
  rw [Store.execute, Call.program, markDead,
    updateOwned_runs quiet found encoded owned rfl,
    run_sendTx_quiet later rfl buried,
    Answers.drop_drop]
  exact congrArg (fun outcome => outcome.link.db) logged

theorem markPending_refused
    (quiet : ∀ position, (answers position).fault = none)
    (task : TaskRow) {error : GoString} {nextRunAt : Time}
    (refused : ¬ (isText error = true ∧ IsTimestamp (sentTime nextRunAt))) :
    GaveUp db
      ((postgres platform).run
        (markPending task workerID.bytes error nextRunAt) answers
        ⟨db, none⟩) := by
  cases bound :
      (Update.markPending workerID.bytes error nextRunAt).encode with
  | error fault => exact updateOwned_refused quiet bound _ _ _
  | ok change =>
      rcases Update.encode_markPending bound with
        ⟨_, text, time, _, valid, inside, _⟩
      exact absurd
        ⟨isText_of_toText valid, (timestamptz_eq_ok_iff.mp inside).1⟩
        refused

theorem markDead_refused
    (quiet : ∀ position, (answers position).fault = none)
    (id : TaskId) {error : GoString} (reason : GoString)
    (refused : isText error ≠ true) :
    GaveUp db
      ((postgres platform).run
        (markDead id workerID.bytes error reason) answers
        ⟨db, none⟩) := by
  cases bound : (Update.markDead workerID.bytes error).encode with
  | error fault => exact updateOwned_refused quiet bound _ _ _
  | ok change =>
      rcases Update.encode_markDead bound with ⟨_, text, _, valid, _⟩
      exact absurd (isText_of_toText valid) refused

end Writes

/-! ## The outcome -/

/-- The four ways in which `execute` chooses its write. -/
theorem Execution.write_cases (execution : Execution) :
    (execution.behaviour = .unregistered ∧
        execution.write =
          markUnregistered execution.workerID.bytes execution.task) ∨
      (execution.behaviour.succeeds ∧
        execution.write =
          .markCompleted execution.task.id execution.workerID.bytes
            execution.taskDurationMS) ∨
      ∃ error,
        execution.behaviour.error = some error ∧
          execution.behaviour ≠ .unregistered ∧
          ((execution.exhausted ∧
              execution.write =
                .markDead execution.task.id execution.workerID.bytes
                  error (ascii "all attempts exhausted")) ∨
            (¬ execution.exhausted ∧
              execution.write =
                .markPending execution.task execution.workerID.bytes
                  error execution.nextRunAt)) := by
  unfold Execution.write
  cases behaved : execution.behaviour with
  | unregistered => exact Or.inl ⟨rfl, rfl⟩
  | ended handled =>
      simp only [markHandled]
      cases ended : runTaskHandler handled with
      | none => exact Or.inr (Or.inl ⟨⟨by simp, ended⟩, rfl⟩)
      | some error =>
          refine Or.inr (Or.inr ⟨error, ended, by simp, ?_⟩)
          by_cases exhausted : execution.exhausted
          · exact Or.inl ⟨exhausted, if_pos exhausted⟩
          · exact Or.inr ⟨exhausted, if_neg exhausted⟩

/-- The text of an error is valid exactly if the handler's text is. -/
theorem Behaviour.isText_error
    {behaviour : Behaviour} {error : GoString}
    (failed : behaviour.error = some error) :
    isText error = true ↔
      ∀ text, behaviour.text = some text → isText text = true := by
  cases behaviour with
  | unregistered => cases failed
  | ended handled =>
      cases handled with
      | returned cause =>
          change cause = some error at failed
          subst cause
          simp [Behaviour.text]
      | panicked value =>
          cases failed
          have literal : isText (ascii "handler panicked: ") = true :=
            isText_ascii (by simp)
          simp [Behaviour.text, isText_append literal]

variable {execution : Execution}

/-- What is written is recorded if it shows the outcome. -/
theorem Execution.recorded_iff_of_settles
    {platform : Platform} {answers : Answers} {db : Database}
    (settles : Settles platform execution.write answers row change db)
    (same : row.id = execution.task.id) (found : db.find row.id = some row)
    (enabled : ∀ now, change.Enabled now row) {Shown : Prop}
    (shown : ∀ now, execution.ShownBy (change.set now row) ↔ Shown) :
    execution.Recorded platform db
        (Store.execute platform ⟨execution.write, answers⟩ db).link.db ↔
      Shown := by
  rcases settles with ⟨move, moved, changed, performs, equal⟩
  subst row change
  have stored :
      (Store.execute platform ⟨execution.write, answers⟩ db).link.db.find
        execution.task.id = some move.after := by
    rw [equal, ← same, ← Database.view_row,
      view_writesOf (by simp) (List.mem_singleton_self move) found]
  constructor
  · rintro ⟨⟨other, there, outcome⟩, _⟩
    cases Option.some.inj (there.symm.trans stored)
    exact (shown move.now).mp outcome
  · intro holds
    exact ⟨⟨move.after, stored, (shown move.now).mpr holds⟩,
      ⟨move, ⟨found, enabled move.now⟩, performs, equal⟩⟩

theorem Execution.not_recorded_of_gaveUp
    {platform : Platform} {db : Database} {outcome : StoreOutcome Response}
    (gaveUp : GaveUp db outcome) (same : row.id = execution.task.id)
    (found : db.find row.id = some row) (running : row.status = .running) :
    ¬ execution.Recorded platform db outcome.link.db := by
  rintro ⟨⟨other, kept, shown⟩, _⟩
  rw [gaveUp.same, ← same, found] at kept
  cases kept
  exact shown.left running

/-- The row of a dead task shows that there was no retry left. -/
theorem Execution.shownBy_dead
    (status : row.status = .dead)
    (dead :
      execution.behaviour = .unregistered ∨
        execution.behaviour.fails ∧ execution.exhausted) :
    execution.ShownBy row := by
  refine ⟨by simp [status], ?_, by simp [status, dead], ?_, by
    simp [status]⟩
  · have unsuccessful : ¬ execution.behaviour.succeeds := by
      rintro ⟨registered, calm⟩
      rcases dead with unregistered | ⟨failed, _⟩
      · exact registered unregistered
      · exact failed calm
    simp [status, unsuccessful]
  · have settled :
        ¬ (execution.behaviour.fails ∧ ¬ execution.exhausted) := by
      rintro ⟨failed, retries⟩
      rcases dead with unregistered | ⟨_, exhausted⟩
      · rw [Behaviour.fails, unregistered] at failed
        exact failed rfl
      · exact retries exhausted
    simp [status, settled]

theorem Execution.shownBy_completed
    (status : row.status = .completed)
    (succeeded : execution.behaviour.succeeds) :
    execution.ShownBy row := by
  have calm : ¬ execution.behaviour.fails := by
    intro failed
    exact failed succeeded.2
  refine ⟨by simp [status], by simp [status, succeeded], ?_,
    by simp [status, calm], by simp [status]⟩
  simp [status, succeeded.1, calm]

theorem Execution.shownBy_pending
    (status : row.status = .pending) (later : execution.failedAt ≤ row.runAt)
    (failed : execution.behaviour.fails) (retries : ¬ execution.exhausted) :
    execution.ShownBy row := by
  have registered : execution.behaviour ≠ .unregistered := by
    intro unregistered
    rw [Behaviour.fails, unregistered] at failed
    exact failed rfl
  have unsuccessful : ¬ execution.behaviour.succeeds := by
    intro succeeded
    exact failed succeeded.2
  refine ⟨by simp [status], by simp [status, unsuccessful],
    by simp [status, registered, retries],
    by simp [status, failed, retries], fun _ => later⟩

theorem isText_unregistered {type : Text} {bytes : GoString}
    (same : type.bytes = bytes) :
    isText (ascii "no handler registered for type: " ++ bytes) =
      true := by
  have literal : isText (ascii "no handler registered for type: ") = true :=
    isText_ascii (by simp)
  rw [isText_append literal, ← same]
  exact type.valid

/-- A behaviour without an error has no text. -/
theorem Behaviour.text_eq_none {behaviour : Behaviour}
    (calm : behaviour.error = none) : behaviour.text = none := by
  cases behaviour with
  | unregistered => rfl
  | ended handled =>
      cases handled with
      | returned error => exact calm
      | panicked value => cases calm

/-- There is nothing to store for a behaviour without an error. -/
theorem Execution.recordable_of_calm
    (calm : execution.behaviour.error = none) :
    execution.Recordable := by
  constructor
  · intro text given
    rw [Behaviour.text_eq_none calm] at given
    cases given
  · intro failed
    exact absurd calm failed

theorem Execution.recordable_iff_of_exhausted
    {error : GoString} (failed : execution.behaviour.error = some error)
    (exhausted : execution.exhausted) :
    execution.Recordable ↔ isText error = true := by
  rw [Behaviour.isText_error failed]
  constructor
  · exact fun recordable => recordable.text
  · exact fun valid => ⟨valid, fun _ retries => absurd exhausted retries⟩

theorem Execution.recordable_iff_of_retries
    {error : GoString} (failed : execution.behaviour.error = some error)
    (retries : ¬ execution.exhausted) :
    execution.Recordable ↔
      isText error = true ∧
        IsTimestamp (sentTime execution.nextRunAt) ∧
          execution.failedAt ≤ sentTime execution.nextRunAt := by
  rw [Behaviour.isText_error failed, execution.failedAt_le_sentTime]
  constructor
  · intro recordable
    refine ⟨recordable.text, recordable.time ?_ retries⟩
    simp [Behaviour.fails, failed]
  · exact fun storable => ⟨storable.1, fun _ _ => storable.2⟩

/--
A reachable database records the outcome of the execution of an owned task
exactly if the columns can store it.
-/
theorem outcome_recorded_iff_recordable
    (platform : Platform) (execution : Execution)
    (claimed row : TaskRecord) (db : Database) (answers : Answers)
    (received : execution.task = scanClaimed claimed)
    (same : claimed.fixed = row.fixed)
    (found : db.find row.id = some row)
    (owned : row.ownedBy execution.workerID = true)
    (reachable : ∀ position, (answers position).fault = none) :
    execution.Recorded platform db
        (Store.execute platform ⟨execution.write, answers⟩ db).link.db ↔
      execution.Recordable := by
  have columns : row.id = execution.task.id ∧
      row.type.bytes = execution.task.type := by
    simp only [TaskRecord.fixed, Prod.mk.injEq] at same
    rw [received]
    exact ⟨same.1.symm, congrArg Text.bytes same.2.2.1.symm⟩
  rcases columns with ⟨sameId, sameType⟩
  have running : row.status = .running := by
    simp only [TaskRecord.ownedBy, decide_eq_true_eq] at owned
    exact owned.1
  have recorded :
      ∀ change : Change,
        Settles platform execution.write answers row change db →
          (∀ now, change.Enabled now row) →
          (∀ now, execution.ShownBy (change.set now row)) →
          execution.Recorded platform db
            (Store.execute platform ⟨execution.write, answers⟩ db).link.db :=
    fun change settles enabled shown =>
      (Execution.recorded_iff_of_settles settles sameId found enabled
        fun now => iff_true_intro (shown now)).mpr True.intro
  rcases execution.write_cases with
    ⟨unregistered, written⟩ | ⟨succeeded, written⟩ |
      ⟨error, failed, registered, ⟨exhausted, written⟩ | ⟨retries, written⟩⟩
  · rw [markUnregistered] at written
    refine iff_of_true ?_ (Execution.recordable_of_calm ?_)
    · have settles :=
        markDead_settles platform reachable found owned
          (isText_unregistered sameType)
          (show isText (ascii "no handler registered") = true from
            isText_ascii (by simp))
      rw [sameId, ← written] at settles
      exact recorded _ settles (fun _ => owned) fun now =>
        Execution.shownBy_dead rfl (Or.inl unregistered)
    · rw [unregistered]
      rfl
  · refine iff_of_true ?_ (Execution.recordable_of_calm succeeded.2)
    have settles :=
      markCompleted_settles platform reachable found owned
        execution.taskDurationMS
    rw [sameId, ← written] at settles
    exact recorded _ settles (fun _ => owned) fun now =>
      Execution.shownBy_completed rfl succeeded
  · rw [Execution.recordable_iff_of_exhausted failed exhausted]
    by_cases valid : isText error = true
    · refine iff_of_true ?_ valid
      have settles :=
        markDead_settles platform reachable found owned valid
          (show isText (ascii "all attempts exhausted") = true from
            isText_ascii (by simp))
      rw [sameId, ← written] at settles
      exact recorded _ settles (fun _ => owned) fun now =>
        Execution.shownBy_dead rfl
          (Or.inr ⟨by simp [Behaviour.fails, failed], exhausted⟩)
    · refine iff_of_false ?_ valid
      rw [Store.execute, written]
      exact Execution.not_recorded_of_gaveUp
        (markDead_refused reachable _ _ valid) sameId found running
  · rw [Execution.recordable_iff_of_retries failed retries]
    by_cases storable :
        isText error = true ∧ IsTimestamp (sentTime execution.nextRunAt)
    · rcases storable with ⟨valid, inside⟩
      have settles :=
        markPending_settles platform reachable sameId found owned valid inside
      rw [← written] at settles
      simp only [valid, inside, true_and]
      refine Execution.recorded_iff_of_settles settles sameId found
        (fun _ => owned) fun now => ⟨fun shown => shown.runAt rfl, ?_⟩
      exact fun later =>
        Execution.shownBy_pending rfl later
          (by simp [Behaviour.fails, failed]) retries
    · refine iff_of_false ?_ fun both => storable ⟨both.1, both.2.1⟩
      rw [Store.execute, written]
      exact Execution.not_recorded_of_gaveUp
        (markPending_refused reachable _ storable) sameId found running

/-! ## A handler error with a NUL byte -/

theorem isText_worker : isText (ascii "w") = true :=
  isText_ascii (by simp)

/-- The execution of a claimed task by a handler that fails. -/
def failing (row : TaskRecord) (error : GoString) : Execution where
  settings := {}
  workerID := ⟨ascii "w", isText_worker⟩
  task := scanClaimed row
  behaviour := .ended (.returned (some error))
  failedAt := 0
  random := ⟨0, le_rfl, zero_lt_one⟩
  taskDurationMS := 1

theorem failing_recordable {error : GoString} (valid : isText error = true) :
    (failing row error).Recordable := by
  constructor
  · intro text given
    cases given
    exact valid
  · intro _ _
    have due : (failing row error).nextRunAt = 0 := by
      simp [Execution.nextRunAt, failing, computeBackoff]
    rw [due]
    exact ⟨by decide, fun wrapped => absurd (by decide) wrapped⟩

theorem failing_gives_up
    (platform : Platform) {error : GoString}
    (retries : ¬ (failing row error).exhausted)
    (invalid : isText error ≠ true) {answers : Answers}
    (reachable : ∀ position, (answers position).fault = none)
    (db : Database) :
    GaveUp db
      (Store.execute platform ⟨(failing row error).write, answers⟩ db) := by
  have written :
      (failing row error).write =
        .markPending (failing row error).task
          (failing row error).workerID.bytes error
          (failing row error).nextRunAt :=
    if_neg retries
  rw [Store.execute, written]
  apply markPending_refused reachable
  exact fun storable => invalid storable.1

theorem claimedState_found : (claimedState.find 7).isSome = true := by
  decide +kernel

/-- The row of the claimed task. -/
@[irreducible]
def claimedRow : TaskRecord :=
  (claimedState.find 7).get claimedState_found

theorem find_claimedRow :
    claimedState.find claimedRow.id = some claimedRow := by
  have found : claimedState.find 7 = some claimedRow := by
    rw [claimedRow, Option.some_get]
  rw [Database.find_id found, found]

theorem claimedRow_held :
    claimedRow.ownedBy (failing claimedRow []).workerID = true ∧
      claimedRow.status = .running ∧ claimedRow.attempts = 1 ∧
      claimedRow.maxRetries = 3 := by
  decide +kernel

/--
The worker owns the row and no round trip meets a fault, but the write of the
outcome is refused and the row stays `RUNNING`.
-/
theorem nulError_leaves_running :
    claimedState.find claimedRow.id = some claimedRow ∧
      claimedRow.ownedBy (failing claimedRow [0]).workerID = true ∧
      (Store.execute echoPlatform
          ⟨(failing claimedRow [0]).write, calm 0 5⟩
          claimedState).link.db.find claimedRow.id =
        some claimedRow ∧
      claimedRow.status = .running ∧
      ¬ (failing claimedRow [0]).Recorded echoPlatform claimedState
        (Store.execute echoPlatform
          ⟨(failing claimedRow [0]).write, calm 0 5⟩
          claimedState).link.db := by
  rcases claimedRow_held with ⟨owned, running, attempts, maxRetries⟩
  have retries : ¬ (failing claimedRow [0]).exhausted := by
    simp [Execution.exhausted, failing, scanClaimed, attempts, maxRetries]
  have gaveUp :=
    failing_gives_up echoPlatform retries (by decide)
      (show ∀ position, (calm 0 5 position).fault = none from
        fun _ => rfl) claimedState
  refine ⟨find_claimedRow, owned, ?_, running, ?_⟩
  · rw [gaveUp.same]
    exact find_claimedRow
  · exact Execution.not_recorded_of_gaveUp gaveUp rfl find_claimedRow running

theorem plainError_recorded :
    (failing claimedRow (ascii "boom")).Recorded echoPlatform
      claimedState
      (Store.execute echoPlatform
        ⟨(failing claimedRow (ascii "boom")).write, calm 0 5⟩
        claimedState).link.db := by
  have recorded :=
    outcome_recorded_iff_recordable echoPlatform
      (failing claimedRow (ascii "boom")) claimedRow claimedRow
      claimedState (calm 0 5) rfl rfl find_claimedRow claimedRow_held.1
      fun _ => rfl
  exact recorded.mpr (failing_recordable (isText_ascii (by simp)))

end Dhara.Pool
