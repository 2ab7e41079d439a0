import Dhara.Pool.Fencing
import Dhara.Store.Idempotency
import Dhara.Store.Invariants
import Dhara.Store.Reaping

/-!
# No task is lost

Whatever crashes and fails: a row that was inserted stays, with the columns it
was inserted with, and is `COMPLETED` only after a handler has returned nil
for it.  A task that has not ended is `PENDING`, where every later claim sees
it, or `RUNNING` with the time of its last heartbeat, where every reaper run
sees it that starts more than the threshold later.
-/

namespace Dhara.Pool

open Dhara.Store Dhara.Transaction

/-! ## Completed tasks -/

section Stores

variable {platform : Platform}

/-- A completed task was completed by a committed `MarkCompleted`. -/
def CompletedBy (id : TaskId) (history : List StoreCommit)
    (db : Database) : Prop :=
  ∀ row, db.find id = some row → row.status = .completed →
    ∃ commit ∈ history, ∃ workerID durationMs,
      commit.call = .markCompleted id workerID durationMs

theorem CompletedBy.concat
    {id : TaskId} {history : List StoreCommit} {db : Database}
    {commit : StoreCommit} (completedBy : CompletedBy id history db)
    (lawful : Lawful platform db commit.call commit.writes) :
    CompletedBy id (history ++ [commit])
      ((postgres platform).applyAll commit.writes db) := by
  intro row found completed
  have old :
      ∀ row, db.find id = some row → row.status = .completed →
        ∃ entry ∈ history ++ [commit], ∃ workerID durationMs,
          entry.call = .markCompleted id workerID durationMs := by
    intro row stored ended
    rcases completedBy row stored ended with ⟨entry, member, rest⟩
    exact ⟨entry, List.mem_append_left _ member, rest⟩
  have step := lawful.viewStep id
  generalize before : db.view id = first at step
  generalize written id commit.writes = wrote at step
  generalize after :
    ((postgres platform).applyAll commit.writes db).view id = last
      at step
  have beforeRow := congrArg TaskView.row before
  have afterRow := congrArg TaskView.row after
  rw [Database.view_row] at beforeRow afterRow
  rw [found] at afterRow
  cases step with
  | stay => exact old row (beforeRow.trans afterRow.symm) completed
  | enqueue fresh logs letters enqueues =>
      cases afterRow
      rcases enqueues with ⟨_, _, _, encoded, now, _, _, equal⟩
      rw [equal] at completed
      cases completed
  | beat workerID beaten now logs letters owned called =>
      cases afterRow
      have running := ownedBy_running owned
      change beaten.status = .completed at completed
      rw [running] at completed
      cases completed
  | move move logs letters enabled performs =>
      cases afterRow
      have kind := performs.makes
      cases change : move.change with
      | markCompleted worker =>
          rw [change] at kind
          cases call : commit.call with
          | markCompleted taskID workerID durationMs =>
              rw [call] at performs
              have sameId := Database.find_id beforeRow
              rw [← performs.1, sameId] at call
              exact ⟨commit, by simp, workerID, durationMs, call⟩
          | _ =>
              rw [call] at kind
              cases kind
      | heartbeat worker =>
          rw [change] at enabled
          exact enabled.elim
      | _ =>
          rw [Move.after, change] at completed
          cases completed

theorem interleave_completedBy
    {schedule : List StoreLabel} {config : StoreConfig}
    (followed : interleave platform .empty schedule = some config)
    (id : TaskId) : CompletedBy id config.history config.db := by
  have start : CompletedBy id [] .empty := by
    intro row found
    cases found
  exact interleave_history
    (fun _ _ _ completedBy lawful => completedBy.concat lawful) followed
    start

end Stores

section Handlers

variable {platform : Platform} {state next : State} {step : Step}

/-- A worker marks a task completed after its handler returned nil. -/
theorem Worker.Acts.completes
    {worker : Worker} {store : StoreConfig} {reaction : Reaction}
    (acts : worker.Acts store reaction) {id : TaskId}
    {workerID : GoString} {durationMs : Int}
    (calling : reaction.call = some (.markCompleted id workerID durationMs)) :
    ∃ claim task outcome,
      .handled claim task outcome ∈ reaction.events ∧ task.id = id ∧
        runTaskHandler outcome = none := by
  cases acts with
  | claim phase => cases calling
  | refused claim result phase returned => cases calling
  | settle claim task heartbeat session result phase returned =>
      cases calling
  | execute claim task phase returned =>
      unfold Worker.execute at calling
      split_ifs at calling
      cases calling
  | finish claim task heartbeat handled nextRunAt duration phase =>
      have sent := Option.some.inj calling
      unfold markHandled at sent
      split at sent
      · unfold handleFailure at sent
        split_ifs at sent
      · rename_i returned
        cases sent
        exact ⟨claim, task, handled, by simp, rfl, returned⟩
  | beatRunning claim task heartbeat later sent phase beat =>
      cases beat _ calling
  | beatPersisting claim task heartbeat later session sent phase beat =>
      cases beat _ calling

/-- Every `MarkCompleted` was sent after the handler returned nil. -/
def CompletionsHandled (state : State) : Prop :=
  ∀ index id workerID durationMs,
    Called state.store index (.markCompleted id workerID durationMs) →
      ∃ claim task outcome,
        .handled claim task outcome ∈ state.events ∧ task.id = id ∧
          runTaskHandler outcome = none

theorem CompletionsHandled.keep
    (recorded : CompletionsHandled state)
    (moves : state.Moves platform step next) :
    CompletionsHandled next := by
  intro index id workerID durationMs called
  rcases moves.called_cases called with
    old | outside | ⟨_, worker, reaction, _, acts, calling, events⟩
  · rcases recorded index id workerID durationMs old with
      ⟨claim, task, outcome, member, rest⟩
    exact ⟨claim, task, outcome, moves.events member, rest⟩
  · cases outside
  · rcases acts.completes calling with
      ⟨claim, task, outcome, member, rest⟩
    refine ⟨claim, task, outcome, ?_, rest⟩
    rw [events]
    exact List.mem_append_right _ member

end Handlers

/-! ## Every run -/

section Runs

variable {platform : Platform} {state : State}

/--
A reaper run that starts more than the threshold after the last heartbeat,
while nobody else has locked the row, takes the task out of `RUNNING`.
-/
def Rescuable (platform : Platform) (db : Database) (id : TaskId)
    (lockedAt : Time) : Prop :=
  ∀ threshold reaperID (answers : Answers),
    lockedAt + threshold < (answers 0).clock →
    (answers 1).others (.task id) = false →
      let outcome :=
        execute platform ⟨.requeueStaleRunning threshold reaperID, answers⟩ db
      ((answers.Faulty ∨ isText reaperID = false) ∧
          GaveUp db outcome) ∨
        ((∃ count, outcome.result = .count (.ok count)) ∧
          Rescued (answers 0).clock (outcome.link.db.view id))

/-- What holds of every task that was ever inserted. -/
structure NothingLost (platform : Platform) (state : State) : Prop where
  /-- An inserted row stays with the columns it was inserted with. -/
  kept :
    ∀ commit ∈ state.store.history, ∀ row,
      .insertTask row ∈ commit.writes → state.store.db.Keeps row
  /-- A completed task has been handled. -/
  completed :
    ∀ row ∈ state.store.db.tasks.rows, row.status = .completed →
      ∃ claim task outcome,
        .handled claim task outcome ∈ state.events ∧
          task.id = row.id ∧ runTaskHandler outcome = none
  /-- A task that has not ended is seen by claims or by reapers. -/
  seen :
    ∀ row ∈ state.store.db.tasks.rows,
      row.status ≠ .completed → row.status ≠ .canceled →
      row.status ≠ .dead →
        (row.status = .pending ∧
          ∀ now, row.runAt ≤ now → row.due now = true) ∨
          (row.status = .running ∧
            ∃ lockedAt,
              row.lockedAt = some lockedAt ∧
                Rescuable platform state.store.db row.id lockedAt)

/--
In every run of any number of pools and clients, with crashes and faults at
any round trip, no task is lost.
-/
theorem no_task_lost
    {run : List Step}
    (followed : State.follow platform {} run = some state) :
    NothingLost platform state := by
  let Holds : State → Prop := fun state =>
    Reached platform state.store ∧ CompletionsHandled state
  have kept :
      ∀ state step next, Holds state →
        state.Moves platform step next → Holds next := by
    rintro state step next ⟨reached, recorded⟩ moves
    exact ⟨moves.reached reached, recorded.keep moves⟩
  have start : Holds {} := by
    refine ⟨⟨[], rfl⟩, ?_⟩
    rintro index id workerID durationMs ⟨session, found, _⟩
    cases found
  rcases State.follow_invariant kept start followed with
    ⟨⟨schedule, reached⟩, recorded⟩
  constructor
  · exact (interleave_origins reached).kept
  · intro row member completed
    have found := Database.find_of_mem member
    rcases interleave_completedBy reached row.id row found completed with
      ⟨commit, occurs, workerID, durationMs, called⟩
    rcases (interleave_ok reached).known commit occurs with
      ⟨session, located, same⟩
    exact recorded commit.session row.id workerID durationMs
      ⟨session, located, same.trans called⟩
  · intro row member notCompleted notCanceled notDead
    have found := Database.find_of_mem member
    cases status : row.status with
    | pending =>
        refine Or.inl ⟨rfl, ?_⟩
        intro now reachedTime
        simp [TaskRecord.due, status, reachedTime]
    | running =>
        have ok : ViewOk (state.store.db.view row.id) :=
          interleave_view (fun _ _ _ _ step ok => step.ok ok) reached rfl
        rw [ViewOk, Database.view_row, found] at ok
        have locked :=
          ok.lockedBy_iff_lockedAt.mp (ok.running_iff_lockedBy.mp status)
        rcases Option.isSome_iff_exists.mp locked with
          ⟨lockedAt, equal⟩
        refine Or.inr ⟨rfl, lockedAt, equal, ?_⟩
        intro threshold reaperID answers late free
        exact requeueStaleRunning_rescues answers found status equal late free
    | completed => exact (notCompleted status).elim
    | canceled => exact (notCanceled status).elim
    | dead => exact (notDead status).elim

/--
A worker claims a task and its process is lost before the handler starts.
-/
def abandonedRun : List Step :=
  [.call (.create (emailTask []))] ++ answers 0 4 0 ++
    [.start {} fun _ => true, .work 0 .claim] ++ answers 1 5 0 ++
    [.stop 0]

theorem abandonedRun_rescuable :
    ∃ state row,
      State.follow echoPlatform {} abandonedRun = some state ∧
        row ∈ state.store.db.tasks.rows ∧ row.status = .running ∧
        row.id = 7 ∧
        ∃ lockedAt,
          row.lockedAt = some lockedAt ∧
            Rescuable echoPlatform state.store.db 7 lockedAt := by
  have outcome :
      (State.follow echoPlatform {} abandonedRun).any
        (fun state =>
          (state.store.db.find 7).any fun row =>
            row.status = .running) = true := by
    decide +kernel
  simp only [Option.any_eq_true, decide_eq_true_eq] at outcome
  rcases outcome with ⟨state, followed, row, found, running⟩
  have member := (Database.find_eq_some_iff.mp found).1
  have sameId : row.id = 7 := Database.find_id found
  refine ⟨state, row, followed, member, running, sameId, ?_⟩
  rcases (no_task_lost followed).seen row member (by simp [running])
      (by simp [running]) (by simp [running]) with
    ⟨pending, _⟩ | ⟨_, lockedAt, locked, rescuable⟩
  · rw [running] at pending
    cases pending
  · rw [sameId] at rescuable
    exact ⟨lockedAt, locked, rescuable⟩

end Runs

end Dhara.Pool
