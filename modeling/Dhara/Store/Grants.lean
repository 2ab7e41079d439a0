import Dhara.Store.Invariants

/-!
# The claim a task runs under

The history says which committed `Claim` a `RUNNING` task runs under: the last
one, unless a later commit took the task out of `RUNNING`.  The row keeps the
attempts and the worker of that claim until then, so these two columns tell
what is known about it from the outside.
-/

namespace Dhara.Store

open Dhara.Transaction

/-- A committed claim: the session that made it and the row it wrote. -/
structure Grant where
  session : Nat
  row : TaskRecord

/-- The grant of a task after one more commit. -/
def nextGrant (id : TaskId) (current : Option Grant)
    (commit : StoreCommit) : Option Grant :=
  match written id commit.writes with
  | none => current
  | some row =>
      if row.status = .running then
        match commit.call with
        | .claim _ => some ⟨commit.session, row⟩
        | _ => current
      else
        none

/-- The claim that the task runs under. -/
def granted (id : TaskId) (history : List StoreCommit) : Option Grant :=
  history.foldl (nextGrant id) none

@[simp]
theorem granted_concat
    (id : TaskId) (history : List StoreCommit) (commit : StoreCommit) :
    granted id (history ++ [commit]) =
      nextGrant id (granted id history) commit := by
  simp [granted]

/-- The row is as the grant has left it, apart from heartbeats. -/
structure Grant.Covers (grant : Grant) (row : TaskRecord) : Prop where
  running : row.status = .running
  attempts : row.attempts = grant.row.attempts
  lockedBy : row.lockedBy = grant.row.lockedBy
  fixed : row.fixed = grant.row.fixed

/-- The grant stems from a committed claim of the task. -/
def Grant.Stems (grant : Grant) (id : TaskId)
    (history : List StoreCommit) : Prop :=
  ∃ commit ∈ history, ∃ workerID worker,
    commit.session = grant.session ∧ commit.call = .claim workerID ∧
      written id commit.writes = some grant.row ∧
      (Update.claim workerID).encode = .ok (.claim worker) ∧
      grant.row.lockedBy = some worker

/-- A task is `RUNNING` exactly if it has a grant, which covers its row. -/
structure Granted (id : TaskId) (history : List StoreCommit)
    (db : Database) : Prop where
  without :
    granted id history = none →
      ∀ row, db.find id = some row → row.status ≠ .running
  covers :
    ∀ grant, granted id history = some grant →
      ∃ row, db.find id = some row ∧ grant.Covers row
  stems : ∀ grant, granted id history = some grant → grant.Stems id history

/-! ## One commit -/

section Commits

variable {platform : Platform} {db : Database} {commit : StoreCommit}
    {history : List StoreCommit} {id : TaskId} {current : Option Grant}

theorem nextGrant_unwritten
    (silent : written id commit.writes = none) :
    nextGrant id current commit = current := by
  simp only [nextGrant, silent]

theorem nextGrant_ended
    {row : TaskRecord} (wrote : written id commit.writes = some row)
    (ended : row.status ≠ .running) :
    nextGrant id current commit = none := by
  simp only [nextGrant, wrote, if_neg ended]

theorem Grant.Stems.concat
    {grant : Grant} (stems : grant.Stems id history)
    (commit : StoreCommit) : grant.Stems id (history ++ [commit]) := by
  rcases stems with ⟨claim, member, rest⟩
  exact ⟨claim, List.mem_append_left _ member, rest⟩

/-- A commit that leaves the grant alone. -/
theorem Granted.keep
    {after : Database}
    (held : Granted id history db)
    (same : nextGrant id (granted id history) commit = granted id history)
    (idle :
      granted id history = none →
        ∀ row, after.find id = some row → row.status ≠ .running)
    (busy :
      ∀ (grant : Grant) row, db.find id = some row → grant.Covers row →
        ∃ later, after.find id = some later ∧ grant.Covers later) :
    Granted id (history ++ [commit]) after := by
  constructor
  · intro without
    rw [granted_concat, same] at without
    exact idle without
  · intro grant found
    rw [granted_concat, same] at found
    rcases held.covers grant found with ⟨row, stored, covers⟩
    exact busy grant row stored covers
  · intro grant found
    rw [granted_concat, same] at found
    exact (held.stems grant found).concat commit

/-- A move of the task gives it a new grant or ends the old one. -/
theorem Granted.move
    {after : Database} {move : Move}
    (wrote : written id commit.writes = some move.after)
    (found : after.find id = some move.after)
    (enabled : move.change.Enabled move.now move.row)
    (performs : commit.call.Performs move) :
    Granted id (history ++ [commit]) after := by
  have closes :
      move.after.status ≠ .running →
        Granted id (history ++ [commit]) after := by
    intro ended
    have none : granted id (history ++ [commit]) = none := by
      rw [granted_concat]
      exact nextGrant_ended wrote ended
    constructor
    · intro _ row stored
      rw [found] at stored
      cases stored
      exact ended
    · intro grant impossible
      rw [none] at impossible
      cases impossible
    · intro grant impossible
      rw [none] at impossible
      cases impossible
  have kind := performs.makes
  cases change : move.change with
  | claim worker =>
      rw [change] at kind
      cases called : commit.call with
      | claim workerID =>
          rw [called] at performs
          have running : move.after.status = .running := by
            rw [Move.after, change]
            rfl
          have next :
              granted id (history ++ [commit]) =
                some ⟨commit.session, move.after⟩ := by
            simp only [granted_concat, nextGrant, wrote, called,
              running, if_true]
          constructor
          · intro impossible
            rw [next] at impossible
            cases impossible
          · intro grant equal
            rw [next] at equal
            cases equal
            exact ⟨move.after, found, running, rfl, rfl, rfl⟩
          · intro grant equal
            rw [next] at equal
            cases equal
            refine ⟨commit, by simp, workerID, worker, rfl, called,
              wrote, ?_, ?_⟩
            · rw [performs.1, change]
            · rw [Move.after, change]
              rfl
      | _ =>
          rw [called] at kind
          cases kind
  | heartbeat worker =>
      rw [change] at enabled
      exact enabled.elim
  | _ =>
      apply closes
      simp [Move.after, change, Change.set]

theorem Granted.concat
    (held : Granted id history db)
    (lawful : Lawful platform db commit.call commit.writes) :
    Granted id (history ++ [commit])
      ((postgres platform).applyAll commit.writes db) := by
  have step := lawful.viewStep id
  generalize found :
    (postgres platform).applyAll commit.writes db = after at step
  generalize before : db.view id = first at step
  generalize wrote : written id commit.writes = row at step
  generalize later : after.view id = last at step
  have beforeRow := congrArg TaskView.row before
  have laterRow := congrArg TaskView.row later
  rw [Database.view_row] at beforeRow laterRow
  cases step with
  | stay =>
      have same : after.find id = db.find id := laterRow.trans beforeRow.symm
      apply held.keep (nextGrant_unwritten wrote)
      · intro without
        rw [same]
        exact held.without without
      · intro grant row stored covers
        rw [same]
        exact ⟨row, stored, covers⟩
  | enqueue row logs letters enqueues =>
      rcases enqueues with ⟨_, _, _, encoded, now, _, _, equal⟩
      apply held.keep (nextGrant_unwritten wrote)
      · intro _ stored known
        rw [laterRow] at known
        cases known
        rw [equal]
        simp [EncodedTask.record]
      · intro grant stored known
        rw [beforeRow] at known
        cases known
  | beat worker row now logs letters owned called =>
      have running := ownedBy_running owned
      have same :
          nextGrant id (granted id history) commit = granted id history := by
        have stays :
            ((Change.heartbeat worker).set now row).status = .running :=
          running
        simp only [nextGrant, wrote, called, stays, if_true]
      apply held.keep same
      · intro without
        exact (held.without without row beforeRow running).elim
      · intro grant stored known covers
        rw [beforeRow] at known
        cases known
        exact ⟨_, laterRow, covers.running, covers.attempts,
          covers.lockedBy, (Change.set_fixed _ now row).trans covers.fixed⟩
  | move move logs letters enabled performs =>
      exact Granted.move wrote laterRow enabled performs

/-- A claim locks the row for its worker. -/
theorem Lawful.locker
    {workerID : GoString} {writes : List Write} {row : TaskRecord}
    (lawful : Lawful platform db (.claim workerID) writes)
    (wrote : written id writes = some row) :
    ∃ worker,
      (Update.claim workerID).encode = .ok (.claim worker) ∧
        row.lockedBy = some worker := by
  have step := lawful.viewStep id
  rw [wrote] at step
  rcases step.of_written (fun _ _ => nofun) with
    ⟨move, _, _, equal, _, performs⟩
  have kind := performs.makes
  cases change : move.change with
  | claim worker =>
      refine ⟨worker, ?_, ?_⟩
      · rw [performs.1, change]
      · rw [← equal, Move.after, change]
        rfl
  | _ =>
      rw [change] at kind
      cases kind

theorem interleave_granted
    {schedule : List StoreLabel} {config : StoreConfig}
    (followed : interleave platform .empty schedule = some config)
    (id : TaskId) : Granted id config.history config.db := by
  have start : Granted id [] .empty := by
    constructor
    · intro _ row stored
      cases stored
    · intro grant impossible
      cases impossible
    · intro grant impossible
      cases impossible
  exact interleave_history
    (fun _ _ _ held lawful => held.concat lawful) followed start

end Commits

end Dhara.Store
