import Dhara.Store.Runs

/-!
# Retention

`DeleteOlderThan` removes the dead letters, the logs and the rows of old
tasks with three `DELETE` statements in one transaction.  Each statement
selects the old tasks anew, in the state committed by then, and the store
goes on between the statements.

The transaction sees the committed state without what it has deleted itself.
A commit of the store is therefore applied to both, and the commit of the
transaction makes its own view the committed state.  Per task the two views
take the same steps, so they differ only by the logs that were deleted before
the task was claimed.
-/

namespace Dhara.Playground

open Dhara.Store Dhara.Transaction

variable {faults : Nat → Option Fault} {after : Database}
  {platform : Platform} {cutoff : Time} {row : TaskRecord} {id : TaskId}
  {count : Nat}

/-! ## The statements -/

/-- `created_at < $1 AND status <> 'RUNNING'`. -/
def expired (cutoff : Time) (row : TaskRecord) : Bool :=
  row.createdAt < cutoff ∧ row.status ≠ .running

/-- The task is one of `oldTasks`. -/
def oldTask (cutoff : Time) (db : Database) (id : TaskId) : Bool :=
  (db.find id).any (expired cutoff)

def deleteDeadLetters (cutoff : Time) (db : Database) : Database :=
  { db with
    deadLetters :=
      db.deadLetters.filter fun letter =>
        !oldTask cutoff db letter.taskId }

def deleteTaskLogs (cutoff : Time) (db : Database) : Database :=
  { db with
    taskLogs :=
      db.taskLogs.filter fun entry => !oldTask cutoff db entry.taskId }

/-- The deletion of the rows, if no log or dead letter references them. -/
def deleteTasks (cutoff : Time) (db : Database) :
    Except Fault (Nat × Database) :=
  if (db.taskLogs.any fun entry => oldTask cutoff db entry.taskId) ∨
      db.deadLetters.any fun letter =>
        oldTask cutoff db letter.taskId then
    .error (.server .foreignKeyViolation)
  else
    .ok
      (db.tasks.rows.countP (expired cutoff),
        { db with
          tasks := db.tasks.filter fun row => !expired cutoff row })

/-! ## The transaction -/

/-- An error of the transaction, with its context. -/
structure CleanupError where
  context : String
  fault : Fault
deriving DecidableEq

/-- Transactions of the store, in the order of their commits. -/
abbrev Commits := List (Call × List Write)

/-- The state after the commits. -/
def replay (platform : Platform) (commits : Commits) (db : Database) :
    Database :=
  commits.foldl
    (fun current commit => (postgres platform).applyAll commit.2 current)
    db

/-- The answer of the server to a statement of the transaction. -/
def answered (context : String) : Option Fault → Except CleanupError Unit
  | some fault => .error ⟨context, fault⟩
  | none => .ok ()

/--
The statements of `DeleteOlderThan`.  The commits of the store happen after
the first, the second and the third of them.
-/
def cleanup (platform : Platform) (cutoff : Time)
    (faults : Nat → Option Fault) (first second third : Commits)
    (db : Database) : Except CleanupError (Nat × Database) := do
  answered "begin cleanup tx" (faults 0)
  answered "delete old dead letters" (faults 1)
  let seen := replay platform first (deleteDeadLetters cutoff db)
  answered "delete old task logs" (faults 2)
  let seen := replay platform second (deleteTaskLogs cutoff seen)
  answered "delete old tasks" (faults 3)
  match deleteTasks cutoff seen with
  | .error fault => .error ⟨"delete old tasks", fault⟩
  | .ok (count, seen) =>
      answered "commit cleanup" (faults 4)
      .ok (count, replay platform third seen)

/-- `DeleteOlderThan`: its result, and the committed state after it. -/
def deleteOlderThan (platform : Platform) (cutoff : Time)
    (faults : Nat → Option Fault) (first second third : Commits)
    (db : Database) : Except CleanupError Nat × Database :=
  match cleanup platform cutoff faults first second third db with
  | .error error =>
      (.error error, replay platform (first ++ second ++ third) db)
  | .ok (count, seen) => (.ok count, seen)

/-! ## The views after a statement -/

theorem filter_except {Entry : Type} (task : Entry → TaskId)
    (old : TaskId → Bool) (entries : List Entry) (id : TaskId) :
    ((entries.filter fun entry => !old (task entry)).filter
        fun entry => task entry = id) =
      if old id then [] else entries.filter fun entry => task entry = id := by
  rw [List.filter_filter]
  split_ifs with isOld
  · rw [List.filter_eq_nil_iff]
    intro entry _ kept
    simp only [Bool.and_eq_true, decide_eq_true_eq, Bool.not_eq_true'] at kept
    rw [kept.1, isOld] at kept
    cases kept.2
  · apply List.filter_congr
    intro entry _
    by_cases same : task entry = id
    · simp [same, isOld]
    · simp [same]

theorem view_deleteDeadLetters
    (cutoff : Time) (db : Database) (id : TaskId) :
    (deleteDeadLetters cutoff db).view id =
      ⟨db.find id, db.logsOf id,
        if oldTask cutoff db id then [] else db.deadLettersOf id⟩ := by
  have letters :=
    filter_except DeadLetterRecord.taskId (oldTask cutoff db)
      db.deadLetters id
  rw [Database.deadLettersOf, ← letters]
  rfl

theorem view_deleteTaskLogs
    (cutoff : Time) (db : Database) (id : TaskId) :
    (deleteTaskLogs cutoff db).view id =
      ⟨db.find id, if oldTask cutoff db id then [] else db.logsOf id,
        db.deadLettersOf id⟩ := by
  have logs :=
    filter_except LogRecord.taskId (oldTask cutoff db) db.taskLogs id
  rw [Database.logsOf, ← logs]
  rfl

theorem find_filter
    (keep : TaskRecord → Bool) (db : Database) (id : TaskId) :
    ({ db with tasks := db.tasks.filter keep } : Database).find id =
      (db.find id).filter keep := by
  apply Option.ext
  intro row
  rw [Option.filter_eq_some_iff, Database.find_eq_some_iff,
    Database.find_eq_some_iff]
  simp only [Table.rows_filter, List.mem_filter]
  constructor
  · rintro ⟨⟨member, kept⟩, same⟩
    exact ⟨⟨member, same⟩, kept⟩
  · rintro ⟨⟨member, same⟩, kept⟩
    exact ⟨⟨member, kept⟩, same⟩

theorem view_deleteTasks
    {db : Database} (deleted : deleteTasks cutoff db = .ok (count, after))
    (id : TaskId) :
    after.view id =
      if oldTask cutoff db id then ⟨none, [], []⟩ else db.view id := by
  rw [deleteTasks] at deleted
  split_ifs at deleted with referenced
  cases deleted
  rw [not_or] at referenced
  rw [Database.view, find_filter]
  split_ifs with old
  · have logs : db.logsOf id = [] := by
      rw [Database.logsOf, List.filter_eq_nil_iff]
      intro entry member same
      rw [decide_eq_true_eq] at same
      apply referenced.1
      rw [List.any_eq_true]
      exact ⟨entry, member, same ▸ old⟩
    have letters : db.deadLettersOf id = [] := by
      rw [Database.deadLettersOf, List.filter_eq_nil_iff]
      intro letter member same
      rw [decide_eq_true_eq] at same
      apply referenced.2
      rw [List.any_eq_true]
      exact ⟨letter, member, same ▸ old⟩
    have gone :
        (db.find id).filter (fun row => !expired cutoff row) = none := by
      rw [oldTask] at old
      cases found : db.find id with
      | none => rfl
      | some row =>
          rw [found] at old
          have dropped : expired cutoff row = true := old
          simp [Option.filter, dropped]
    rw [gone]
    exact congrArg₂ (TaskView.mk none) logs letters
  · have kept :
        (db.find id).filter (fun row => !expired cutoff row) =
          db.find id := by
      rw [oldTask] at old
      cases found : db.find id with
      | none => rfl
      | some row =>
          rw [found] at old
          have stays : expired cutoff row = false := by simpa using old
          simp [Option.filter, stays]
    rw [kept]
    rfl

/-! ## Twin states -/

/--
One step in the views of a task, made in the committed state and in the view
of the transaction by the same commit.
-/
inductive Twin : TaskView → TaskView → TaskView → TaskView → Prop where
  | stay (view twin : TaskView) : Twin view twin view twin
  | enqueue (view twin : TaskView) (row : TaskRecord)
      (fresh : view.row = none) :
      Twin view twin { view with row := some row }
        { twin with row := some row }
  | beat (view twin : TaskView) (old row : TaskRecord)
      (found : view.row = some old) (running : old.status = .running) :
      Twin view twin { view with row := some row }
        { twin with row := some row }
  | move (view twin : TaskView) (move : Move)
      (found : view.row = some move.row)
      (enabled : move.change.Enabled move.now move.row) :
      Twin view twin
        ⟨some move.after, view.logs ++ [move.log],
          move.lettersAfter view.deadLetters⟩
        ⟨some move.after, twin.logs ++ [move.log],
          move.lettersAfter twin.deadLetters⟩

section Twins

variable
    {platform : Platform} {db seen : Database} {call : Call}
    {writes : List Write}

theorem twin_other (other : ∀ write ∈ writes, write.task ≠ id) :
    Twin (db.view id) (seen.view id)
      (((postgres platform).applyAll writes db).view id)
      (((postgres platform).applyAll writes seen).view id) := by
  rw [view_applyAll_other other, view_applyAll_other other]
  exact .stay _ _

theorem twin_writesOf
    {moves : List Move} (distinct : (moves.map fun move => move.row.id).Nodup)
    (legal : ∀ move ∈ moves, move.Legal db)
    (same : seen.find id = db.find id) :
    Twin (db.view id) (seen.view id)
      (((postgres platform).applyAll (writesOf moves) db).view id)
      (((postgres platform).applyAll (writesOf moves) seen).view id) := by
  by_cases occurs : ∃ move ∈ moves, move.row.id = id
  · rcases occurs with ⟨move, member, equal⟩
    subst id
    have found := (legal move member).found
    rw [view_writesOf distinct member found,
      view_writesOf distinct member (same.trans found)]
    exact .move (db.view move.row.id) (seen.view move.row.id) move found
      (legal move member).enabled
  · apply twin_other
    apply writesOf_task
    intro move member equal
    exact occurs ⟨move, member, equal⟩

/-- A lawful commit takes both states through the same step. -/
theorem Lawful.twin
    (lawful : Lawful platform db call writes)
    (below : ∀ row ∈ seen.tasks.rows, row ∈ db.tasks.rows)
    (same : seen.find id = db.find id) :
    Twin (db.view id) (seen.view id)
      (((postgres platform).applyAll writes db).view id)
      (((postgres platform).applyAll writes seen).view id) := by
  cases lawful with
  | enqueue call rows enqueues free apart =>
      have alsoFree : ∀ row ∈ rows, seen.Free row := by
        intro row member old stored
        exact free row member old (below old stored)
      by_cases occurs : ∃ row ∈ rows, row.id = id
      · rcases occurs with ⟨row, member, equal⟩
        subst id
        rw [view_insertions free apart member,
          view_insertions alsoFree apart member]
        exact .enqueue _ _ row (free row member).find_eq_none
      · apply twin_other
        intro write member equal
        rcases List.mem_map.mp member with ⟨row, inside, written⟩
        subst write
        exact occurs ⟨row, inside, equal⟩
  | beat taskID workerID row now found owned =>
      have sameId := Database.find_id found
      subst taskID
      by_cases equal : row.id = id
      · subst id
        have stepped :
            ∀ state : Database, state.find row.id = some row →
              ((postgres platform).applyAll
                [.updateTask ((Change.heartbeat workerID).set now row)]
                  state).view row.id =
                { state.view row.id with
                  row :=
                    some ((Change.heartbeat workerID).set now row) } := by
          intro state stored
          have stored :
              state.find ((Change.heartbeat workerID).set now row).id =
                some row :=
            stored
          exact Write.view_updateTask stored rfl
        rw [stepped db found, stepped seen (same.trans found)]
        simp only [TaskRecord.ownedBy, decide_eq_true_eq] at owned
        exact .beat _ _ row _ found owned.1
      · apply twin_other
        simpa [Write.task] using equal
  | move call move legal performs =>
      exact twin_writesOf (by simp) (by simpa using legal) same
  | reap threshold reaperID moves distinct legal performs =>
      exact twin_writesOf distinct legal same

end Twins

/--
The view of the transaction against the committed one.  It lacks the marked
logs, and it may lack the dead letters of a row in one of the given states.
-/
structure Trails (Slack : TaskRecord → Prop) (marked : List LogRecord)
    (view twin : TaskView) : Prop where
  row : twin.row = view.row
  logs : view.logs = marked ++ twin.logs
  letters :
    twin.deadLetters = view.deadLetters ∨
      ∃ row, view.row = some row ∧ Slack row

theorem Trails.step
    {Slack : TaskRecord → Prop} {marked : List LogRecord}
    {view twin after twinAfter : TaskView}
    (trails : Trails Slack marked view twin)
    (dead : ∀ row, Slack row → row.status = .dead)
    (step : Twin view twin after twinAfter) :
    Trails Slack marked after twinAfter := by
  cases step with
  | stay => exact trails
  | enqueue row fresh =>
      refine ⟨rfl, trails.logs, ?_⟩
      rcases trails.letters with same | ⟨old, found, _⟩
      · exact Or.inl same
      · rw [fresh] at found
        cases found
  | beat old row found running =>
      refine ⟨rfl, trails.logs, ?_⟩
      rcases trails.letters with same | ⟨other, stored, slack⟩
      · exact Or.inl same
      · rw [found] at stored
        cases stored
        rw [dead old slack] at running
        cases running
  | move move found enabled =>
      refine ⟨rfl, ?_, Or.inl ?_⟩
      · rw [trails.logs, List.append_assoc]
      · rcases trails.letters with same | ⟨other, stored, slack⟩
        · rw [same]
        · rw [found] at stored
          cases stored
          have revived : move.change = .retryDead := by
            have status := dead move.row slack
            cases changed : move.change <;>
              simp_all [Change.Enabled, TaskRecord.due, TaskRecord.ownedBy]
          simp [Move.lettersAfter, revived]

/--
The state that the transaction sees.  The tasks it has deleted are gone, and
the others trail the committed state.
-/
structure Overlay (gone : TaskId → Bool) (Slack : TaskRecord → Prop)
    (marked : TaskId → List LogRecord) (db seen : Database) : Prop where
  kept :
    ∀ id, gone id = false →
      Trails Slack (marked id) (db.view id) (seen.view id)
  clean : ∀ id, gone id = true → seen.view id = ⟨none, [], []⟩

variable {commits : Commits}

section Overlays

variable
    {platform : Platform} {gone : TaskId → Bool}
    {Slack : TaskRecord → Prop} {marked : TaskId → List LogRecord}
    {db seen : Database}

theorem Overlay.below (overlay : Overlay gone Slack marked db seen) :
    ∀ row ∈ seen.tasks.rows, row ∈ db.tasks.rows := by
  intro row member
  have found := Database.find_of_mem member
  cases dropped : gone row.id with
  | true =>
      have empty := congrArg TaskView.row (overlay.clean row.id dropped)
      rw [Database.view_row, found] at empty
      cases empty
  | false =>
      have same := (overlay.kept row.id dropped).row
      rw [Database.view_row, Database.view_row, found] at same
      exact (Database.find_eq_some_iff.mp same.symm).1

/-- A commit that spares the deleted tasks keeps the overlay. -/
theorem Overlay.publish
    (overlay : Overlay gone Slack marked db seen)
    (dead : ∀ row, Slack row → row.status = .dead)
    {call : Call} {writes : List Write}
    (lawful : Lawful platform db call writes)
    (spared : ∀ write ∈ writes, gone write.task = false) :
    Overlay gone Slack marked
      ((postgres platform).applyAll writes db)
      ((postgres platform).applyAll writes seen) where
  kept := by
    intro id stays
    have trails := overlay.kept id stays
    exact trails.step dead (Lawful.twin lawful overlay.below trails.row)
  clean := by
    intro id dropped
    rw [view_applyAll_other, overlay.clean id dropped]
    intro write member same
    have stays := spared write member
    rw [same, dropped] at stays
    cases stays

theorem Overlay.publishes
    (overlay : Overlay gone Slack marked db seen)
    (dead : ∀ row, Slack row → row.status = .dead)
    (published : (contract platform).Publishes db commits after)
    (spared :
      ∀ commit ∈ commits, ∀ write ∈ commit.2, gone write.task = false) :
    Overlay gone Slack marked after (replay platform commits seen) := by
  induction published with
  | nil => exact overlay
  | snoc earlier call writes lawful induction =>
      rw [replay, List.foldl_append]
      have before :=
        induction fun commit member =>
          spared commit (List.mem_append_left _ member)
      exact before.publish dead lawful (spared (call, writes) (by simp))

theorem publishes_replay
    (published : (contract platform).Publishes db commits after) :
    after = replay platform commits db := by
  induction published with
  | nil => rfl
  | snoc earlier call writes lawful induction =>
      rw [replay, List.foldl_append, induction]
      rfl

end Overlays

/-! ## The stages of the transaction -/

/-- Only dead tasks have dead letters. -/
def Lettered (view : TaskView) : Prop :=
  view.deadLetters = [] ∨ ∃ row, view.row = some row ∧ row.status = .dead

theorem Lettered.step
    {call : Call} {before after : TaskView} {wrote : Option TaskRecord}
    (step : ViewStep platform call before wrote after)
    (lettered : Lettered before) : Lettered after := by
  cases step with
  | stay => exact lettered
  | enqueue row logs letters enqueues =>
      rcases lettered with none | ⟨old, found, _⟩
      · exact Or.inl none
      · cases found
  | beat workerID row now logs letters owned =>
      rcases lettered with none | ⟨old, found, dead⟩
      · exact Or.inl none
      · cases found
        simp only [TaskRecord.ownedBy, decide_eq_true_eq] at owned
        rw [owned.1] at dead
        cases dead
  | move move logs letters enabled =>
      unfold Lettered at lettered ⊢
      cases changed : move.change <;>
        simp_all [Move.lettersAfter, Move.after, Change.set,
          Change.Enabled, TaskRecord.due, TaskRecord.ownedBy]

/-- The rows whose dead letters the first statement may have deleted. -/
def Buried (cutoff : Time) (row : TaskRecord) : Prop :=
  row.status = .dead ∧ row.createdAt < cutoff

/-- The logs that the second statement deletes. -/
def markedLogs (cutoff : Time) (db : Database) (id : TaskId) :
    List LogRecord :=
  if oldTask cutoff db id then db.logsOf id else []

section Stages

variable {platform : Platform} {cutoff : Time} {db seen : Database}

theorem overlay_deleteDeadLetters (cutoff : Time)
    (lettered : ∀ id, Lettered (db.view id)) :
    Overlay (fun _ => false) (Buried cutoff) (fun _ => []) db
      (deleteDeadLetters cutoff db) where
  kept := by
    intro id _
    rw [view_deleteDeadLetters]
    refine ⟨rfl, rfl, ?_⟩
    by_cases old : oldTask cutoff db id = true
    · rcases lettered id with none | ⟨row, found, dead⟩
      · rw [if_pos old]
        exact Or.inl none.symm
      · refine Or.inr ⟨row, found, dead, ?_⟩
        rw [oldTask, show db.find id = some row from found] at old
        simp only [Option.any_some, expired, decide_eq_true_eq] at old
        exact old.1
    · rw [if_neg old]
      exact Or.inl rfl
  clean := by
    intro id dropped
    cases dropped

theorem Overlay.deleteTaskLogs
    (overlay :
      Overlay (fun _ => false) (Buried cutoff) (fun _ => []) db seen) :
    Overlay (fun _ => false) (Buried cutoff) (markedLogs cutoff db) db
      (deleteTaskLogs cutoff seen) where
  kept := by
    intro id stays
    have trails := overlay.kept id stays
    have same : seen.find id = db.find id := trails.row
    have sameOld : oldTask cutoff seen id = oldTask cutoff db id := by
      rw [oldTask, same, oldTask]
    rw [view_deleteTaskLogs, sameOld]
    refine ⟨same, ?_, trails.letters⟩
    rw [markedLogs]
    split_ifs
    · simp
    · exact trails.logs
  clean := by
    intro id dropped
    cases dropped

theorem Overlay.deleteTasks
    {marked : TaskId → List LogRecord}
    (overlay : Overlay (fun _ => false) (Buried cutoff) marked db seen)
    (deleted : deleteTasks cutoff seen = .ok (count, after)) :
    Overlay (oldTask cutoff db) (fun _ => False) marked db after := by
  have viewed := view_deleteTasks deleted
  have sameOld : ∀ id, oldTask cutoff seen id = oldTask cutoff db id := by
    intro id
    have same : seen.find id = db.find id := (overlay.kept id rfl).row
    rw [oldTask, same, oldTask]
  constructor
  · intro id stays
    have trails := overlay.kept id rfl
    rw [viewed, sameOld, stays]
    refine ⟨trails.row, trails.logs, ?_⟩
    rcases trails.letters with same | ⟨row, found, dead, early⟩
    · exact Or.inl same
    · rw [oldTask, show db.find id = some row from found] at stays
      simp [expired, dead, early] at stays
  · intro id dropped
    rw [viewed, sameOld, dropped]
    rfl

end Stages

theorem answered_eq_ok_iff
    {context : String} {fault : Option Fault} {value : Unit} :
    answered context fault = .ok value ↔ fault = none := by
  cases fault <;> simp [answered]

variable {first : Commits}

/-- What a transaction that commits leaves behind. -/
theorem cleanup_overlay
    {second third : Commits}
    {db afterFirst afterSecond afterThird final : Database}
    (lettered : ∀ id, Lettered (db.view id))
    (firstly : (contract platform).Publishes db first afterFirst)
    (secondly : (contract platform).Publishes afterFirst second afterSecond)
    (thirdly : (contract platform).Publishes afterSecond third afterThird)
    (locked :
      ∀ commit ∈ third, ∀ write ∈ commit.2,
        oldTask cutoff afterSecond write.task = false)
    (done :
      cleanup platform cutoff faults first second third db =
        .ok (count, final)) :
    Overlay (oldTask cutoff afterSecond) (fun _ => False)
      (markedLogs cutoff afterFirst) afterThird final := by
  have buried : ∀ row, Buried cutoff row → row.status = .dead :=
    fun _ found => found.1
  have stageOne :=
    (overlay_deleteDeadLetters cutoff lettered).publishes buried firstly
      fun _ _ _ _ => rfl
  have stageTwo :=
    stageOne.deleteTaskLogs.publishes buried secondly fun _ _ _ _ => rfl
  simp only [cleanup, bind, bind_eq_ok_iff, answered_eq_ok_iff] at done
  rcases done with ⟨_, _, _, _, _, _, _, _, done⟩
  split at done
  · cases done
  · rename_i deleted
    simp only [bind_eq_ok_iff] at done
    rcases done with ⟨_, _, equal⟩
    cases equal
    exact (stageTwo.deleteTasks deleted).publishes
      (fun _ impossible => impossible.elim) thirdly locked

/-! ## Reachable states -/

/-- The states reached by commits of the store and by retention. -/
inductive Reached (platform : Platform) : Database → Prop where
  | empty : Reached platform .empty
  | published {db : Database} {call : Call} {writes : List Write}
      (before : Reached platform db)
      (lawful : Lawful platform db call writes) :
      Reached platform ((postgres platform).applyAll writes db)
  | cleaned {db afterFirst afterSecond afterThird : Database}
      {first second third : Commits} (before : Reached platform db)
      (cutoff : Time) (faults : Nat → Option Fault)
      (firstly : (contract platform).Publishes db first afterFirst)
      (secondly : (contract platform).Publishes afterFirst second afterSecond)
      (thirdly : (contract platform).Publishes afterSecond third afterThird)
      (locked :
        ∀ commit ∈ third, ∀ write ∈ commit.2,
          oldTask cutoff afterSecond write.task = false) :
      Reached platform
        (deleteOlderThan platform cutoff faults first second third db).2

section Reached

variable {platform : Platform} {db : Database}

theorem Reached.publishes
    (reached : Reached platform db)
    (published : (contract platform).Publishes db commits after) :
    Reached platform after := by
  induction published with
  | nil => exact reached
  | snoc earlier call writes lawful induction =>
      exact .published induction lawful

theorem Reached.execute
    (reached : Reached platform db) (invocation : Invocation) :
    Reached platform (Store.execute platform invocation db).link.db := by
  rcases execute_delivers platform invocation db with
    ⟨published, publishes, _⟩
  exact reached.publishes publishes

theorem Reached.executeAll
    (reached : Reached platform db) (run : List Invocation) :
    Reached platform (Store.executeAll platform db run) := by
  induction run generalizing db with
  | nil => exact reached
  | cons invocation rest induction =>
      exact induction (reached.execute invocation)

theorem publishes_lettered
    (published : (contract platform).Publishes db commits after)
    (lettered : ∀ id, Lettered (db.view id)) :
    ∀ id, Lettered (after.view id) := by
  apply published.invariant (contract platform) _ lettered
  intro current call writes held lawful id
  exact Lettered.step (Lawful.viewStep lawful id) (held id)

/-- The commits around a transaction that fails are all that happens. -/
theorem deleteOlderThan_failed
    {second third : Commits} {afterFirst afterSecond afterThird : Database}
    (firstly : (contract platform).Publishes db first afterFirst)
    (secondly : (contract platform).Publishes afterFirst second afterSecond)
    (thirdly : (contract platform).Publishes afterSecond third afterThird)
    {error : CleanupError}
    (failed :
      (deleteOlderThan platform cutoff faults first second third db).1 =
        .error error) :
    (deleteOlderThan platform cutoff faults first second third db).2 =
      afterThird := by
  unfold deleteOlderThan at failed ⊢
  split at failed
  · have all :=
      ((firstly.append (contract platform) secondly).append
        (contract platform) thirdly)
    exact (publishes_replay all).symm
  · cases failed

theorem deleteOlderThan_committed
    {second third : Commits}
    (done :
      (deleteOlderThan platform cutoff faults first second third db).1 =
        .ok count) :
    cleanup platform cutoff faults first second third db =
      .ok
        (count,
          (deleteOlderThan platform cutoff faults first second third
            db).2) := by
  unfold deleteOlderThan at done ⊢
  split at done
  · cases done
  · cases done
    assumption

theorem Reached.lettered (reached : Reached platform db) :
    ∀ id, Lettered (db.view id) := by
  induction reached with
  | empty =>
      intro id
      exact Or.inl rfl
  | published before lawful induction =>
      intro id
      exact Lettered.step (Lawful.viewStep lawful id) (induction id)
  | @cleaned db afterFirst afterSecond afterThird first second third
      before cutoff faults firstly secondly thirdly locked induction =>
      have settled : ∀ id, Lettered (afterThird.view id) :=
        publishes_lettered thirdly
          (publishes_lettered secondly (publishes_lettered firstly induction))
      cases ended :
          (deleteOlderThan platform cutoff faults first second third
            db).1 with
      | error error =>
          rw [deleteOlderThan_failed firstly secondly thirdly ended]
          exact settled
      | ok count =>
          have overlay :=
            cleanup_overlay induction firstly secondly thirdly locked
              (deleteOlderThan_committed ended)
          intro id
          cases dropped : oldTask cutoff afterSecond id with
          | true =>
              rw [overlay.clean id dropped]
              exact Or.inl rfl
          | false =>
              have trails := overlay.kept id dropped
              rcases trails.letters with same | ⟨_, _, impossible⟩
              · have held := settled id
                rw [Lettered, ← same, ← trails.row] at held
                exact held
              · exact impossible.elim

end Reached

/-! ## Whole tasks -/

/--
A task is gone with all its logs and dead letters, or it has all that the
store has left it.
-/
structure Whole (committed after : Database) : Prop where
  gone :
    ∀ id, after.find id = none → committed.find id ≠ none →
      after.logsOf id = [] ∧ after.deadLettersOf id = []
  kept :
    ∀ id row, after.find id = some row → after.view id = committed.view id

/--
No task whose logs the second statement deletes is running when the third one
looks for it.
-/
def Unclaimed (cutoff : Time) (second third : Database) : Prop :=
  ∀ row ∈ second.tasks.rows,
    expired cutoff row = true → second.logsOf row.id ≠ [] →
      ∀ later, third.find row.id = some later → later.status ≠ .running

theorem Unclaimed.old
    {second third : Database}
    (published : (contract platform).Publishes second commits third)
    (unclaimed : Unclaimed cutoff second third)
    (old : oldTask cutoff second id = true) (logged : second.logsOf id ≠ []) :
    oldTask cutoff third id = true := by
  rw [oldTask, Option.any_eq_true] at old
  rcases old with ⟨row, found, early⟩
  have sameId := Database.find_id found
  subst id
  have member := (Database.find_eq_some_iff.mp found).1
  have keeps : third.Keeps row :=
    published.invariant (contract platform)
      (fun _ _ _ held lawful => Lawful.keeps lawful held)
      (.of_mem member)
  rcases keeps with ⟨later, stored, fixed⟩
  have waiting := unclaimed row member early logged later stored
  simp only [TaskRecord.fixed, Prod.mk.injEq] at fixed
  simp only [expired, decide_eq_true_eq] at early
  rw [oldTask, stored]
  simp [expired, fixed, early.1, waiting]

section Whole

variable
    {platform : Platform} {cutoff : Time}
    {afterFirst afterSecond afterThird after : Database}
    {second third : Commits}
    (overlay :
      Overlay (oldTask cutoff afterSecond) (fun _ => False)
        (markedLogs cutoff afterFirst) afterThird after)
    (thirdly : (contract platform).Publishes afterSecond third afterThird)

include overlay thirdly

/-- A task that is not deleted is found. -/
theorem Overlay.found
    (member : row ∈ afterSecond.tasks.rows)
    (stays : oldTask cutoff afterSecond row.id = false) :
    ∃ current, after.find row.id = some current := by
  have keeps : afterThird.Keeps row :=
    thirdly.invariant (contract platform)
      (fun _ _ _ held lawful => Lawful.keeps lawful held)
      (.of_mem member)
  rcases keeps with ⟨current, stored, _⟩
  exact ⟨current, (overlay.kept row.id stays).row.trans stored⟩

theorem Overlay.deleted
    (member : row ∈ afterSecond.tasks.rows)
    (missing : after.find row.id = none) :
    row.status ≠ .running ∧ row.createdAt < cutoff := by
  cases dropped : oldTask cutoff afterSecond row.id with
  | true =>
      rw [oldTask, Database.find_of_mem member] at dropped
      simp only [Option.any_some, expired, decide_eq_true_eq] at dropped
      exact ⟨dropped.2, dropped.1⟩
  | false =>
      rcases overlay.found thirdly member dropped with ⟨current, found⟩
      rw [found] at missing
      cases missing

theorem Overlay.unclaimed
    (whole : Whole afterThird after) :
    Unclaimed cutoff afterFirst afterSecond := by
  intro row member early logged later stored running
  have stays : oldTask cutoff afterSecond row.id = false := by
    rw [oldTask, stored]
    simp [expired, running]
  have old : oldTask cutoff afterFirst row.id = true := by
    rw [oldTask, Database.find_of_mem member]
    exact early
  have sameId := Database.find_id stored
  have laterMember := (Database.find_eq_some_iff.mp stored).1
  rcases overlay.found thirdly laterMember (sameId ▸ stays) with
    ⟨current, found⟩
  rw [sameId] at found
  have logs := (overlay.kept row.id stays).logs
  rw [← whole.kept row.id current found, markedLogs, if_pos old,
    List.self_eq_append_left] at logs
  exact logged logs

omit thirdly in
theorem Overlay.whole
    (secondly : (contract platform).Publishes afterFirst second afterSecond)
    (unclaimed : Unclaimed cutoff afterFirst afterSecond) :
    Whole afterThird after := by
  constructor
  · intro id missing stored
    cases dropped : oldTask cutoff afterSecond id with
    | true =>
        have empty := overlay.clean id dropped
        exact ⟨congrArg TaskView.logs empty,
          congrArg TaskView.deadLetters empty⟩
    | false =>
        have same : after.find id = afterThird.find id :=
          (overlay.kept id dropped).row
        rw [same] at missing
        exact absurd missing stored
  · intro id row found
    cases dropped : oldTask cutoff afterSecond id with
    | true =>
        have empty := congrArg TaskView.row (overlay.clean id dropped)
        rw [Database.view_row, found] at empty
        cases empty
    | false =>
        have unmarked : markedLogs cutoff afterFirst id = [] := by
          rw [markedLogs]
          split_ifs with old
          · by_contra logged
            rw [unclaimed.old secondly old logged] at dropped
            cases dropped
          · rfl
        have trails := overlay.kept id dropped
        have logs := trails.logs
        rw [unmarked, List.nil_append] at logs
        rcases trails.letters with letters | ⟨_, _, impossible⟩
        · exact TaskView.ext trails.row logs.symm letters
        · exact impossible.elim

end Whole

/--
A retention run deletes nothing if it fails.  If it commits, it deletes no
task that is running at its deletion or younger than the cutoff, and it
removes whole tasks exactly if no old task is claimed between the deletion of
its logs and the deletion of its row.
-/
theorem retention_whole_iff_unclaimed
    (platform : Platform) (cutoff : Time) (faults : Nat → Option Fault)
    (first second third : Commits)
    (db afterFirst afterSecond afterThird : Database)
    (reached : Reached platform db)
    (firstly : (contract platform).Publishes db first afterFirst)
    (secondly : (contract platform).Publishes afterFirst second afterSecond)
    (thirdly : (contract platform).Publishes afterSecond third afterThird)
    (locked :
      ∀ commit ∈ third, ∀ write ∈ commit.2,
        oldTask cutoff afterSecond write.task = false) :
    (∀ error,
      (deleteOlderThan platform cutoff faults first second third db).1 =
          .error error →
        (deleteOlderThan platform cutoff faults first second third
          db).2 = afterThird) ∧
      ∀ count,
        (deleteOlderThan platform cutoff faults first second third
            db).1 = .ok count →
          (∀ row ∈ afterSecond.tasks.rows,
            (deleteOlderThan platform cutoff faults first second third
                db).2.find row.id = none →
              row.status ≠ .running ∧ row.createdAt < cutoff) ∧
            (Whole afterThird
                (deleteOlderThan platform cutoff faults first second
                  third db).2 ↔
              Unclaimed cutoff afterFirst afterSecond) := by
  refine ⟨fun error => deleteOlderThan_failed firstly secondly thirdly, ?_⟩
  intro count done
  have overlay :=
    cleanup_overlay reached.lettered firstly secondly thirdly locked
      (deleteOlderThan_committed done)
  generalize
    (deleteOlderThan platform cutoff faults first second third db).2 =
      after at overlay
  exact ⟨fun row member => overlay.deleted thirdly member,
    overlay.unclaimed thirdly, overlay.whole secondly⟩

/-! ## A claim between the statements -/

/-- The state after a task has failed once and waits for its next attempt. -/
def waitingState : Database :=
  executeAll echoPlatform .empty
    [⟨.create (emailTask []), calm 7 0⟩,
      ⟨.claim (ascii "w"), calm 0 0⟩,
      ⟨.markPending { id := 7 } (ascii "w") (ascii "e") 0, calm 0 0⟩]

theorem waitingState_reached : Reached echoPlatform waitingState :=
  Reached.empty.executeAll _

theorem waitingState_found : (waitingState.find 7).isSome = true := by
  decide +kernel

/-- The row of the waiting task. -/
@[irreducible]
def waitingRow : TaskRecord :=
  (waitingState.find 7).get waitingState_found

theorem find_waitingRow :
    waitingState.find waitingRow.id = some waitingRow := by
  have found : waitingState.find 7 = some waitingRow := by
    rw [waitingRow, Option.some_get]
  rw [Database.find_id found, found]

/-- The move of a claim. -/
def claimMove (workerID : Text) (now : Time) (row : TaskRecord)
    (valid :
      isText
          (claimLogMessage workerID.bytes
            (scanClaimed ((Change.claim workerID).set now row))) =
        true) : Move where
  row
  change := .claim workerID
  now
  logId := 0
  message := ⟨_, valid⟩

theorem claimMove_lawful
    {workerID : Text} {now : Time} {db : Database}
    (valid :
      isText
          (claimLogMessage workerID.bytes
            (scanClaimed ((Change.claim workerID).set now row))) =
        true)
    (encoded : (Update.claim workerID.bytes).encode = .ok (.claim workerID))
    (found : db.find row.id = some row) (due : row.due now = true) :
    Lawful platform db (.claim workerID.bytes)
      (writesOf [claimMove workerID now row valid]) :=
  .move _ _ ⟨found, due⟩ ⟨encoded, rfl⟩

/-- The name of the worker. -/
def workerW : Text := ⟨ascii "w", by decide +kernel⟩

theorem reclaim_message :
    isText
        (claimLogMessage workerW.bytes
          (scanClaimed ((Change.claim workerW).set 20 waitingRow))) =
      true := by
  decide +kernel

/-- The claim of the waiting task. -/
def reclaim : Commits :=
  [(.claim workerW.bytes,
    writesOf [claimMove workerW 20 waitingRow reclaim_message])]

/-- The state after the claim. -/
def reclaimedState : Database :=
  replay echoPlatform reclaim waitingState

theorem reclaim_publishes :
    (contract echoPlatform).Publishes waitingState reclaim
      reclaimedState := by
  have due : waitingRow.due 20 = true := by decide +kernel
  have encoded :
      (Update.claim workerW.bytes).encode = .ok (.claim workerW) := by
    decide +kernel
  have published :=
    Contract.Publishes.single (contract echoPlatform)
      (claimMove_lawful reclaim_message encoded find_waitingRow due)
  rw [publishes_replay published] at published
  exact published

/--
The task is claimed after its logs were deleted, so it survives without the
logs of its first attempt.
-/
theorem claimedBetween_loses_logs :
    Reached echoPlatform waitingState ∧
      (contract echoPlatform).Publishes waitingState reclaim reclaimedState ∧
      (deleteOlderThan echoPlatform 10 (fun _ => none) [] reclaim []
        waitingState).1 = .ok 0 ∧
      ¬ Whole reclaimedState
        (deleteOlderThan echoPlatform 10 (fun _ => none) [] reclaim []
          waitingState).2 := by
  refine ⟨waitingState_reached, reclaim_publishes, ?_, ?_⟩
  · decide +kernel
  · intro whole
    have found :
        ((deleteOlderThan echoPlatform 10 (fun _ => none) [] reclaim []
          waitingState).2.find 7).isSome = true := by
      decide +kernel
    have logs :
        ((deleteOlderThan echoPlatform 10 (fun _ => none) [] reclaim []
            waitingState).2.logsOf 7).length ≠
          (reclaimedState.logsOf 7).length := by
      decide +kernel
    rcases Option.isSome_iff_exists.mp found with ⟨row, stored⟩
    have same := congrArg TaskView.logs (whole.kept 7 row stored)
    rw [Database.view_logs, Database.view_logs] at same
    rw [same] at logs
    exact logs rfl

theorem quiet_retention_whole :
    (deleteOlderThan echoPlatform 10 (fun _ => none) [] [] []
        waitingState).1 = .ok 1 ∧
      Whole waitingState
        (deleteOlderThan echoPlatform 10 (fun _ => none) [] [] []
          waitingState).2 := by
  have done :
      (deleteOlderThan echoPlatform 10 (fun _ => none) [] [] []
        waitingState).1 = .ok 1 := by
    decide +kernel
  have idle :
      (contract echoPlatform).Publishes waitingState [] waitingState :=
    .nil waitingState
  have whole :=
    (retention_whole_iff_unclaimed echoPlatform 10 (fun _ => none) [] []
      [] waitingState waitingState waitingState waitingState
      waitingState_reached idle idle idle (by simp)).2 1 done
  refine ⟨done, whole.2.mpr ?_⟩
  intro row member early _ later stored
  rw [Database.find_of_mem member] at stored
  cases stored
  simp only [expired, decide_eq_true_eq] at early
  exact early.2

end Dhara.Playground
