import Dhara.Server.TaskHandler
import Dhara.Store.Runs
import Dhara.Transaction.Traces

/-!
# Cancellation

`Cancel` reads the task twice: in its guarded update, and, when that matches
nothing, in a lookup on a connection of its own.  Whatever happens in between,
the lookup returns what is stored at its own moment.  So the call behaves as
an atomic one unless another transaction has made the task `PENDING` by then,
and in that case it returns a `PENDING` task, which the API server reports as
an unexpected state.
-/

namespace Dhara.Server

open Dhara.Store Dhara.Transaction

variable {task : TaskRow}

/-- A step of an interleaved run of the store. -/
abbrev StoreMoment (platform : Platform) (db : Database)
    (schedule : List StoreLabel) :=
  (postgres platform).Moment (Call.program platform) { db } schedule

/--
What an atomic `Cancel` does and returns: it cancels a `PENDING` task, and
returns any other task as it is.
-/
def AtomicCancel (id : TaskId) (before after : Database)
    (task : TaskRow) : Prop :=
  (∃ row stored,
    before.find id = some row ∧ row.status = .pending ∧
      after.find id = some stored ∧ stored.status = .canceled ∧
      task = scanSummary stored) ∨
    ∃ row,
      before.find id = some row ∧ row.status ≠ .pending ∧
        after.find id = some row ∧ task = scanTask row

section Cancellation

variable (platform : Platform) (db : Database)
    (schedule : List StoreLabel) (index : Nat) (id : TaskId)

/-- The call returned what an atomic `Cancel` returns at one moment. -/
def Linearizable (task : TaskRow) : Prop :=
  ∃ config label next,
    StoreMoment platform db schedule config label next ∧
      config.InProgress index ∧
      AtomicCancel id config.db next.db task

/-- The lookup of the call was answered with the given row. -/
def LookedUp (row : TaskRecord) : Prop :=
  ∃ config answer next session rest,
    StoreMoment platform db schedule config (.advance index answer)
        next ∧
      config.sessions[index]? = some session ∧
      session.call = .cancel id ∧
      session.program = some (.query (.getById id) rest) ∧
      answer.fault = none ∧ config.db.find id = some row

/-- The task was `PENDING` when the lookup of the call was answered. -/
def PendingAtLookup : Prop :=
  ∃ row, LookedUp platform db schedule index id row ∧ row.status = .pending

variable {platform db schedule index id}

theorem AtomicCancel.status
    {before after : Database} (atomic : AtomicCancel id before after task) :
    ∃ status, task.status = some status ∧ status ≠ .pending := by
  rcases atomic with
    ⟨row, stored, _, _, _, canceled, equal⟩ | ⟨row, _, busy, _, equal⟩
  · subst task
    exact ⟨stored.status, rfl, by simp [canceled]⟩
  · subst task
    exact ⟨row.status, rfl, busy⟩

/-- The server only reports an unexpected state for a `PENDING` task. -/
theorem handleDeleteTask_expected
    {status : TaskStatus} (known : task.status = some status)
    (busy : status ≠ .pending) :
    handleDeleteTask (some id) (fun _ => cancelTask (.ok task)) ≠
      ⟨500, .error "unexpected task state"⟩ := by
  have shown : (newTask task).status = some status := known
  simp only [handleDeleteTask, cancelTask, shown]
  cases status with
  | pending => exact (busy rfl).elim
  | _ => simp

/-! ## The program of the call -/

/-- What the lookups of the call have seen. -/
def Saw (id : TaskId) (Looked : TaskRecord → Prop) :
    (stmt : Stmt) → Reply stmt → Prop
  | .getById wanted, reply =>
      wanted = id → ∀ row, reply = some row → Looked row
  | _, _ => True

/-- What holds wherever the call is. -/
def CancelNode (Looked : TaskRecord → Prop) (stage : Stage) :
    StoreProgram Response → Prop
  | .done (.task (.ok task)) =>
      stage = .published ∨ ∃ row, Looked row ∧ task = scanTask row
  | .query (.getById _) rest =>
      ∀ row, rest (.ok (some row)) = .done (.task (.ok (scanTask row)))
  | _ => True

theorem cancel_along (Looked : TaskRecord → Prop) :
    Program.Along (postgres platform) (Saw id Looked)
      (CancelNode Looked) .clean
      (Call.program platform (.cancel id)) := by
  refine ⟨True.intro, fun _ => True.intro, True.intro,
    fun _ => True.intro, ?_⟩
  intro clock others oracle current effect evaluated
  change evalUpdate clock id .cancel current = .ok effect at evaluated
  rcases evalUpdate_cases evaluated with
    ⟨change, _, ⟨_, equal⟩ | ⟨row, _, _, equal⟩⟩
  · subst effect
    refine ⟨fun _ => rfl, fun _ => True.intro, ?_⟩
    intro _ _ _ present looked evaluated seen
    cases evaluated
    cases stored : present.find id with
    | none => exact True.intro
    | some row => exact Or.inr ⟨row, seen rfl row stored, rfl⟩
  · subst effect
    refine ⟨True.intro, fun _ => True.intro, ?_⟩
    intro _ _ _ _ _ _
    refine ⟨True.intro, fun _ => True.intro, True.intro, ?_⟩
    exact Or.inl rfl

/-! ## The moments of the call -/

section Runs

variable {config final : StoreConfig} {session : StoreSession}
  {next : StoreConfig}

theorem moment_ok
    {label : StoreLabel}
    (moment : StoreMoment platform db schedule config label next) :
    (contract platform).ConfigOk db config := by
  rcases moment.reached with ⟨earlier, _, _, reached⟩
  exact interleave_ok reached

variable (platform db schedule index id) in
/-- Wherever the call is in the schedule, its program is as expected. -/
def CancelOk (config : StoreConfig) : Prop :=
  ∀ session, config.sessions[index]? = some session →
    session.call = .cancel id →
      Session.Along (postgres platform)
        (Saw id (LookedUp platform db schedule index id))
        (CancelNode (LookedUp platform db schedule index id)) session

theorem CancelOk.step
    {label : StoreLabel}
    (moment : StoreMoment platform db schedule config label next)
    (held : CancelOk platform db schedule index id config) :
    CancelOk platform db schedule index id next := by
  apply Engine.Moment.along (cancel_along _) _ moment held
  intro config answer next session stmt rest effect moment found
    called program quiet evaluated
  cases stmt with
  | getById wanted =>
      intro same row equal
      subst wanted
      cases evaluated
      exact ⟨config, answer, next, session, rest, moment, found,
        called, program, quiet, equal⟩
  | _ => exact True.intro

theorem CancelOk.start :
    CancelOk platform db schedule index id { db } := by
  intro session found
  cases found

/-- The session of a lookup once it is answered. -/
theorem lookup_answered
    {answer : Answer Fault Resource Oracle Time}
    {rest : Except Fault (Option TaskRecord) → StoreProgram Response}
    (stepped :
      (postgres platform).step (Call.program platform) config
        (.advance index answer) = some next)
    (found : config.sessions[index]? = some session)
    (program : session.program = some (.query (.getById id) rest))
    (quiet : answer.fault = none) :
    next.db = config.db ∧
      ∃ after,
        next.sessions[index]? = some after ∧
          after.call = session.call ∧
          after.program = some (rest (.ok (config.db.find id))) := by
  simp only [Engine.step, found, Option.map_eq_some_iff] at stepped
  rcases stepped with ⟨moved, advanced, equal⟩
  subst next
  simp only [Engine.advance, program, quiet] at advanced
  split_ifs at advanced
  cases advanced
  exact ⟨rfl, _, getElem?_set_some found, rfl, rfl⟩

/-- The result of the call is the row its lookup was answered with. -/
theorem LookedUp.returned
    {row : TaskRecord}
    (looked : LookedUp platform db schedule index id row)
    (followed : interleave platform db schedule = some final)
    (found : final.sessions[index]? = some session) :
    session.program = some (.done (.task (.ok (scanTask row)))) := by
  rcases looked with
    ⟨config, answer, next, asking, rest, moment, located, called,
      program, quiet, stored⟩
  have ok : CancelOk platform db schedule index id config :=
    moment.trace (fun _ _ _ earlier held => held.step earlier) .start
  rcases (ok asking located called).alive _ program with ⟨stage, _, along⟩
  have answered : rest (.ok (some row)) = _ := along.here row
  rcases lookup_answered moment.stepped located program quiet with
    ⟨_, after, stays, sameCall, resumed⟩
  rw [stored, answered] at resumed
  rcases moment.rest followed with ⟨later, remaining⟩
  rcases Engine.follow_done ⟨after, stays, sameCall, resumed⟩
      remaining with
    ⟨last, ended, _, finished⟩
  rw [found] at ended
  cases ended
  exact finished

/-- The moment at which a call has committed a move of the task. -/
theorem committed_move
    {call : Call} {move : Move}
    (followed : interleave platform db schedule = some final)
    (target : move.row.id = id)
    (member : (⟨index, call, writesOf [move]⟩ : StoreCommit) ∈ final.history)
    (notBeat : ∀ taskID workerID, call ≠ .heartbeat taskID workerID) :
    ∃ config label next,
      StoreMoment platform db schedule config label next ∧
        config.InProgress index ∧
        ∃ made : Move,
          config.db.find id = some made.row ∧
            next.db.find id = some made.after ∧
            made.after = move.after ∧
            made.change.Enabled made.now made.row ∧
            call.Performs made := by
  have fresh : ({ db } : StoreConfig).history = [] := rfl
  rcases Engine.commit_moment fresh followed member with
    ⟨config, label, next, moment, grown, running⟩
  refine ⟨config, label, next, moment, running, ?_⟩
  rcases (moment_ok moment).step_cases moment.stepped with
    ⟨_, silent⟩ | ⟨commit, lawful, applied, recorded, _⟩
  · rw [silent] at grown
    simp at grown
  · rw [grown, List.append_cancel_left_eq] at recorded
    cases recorded
    have step := Lawful.viewStep lawful id
    have wrote : written move.row.id (writesOf [move]) = some move.after :=
      written_writesOf (by simp) (by simp)
    rw [target] at wrote
    simp only [wrote] at step
    rw [applied]
    exact step.of_written notBeat

/-- A committed cancellation is atomic at the moment of its commit. -/
theorem committed_linearizable
    (followed : interleave platform db schedule = some final)
    {move : Move} (performs : (Call.cancel id).Performs move)
    (member :
      (⟨index, .cancel id, writesOf [move]⟩ : StoreCommit) ∈ final.history) :
    Linearizable platform db schedule index id (scanSummary move.after) := by
  rcases committed_move followed performs.1 member nofun with
    ⟨config, label, next, moment, running, made, before, after, same,
      enabled, ⟨_, changed, _⟩⟩
  have pending : made.row.status = .pending := by
    rw [changed] at enabled
    exact enabled
  have canceled : made.after.status = .canceled := by
    rw [Move.after, changed]
    rfl
  exact ⟨config, label, next, moment, running, Or.inl
    ⟨made.row, made.after, before, pending, after, canceled, by rw [same]⟩⟩

theorem linearizable_of_settled
    (followed : interleave platform db schedule = some final)
    (found : final.sessions[index]? = some session)
    (called : session.call = .cancel id)
    (returned : session.program = some (.done (.task (.ok task))))
    (settled : ¬ PendingAtLookup platform db schedule index id) :
    Linearizable platform db schedule index id task := by
  have ok : CancelOk platform db schedule index id final :=
    Engine.follow_trace (fun _ _ _ earlier held => held.step earlier)
      .start (List.append_nil schedule).symm followed
  rcases (ok session found called).alive _ returned with
    ⟨stage, fits, along⟩
  have configOk := interleave_ok followed
  rcases along.here with published | ⟨row, looked, equal⟩
  · rw [published] at fits
    have promised := configOk.ensures found returned
    have recorded := configOk.history_of found
    rw [called] at promised recorded
    rcases promised with
      ⟨move, committed, _, performs, reported⟩ | ⟨silent, _⟩
    · cases reported
      rw [committed] at recorded
      apply committed_linearizable followed performs
      apply List.mem_of_mem_filter
      rw [recorded]
      exact List.mem_singleton.mpr rfl
    · exact (fits silent).elim
  · subst task
    have busy : row.status ≠ .pending :=
      fun pending => settled ⟨row, looked, pending⟩
    rcases looked with
      ⟨config, answer, next, asking, rest, moment, located, _,
        program, quiet, stored⟩
    have unchanged := (lookup_answered moment.stepped located program quiet).1
    refine ⟨config, _, next, moment, ⟨asking, _, located, program, ?_⟩,
      Or.inr ⟨row, stored, busy, ?_, rfl⟩⟩
    · intro result equal
      cases equal
    · rw [unchanged]
      exact stored

/--
A call that returns a task is linearizable, returns no `PENDING` task and
keeps the server out of its unexpected state, if and only if the task was not
`PENDING` when the lookup of the call was answered.
-/
theorem cancel_linearizable_iff
    {task : TaskRow}
    (followed : interleave platform db schedule = some final)
    (found : final.sessions[index]? = some session)
    (called : session.call = .cancel id)
    (returned : session.program = some (.done (.task (.ok task)))) :
    (Linearizable platform db schedule index id task ∧
        (∀ shown, cancelTask (.ok task) = .ok shown →
          shown.status ≠ some .pending) ∧
        handleDeleteTask (some id) (fun _ => cancelTask (.ok task)) ≠
          ⟨500, .error "unexpected task state"⟩) ↔
      ¬ PendingAtLookup platform db schedule index id := by
  constructor
  · rintro ⟨⟨_, _, _, _, _, atomic⟩, _, _⟩ ⟨row, looked, pending⟩
    have finished := looked.returned followed found
    rw [returned] at finished
    cases finished
    rcases atomic.status with ⟨status, known, busy⟩
    cases known
    exact busy pending
  · intro settled
    have linearizable :=
      linearizable_of_settled followed found called returned settled
    rcases linearizable with
      ⟨config, label, next, moment, running, atomic⟩
    rcases atomic.status with ⟨status, known, busy⟩
    refine ⟨⟨config, label, next, moment, running, atomic⟩, ?_,
      handleDeleteTask_expected known busy⟩
    intro shown equal
    cases equal
    change task.status ≠ some .pending
    rw [known]
    simpa using busy

end Runs

end Cancellation

/-! ## Two runs -/

/-- The task that a call of `Cancel` was made for and has returned. -/
def cancelOutcome (index : Nat) (config : StoreConfig) :
    Option (TaskId × TaskRow) :=
  match config.sessions[index]? with
  | none => none
  | some session =>
      match session.call, session.program with
      | .cancel id, some (.done (.task (.ok task))) => some (id, task)
      | _, _ => none

theorem cancelOutcome_cases
    {index : Nat} {config : StoreConfig} {id : TaskId}
    (outcome : cancelOutcome index config = some (id, task)) :
    ∃ session,
      config.sessions[index]? = some session ∧
        session.call = .cancel id ∧
        session.program = some (.done (.task (.ok task))) := by
  unfold cancelOutcome at outcome
  split at outcome
  · cases outcome
  · rename_i session found
    split at outcome
    · rename_i called returned
      cases outcome
      exact ⟨session, found, called, returned⟩
    · cases outcome

/-- The round trips of sessions in the given order. -/
def trips (order : List Nat) : List StoreLabel :=
  order.map fun index => .advance index (calm 7 0 0)

/-- A task is enqueued and canceled. -/
def canceledSchedule : List StoreLabel :=
  [.spawn (.create (emailTask [])), .spawn (.cancel 7)] ++
    trips [0, 0, 0, 0, 1, 1, 1, 1, 1]

theorem canceledSchedule_linearizable :
    ∃ task,
      task.status = some .canceled ∧
        Linearizable echoPlatform .empty canceledSchedule 1 7 task := by
  have outcome :
      ((interleave echoPlatform .empty canceledSchedule).bind
        (cancelOutcome 1)).map (fun result =>
          (result.1, result.2.status)) = some (7, some .canceled) := by
    decide +kernel
  simp only [Option.map_eq_some_iff, Option.bind_eq_some_iff,
    Prod.exists, Prod.mk.injEq] at outcome
  rcases outcome with
    ⟨id, task, ⟨config, followed, outcome⟩, same, canceled⟩
  subst id
  rcases cancelOutcome_cases outcome with
    ⟨session, found, called, returned⟩
  have equivalence := cancel_linearizable_iff followed found called returned
  refine ⟨task, canceled, (equivalence.mpr ?_).1⟩
  rintro ⟨row, looked, pending⟩
  have finished := looked.returned followed found
  rw [returned] at finished
  cases finished
  change some row.status = some .canceled at canceled
  rw [pending] at canceled
  cases canceled

/--
A worker returns the task to `PENDING` between the update of `Cancel`, which
finds it `RUNNING`, and the lookup.
-/
def requeuedSchedule : List StoreLabel :=
  [.spawn (.create (emailTask [])), .spawn (.claim (ascii "w")),
    .spawn (.cancel 7),
    .spawn (.markPending { id := 7 } (ascii "w") (ascii "e") 0)] ++
    trips [0, 0, 0, 0, 1, 1, 1, 1, 1, 2, 2, 3, 3, 3, 3, 2]

theorem requeuedSchedule_returns_pending :
    ∃ config session task,
      interleave echoPlatform .empty requeuedSchedule = some config ∧
        config.sessions[2]? = some session ∧
        session.call = .cancel 7 ∧
        session.program = some (.done (.task (.ok task))) ∧
        task.status = some .pending ∧
        ¬ Linearizable echoPlatform .empty requeuedSchedule 2 7 task ∧
        handleDeleteTask (some 7) (fun _ => cancelTask (.ok task)) =
          ⟨500, .error "unexpected task state"⟩ := by
  have outcome :
      ((interleave echoPlatform .empty requeuedSchedule).bind
        (cancelOutcome 2)).map (fun result =>
          (result.1, result.2.status)) = some (7, some .pending) := by
    decide +kernel
  simp only [Option.map_eq_some_iff, Option.bind_eq_some_iff,
    Prod.exists, Prod.mk.injEq] at outcome
  rcases outcome with
    ⟨id, task, ⟨config, followed, outcome⟩, same, pending⟩
  subst id
  rcases cancelOutcome_cases outcome with
    ⟨session, found, called, returned⟩
  refine ⟨config, session, task, followed, found, called, returned,
    pending, ?_, ?_⟩
  · rintro ⟨_, _, _, _, _, atomic⟩
    rcases atomic.status with ⟨status, known, busy⟩
    rw [known] at pending
    cases pending
    exact busy rfl
  · have shown : (newTask task).status = some .pending := pending
    simp only [handleDeleteTask, cancelTask, shown]

end Dhara.Server
