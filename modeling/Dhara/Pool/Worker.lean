import Dhara.Store.Runs

/-!
# A worker

One worker goroutine polls the store, executes the task it claims and persists
the outcome.  A second goroutine sends heartbeats while it does so.  Every
call of the store is a session that the worker starts and whose result it
waits for, so the process can stop between any two of its steps.

What the handler does, how long it takes and when it is retried come from
outside: they are parameters of the action that ends the handler.
-/

namespace Dhara.Pool

open Dhara.Store Dhara.Transaction

/-! ## The outcome of a handler -/

/--
How a handler ends: it returns an error or nil, or it panics.  The value of
the panic is given as `%v` renders it.
-/
inductive Handled where
  | returned (error : Option GoString)
  | panicked (value : GoString)
deriving DecidableEq

/-- `runTaskHandler`: a panic is an ordinary error. -/
def runTaskHandler : Handled → Option GoString
  | .returned error => error
  | .panicked value => some (ascii "handler panicked: " ++ value)

section Writes

variable (workerID : GoString) (task : TaskRow)

/-- The write of `handleFailure`. -/
def handleFailure (error : GoString) (nextRunAt : Time) : Call :=
  if task.maxRetries ≤ task.attempts then
    .markDead task.id workerID error (ascii "all attempts exhausted")
  else
    .markPending task workerID error nextRunAt

/-- The write of `execute` when no handler is registered. -/
def markUnregistered : Call :=
  .markDead task.id workerID
    (ascii "no handler registered for type: " ++ task.type)
    (ascii "no handler registered")

/-- The write of `execute` when the handler has ended. -/
def markHandled (handled : Handled) (nextRunAt : Time)
    (taskDurationMS : Int) : Call :=
  match runTaskHandler handled with
  | some error => handleFailure workerID task error nextRunAt
  | none => .markCompleted task.id workerID taskDurationMS

end Writes

/-! ## The goroutines -/

/-- The heartbeat goroutine of an execution. -/
inductive Heartbeat where
  | waiting
  | sent (session : Nat)
  | stopped
deriving DecidableEq

/--
Where a worker is.  From `Claim` on it remembers the session of its claim, and
from the result on the task it was given.
-/
inductive Phase where
  | polling
  | claiming (claim : Nat)
  | running (claim : Nat) (task : TaskRow) (heartbeat : Heartbeat)
  | persisting (claim : Nat) (task : TaskRow) (heartbeat : Heartbeat)
      (session : Nat)
  | gone
deriving DecidableEq

/-- `Worker`, with the process it runs in and where it is. -/
structure Worker where
  workerID : GoString
  registry : GoString → Bool
  process : Nat
  phase : Phase := .polling

/-- The steps of a worker. -/
inductive Action where
  | claim
  | receive
  | tick
  | beaten
  | finish (handled : Handled) (nextRunAt : Time) (taskDurationMS : Int)
  | settle
deriving DecidableEq

/-- What happened to the execution of a claim. -/
inductive Event where
  | invoked (claim : Nat) (task : TaskRow)
  | handled (claim : Nat) (task : TaskRow) (outcome : Handled)
  | persisted (claim : Nat) (task : TaskRow) (session : Nat)
deriving DecidableEq

/-- The effect of a step: the new phase, a call of the store, events. -/
structure Reaction where
  phase : Phase
  call : Option Call := none
  events : List Event := []

/--
The result of a call once it has returned: its response, or none if its
connection was lost.
-/
def callResult (store : StoreConfig) (index : Nat) :
    Option (Option Response) :=
  match store.sessions[index]? with
  | none => none
  | some session =>
      match session.program with
      | none => some none
      | some (.done response) =>
          if session.tx.isNone then some (some response) else none
      | some _ => none

/-- The heartbeat goroutine after the result of a heartbeat. -/
def Heartbeat.afterResult : Option Response → Heartbeat
  | some (.unit (.error .taskOwnershipLost)) => .stopped
  | _ => .waiting

/-- A step of the heartbeat goroutine, with the heartbeat it sends. -/
def Heartbeat.act (store : StoreConfig) (beat : Call) :
    Action → Heartbeat → Option (Heartbeat × Option Call)
  | .tick, .waiting => some (.sent store.sessions.length, some beat)
  | .beaten, .sent session =>
      (callResult store session).map fun result =>
        (.afterResult result, none)
  | _, _ => none

/-- `execute`, up to the first call of the store or of the handler. -/
def Worker.execute (worker : Worker) (claim fresh : Nat)
    (task : TaskRow) : Reaction :=
  if worker.registry task.type then
    { phase := .running claim task .waiting
      events := [.invoked claim task] }
  else
    { phase := .persisting claim task .stopped fresh
      call := some (markUnregistered worker.workerID task)
      events := [.persisted claim task fresh] }

/-- A step of the worker. -/
def Worker.act (worker : Worker) (store : StoreConfig)
    (action : Action) : Option Reaction :=
  let fresh := store.sessions.length
  match worker.phase, action with
  | .polling, .claim =>
      some
        { phase := .claiming fresh
          call := some (.claim worker.workerID) }
  | .claiming claim, .receive =>
      (callResult store claim).map fun
        | some (.task (.ok task)) => worker.execute claim fresh task
        | _ => { phase := .polling }
  | .running claim task heartbeat,
      .finish handled nextRunAt taskDurationMS =>
      some
        { phase := .persisting claim task heartbeat fresh
          call :=
            some
              (markHandled worker.workerID task handled nextRunAt
                taskDurationMS)
          events :=
            [.handled claim task handled, .persisted claim task fresh] }
  | .persisting _ _ _ session, .settle =>
      (callResult store session).map fun _ => { phase := .polling }
  | .running claim task heartbeat, action =>
      (heartbeat.act store (.heartbeat task.id worker.workerID)
        action).map fun (heartbeat, call) =>
          { phase := .running claim task heartbeat, call }
  | .persisting claim task heartbeat session, action =>
      (heartbeat.act store (.heartbeat task.id worker.workerID)
        action).map fun (heartbeat, call) =>
          { phase := .persisting claim task heartbeat session, call }
  | _, _ => none

/-! ## What a step can do -/

/-- The claim that the worker waits for or executes. -/
def Phase.claim : Phase → Option Nat
  | .claiming claim => some claim
  | .running claim _ _ => some claim
  | .persisting claim _ _ _ => some claim
  | _ => none

/-- The steps of a worker and their effects. -/
inductive Worker.Acts (worker : Worker) (store : StoreConfig) :
    Reaction → Prop where
  | claim (phase : worker.phase = .polling) :
      Acts worker store
        { phase := .claiming store.sessions.length
          call := some (.claim worker.workerID) }
  | refused (claim : Nat) (result : Option Response)
      (phase : worker.phase = .claiming claim)
      (returned : callResult store claim = some result) :
      Acts worker store { phase := .polling }
  | execute (claim : Nat) (task : TaskRow)
      (phase : worker.phase = .claiming claim)
      (returned : callResult store claim = some (some (.task (.ok task)))) :
      Acts worker store (worker.execute claim store.sessions.length task)
  | finish (claim : Nat) (task : TaskRow) (heartbeat : Heartbeat)
      (handled : Handled) (nextRunAt : Time) (taskDurationMS : Int)
      (phase : worker.phase = .running claim task heartbeat) :
      Acts worker store
        { phase :=
            .persisting claim task heartbeat store.sessions.length
          call :=
            some
              (markHandled worker.workerID task handled nextRunAt
                taskDurationMS)
          events :=
            [.handled claim task handled,
              .persisted claim task store.sessions.length] }
  | settle (claim : Nat) (task : TaskRow) (heartbeat : Heartbeat)
      (session : Nat) (result : Option Response)
      (phase : worker.phase = .persisting claim task heartbeat session)
      (returned : callResult store session = some result) :
      Acts worker store { phase := .polling }
  | beatRunning (claim : Nat) (task : TaskRow)
      (heartbeat later : Heartbeat) (call : Option Call)
      (phase : worker.phase = .running claim task heartbeat)
      (beat :
        ∀ sent, call = some sent →
          sent = .heartbeat task.id worker.workerID) :
      Acts worker store { phase := .running claim task later, call }
  | beatPersisting (claim : Nat) (task : TaskRow)
      (heartbeat later : Heartbeat) (session : Nat)
      (call : Option Call)
      (phase : worker.phase = .persisting claim task heartbeat session)
      (beat :
        ∀ sent, call = some sent →
          sent = .heartbeat task.id worker.workerID) :
      Acts worker store
        { phase := .persisting claim task later session, call }

theorem Heartbeat.act_call
    {store : StoreConfig} {beat : Call} {action : Action}
    {heartbeat later : Heartbeat} {call : Option Call}
    (acted : heartbeat.act store beat action = some (later, call)) :
    ∀ sent, call = some sent → sent = beat := by
  intro sent equal
  subst call
  cases action <;> cases heartbeat <;>
    simp_all [Heartbeat.act]

theorem Worker.act_cases
    {worker : Worker} {store : StoreConfig} {action : Action}
    {reaction : Reaction}
    (acted : worker.act store action = some reaction) :
    worker.Acts store reaction := by
  simp only [Worker.act] at acted
  split at acted
  · rename_i phase
    cases acted
    exact .claim phase
  · rename_i claim phase
    rcases Option.map_eq_some_iff.mp acted with ⟨result, returned, equal⟩
    split at equal
    · subst reaction
      exact .execute claim _ phase returned
    · subst reaction
      exact .refused claim result phase returned
  · rename_i claim task heartbeat handled nextRunAt duration phase
    cases acted
    exact .finish claim task heartbeat handled nextRunAt duration phase
  · rename_i claim task heartbeat session phase
    rcases Option.map_eq_some_iff.mp acted with ⟨result, returned, equal⟩
    subst reaction
    exact .settle claim task heartbeat session result phase returned
  · rename_i claim task heartbeat phase _
    rcases Option.map_eq_some_iff.mp acted with
      ⟨⟨later, call⟩, beat, equal⟩
    subst reaction
    exact .beatRunning claim task heartbeat later call phase
      (Heartbeat.act_call beat)
  · rename_i claim task heartbeat session phase _
    rcases Option.map_eq_some_iff.mp acted with
      ⟨⟨later, call⟩, beat, equal⟩
    subst reaction
    exact .beatPersisting claim task heartbeat later session call phase
      (Heartbeat.act_call beat)
  · cases acted

end Dhara.Pool
