import Dhara.Machine
import Dhara.Playground.Config
import Dhara.Playground.Queue
import Dhara.Pool.System
import Dhara.Store.Listing

/-!
# The crash manager

The crash demo enqueues a task, kills the process of the isolated worker once
the task is running, waits until the reaper has requeued the task, restarts
the worker and waits until the task is completed.

`Start`, `Close` and the goroutine of each demo share the status under one
mutex and the handle of the child process under another.  A critical section
is one step.  Everything between two of them, the exit of a child at any time
included, is a step of its own, and the store of the crash schema goes on in
between.  So does retention, which deletes old tasks of the crash schema.
What the operating system, the clock and the server answer is the input of a
step.
-/

namespace Dhara.Playground.Crash

open Dhara.Store Dhara.Transaction

/-! ## The status -/

/-- The phase of a demo. -/
inductive DemoPhase where
  | idle
  | starting
  | enqueuing
  | claim
  | kill
  | reaper
  | restart
  | completion
  | completed
  | failed
deriving DecidableEq

def DemoPhase.text : DemoPhase → GoString
  | .idle => ascii "idle"
  | .starting => ascii "starting"
  | .enqueuing => ascii "enqueuing task"
  | .claim => ascii "waiting for worker claim"
  | .kill => ascii "killing isolated worker process"
  | .reaper => ascii "waiting for stale heartbeat reaper"
  | .restart => ascii "restarting isolated worker"
  | .completion => ascii "waiting for recovered task to complete"
  | .completed => ascii "completed"
  | .failed => ascii "failed"

/-- The demo is over. -/
def DemoPhase.final : DemoPhase → Bool
  | .completed | .failed => true
  | _ => false

/-- `CrashStatus`, as the manager keeps it. -/
structure CrashStatus where
  enabled : Bool
  phase : DemoPhase := .idle
  session : GoString := []
  taskID : Option TaskId := none
  startedAt : Option Time := none
  updatedAt : Option Time := none
  finishedAt : Option Time := none
  error : GoString := []
deriving DecidableEq

/-- `setPhase`. -/
def CrashStatus.setPhase (status : CrashStatus) (phase : DemoPhase)
    (now : Time) : CrashStatus :=
  { status with phase, updatedAt := some now, error := [] }

/-- `fail`. -/
def CrashStatus.fail (status : CrashStatus) (message : GoString)
    (now : Time) : CrashStatus :=
  { status with
    phase := .failed
    error := message
    updatedAt := some now
    finishedAt := some now }

/-- The end of `runDemo`. -/
def CrashStatus.complete (status : CrashStatus) (now : Time) :
    CrashStatus :=
  { status with
    phase := .completed
    updatedAt := some now
    finishedAt := some now }

/-! ## The threads -/

/-- A child process, with what its goroutine has done. -/
structure ProcHandle where
  /-- The process has not exited. -/
  running : Bool := true
  /-- `Kill` has succeeded. -/
  signaled : Bool := false
  /-- `Kill` has failed. -/
  spared : Bool := false
  /-- The channel is closed. -/
  done : Bool := false
  /-- The goroutine has ended. -/
  reaped : Bool := false
deriving DecidableEq

/-- Where a call of `killWorker` is. -/
inductive Kill where
  | taking
  | killing (handle : Nat)
  | awaitingExit (handle : Nat)
  | ended (error : Option GoString)
deriving DecidableEq

/-- A call of `waitFor`. -/
inductive Wait where
  | claim
  | reaper
  | completion
deriving DecidableEq

/-- The parts of `runDemo` that begin with `setPhase`. -/
inductive Leg where
  | enqueue
  | wait (awaited : Wait)
  | kill
  | restart
deriving DecidableEq

/-- Where `runDemo` is. -/
inductive Point where
  | spawning
  | entering (leg : Leg)
  | inserting
  | awaitingInsert (call : Nat)
  | recording
  | polling (wait : Wait)
  | pausing (wait : Wait)
  | killing (kill : Kill)
  | respawning
  | completing
  | failing (message : GoString)
  /-- The deferred function, before `running` is reset. -/
  | releasing
  /-- Before `m.ctx.Err()`. -/
  | inspecting
  /-- Before `workerRunning`. -/
  | checking
  /-- Before the `spawnWorker` of the deferred function. -/
  | restoring
  | returned
deriving DecidableEq

/-- The goroutine of a demo, with its `session` and `taskID`. -/
structure Demo where
  session : GoString
  task : Option TaskId := none
  point : Point := .spawning
deriving DecidableEq

/-- The demo has not reset `running`. -/
def Demo.active (demo : Demo) : Bool :=
  match demo.point with
  | .inspecting | .checking | .restoring | .returned => false
  | _ => true

def Leg.phase : Leg → DemoPhase
  | .enqueue => .enqueuing
  | .wait .claim => .claim
  | .wait .reaper => .reaper
  | .wait .completion => .completion
  | .kill => .kill
  | .restart => .restart

/-- What follows `setPhase`. -/
def Leg.body : Leg → Point
  | .enqueue => .inserting
  | .wait awaited => .polling awaited
  | .kill => .killing .taking
  | .restart => .respawning

/-- The `match` argument of `waitFor`. -/
def Wait.matches : Wait → TaskStatus → Bool
  | .claim, status =>
      status = .running ∨ status = .completed ∨ status = .dead
  | .reaper, status => status = .pending ∨ status = .dead
  | .completion, status => status = .completed ∨ status = .dead

/-- What the demo does with the task that `waitFor` returned. -/
def Wait.next : Wait → TaskStatus → Point
  | .claim, status =>
      if status ≠ .running then
        .failing
          (ascii "task left RUNNING before the simulated crash: " ++
            statusText status)
      else .entering .kill
  | .reaper, status =>
      if status = .dead then
        .failing
          (ascii
            ("task was dead-lettered instead of requeued " ++
              "(attempt budget exhausted)"))
      else .entering .restart
  | .completion, status =>
      if status ≠ .completed then
        .failing (ascii "recovered task ended in " ++ statusText status)
      else .completing

/-- The complaint of a demo whose `waitFor` failed. -/
def Wait.complaint : Wait → GoString
  | .claim => ascii "worker did not claim the task: "
  | .reaper => ascii "reaper did not recover the task: "
  | .completion => ascii "recovered task did not finish: "

/-! ## The manager -/

/-- `CrashManager`, its goroutines, its children and the crash schema. -/
structure Manager where
  settings : Settings
  status : CrashStatus
  running : Bool := false
  proc : Option Nat := none
  handles : List ProcHandle := []
  canceled : Bool := false
  demos : List Demo := []
  closers : List Kill := []
  store : StoreConfig := { db := .empty }

/-- `NewCrashManager`. -/
def newCrashManager (settings : Settings) : Manager where
  settings := settings
  status := { enabled := settings.enableCrashDemo }

/-- `Enabled`. -/
def Manager.enabled (manager : Manager) : Bool :=
  manager.settings.enableCrashDemo

inductive StartError where
  | disabled
  | context (cause : GoString)
  | busy
deriving DecidableEq

/-- `Start`. -/
def Manager.start (manager : Manager) (context : Option GoString)
    (session : GoString) (now : Time) :
    Except StartError CrashStatus × Manager :=
  if !manager.enabled then
    (.error .disabled, manager)
  else
    match context with
    | some cause => (.error (.context cause), manager)
    | none =>
        if manager.running then
          (.error .busy, manager)
        else
          let status : CrashStatus :=
            { enabled := true
              phase := .starting
              session
              startedAt := some now
              updatedAt := some now }
          (.ok status,
            { manager with
              running := true
              status
              demos := manager.demos ++ [{ session }] })

/-- `workerRunning`. -/
def Manager.workerRunning (manager : Manager) : Bool :=
  manager.proc.isSome

/-- `spawnWorker`, with the error of `cmd.Start`. -/
def Manager.spawnWorker (manager : Manager)
    (failure : Option GoString) : Option GoString × Manager :=
  if manager.workerRunning then
    (none, manager)
  else
    match failure with
    | some cause => (some cause, manager)
    | none =>
        (none,
          { manager with
            proc := some manager.handles.length
            handles := manager.handles ++ [{}] })

/-- A change of one child. -/
def Manager.mark (manager : Manager) (handle : Nat)
    (change : ProcHandle → ProcHandle) : Manager :=
  { manager with handles := manager.handles.modify handle change }

/-- What happens to a thread from outside. -/
inductive Input where
  /-- The thread goes on. -/
  | go
  /-- A reading of the clock. -/
  | clock (now : Time)
  /-- The answer of `cmd.Start`. -/
  | spawned (failure : Option GoString)
  /-- A reading of the clock and a new UUID. -/
  | nonce (now : Time) (uuid : GoString)
  /-- The answer of `GetStoredTask`. -/
  | read (failed : Bool)
  /-- The ticker of `waitFor`. -/
  | tick
  /-- The deadline or the context of `waitFor`. -/
  | expired (cause : GoString)
  /-- The answer of `Kill`. -/
  | killed (failure : Option GoString)
  /-- Three seconds have passed. -/
  | overdue

/-- One step of `killWorker`. -/
def Manager.killWorker (manager : Manager) :
    Kill → Input → Option (Kill × Manager)
  | .taking, .go =>
      match manager.proc with
      | none =>
          some
            (.ended (some (ascii "isolated worker is not running")), manager)
      | some handle =>
          some (.killing handle, { manager with proc := none })
  | .killing handle, .killed none =>
      some
        (.awaitingExit handle,
          manager.mark handle fun child =>
            { child with signaled := true })
  | .killing handle, .killed (some cause) =>
      some
        (.ended (some cause),
          manager.mark handle fun child => { child with spared := true })
  | .awaitingExit handle, .go =>
      if (manager.handles[handle]?).any ProcHandle.done then
        some (.ended none, manager)
      else none
  | .awaitingExit _, .overdue =>
      some
        (.ended
          (some (ascii "isolated worker did not exit after kill")),
          manager)
  | _, _ => none

/-! ## Retention -/

/-- A transaction in progress holds a lock on the row or on its key. -/
def locked (store : StoreConfig) (row : TaskRecord) : Bool :=
  (reserved row.id row.type row.idempotencyKey).any
    (heldByOthers store.sessions store.sessions.length)

/-- What refers to this task goes with it, and only when it is old. -/
def goesWith (cutoff : Time) (deleted : Sweep) (db : Database)
    (id : TaskId) (goes : Bool) : Bool :=
  if goes then (db.find id).any fun row => row.createdAt < cutoff
  else !deleted.rows id

/--
A retention run may commit this.  Its rows are old, not `RUNNING` and not
locked, no log and no dead letter of them is left, and it has found the others
that it deletes before their tasks were claimed.
-/
def deletable (cutoff : Time) (deleted : Sweep) (store : StoreConfig) :
    Bool :=
  (store.db.tasks.rows.all fun row =>
      !deleted.rows row.id || expired cutoff row && !locked store row) &&
    (store.db.taskLogs.all fun entry =>
      goesWith cutoff deleted store.db entry.taskId (deleted.logs entry)) &&
    store.db.deadLetters.all fun letter =>
      goesWith cutoff deleted store.db letter.taskId (deleted.letters letter)

/-- `Cleanup`: a run of `DeleteOlderThan` commits. -/
def Manager.cleanup (manager : Manager) (cutoff : Time)
    (deleted : Sweep) : Option Manager :=
  if !manager.enabled then
    some manager
  else if deletable cutoff deleted manager.store then
    some
      { manager with
        store := { manager.store with db := sweep deleted manager.store.db } }
  else none

/-! ## A demo -/

def typeCrash : GoString := ascii "playground_crash"

/-- `Milliseconds` of a duration. -/
def milliseconds (duration : Int) : Int :=
  duration.tdiv 1000000

/-- The parameters of the insertion. -/
def demoParams (settings : Settings) (session uuid : GoString) :
    InsertParams where
  type := typeCrash
  payload :=
    some
      (ascii "\x7b\"duration_ms\":" ++
        itoa (milliseconds settings.crashTaskDuration) ++ ascii "\x7d")
  idempotencyKey := some (ownedKey session uuid)
  priority := some 0
  maxRetries := some 2

/-- What `Insert` returns once the call of the store has. -/
def insertResult : Option Response → Except ClientError EnqueueResult
  | some response => receipt response
  | none => .error (.store (.database .connection))

/-- What a demo does after `spawnWorker`. -/
def spawnResult (complaint : String) (next : Point) :
    Option GoString → Point
  | none => next
  | some cause => .failing (ascii complaint ++ cause)

/-- What a demo does with the result of `killWorker`. -/
def killResult : Kill → Point
  | .ended none => .entering (.wait .reaper)
  | .ended (some cause) =>
      .failing (ascii "failed to kill isolated worker: " ++ cause)
  | kill => .killing kill

section Steps

variable (platform : Platform) (describe : ClientError → GoString)
  {manager after : Manager}

/-- The manager after a demo has reached a point. -/
def Manager.reach (manager : Manager) (index : Nat) (demo : Demo)
    (point : Point) : Manager :=
  { manager with demos := manager.demos.set index { demo with point } }

/-- One step of `runDemo`. -/
def Manager.runDemo (manager : Manager) (index : Nat) (demo : Demo) :
    Point → Input → Option Manager
  | .spawning, .spawned failure =>
      let (error, manager) := manager.spawnWorker failure
      some
        (manager.reach index demo
          (spawnResult "failed to start isolated worker: "
            (.entering .enqueue) error))
  | .entering leg, .clock now =>
      some
        ({ manager with
            status := manager.status.setPhase leg.phase now }.reach
          index demo leg.body)
  | .inserting, .nonce now uuid =>
      let params :=
        (demoParams manager.settings demo.session uuid).normalize now
      match params.validate now with
      | .error message =>
          some
            (manager.reach index demo
              (.failing
                (ascii "failed to enqueue crash task: " ++
                  describe (.validation message))))
      | .ok () =>
          some
            ({ manager with
                store :=
                  Pool.send platform (.create params.toStoreTask)
                    manager.store }.reach
              index demo
              (.awaitingInsert manager.store.sessions.length))
  | .awaitingInsert call, .go =>
      (Pool.callResult manager.store call).map fun result =>
        match insertResult result with
        | .error error =>
            manager.reach index demo
              (.failing
                (ascii "failed to enqueue crash task: " ++ describe error))
        | .ok result =>
            manager.reach index
              { demo with task := some result.task.id } .recording
  | .recording, .go =>
      some
        ({ manager with
            status := { manager.status with taskID := demo.task } }.reach
          index demo (.entering (.wait .claim)))
  | .polling wait, .read failed =>
      match demo.task.bind manager.store.db.find with
      | some row =>
          if !failed ∧ wait.matches row.status then
            some (manager.reach index demo (wait.next row.status))
          else
            some (manager.reach index demo (.pausing wait))
      | none => some (manager.reach index demo (.pausing wait))
  | .pausing wait, .tick =>
      some (manager.reach index demo (.polling wait))
  | .pausing wait, .expired cause =>
      some (manager.reach index demo (.failing (wait.complaint ++ cause)))
  | .killing kill, input =>
      (manager.killWorker kill input).map fun (kill, manager) =>
        manager.reach index demo (killResult kill)
  | .respawning, .spawned failure =>
      let (error, manager) := manager.spawnWorker failure
      some
        (manager.reach index demo
          (spawnResult "failed to restart isolated worker: "
            (.entering (.wait .completion)) error))
  | .completing, .clock now =>
      some
        ({ manager with status := manager.status.complete now }.reach
          index demo .releasing)
  | .failing message, .clock now =>
      some
        ({ manager with status := manager.status.fail message now }.reach
          index demo .releasing)
  | .releasing, .go =>
      some ({ manager with running := false }.reach index demo .inspecting)
  | .inspecting, .go =>
      some
        (manager.reach index demo
          (if manager.canceled then .returned else .checking))
  | .checking, .go =>
      some
        (manager.reach index demo
          (if manager.workerRunning then .returned else .restoring))
  | .restoring, .spawned failure =>
      some ((manager.spawnWorker failure).2.reach index demo .returned)
  | _, _ => none

/-! ## The steps -/

/-- A step of the manager and of what runs beside it. -/
inductive Step where
  | start (context : Option GoString) (session : GoString) (now : Time)
  | close
  | demo (index : Nat) (input : Input)
  | closer (index : Nat) (input : Input)
  /-- A child exits. -/
  | exit (handle : Nat)
  /-- The goroutine of a child closes the channel. -/
  | finish (handle : Nat)
  /-- The goroutine of a child drops the handle. -/
  | reap (handle : Nat)
  /-- The store goes on: the workers, the reaper and the server. -/
  | serve (label : StoreLabel)
  /-- Retention deletes tasks of the crash schema. -/
  | cleanup (cutoff : Time) (deleted : Sweep)
  /-- The context that the manager was created with ends. -/
  | cancel

/-- One step. -/
def Manager.step (manager : Manager) : Step → Option Manager
  | .start context session now =>
      some (manager.start context session now).2
  | .close =>
      some
        { manager with
          canceled := true
          closers := manager.closers ++ [.taking] }
  | .demo index input =>
      manager.demos[index]?.bind fun demo =>
        manager.runDemo platform describe index demo demo.point input
  | .closer index input =>
      manager.closers[index]?.bind fun kill =>
        (manager.killWorker kill input).map fun (kill, manager) =>
          { manager with closers := manager.closers.set index kill }
  | .exit handle =>
      some (manager.mark handle fun child => { child with running := false })
  | .finish handle =>
      if (manager.handles[handle]?).any fun child => !child.running then
        some (manager.mark handle fun child => { child with done := true })
      else none
  | .reap handle =>
      if (manager.handles[handle]?).any fun child =>
          child.done && !child.reaped then
        some
          ({ manager with
              proc :=
                if manager.proc = some handle then none
                else manager.proc }.mark
            handle fun child => { child with reaped := true })
      else none
  | .serve label =>
      ((postgres platform).step (Call.program platform) manager.store
        label).map fun store => { manager with store }
  | .cleanup cutoff deleted => manager.cleanup cutoff deleted
  | .cancel => some { manager with canceled := true }

/-- The manager as a machine. -/
def machine : Machine Manager Step where
  step := Manager.step platform describe

/-! ## What a step does -/

/-- What a step of `killWorker` does. -/
inductive Manager.Kills (manager : Manager) :
    Kill → Kill → Manager → Prop where
  | absent (idle : manager.proc = none) :
      Kills manager .taking
        (.ended (some (ascii "isolated worker is not running"))) manager
  | taken (handle : Nat) (held : manager.proc = some handle) :
      Kills manager .taking (.killing handle) { manager with proc := none }
  | signaled (handle : Nat) :
      Kills manager (.killing handle) (.awaitingExit handle)
        (manager.mark handle fun child => { child with signaled := true })
  | spared (handle : Nat) (cause : GoString) :
      Kills manager (.killing handle) (.ended (some cause))
        (manager.mark handle fun child => { child with spared := true })
  | exited (handle : Nat)
      (done : (manager.handles[handle]?).any ProcHandle.done = true) :
      Kills manager (.awaitingExit handle) (.ended none) manager
  | overdue (handle : Nat) :
      Kills manager (.awaitingExit handle)
        (.ended (some (ascii "isolated worker did not exit after kill")))
        manager

theorem Manager.killWorker_kills
    {kill next : Kill} {input : Input}
    (stepped : manager.killWorker kill input = some (next, after)) :
    manager.Kills kill next after := by
  unfold killWorker at stepped
  split at stepped
  · split at stepped
    · cases stepped
      exact .absent ‹_›
    · cases stepped
      exact .taken _ ‹_›
  · cases stepped
    exact .signaled _
  · cases stepped
    exact .spared _ _
  · split at stepped
    · cases stepped
      exact .exited _ ‹_›
    · cases stepped
  · cases stepped
    exact .overdue _
  · cases stepped

/-- What a step of `runDemo` does to the demo and to what is shared. -/
inductive Manager.Runs (manager : Manager) (demo : Demo) :
    Demo → Manager → Prop where
  | spawned (failure : Option GoString)
      (reached : demo.point = .spawning) :
      Runs manager demo
        { demo with
          point :=
            spawnResult "failed to start isolated worker: "
              (.entering .enqueue) (manager.spawnWorker failure).1 }
        (manager.spawnWorker failure).2
  | entered (leg : Leg) (now : Time)
      (reached : demo.point = .entering leg) :
      Runs manager demo { demo with point := leg.body }
        { manager with status := manager.status.setPhase leg.phase now }
  | sent (task : TaskRow) (reached : demo.point = .inserting) :
      Runs manager demo
        { demo with
          point := .awaitingInsert manager.store.sessions.length }
        { manager with
          store := Pool.send platform (.create task) manager.store }
  | rejected (error : ClientError)
      (reached :
        demo.point = .inserting ∨ ∃ call, demo.point = .awaitingInsert call) :
      Runs manager demo
        { demo with
          point :=
            .failing
              (ascii "failed to enqueue crash task: " ++ describe error) }
        manager
  | inserted (call : Nat) (id : TaskId)
      (reached : demo.point = .awaitingInsert call) :
      Runs manager demo { demo with task := some id, point := .recording }
        manager
  | recorded (reached : demo.point = .recording) :
      Runs manager demo
        { demo with point := .entering (.wait .claim) }
        { manager with
          status := { manager.status with taskID := demo.task } }
  | matched (wait : Wait) (id : TaskId) (row : TaskRecord)
      (reached : demo.point = .polling wait) (asked : demo.task = some id)
      (found : manager.store.db.find id = some row)
      (accepted : wait.matches row.status = true) :
      Runs manager demo { demo with point := wait.next row.status } manager
  | paused (wait : Wait) (reached : demo.point = .polling wait) :
      Runs manager demo { demo with point := .pausing wait } manager
  | ticked (wait : Wait) (reached : demo.point = .pausing wait) :
      Runs manager demo { demo with point := .polling wait } manager
  | expired (wait : Wait) (cause : GoString)
      (reached : demo.point = .pausing wait) :
      Runs manager demo
        { demo with point := .failing (wait.complaint ++ cause) } manager
  | killed (kill next : Kill) (after : Manager)
      (reached : demo.point = .killing kill)
      (kills : manager.Kills kill next after) :
      Runs manager demo { demo with point := killResult next } after
  | restarted (failure : Option GoString)
      (reached : demo.point = .respawning) :
      Runs manager demo
        { demo with
          point :=
            spawnResult "failed to restart isolated worker: "
              (.entering (.wait .completion))
              (manager.spawnWorker failure).1 }
        (manager.spawnWorker failure).2
  | completed (now : Time) (reached : demo.point = .completing) :
      Runs manager demo { demo with point := .releasing }
        { manager with status := manager.status.complete now }
  | failed (message : GoString) (now : Time)
      (reached : demo.point = .failing message) :
      Runs manager demo { demo with point := .releasing }
        { manager with status := manager.status.fail message now }
  | released (reached : demo.point = .releasing) :
      Runs manager demo { demo with point := .inspecting }
        { manager with running := false }
  | inspected (reached : demo.point = .inspecting) :
      Runs manager demo
        { demo with
          point := if manager.canceled then .returned else .checking }
        manager
  | checked (reached : demo.point = .checking) :
      Runs manager demo
        { demo with
          point := if manager.workerRunning then .returned else .restoring }
        manager
  | restored (failure : Option GoString)
      (reached : demo.point = .restoring) :
      Runs manager demo { demo with point := .returned }
        (manager.spawnWorker failure).2

/-- The manager after a demo was started. -/
def Manager.started (manager : Manager) (session : GoString)
    (now : Time) : Manager :=
  { manager with
    running := true
    status :=
      { enabled := true
        phase := .starting
        session
        startedAt := some now
        updatedAt := some now }
    demos := manager.demos ++ [{ session }] }

/-- What a step does. -/
inductive Manager.Moves (manager : Manager) : Step → Manager → Prop where
  | refused (context : Option GoString) (session : GoString) (now : Time) :
      Moves manager (.start context session now) manager
  | started (session : GoString) (now : Time)
      (enabled : manager.enabled = true) (free : manager.running = false) :
      Moves manager (.start none session now) (manager.started session now)
  | closed :
      Moves manager .close
        { manager with
          canceled := true
          closers := manager.closers ++ [.taking] }
  | ran (index : Nat) (input : Input) (demo next : Demo)
      (shared : Manager) (found : manager.demos[index]? = some demo)
      (runs : manager.Runs platform describe demo next shared) :
      Moves manager (.demo index input)
        { shared with demos := shared.demos.set index next }
  | killed (index : Nat) (input : Input) (kill next : Kill)
      (shared : Manager) (found : manager.closers[index]? = some kill)
      (kills : manager.Kills kill next shared) :
      Moves manager (.closer index input)
        { shared with closers := shared.closers.set index next }
  | exited (handle : Nat) :
      Moves manager (.exit handle)
        (manager.mark handle fun child => { child with running := false })
  | finished (handle : Nat)
      (dead :
        (manager.handles[handle]?).any (fun child => !child.running) = true) :
      Moves manager (.finish handle)
        (manager.mark handle fun child => { child with done := true })
  | reaped (handle : Nat)
      (done :
        (manager.handles[handle]?).any
          (fun child => child.done && !child.reaped) = true) :
      Moves manager (.reap handle)
        ({ manager with
            proc :=
              if manager.proc = some handle then none
              else manager.proc }.mark
          handle fun child => { child with reaped := true })
  | served (label : StoreLabel) (store : StoreConfig)
      (stepped :
        (postgres platform).step (Call.program platform) manager.store
          label = some store) :
      Moves manager (.serve label) { manager with store }
  | skipped (cutoff : Time) (deleted : Sweep) :
      Moves manager (.cleanup cutoff deleted) manager
  | swept (cutoff : Time) (deleted : Sweep)
      (allowed : deletable cutoff deleted manager.store = true) :
      Moves manager (.cleanup cutoff deleted)
        { manager with
          store :=
            { manager.store with db := sweep deleted manager.store.db } }
  | canceled : Moves manager .cancel { manager with canceled := true }

variable {platform describe}

theorem Manager.runDemo_runs
    {index : Nat} {demo : Demo} {input : Input}
    (stepped :
      manager.runDemo platform describe index demo demo.point input =
        some after) :
    ∃ next shared,
      manager.Runs platform describe demo next shared ∧
        after = { shared with demos := shared.demos.set index next } := by
  unfold runDemo at stepped
  split at stepped
  case h_1 failure reached =>
      cases stepped
      exact ⟨_, _, .spawned failure reached, rfl⟩
  case h_2 leg now reached =>
      cases stepped
      exact ⟨_, _, .entered leg now reached, rfl⟩
  case h_3 now uuid reached =>
      simp only at stepped
      split at stepped
      · cases stepped
        exact ⟨_, _, .rejected _ (Or.inl reached), rfl⟩
      · cases stepped
        exact ⟨_, _, .sent _ reached, rfl⟩
  case h_4 call reached =>
      rcases Option.map_eq_some_iff.mp stepped with ⟨result, _, equal⟩
      split at equal
      · cases equal
        exact ⟨_, _, .rejected _ (Or.inr ⟨call, reached⟩), rfl⟩
      · cases equal
        exact ⟨_, _, .inserted call _ reached, rfl⟩
  case h_5 reached =>
      cases stepped
      exact ⟨_, _, .recorded reached, rfl⟩
  case h_6 wait failed reached =>
      split at stepped
      case h_1 row found =>
          rcases Option.bind_eq_some_iff.mp found with ⟨id, asked, here⟩
          split at stepped
          · cases stepped
            exact ⟨_, _,
              .matched wait id row reached asked here
                (‹_ ∧ _› : _ ∧ _).2, rfl⟩
          · cases stepped
            exact ⟨_, _, .paused wait reached, rfl⟩
      case h_2 =>
          cases stepped
          exact ⟨_, _, .paused wait reached, rfl⟩
  case h_7 wait reached =>
      cases stepped
      exact ⟨_, _, .ticked wait reached, rfl⟩
  case h_8 wait cause reached =>
      cases stepped
      exact ⟨_, _, .expired wait cause reached, rfl⟩
  case h_9 kill reached =>
      rcases Option.map_eq_some_iff.mp stepped with
        ⟨⟨next, shared⟩, killed, equal⟩
      cases equal
      exact ⟨_, _,
        .killed kill next shared reached (killWorker_kills killed), rfl⟩
  case h_10 failure reached =>
      cases stepped
      exact ⟨_, _, .restarted failure reached, rfl⟩
  case h_11 now reached =>
      cases stepped
      exact ⟨_, _, .completed now reached, rfl⟩
  case h_12 message now reached =>
      cases stepped
      exact ⟨_, _, .failed message now reached, rfl⟩
  case h_13 reached =>
      cases stepped
      exact ⟨_, _, .released reached, rfl⟩
  case h_14 reached =>
      cases stepped
      exact ⟨_, _, .inspected reached, rfl⟩
  case h_15 reached =>
      cases stepped
      exact ⟨_, _, .checked reached, rfl⟩
  case h_16 failure reached =>
      cases stepped
      exact ⟨_, _, .restored failure reached, rfl⟩
  case h_17 =>
      cases stepped

theorem Manager.step_moves
    {step : Step}
    (stepped : manager.step platform describe step = some after) :
    manager.Moves platform describe step after := by
  cases step with
  | start context session now =>
      cases stepped
      simp only [start]
      split
      · exact .refused _ _ _
      · cases context with
        | some cause => exact .refused _ _ _
        | none =>
            simp only
            split
            · exact .refused _ _ _
            · refine .started session now ?_ ?_
              · simp_all
              · simp_all
  | close =>
      cases stepped
      exact .closed
  | demo index input =>
      rcases Option.bind_eq_some_iff.mp stepped with ⟨demo, found, ran⟩
      rcases runDemo_runs ran with ⟨next, shared, runs, rfl⟩
      exact .ran index input demo next shared found runs
  | closer index input =>
      rcases Option.bind_eq_some_iff.mp stepped with ⟨kill, found, ran⟩
      rcases Option.map_eq_some_iff.mp ran with
        ⟨⟨next, shared⟩, killed, rfl⟩
      exact .killed index input kill next shared found
        (killWorker_kills killed)
  | exit handle =>
      cases stepped
      exact .exited handle
  | finish handle =>
      rcases Option.ite_none_right_eq_some.mp stepped with ⟨dead, equal⟩
      cases equal
      exact .finished handle dead
  | reap handle =>
      rcases Option.ite_none_right_eq_some.mp stepped with ⟨done, equal⟩
      cases equal
      exact .reaped handle done
  | serve label =>
      rcases Option.map_eq_some_iff.mp stepped with ⟨store, served, rfl⟩
      exact .served label store served
  | cleanup cutoff deleted =>
      simp only [step, cleanup] at stepped
      split_ifs at stepped with disabled allowed
      · cases stepped
        exact .skipped cutoff deleted
      · cases stepped
        exact .swept cutoff deleted allowed
  | cancel =>
      cases stepped
      exact .canceled

/-- What the moves of a run keep holds at its end. -/
theorem run_moves_of
    (Holds : Manager → Prop) {start final : Manager} {steps : List Step}
    (kept :
      ∀ manager step after, step ∈ steps → Holds manager →
        manager.Moves platform describe step after → Holds after)
    (initially : Holds start)
    (ran : (machine platform describe).run start steps = some final) :
    Holds final :=
  Machine.run_induction Holds
    (fun manager step after member holds stepped =>
      kept manager step after member holds (Manager.step_moves stepped))
    initially ran

/-- What every move keeps holds at the end of every run. -/
theorem run_moves
    (Holds : Manager → Prop)
    (kept :
      ∀ manager step after, Holds manager →
        manager.Moves platform describe step after → Holds after)
    {start final : Manager} {steps : List Step} (initially : Holds start)
    (ran : (machine platform describe).run start steps = some final) :
    Holds final :=
  run_moves_of Holds
    (fun manager step after _ => kept manager step after) initially ran

end Steps

end Dhara.Playground.Crash
