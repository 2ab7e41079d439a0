import Dhara.Machine
import Dhara.Pool.System

/-!
# The life of a worker process

`Worker.Start` runs a pool until its context ends or `Stop` is called, cancels
the pool and waits for its goroutines.  Every worker goroutine polls, counts
its claims that fail, and returns once the context of the pool has ended.  The
reaper goroutine does so between two of its runs.

The processes run on the system of worker pools: what a goroutine does to its
worker or to the store is a step of that system.  Here is what it does
besides: where its loop is, which counters and gauges it moves, and when it
returns.  A goroutine that was started and has not run yet stands for one that
the loop of `WorkerPool.Start` has still to start.

A call of the store with a context that has ended fails before it reaches the
server.
-/

namespace Dhara.Lifecycle

open Dhara.Store Dhara.Pool

/-! ## Metrics -/

/-- The metrics that the goroutines of a worker process move. -/
structure Metrics where
  workersActive : Int := 0
  workersInflight : Int := 0
  claimErrorsTotal : Int := 0
  reaperFailuresTotal : Int := 0
deriving DecidableEq

instance : Add Metrics where
  add first second :=
    { workersActive := first.workersActive + second.workersActive
      workersInflight := first.workersInflight + second.workersInflight
      claimErrorsTotal := first.claimErrorsTotal + second.claimErrorsTotal
      reaperFailuresTotal :=
        first.reaperFailuresTotal + second.reaperFailuresTotal }

/-! ## The goroutine of a worker -/

/-- Where the loop of `Worker.Start` is. -/
inductive Loop where
  | spawned
  | ready
  | busy
  | idle
  | returned
deriving DecidableEq

/--
The goroutine of a worker.  It remembers the claims whose tasks it has
executed, and all claims that it has received with a task or while its context
lasted.
-/
structure Goroutine where
  loop : Loop := .spawned
  claimFailing : Bool := false
  warnings : Nat := 0
  taken : List Nat := []
  claims : List Nat := []
deriving DecidableEq

/-- The steps of the goroutine of a worker. -/
inductive Move where
  | begin
  | claim
  | receive
  | finish (handled : Handled) (nextRunAt : Time) (taskDurationMS : Int)
  | settle
  | tick
  | beaten
  | poll
  | quit
deriving DecidableEq

/-- The effect of a step: what its worker does and how the metrics move. -/
structure Effect where
  goroutine : Goroutine
  action : Option Action := none
  metrics : Metrics := {}

/-- The return of `Worker.Start`. -/
def Goroutine.return (goroutine : Goroutine)
    (action : Option Action) : Effect where
  goroutine := { goroutine with loop := .returned }
  action
  metrics := { workersActive := -1 }

/-- The change of `WorkersInflight` by an execution that has a handler. -/
def inflight (worker : Worker) (task : TaskRow) (change : Int) : Metrics :=
  if worker.registry task.type then { workersInflight := change } else {}

section Inflight

variable (worker : Worker) (task : TaskRow) (change : Int)

@[simp]
theorem inflight_workersActive :
    (inflight worker task change).workersActive = 0 := by
  unfold inflight
  split <;> rfl

@[simp]
theorem inflight_claimErrorsTotal :
    (inflight worker task change).claimErrorsTotal = 0 := by
  unfold inflight
  split <;> rfl

@[simp]
theorem inflight_workersInflight :
    (inflight worker task change).workersInflight =
      if worker.registry task.type then change else 0 := by
  unfold inflight
  split <;> rfl

end Inflight

/-- The loop of `Worker.Start` after `claim`. -/
def Goroutine.claimed (goroutine : Goroutine) (canceled : Bool)
    (worker : Worker) (claim : Nat) : Option Response → Effect
  | some (.task (.ok task)) =>
      { goroutine :=
          { goroutine with
            claimFailing := false
            taken := goroutine.taken ++ [claim]
            claims := goroutine.claims ++ [claim] }
        action := some .receive
        metrics := inflight worker task 1 }
  | result =>
      if canceled then
        goroutine.return (some .receive)
      else if result = some (.task (.error .taskNotAvailable)) then
        { goroutine :=
            { goroutine with
              loop := .idle
              claimFailing := false
              claims := goroutine.claims ++ [claim] }
          action := some .receive }
      else
        { goroutine :=
            { goroutine with
              loop := .idle
              claimFailing := true
              warnings :=
                if goroutine.claimFailing then goroutine.warnings
                else goroutine.warnings + 1
              claims := goroutine.claims ++ [claim] }
          action := some .receive
          metrics := { claimErrorsTotal := 1 } }

/-- A step of `Worker.Start`. -/
def Goroutine.step (goroutine : Goroutine) (canceled : Bool)
    (worker : Worker) (store : StoreConfig) (move : Move) :
    Option Effect :=
  match goroutine.loop, move with
  | .spawned, .begin =>
      some
        { goroutine := { goroutine with loop := .ready }
          metrics := { workersActive := 1 } }
  | .ready, .claim =>
      if canceled then
        some (goroutine.return none)
      else
        some
          { goroutine := { goroutine with loop := .busy }
            action := some .claim }
  | .busy, .receive =>
      match worker.phase with
      | .claiming claim =>
          (callResult store claim).map
            (goroutine.claimed canceled worker claim)
      | _ => none
  | .busy, .finish handled nextRunAt taskDurationMS =>
      some
        { goroutine
          action := some (.finish handled nextRunAt taskDurationMS) }
  | .busy, .settle =>
      match worker.phase with
      | .persisting _ task _ _ =>
          some
            { goroutine := { goroutine with loop := .ready }
              action := some .settle
              metrics := inflight worker task (-1) }
      | _ => none
  | .busy, .tick => some { goroutine, action := some .tick }
  | .busy, .beaten => some { goroutine, action := some .beaten }
  | .idle, .poll =>
      some { goroutine := { goroutine with loop := .ready } }
  | .idle, .quit =>
      if canceled then some (goroutine.return none) else none
  | _, _ => none

/-! ## The goroutine of the reaper -/

/-- Where the loop of `reaper.start` is. -/
inductive Reaper where
  | idle
  | running (session : Nat)
  | returned
deriving DecidableEq

/-- The steps of the goroutine of the reaper. -/
inductive ReaperMove where
  | tick
  | receive
  | quit
deriving DecidableEq

/-- How a run of the reaper moves the metrics. -/
def reaperRan : Option Response → Metrics
  | some (.count (.ok _)) => {}
  | _ => { reaperFailuresTotal := 1 }

/-- A step of `reaper.start`, and whether it calls the store. -/
def Reaper.step (canceled : Bool) (store : StoreConfig) :
    Reaper → ReaperMove → Option (Reaper × Bool × Metrics)
  | .idle, .tick =>
      if canceled then some (.idle, false, { reaperFailuresTotal := 1 })
      else some (.running store.sessions.length, true, {})
  | .running session, .receive =>
      (callResult store session).map fun result =>
        (.idle, false, reaperRan result)
  | .idle, .quit =>
      if canceled then some (.returned, false, {}) else none
  | _, _ => none

/-! ## The process -/

/-- A call of `Start`. -/
inductive Caller where
  | running
  | waiting
  | returned (error : Option GoString)
deriving DecidableEq

/-- The error of a second call of `Start`. -/
def alreadyStarted : GoString := ascii "dhara: worker already started"

/-- The error of a call of `Start` that has waited too long. -/
def deadlineExceeded : GoString := ascii "context deadline exceeded"

/-- The goroutines of a pool that was started. -/
structure Running where
  pool : Nat
  first : Nat
  ctxDone : Bool
  stopped : Bool := false
  goroutines : List Goroutine
  reaper : Reaper := .idle

/-- The context of the pool has ended. -/
def Running.canceled (running : Running) : Bool :=
  running.ctxDone || running.stopped

/-- `wg.Wait` returns. -/
def Running.drained (running : Running) : Bool :=
  running.reaper = .returned &&
    running.goroutines.all fun goroutine => goroutine.loop = .returned

/-- `Worker` of the library, in a process that lives until it exits. -/
structure Process where
  settings : Settings
  registry : List GoString := []
  stopCh : Bool := false
  callers : List Caller := []
  running : Option Running := none
  metrics : Metrics := {}
  alive : Bool := true

/-- The worker processes on the system of their pools. -/
structure Host where
  system : State := {}
  processes : List Process := []

/-- A step of the host. -/
inductive Label where
  | create (settings : Settings)
  | register (process : Nat) (taskType : GoString)
  | start (process : Nat) (ctxDone : Bool)
  | cancel (process : Nat)
  | stop (process : Nat)
  | wake (process caller : Nat)
  | join (process caller : Nat)
  | expire (process caller : Nat)
  | work (process goroutine : Nat) (move : Move)
  | reap (process : Nat) (move : ReaperMove)
  | exit (process : Nat)
  | call (call : Call)
  | serve (session : Nat)
      (answer : Transaction.Answer Fault Resource Oracle Time)
  | lose (session : Nat)

section Steps

variable (platform : Platform)

/-- `Start`, up to its first select. -/
def Process.start (process : Process) (system : State)
    (ctxDone : Bool) : Option (State × Process) :=
  match process.running with
  | some _ =>
      some
        (system,
          { process with
            callers := process.callers ++ [.returned (some alreadyStarted)] })
  | none =>
      let settings := process.settings.normalize
      (system.step platform
        (.start process.settings fun taskType =>
          taskType ∈ process.registry)).map fun next =>
        (next,
          { process with
            callers := process.callers ++ [.running]
            running :=
              some
                { pool := system.pools.length
                  first := system.workers.length
                  ctxDone
                  goroutines :=
                    List.replicate settings.concurrency.toNat {} } })

/-- A call of `Start` goes on. -/
def Process.advance (process : Process) (running : Running)
    (caller : Nat) : Label → Caller → Option Process
  | .wake _ _, .running =>
      if running.ctxDone || process.stopCh then
        some
          { process with
            callers := process.callers.set caller .waiting
            running := some { running with stopped := true } }
      else
        none
  | .join _ _, .waiting =>
      if running.drained then
        some
          { process with
            callers := process.callers.set caller (.returned none) }
      else
        none
  | .expire _ _, .waiting =>
      some
        { process with
          callers :=
            process.callers.set caller (.returned (some deadlineExceeded)) }
  | _, _ => none

/-- A step of the goroutine of a worker. -/
def Process.work (process : Process) (running : Running)
    (system : State) (index : Nat) (move : Move) :
    Option (State × Process) :=
  match running.goroutines[index]?,
      system.workers[running.first + index]? with
  | some goroutine, some worker =>
      (goroutine.step running.canceled worker system.store move).bind
        fun effect =>
          (match effect.action with
          | none => some system
          | some action =>
              system.step platform
                (.work (running.first + index) action)).map fun next =>
            (next,
              { process with
                running :=
                  some
                    { running with
                      goroutines :=
                        running.goroutines.set index effect.goroutine }
                metrics := process.metrics + effect.metrics })
  | _, _ => none

/-- A step of the goroutine of the reaper. -/
def Process.reap (process : Process) (running : Running)
    (system : State) (move : ReaperMove) : Option (State × Process) :=
  (running.reaper.step running.canceled system.store move).bind
    fun (reaper, calls, metrics) =>
      (if calls then system.step platform (.reap running.pool)
      else some system).map fun next =>
        (next,
          { process with
            running := some { running with reaper }
            metrics := process.metrics + metrics })

/-- The process exits, with its goroutines wherever they are. -/
def Process.exit (process : Process) (system : State) :
    Option (State × Process) :=
  (match process.running with
  | none => some system
  | some running => system.step platform (.stop running.pool)).map
    fun next => (next, { process with alive := false })

/-- The step of a process.  `Register` panics once the worker was started. -/
def Process.step (process : Process) (system : State) :
    Label → Option (State × Process)
  | .register _ taskType =>
      if process.running.isNone then
        some
          (system, { process with registry := taskType :: process.registry })
      else
        none
  | .start _ ctxDone => process.start platform system ctxDone
  | .cancel _ =>
      process.running.map fun running =>
        (system,
          { process with running := some { running with ctxDone := true } })
  | .stop _ => some (system, { process with stopCh := true })
  | .work _ index move =>
      process.running.bind fun running =>
        process.work platform running system index move
  | .reap _ move =>
      process.running.bind fun running =>
        process.reap platform running system move
  | .exit _ => process.exit platform system
  | label@(.wake _ caller) | label@(.join _ caller)
  | label@(.expire _ caller) =>
      process.running.bind fun running =>
        process.callers[caller]?.bind fun point =>
          (process.advance running caller label point).map fun next =>
            (system, next)
  | _ => none

/-- The process that makes a step. -/
def Label.process : Label → Option Nat
  | .register process _ | .start process _ | .cancel process
  | .stop process | .wake process _ | .join process _
  | .expire process _ | .work process _ _ | .reap process _
  | .exit process => some process
  | _ => none

/-- A step of the system that no process makes. -/
def Label.outside : Label → Option Step
  | .call sent => some (.call sent)
  | .serve session answer => some (.serve session answer)
  | .lose session => some (.lose session)
  | _ => none

/-- One step. -/
def Host.step (host : Host) (label : Label) : Option Host :=
  match label with
  | .create settings =>
      some { host with processes := host.processes ++ [{ settings }] }
  | label =>
      match label.process, label.outside with
      | some index, _ =>
          match host.processes[index]? with
          | none => none
          | some process =>
              if process.alive then
                (process.step platform host.system label).map
                  fun (system, next) =>
                    { system
                      processes := host.processes.set index next }
              else
                none
      | none, some step =>
          (host.system.step platform step).map fun system =>
            { host with system }
      | none, none => none

/-- The processes and their database. -/
def machine : Machine Host Label where
  step := Host.step platform

end Steps

end Dhara.Lifecycle
