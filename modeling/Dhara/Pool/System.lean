import Dhara.Pool.Worker
import Dhara.Transaction.Traces

/-!
# Worker pools on one database

Any number of processes run a worker pool against one database.  A pool names
its workers and its reaper after its prefix.  Processes start and stop at any
time, clients call the store directly, and the server answers the round trips
of all calls in any order, with any fault, or loses a connection.

A process that stops takes its calls with it: their transactions are rolled
back unless they have ended.  Only a heartbeat, which is a single statement,
may still reach the server.
-/

namespace Dhara.Pool

open Dhara.Store Dhara.Transaction

/-! ## Settings -/

/-- The default of `WorkerPrefix`. -/
def defaultPrefix : GoString := ascii "dhara-worker"

/-- `Settings`.  The durations are in microseconds. -/
structure Settings where
  workerPrefix : GoString := defaultPrefix
  pollInterval : Time := 0
  concurrency : Int := 0
  heartbeatInterval : Time := 0
  handlerTimeout : Time := 0
  baseBackoff : Time := 0
  maxBackoff : Time := 0
  reaperInterval : Time := 0
  staleThreshold : Time := 0

/-- The value, or a default if it is not positive. -/
def positiveOr (default value : Int) : Int :=
  if value ≤ 0 then default else value

/-- `normalize`. -/
def Settings.normalize (settings : Settings) : Settings :=
  let baseBackoff := positiveOr 10000000 settings.baseBackoff
  let maxBackoff := positiveOr 300000000 settings.maxBackoff
  { workerPrefix :=
      if settings.workerPrefix = [] then defaultPrefix
      else settings.workerPrefix
    concurrency := positiveOr 1 settings.concurrency
    pollInterval := positiveOr 250000 settings.pollInterval
    heartbeatInterval := positiveOr 30000000 settings.heartbeatInterval
    reaperInterval := positiveOr 30000000 settings.reaperInterval
    staleThreshold := positiveOr 300000000 settings.staleThreshold
    handlerTimeout := positiveOr 300000000 settings.handlerTimeout
    baseBackoff :=
      if maxBackoff < baseBackoff then maxBackoff else baseBackoff
    maxBackoff }

/-- The id of a worker: `%s-%d` with numbers from one. -/
def workerName (workerPrefix : GoString) (index : Nat) : GoString :=
  workerPrefix ++ ascii "-" ++ itoa (index + 1 : Nat)

/-- The workers that `Start` runs. -/
def Settings.workers (settings : Settings)
    (registry : GoString → Bool) (process : Nat) : List Worker :=
  (List.range settings.concurrency.toNat).map fun index =>
    { workerID := workerName settings.workerPrefix index
      registry
      process }

/-- A run of the reaper of `Start`, with the defaults of `newReaper`. -/
def Settings.reaperRun (settings : Settings) : Call :=
  let reaperID := settings.workerPrefix ++ ascii "-reaper"
  .requeueStaleRunning (positiveOr 30000000 settings.staleThreshold)
    (if reaperID = [] then ascii "dhara-reaper" else reaperID)

/-! ## The system -/

/-- A started pool, live until its process stops. -/
structure WorkerPool where
  settings : Settings
  live : Bool := true

/-- The store, the pools and what has happened to the executions. -/
structure State where
  store : StoreConfig := { db := .empty }
  pools : List WorkerPool := []
  workers : List Worker := []
  events : List Event := []

/-- The calls that come from outside the workers. -/
def fromOutside : Call → Bool
  | .create _ => true
  | .callerTx _ _ => true
  | .cancel _ => true
  | .retryDead _ => true
  | .requeueStaleRunning _ _ => true
  | _ => false

/-- A step of the system. -/
inductive Step where
  | start (settings : Settings) (registry : GoString → Bool)
  | stop (process : Nat)
  | work (worker : Nat) (action : Action)
  | reap (process : Nat)
  | call (call : Call)
  | serve (session : Nat)
      (answer : Answer Fault Resource Oracle Time)
  | lose (session : Nat)

/-- The calls the worker waits for have ended. -/
def Worker.detached (worker : Worker) (store : StoreConfig) : Bool :=
  match worker.phase with
  | .claiming claim => (callResult store claim).isSome
  | .persisting _ _ _ session => (callResult store session).isSome
  | _ => true

/-- The worker after its process has stopped. -/
def Worker.stopped (process : Nat) (worker : Worker) : Worker :=
  if worker.process = process then { worker with phase := .gone }
  else worker

section Steps

variable (platform : Platform) {state next : State}

/-- The store after a call was sent. -/
def send (call : Call) (store : StoreConfig) : StoreConfig :=
  { store with
    sessions :=
      store.sessions ++ [{ call, program := some (call.program platform) }] }

/-- One step. -/
def State.step (state : State) : Step → Option State
  | .start settings registry =>
      let settings := settings.normalize
      some
        { state with
          pools := state.pools ++ [{ settings }]
          workers :=
            state.workers ++ settings.workers registry state.pools.length }
  | .stop process =>
      match state.pools[process]? with
      | none => none
      | some pool =>
          if state.workers.all fun worker =>
              worker.process ≠ process || worker.detached state.store then
            some
              { state with
                pools := state.pools.set process { pool with live := false }
                workers := state.workers.map (Worker.stopped process) }
          else
            none
  | .work index action =>
      match state.workers[index]? with
      | none => none
      | some worker =>
          (worker.act state.store action).map fun reaction =>
            { state with
              store :=
                reaction.call.elim state.store
                  fun call => send platform call state.store
              workers :=
                state.workers.set index
                  { worker with phase := reaction.phase }
              events := state.events ++ reaction.events }
  | .reap process =>
      match state.pools[process]? with
      | none => none
      | some pool =>
          if pool.live then
            some
              { state with
                store := send platform pool.settings.reaperRun state.store }
          else
            none
  | .call call =>
      if fromOutside call then
        some { state with store := send platform call state.store }
      else
        none
  | .serve session answer =>
      ((postgres platform).step (Call.program platform) state.store
        (.advance session answer)).map fun store => { state with store }
  | .lose session =>
      ((postgres platform).step (Call.program platform) state.store
        (.crash session)).map fun store => { state with store }

/-- The state after a run. -/
def State.follow (state : State) : List Step → Option State
  | [] => some state
  | step :: rest =>
      (state.step platform step).bind fun next => next.follow rest

/-- A pool is started only while no live pool has its prefix. -/
def Step.Alone (state : State) : Step → Prop
  | .start settings _ =>
      ∀ pool ∈ state.pools, pool.live = true →
        pool.settings.workerPrefix ≠ settings.normalize.workerPrefix
  | _ => True

/-- Every pool of the run is started while no live pool has its prefix. -/
def Alone (state : State) : List Step → Prop
  | [] => True
  | step :: rest =>
      step.Alone state ∧
        match state.step platform step with
        | none => True
        | some next => Alone next rest

instance (state : State) : DecidablePred (Step.Alone state)
  | .start settings _ =>
      inferInstanceAs
        (Decidable
          (∀ pool ∈ state.pools, pool.live = true →
            pool.settings.workerPrefix ≠ settings.normalize.workerPrefix))
  | .stop _ | .work _ _ | .reap _ | .call _ | .serve _ _ | .lose _ =>
      isTrue True.intro

instance decidableAlone (state : State) :
    DecidablePred (Alone platform state)
  | [] => isTrue True.intro
  | step :: rest =>
      match stepped : state.step platform step with
      | none =>
          decidable_of_iff (step.Alone state)
            (by simp only [Alone, stepped, and_true])
      | some next =>
          have := decidableAlone next rest
          decidable_of_iff
            (step.Alone state ∧ Alone platform next rest)
            (by simp only [Alone, stepped])

/-- What one step can do. -/
inductive State.Moves (state : State) : Step → State → Prop where
  | start (settings : Settings) (registry : GoString → Bool) :
      Moves state (.start settings registry)
        { state with
          pools := state.pools ++ [{ settings := settings.normalize }]
          workers :=
            state.workers ++
              settings.normalize.workers registry state.pools.length }
  | stop (process : Nat) (pool : WorkerPool)
      (found : state.pools[process]? = some pool)
      (detached :
        ∀ worker ∈ state.workers, worker.process = process →
          worker.detached state.store = true) :
      Moves state (.stop process)
        { state with
          pools := state.pools.set process { pool with live := false }
          workers := state.workers.map (Worker.stopped process) }
  | work (index : Nat) (action : Action) (worker : Worker)
      (reaction : Reaction)
      (found : state.workers[index]? = some worker)
      (acts : worker.Acts state.store reaction) :
      Moves state (.work index action)
        { state with
          store :=
            reaction.call.elim state.store
              fun call => send platform call state.store
          workers :=
            state.workers.set index { worker with phase := reaction.phase }
          events := state.events ++ reaction.events }
  | sent (step : Step) (call : Call)
      (outside : fromOutside call = true) :
      Moves state step { state with store := send platform call state.store }
  | served (step : Step) (label : StoreLabel) (store : StoreConfig)
      (answer : ∀ call, label ≠ .spawn call)
      (stepped :
        (postgres platform).step (Call.program platform) state.store
          label = some store) :
      Moves state step { state with store }

variable {platform}

theorem State.step_moves
    {step : Step} (stepped : state.step platform step = some next) :
    state.Moves platform step next := by
  cases step with
  | start settings registry =>
      cases stepped
      exact .start settings registry
  | stop process =>
      simp only [State.step] at stepped
      split at stepped
      · cases stepped
      · rename_i pool found
        split_ifs at stepped with detached
        cases stepped
        refine .stop process pool found ?_
        intro worker member inside
        simpa [inside] using List.all_eq_true.mp detached worker member
  | work index action =>
      simp only [State.step] at stepped
      split at stepped
      · cases stepped
      · rename_i worker found
        rcases Option.map_eq_some_iff.mp stepped with
          ⟨reaction, acted, equal⟩
        subst next
        exact .work index action worker reaction found
          (Worker.act_cases acted)
  | reap process =>
      simp only [State.step] at stepped
      split at stepped
      · cases stepped
      · split_ifs at stepped
        cases stepped
        exact .sent _ _ rfl
  | call call =>
      simp only [State.step] at stepped
      split_ifs at stepped with outside
      cases stepped
      exact .sent _ call outside
  | serve session answer =>
      rcases Option.map_eq_some_iff.mp stepped with
        ⟨store, answered, equal⟩
      subst next
      refine .served _ _ store ?_ answered
      intro call equal
      cases equal
  | lose session =>
      rcases Option.map_eq_some_iff.mp stepped with
        ⟨store, crashed, equal⟩
      subst next
      refine .served _ _ store ?_ crashed
      intro call equal
      cases equal

/-- A property kept by every step holds in every state reached. -/
theorem State.follow_invariant
    {Holds : State → Prop}
    (kept :
      ∀ state step next, Holds state →
        state.Moves platform step next → Holds next)
    {final : State} {run : List Step} (start : Holds state)
    (followed : state.follow platform run = some final) : Holds final := by
  induction run generalizing state with
  | nil =>
      cases followed
      exact start
  | cons step rest induction =>
      rcases Option.bind_eq_some_iff.mp followed with
        ⟨next, stepped, remaining⟩
      exact induction
        (kept state step next start (State.step_moves stepped)) remaining

/-- The same for runs that keep the prefixes of live pools apart. -/
theorem State.alone_invariant
    {Holds : State → Prop}
    (kept :
      ∀ state step next, Holds state → step.Alone state →
        state.Moves platform step next → Holds next)
    {final : State} {run : List Step} (start : Holds state)
    (alone : Alone platform state run)
    (followed : state.follow platform run = some final) : Holds final := by
  induction run generalizing state with
  | nil =>
      cases followed
      exact start
  | cons step rest induction =>
      rcases Option.bind_eq_some_iff.mp followed with
        ⟨next, stepped, remaining⟩
      simp only [Alone, stepped] at alone
      exact induction
        (kept state step next start alone.1 (State.step_moves stepped))
        alone.2 remaining

/-- The store is left alone or takes one step. -/
theorem State.Moves.store
    {step : Step} (moves : state.Moves platform step next) :
    next.store = state.store ∨
      ∃ label,
        (postgres platform).step (Call.program platform) state.store
          label = some next.store := by
  cases moves with
  | start settings registry => exact Or.inl rfl
  | stop process pool found detached => exact Or.inl rfl
  | work index action worker reaction found acts =>
      cases sent : reaction.call with
      | none => exact Or.inl rfl
      | some call => exact Or.inr ⟨.spawn call, rfl⟩
  | sent step call outside => exact Or.inr ⟨.spawn call, rfl⟩
  | served step label store answer stepped =>
      exact Or.inr ⟨label, stepped⟩

variable (platform) in
/-- The store is reached by a schedule of its own. -/
def Reached (store : StoreConfig) : Prop :=
  ∃ schedule, interleave platform .empty schedule = some store

theorem Reached.step
    {store next : StoreConfig} {label : StoreLabel}
    (reached : Reached platform store)
    (stepped :
      (postgres platform).step (Call.program platform) store label =
        some next) : Reached platform next := by
  rcases reached with ⟨schedule, followed⟩
  refine ⟨schedule ++ [label], ?_⟩
  simp only [interleave] at followed ⊢
  rw [Engine.follow_append, followed]
  simp [Engine.follow, stepped]

theorem State.Moves.reached
    {step : Step} (moves : state.Moves platform step next)
    (reached : Reached platform state.store) :
    Reached platform next.store := by
  rcases moves.store with same | ⟨label, stepped⟩
  · exact same ▸ reached
  · exact reached.step stepped

end Steps

end Dhara.Pool
