import Dhara.Lifecycle.Moves

/-!
# Goroutines and their workers

In every state reached, each goroutine of a process that lives is where its
worker in the system of worker pools is, no other worker belongs to the pool
of the process, and no two processes have one pool.  Every claim whose task a
goroutine has taken is still executed, or the write that ends its execution
has returned.
-/

namespace Dhara.Lifecycle

open Dhara.Store Dhara.Pool

variable {index : Nat}

/-! ## Goroutines and workers -/

/-- `WorkersActive` counts the goroutine. -/
def Goroutine.active (goroutine : Goroutine) : Bool :=
  match goroutine.loop with
  | .ready | .busy | .idle => true
  | .spawned | .returned => false

/-- The worker executes a task that has a handler. -/
def executing (worker : Worker) : Bool :=
  match worker.phase with
  | .running _ _ _ => true
  | .persisting _ task _ _ => worker.registry task.type
  | _ => false

/-- The goroutine is where its worker is. -/
def Goroutine.Fits (goroutine : Goroutine) (worker : Worker) : Prop :=
  match worker.phase with
  | .polling => goroutine.loop ≠ .busy
  | .running _ task _ =>
      goroutine.loop = .busy ∧ worker.registry task.type = true
  | .gone => False
  | _ => goroutine.loop = .busy

/-- The write that ends the execution of the claim has returned. -/
def Recorded (system : State) (claim : Nat) : Prop :=
  ∃ task session,
    .persisted claim task session ∈ system.events ∧
      ¬ system.store.InProgress session

/-- The claim whose task the worker executes. -/
def executed (worker : Worker) : Option Nat :=
  match worker.phase with
  | .running claim _ _ => some claim
  | .persisting claim _ _ _ => some claim
  | _ => none

/-- Every claim is executed by the worker or was recorded. -/
def Goroutine.Accounted (goroutine : Goroutine) (system : State)
    (worker : Worker) : Prop :=
  ∀ claim ∈ goroutine.taken,
    executed worker = some claim ∨ Recorded system claim

/-- The goroutines of a pool agree with its workers. -/
structure Running.Linked (running : Running) (system : State) : Prop where
  stands :
    ∀ position goroutine,
      running.goroutines[position]? = some goroutine →
        ∃ worker,
          system.workers[running.first + position]? = some worker ∧
            worker.process = running.pool ∧ goroutine.Fits worker ∧
            goroutine.Accounted system worker
  sole :
    ∀ index worker, system.workers[index]? = some worker →
      worker.process = running.pool →
        ∃ position goroutine, index = running.first + position ∧
          running.goroutines[position]? = some goroutine

/-- The process with the index has started its pool. -/
structure Host.Runs (host : Host) (index : Nat) (process : Process)
    (running : Running) : Prop where
  found : host.processes[index]? = some process
  runs : process.running = some running

/-- The processes agree with the system of worker pools. -/
structure Host.Linked (platform : Platform) (host : Host) : Prop where
  tracked : Tracked platform host.system
  owned :
    ∀ worker ∈ host.system.workers, worker.process < host.system.pools.length
  known :
    ∀ {index process running}, host.Runs index process running →
      running.pool < host.system.pools.length
  apart :
    ∀ {index other process second running resumed},
      host.Runs index process running →
      host.Runs other second resumed →
      running.pool = resumed.pool → index = other
  linked :
    ∀ {index process running}, host.Runs index process running →
      process.alive = true → running.Linked host.system

section Links

variable {platform : Platform} {system later : State} {step : Step}
  {resumed : Running}

theorem Recorded.moves {claim : Nat} (recorded : Recorded system claim)
    (tracked : Tracked platform system)
    (moves : system.Moves platform step later) :
    Recorded later claim := by
  rcases recorded with ⟨task, session, member, ended⟩
  refine ⟨task, session, moves.events member, ?_⟩
  intro running
  rcases moves.inProgress running with old | ⟨_, fresh, _, _⟩
  · exact ended old
  · rcases tracked.persisted claim task session member with
      ⟨⟨_, _, called, _⟩, _⟩
    have below := called.lt
    omega

theorem Goes.tracked (goes : Goes platform system later)
    (tracked : Tracked platform system) : Tracked platform later := by
  rcases goes with rfl | ⟨step, stepped⟩
  · exact tracked
  · exact tracked.keep (State.step_moves stepped)

theorem Goes.recorded (goes : Goes platform system later)
    (tracked : Tracked platform system) {claim : Nat}
    (recorded : Recorded system claim) : Recorded later claim := by
  rcases goes with rfl | ⟨step, stepped⟩
  · exact recorded
  · exact recorded.moves tracked (State.step_moves stepped)

/-- The workers of the pool are the same. -/
def SameWorkers (pool : Nat) (system later : State) : Prop :=
  ∀ (index : Nat) (worker : Worker), worker.process = pool →
    (later.workers[index]? = some worker ↔
      system.workers[index]? = some worker)

theorem sameWorkers_of_eq {pool : Nat}
    (workers : later.workers = system.workers) :
    SameWorkers pool system later := by
  intro index worker _
  rw [workers]

/-- A step that leaves the workers of the pool alone. -/
theorem Running.Linked.frame {running : Running}
    (linked : running.Linked system) (goes : Goes platform system later)
    (tracked : Tracked platform system)
    (same : SameWorkers running.pool system later)
    (pool : resumed.pool = running.pool)
    (first : resumed.first = running.first)
    (goroutines : resumed.goroutines = running.goroutines) :
    resumed.Linked later := by
  constructor
  · intro position goroutine located
    rw [goroutines] at located
    rw [first, pool]
    rcases linked.stands position goroutine located with
      ⟨worker, stands, mine, fits, accounted⟩
    refine ⟨worker, (same _ worker mine).mpr stands, mine, fits, ?_⟩
    intro claim member
    exact (accounted claim member).imp id (goes.recorded tracked)
  · intro index worker stands mine
    rw [pool] at mine
    rw [first, goroutines]
    exact linked.sole index worker ((same index worker mine).mp stands) mine

/-! ## The step of a goroutine -/

section Turns

variable {goroutine after : Goroutine} {canceled : Bool}
  {worker : Worker} {move : Move} {phase : Phase} {metrics : Metrics}

section

variable
    (turns :
      goroutine.Turns canceled worker system.store move after phase metrics)

include turns

theorem Goroutine.Turns.fits
    (fits : goroutine.Fits worker) :
    after.Fits { worker with phase } := by
  cases turns with
  | took claim task loop before returned =>
      unfold Worker.execute
      split
      · exact ⟨loop, ‹_›⟩
      · exact loop
  | finish handled nextRunAt duration claim task heartbeat loop before =>
      exact loop
  | beatRunning move claim task heartbeat later beat loop before =>
      simp only [Goroutine.Fits, before] at fits
      exact fits
  | beatPersisting move claim task heartbeat later session beat loop
      before => exact loop
  | claim loop lasting before => rfl
  | settle | left | empty | failed => simp [Goroutine.Fits]
  | begin loop | declined loop | poll loop | quit loop =>
      unfold Goroutine.Fits at fits ⊢
      cases before : worker.phase <;> simp_all

/-- The metrics follow the loop. -/
theorem Goroutine.Turns.active :
    metrics.workersActive =
      (if after.active then 1 else 0) -
        if goroutine.active then 1 else 0 := by
  cases turns <;> simp_all [Goroutine.active]

/-- The metrics follow the phase of the worker. -/
theorem Goroutine.Turns.executing
    (fits : goroutine.Fits worker) :
    metrics.workersInflight =
      (if executing { worker with phase } then 1 else 0) -
        if executing worker then 1 else 0 := by
  cases turns with
  | took claim task loop before returned =>
      cases registered : worker.registry task.type <;>
        simp [Lifecycle.executing, Worker.execute, before, registered]
  | settle claim task heartbeat session result loop before returned =>
      cases registered : worker.registry task.type <;>
        simp [Lifecycle.executing, before, registered]
  | finish handled nextRunAt duration claim task heartbeat loop before =>
      simp only [Goroutine.Fits, before] at fits
      simp [Lifecycle.executing, before, fits.2]
  | begin loop | declined loop | poll loop | quit loop =>
      cases before : worker.phase <;>
        simp_all [Goroutine.Fits, Lifecycle.executing]
  | beatPersisting move claim task heartbeat later session beat loop
      before =>
      cases registered : worker.registry task.type <;>
        simp [Lifecycle.executing, before, registered]
  | claim | left | empty | failed | beatRunning =>
      simp_all [Lifecycle.executing]

/-- A claim leaves the worker only when its write has returned. -/
theorem Goroutine.Turns.accounted
    (ok : worker.Ok system.store system.events)
    (accounted : goroutine.Accounted system worker) :
    after.Accounted system { worker with phase } := by
  have same :
      after.taken = goroutine.taken →
        (∀ claim, executed worker = some claim →
          executed { worker with phase } = some claim ∨
            Recorded system claim) →
        after.Accounted system { worker with phase } := by
    intro taken kept claim member
    rw [taken] at member
    rcases accounted claim member with current | recorded
    · exact kept claim current
    · exact Or.inr recorded
  cases turns with
  | took claim task loop before returned =>
      intro taken member
      rcases List.mem_append.mp member with old | fresh
      · refine Or.inr ?_
        rcases accounted taken old with current | recorded
        · simp [executed, before] at current
        · exact recorded
      · rw [List.mem_singleton.mp fresh]
        refine Or.inl ?_
        unfold Worker.execute
        split <;> rfl
  | settle claim task heartbeat session result loop before returned =>
      refine same rfl ?_
      intro current held
      simp only [executed, before, Option.some.injEq] at held
      subst held
      simp only [Worker.Ok, before] at ok
      exact Or.inr ⟨task, session, ok.2.2, callResult_ended returned⟩
  | begin loop | declined loop | poll loop | quit loop =>
      exact same rfl fun _ held => Or.inl held
  | claim loop lasting before | left claim loop ended before
  | empty claim loop lasting before
  | failed claim result loop lasting before =>
      refine same rfl ?_
      intro current held
      simp [executed, before] at held
  | finish handled nextRunAt duration claim task heartbeat loop before =>
      refine same rfl ?_
      intro current held
      simp only [executed, before] at held
      exact Or.inl held
  | beatRunning move claim task heartbeat later beat loop before =>
      refine same rfl ?_
      intro current held
      simp only [executed, before] at held
      exact Or.inl held
  | beatPersisting move claim task heartbeat later session beat loop
      before =>
      refine same rfl ?_
      intro current held
      simp only [executed, before] at held
      exact Or.inl held

end

end Turns

/-! ## The step of a process -/

section Processes

variable {process after : Process} {running : Running}

/-- The links of a pool after a step of one of its goroutines. -/
theorem Running.Linked.worked {position : Nat} {move : Move}
    {goroutine turned : Goroutine} {worker : Worker} {phase : Phase}
    {metrics : Metrics} (linked : running.Linked system)
    (tracked : Tracked platform system)
    (worked :
      process.Worked platform running system later position move
        goroutine turned worker phase metrics) :
    Running.Linked
      { running with
        goroutines := running.goroutines.set position turned } later := by
  have goes := worked.goes
  rcases linked.stands position goroutine worked.located with
    ⟨current, found, mine, fits, accounted⟩
  rw [worked.stands] at found
  cases found
  have ok := tracked.ok worker (List.mem_of_getElem? worked.stands)
  constructor
  · intro index other placed
    rw [List.getElem?_set] at placed
    split_ifs at placed with same inside
    · cases placed
      subst same
      refine ⟨{ worker with phase }, ?_, mine, worked.turns.fits fits, ?_⟩
      · rw [worked.workers]
        exact getElem?_set_some worked.stands
      · intro claim member
        exact (worked.turns.accounted ok accounted claim member).imp id
          (goes.recorded tracked)
    · rcases linked.stands index other placed with
        ⟨beside, kept, his, fitted, counted⟩
      have apart : running.first + position ≠ running.first + index :=
        fun equal => same (Nat.add_left_cancel equal)
      refine ⟨beside, ?_, his, fitted, ?_⟩
      · rw [worked.workers, List.getElem?_set_ne apart]
        exact kept
      · intro claim member
        exact (counted claim member).imp id (goes.recorded tracked)
  · intro index other placed his
    by_cases same : running.first + position = index
    · refine ⟨position, turned, same.symm, ?_⟩
      exact getElem?_set_some worked.located
    · rw [worked.workers, List.getElem?_set_ne same] at placed
      rcases linked.sole index other placed his with
        ⟨place, thread, equal, kept⟩
      refine ⟨place, thread, equal, ?_⟩
      rw [List.getElem?_set_ne ?_]
      · exact kept
      · rintro rfl
        exact same equal.symm

/-- The workers that are started with a pool. -/
theorem getElem?_started {settings : Settings} {registry : GoString → Bool}
    {workers : List Worker} {pool : Nat} :
    (workers ++ settings.workers registry pool)[index]? =
      if index < workers.length then workers[index]?
      else if index - workers.length < settings.concurrency.toNat then
        some
          { workerID :=
              workerName settings.workerPrefix (index - workers.length)
            registry
            process := pool }
      else none := by
  rw [List.getElem?_append]
  split
  · rfl
  · simp only [Settings.workers, List.getElem?_map]
    split
    · rename_i inside
      rw [List.getElem?_range inside]
      rfl
    · rename_i outside
      rw [List.getElem?_eq_none (by simpa using outside)]
      rfl

/-- The links of a pool that was just started. -/
theorem Running.linked_started {settings : Settings}
    {registry : GoString → Bool} {ctxDone : Bool}
    (owned : ∀ worker ∈ system.workers, worker.process < system.pools.length)
    (workers :
      later.workers =
        system.workers ++ settings.workers registry system.pools.length) :
    Running.Linked
      { pool := system.pools.length
        first := system.workers.length
        ctxDone
        goroutines := List.replicate settings.concurrency.toNat {} }
      later := by
  constructor
  · intro position goroutine located
    rw [List.getElem?_replicate] at located
    split_ifs at located with inside
    cases located
    refine
      ⟨{ workerID := workerName settings.workerPrefix position
         registry
         process := system.pools.length }, ?_, rfl, ?_, ?_⟩
    · rw [workers, getElem?_started]
      simp [inside]
    · simp [Goroutine.Fits]
    · rintro claim ⟨⟩
  · intro index worker stands mine
    rw [workers, getElem?_started] at stands
    split_ifs at stands with old fresh
    · have below := owned worker (List.mem_of_getElem? stands)
      exact absurd mine below.ne
    · refine ⟨index - system.workers.length, {}, ?_, ?_⟩
      · show index =
          system.workers.length + (index - system.workers.length)
        omega
      · simp [fresh]

/-- A pool whose process stops. -/
theorem step_stop {pool : Nat}
    (stepped : system.step platform (.stop pool) = some later) :
    later.pools.length = system.pools.length ∧
      later.workers = system.workers.map (Worker.stopped pool) := by
  simp only [State.step] at stepped
  split at stepped
  · cases stepped
  · split_ifs at stepped
    cases stepped
    exact ⟨List.length_set, rfl⟩

variable {turn : Option (Nat × Move)}
  (moves : process.Moves platform system turn after later)

include moves

/-- No pool is removed, and every worker belongs to one. -/
theorem Process.Moves.owned
    (owned :
      ∀ worker ∈ system.workers, worker.process < system.pools.length) :
    system.pools.length ≤ later.pools.length ∧
      ∀ worker ∈ later.workers, worker.process < later.pools.length := by
  cases moves with
  | paced paced => exact ⟨le_rfl, owned⟩
  | started fresh pools workers goes =>
      rw [pools, workers, List.length_append, List.length_singleton]
      refine ⟨Nat.le_succ _, ?_⟩
      intro worker member
      rcases List.mem_append.mp member with old | fresh
      · exact Nat.lt_succ_of_lt (owned worker old)
      · rcases List.mem_map.mp fresh with ⟨_, _, rfl⟩
        exact Nat.lt_succ_self _
  | @worked _ _ _ _ _ worker _ _ _ worked =>
      rw [worked.pools, worked.workers]
      refine ⟨le_rfl, ?_⟩
      intro other member
      rcases List.mem_or_eq_of_mem_set member with old | rfl
      · exact owned other old
      · exact owned worker (List.mem_of_getElem? worked.stands)
  | reaped runs active failures pools workers goes =>
      rw [pools, workers]
      exact ⟨le_rfl, owned⟩
  | exited left =>
      rcases left with ⟨_, rfl⟩ | ⟨running, runs, stepped⟩
      · exact ⟨le_rfl, owned⟩
      · rw [(step_stop stepped).1, (step_stop stepped).2]
        refine ⟨le_rfl, ?_⟩
        intro worker member
        rcases List.mem_map.mp member with ⟨before, old, rfl⟩
        unfold Worker.stopped
        split <;> exact owned before old

/-- A process keeps its pool, and a pool that is started is new. -/
theorem Process.Moves.pool (continues : after.running = some resumed) :
    (∃ running, process.running = some running ∧
      resumed.pool = running.pool) ∨
      resumed.pool = system.pools.length ∧
        system.pools.length < later.pools.length := by
  cases moves with
  | paced paced =>
      rcases paced.running with ⟨_, none⟩ | ⟨running, _, runs, goesOn, same⟩
      · rw [none] at continues
        cases continues
      · rw [goesOn] at continues
        cases continues
        exact Or.inl ⟨running, runs, same.pool⟩
  | started fresh pools workers goes =>
      cases continues
      exact Or.inr ⟨rfl, by simp [pools]⟩
  | worked worked =>
      cases continues
      exact Or.inl ⟨_, worked.runs, rfl⟩
  | reaped runs active failures pools workers goes =>
      cases continues
      exact Or.inl ⟨_, runs, rfl⟩
  | exited left => exact Or.inl ⟨resumed, continues, rfl⟩

/-- A process does not concern the workers of another pool. -/
theorem Process.Moves.sameWorkers {pool : Nat}
    (linked :
      ∀ running, process.running = some running → process.alive = true →
        running.Linked system)
    (known : pool < system.pools.length)
    (apart :
      ∀ running, process.running = some running → running.pool ≠ pool) :
    SameWorkers pool system later := by
  intro place his mine
  cases moves with
  | paced paced => exact Iff.rfl
  | started fresh pools workers goes =>
      rw [workers, getElem?_started]
      split_ifs with old fresh
      · exact Iff.rfl
      · rw [List.getElem?_eq_none (Nat.le_of_not_lt old)]
        constructor
        · intro equal
          cases equal
          exact absurd mine known.ne'
        · rintro ⟨⟩
      · simp [List.getElem?_eq_none (Nat.le_of_not_lt old)]
  | @worked running position _ _ _ worker _ _ _ worked =>
      rcases (linked _ worked.runs worked.alive).stands _ _
        worked.located with ⟨current, found, own, _, _⟩
      rw [worked.stands] at found
      cases found
      have other : worker.process ≠ his.process :=
        fun equal => apart _ worked.runs (own.symm.trans (equal.trans mine))
      rw [worked.workers]
      by_cases same : running.first + position = place
      · subst same
        rw [getElem?_set_some worked.stands, worked.stands]
        constructor <;> rintro ⟨⟩ <;> exact absurd rfl other
      · rw [List.getElem?_set_ne same]
  | reaped runs active failures pools workers goes => rw [workers]
  | exited left =>
      rcases left with ⟨_, rfl⟩ | ⟨running, runs, stepped⟩
      · exact Iff.rfl
      · have other : his.process ≠ running.pool :=
          fun equal => apart running runs (equal.symm.trans mine)
        rw [(step_stop stepped).2, List.getElem?_map, Option.map_eq_some_iff]
        constructor
        · rintro ⟨before, stands, rfl⟩
          unfold Worker.stopped at other ⊢
          split_ifs at other ⊢ with stopped
          · exact absurd stopped other
          · exact stands
        · intro stands
          exact ⟨his, stands, if_neg other⟩

/-- The links of the pool after a step of its process. -/
theorem Process.Moves.linked (tracked : Tracked platform system)
    (owned : ∀ worker ∈ system.workers, worker.process < system.pools.length)
    (linked :
      ∀ running, process.running = some running → process.alive = true →
        running.Linked system)
    (continues : after.running = some resumed)
    (alive : after.alive = true) : resumed.Linked later := by
  cases moves with
  | paced paced =>
      rcases paced.running with ⟨_, none⟩ | ⟨running, _, runs, goesOn, same⟩
      · rw [none] at continues
        cases continues
      · rw [goesOn] at continues
        cases continues
        exact (linked running runs (paced.alive ▸ alive)).frame
          (Or.inl rfl) tracked (sameWorkers_of_eq rfl) same.pool same.first
          same.goroutines
  | started fresh pools workers goes =>
      cases continues
      exact Running.linked_started owned workers
  | worked worked =>
      cases continues
      exact (linked _ worked.runs worked.alive).worked tracked worked
  | reaped runs active failures pools workers goes =>
      cases continues
      exact (linked _ runs alive).frame goes tracked
        (sameWorkers_of_eq workers) rfl rfl rfl
  | exited left => cases alive

end Processes

end Links

/-! ## Every state -/

section Hosts

variable {platform : Platform} {host next : Host} {label : Label}

/-- A process after a step of one of them. -/
theorem Host.runs_set {system : State} {other : Nat} {later second : Process}
    {running : Running}
    (runs :
      Host.Runs { system, processes := host.processes.set index later }
        other second running) :
    (other = index ∧ second = later ∧ later.running = some running) ∨
      other ≠ index ∧ host.Runs other second running := by
  have place := runs.found
  rw [List.getElem?_set] at place
  split_ifs at place with same inside
  · cases place
    exact Or.inl ⟨same.symm, rfl, runs.runs⟩
  · exact Or.inr ⟨fun equal => same equal.symm, place, runs.runs⟩

/-- The workers of the other processes stay. -/
theorem Host.Linked.sameWorkers {other : Nat} {process later second : Process}
    {running : Running} {turn : Option (Nat × Move)} {system : State}
    (ok : host.Linked platform)
    (found : host.processes[index]? = some process)
    (moves : process.Moves platform host.system turn later system)
    (different : other ≠ index) (runs : host.Runs other second running) :
    SameWorkers running.pool host.system system :=
  moves.sameWorkers
    (fun _ goesOn => ok.linked ⟨found, goesOn⟩) (ok.known runs)
    fun _ goesOn same => different (ok.apart runs ⟨found, goesOn⟩ same.symm)

theorem Host.Linked.took {process later : Process}
    {turn : Option (Nat × Move)} {system : State} (ok : host.Linked platform)
    (found : host.processes[index]? = some process)
    (moves : process.Moves platform host.system turn later system) :
    Host.Linked platform
      { system, processes := host.processes.set index later } := by
  rcases moves.owned ok.owned with ⟨pools, owned⟩
  have origin :
      ∀ {other second running},
        Host.Runs { system, processes := host.processes.set index later }
            other second running →
          (∃ process before, host.Runs other process before ∧
            running.pool = before.pool) ∨
            other = index ∧ running.pool = host.system.pools.length ∧
              host.system.pools.length < system.pools.length := by
    intro other second running runs
    rcases Host.runs_set runs with ⟨rfl, rfl, resumed⟩ | ⟨_, before⟩
    · rcases moves.pool resumed with ⟨before, ran, same⟩ | fresh
      · exact Or.inl ⟨process, before, ⟨found, ran⟩, same⟩
      · exact Or.inr ⟨rfl, fresh⟩
    · exact Or.inl ⟨second, running, before, rfl⟩
  refine ⟨moves.goes.tracked ok.tracked, owned, ?_, ?_, ?_⟩
  · intro other second running runs
    rcases origin runs with ⟨_, before, ran, same⟩ | ⟨_, same, below⟩
    · rw [same]
      exact lt_of_lt_of_le (ok.known ran) pools
    · rw [same]
      exact below
  · intro first other process second running resumed runs goesOn same
    rcases origin runs with ⟨_, _, ran, former⟩ | ⟨mine, fresh, _⟩
    · rcases origin goesOn with
        ⟨_, _, continued, latter⟩ | ⟨_, fresh, _⟩
      · exact ok.apart ran continued (former.symm.trans (same.trans latter))
      · have below := ok.known ran
        omega
    · rcases origin goesOn with
        ⟨_, _, continued, latter⟩ | ⟨his, _, _⟩
      · have below := ok.known continued
        omega
      · exact mine.trans his.symm
  · intro other second running runs alive
    rcases Host.runs_set runs with
      ⟨rfl, rfl, resumed⟩ | ⟨different, before⟩
    · exact moves.linked ok.tracked ok.owned
        (fun _ goesOn => ok.linked ⟨found, goesOn⟩) resumed alive
    · exact (ok.linked before alive).frame moves.goes ok.tracked
        (ok.sameWorkers found moves different before) rfl rfl rfl

theorem Host.Linked.moves (ok : host.Linked platform)
    (moves : host.Moves platform label next) : next.Linked platform := by
  cases moves with
  | created settings =>
      have before :
          ∀ {index process running},
            Host.Runs
                { host with
                  processes := host.processes ++ [{ settings }] }
                index process running →
              host.Runs index process running := by
        intro index process running runs
        rcases getElem?_concat_some runs.found with old | ⟨_, rfl⟩
        · exact ⟨old, runs.runs⟩
        · cases runs.runs
      exact ⟨ok.tracked, ok.owned, fun runs => ok.known (before runs),
        fun runs goesOn => ok.apart (before runs) (before goesOn),
        fun runs => ok.linked (before runs)⟩
  | took found mine moves =>
      exact ok.took found moves
  | served still pools workers goes =>
      refine ⟨goes.tracked ok.tracked, ?_, ?_, ?_, ?_⟩
      · rw [workers, pools]
        exact ok.owned
      · intro index process running runs
        rw [pools]
        exact ok.known ⟨runs.found, runs.runs⟩
      · intro index other process second running resumed runs goesOn
        exact ok.apart ⟨runs.found, runs.runs⟩ ⟨goesOn.found, goesOn.runs⟩
      · intro index process running runs living
        exact (ok.linked ⟨runs.found, runs.runs⟩ living).frame goes
          ok.tracked (sameWorkers_of_eq workers) rfl rfl rfl

theorem Host.linked_start : Host.Linked platform {} where
  tracked := tracked_start
  owned := by rintro worker ⟨⟩
  known := by
    rintro index process running ⟨⟨⟩, _⟩
  apart := by
    rintro index other process second running resumed ⟨⟨⟩, _⟩
  linked := by
    rintro index process running ⟨⟨⟩, _⟩

theorem run_linked {labels : List Label} {final : Host}
    (ran : (machine platform).run {} labels = some final) :
    final.Linked platform :=
  run_moves (Host.Linked platform) (fun _ _ _ ok moves => ok.moves moves)
    Host.linked_start ran

end Hosts

end Dhara.Lifecycle
