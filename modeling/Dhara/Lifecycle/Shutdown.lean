import Dhara.Lifecycle.Links

/-!
# Gauges and shutdown

The gauges of a worker process are exact at every moment: `WorkersActive`
counts the loops that have begun and have not returned, and `WorkersInflight`
the executions of handlers.

When `Start` returns nil, the loops of the workers and the reaper of the pool
have returned, and the outcome of every task that they have executed was
persisted.  Once the context
of the pool has ended, a goroutine takes at most four more steps besides its
heartbeats, and the only task it may still take is that of a claim which was
already sent.
-/

namespace Dhara.Lifecycle

open Dhara.Store Dhara.Pool

/-! ## A run -/

/-- The server answers a call the given number of times. -/
def serves (session count : Nat) : List Label :=
  List.replicate count (.serve session (calm 7 0 0))

/-- A worker has sent its claim when the context of its pool ends. -/
def sentRun : List Label :=
  [.create {}, .register 0 (ascii "email"),
    .call (.create (emailTask []))] ++ serves 0 4 ++
    [.start 0 false, .work 0 0 .begin, .work 0 0 .claim, .cancel 0]

/-- The claim succeeds, and the handler is called. -/
def takenRun : List Label :=
  serves 1 5 ++ [.work 0 0 .receive]

/-- The outcome of the handler is persisted, and `Start` returns. -/
def joinedRun : List Label :=
  [.wake 0 0, .work 0 0 (.finish (.returned none) 0 5)] ++ serves 2 5 ++
    [.work 0 0 .settle, .work 0 0 .claim, .reap 0 .quit, .join 0 0]

section Hosts

variable {platform : Platform} {host next : Host} {label : Label}

variable {goroutine : Goroutine} {turn : Option (Nat × Move)}
  {process : Process} {running : Running} {worker : Worker} {system : State}
  {position index : Nat}

/-! ## Gauges -/

/-- The worker belongs to the pool and executes a handler. -/
def executesFor (pool : Nat) (worker : Worker) : Bool :=
  decide (worker.process = pool) && executing worker

/-- The gauges of a process are exact. -/
structure Process.Gauged (process : Process) (system : State) : Prop where
  active :
    process.metrics.workersActive =
      process.running.elim 0 fun running =>
        (running.goroutines.countP Goroutine.active : Int)
  inflight :
    process.alive = true →
      process.metrics.workersInflight =
        process.running.elim 0 fun running =>
          (system.workers.countP (executesFor running.pool) : Int)

/-- The gauges count nothing that a step of another process changes. -/
theorem Process.Gauged.beside {after : State} (gauged : process.Gauged system)
    (same :
      ∀ running, process.running = some running →
        process.alive = true → SameWorkers running.pool system after) :
    process.Gauged after := by
  refine ⟨gauged.active, ?_⟩
  intro alive
  rw [gauged.inflight alive]
  cases runs : process.running with
  | none => rfl
  | some running =>
      have counted :
          after.workers.countP (executesFor running.pool) =
            system.workers.countP (executesFor running.pool) := by
        refine countP_eq_of_getElem? ?_
        intro place worker executes
        refine same running runs alive place worker ?_
        exact of_decide_eq_true (Bool.and_eq_true_iff.mp executes).1
      rw [Option.elim_some, Option.elim_some, counted]

/-- A goroutine moves the gauges as it moves its loop and its worker. -/
theorem Process.Gauged.worked {after : State} {move : Move}
    {later : Goroutine} {phase : Phase} {metrics : Metrics}
    (gauged : process.Gauged system) (linked : running.Linked system)
    (worked :
      process.Worked platform running system after position move
        goroutine later worker phase metrics) :
    Process.Gauged
      { process with
        running :=
          some
            { running with
              goroutines := running.goroutines.set position later }
        metrics := process.metrics + metrics }
      after := by
  rcases linked.stands position goroutine worked.located with
    ⟨current, same, mine, fits, _⟩
  rw [worked.stands] at same
  cases same
  constructor
  · show process.metrics.workersActive + metrics.workersActive =
      ((running.goroutines.set position later).countP _ : Int)
    rw [countP_set_int worked.located, gauged.active, worked.runs,
      worked.turns.active, Option.elim_some]
  · intro alive
    show process.metrics.workersInflight + metrics.workersInflight =
      (after.workers.countP _ : Int)
    rw [worked.workers, countP_set_int worked.stands,
      gauged.inflight alive, worked.runs, worked.turns.executing fits]
    simp [executesFor, mine]

theorem Process.Gauged.moves {later : Process} {after : State}
    (gauged : process.Gauged system)
    (owned : ∀ worker ∈ system.workers, worker.process < system.pools.length)
    (linked :
      ∀ running, process.running = some running → process.alive = true →
        running.Linked system)
    (moves : process.Moves platform system turn later after) :
    later.Gauged after := by
  cases moves with
  | paced paced =>
      rcases paced.running with
        ⟨none, gone⟩ | ⟨running, resumed, runs, goesOn, same⟩
      · constructor
        · rw [paced.metrics, gauged.active, none, gone]
        · rw [paced.metrics, paced.alive, gone, ← none]
          exact gauged.inflight
      · constructor
        · rw [paced.metrics, gauged.active, runs, goesOn,
            Option.elim_some, Option.elim_some, same.goroutines]
        · intro alive
          rw [paced.metrics, gauged.inflight (paced.alive ▸ alive), runs,
            goesOn, Option.elim_some, Option.elim_some, same.pool]
  | started fresh pools workers goes =>
      constructor
      · rw [gauged.active, fresh, Option.elim_some, List.countP_eq_zero.mpr]
        · rfl
        · intro goroutine member
          rw [List.eq_of_mem_replicate member]
          simp [Goroutine.active]
      · intro alive
        rw [gauged.inflight alive, fresh, Option.elim_some,
          List.countP_eq_zero.mpr]
        · rfl
        · intro worker member
          rw [workers] at member
          rcases List.mem_append.mp member with old | new
          · simp [executesFor, (owned worker old).ne]
          · rcases List.mem_map.mp new with ⟨_, _, rfl⟩
            simp [executesFor, executing]
  | worked worked =>
      exact gauged.worked (linked _ worked.runs worked.alive) worked
  | reaped runs active failures pools workers goes =>
      rw [failures]
      constructor
      · have counted := gauged.active
        rw [runs] at counted
        exact (Int.add_zero _).trans counted
      · intro alive
        have counted := gauged.inflight alive
        rw [runs, ← workers] at counted
        exact (Int.add_zero _).trans counted
  | exited left => exact ⟨gauged.active, by rintro ⟨⟩⟩

theorem gauged_moves (ok : host.Linked platform)
    (gauged : ∀ process ∈ host.processes, process.Gauged host.system)
    (moves : host.Moves platform label next) :
    ∀ process ∈ next.processes, process.Gauged next.system := by
  intro second member
  cases moves with
  | created settings =>
      rcases List.mem_append.mp member with old | fresh
      · exact gauged second old
      · rw [List.mem_singleton.mp fresh]
        exact ⟨rfl, fun _ => rfl⟩
  | took found mine moves =>
      rcases (mem_set_iff found).mp member with
        rfl | ⟨other, different, located⟩
      · exact (gauged _ (List.mem_of_getElem? found)).moves ok.owned
          (fun _ goesOn => ok.linked ⟨found, goesOn⟩) moves
      · refine (gauged second (List.mem_of_getElem? located)).beside ?_
        intro running runs _
        exact ok.sameWorkers found moves different ⟨located, runs⟩
  | served still pools workers goes =>
      exact (gauged second member).beside
        fun _ _ _ => sameWorkers_of_eq workers

theorem run_gauged {labels : List Label} {final : Host}
    (ran : (machine platform).run {} labels = some final) :
    final.Linked platform ∧
      ∀ process ∈ final.processes, process.Gauged final.system := by
  refine run_moves
    (fun host =>
      host.Linked platform ∧
        ∀ process ∈ host.processes, process.Gauged host.system) ?_
    ⟨Host.linked_start, by rintro process ⟨⟩⟩ ran
  rintro host label next ⟨ok, gauged⟩ moves
  exact ⟨ok.moves moves, gauged_moves ok gauged moves⟩

/--
At every moment of every run the gauges of a live worker process are exact:
`WorkersActive` is the number of its loops that have begun and have not
returned, and `WorkersInflight` the number of its workers that execute a task
with a handler or persist its outcome.
-/
theorem gauges_exact {labels : List Label} {final : Host}
    (ran : (machine platform).run {} labels = some final)
    {index : Nat} {process : Process} {running : Running}
    (runs : final.Runs index process running)
    (alive : process.alive = true) :
    process.metrics.workersActive =
        running.goroutines.countP Goroutine.active ∧
      process.metrics.workersInflight =
        final.system.workers.countP (executesFor running.pool) := by
  have gauged := (run_gauged ran).2 process (List.mem_of_getElem? runs.found)
  constructor
  · rw [gauged.active, runs.runs, Option.elim_some]
  · rw [gauged.inflight alive, runs.runs, Option.elim_some]

theorem takenRun_gauges :
    ∃ final process,
      (machine echoPlatform).run {} (sentRun ++ takenRun) = some final ∧
        final.processes[0]? = some process ∧
        process.metrics.workersActive = 1 ∧
        process.metrics.workersInflight = 1 := by
  have reached :
      ((machine echoPlatform).run {} (sentRun ++ takenRun)).any
          (fun final =>
            final.processes[0]?.any fun process =>
              process.alive &&
                process.running.any fun running =>
                  running.goroutines.countP Goroutine.active == 1 &&
                    final.system.workers.countP
                      (executesFor running.pool) == 1) =
        true := by
    decide +kernel
  rcases (Option.any_eq_true _ _).mp reached with ⟨final, ran, holds⟩
  rcases (Option.any_eq_true _ _).mp holds with ⟨process, found, lives⟩
  rcases Bool.and_eq_true_iff.mp lives with ⟨alive, works⟩
  rcases (Option.any_eq_true _ _).mp works with ⟨running, runs, counts⟩
  rcases Bool.and_eq_true_iff.mp counts with ⟨active, inflight⟩
  have gauges := gauges_exact ran ⟨found, runs⟩ alive
  rw [beq_iff_eq.mp active, beq_iff_eq.mp inflight] at gauges
  exact ⟨final, process, ran, found, gauges⟩

/-! ## The return of `Start` -/

/-- A call of `Start` has returned nil only if the pool has drained. -/
def Process.Joined (process : Process) : Prop :=
  .returned none ∈ process.callers →
    ∃ running, process.running = some running ∧ running.drained = true

theorem Running.drained_iff :
    running.drained = true ↔
      running.reaper = .returned ∧
        ∀ goroutine ∈ running.goroutines, goroutine.loop = .returned := by
  simp [Running.drained]

/-- A goroutine that has returned takes no step. -/
theorem Goroutine.Turns.unreturned {after : Goroutine} {canceled : Bool}
    {store : StoreConfig} {move : Move} {phase : Phase} {metrics : Metrics}
    (turns : goroutine.Turns canceled worker store move after phase metrics) :
    goroutine.loop ≠ .returned := by
  cases turns <;> simp_all

theorem Process.Joined.moves {later : Process} {after : State}
    (joined : process.Joined)
    (moves : process.Moves platform system turn later after) :
    later.Joined := by
  intro returned
  cases moves with
  | paced paced =>
      rcases (paced.joined returned).elim joined id with
        ⟨running, runs, drained⟩
      rcases paced.running with
        ⟨none, _⟩ | ⟨_, resumed, same, goesOn, kept⟩
      · rw [runs] at none
        cases none
      · rw [runs] at same
        cases same
        refine ⟨resumed, goesOn, ?_⟩
        rw [Running.drained, kept.reaper, kept.goroutines]
        exact drained
  | started fresh pools workers goes =>
      rcases List.mem_append.mp returned with old | running
      · rcases joined old with ⟨running, runs, _⟩
        rw [fresh] at runs
        cases runs
      · simp at running
  | worked worked =>
      rcases joined returned with ⟨current, same, drained⟩
      rw [worked.runs] at same
      cases same
      exact absurd
        ((Running.drained_iff.mp drained).2 _
          (List.mem_of_getElem? worked.located)) worked.turns.unreturned
  | reaped runs active failures pools workers goes =>
      rcases joined returned with ⟨current, same, drained⟩
      rw [runs] at same
      cases same
      exact absurd (Running.drained_iff.mp drained).1 active
  | exited left => exact joined returned

/-- The worker of a loop that has returned rests. -/
theorem Goroutine.Fits.rests (fits : goroutine.Fits worker)
    (loop : goroutine.loop = .returned) :
    worker.phase = .polling := by
  cases phase : worker.phase <;> simp_all [Goroutine.Fits]

section Drained

variable {running : Running} {system : State}
    (linked : running.Linked system)
    (loops : ∀ goroutine ∈ running.goroutines, goroutine.loop = .returned)

include linked loops

theorem Running.Linked.rests (member : worker ∈ system.workers)
    (mine : worker.process = running.pool) : worker.phase = .polling := by
  rcases List.mem_iff_getElem?.mp member with ⟨place, stands⟩
  rcases linked.sole place worker stands mine with
    ⟨position, goroutine, rfl, located⟩
  rcases linked.stands position goroutine located with
    ⟨current, same, _, fits, _⟩
  rw [stands] at same
  cases same
  exact fits.rests (loops goroutine (List.mem_of_getElem? located))

theorem Running.Linked.recorded {claim : Nat}
    (member : goroutine ∈ running.goroutines)
    (taken : claim ∈ goroutine.taken) : Recorded system claim := by
  rcases List.mem_iff_getElem?.mp member with ⟨position, located⟩
  rcases linked.stands position goroutine located with
    ⟨worker, _, _, fits, accounted⟩
  rcases accounted claim taken with current | recorded
  · rw [executed, fits.rests (loops goroutine member)] at current
    cases current
  · exact recorded

end Drained

/--
Once a call of `Start` has returned nil, and from then on, the loops of the
workers and the reaper of the pool have returned, the gauges are zero, no
worker of the pool waits for the store or executes a task, and the outcome of
every task that was taken has been persisted: the call that does so has
returned.  `Start` does not wait for the goroutines that send heartbeats.
-/
theorem start_drains {labels : List Label} {final : Host}
    (ran : (machine platform).run {} labels = some final)
    {index : Nat} {process : Process}
    (found : final.processes[index]? = some process)
    (alive : process.alive = true)
    (returned : .returned none ∈ process.callers) :
    ∃ running,
      process.running = some running ∧ running.reaper = .returned ∧
        (∀ goroutine ∈ running.goroutines,
          goroutine.loop = .returned ∧
            ∀ claim ∈ goroutine.taken, Recorded final.system claim) ∧
        process.metrics.workersActive = 0 ∧
        process.metrics.workersInflight = 0 ∧
        ∀ worker ∈ final.system.workers,
          worker.process = running.pool → worker.phase = .polling := by
  have joined : ∀ process ∈ final.processes, process.Joined :=
    run_processes (fun _ => Process.Joined) (by rintro _ settings ⟨⟩)
      (fun joined _ => joined) Process.Joined.moves ran
  rcases joined process (List.mem_of_getElem? found) returned with
    ⟨running, runs, drained⟩
  rcases Running.drained_iff.mp drained with ⟨reaper, loops⟩
  rcases run_gauged ran with ⟨ok, gauges⟩
  have linked := ok.linked ⟨found, runs⟩ alive
  have gauged := gauges process (List.mem_of_getElem? found)
  have idle :
      ∀ worker ∈ final.system.workers, worker.process = running.pool →
        worker.phase = .polling :=
    fun _ member mine => linked.rests loops member mine
  refine ⟨running, runs, reaper, ?_, ?_, ?_, idle⟩
  · intro goroutine member
    exact ⟨loops goroutine member,
      fun _ taken => linked.recorded loops member taken⟩
  · rw [gauged.active, runs, Option.elim_some, List.countP_eq_zero.mpr]
    · rfl
    · intro goroutine member
      simp [Goroutine.active, loops goroutine member]
  · rw [gauged.inflight alive, runs, Option.elim_some,
      List.countP_eq_zero.mpr]
    · rfl
    · intro worker member
      by_cases mine : worker.process = running.pool
      · simp [executesFor, executing, idle worker member mine]
      · simp [executesFor, mine]

theorem joinedRun_drains :
    ∃ final process,
      (machine echoPlatform).run {} (sentRun ++ takenRun ++ joinedRun) =
          some final ∧
        final.processes[0]? = some process ∧
        process.metrics.workersActive = 0 ∧ Recorded final.system 1 := by
  have reached :
      ((machine echoPlatform).run {}
          (sentRun ++ takenRun ++ joinedRun)).any
          (fun final =>
            final.processes[0]?.any fun process =>
              process.alive && decide (.returned none ∈ process.callers) &&
                process.running.any fun running =>
                  running.goroutines.any fun goroutine =>
                    decide (1 ∈ goroutine.taken)) =
        true := by
    decide +kernel
  rcases (Option.any_eq_true _ _).mp reached with ⟨final, ran, holds⟩
  rcases (Option.any_eq_true _ _).mp holds with ⟨process, found, both⟩
  rcases Bool.and_eq_true_iff.mp both with ⟨lives, works⟩
  rcases Bool.and_eq_true_iff.mp lives with ⟨alive, returned⟩
  rcases (Option.any_eq_true _ _).mp works with ⟨running, runs, some⟩
  rcases List.any_eq_true.mp some with ⟨goroutine, member, taken⟩
  rcases start_drains ran found alive (of_decide_eq_true returned) with
    ⟨same, again, _, loops, active, _, _⟩
  rw [runs] at again
  cases again
  exact ⟨final, process, ran, found, active,
    (loops goroutine member).2 1 (of_decide_eq_true taken)⟩

/-! ## After the context has ended -/

/-- The steps that a goroutine has left once its context has ended. -/
def Goroutine.left (goroutine : Goroutine) (worker : Worker) : Nat :=
  match goroutine.loop with
  | .spawned => 2
  | .ready => 1
  | .idle => 2
  | .returned => 0
  | .busy =>
      match worker.phase with
      | .claiming _ => 4
      | .running _ _ _ => 3
      | .persisting _ _ _ _ => 2
      | _ => 0

/-- The claim that the worker has sent and whose task it may take. -/
def pending (worker : Worker) : List Nat :=
  match worker.phase with
  | .claiming claim => [claim]
  | _ => []

/-- A step of the heartbeat goroutine. -/
def Move.beats : Move → Bool
  | .tick | .beaten => true
  | _ => false

/-- A step of the goroutine with the position, and not a heartbeat. -/
def Label.moves (index position : Nat) : Label → Bool
  | .work process goroutine move =>
      process = index && goroutine = position && !move.beats
  | _ => false

theorem Goroutine.left_le (goroutine : Goroutine) (worker : Worker) :
    goroutine.left worker ≤ 4 := by
  unfold Goroutine.left
  split
  · decide
  · decide
  · decide
  · decide
  · split <;> decide

section Ending

variable {goroutine after : Goroutine} {worker : Worker}
  {store : StoreConfig} {move : Move} {phase : Phase} {metrics : Metrics}

/-- Every step but a heartbeat is one of the steps that are left. -/
theorem Goroutine.Turns.left_lt
    (turns : goroutine.Turns true worker store move after phase metrics) :
    after.left { worker with phase } + (if move.beats then 0 else 1) ≤
      goroutine.left worker := by
  cases turns with
  | took claim task loop before returned =>
      unfold Worker.execute
      split <;> simp [Goroutine.left, Move.beats, loop, before]
  | beatRunning move claim task heartbeat later beat loop before =>
      rcases beat with rfl | rfl <;>
        simp [Goroutine.left, Move.beats, loop, before]
  | beatPersisting move claim task heartbeat later session beat loop
      before =>
      rcases beat with rfl | rfl <;>
        simp [Goroutine.left, Move.beats, loop, before]
  | claim _ lasting | empty _ _ lasting | failed _ _ _ lasting =>
      cases lasting
  | begin | declined | left | finish | settle | poll | quit =>
      simp_all [Goroutine.left, Move.beats]

/-- No other task is taken than that of the claim that was sent. -/
theorem Goroutine.Turns.taken
    (turns : goroutine.Turns true worker store move after phase metrics) :
    (after.taken = goroutine.taken ∧
      (pending { worker with phase } = [] ∨
        pending { worker with phase } = pending worker)) ∨
      after.taken = goroutine.taken ++ pending worker ∧
        pending { worker with phase } = [] := by
  cases turns with
  | took claim task loop before returned =>
      refine Or.inr ⟨by simp [pending, before], ?_⟩
      unfold Worker.execute
      split <;> rfl
  | claim _ lasting | empty _ _ lasting | failed _ _ _ lasting =>
      cases lasting
  | begin | declined | poll | quit => exact Or.inl ⟨rfl, Or.inr rfl⟩
  | left | finish | settle | beatRunning | beatPersisting =>
      exact Or.inl ⟨rfl, Or.inl rfl⟩

end Ending

/-- Whether the goroutine takes the step, and the step is no heartbeat. -/
def steps (position : Nat) : Option (Nat × Move) → Nat
  | some (place, move) =>
      if place = position && !move.beats then 1 else 0
  | none => 0

/--
The context of the pool has ended, and the goroutine has at most so many steps
left and ends with one of the lists of claims.
-/
inductive Process.Ending (process : Process) (system : State)
    (position budget : Nat) (claims : List (List Nat)) : Prop where
  | intro (running : Running) (goroutine : Goroutine)
      (runs : process.running = some running)
      (canceled : running.canceled = true)
      (located : running.goroutines[position]? = some goroutine)
      (taken : goroutine.taken ∈ claims)
      (working :
        process.alive = true →
          ∃ worker,
            system.workers[running.first + position]? = some worker ∧
              goroutine.left worker ≤ budget ∧
              goroutine.taken ++ pending worker ∈ claims)

section Budget

variable {process later : Process} {system after : State}
  {position budget : Nat} {claims : List (List Nat)}

/-- A step that does not concern the goroutine. -/
theorem Process.Ending.stays {resumed : Running}
    (ending : process.Ending system position budget claims)
    (runs : process.running = some running)
    (goesOn : later.running = some resumed)
    (alive : later.alive = true → process.alive = true)
    (first : resumed.first = running.first)
    (canceled : running.canceled = true → resumed.canceled = true)
    (goroutines :
      resumed.goroutines[position]? = running.goroutines[position]?)
    (workers :
      ∀ worker, later.alive = true →
        system.workers[running.first + position]? = some worker →
          after.workers[running.first + position]? = some worker) :
    later.Ending after position budget claims := by
  rcases ending with
    ⟨current, goroutine, continues, ended, located, taken, working⟩
  rw [runs] at continues
  cases continues
  refine .intro resumed goroutine goesOn (canceled ended)
    (goroutines.trans located) taken ?_
  intro living
  rcases working (alive living) with ⟨worker, stands, bounded, more⟩
  refine ⟨worker, ?_, bounded, more⟩
  rw [first]
  exact workers worker living stands

/-- A step of the goroutine itself. -/
theorem Process.Ending.worked {move : Move} {turned : Goroutine}
    {phase : Phase} {metrics : Metrics}
    (ending : process.Ending system position budget claims)
    (worked :
      process.Worked platform running system after position move
        goroutine turned worker phase metrics) :
    ∃ less,
      Process.Ending
          { process with
            running :=
              some
                { running with
                  goroutines := running.goroutines.set position turned }
            metrics := process.metrics + metrics }
          after position less claims ∧
        less + (if move.beats then 0 else 1) ≤ budget := by
  rcases ending with
    ⟨current, thread, goesOn, canceled, stays, taken, working⟩
  rw [worked.runs] at goesOn
  cases goesOn
  rw [worked.located] at stays
  cases stays
  have turns := worked.turns
  rw [canceled] at turns
  rcases working worked.alive with ⟨beside, there, bounded, more⟩
  rw [worked.stands] at there
  cases there
  have known :
      turned.taken ∈ claims ∧
        turned.taken ++ pending { worker with phase } ∈ claims := by
    rcases turns.taken with ⟨same, none | kept⟩ | ⟨grown, none⟩
    · rw [same, none, List.append_nil]
      exact ⟨taken, taken⟩
    · rw [same, kept]
      exact ⟨taken, more⟩
    · rw [grown, none, List.append_nil]
      exact ⟨more, more⟩
  refine ⟨turned.left { worker with phase }, ?_, turns.left_lt.trans bounded⟩
  refine .intro _ turned rfl canceled (getElem?_set_some worked.located)
    known.1 ?_
  intro _
  refine ⟨{ worker with phase }, ?_, le_rfl, known.2⟩
  rw [worked.workers]
  exact getElem?_set_some worked.stands

theorem Process.Ending.moves
    (ending : process.Ending system position budget claims)
    (moves : process.Moves platform system turn later after) :
    ∃ less, later.Ending after position less claims ∧
      less + steps position turn ≤ budget := by
  have before := ending
  rcases before with ⟨running, goroutine, runs, _, _, _, _⟩
  cases moves with
  | paced paced =>
      rcases paced.running with
        ⟨none, _⟩ | ⟨_, resumed, started, goesOn, kept⟩
      · rw [runs] at none
        cases none
      · rw [runs] at started
        cases started
        exact ⟨budget,
          ending.stays runs goesOn (fun living => paced.alive ▸ living)
            kept.first kept.canceled (by rw [kept.goroutines])
            (fun _ _ stands => stands), le_rfl⟩
  | started fresh pools workers goes =>
      rw [runs] at fresh
      cases fresh
  | @worked _ place move _ _ _ _ _ _ worked =>
      by_cases mine : place = position
      · subst mine
        rcases ending.worked worked with ⟨less, kept, bounded⟩
        refine ⟨less, kept, ?_⟩
        cases beats : move.beats <;> simpa [steps, beats] using bounded
      · have same := worked.runs
        rw [runs] at same
        cases same
        refine ⟨budget, ending.stays runs rfl id rfl id ?_ ?_, ?_⟩
        · exact List.getElem?_set_ne mine
        · intro other _ stands
          rw [worked.workers, List.getElem?_set_ne]
          · exact stands
          · exact fun equal => mine (Nat.add_left_cancel equal)
        · simp [steps, mine]
  | reaped started active failures pools workers goes =>
      rw [runs] at started
      cases started
      refine ⟨budget, ending.stays runs rfl id rfl id rfl ?_, le_rfl⟩
      intro worker _ stands
      rw [workers]
      exact stands
  | exited left =>
      exact ⟨budget,
        ending.stays runs runs (by rintro ⟨⟩) rfl id rfl (by rintro _ ⟨⟩),
        le_rfl⟩

end Budget

/-- The label is a step of the goroutine of the process. -/
theorem Label.moves_eq {other : Nat} (mine : label.process = some other) :
    (if label.moves index position then 1 else 0) =
      if other = index then steps position label.turn else 0 := by
  cases label with
  | work process place move =>
      cases mine
      by_cases same : other = index <;>
        simp [Label.moves, Label.turn, steps, same]
  | _ => simp [Label.moves, Label.turn, steps]

theorem ending_moves {budget : Nat} {claims : List (List Nat)}
    (ok : host.Linked platform)
    (found : host.processes[index]? = some process)
    (ending : process.Ending host.system position budget claims)
    (moves : host.Moves platform label next) :
    ∃ less later, next.processes[index]? = some later ∧
      later.Ending next.system position less claims ∧
      less + (if label.moves index position then 1 else 0) ≤ budget := by
  cases moves with
  | created settings =>
      refine ⟨budget, process, ?_, ending, le_rfl⟩
      rw [List.getElem?_append_left (List.getElem?_eq_some_iff.mp found).1]
      exact found
  | @took _ other second later _ place mine moves =>
      rw [Label.moves_eq mine]
      by_cases same : other = index
      · subst same
        rw [found] at place
        cases place
        rcases ending.moves moves with ⟨less, kept, bounded⟩
        refine ⟨less, later, getElem?_set_some found, kept, ?_⟩
        rwa [if_pos rfl]
      · rw [if_neg same]
        refine ⟨budget, process, ?_, ?_, le_rfl⟩
        · rw [List.getElem?_set_ne same]
          exact found
        · have before := ending
          rcases before with
            ⟨running, goroutine, runs, _, located, _, _⟩
          refine ending.stays runs runs id rfl id rfl ?_
          intro worker alive stands
          rcases (ok.linked ⟨found, runs⟩ alive).stands position goroutine
            located with ⟨current, there, his, _, _⟩
          rw [stands] at there
          cases there
          exact (ok.sameWorkers place moves (Ne.symm same) ⟨found, runs⟩ _
            worker his).mpr stands
  | served still pools workers goes =>
      refine ⟨budget, process, found, ?_, ?_⟩
      · have before := ending
        rcases before with ⟨running, goroutine, runs, _, _, _, _⟩
        refine ending.stays runs runs id rfl id rfl ?_
        intro worker _ stands
        rw [workers]
        exact stands
      · have none : label.moves index position = false := by
          cases label <;> first | rfl | cases still
        rw [none]
        exact le_rfl

theorem run_ending {labels : List Label} {final : Host} {budget : Nat}
    {claims : List (List Nat)} (ok : host.Linked platform)
    (found : host.processes[index]? = some process)
    (ending : process.Ending host.system position budget claims)
    (ran : (machine platform).run host labels = some final) :
    ∃ less later, final.processes[index]? = some later ∧
      later.Ending final.system position less claims ∧
      less + labels.countP (Label.moves index position) ≤ budget := by
  induction labels generalizing host budget process with
  | nil =>
      cases ran
      exact ⟨budget, process, found, ending, le_rfl⟩
  | cons label rest induction =>
      rcases Option.bind_eq_some_iff.mp ran with
        ⟨middle, stepped, remaining⟩
      have moves := Host.step_moves stepped
      rcases ending_moves ok found ending moves with
        ⟨less, later, place, kept, bounded⟩
      rcases induction (ok.moves moves) place kept remaining with
        ⟨least, last, there, ended, total⟩
      refine ⟨least, last, there, ended, ?_⟩
      rw [List.countP_cons]
      omega

/-- The worker waits for a call of the store that has not returned. -/
def Waits (system : State) (worker : Worker) : Prop :=
  ∃ session, worker.phase.waitsFor = some session ∧
    callResult system.store session = none

/-- The goroutine can take a step that is not a heartbeat. -/
def Steps (platform : Platform) (host : Host) (index position : Nat) :
    Prop :=
  ∃ move, move.beats = false ∧
    ((machine platform).step host (.work index position move)).isSome = true

/-- A step of the goroutine that its worker can follow. -/
theorem steps_of_any (runs : host.Runs index process running)
    (alive : process.alive = true)
    (located : running.goroutines[position]? = some goroutine)
    (stands : host.system.workers[running.first + position]? = some worker)
    (move : Move) (counts : move.beats = false)
    (possible :
      ((goroutine.step running.canceled worker host.system.store
          move).any fun effect =>
        effect.action.all fun action =>
          (worker.act host.system.store action).isSome) = true) :
    Steps platform host index position := by
  refine ⟨move, counts, ?_⟩
  simp only [machine, Host.step, Label.process, runs.found, alive, if_true,
    Process.step, runs.runs, Option.bind_some, Process.work, located,
    stands, Option.isSome_map]
  cases stepped :
      goroutine.step running.canceled worker host.system.store move with
  | none => simp [stepped] at possible
  | some effect =>
      cases action : effect.action with
      | none => simp [action]
      | some performed =>
          simp only [stepped, Option.any_some, action, Option.all_some]
            at possible
          simp only [Option.bind_some, action, State.step, stands,
            Option.isSome_map]
          exact possible

/-- A goroutine that has not returned waits for the store or can step. -/
theorem Goroutine.Fits.steps (runs : host.Runs index process running)
    (alive : process.alive = true)
    (located : running.goroutines[position]? = some goroutine)
    (stands : host.system.workers[running.first + position]? = some worker)
    (fits : goroutine.Fits worker) (unreturned : goroutine.loop ≠ .returned) :
    Waits host.system worker ∨ Steps platform host index position := by
  have goes (move : Move) (counts : move.beats = false) possible :
      Steps platform host index position :=
    steps_of_any runs alive located stands move counts possible
  cases loop : goroutine.loop with
  | spawned =>
      exact Or.inr (goes .begin rfl (by simp [Goroutine.step, loop]))
  | ready =>
      have polling : worker.phase = .polling := by
        cases phase : worker.phase <;> simp_all [Goroutine.Fits]
      refine Or.inr (goes .claim rfl ?_)
      cases canceled : running.canceled <;>
        simp [Goroutine.step, loop, Goroutine.return, Worker.act, polling]
  | idle =>
      exact Or.inr (goes .poll rfl (by simp [Goroutine.step, loop]))
  | returned => exact absurd loop unreturned
  | busy =>
      cases phase : worker.phase with
      | polling | gone => simp_all [Goroutine.Fits]
      | claiming claim =>
          cases returned : callResult host.system.store claim with
          | none =>
              exact Or.inl ⟨claim, by rw [phase]; rfl, returned⟩
          | some result =>
              refine Or.inr (goes .receive rfl ?_)
              have receives :
                  (goroutine.claimed running.canceled worker claim
                    result).action = some .receive := by
                unfold Goroutine.claimed
                split
                · rfl
                · split_ifs <;> rfl
              simp [Goroutine.step, loop, phase, returned, receives,
                Worker.act]
      | running claim task heartbeat =>
          refine Or.inr (goes (.finish (.returned none) 0 0) rfl ?_)
          simp [Goroutine.step, loop, Worker.act, phase]
      | persisting claim task heartbeat session =>
          cases returned : callResult host.system.store session with
          | none =>
              exact Or.inl ⟨session, by rw [phase]; rfl, returned⟩
          | some result =>
              refine Or.inr (goes .settle rfl ?_)
              simp [Goroutine.step, loop, phase, Worker.act, returned]

/--
Once the context of a pool has ended, every goroutine of the pool takes at
most four more steps besides its heartbeats, whatever else happens, and the
only task that it may still take is that of a claim which was already sent.
Until it has returned it can take a step, unless it waits for a call of the
store; while it executes a task, that step is the return of the handler.
-/
theorem canceled_pool_ends {earlier later : List Label}
    {middle final : Host}
    (began : (machine platform).run {} earlier = some middle)
    {index position : Nat} {process : Process} {running : Running}
    {goroutine : Goroutine} {worker : Worker}
    (runs : middle.Runs index process running)
    (canceled : running.canceled = true)
    (located : running.goroutines[position]? = some goroutine)
    (stands : middle.system.workers[running.first + position]? = some worker)
    (ran : (machine platform).run middle later = some final) :
    later.countP (Label.moves index position) ≤ 4 ∧
      ∃ process running current,
        final.Runs index process running ∧
          running.goroutines[position]? = some current ∧
          (current.taken = goroutine.taken ∨
            current.taken = goroutine.taken ++ pending worker) ∧
          (process.alive = true → current.loop ≠ .returned →
            (∃ worker,
              final.system.workers[running.first + position]? =
                  some worker ∧
                Waits final.system worker) ∨
              Steps platform final index position) := by
  have ok := run_linked began
  have ending :
      process.Ending middle.system position (goroutine.left worker)
        [goroutine.taken, goroutine.taken ++ pending worker] := by
    refine .intro running goroutine runs.runs canceled located (by simp) ?_
    intro _
    exact ⟨worker, stands, le_rfl, by simp⟩
  rcases run_ending ok runs.found ending ran with
    ⟨less, process, found, ended, bounded⟩
  have small := goroutine.left_le worker
  refine ⟨by omega, ?_⟩
  rcases ended with ⟨running, current, goesOn, _, place, taken, _⟩
  refine ⟨process, running, current, ⟨found, goesOn⟩, place,
    by simpa using taken, ?_⟩
  intro alive unreturned
  have linked := run_moves (Host.Linked platform)
    (fun _ _ _ held moves => held.moves moves) ok ran
  rcases (linked.linked ⟨found, goesOn⟩ alive).stands position current
    place with ⟨worker, there, _, fits, _⟩
  exact (fits.steps ⟨found, goesOn⟩ alive place there unreturned).imp
    (fun waits => ⟨worker, there, waits⟩) id

theorem sentRun_ends :
    ∃ middle final process running current,
      (machine echoPlatform).run {} sentRun = some middle ∧
        (machine echoPlatform).run middle (takenRun ++ joinedRun) =
          some final ∧
        final.Runs 0 process running ∧
        running.goroutines[0]? = some current ∧
        (current.taken = [] ∨ current.taken = [1]) := by
  have reached :
      ((machine echoPlatform).run {} sentRun).any
          (fun middle =>
            ((machine echoPlatform).run middle
                (takenRun ++ joinedRun)).isSome &&
              middle.processes[0]?.any fun process =>
                process.running.any fun running =>
                  running.canceled &&
                    (running.goroutines[0]?.any fun goroutine =>
                      decide (goroutine.taken = [])) &&
                    middle.system.workers[running.first + 0]?.any
                      fun worker =>
                        decide (worker.phase = .claiming 1)) =
        true := by
    decide +kernel
  rcases (Option.any_eq_true _ _).mp reached with ⟨middle, began, holds⟩
  rcases Bool.and_eq_true_iff.mp holds with ⟨ends, lives⟩
  rcases Option.isSome_iff_exists.mp ends with ⟨final, ran⟩
  rcases (Option.any_eq_true _ _).mp lives with ⟨process, found, works⟩
  rcases (Option.any_eq_true _ _).mp works with ⟨running, runs, both⟩
  rcases Bool.and_eq_true_iff.mp both with ⟨first, stands⟩
  rcases Bool.and_eq_true_iff.mp first with ⟨canceled, located⟩
  rcases (Option.any_eq_true _ _).mp located with ⟨goroutine, place, none⟩
  rcases (Option.any_eq_true _ _).mp stands with ⟨worker, there, phase⟩
  rcases canceled_pool_ends began ⟨found, runs⟩ canceled place there ran
    with ⟨_, later, resumed, current, goesOn, kept, taken, _⟩
  rw [of_decide_eq_true none, pending, of_decide_eq_true phase] at taken
  exact ⟨middle, final, later, resumed, current, began, ran, goesOn, kept,
    taken⟩

end Hosts

end Dhara.Lifecycle
