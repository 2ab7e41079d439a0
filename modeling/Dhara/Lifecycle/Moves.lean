import Dhara.Lifecycle.Process
import Dhara.Pool.Executions

/-!
# What a step of the host can do

The steps of the goroutines are given with the phase their worker is in
afterwards.  Everything else that a process does leaves its goroutines and its
metrics alone.  The system of worker pools sees one of its own steps, or none,
so every run of the host is a run of that system.
-/

namespace Dhara.Lifecycle

open Dhara.Store Dhara.Pool

/-! ## Goroutines -/

section Inversion

variable (goroutine : Goroutine) (canceled : Bool) (worker : Worker)
  (store : StoreConfig)

/-- A step of a goroutine, with the phase of its worker after it. -/
inductive Goroutine.Turns : Move → Goroutine → Phase → Metrics → Prop where
  | begin (loop : goroutine.loop = .spawned) :
      Turns .begin
        { goroutine with loop := .ready } worker.phase
        { workersActive := 1 }
  | declined (loop : goroutine.loop = .ready)
      (ended : canceled = true) :
      Turns .claim
        { goroutine with loop := .returned } worker.phase
        { workersActive := -1 }
  | claim (loop : goroutine.loop = .ready) (lasting : canceled = false)
      (phase : worker.phase = .polling) :
      Turns .claim
        { goroutine with loop := .busy }
        (.claiming store.sessions.length) {}
  | took (claim : Nat) (task : TaskRow) (loop : goroutine.loop = .busy)
      (phase : worker.phase = .claiming claim)
      (returned : callResult store claim = some (some (.task (.ok task)))) :
      Turns .receive
        { goroutine with
          claimFailing := false
          taken := goroutine.taken ++ [claim]
          claims := goroutine.claims ++ [claim] }
        (worker.execute claim store.sessions.length task).phase
        (inflight worker task 1)
  | left (claim : Nat) (loop : goroutine.loop = .busy)
      (ended : canceled = true)
      (phase : worker.phase = .claiming claim) :
      Turns .receive
        { goroutine with loop := .returned } .polling
        { workersActive := -1 }
  | empty (claim : Nat) (loop : goroutine.loop = .busy)
      (lasting : canceled = false)
      (phase : worker.phase = .claiming claim)
      (returned :
        callResult store claim =
          some (some (.task (.error .taskNotAvailable)))) :
      Turns .receive
        { goroutine with
          loop := .idle
          claimFailing := false
          claims := goroutine.claims ++ [claim] }
        .polling {}
  | failed (claim : Nat) (result : Option Response)
      (loop : goroutine.loop = .busy) (lasting : canceled = false)
      (phase : worker.phase = .claiming claim)
      (returned : callResult store claim = some result)
      (refused : ∀ task, result ≠ some (.task (.ok task)))
      (available : result ≠ some (.task (.error .taskNotAvailable))) :
      Turns .receive
        { goroutine with
          loop := .idle
          claimFailing := true
          warnings :=
            if goroutine.claimFailing then goroutine.warnings
            else goroutine.warnings + 1
          claims := goroutine.claims ++ [claim] }
        .polling { claimErrorsTotal := 1 }
  | finish (handled : Handled) (nextRunAt : Time) (taskDurationMS : Int)
      (claim : Nat) (task : TaskRow) (heartbeat : Heartbeat)
      (loop : goroutine.loop = .busy)
      (phase : worker.phase = .running claim task heartbeat) :
      Turns (.finish handled nextRunAt taskDurationMS) goroutine
        (.persisting claim task heartbeat store.sessions.length) {}
  | settle (claim : Nat) (task : TaskRow) (heartbeat : Heartbeat)
      (session : Nat) (result : Option Response)
      (loop : goroutine.loop = .busy)
      (phase : worker.phase = .persisting claim task heartbeat session)
      (returned : callResult store session = some result) :
      Turns .settle
        { goroutine with loop := .ready } .polling
        (inflight worker task (-1))
  | beatRunning (move : Move) (claim : Nat) (task : TaskRow)
      (heartbeat later : Heartbeat) (beat : move = .tick ∨ move = .beaten)
      (loop : goroutine.loop = .busy)
      (phase : worker.phase = .running claim task heartbeat) :
      Turns move goroutine (.running claim task later) {}
  | beatPersisting (move : Move) (claim : Nat) (task : TaskRow)
      (heartbeat later : Heartbeat) (session : Nat)
      (beat : move = .tick ∨ move = .beaten)
      (loop : goroutine.loop = .busy)
      (phase : worker.phase = .persisting claim task heartbeat session) :
      Turns move goroutine (.persisting claim task later session) {}
  | poll (loop : goroutine.loop = .idle) :
      Turns .poll { goroutine with loop := .ready } worker.phase {}
  | quit (loop : goroutine.loop = .idle) (ended : canceled = true) :
      Turns .quit
        { goroutine with loop := .returned } worker.phase
        { workersActive := -1 }

end Inversion

/-- The phase of the worker after the action of a goroutine. -/
def phaseAfter (worker : Worker) (store : StoreConfig) :
    Option Action → Option Phase
  | none => some worker.phase
  | some action => (worker.act store action).map Reaction.phase

section Turns

variable {goroutine : Goroutine} {canceled : Bool} {worker : Worker}
  {store : StoreConfig} {claim : Nat} {phase : Phase}

/-- The steps of the loop after `claim`. -/
theorem Goroutine.claimed_turns
    (loop : goroutine.loop = .busy)
    (claiming : worker.phase = .claiming claim)
    {result : Option Response}
    (returned : callResult store claim = some result)
    (acted :
      phaseAfter worker store
        (goroutine.claimed canceled worker claim result).action =
          some phase) :
    goroutine.Turns canceled worker store .receive
      (goroutine.claimed canceled worker claim result).goroutine phase
      (goroutine.claimed canceled worker claim result).metrics := by
  unfold Goroutine.claimed at acted ⊢
  split at acted
  · rename_i task
    simp only [phaseAfter, Worker.act, claiming, returned,
      Option.map_some, Option.some.injEq] at acted
    subst acted
    exact .took claim task loop claiming returned
  · rename_i refused
    have polling :
        phaseAfter worker store (some .receive) = some .polling := by
      simp only [phaseAfter, Worker.act, claiming, returned, Option.map_some]
    cases ended : canceled with
    | true =>
        simp only [ended, if_true, Goroutine.return, polling,
          Option.some.injEq] at acted ⊢
        subst acted
        exact .left claim loop rfl claiming
    | false =>
        simp only [ended, Bool.false_eq_true, if_false] at acted ⊢
        by_cases none : result = some (.task (.error .taskNotAvailable))
        · simp only [none, if_true, polling, Option.some.injEq]
            at acted ⊢
          subst acted
          exact .empty claim loop rfl claiming (none ▸ returned)
        · simp only [none, if_false, polling, Option.some.injEq]
            at acted ⊢
          subst acted
          exact .failed claim result loop rfl claiming returned refused none

theorem phaseAfter_claim
    (acted : phaseAfter worker store (some .claim) = some phase) :
    worker.phase = .polling ∧ phase = .claiming store.sessions.length := by
  cases before : worker.phase with
  | polling =>
      simp only [phaseAfter, Worker.act, before, Option.map_some,
        Option.some.injEq] at acted
      exact ⟨rfl, acted.symm⟩
  | claiming _ | running _ _ _ | persisting _ _ _ _ | gone =>
      simp [phaseAfter, Worker.act, before, Heartbeat.act] at acted

theorem phaseAfter_finish
    {handled : Handled} {nextRunAt : Time} {taskDurationMS : Int}
    (acted :
      phaseAfter worker store
        (some (.finish handled nextRunAt taskDurationMS)) = some phase) :
    ∃ claim task heartbeat,
      worker.phase = .running claim task heartbeat ∧
        phase = .persisting claim task heartbeat store.sessions.length := by
  cases before : worker.phase with
  | running claim task heartbeat =>
      simp only [phaseAfter, Worker.act, before, Option.map_some,
        Option.some.injEq] at acted
      exact ⟨claim, task, heartbeat, rfl, acted.symm⟩
  | polling | claiming _ | persisting _ _ _ _ | gone =>
      simp [phaseAfter, Worker.act, before, Heartbeat.act] at acted

theorem phaseAfter_beat
    {action : Action} (beat : action = .tick ∨ action = .beaten)
    (acted : phaseAfter worker store (some action) = some phase) :
    (∃ claim task heartbeat later,
      worker.phase = .running claim task heartbeat ∧
        phase = .running claim task later) ∨
      ∃ claim task heartbeat later session,
        worker.phase = .persisting claim task heartbeat session ∧
          phase = .persisting claim task later session := by
  cases before : worker.phase with
  | running claim task heartbeat =>
      rcases beat with rfl | rfl
      all_goals
        simp only [phaseAfter, Worker.act, before, Option.map_map,
          Option.map_eq_some_iff] at acted
        rcases acted with ⟨⟨later, call⟩, _, rfl⟩
        exact Or.inl ⟨claim, task, heartbeat, later, rfl, rfl⟩
  | persisting claim task heartbeat session =>
      rcases beat with rfl | rfl
      all_goals
        simp only [phaseAfter, Worker.act, before, Option.map_map,
          Option.map_eq_some_iff] at acted
        rcases acted with ⟨⟨later, call⟩, _, rfl⟩
        exact Or.inr ⟨claim, task, heartbeat, later, session, rfl, rfl⟩
  | polling | claiming _ | gone =>
      rcases beat with rfl | rfl <;>
        simp [phaseAfter, Worker.act, before] at acted

theorem Goroutine.step_turns {move : Move} {effect : Effect}
    (stepped : goroutine.step canceled worker store move = some effect)
    (acted : phaseAfter worker store effect.action = some phase) :
    goroutine.Turns canceled worker store move effect.goroutine phase
      effect.metrics := by
  have beats :
      ∀ {move : Move} {action : Action}, goroutine.loop = .busy →
        (move = .tick ∨ move = .beaten) →
          (action = .tick ∨ action = .beaten) →
            phaseAfter worker store (some action) = some phase →
              goroutine.Turns canceled worker store move goroutine phase
                {} := by
    intro move action loop moved beat acted
    rcases phaseAfter_beat beat acted with
      ⟨claim, task, heartbeat, later, before, rfl⟩ |
        ⟨claim, task, heartbeat, later, session, before, rfl⟩
    · exact .beatRunning move claim task heartbeat later moved loop before
    · exact .beatPersisting move claim task heartbeat later session moved
        loop before
  simp only [Goroutine.step] at stepped
  split at stepped
  · rename_i loop
    cases stepped
    cases acted
    exact .begin loop
  · rename_i loop
    split_ifs at stepped with ended
    · cases stepped
      cases acted
      exact .declined loop ended
    · cases stepped
      rcases phaseAfter_claim acted with ⟨polling, rfl⟩
      exact .claim loop (Bool.eq_false_iff.mpr ended) polling
  · rename_i loop
    split at stepped
    · rename_i claim claiming
      rcases Option.map_eq_some_iff.mp stepped with
        ⟨result, returned, rfl⟩
      exact Goroutine.claimed_turns loop claiming returned acted
    · cases stepped
  · rename_i loop
    cases stepped
    rcases phaseAfter_finish acted with
      ⟨claim, task, heartbeat, before, rfl⟩
    exact .finish _ _ _ claim task heartbeat loop before
  · rename_i loop
    split at stepped
    · rename_i claim task heartbeat session before
      cases stepped
      simp only [phaseAfter, Worker.act, before, Option.map_map,
        Option.map_eq_some_iff] at acted
      rcases acted with ⟨result, returned, rfl⟩
      exact .settle claim task heartbeat session result loop before returned
    · cases stepped
  · rename_i loop
    cases stepped
    exact beats loop (Or.inl rfl) (Or.inl rfl) acted
  · rename_i loop
    cases stepped
    exact beats loop (Or.inr rfl) (Or.inr rfl) acted
  · rename_i loop
    cases stepped
    cases acted
    exact .poll loop
  · rename_i loop
    split_ifs at stepped with ended
    cases stepped
    cases acted
    exact .quit loop ended
  · cases stepped

end Turns

/-! ## Processes -/

/-- The system makes a step, or none. -/
def Goes (platform : Platform) (system after : State) : Prop :=
  after = system ∨ ∃ step, system.step platform step = some after

/-- The goroutines stay as they are, and their context ends once. -/
structure Running.Same (running later : Running) : Prop where
  pool : later.pool = running.pool
  first : later.first = running.first
  goroutines : later.goroutines = running.goroutines
  reaper : later.reaper = running.reaper
  canceled : running.canceled = true → later.canceled = true

/-- A process does something that concerns none of its goroutines. -/
structure Process.Paced (process later : Process) : Prop where
  metrics : later.metrics = process.metrics
  alive : later.alive = process.alive
  running :
    process.running = none ∧ later.running = none ∨
      ∃ running resumed,
        process.running = some running ∧ later.running = some resumed ∧
          running.Same resumed
  joined :
    .returned none ∈ later.callers →
      .returned none ∈ process.callers ∨
        ∃ running, process.running = some running ∧ running.drained = true

theorem Running.Same.refl (running : Running) : running.Same running :=
  ⟨rfl, rfl, rfl, rfl, id⟩

/-- A step that changes neither the goroutines nor the calls of `Start`. -/
theorem Process.paced_of_same {process later : Process}
    (metrics : later.metrics = process.metrics)
    (alive : later.alive = process.alive)
    (running : later.running = process.running)
    (joined :
      .returned none ∈ later.callers → .returned none ∈ process.callers) :
    process.Paced later := by
  refine ⟨metrics, alive, ?_, fun member => Or.inl (joined member)⟩
  cases runs : process.running with
  | none => exact Or.inl ⟨rfl, running.trans runs⟩
  | some current =>
      exact Or.inr ⟨current, current, rfl, running.trans runs, .refl _⟩

/-- A goroutine of the process and its worker take a step. -/
structure Process.Worked (platform : Platform) (process : Process)
    (running : Running) (system after : State) (position : Nat)
    (move : Move) (goroutine later : Goroutine) (worker : Worker)
    (phase : Phase) (metrics : Metrics) : Prop where
  alive : process.alive = true
  runs : process.running = some running
  located : running.goroutines[position]? = some goroutine
  stands : system.workers[running.first + position]? = some worker
  turns :
    goroutine.Turns running.canceled worker system.store move later phase
      metrics
  pools : after.pools = system.pools
  workers :
    after.workers =
      system.workers.set (running.first + position) { worker with phase }
  goes : Goes platform system after

/-- What one step of a process can do, and the goroutine that takes it. -/
inductive Process.Moves (platform : Platform) (system : State)
    (process : Process) : Option (Nat × Move) → Process → State → Prop where
  | paced {later : Process} (paced : process.Paced later) :
      Moves platform system process none later system
  | started {ctxDone : Bool} {after : State}
      (fresh : process.running = none)
      (pools :
        after.pools =
          system.pools ++ [{ settings := process.settings.normalize }])
      (workers :
        after.workers =
          system.workers ++
            process.settings.normalize.workers
              (fun taskType => taskType ∈ process.registry)
              system.pools.length)
      (goes : Goes platform system after) :
      Moves platform system process none
        { process with
          callers := process.callers ++ [.running]
          running :=
            some
              { pool := system.pools.length
                first := system.workers.length
                ctxDone
                goroutines :=
                  List.replicate
                    process.settings.normalize.concurrency.toNat {} } }
        after
  | worked {running : Running} {position : Nat} {move : Move}
      {goroutine later : Goroutine} {worker : Worker} {phase : Phase}
      {metrics : Metrics} {after : State}
      (worked :
        process.Worked platform running system after position move
          goroutine later worker phase metrics) :
      Moves platform system process (some (position, move))
        { process with
          running :=
            some
              { running with
                goroutines := running.goroutines.set position later }
          metrics := process.metrics + metrics }
        after
  | reaped {running : Running} {reaper : Reaper} {metrics : Metrics}
      {after : State} (runs : process.running = some running)
      (active : running.reaper ≠ .returned)
      (failures :
        metrics = { reaperFailuresTotal := metrics.reaperFailuresTotal })
      (pools : after.pools = system.pools)
      (workers : after.workers = system.workers)
      (goes : Goes platform system after) :
      Moves platform system process none
        { process with
          running := some { running with reaper }
          metrics := process.metrics + metrics }
        after
  | exited {after : State}
      (left :
        process.running = none ∧ after = system ∨
          ∃ running, process.running = some running ∧
            system.step platform (.stop running.pool) = some after) :
      Moves platform system process none { process with alive := false } after

/-- The goroutine of a worker that takes the step. -/
def Label.turn : Label → Option (Nat × Move)
  | .work _ position move => some (position, move)
  | _ => none

/-- What one step can do. -/
inductive Host.Moves (platform : Platform) (host : Host) :
    Label → Host → Prop where
  | created (settings : Settings) :
      Moves platform host (.create settings)
        { host with processes := host.processes ++ [{ settings }] }
  | took {label : Label} {index : Nat} {process later : Process}
      {system : State} (found : host.processes[index]? = some process)
      (mine : label.process = some index)
      (moves : process.Moves platform host.system label.turn later system) :
      Moves platform host label
        { system, processes := host.processes.set index later }
  | served {label : Label} {system : State}
      (still : label.process = none)
      (pools : system.pools = host.system.pools)
      (workers : system.workers = host.system.workers)
      (goes : Goes platform host.system system) :
      Moves platform host label { host with system }

section Moves

variable {platform : Platform} {host next : Host} {label : Label}
  {process later : Process} {running : Running} {system after : State}
  {labels : List Label}

/-- A step that concerns the store alone. -/
def quiet : Step → Bool
  | .reap _ | .call _ | .serve _ _ | .lose _ => true
  | _ => false

theorem step_quiet {step : Step} (still : quiet step = true)
    (stepped : system.step platform step = some after) :
    after.pools = system.pools ∧ after.workers = system.workers := by
  cases step with
  | start _ _ | stop _ | work _ _ => cases still
  | reap process =>
      simp only [State.step] at stepped
      split at stepped
      · cases stepped
      · split_ifs at stepped
        cases stepped
        exact ⟨rfl, rfl⟩
  | call call =>
      simp only [State.step] at stepped
      split_ifs at stepped
      cases stepped
      exact ⟨rfl, rfl⟩
  | serve session answer =>
      rcases Option.map_eq_some_iff.mp stepped with ⟨store, _, rfl⟩
      exact ⟨rfl, rfl⟩
  | lose session =>
      rcases Option.map_eq_some_iff.mp stepped with ⟨store, _, rfl⟩
      exact ⟨rfl, rfl⟩

/-- A step of a worker, by the phase it leads to. -/
theorem step_work {index : Nat} {worker : Worker} {action : Action}
    (stands : system.workers[index]? = some worker)
    (stepped : system.step platform (.work index action) = some after) :
    ∃ phase,
      phaseAfter worker system.store (some action) = some phase ∧
        after.pools = system.pools ∧
        after.workers = system.workers.set index { worker with phase } := by
  simp only [State.step, stands] at stepped
  rcases Option.map_eq_some_iff.mp stepped with ⟨reaction, acted, rfl⟩
  refine ⟨reaction.phase, ?_, rfl, rfl⟩
  simp only [phaseAfter, acted, Option.map_some]

/-- Another point of a caller is not yet a return. -/
theorem mem_set_caller {callers : List Caller} {caller : Nat}
    (point : Caller) (other : point ≠ .returned none)
    (member : .returned none ∈ callers.set caller point) :
    .returned none ∈ callers := by
  rcases List.mem_or_eq_of_mem_set member with inside | equal
  · exact inside
  · exact absurd equal.symm other

theorem Process.advance_paced {caller : Nat} {point : Caller}
    (runs : process.running = some running)
    (advanced : process.advance running caller label point = some later) :
    process.Paced later := by
  simp only [Process.advance] at advanced
  split at advanced
  · split_ifs at advanced
    cases advanced
    refine ⟨rfl, rfl, Or.inr ⟨running, _, runs, rfl, ?_⟩, ?_⟩
    · exact ⟨rfl, rfl, rfl, rfl, fun _ => Bool.or_true _⟩
    · intro member
      exact Or.inl (mem_set_caller .waiting (by simp) member)
  · split_ifs at advanced with drained
    cases advanced
    refine ⟨rfl, rfl, Or.inr ⟨running, running, runs, runs, .refl _⟩, ?_⟩
    exact fun _ => Or.inr ⟨running, runs, drained⟩
  · cases advanced
    refine Process.paced_of_same rfl rfl rfl ?_
    exact mem_set_caller (.returned (some deadlineExceeded)) (by simp)
  · cases advanced

theorem Process.start_moves {ctxDone : Bool}
    (stepped : process.start platform system ctxDone = some (after, later)) :
    process.Moves platform system none later after := by
  simp only [Process.start] at stepped
  split at stepped
  · cases stepped
    refine .paced (Process.paced_of_same rfl rfl rfl ?_)
    intro member
    rcases List.mem_append.mp member with inside | rejected
    · exact inside
    · simp at rejected
  · rename_i fresh
    cases stepped
    exact .started fresh rfl rfl (Or.inr ⟨.start process.settings _, rfl⟩)

theorem Process.work_moves {position : Nat} {move : Move}
    (alive : process.alive = true)
    (runs : process.running = some running)
    (stepped :
      process.work platform running system position move =
        some (after, later)) :
    process.Moves platform system (some (position, move)) later after := by
  simp only [Process.work] at stepped
  split at stepped
  · rename_i goroutine worker located stands
    rcases Option.bind_eq_some_iff.mp stepped with
      ⟨effect, turned, remaining⟩
    rcases Option.map_eq_some_iff.mp remaining with
      ⟨reached, acted, equal⟩
    cases equal
    cases action : effect.action with
    | none =>
        simp only [action, Option.some.injEq] at acted
        subst acted
        have turns :
            goroutine.Turns running.canceled worker system.store move
              effect.goroutine worker.phase effect.metrics :=
          Goroutine.step_turns turned (by rw [action]; rfl)
        refine .worked
          ⟨alive, runs, located, stands, turns, rfl, ?_, Or.inl rfl⟩
        rcases List.getElem?_eq_some_iff.mp stands with ⟨inside, equal⟩
        rw [← equal]
        exact (List.set_getElem_self inside).symm
    | some performed =>
        simp only [action] at acted
        rcases step_work stands acted with
          ⟨phase, reached, pools, workers⟩
        rw [← action] at reached
        exact .worked
          ⟨alive, runs, located, stands,
            Goroutine.step_turns turned reached, pools, workers,
            Or.inr ⟨_, acted⟩⟩
  · cases stepped

theorem Reaper.step_cases
    {reaper later : Reaper} {canceled calls : Bool} {store : StoreConfig}
    {move : ReaperMove} {metrics : Metrics}
    (stepped :
      reaper.step canceled store move = some (later, calls, metrics)) :
    reaper ≠ .returned ∧
      metrics = { reaperFailuresTotal := metrics.reaperFailuresTotal } := by
  simp only [Reaper.step] at stepped
  split at stepped
  · split_ifs at stepped <;> cases stepped <;> exact ⟨by simp, rfl⟩
  · rcases Option.map_eq_some_iff.mp stepped with ⟨result, _, equal⟩
    cases equal
    refine ⟨by simp, ?_⟩
    unfold reaperRan
    split <;> rfl
  · split_ifs at stepped
    cases stepped
    exact ⟨by simp, rfl⟩
  · cases stepped

theorem Process.reap_moves {move : ReaperMove}
    (runs : process.running = some running)
    (stepped :
      process.reap platform running system move = some (after, later)) :
    process.Moves platform system none later after := by
  rcases Option.bind_eq_some_iff.mp stepped with
    ⟨⟨reaper, calls, metrics⟩, turned, remaining⟩
  rcases Option.map_eq_some_iff.mp remaining with
    ⟨reached, called, equal⟩
  cases equal
  rcases Reaper.step_cases turned with ⟨active, failures⟩
  cases calls with
  | false =>
      cases called
      exact .reaped runs active failures rfl rfl (Or.inl rfl)
  | true =>
      rw [if_pos rfl] at called
      rcases step_quiet rfl called with ⟨pools, workers⟩
      exact .reaped runs active failures pools workers (Or.inr ⟨_, called⟩)

theorem Process.exit_moves
    (stepped : process.exit platform system = some (after, later)) :
    process.Moves platform system none later after := by
  rcases Option.map_eq_some_iff.mp stepped with ⟨reached, left, equal⟩
  cases equal
  refine .exited ?_
  cases runs : process.running with
  | none =>
      rw [runs] at left
      cases left
      exact Or.inl ⟨rfl, rfl⟩
  | some running =>
      rw [runs] at left
      exact Or.inr ⟨running, rfl, left⟩

theorem Process.step_moves (alive : process.alive = true)
    (stepped : process.step platform system label = some (after, later)) :
    process.Moves platform system label.turn later after := by
  have advances :
      ∀ caller,
        (process.running.bind fun running =>
          process.callers[caller]?.bind fun point =>
            (process.advance running caller label point).map fun next =>
              (system, next)) = some (after, later) →
          process.Moves platform system none later after := by
    intro caller advanced
    rcases Option.bind_eq_some_iff.mp advanced with
      ⟨running, runs, located⟩
    rcases Option.bind_eq_some_iff.mp located with ⟨point, _, moved⟩
    rcases Option.map_eq_some_iff.mp moved with ⟨next, did, equal⟩
    cases equal
    exact .paced (Process.advance_paced runs did)
  cases label with
  | register _ taskType =>
      simp only [Process.step] at stepped
      split_ifs at stepped
      cases stepped
      exact .paced (Process.paced_of_same rfl rfl rfl id)
  | start _ ctxDone => exact Process.start_moves stepped
  | cancel _ =>
      rcases Option.map_eq_some_iff.mp stepped with
        ⟨running, runs, equal⟩
      cases equal
      exact .paced
        ⟨rfl, rfl,
          Or.inr ⟨running, _, runs, rfl, rfl, rfl, rfl, rfl,
            fun _ => rfl⟩, Or.inl⟩
  | stop _ =>
      cases stepped
      exact .paced (Process.paced_of_same rfl rfl rfl id)
  | work _ position move =>
      rcases Option.bind_eq_some_iff.mp stepped with
        ⟨running, runs, worked⟩
      exact Process.work_moves alive runs worked
  | reap _ move =>
      rcases Option.bind_eq_some_iff.mp stepped with
        ⟨running, runs, reaped⟩
      exact Process.reap_moves runs reaped
  | exit _ => exact Process.exit_moves stepped
  | wake _ caller => exact advances caller stepped
  | join _ caller => exact advances caller stepped
  | expire _ caller => exact advances caller stepped
  | create _ | call _ | serve _ _ | lose _ => cases stepped

theorem Host.step_moves
    (stepped : host.step platform label = some next) :
    host.Moves platform label next := by
  simp only [Host.step] at stepped
  split at stepped
  · cases stepped
    exact .created _
  · split at stepped
    · rename_i index mine
      split at stepped
      · cases stepped
      · rename_i process found
        split_ifs at stepped with alive
        rcases Option.map_eq_some_iff.mp stepped with
          ⟨⟨system, later⟩, moved, rfl⟩
        exact .took found mine (Process.step_moves alive moved)
    · rename_i step still outside
      rcases Option.map_eq_some_iff.mp stepped with ⟨system, served, rfl⟩
      have silent : quiet step = true := by
        cases label <;> simp [Label.outside] at outside <;>
          subst outside <;> rfl
      rcases step_quiet silent served with ⟨pools, workers⟩
      exact .served still pools workers (Or.inr ⟨step, served⟩)
    · cases stepped

/-- A call that has returned keeps its result. -/
theorem Goes.returned (goes : Goes platform system after) {index : Nat}
    {result : Option Response}
    (returned : callResult system.store index = some result) :
    callResult after.store index = some result := by
  rcases goes with rfl | ⟨step, stepped⟩
  · exact returned
  · rcases (State.step_moves stepped).store with same | ⟨_, served⟩
    · rw [same]
      exact returned
    · exact callResult_step served returned

theorem Process.Moves.goes {turn : Option (Nat × Move)}
    (moves : process.Moves platform system turn later after) :
    Goes platform system after := by
  cases moves with
  | paced paced => exact Or.inl rfl
  | started fresh pools workers goes => exact goes
  | worked worked => exact worked.goes
  | reaped runs active failures pools workers goes => exact goes
  | exited left =>
      rcases left with ⟨_, same⟩ | ⟨running, _, stepped⟩
      · exact Or.inl same
      · exact Or.inr ⟨_, stepped⟩

/-- The system sees a step of its own, or none. -/
theorem Host.Moves.goes (moves : host.Moves platform label next) :
    Goes platform host.system next.system := by
  cases moves with
  | created settings => exact Or.inl rfl
  | took found mine moves =>
      exact moves.goes
  | served still pools workers goes => exact goes

/-- What the moves of the host keep holds in every state reached. -/
theorem run_moves (Holds : Host → Prop)
    (kept :
      ∀ host label next, Holds host → host.Moves platform label next →
        Holds next)
    (initially : Holds host)
    (ran : (machine platform).run host labels = some next) :
    Holds next :=
  Machine.run_invariant
    (fun host label next held stepped =>
      kept host label next held (Host.step_moves stepped))
    initially ran

/-- What the moves of a process and of the system keep holds of them all. -/
theorem run_processes (Holds : State → Process → Prop)
    (fresh : ∀ system settings, Holds system { settings })
    (goes :
      ∀ {system after process}, Holds system process →
        Goes platform system after → Holds after process)
    (kept :
      ∀ {system process turn later after}, Holds system process →
        process.Moves platform system turn later after → Holds system later)
    (ran : (machine platform).run {} labels = some next) :
    ∀ process ∈ next.processes, Holds next.system process := by
  refine run_moves
    (fun host => ∀ process ∈ host.processes, Holds host.system process)
    ?_ (by rintro process ⟨⟩) ran
  intro host label next held moves
  cases moves with
  | created settings =>
      intro process member
      rcases List.mem_append.mp member with old | created
      · exact held process old
      · rw [List.mem_singleton.mp created]
        exact fresh _ settings
  | took found mine moves =>
      intro second member
      rcases List.mem_or_eq_of_mem_set member with old | rfl
      · exact goes (held second old) moves.goes
      · exact goes (kept (held _ (List.mem_of_getElem? found)) moves)
          moves.goes
  | served still pools workers goesOn =>
      exact fun process member => goes (held process member) goesOn

/-- Every run of the host is a run of the system of worker pools. -/
theorem run_system (ran : (machine platform).run host labels = some next) :
    ∃ steps, host.system.follow platform steps = some next.system := by
  induction labels generalizing host with
  | nil =>
      cases ran
      exact ⟨[], rfl⟩
  | cons label rest induction =>
      rcases Option.bind_eq_some_iff.mp ran with
        ⟨middle, stepped, remaining⟩
      rcases induction remaining with ⟨steps, followed⟩
      rcases (Host.step_moves stepped).goes with same | ⟨step, taken⟩
      · exact ⟨steps, same ▸ followed⟩
      · refine ⟨step :: steps, ?_⟩
        simpa only [State.follow, taken, Option.bind_some] using followed

end Moves

end Dhara.Lifecycle
