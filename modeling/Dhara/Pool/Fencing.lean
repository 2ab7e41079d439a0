import Dhara.Pool.Executions
import Dhara.Store.Grants

/-!
# Ownership fencing

A write that ends an execution is fenced by the worker id alone: it changes
the row if the row is `RUNNING` and locked by this id.  As long as no two live
pools share their prefix, the ids of live workers differ, and a worker that
claims has no execution left.  Then a row locked by the id of a worker runs
under the claim that the worker executes.

Two pools with the same prefix break the fence.  The prefix has a default, so
this is what two processes with default settings do.
-/

namespace Dhara.Pool

open Dhara.Store Dhara.Transaction

variable {worker : Worker} {claim : Nat} {store : StoreConfig}
  {commit : StoreCommit} {index : Nat}

/-! ## Names -/

/-- A list is split in one way at the first occurrence of an element. -/
theorem append_cons_inj {Item : Type} {mark : Item}
    {first second before after : List Item}
    (firstClean : mark ∉ first) (secondClean : mark ∉ second)
    (same : first ++ mark :: before = second ++ mark :: after) :
    first = second ∧ before = after := by
  induction first generalizing second with
  | nil =>
      cases second with
      | nil => exact ⟨rfl, (List.cons.inj same).2⟩
      | cons head rest =>
          have equal : mark = head := (List.cons.inj same).1
          exact (secondClean (by simp [equal])).elim
  | cons head rest induction =>
      cases second with
      | nil =>
          have equal : head = mark := (List.cons.inj same).1
          exact (firstClean (by simp [equal])).elim
      | cons other tail =>
          rcases List.cons.inj same with ⟨sameHead, sameRest⟩
          rcases induction
              (fun member => firstClean (List.mem_cons_of_mem _ member))
              (fun member => secondClean (List.mem_cons_of_mem _ member))
              sameRest with
            ⟨equal, rests⟩
          exact ⟨by rw [sameHead, equal], rests⟩

theorem workerName_inj
    {first second : GoString} {one two : Nat}
    (same : workerName first one = workerName second two) :
    first = second ∧ one = two := by
  have clean : ∀ number : Nat, (45 : UInt8) ∉ (itoa number).reverse := by
    intro number member
    have bounds := itoa_digits (List.mem_reverse.mp member)
    simp at bounds
  have reversed := congrArg List.reverse same
  have dash : (ascii "-").reverse = [45] := by decide
  simp only [workerName, List.reverse_append, dash,
    List.singleton_append] at reversed
  rcases append_cons_inj (clean _) (clean _) reversed with
    ⟨digits, prefixes⟩
  have numbers := itoa_inj (List.reverse_inj.mp digits)
  exact ⟨List.reverse_inj.mp prefixes, by omega⟩

/-- The lock holds the whole name of the worker. -/
theorem claim_locker
    {workerPrefix : GoString} {locker : Text}
    (encoded :
      (Update.claim (workerName workerPrefix index)).encode =
        .ok (.claim locker)) :
    locker.bytes = workerName workerPrefix index := by
  rcases Update.encode_claim encoded with
    ⟨text, stored, bound, fitted, equal⟩
  cases equal
  have bytes := toText_eq_ok_iff.mp bound
  have nonempty := List.getLast?_isSome.mpr (itoa_ne_nil (index + 1))
  rcases Option.isSome_iff_exists.mp nonempty with ⟨last, ends⟩
  have solid : last ≠ 32 := by
    intro equal
    have bounds := itoa_digits (List.mem_of_getLast? ends)
    simp [equal] at bounds
  have lastByte : text.bytes.getLast? = some last := by
    rw [bytes, workerName, List.getLast?_append, ends]
    rfl
  rw [varchar_of_getLast lastByte solid fitted]
  exact bytes

/-- The workers of live pools have different names. -/
structure Named (state : State) : Prop where
  pooled :
    ∀ worker ∈ state.workers, worker.phase ≠ .gone →
      ∃ (pool : WorkerPool) (index : Nat),
        state.pools[worker.process]? = some pool ∧
          pool.live = true ∧
          worker.workerID = workerName pool.settings.workerPrefix index
  distinct :
    ∀ (left right : Nat) (first second : Worker),
      state.workers[left]? = some first →
      state.workers[right]? = some second →
      first.phase ≠ .gone → second.phase ≠ .gone →
      first.workerID = second.workerID → left = right

section Naming

variable {platform : Platform} {state next : State} {step : Step}

/-- A worker that acts is alive before and after. -/
theorem Worker.Acts.alive
    {reaction : Reaction} (acts : worker.Acts store reaction) :
    worker.phase ≠ .gone ∧ reaction.phase ≠ .gone := by
  cases acts with
  | execute claim task phase returned =>
      rw [phase, Worker.execute]
      split_ifs <;> simp
  | _ => simp [*]

theorem workers_getElem
    {settings : Settings} {registry : GoString → Bool} {process : Nat}
    (found : (settings.workers registry process)[index]? = some worker) :
    worker =
      { workerID := workerName settings.workerPrefix index
        registry
        process } := by
  simp only [Settings.workers, List.getElem?_map,
    Option.map_eq_some_iff] at found
  rcases found with ⟨number, inRange, equal⟩
  rcases List.getElem?_eq_some_iff.mp inRange with ⟨bound, same⟩
  rw [List.getElem_range] at same
  rw [← equal, same]

theorem Named.start
    (named : Named state) (settings : Settings)
    (registry : GoString → Bool)
    (alone : (Step.start settings registry).Alone state) :
    Named
      { state with
        pools := state.pools ++ [{ settings := settings.normalize }]
        workers :=
          state.workers ++
            settings.normalize.workers registry state.pools.length } := by
  have fresh :
      ∀ worker ∈
          settings.normalize.workers registry state.pools.length,
        worker.process = state.pools.length ∧
          ∃ index,
            worker.workerID =
              workerName settings.normalize.workerPrefix index := by
    intro worker member
    rcases List.mem_map.mp member with ⟨index, _, equal⟩
    subst worker
    exact ⟨rfl, index, rfl⟩
  have apart :
      ∀ first ∈ state.workers, first.phase ≠ .gone →
        ∀ second ∈
            settings.normalize.workers registry state.pools.length,
          first.workerID ≠ second.workerID := by
    intro first member alive second started same
    rcases named.pooled first member alive with
      ⟨pool, index, found, live, name⟩
    rcases fresh second started with ⟨_, other, secondName⟩
    rw [name, secondName] at same
    exact alone pool (List.mem_of_getElem? found) live (workerName_inj same).1
  constructor
  · intro worker member alive
    rcases List.mem_append.mp member with inside | started
    · rcases named.pooled worker inside alive with
        ⟨pool, index, found, live, name⟩
      exact ⟨pool, index, getElem?_concat_old found, live, name⟩
    · rcases fresh worker started with ⟨process, index, name⟩
      refine ⟨{ settings := settings.normalize }, index, ?_, rfl, name⟩
      rw [process]
      exact List.getElem?_concat_length
  · intro left right first second foundLeft foundRight firstAlive
      secondAlive same
    simp only [List.getElem?_append] at foundLeft foundRight
    split_ifs at foundLeft foundRight with leftOld rightOld rightOld
    · exact named.distinct left right first second foundLeft foundRight
        firstAlive secondAlive same
    · exact (apart first (List.mem_of_getElem? foundLeft) firstAlive
        second (List.mem_of_getElem? foundRight) same).elim
    · exact (apart second (List.mem_of_getElem? foundRight) secondAlive
        first (List.mem_of_getElem? foundLeft) same.symm).elim
    · rw [workers_getElem foundLeft, workers_getElem foundRight] at same
      have numbers := (workerName_inj same).2
      omega

theorem Named.stop
    (named : Named state) {process : Nat} {pool : WorkerPool} :
    Named
      { state with
        pools := state.pools.set process { pool with live := false }
        workers := state.workers.map (Worker.stopped process) } := by
  have survivor :
      ∀ worker : Worker,
        (Worker.stopped process worker).phase ≠ .gone →
          worker.process ≠ process ∧
            Worker.stopped process worker = worker := by
    intro worker alive
    unfold Worker.stopped at alive ⊢
    split_ifs at alive ⊢ with inside
    · exact (alive rfl).elim
    · exact ⟨inside, rfl⟩
  constructor
  · intro worker member alive
    rcases List.mem_map.mp member with ⟨before, inside, equal⟩
    subst worker
    rcases survivor before alive with ⟨other, same⟩
    rw [same] at alive ⊢
    rcases named.pooled before inside alive with
      ⟨pool, index, found, live, name⟩
    refine ⟨pool, index, ?_, live, name⟩
    rw [List.getElem?_set_ne other.symm]
    exact found
  · intro left right first second foundLeft foundRight firstAlive
      secondAlive same
    rw [List.getElem?_map, Option.map_eq_some_iff]
      at foundLeft foundRight
    rcases foundLeft with ⟨before, foundLeft, equal⟩
    subst first
    rcases foundRight with ⟨other, foundRight, equal⟩
    subst second
    have firstSame := (survivor before firstAlive).2
    have secondSame := (survivor other secondAlive).2
    rw [firstSame] at firstAlive same
    rw [secondSame] at secondAlive same
    exact named.distinct left right before other foundLeft foundRight
      firstAlive secondAlive same

theorem Named.work
    (named : Named state) (found : state.workers[index]? = some worker)
    (alive : worker.phase ≠ .gone) (phase : Phase) {events : List Event} :
    Named
      { state with
        store
        workers := state.workers.set index { worker with phase }
        events } := by
  constructor
  · intro other member otherAlive
    rcases List.mem_or_eq_of_mem_set member with inside | equal
    · exact named.pooled other inside otherAlive
    · subst other
      exact named.pooled worker (List.mem_of_getElem? found) alive
  · have before :
        ∀ (position : Nat) (current : Worker),
          (state.workers.set index { worker with phase })[position]? =
              some current →
            current.phase ≠ .gone →
            ∃ old : Worker,
              state.workers[position]? = some old ∧
                old.phase ≠ .gone ∧
                old.workerID = current.workerID := by
      intro position current located stands
      rcases getElem?_set_cases located with ⟨same, equal⟩ | ⟨_, old⟩
      · subst current
        subst position
        exact ⟨worker, found, alive, rfl⟩
      · exact ⟨current, old, stands, rfl⟩
    intro left right first second foundLeft foundRight firstAlive
      secondAlive same
    rcases before left first foundLeft firstAlive with
      ⟨one, oneFound, oneAlive, oneName⟩
    rcases before right second foundRight secondAlive with
      ⟨two, twoFound, twoAlive, twoName⟩
    apply named.distinct left right one two oneFound twoFound oneAlive
      twoAlive
    rw [oneName, twoName, same]

theorem Named.keep
    (named : Named state) (alone : step.Alone state)
    (moves : state.Moves platform step next) : Named next := by
  cases moves with
  | start settings registry => exact named.start settings registry alone
  | stop process pool found detached => exact named.stop
  | work index action worker reaction found acts =>
      exact named.work found acts.alive.1 reaction.phase
  | sent step call outside => exact ⟨named.pooled, named.distinct⟩
  | served step label store answer stepped =>
      exact ⟨named.pooled, named.distinct⟩

end Naming

/-! ## The fence -/

/--
If a task that the claim has taken is locked by the name of the worker, it
runs under this claim.
-/
def Fenced (history : List StoreCommit) (workerID : GoString)
    (claim : Nat) : Prop :=
  ∀ id, ∀ commit ∈ history, commit.session = claim →
    (written id commit.writes).isSome = true →
      ∀ grant locker,
        granted id history = some grant →
        grant.row.lockedBy = some locker → locker.bytes = workerID →
          grant.session = claim

theorem Fenced.concat
    {history : List StoreCommit} {workerID : GoString}
    (fenced : Fenced history workerID claim)
    (own : commit.session = claim → ∃ name, commit.call = .claim name)
    (other :
      ∀ id name row locker,
        commit.call = .claim name →
        written id commit.writes = some row →
        row.lockedBy = some locker → locker.bytes = workerID →
          commit.session = claim) :
    Fenced (history ++ [commit]) workerID claim := by
  intro id entry member atClaim wrote grant locker found locked name
  rw [granted_concat] at found
  rw [List.mem_append, List.mem_singleton] at member
  have kept :
      nextGrant id (granted id history) commit = granted id history →
        entry ≠ commit → grant.session = claim := by
    intro same different
    rw [same] at found
    exact fenced id entry (member.resolve_right different) atClaim wrote
      grant locker found locked name
  cases row : written id commit.writes with
  | none =>
      apply kept (nextGrant_unwritten row)
      intro equal
      rw [equal, row] at wrote
      cases wrote
  | some fresh =>
      by_cases running : fresh.status = .running
      · cases call : commit.call with
        | claim workerID =>
            simp only [nextGrant, row, running, call, if_true,
              Option.some.injEq] at found
            subst grant
            exact other id workerID fresh locker call row locked name
        | _ =>
            apply kept
            · simp only [nextGrant, row, running, call, if_true]
            · intro equal
              rw [equal] at atClaim
              rcases own atClaim with ⟨_, claimed⟩
              rw [call] at claimed
              cases claimed
      · rw [nextGrant_ended row running] at found
        cases found

/--
The names of live workers differ, and every worker is fenced by the claim it
waits for or executes.
-/
structure Guarded (platform : Platform) (state : State) : Prop where
  tracked : Tracked platform state
  named : Named state
  fenced :
    ∀ worker ∈ state.workers, ∀ claim,
      worker.phase.claim = some claim →
        Fenced state.store.history worker.workerID claim

section Guarding

variable {platform : Platform} {state next : State} {step : Step}

/-- A worker keeps its claim until it is done, or makes a new one. -/
theorem Worker.Acts.claim_cases
    {reaction : Reaction} (acts : worker.Acts store reaction)
    (claiming : reaction.phase.claim = some claim) :
    worker.phase.claim = some claim ∨ claim = store.sessions.length := by
  cases acts with
  | claim phase =>
      cases claiming
      exact Or.inr rfl
  | refused began result phase returned => cases claiming
  | settle began task heartbeat session result phase returned =>
      cases claiming
  | execute began task phase returned =>
      rw [phase]
      unfold Worker.execute at claiming
      split_ifs at claiming
      · exact Or.inl claiming
      · exact Or.inl claiming
  | finish began task heartbeat handled nextRunAt duration phase =>
      rw [phase]
      exact Or.inl claiming
  | beatRunning began task heartbeat later call phase beat =>
      rw [phase]
      exact Or.inl claiming
  | beatPersisting began task heartbeat later session call phase beat =>
      rw [phase]
      exact Or.inl claiming

/-- The claim that a worker waits for or executes is a call of its own. -/
theorem Tracked.claim_called
    (tracked : Tracked platform state) (member : worker ∈ state.workers)
    (claiming : worker.phase.claim = some claim) :
    Called state.store claim (.claim worker.workerID) := by
  have ok := tracked.ok worker member
  unfold Worker.Ok at ok
  cases phase : worker.phase with
  | claiming began =>
      rw [phase] at claiming
      cases claiming
      simpa only [phase] using ok
  | running began task heartbeat =>
      rw [phase] at claiming
      cases claiming
      simp only [phase] at ok
      exact ok.called
  | persisting began task heartbeat session =>
      rw [phase] at claiming
      cases claiming
      simp only [phase] at ok
      exact ok.1.called
  | _ =>
      rw [phase] at claiming
      cases claiming

/-- A commit keeps the fence of every worker. -/
theorem Guarded.fenced_concat
    (guarded : Guarded platform state)
    (running : state.store.InProgress commit.session)
    (called : Called state.store commit.session commit.call)
    (lawful : Lawful platform state.store.db commit.call commit.writes)
    {position : Nat} (located : state.workers[position]? = some worker)
    (claiming : worker.phase.claim = some claim) :
    Fenced (state.store.history ++ [commit]) worker.workerID claim := by
  have member := List.mem_of_getElem? located
  apply (guarded.fenced worker member claim claiming).concat
  · intro same
    subst claim
    exact ⟨_, called.unique (guarded.tracked.claim_called member claiming)⟩
  · intro id name row locker claimed wrote locked equal
    rw [claimed] at called
    rcases guarded.tracked.claimer called running with
      ⟨place, claimer, found, phase, sameName⟩
    have alive : claimer.phase ≠ .gone := by
      rw [phase]
      exact nofun
    have workerAlive : worker.phase ≠ .gone := by
      intro gone
      rw [gone] at claiming
      cases claiming
    rcases guarded.named.pooled claimer (List.mem_of_getElem? found)
        alive with
      ⟨pool, index, _, _, poolName⟩
    have lockerName : locker.bytes = claimer.workerID := by
      rw [claimed] at lawful
      rcases lawful.locker wrote with ⟨text, encoded, stored⟩
      rw [locked] at stored
      cases stored
      rw [← sameName, poolName] at encoded
      rw [poolName]
      exact claim_locker encoded
    have samePlace :=
      guarded.named.distinct place position claimer worker found located
        alive workerAlive (lockerName.symm.trans equal)
    subst place
    rw [located] at found
    cases found
    rw [phase] at claiming
    exact Option.some.inj claiming

/-- A step that publishes nothing keeps the fence of every worker. -/
theorem Guarded.fenced_silent
    (guarded : Guarded platform state)
    (moves : state.Moves platform step next)
    (silent : next.store.history = state.store.history) :
    ∀ worker ∈ next.workers, ∀ claim,
      worker.phase.claim = some claim →
        Fenced next.store.history worker.workerID claim := by
  rw [silent]
  intro worker member claim claiming
  cases moves with
  | start settings registry =>
      rcases List.mem_append.mp member with inside | started
      · exact guarded.fenced worker inside claim claiming
      · rcases List.mem_map.mp started with ⟨index, _, equal⟩
        subst worker
        cases claiming
  | stop process pool found detached =>
      rcases List.mem_map.mp member with ⟨before, inside, equal⟩
      subst worker
      unfold Worker.stopped at claiming ⊢
      split_ifs at claiming ⊢
      · cases claiming
      · exact guarded.fenced before inside claim claiming
  | work index action actor reaction found acts =>
      rcases List.mem_or_eq_of_mem_set member with inside | equal
      · exact guarded.fenced worker inside claim claiming
      · subst worker
        have old := guarded.fenced actor (List.mem_of_getElem? found)
        rcases acts.claim_cases claiming with kept | fresh
        · exact old claim kept
        · intro id commit occurs atClaim
          rcases guarded.tracked.reached with ⟨schedule, followed⟩
          rcases (interleave_ok followed).known commit occurs with
            ⟨session, located, _⟩
          have bound := (List.getElem?_eq_some_iff.mp located).1
          omega
  | sent step call outside =>
      exact guarded.fenced worker member claim claiming
  | served step label store answer stepped =>
      exact guarded.fenced worker member claim claiming

theorem Guarded.keep
    (guarded : Guarded platform state) (alone : step.Alone state)
    (moves : state.Moves platform step next) : Guarded platform next where
  tracked := guarded.tracked.keep moves
  named := guarded.named.keep alone moves
  fenced := by
    rcases moves.history_cases with silent | ⟨same, commit, grown⟩
    · exact guarded.fenced_silent moves silent
    · rcases moves.published guarded.tracked.reached grown with
        ⟨running, called, lawful, _, _⟩
      intro worker member claim claiming
      rw [same] at member
      rcases List.mem_iff_getElem?.mp member with ⟨position, located⟩
      rw [grown]
      exact guarded.fenced_concat running called lawful located claiming

theorem guarded_start : Guarded platform {} where
  tracked := tracked_start
  named := ⟨by simp, by simp⟩
  fenced := by simp

/-- What is known in every state of a run that keeps prefixes apart. -/
theorem follow_guarded
    {run : List Step}
    (followed : State.follow platform {} run = some state)
    (alone : Alone platform {} run) : Guarded platform state :=
  State.alone_invariant
    (fun _ _ _ guarded alone moves => guarded.keep alone moves)
    guarded_start alone followed

/-- A write that takes effect finds the task under its own claim. -/
theorem Guarded.effective
    (guarded : Guarded platform state)
    (moves : state.Moves platform step next)
    (grown : next.store.history = state.store.history ++ [commit])
    {task : TaskRow}
    (persisted : .persisted claim task commit.session ∈ state.events) :
    ∃ (workerID : GoString) (move : Move) (grant : Grant),
      Ends workerID task commit.call ∧ commit.writes = writesOf [move] ∧
        move.Legal state.store.db ∧ commit.call.Performs move ∧
        move.row.id = task.id ∧
        granted task.id state.store.history = some grant ∧
        grant.session = claim ∧ grant.Covers move.row ∧
        task = scanClaimed grant.row := by
  have tracked := guarded.tracked
  rcases moves.published tracked.reached grown with
    ⟨running, called, lawful, _, wrote⟩
  rcases tracked.executor persisted running with
    ⟨position, worker, heartbeat, located, phase⟩
  have member := List.mem_of_getElem? located
  have ok := tracked.ok worker member
  simp only [Worker.Ok, phase] at ok
  rcases ok with ⟨received, ⟨call, sent, ends⟩, _⟩
  rw [sent.unique called] at ends
  rcases ends.move lawful wrote with
    ⟨move, locker, writes, legal, performs, sameTask, name, owned⟩
  rcases tracked.reached with ⟨schedule, followed⟩
  have found := legal.found
  rw [sameTask] at found
  have held := interleave_granted followed task.id
  cases current : granted task.id state.store.history with
  | none =>
      exact (held.without current _ found (ownedBy_running owned)).elim
  | some grant =>
      rcases held.covers grant current with ⟨row, stored, covers⟩
      rw [found] at stored
      cases stored
      rcases received.committed tracked.reached with
        ⟨given, entry, committed, wroteTask, returned, sole⟩
      have locked : grant.row.lockedBy = some locker := by
        rw [← covers.lockedBy]
        simp only [TaskRecord.ownedBy, decide_eq_true_eq] at owned
        exact owned.2
      have claiming : worker.phase.claim = some claim := by
        rw [phase]
        rfl
      have mine : grant.session = claim :=
        guarded.fenced worker member claim claiming task.id _ committed
          rfl (by simp [wroteTask]) grant locker current locked name
      rcases held.stems grant current with
        ⟨source, occurs, _, _, sameSession, _, wroteGrant, _⟩
      rw [sole source occurs (sameSession.trans mine), wroteTask]
        at wroteGrant
      cases wroteGrant
      exact ⟨worker.workerID, move, grant, ends, writes, legal, performs,
        sameTask, rfl, mine, covers, returned⟩

/-- The task still runs under the claim that has returned it. -/
def StillHeld (store : StoreConfig) (claim : Nat) (task : TaskRow) :
    Prop :=
  ∃ row grant,
    store.db.find task.id = some row ∧ row.status = .running ∧
      (row.attempts : Int) = task.attempts ∧
      granted task.id store.history = some grant ∧
      grant.session = claim

/-- What holds of the writes that end executions. -/
structure WritesFenced (platform : Platform) (state : State) : Prop where
  /-- One that takes effect finds the task under its own claim. -/
  effective :
    ∀ step next commit claim task,
      state.step platform step = some next →
      next.store.history = state.store.history ++ [commit] →
      .persisted claim task commit.session ∈ state.events →
        StillHeld state.store claim task
  /-- One that has returned took effect, or was refused. -/
  refused :
    ∀ claim task index session response,
      .persisted claim task index ∈ state.events →
      state.store.sessions[index]? = some session →
      session.program = some (.done response) →
        ((∃ commit ∈ state.store.history, commit.session = index) ∧
          response = .unit (.ok ())) ∨
          ((∀ commit ∈ state.store.history, commit.session ≠ index) ∧
            response.failed = true ∧
            (session.faulted = false →
              response = .unit (.error .taskOwnershipLost)))

/-- A write that has returned took effect, or was refused. -/
theorem Ends.refused
    {workerID : GoString} {task : TaskRow} {session : StoreSession}
    {response : Response} {db : Database}
    (ends : Ends workerID task session.call)
    (promised :
      Ensured platform False session.call session.commits session.faulted
        response db) :
    (session.commits ≠ [] ∧ response = .unit (.ok ())) ∨
      (session.commits = [] ∧ response.failed = true ∧
        (session.faulted = false →
          response = .unit (.error .taskOwnershipLost))) := by
  generalize session.call = call at ends promised
  cases ends <;>
    rcases promised with ⟨move, committed, _, _, returned⟩ | declined
  all_goals first
    | exact Or.inr declined
    | exact Or.inl ⟨by simp [committed], returned⟩

/--
In every run that starts a pool only while no live pool has its prefix, every
write that ends an execution is fenced by the claim of the execution.
-/
theorem writes_fenced_of_alone
    {run : List Step}
    (followed : State.follow platform {} run = some state)
    (alone : Alone platform {} run) : WritesFenced platform state := by
  have guarded := follow_guarded followed alone
  constructor
  · intro step next commit claim task stepped grown persisted
    rcases guarded.effective (State.step_moves stepped) grown
        persisted with
      ⟨_, move, grant, _, _, legal, _, sameTask, held, mine, covers, returned⟩
    have found := legal.found
    rw [sameTask] at found
    refine ⟨move.row, grant, found, covers.running, ?_, held, mine⟩
    rw [covers.attempts, returned]
    rfl
  · intro claim task index session response persisted found finished
    rcases guarded.tracked.persisted claim task index persisted with
      ⟨⟨workerID, call, called, ends⟩, _⟩
    rw [called.unique ⟨session, found, rfl⟩] at ends
    rcases guarded.tracked.reached with ⟨schedule, reached⟩
    have ok := interleave_ok reached
    have recorded := ok.recorded index session found
    rcases ends.refused (ok.ensures found finished) with
      ⟨committed, returned⟩ | ⟨silent, declined⟩
    · rw [recorded, ne_eq, List.map_eq_nil_iff,
        List.filter_eq_nil_iff] at committed
      push Not at committed
      rcases committed with ⟨commit, member, atIndex⟩
      exact Or.inl ⟨⟨commit, member, by simpa using atIndex⟩, returned⟩
    · rw [recorded, List.map_eq_nil_iff, List.filter_eq_nil_iff]
        at silent
      refine Or.inr ⟨?_, declined⟩
      intro commit member atIndex
      exact silent commit member (by simp [atIndex])

end Guarding

/-! ## Two runs -/

/-- The server answers a call the given number of times. -/
def answers (session count : Nat) (clock : Time) : List Step :=
  List.replicate count (.serve session (calm 7 clock 0))

/-- A worker claims a task, and its handler succeeds. -/
def completedRun : List Step :=
  [.call (.create (emailTask []))] ++ answers 0 4 0 ++
    [.start {} fun _ => true, .work 0 .claim] ++ answers 1 5 0 ++
    [.work 0 .receive, .work 0 (.finish (.returned none) 0 5)] ++
    answers 2 3 0

/--
Two pools have the default prefix.  The reaper returns the task of the first
one to `PENDING`, the second one claims it again, and then the handler of the
first one succeeds.
-/
def rescuedRun : List Step :=
  [.call (.create (emailTask []))] ++ answers 0 4 0 ++
    [.start {} fun _ => true, .start {} fun _ => true, .work 0 .claim] ++
    answers 1 5 0 ++ [.work 0 .receive, .reap 1] ++
    answers 2 6 1000000000 ++ [.work 1 .claim] ++
    answers 3 5 1000000000 ++
    [.work 1 .receive, .work 0 (.finish (.returned none) 0 5)] ++
    answers 4 3 1000000000

/-- The task as the first claim returns it. -/
def firstAttempt : TaskRow :=
  { id := 7, type := ascii "email", attempts := 1, maxRetries := 3 }

/--
The next answer publishes the write of the session, which ends the execution
of the first claim, while the row has the given attempts.
-/
def publishesOver (session attempts : Nat) (state next : State) : Bool :=
  .persisted 1 firstAttempt session ∈ state.events ∧
    (state.store.db.find 7).map TaskRecord.attempts = some attempts ∧
    (next.store.db.find 7).map TaskRecord.status = some .completed ∧
    next.store.history.length = state.store.history.length + 1 ∧
    next.store.history.getLast?.map Commit.session = some session

theorem publishesOver_commit
    {platform : Platform} {state next : State} {step : Step}
    {session attempts : Nat}
    (stepped : state.step platform step = some next)
    (publishes : publishesOver session attempts state next = true) :
    ∃ commit,
      next.store.history = state.store.history ++ [commit] ∧
        .persisted 1 firstAttempt commit.session ∈ state.events := by
  simp only [publishesOver, decide_eq_true_eq] at publishes
  rcases publishes with ⟨persisted, _, _, longer, last⟩
  rcases (State.step_moves stepped).history_cases with
    silent | ⟨_, commit, grown⟩
  · rw [silent] at longer
    omega
  · refine ⟨commit, grown, ?_⟩
    rw [grown] at last
    simp only [List.getLast?_concat, Option.map_some,
      Option.some.injEq] at last
    rw [last]
    exact persisted

/-- The state after a run, and after one more answer to a session. -/
def answered (run : List Step) (session : Nat) (clock : Time) :
    Option (State × State) :=
  (State.follow echoPlatform {} run).bind fun state =>
    (state.step echoPlatform (.serve session (calm 7 clock 0))).map
      fun next => (state, next)

theorem answered_cases
    {run : List Step} {session : Nat} {clock : Time}
    {state next : State}
    (observed : answered run session clock = some (state, next)) :
    State.follow echoPlatform {} run = some state ∧
      state.step echoPlatform (.serve session (calm 7 clock 0)) =
        some next := by
  rcases Option.bind_eq_some_iff.mp observed with
    ⟨before, followed, observed⟩
  rcases Option.map_eq_some_iff.mp observed with
    ⟨after, stepped, equal⟩
  cases equal
  exact ⟨followed, stepped⟩

theorem completedRun_fenced :
    ∃ state next commit,
      State.follow echoPlatform {} completedRun = some state ∧
        state.step echoPlatform (.serve 2 (calm 7 0 0)) = some next ∧
        next.store.history = state.store.history ++ [commit] ∧
        .persisted 1 firstAttempt commit.session ∈ state.events ∧
        StillHeld state.store 1 firstAttempt := by
  have alone : Alone echoPlatform {} completedRun := by
    decide +kernel
  have outcome :
      (answered completedRun 2 0).any
        (fun (state, next) => publishesOver 2 1 state next) = true := by
    decide +kernel
  simp only [Option.any_eq_true] at outcome
  rcases outcome with ⟨⟨state, next⟩, observed, publishes⟩
  rcases answered_cases observed with ⟨followed, stepped⟩
  rcases publishesOver_commit stepped publishes with
    ⟨commit, grown, persisted⟩
  refine ⟨state, next, commit, followed, stepped, grown, persisted, ?_⟩
  exact (writes_fenced_of_alone followed alone).effective _ next commit
    1 firstAttempt stepped grown persisted

theorem rescuedRun_unfenced :
    ∃ state next commit,
      State.follow echoPlatform {} rescuedRun = some state ∧
        state.step echoPlatform (.serve 4 (calm 7 1000000000 0)) = some next ∧
        next.store.history = state.store.history ++ [commit] ∧
        .persisted 1 firstAttempt commit.session ∈ state.events ∧
        (next.store.db.find 7).map TaskRecord.status = some .completed ∧
        ¬ StillHeld state.store 1 firstAttempt := by
  have outcome :
      (answered rescuedRun 4 1000000000).any
        (fun (state, next) => publishesOver 4 2 state next) = true := by
    decide +kernel
  simp only [Option.any_eq_true] at outcome
  rcases outcome with ⟨⟨state, next⟩, observed, publishes⟩
  rcases answered_cases observed with ⟨followed, stepped⟩
  rcases publishesOver_commit stepped publishes with
    ⟨commit, grown, persisted⟩
  simp only [publishesOver, decide_eq_true_eq] at publishes
  rcases publishes with ⟨_, attempts, completed, _⟩
  refine ⟨state, next, commit, followed, stepped, grown, persisted,
    completed, ?_⟩
  rintro ⟨row, grant, found, _, same, _⟩
  change state.store.db.find 7 = some row at found
  change (row.attempts : Int) = 1 at same
  rw [found] at attempts
  have twice : row.attempts = 2 := by simpa using attempts
  omega

end Dhara.Pool
