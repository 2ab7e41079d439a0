import Dhara.Pool.System

/-!
# Executions

What is known about the executions of all workers in every state reached.  A
worker that executes a task has received it from its own claim, and a write
that ends an execution follows from the task that was received.  A call in
progress that a worker waits for has such a worker.

Nothing here depends on how the workers are named.
-/

namespace Dhara.Pool

open Dhara.Store Dhara.Transaction

variable {task : TaskRow} {workerID : GoString} {store : StoreConfig}
  {worker : Worker} {call : Call} {index : Nat} {reaction : Reaction}

/-! ## Calls -/

/-- The session belongs to the call. -/
def Called (store : StoreConfig) (index : Nat) (call : Call) : Prop :=
  ∃ session, store.sessions[index]? = some session ∧ session.call = call

/-- The claim has returned the task. -/
def Received (store : StoreConfig) (index : Nat) (workerID : GoString)
    (task : TaskRow) : Prop :=
  ∃ session,
    store.sessions[index]? = some session ∧
      session.call = .claim workerID ∧
      session.program = some (.done (.task (.ok task)))

/-- The writes that end the execution of a task. -/
inductive Ends (workerID : GoString) (task : TaskRow) : Call → Prop where
  | completed (durationMs : Int) :
      Ends workerID task (.markCompleted task.id workerID durationMs)
  | pending (lastError : GoString) (nextRunAt : Time)
      (left : task.attempts < task.maxRetries) :
      Ends workerID task (.markPending task workerID lastError nextRunAt)
  | dead (lastError reason : GoString) :
      Ends workerID task (.markDead task.id workerID lastError reason)

theorem handleFailure_ends
    (workerID : GoString) (task : TaskRow) (error : GoString)
    (nextRunAt : Time) :
    Ends workerID task (handleFailure workerID task error nextRunAt) := by
  unfold handleFailure
  split_ifs with exhausted
  · exact .dead error _
  · exact .pending error nextRunAt (not_le.mp exhausted)

theorem markHandled_ends
    (workerID : GoString) (task : TaskRow) (handled : Handled)
    (nextRunAt : Time) (taskDurationMS : Int) :
    Ends workerID task
      (markHandled workerID task handled nextRunAt taskDurationMS) := by
  unfold markHandled
  split
  · exact handleFailure_ends workerID task _ nextRunAt
  · exact .completed taskDurationMS

/-- A worker waits for the result of the call before it goes on. -/
def awaited : Call → Bool
  | .claim _ => true
  | .markCompleted _ _ _ => true
  | .markPending _ _ _ _ => true
  | .markDead _ _ _ _ => true
  | _ => false

/-- The call whose result the worker waits for. -/
def Phase.waitsFor : Phase → Option Nat
  | .claiming claim => some claim
  | .persisting _ _ _ session => some session
  | _ => none

theorem Ends.awaited
    (ends : Ends workerID task call) : awaited call = true := by
  cases ends <;> rfl

/-- The call records an outcome of the task in the name of the worker. -/
def Records (id : TaskId) (workerID : GoString) : Call → Prop
  | .markCompleted taskID name _ => taskID = id ∧ name = workerID
  | .markPending task name _ _ => task.id = id ∧ name = workerID
  | .markDead taskID name _ _ => taskID = id ∧ name = workerID
  | _ => False

theorem Ends.records
    (ends : Ends workerID task call) :
    Records task.id workerID call := by
  cases ends <;> exact ⟨rfl, rfl⟩

/-- An outcome is recorded only by the worker that has locked the row. -/
theorem Records.owned
    {id : TaskId} {move : Move} (records : Records id workerID call)
    (performs : call.Performs move)
    (enabled : move.change.Enabled move.now move.row) :
    move.row.id = id ∧
      ∃ worker, worker.bytes = workerID ∧ move.row.ownedBy worker = true := by
  cases call with
  | markCompleted taskID name durationMs =>
      rcases records with ⟨sameId, sameName⟩
      rcases Update.encode_markCompleted performs.2.1 with
        ⟨worker, bound, change⟩
      rw [change] at enabled
      exact ⟨performs.1.trans sameId, worker,
        (toText_eq_ok_iff.mp bound).trans sameName, enabled⟩
  | markPending task name lastError nextRunAt =>
      rcases records with ⟨sameId, sameName⟩
      rcases Update.encode_markPending performs.2.1 with
        ⟨worker, error, time, bound, _, _, change⟩
      rw [change] at enabled
      exact ⟨performs.1.trans sameId, worker,
        (toText_eq_ok_iff.mp bound).trans sameName, enabled⟩
  | markDead taskID name lastError reason =>
      rcases records with ⟨sameId, sameName⟩
      rcases Update.encode_markDead performs.2.1 with
        ⟨worker, error, bound, _, change⟩
      rw [change] at enabled
      exact ⟨performs.1.trans sameId, worker,
        (toText_eq_ok_iff.mp bound).trans sameName, enabled⟩
  | _ => exact records.elim

/-- A write that ends an execution moves the task of its worker. -/
theorem Ends.move
    {platform : Platform} {db : Database} {writes : List Write}
    (ends : Ends workerID task call) (lawful : Lawful platform db call writes)
    (wrote : writes ≠ []) :
    ∃ (move : Move) (worker : Text),
      writes = writesOf [move] ∧ move.Legal db ∧ call.Performs move ∧
        move.row.id = task.id ∧ worker.bytes = workerID ∧
        move.row.ownedBy worker = true := by
  have moved :
      ∃ move : Move,
        writes = writesOf [move] ∧ move.Legal db ∧ call.Performs move := by
    apply lawful.moves wrote
    · cases ends <;> rfl
    · intro taskID name equal
      subst equal
      cases ends
    · intro threshold reaperID equal
      subst equal
      cases ends
  rcases moved with ⟨move, equal, legal, performs⟩
  rcases ends.records.owned performs legal.enabled with
    ⟨same, worker, name, owned⟩
  exact ⟨move, worker, equal, legal, performs, same, name, owned⟩

section Stores

variable {platform : Platform} {store : StoreConfig} {index : Nat}

theorem Called.unique
    {first second : Call} (one : Called store index first)
    (two : Called store index second) : first = second := by
  rcases one with ⟨session, found, equal⟩
  rcases two with ⟨other, located, same⟩
  rw [found] at located
  cases located
  exact equal.symm.trans same

theorem Called.lt
    (called : Called store index call) :
    index < store.sessions.length := by
  rcases called with ⟨session, found, _⟩
  exact (List.getElem?_eq_some_iff.mp found).1

theorem Received.called
    (received : Received store index workerID task) :
    Called store index (.claim workerID) := by
  rcases received with ⟨session, found, called, _⟩
  exact ⟨session, found, called⟩

/-- A claim that has returned a task has committed exactly its row. -/
theorem Received.committed
    (received : Received store index workerID task)
    (reached : Reached platform store) :
    ∃ row writes,
      ⟨index, .claim workerID, writes⟩ ∈ store.history ∧
        written task.id writes = some row ∧ task = scanClaimed row ∧
        ∀ commit ∈ store.history, commit.session = index →
          commit.writes = writes := by
  rcases received with ⟨session, found, called, finished⟩
  rcases reached with ⟨schedule, followed⟩
  have promised := (interleave_ok followed).ensures found finished
  have recorded := (interleave_ok followed).history_of found
  rw [called] at promised recorded
  rcases promised with
    ⟨move, committed, _, _, returned⟩ | ⟨_, declined⟩
  · cases returned
    rw [committed] at recorded
    have wrote : written move.row.id (writesOf [move]) = some move.after :=
      written_writesOf (by simp) (by simp)
    refine ⟨move.after, writesOf [move], ?_, ?_, rfl, ?_⟩
    · apply List.mem_of_mem_filter
      rw [recorded]
      exact List.mem_singleton.mpr rfl
    · change written move.after.id _ = _
      rw [move.after_id]
      exact wrote
    · intro commit member atIndex
      have inside :
          commit ∈ store.history.filter
            (fun commit => commit.session = index) := by
        simpa [member] using atIndex
      rw [recorded] at inside
      rw [List.mem_singleton.mp inside]
  · cases declined.1

theorem called_send (call : Call) (store : StoreConfig) :
    Called (send platform call store) store.sessions.length call :=
  ⟨_, List.getElem?_concat_length, rfl⟩

theorem callResult_ended
    {result : Option Response}
    (returned : callResult store index = some result) :
    ¬ store.InProgress index := by
  rintro ⟨session, program, found, current, unfinished⟩
  simp only [callResult, found, current] at returned
  cases returned

/-- A call that has returned keeps its result. -/
theorem callResult_step
    {label : StoreLabel} {next : StoreConfig} {result : Option Response}
    (stepped :
      (postgres platform).step (Call.program platform) store label =
        some next)
    (returned : callResult store index = some result) :
    callResult next index = some result := by
  cases found : store.sessions[index]? with
  | none =>
      simp only [callResult, found] at returned
      cases returned
  | some session =>
      have inside := (List.getElem?_eq_some_iff.mp found).1
      have stays := List.getElem?_eq_getElem
        (Nat.lt_of_lt_of_le inside (Engine.step_length stepped))
      simp only [callResult, found] at returned
      simp only [callResult, stays]
      rcases Engine.step_session stepped stays with
        old | ⟨_, _, last, _⟩ |
          ⟨_, mover, moved, _, located, trip, equal⟩ |
          ⟨victim, located, running, equal⟩
      · rw [found] at old
        cases old
        exact returned
      · omega
      · rw [found] at located
        cases located
        rw [equal]
        cases trip with
        | rollback response finished =>
            simp only [finished] at returned ⊢
            split_ifs at returned
            exact returned
        | fault fault program rest tx current failing =>
            cases program <;> simp_all [Program.onFault]
        | begun _ program | executed _ _ _ _ program
        | queried _ _ _ program | scanned _ program
        | committed _ _ program | counted _ _ _ program =>
            simp only [program] at returned
            cases returned
      · rw [found] at located
        cases located
        rw [equal]
        split at returned
        · exact returned
        · rename_i response finished
          exact absurd finished (running response)
        · cases returned

theorem callResult_response
    {response : Response}
    (returned : callResult store index = some (some response)) :
    ∃ session,
      store.sessions[index]? = some session ∧
        session.program = some (.done response) := by
  unfold callResult at returned
  split at returned
  · cases returned
  · rename_i session found
    split at returned
    · cases returned
    · rename_i result current
      split_ifs at returned
      cases returned
      exact ⟨session, found, current⟩
    · cases returned

end Stores

/-! ## One step -/

/-- A worker that sends a call it waits for does so from then on. -/
theorem Worker.Acts.sends
    (acts : worker.Acts store reaction) (calling : reaction.call = some call)
    (waited : awaited call = true) :
    reaction.phase.waitsFor = some store.sessions.length := by
  cases acts with
  | claim phase => rfl
  | finish claim task heartbeat handled nextRunAt duration phase => rfl
  | execute claim task phase returned =>
      unfold Worker.execute at calling ⊢
      split_ifs at calling ⊢
      rfl
  | refused claim result phase returned => cases calling
  | settle claim task heartbeat session result phase returned =>
      cases calling
  | beatRunning claim task heartbeat later sent phase beat =>
      rw [beat call calling] at waited
      cases waited
  | beatPersisting claim task heartbeat later session sent phase beat =>
      rw [beat call calling] at waited
      cases waited

section Moves

variable {platform : Platform} {state next : State} {step : Step}

section

variable (moves : state.Moves platform step next)

include moves

theorem State.Moves.session {session : StoreSession}
    (found : state.store.sessions[index]? = some session) :
    ∃ after,
      next.store.sessions[index]? = some after ∧
        after.call = session.call ∧
        ∀ result, session.program = some (.done result) →
          after.program = some (.done result) := by
  rcases moves.store with same | ⟨label, stepped⟩
  · rw [same]
    exact ⟨session, found, rfl, fun _ finished => finished⟩
  · exact Engine.step_call stepped found

theorem State.Moves.called
    (called : Called state.store index call) :
    Called next.store index call := by
  rcases called with ⟨session, found, equal⟩
  rcases moves.session found with ⟨after, stays, sameCall, _⟩
  exact ⟨after, stays, sameCall.trans equal⟩

theorem State.Moves.received
    (received : Received state.store index workerID task) :
    Received next.store index workerID task := by
  rcases received with ⟨session, found, equal, finished⟩
  rcases moves.session found with ⟨after, stays, sameCall, sameResult⟩
  exact ⟨after, stays, sameCall.trans equal, sameResult _ finished⟩

theorem State.Moves.events :
    state.events ⊆ next.events := by
  cases moves with
  | work index action worker reaction found acts =>
      exact List.subset_append_left _ _
  | _ => exact List.Subset.refl _

/-- A call in progress was in progress before, or was just sent. -/
theorem State.Moves.inProgress
    (running : next.store.InProgress index) :
    state.store.InProgress index ∨
      ∃ call,
        index = state.store.sessions.length ∧
          Called next.store index call ∧
          (awaited call = true →
            ∃ (position : Nat) (worker : Worker),
              next.workers[position]? = some worker ∧
                worker.phase.waitsFor = some index) := by
  have sent :
      ∀ call, next.store = send platform call state.store →
        state.store.InProgress index ∨
          index = state.store.sessions.length ∧
            Called next.store index call := by
    intro call equal
    have stepped :
        (postgres platform).step (Call.program platform) state.store
          (.spawn call) = some next.store :=
      congrArg some equal.symm
    rcases Engine.step_inProgress stepped running with
      old | ⟨_, _, last⟩
    · exact Or.inl old
    · refine Or.inr ⟨last, ?_⟩
      rw [equal, last]
      exact called_send call state.store
  cases moves with
  | start settings registry => exact Or.inl running
  | stop process pool found detached => exact Or.inl running
  | work position action worker reaction found acts =>
      rcases Option.eq_none_or_eq_some reaction.call with
        silent | ⟨call, calling⟩
      · simp only [silent, Option.elim_none] at running
        exact Or.inl running
      · rcases sent call (by simp only [calling, Option.elim_some]) with
          old | ⟨last, called⟩
        · exact Or.inl old
        · refine Or.inr ⟨call, last, called, ?_⟩
          intro waited
          subst index
          exact ⟨position, _, getElem?_set_some found,
            acts.sends calling waited⟩
  | sent step call outside =>
      rcases sent call rfl with old | ⟨last, called⟩
      · exact Or.inl old
      · refine Or.inr ⟨call, last, called, ?_⟩
        intro waited
        cases call <;> simp_all [fromOutside, awaited]
  | served step label store answer stepped =>
      rcases Engine.step_inProgress stepped running with
        old | ⟨call, spawned, _⟩
      · exact Or.inl old
      · exact (answer call spawned).elim

/-- Every call was there before, or was sent by a worker or from outside. -/
theorem State.Moves.called_cases
    (called : Called next.store index call) :
    Called state.store index call ∨ fromOutside call = true ∨
      ∃ (position : Nat) (worker : Worker) (reaction : Reaction),
        state.workers[position]? = some worker ∧
          worker.Acts state.store reaction ∧
          reaction.call = some call ∧
          next.events = state.events ++ reaction.events := by
  have sent :
      ∀ other, next.store = send platform other state.store →
        Called state.store index call ∨ call = other := by
    intro other equal
    rcases called with ⟨session, found, same⟩
    rw [equal] at found
    rcases getElem?_concat_some found with old | ⟨_, rfl⟩
    · exact Or.inl ⟨session, old, same⟩
    · exact Or.inr same.symm
  cases moves with
  | start settings registry => exact Or.inl called
  | stop process pool found detached => exact Or.inl called
  | work position action worker reaction found acts =>
      rcases Option.eq_none_or_eq_some reaction.call with
        silent | ⟨other, calling⟩
      · simp only [silent, Option.elim_none] at called
        exact Or.inl called
      · rcases sent other (by simp only [calling, Option.elim_some]) with
          old | same
        · exact Or.inl old
        · subst other
          exact Or.inr (Or.inr
            ⟨position, worker, reaction, found, acts, calling, rfl⟩)
  | sent step other outside =>
      rcases sent other rfl with old | same
      · exact Or.inl old
      · subst other
        exact Or.inr (Or.inl outside)
  | served step label store answer stepped =>
      rcases called with ⟨session, found, same⟩
      have before : ∃ old, state.store.sessions[index]? = some old := by
        rcases Engine.step_session stepped found with
          old | ⟨other, spawned, _⟩ | ⟨_, old, _, _, located, _⟩ |
            ⟨old, located, _⟩
        · exact ⟨session, old⟩
        · exact (answer other spawned).elim
        · exact ⟨old, located⟩
        · exact ⟨old, located⟩
      rcases before with ⟨old, located⟩
      rcases Engine.step_call stepped located with
        ⟨after, stays, sameCall, _⟩
      rw [found] at stays
      cases stays
      exact Or.inl ⟨old, located, sameCall.symm.trans same⟩

end

end Moves

/-! ## Every state -/

/-- What the worker knows agrees with its calls. -/
def Worker.Ok (store : StoreConfig) (events : List Event)
    (worker : Worker) : Prop :=
  match worker.phase with
  | .claiming claim => Called store claim (.claim worker.workerID)
  | .running claim task _ => Received store claim worker.workerID task
  | .persisting claim task _ session =>
      Received store claim worker.workerID task ∧
        (∃ call, Called store session call ∧ Ends worker.workerID task call) ∧
        .persisted claim task session ∈ events
  | _ => True

/-- The executions of all workers agree with the calls of the store. -/
structure Tracked (platform : Platform) (state : State) : Prop where
  reached : Reached platform state.store
  ok : ∀ worker ∈ state.workers, worker.Ok state.store state.events
  owned :
    ∀ index call, Called state.store index call →
      awaited call = true → state.store.InProgress index →
        ∃ (position : Nat) (worker : Worker),
          state.workers[position]? = some worker ∧
            worker.phase.waitsFor = some index
  persisted :
    ∀ claim task session, .persisted claim task session ∈ state.events →
      (∃ workerID call,
        Called state.store session call ∧ Ends workerID task call) ∧
        ∀ other second, .persisted other second session ∈ state.events →
          other = claim ∧ second = task

section Tracking

variable {platform : Platform} {state next : State} {step : Step}

/-- What an idle worker knows survives every step. -/
theorem Worker.Ok.mono
    (ok : worker.Ok state.store state.events)
    (moves : state.Moves platform step next) :
    worker.Ok next.store next.events := by
  unfold Worker.Ok at ok ⊢
  split at ok
  · exact moves.called ok
  · exact moves.received ok
  · rcases ok with ⟨received, ⟨call, called, ends⟩, persisted⟩
    exact ⟨moves.received received, ⟨call, moves.called called, ends⟩,
      moves.events persisted⟩
  · exact True.intro

/-- A worker that acts knows what it acts on. -/
theorem Worker.Acts.ok
    (acts : worker.Acts state.store reaction)
    (ok : worker.Ok state.store state.events)
    (moves : state.Moves platform step next)
    (store :
      ∀ call, reaction.call = some call →
        next.store = send platform call state.store)
    (events : next.events = state.events ++ reaction.events) :
    Worker.Ok next.store next.events
      { worker with phase := reaction.phase } := by
  have fresh :
      ∀ call, reaction.call = some call →
        Called next.store state.store.sessions.length call := by
    intro call equal
    rw [store call equal]
    exact called_send call state.store
  unfold Worker.Ok at ok
  cases acts with
  | claim phase => exact fresh _ rfl
  | refused claim result phase returned => exact True.intro
  | execute claim task phase returned =>
      simp only [phase] at ok
      have received : Received next.store claim worker.workerID task := by
        rcases callResult_response returned with
          ⟨session, found, finished⟩
        rcases ok with ⟨same, located, called⟩
        rw [found] at located
        cases located
        exact moves.received ⟨session, found, called, finished⟩
      unfold Worker.execute at fresh events ⊢
      split_ifs at fresh events ⊢ with registered
      · exact received
      · refine ⟨received, ⟨_, fresh _ rfl, .dead _ _⟩, ?_⟩
        rw [events]
        simp
  | finish claim task heartbeat handled nextRunAt duration phase =>
      simp only [phase] at ok
      refine ⟨moves.received ok,
        ⟨_, fresh _ rfl, markHandled_ends _ _ _ _ _⟩, ?_⟩
      rw [events]
      simp
  | settle claim task heartbeat session result phase returned =>
      exact True.intro
  | beatRunning claim task heartbeat later call phase beat =>
      simp only [phase] at ok
      exact moves.received ok
  | beatPersisting claim task heartbeat later session call phase beat =>
      simp only [phase] at ok
      rcases ok with ⟨received, ⟨write, called, ends⟩, persisted⟩
      exact ⟨moves.received received, ⟨write, moves.called called, ends⟩,
        moves.events persisted⟩

theorem Tracked.ok_step
    (tracked : Tracked platform state)
    (moves : state.Moves platform step next) :
    ∀ worker ∈ next.workers, worker.Ok next.store next.events := by
  have old : ∀ worker ∈ state.workers, worker.Ok next.store next.events :=
    fun worker member => (tracked.ok worker member).mono moves
  have moved := moves
  intro worker member
  cases moves with
  | start settings registry =>
      rcases List.mem_append.mp member with inside | started
      · exact old worker inside
      · rcases List.mem_map.mp started with ⟨index, _, equal⟩
        subst worker
        exact True.intro
  | stop process pool found detached =>
      rcases List.mem_map.mp member with ⟨before, inside, equal⟩
      subst worker
      unfold Worker.stopped
      split_ifs
      · exact True.intro
      · exact old before inside
  | work index action actor reaction found acts =>
      rcases List.mem_or_eq_of_mem_set member with inside | equal
      · exact old worker inside
      · subst worker
        refine acts.ok (tracked.ok actor (List.mem_of_getElem? found))
          moved ?_ rfl
        intro call calling
        simp only [calling, Option.elim_some]
  | sent step call outside => exact old worker member
  | served step label store answer stepped => exact old worker member

/-- A worker waits until its call has ended. -/
theorem Worker.Acts.waits
    (acts : worker.Acts store reaction)
    (waits : worker.phase.waitsFor = some index)
    (running : store.InProgress index) :
    reaction.phase.waitsFor = some index := by
  cases acts with
  | refused claim result phase returned =>
      rw [phase] at waits
      cases waits
      exact (callResult_ended returned running).elim
  | execute claim task phase returned =>
      rw [phase] at waits
      cases waits
      exact (callResult_ended returned running).elim
  | settle claim task heartbeat session result phase returned =>
      rw [phase] at waits
      cases waits
      exact (callResult_ended returned running).elim
  | beatPersisting claim task heartbeat later session call phase beat =>
      rw [phase] at waits
      exact waits
  | claim phase =>
      rw [phase] at waits
      cases waits
  | finish claim task heartbeat handled nextRunAt duration phase =>
      rw [phase] at waits
      cases waits
  | beatRunning claim task heartbeat later call phase beat =>
      rw [phase] at waits
      cases waits

theorem detached_ended
    (detached : worker.detached store = true)
    (waits : worker.phase.waitsFor = some index) :
    ¬ store.InProgress index := by
  have ended :
      (callResult store index).isSome = true → ¬ store.InProgress index := by
    intro returned
    rcases Option.isSome_iff_exists.mp returned with ⟨result, equal⟩
    exact callResult_ended equal
  unfold Worker.detached at detached
  cases phase : worker.phase with
  | claiming claim =>
      simp only [phase] at detached waits
      cases waits
      exact ended detached
  | persisting claim task heartbeat session =>
      simp only [phase] at detached waits
      cases waits
      exact ended detached
  | _ =>
      rw [phase] at waits
      cases waits

/-- A worker keeps waiting for a call in progress. -/
theorem State.Moves.owner
    (moves : state.Moves platform step next) {position : Nat}
    (running : state.store.InProgress index)
    (located : state.workers[position]? = some worker)
    (waits : worker.phase.waitsFor = some index) :
    ∃ (position : Nat) (worker : Worker),
      next.workers[position]? = some worker ∧
        worker.phase.waitsFor = some index := by
  cases moves with
  | start settings registry =>
      refine ⟨position, worker, ?_, waits⟩
      have inside := (List.getElem?_eq_some_iff.mp located).1
      rw [List.getElem?_append_left inside]
      exact located
  | stop process pool found detached =>
      refine ⟨position, Worker.stopped process worker, ?_, ?_⟩
      · rw [List.getElem?_map, located]
        rfl
      · unfold Worker.stopped
        split_ifs with inside
        · have ended :=
            detached worker (List.mem_of_getElem? located) inside
          exact (detached_ended ended waits running).elim
        · exact waits
  | work index action actor reaction found acts =>
      by_cases same : index = position
      · subst position
        rw [found] at located
        cases located
        exact ⟨index, _, getElem?_set_some found, acts.waits waits running⟩
      · refine ⟨position, worker, ?_, waits⟩
        rw [List.getElem?_set_ne same]
        exact located
  | sent step call outside => exact ⟨position, worker, located, waits⟩
  | served step label store answer stepped =>
      exact ⟨position, worker, located, waits⟩

theorem Tracked.owned_step
    (tracked : Tracked platform state)
    (moves : state.Moves platform step next)
    (called : Called next.store index call) (waited : awaited call = true)
    (running : next.store.InProgress index) :
    ∃ (position : Nat) (worker : Worker),
      next.workers[position]? = some worker ∧
        worker.phase.waitsFor = some index := by
  rcases moves.inProgress running with
    old | ⟨sent, _, located, owner⟩
  · have before := old
    rcases before with ⟨session, _, found, _⟩
    have earlier : Called state.store index session.call :=
      ⟨session, found, rfl⟩
    rw [called.unique (moves.called earlier)] at waited
    rcases tracked.owned index _ earlier waited old with
      ⟨position, worker, stands, waits⟩
    exact moves.owner old stands waits
  · rw [called.unique located] at waited
    exact owner waited

/-- A worker records the write it sends. -/
theorem Worker.Acts.persists
    (acts : worker.Acts store reaction) {claim session : Nat}
    (member : .persisted claim task session ∈ reaction.events) :
    session = store.sessions.length ∧
      (∃ call, reaction.call = some call ∧ Ends worker.workerID task call) ∧
      ∃ heartbeat,
        reaction.phase = .persisting claim task heartbeat session := by
  cases acts with
  | execute began received phase returned =>
      unfold Worker.execute at member ⊢
      split_ifs at member ⊢
      · simp at member
      · simp only [List.mem_singleton, Event.persisted.injEq] at member
        rcases member with ⟨sameClaim, sameTask, sameSession⟩
        subst sameClaim sameTask sameSession
        exact ⟨rfl, ⟨_, rfl, .dead _ _⟩, _, rfl⟩
  | finish began received heartbeat handled nextRunAt duration phase =>
      simp only [List.mem_cons, List.not_mem_nil, or_false,
        reduceCtorEq, false_or, Event.persisted.injEq] at member
      rcases member with ⟨sameClaim, sameTask, sameSession⟩
      subst sameClaim sameTask sameSession
      exact ⟨rfl, ⟨_, rfl, markHandled_ends _ _ _ _ _⟩, _, rfl⟩
  | _ => simp at member

/-- Every write that ends an execution is a call of its own. -/
theorem Tracked.persisted_step
    (tracked : Tracked platform state)
    (moves : state.Moves platform step next) {claim session : Nat}
    (member : .persisted claim task session ∈ next.events) :
    (∃ workerID call,
      Called next.store session call ∧ Ends workerID task call) ∧
      ∀ other second, .persisted other second session ∈ next.events →
        other = claim ∧ second = task := by
  have old :
      ∀ claim task session,
        .persisted claim task session ∈ state.events →
          (∃ workerID call,
            Called next.store session call ∧ Ends workerID task call) ∧
            ∀ other second,
              .persisted other second session ∈ state.events →
                other = claim ∧ second = task := by
    intro claim task session inside
    rcases tracked.persisted claim task session inside with
      ⟨⟨workerID, call, called, ends⟩, sole⟩
    exact ⟨⟨workerID, call, moves.called called, ends⟩, sole⟩
  cases moves with
  | work position action worker reaction found acts =>
      have bound :
          ∀ claim task,
            .persisted claim task session ∈ state.events →
              session < state.store.sessions.length := by
        intro claim task inside
        rcases tracked.persisted claim task session inside with
          ⟨⟨_, _, called, _⟩, _⟩
        exact called.lt
      rcases List.mem_append.mp member with inside | fresh
      · refine ⟨(old claim task session inside).1, ?_⟩
        intro other second occurs
        rcases List.mem_append.mp occurs with earlier | later
        · exact (old claim task session inside).2 other second earlier
        · have last := (acts.persists later).1
          have below := bound claim task inside
          omega
      · rcases acts.persists fresh with
          ⟨last, ⟨call, calling, ends⟩, heartbeat, phase⟩
        subst session
        refine ⟨⟨worker.workerID, call, ?_, ends⟩, ?_⟩
        · simp only [calling, Option.elim_some]
          exact called_send call state.store
        · intro other second occurs
          rcases List.mem_append.mp occurs with earlier | later
          · have below := bound other second earlier
            omega
          · rcases acts.persists later with ⟨_, _, beating, same⟩
            rw [phase] at same
            cases same
            exact ⟨rfl, rfl⟩
  | start settings registry => exact old claim task session member
  | stop process pool found detached =>
      exact old claim task session member
  | sent step call outside => exact old claim task session member
  | served step label store answer stepped =>
      exact old claim task session member

theorem Tracked.keep
    (tracked : Tracked platform state)
    (moves : state.Moves platform step next) :
    Tracked platform next where
  reached := moves.reached tracked.reached
  ok := tracked.ok_step moves
  owned := by
    intro index call called waited running
    exact tracked.owned_step moves called waited running
  persisted := by
    intro claim task session member
    exact tracked.persisted_step moves member

theorem tracked_start : Tracked platform {} where
  reached := ⟨[], rfl⟩
  ok := by simp
  owned := by
    rintro index call ⟨session, found, _⟩
    cases found
  persisted := by simp

/-- The worker that waits for the claim in progress. -/
theorem Tracked.claimer
    (tracked : Tracked platform state) {name : GoString}
    (called : Called state.store index (.claim name))
    (running : state.store.InProgress index) :
    ∃ (position : Nat) (worker : Worker),
      state.workers[position]? = some worker ∧
        worker.phase = .claiming index ∧ worker.workerID = name := by
  rcases tracked.owned index _ called rfl running with
    ⟨position, worker, located, waits⟩
  have ok := tracked.ok worker (List.mem_of_getElem? located)
  refine ⟨position, worker, located, ?_⟩
  unfold Worker.Ok at ok
  cases phase : worker.phase with
  | claiming claim =>
      rw [phase] at waits
      cases waits
      simp only [phase] at ok
      cases called.unique ok
      exact ⟨rfl, rfl⟩
  | persisting claim task heartbeat session =>
      rw [phase] at waits
      cases waits
      simp only [phase] at ok
      rcases ok with ⟨_, ⟨call, other, ends⟩, _⟩
      rw [← called.unique other] at ends
      cases ends
  | _ =>
      rw [phase] at waits
      cases waits

/-- The worker that waits for the write in progress. -/
theorem Tracked.executor
    (tracked : Tracked platform state) {claim session : Nat}
    (member : .persisted claim task session ∈ state.events)
    (running : state.store.InProgress session) :
    ∃ (position : Nat) (worker : Worker) (heartbeat : Heartbeat),
      state.workers[position]? = some worker ∧
        worker.phase = .persisting claim task heartbeat session := by
  rcases tracked.persisted claim task session member with
    ⟨⟨name, call, called, ends⟩, sole⟩
  rcases tracked.owned session call called ends.awaited running with
    ⟨position, worker, located, waits⟩
  have ok := tracked.ok worker (List.mem_of_getElem? located)
  unfold Worker.Ok at ok
  cases phase : worker.phase with
  | claiming other =>
      rw [phase] at waits
      cases waits
      simp only [phase] at ok
      rw [called.unique ok] at ends
      cases ends
  | persisting other second heartbeat index =>
      rw [phase] at waits
      cases waits
      simp only [phase] at ok
      rcases sole other second ok.2.2 with ⟨sameClaim, sameTask⟩
      subst sameClaim sameTask
      exact ⟨position, worker, heartbeat, located, phase⟩
  | _ =>
      rw [phase] at waits
      cases waits

/-- A write in progress that a worker waits for ends an execution. -/
theorem Tracked.ending
    (tracked : Tracked platform state)
    (called : Called state.store index call) (waited : awaited call = true)
    (unclaimed : ∀ workerID, call ≠ .claim workerID)
    (running : state.store.InProgress index) :
    ∃ claim task, .persisted claim task index ∈ state.events := by
  rcases tracked.owned index call called waited running with
    ⟨position, worker, located, waits⟩
  have ok := tracked.ok worker (List.mem_of_getElem? located)
  unfold Worker.Ok at ok
  cases phase : worker.phase with
  | claiming claim =>
      rw [phase] at waits
      cases waits
      simp only [phase] at ok
      exact (unclaimed _ (called.unique ok)).elim
  | persisting claim task heartbeat session =>
      rw [phase] at waits
      cases waits
      simp only [phase] at ok
      exact ⟨claim, task, ok.2.2⟩
  | _ =>
      rw [phase] at waits
      cases waits

/-- Only an answer of the server publishes something. -/
theorem State.Moves.history_cases
    (moves : state.Moves platform step next) :
    next.store.history = state.store.history ∨
      next.workers = state.workers ∧
        ∃ commit, next.store.history = state.store.history ++ [commit] := by
  cases moves with
  | start settings registry => exact Or.inl rfl
  | stop process pool found detached => exact Or.inl rfl
  | work index action worker reaction found acts =>
      cases reaction.call with
      | none => exact Or.inl rfl
      | some call => exact Or.inl rfl
  | sent step call outside => exact Or.inl rfl
  | served step label store answer stepped =>
      rcases Engine.step_history stepped with
        silent | ⟨commit, grown, _⟩
      · exact Or.inl silent
      · exact Or.inr ⟨rfl, commit, grown⟩

/-- A step that publishes nothing leaves the database as it is. -/
theorem State.Moves.silent
    (moves : state.Moves platform step next)
    (reached : Reached platform state.store)
    (silent : next.store.history = state.store.history) :
    next.store.db = state.store.db := by
  rcases reached with ⟨schedule, followed⟩
  rcases moves.store with same | ⟨label, stepped⟩
  · rw [same]
  · rcases (interleave_ok followed).step_cases stepped with
      ⟨same, _⟩ | ⟨commit, _, _, recorded, _⟩
    · exact same
    · rw [silent] at recorded
      simp at recorded

/-- A step that publishes something is a step of a call in progress. -/
theorem State.Moves.published
    (moves : state.Moves platform step next)
    (reached : Reached platform state.store) {commit : StoreCommit}
    (grown : next.store.history = state.store.history ++ [commit]) :
    state.store.InProgress commit.session ∧
      Called state.store commit.session commit.call ∧
      Lawful platform state.store.db commit.call commit.writes ∧
      next.store.db =
        (postgres platform).applyAll commit.writes state.store.db ∧
      commit.writes ≠ [] := by
  have later := moves.reached reached
  rcases reached with ⟨schedule, followed⟩
  rcases later with ⟨longer, continued⟩
  rcases moves.store with same | ⟨label, stepped⟩
  · rw [same] at grown
    simp at grown
  · have running : state.store.InProgress commit.session := by
      rcases Engine.step_history stepped with
        silent | ⟨entry, recorded, running⟩
      · rw [silent] at grown
        simp at grown
      · rw [grown, List.append_cancel_left_eq] at recorded
        cases recorded
        exact running
    refine ⟨running, ?_, ?_⟩
    · rcases running with ⟨session, _, found, _⟩
      rcases (interleave_ok continued).known commit (by simp [grown]) with
        ⟨after, located, called⟩
      have same : session.call = commit.call :=
        (moves.called ⟨session, found, rfl⟩).unique ⟨after, located, called⟩
      exact ⟨session, found, same⟩
    · rcases (interleave_ok followed).step_cases stepped with
        ⟨_, silent⟩ | ⟨entry, lawful, applied, recorded, written⟩
      · rw [silent] at grown
        simp at grown
      · rw [grown, List.append_cancel_left_eq] at recorded
        cases recorded
        exact ⟨lawful, applied, written⟩

end Tracking

end Dhara.Pool
