import Dhara.Pool.Fencing
import Dhara.Store.Budget

/-!
# The attempt budget under crashes and reaps

The decision to retry a task is taken in two places: by the worker from the
task its claim returned, and by the reaper from the row.  The fence makes the
two agree: when the write of a worker takes effect, the attempts of the row
are those of the claim.  So every row stays within its budget, and a claim
leads to at most one invocation of the handler.
-/

namespace Dhara.Pool

open Dhara.Store Dhara.Transaction

variable {reaction : Reaction} {worker : Worker} {claim : Nat}

/-! ## Rows and claims -/

section Budgets

variable {platform : Platform} {state next : State} {step : Step}

/-- A worker returns a task to `PENDING` while it has attempts left. -/
theorem Guarded.attempts_left
    (guarded : Guarded platform state)
    (moves : state.Moves platform step next) {commit : StoreCommit}
    (grown : next.store.history = state.store.history ++ [commit])
    {task : TaskRow} {workerID lastError : GoString} {nextRunAt : Time}
    (retries : commit.call = .markPending task workerID lastError nextRunAt)
    {id : TaskId} {row : TaskRecord}
    (found : state.store.db.find id = some row)
    (wrote : (written id commit.writes).isSome = true) :
    (row.attempts : Int) < budget row := by
  rcases moves.published guarded.tracked.reached grown with
    ⟨running, called, _, _, _⟩
  rw [retries] at called
  have unclaimed :
      ∀ name,
        Call.markPending task workerID lastError nextRunAt ≠ .claim name := by
    intro name equal
    cases equal
  rcases guarded.tracked.ending called rfl unclaimed running with
    ⟨claim, executed, persisted⟩
  rcases guarded.effective moves grown persisted with
    ⟨name, move, grant, ends, writes, legal, _, sameTask, _, _, covers,
      returned⟩
  have moved : move.row.id = id := by
    by_contra other
    have unwritten : written id (writesOf [move]) = none :=
      written_eq_none (writesOf_task (by simpa using other))
    rw [writes, unwritten] at wrote
    cases wrote
  have stored := legal.found
  rw [moved, found] at stored
  cases stored
  rw [retries] at ends
  cases ends with
  | pending lastError nextRunAt left =>
      rw [returned] at left
      have same := maxRetries_of_fixed covers.fixed
      rw [covers.attempts]
      refine Int.lt_of_lt_of_le left ?_
      rw [budget, same]
      exact Int.le_max_right 1 _

/-- Every row and the claims of every task are within the budget. -/
structure Spent (state : State) : Prop where
  within : ∀ id row, state.store.db.find id = some row → WithinBudget row
  claims : ∀ id, ClaimsWithin id state.store.history state.store.db

theorem Spent.keep
    (spent : Spent state) (guarded : Guarded platform state)
    (moves : state.Moves platform step next) : Spent next := by
  rcases moves.history_cases with silent | ⟨_, commit, grown⟩
  · have same := moves.silent guarded.tracked.reached silent
    constructor
    · rw [same]
      exact spent.within
    · rw [same, silent]
      exact spent.claims
  · rcases moves.published guarded.tracked.reached grown with
      ⟨_, _, lawful, applied, _⟩
    have within :
        ∀ id row, next.store.db.find id = some row → WithinBudget row := by
      intro id
      rw [applied]
      apply (lawful.viewStep id).withinBudget (spent.within id)
      intro task workerID lastError nextRunAt retries row found wrote
      exact guarded.attempts_left moves grown retries found wrote
    refine ⟨within, ?_⟩
    intro id
    rcases guarded.tracked.reached with ⟨schedule, followed⟩
    have counted : Counted id state.store.history state.store.db :=
      interleave_history
        (fun _ _ _ counted lawful => counted.concat lawful) followed rfl
    rw [grown, applied]
    rw [applied] at within
    exact (spent.claims id).concat counted lawful (within id)

end Budgets

/-! ## Invocations -/

/-- The claims that led to an invocation of the handler, in their order. -/
def invocations (events : List Event) : List Nat :=
  events.filterMap fun
    | .invoked claim _ => some claim
    | _ => none

@[simp]
theorem mem_invocations {events : List Event} :
    claim ∈ invocations events ↔ ∃ task, .invoked claim task ∈ events := by
  simp only [invocations, List.mem_filterMap]
  constructor
  · rintro ⟨event, member, equal⟩
    cases event with
    | invoked began task =>
        cases equal
        exact ⟨task, member⟩
    | _ => cases equal
  · rintro ⟨task, member⟩
    exact ⟨_, member, rfl⟩

@[simp]
theorem invocations_append (first second : List Event) :
    invocations (first ++ second) =
      invocations first ++ invocations second := by
  simp [invocations]

/-- A worker invokes the handler when it has received a task. -/
theorem Worker.Acts.invokes
    {store : StoreConfig} (acts : worker.Acts store reaction) :
    invocations reaction.events = [] ∨
      ∃ claim task,
        worker.phase = .claiming claim ∧
          reaction.phase = .running claim task .waiting ∧
          reaction.events = [.invoked claim task] := by
  cases acts with
  | execute claim task phase returned =>
      unfold Worker.execute
      split_ifs
      · exact Or.inr ⟨claim, task, phase, rfl, rfl⟩
      · exact Or.inl rfl
  | _ => exact Or.inl rfl

/-- A worker claims with a fresh call. -/
theorem Worker.Acts.claims
    {store : StoreConfig} (acts : worker.Acts store reaction)
    (claiming : reaction.phase = .claiming claim) :
    claim = store.sessions.length := by
  cases acts with
  | claim phase =>
      cases claiming
      rfl
  | execute began task phase returned =>
      unfold Worker.execute at claiming
      split_ifs at claiming
  | _ => cases claiming

/--
A claim leads to at most one invocation, for a task it has returned, and to
none as long as a worker waits for it.
-/
structure InvokedOnce (state : State) : Prop where
  once : (invocations state.events).Nodup
  received :
    ∀ claim task, .invoked claim task ∈ state.events →
      ∃ workerID, Received state.store claim workerID task
  waiting :
    ∀ worker ∈ state.workers, ∀ claim,
      worker.phase = .claiming claim → claim ∉ invocations state.events

section Invocations

variable {platform : Platform} {state next : State} {step : Step}

/-- Two workers never wait for the same claim. -/
theorem Guarded.claiming_inj
    (guarded : Guarded platform state) {left right : Nat}
    {first second : Worker} (foundLeft : state.workers[left]? = some first)
    (foundRight : state.workers[right]? = some second)
    (firstClaims : first.phase = .claiming claim)
    (secondClaims : second.phase = .claiming claim) : left = right := by
  have named :
      ∀ (position : Nat) (worker : Worker),
        state.workers[position]? = some worker →
        worker.phase = .claiming claim →
          Called state.store claim (.claim worker.workerID) ∧
            worker.phase ≠ .gone := by
    intro position worker found claims
    constructor
    · apply guarded.tracked.claim_called (List.mem_of_getElem? found)
      rw [claims]
      rfl
    · rw [claims]
      simp
  rcases named left first foundLeft firstClaims with ⟨one, firstAlive⟩
  rcases named right second foundRight secondClaims with
    ⟨two, secondAlive⟩
  have same := one.unique two
  cases first
  cases second
  cases same
  exact guarded.named.distinct left right _ _ foundLeft foundRight
    firstAlive secondAlive rfl

theorem InvokedOnce.work
    (invoked : InvokedOnce state) (guarded : Guarded platform state)
    (moves : state.Moves platform step next) {index : Nat}
    (found : state.workers[index]? = some worker)
    (acts : worker.Acts state.store reaction)
    (workers :
      next.workers =
        state.workers.set index { worker with phase := reaction.phase })
    (events : next.events = state.events ++ reaction.events) :
    InvokedOnce next := by
  have before :
      ∀ claim task, .invoked claim task ∈ state.events →
        claim < state.store.sessions.length := by
    intro claim task member
    rcases invoked.received claim task member with ⟨_, received⟩
    exact received.called.lt
  have running := guarded.tracked.keep moves
  constructor
  · rw [events, invocations_append]
    rcases acts.invokes with silent | ⟨claim, task, phase, _, invokes⟩
    · rw [silent, List.append_nil]
      exact invoked.once
    · have fresh :=
        invoked.waiting worker (List.mem_of_getElem? found) claim phase
      rw [invokes]
      change (invocations state.events ++ [claim]).Nodup
      rw [← List.concat_eq_append]
      exact invoked.once.concat fresh
  · intro claim task member
    rw [events, List.mem_append] at member
    rcases member with old | new
    · rcases invoked.received claim task old with ⟨name, received⟩
      exact ⟨name, moves.received received⟩
    · rcases acts.invokes with silent | ⟨began, given, _, runs, invokes⟩
      · have occurs : claim ∈ invocations reaction.events :=
          mem_invocations.mpr ⟨task, new⟩
        rw [silent] at occurs
        cases occurs
      · rw [invokes, List.mem_singleton] at new
        cases new
        have located :
            { worker with phase := reaction.phase } ∈ next.workers := by
          rw [workers]
          exact List.mem_of_getElem? (getElem?_set_some found)
        have ok := running.ok _ located
        simp only [Worker.Ok, runs] at ok
        exact ⟨worker.workerID, ok⟩
  · intro other member claim claiming occurs
    rw [workers] at member
    rw [events, invocations_append, List.mem_append] at occurs
    rcases List.mem_iff_getElem?.mp member with ⟨position, located⟩
    rcases getElem?_set_cases located with ⟨same, equal⟩ | ⟨apart, old⟩
    · subst other
      have last := acts.claims claiming
      rcases occurs with earlier | now
      · rcases mem_invocations.mp earlier with ⟨task, happened⟩
        have below := before claim task happened
        omega
      · rcases acts.invokes with silent | ⟨began, task, _, runs, _⟩
        · rw [silent] at now
          cases now
        · rw [runs] at claiming
          cases claiming
    · rcases occurs with earlier | now
      · exact invoked.waiting other (List.mem_of_getElem? old) claim
          claiming earlier
      · rcases acts.invokes with
          silent | ⟨began, task, phase, _, invokes⟩
        · rw [silent] at now
          cases now
        · rw [invokes] at now
          cases List.mem_singleton.mp now
          exact apart (guarded.claiming_inj old found claiming phase)

theorem InvokedOnce.keep
    (invoked : InvokedOnce state) (guarded : Guarded platform state)
    (moves : state.Moves platform step next) : InvokedOnce next := by
  have received :
      ∀ claim task, .invoked claim task ∈ state.events →
        ∃ workerID, Received next.store claim workerID task := by
    intro claim task member
    rcases invoked.received claim task member with ⟨name, received⟩
    exact ⟨name, moves.received received⟩
  have moved := moves
  cases moves with
  | start settings registry =>
      refine ⟨invoked.once, received, ?_⟩
      intro worker member claim claiming
      rcases List.mem_append.mp member with inside | started
      · exact invoked.waiting worker inside claim claiming
      · rcases List.mem_map.mp started with ⟨index, _, equal⟩
        subst worker
        cases claiming
  | stop process pool found detached =>
      refine ⟨invoked.once, received, ?_⟩
      intro worker member claim claiming
      rcases List.mem_map.mp member with ⟨before, inside, equal⟩
      subst worker
      unfold Worker.stopped at claiming
      split_ifs at claiming
      exact invoked.waiting before inside claim claiming
  | work index action worker reaction found acts =>
      exact invoked.work guarded moved found acts rfl rfl
  | sent step call outside =>
      exact ⟨invoked.once, received, invoked.waiting⟩
  | served step label store answer stepped =>
      exact ⟨invoked.once, received, invoked.waiting⟩

end Invocations

/-! ## Every run -/

section Runs

variable {platform : Platform} {state : State}

/-- What holds of the attempts of all tasks and of their executions. -/
structure Budgeted (state : State) : Prop where
  /-- Every row is within its budget. -/
  rows : ∀ row ∈ state.store.db.tasks.rows, WithinBudget row
  /-- So are the claims of a task without a manual retry in between. -/
  claims :
    ∀ id before window after,
      state.store.history = before ++ window ++ after →
      (∀ commit ∈ window, retriesManually id commit = false) →
        ((window.filterMap (claimedAttempts id)).length : Int) ≤
          budgetOf (state.store.db.find id)
  /-- A claim leads to at most one invocation of the handler. -/
  once : (invocations state.events).Nodup
  /-- An invocation is for a task that its claim has committed. -/
  committed :
    ∀ claim task, .invoked claim task ∈ state.events →
      ∃ commit ∈ state.store.history,
        commit.session = claim ∧
          (claimedAttempts task.id commit).map Int.ofNat = some task.attempts

/--
In every run that starts a pool only while no live pool has its prefix, the
attempts of every task stay within its budget, and so do the claims and the
invocations of the handler between two manual retries.
-/
theorem attempts_within_budget
    {run : List Step}
    (followed : State.follow platform {} run = some state)
    (alone : Alone platform {} run) : Budgeted state := by
  let Holds : State → Prop := fun state =>
    Guarded platform state ∧ Spent state ∧ InvokedOnce state
  have kept :
      ∀ state step next, Holds state → step.Alone state →
        state.Moves platform step next → Holds next := by
    rintro state step next ⟨guarded, spent, invoked⟩ alone moves
    exact ⟨guarded.keep alone moves, spent.keep guarded moves,
      invoked.keep guarded moves⟩
  have start : Holds {} := by
    refine ⟨guarded_start, ⟨?_, ?_⟩, ⟨?_, ?_, ?_⟩⟩
    · intro id row found
      cases found
    · intro id earlier part
      rw [List.prefix_nil.mp part]
      exact le_rfl
    · exact List.nodup_nil
    · simp
    · simp
  rcases State.alone_invariant kept start alone followed with
    ⟨guarded, spent, invoked⟩
  constructor
  · intro row member
    exact spent.within row.id row (Database.find_of_mem member)
  · intro id before window after split automatic
    have claims := spent.claims id
    rw [split] at claims
    exact claims.window automatic
  · exact invoked.once
  · intro claim task member
    rcases invoked.received claim task member with ⟨name, received⟩
    rcases received.committed guarded.tracked.reached with
      ⟨row, writes, committed, wrote, returned, _⟩
    refine ⟨_, committed, rfl, ?_⟩
    simp only [claimedAttempts, wrote, Option.map_some]
    rw [returned]
    rfl

/-- A task without retries is claimed, and its handler fails. -/
def exhaustedRun : List Step :=
  [.call (.create { emailTask [] with maxRetries := 0 })] ++
    answers 0 4 0 ++
    [.start {} fun _ => true, .work 0 .claim] ++ answers 1 5 0 ++
    [.work 0 .receive,
      .work 0 (.finish (.returned (some (ascii "boom"))) 0 5)] ++
    answers 2 6 0

theorem exhaustedRun_within_budget :
    ∃ state row,
      State.follow echoPlatform {} exhaustedRun = some state ∧
        row ∈ state.store.db.tasks.rows ∧ row.status = .dead ∧
        row.maxRetries = 0 ∧ row.attempts = 1 ∧
        (row.attempts : Int) ≤ budget row := by
  have alone : Alone echoPlatform {} exhaustedRun := by
    decide +kernel
  have outcome :
      (State.follow echoPlatform {} exhaustedRun).any
        (fun state =>
          (state.store.db.find 7).any fun row =>
            row.status = .dead ∧ row.maxRetries = 0 ∧
              row.attempts = 1) = true := by
    decide +kernel
  simp only [Option.any_eq_true, decide_eq_true_eq] at outcome
  rcases outcome with
    ⟨state, followed, row, found, dead, retries, once⟩
  have member := (Database.find_eq_some_iff.mp found).1
  exact ⟨state, row, followed, member, dead, retries, once,
    ((attempts_within_budget followed alone).rows row member).spent⟩

end Runs

end Dhara.Pool
