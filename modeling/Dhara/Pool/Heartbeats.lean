import Dhara.Pool.Fencing
import Dhara.Store.Timeline

/-!
# The heartbeats of an execution

A heartbeat is a single statement: it renews the lock on the row, or it finds
that the row is not locked by the worker any more.  Only in the second case
does the goroutine that sends the heartbeats stop by itself.  So it runs as
long as the task runs under the claim that the worker executes.

Nothing here depends on whether the names of the workers differ.
-/

namespace Dhara.Pool

open Dhara.Store Dhara.Transaction

variable {store : StoreConfig} {session : StoreSession} {commit : StoreCommit}
  {db : Database} {index : Nat} {reaction : Reaction} {worker : Worker}

/-! ## The answer to a heartbeat -/

/-- The result of a heartbeat and what it writes. -/
inductive BeatAnswered (fault : Option Fault) (clock : Time)
    (db : Database) (id : TaskId) (workerID : GoString) :
    Response → List Write → Prop where
  | failed (error : Fault)
      (cause : fault ≠ none ∨ isText workerID = false) :
      BeatAnswered fault clock db id workerID
        (failUnit (.wrapped "hearbeat task" error)) []
  | lost (worker : Text) (name : worker.bytes = workerID)
      (foreign : ∀ row, db.find id = some row → row.ownedBy worker = false) :
      BeatAnswered fault clock db id workerID (failUnit .taskOwnershipLost) []
  | renewed (worker : Text) (row : TaskRecord)
      (name : worker.bytes = workerID) (quiet : fault = none)
      (found : db.find id = some row)
      (owned : row.ownedBy worker = true) :
      BeatAnswered fault clock db id workerID (.unit (.ok ()))
        [.updateTask ((Change.heartbeat worker).set clock row)]

section Answers

variable {platform : Platform} {store : StoreConfig} {id : TaskId}
  {workerID : GoString} {answer : Answer Fault Resource Oracle Time}
  {moved :
    Moved Call Stmt Reply Fault Counter Response Database Write Resource Time}

/-- The statement of a heartbeat fails only if the name is no text. -/
theorem evalUpdate_heartbeat
    {now : Time} {fault : Fault} (valid : isText workerID = true) :
    evalUpdate now id (.heartbeat workerID) db ≠ .error fault := by
  have encoded :
      (Update.heartbeat workerID).encode =
        .ok (.heartbeat ⟨workerID, valid⟩) := by
    rw [Update.encode, toText_of_isText valid]
    rfl
  rw [evalUpdate, encoded]
  simp only [Except.bind, Change.overflows]
  intro failed
  cases found : db.find id with
  | none =>
      rw [found] at failed
      cases failed
  | some row =>
      simp only [found, Bool.false_eq_true, if_false] at failed
      split_ifs at failed

/-- One round trip of a heartbeat that was not answered before. -/
theorem advance_heartbeat
    (program : session.program = some (Store.heartbeat id workerID))
    (advanced : (postgres platform).advance answer db session = some moved) :
    ∃ result,
      BeatAnswered answer.fault answer.clock db id workerID result
          moved.published ∧
        moved.db = (postgres platform).applyAll moved.published db ∧
        moved.session.program = some (.done result) ∧
        moved.session.tx = session.tx := by
  simp only [Engine.advance, program, Store.heartbeat] at advanced
  split_ifs at advanced
  cases advanced
  simp only [Engine.queryPool, Engine.queryWrites, Session.resume]
  cases quiet : answer.fault with
  | some fault =>
      exact ⟨_, .failed fault (Or.inl (Option.some_ne_none fault)), rfl,
        rfl, trivial⟩
  | none =>
      cases evaluated :
          (postgres platform).eval answer.clock answer.others
            answer.oracle (.update id (.heartbeat workerID)) db with
      | error fault =>
          refine ⟨_, .failed fault (Or.inr ?_), rfl, rfl, trivial⟩
          by_contra valid
          rw [Bool.not_eq_false] at valid
          exact evalUpdate_heartbeat valid evaluated
      | ok effect =>
          rcases evalUpdate_cases evaluated with
            ⟨change, encoded, outcome⟩
          rcases Update.encode_heartbeat encoded with
            ⟨worker, bound, equal⟩
          subst change
          have name := toText_eq_ok_iff.mp bound
          rcases outcome with ⟨missed, equal⟩ | ⟨row, found, owned, equal⟩
          · subst effect
            exact ⟨_, .lost worker name missed, rfl, rfl, trivial⟩
          · subst effect
            exact ⟨_, .renewed worker row name rfl found owned, rfl, rfl,
              trivial⟩

/-- A heartbeat is not answered yet, or it has returned. -/
def Unanswered (id : TaskId) (workerID : GoString)
    (session : StoreSession) : Prop :=
  session.tx = none ∧
    ∀ program, session.program = some program →
      program = Store.heartbeat id workerID ∨ ∃ result, program = .done result

/-- A heartbeat is one statement. -/
theorem heartbeat_query (id : TaskId) (workerID : GoString) :
    ∃ next,
      Store.heartbeat id workerID =
          .query (.update id (.heartbeat workerID)) next ∧
        ∀ reply, ∃ result, next reply = .done result := by
  refine ⟨_, rfl, ?_⟩
  intro reply
  match reply with
  | .error fault => exact ⟨_, rfl⟩
  | .ok none => exact ⟨_, rfl⟩
  | .ok (some row) => exact ⟨_, rfl⟩

theorem Unanswered.trip
    (held : Unanswered id workerID session)
    (trip : (postgres platform).Trip answer db session moved) :
    Unanswered id workerID moved.session := by
  rcases held with ⟨closed, shape⟩
  rcases heartbeat_query id workerID with ⟨beat, sent, returns⟩
  cases trip with
  | rollback result program => exact ⟨rfl, shape⟩
  | fault fault program rest tx current failing tainted =>
      constructor
      · cases tx with
        | none => rfl
        | some opened =>
            rcases tainted opened rfl with ⟨old, _, located, _⟩
            rw [closed] at located
            cases located
      · intro later equal
        cases equal
        rcases shape program current with initial | ⟨result, finished⟩
        · subst program
          cases failing
          exact Or.inr ⟨_, rfl⟩
        · subst program
          cases failing
  | queried stmt next effect program quiet evaluated =>
      refine ⟨closed, ?_⟩
      intro later equal
      cases equal
      rcases shape _ program with initial | ⟨result, finished⟩
      · cases initial.trans sent
        exact Or.inr (returns _)
      · cases finished
  | _ =>
      rcases shape _ ‹session.program = some _› with
        initial | ⟨result, finished⟩
      · cases initial.trans sent
      · cases finished

/-- A heartbeat is not answered yet, or it has returned or crashed. -/
theorem Reached.heartbeat
    (reached : Reached platform store)
    (found : store.sessions[index]? = some session)
    (called : session.call = .heartbeat id workerID) :
    Unanswered id workerID session := by
  rcases reached with ⟨schedule, followed⟩
  refine Engine.follow_session ?_ ?_ ?_ followed found called
  · refine ⟨rfl, ?_⟩
    intro program current
    cases current
    exact Or.inl rfl
  · intro config label next answer session moved _ trip held
    exact held.trip trip
  · exact fun session _ => ⟨rfl, nofun⟩

/-- What the answer to a heartbeat does to the store. -/
theorem State.serve_heartbeat
    {state next : State} (reached : Reached platform state.store)
    (stepped : state.step platform (.serve index answer) = some next)
    (called : Called state.store index (.heartbeat id workerID)) :
    ∃ result writes,
      BeatAnswered answer.fault answer.clock state.store.db id workerID
          result writes ∧
        next.store.history =
          recordCommit state.store.history index
            (.heartbeat id workerID) writes ∧
        next.workers = state.workers ∧
        callResult next.store index = some (some result) := by
  rcases called with ⟨session, found, called⟩
  rcases reached.heartbeat found called with ⟨closed, shape⟩
  rcases Option.map_eq_some_iff.mp stepped with ⟨store, answered, equal⟩
  subst next
  simp only [Engine.step, found, Option.map_eq_some_iff] at answered
  rcases answered with ⟨moved, advanced, equal⟩
  subst store
  have program : session.program = some (Store.heartbeat id workerID) := by
    cases current : session.program with
    | none => simp [Engine.advance, current] at advanced
    | some program =>
        rcases shape program current with initial | ⟨result, finished⟩
        · rw [initial]
        · simp [Engine.advance, current, finished, closed] at advanced
  rcases advance_heartbeat program advanced with
    ⟨result, beaten, _, returned, unopened⟩
  refine ⟨result, moved.published, beaten, ?_, rfl, ?_⟩
  · rw [called]
  · simp only [callResult, getElem?_set_some found, returned, unopened,
      closed, Option.isNone_none, if_true]

end Answers

/-! ## Running under a claim -/

/-- The task runs under the claim. -/
def RunsUnder (history : List StoreCommit) (id : TaskId) (claim : Nat) :
    Prop :=
  ∃ grant, granted id history = some grant ∧ grant.session = claim

/-- Workers are named by their pools, and claims by their workers. -/
structure WellNamed (state : State) : Prop where
  workers :
    ∀ worker ∈ state.workers,
      ∃ workerPrefix number, worker.workerID = workerName workerPrefix number
  claims :
    ∀ index name, Called state.store index (.claim name) →
      ∃ workerPrefix number, name = workerName workerPrefix number

/-- What a commit does to a task that a worker has locked. -/
inductive Affects (before after : Database) (id : TaskId)
    (workerID : GoString) (commit : StoreCommit) : Prop where
  | spared (silent : written id commit.writes = none)
      (same : after.view id = before.view id)
  | renewed (worker : Text) (row : TaskRecord) (now : Time)
      (called : commit.call = .heartbeat id workerID)
      (found : before.find id = some row)
      (wrote :
        written id commit.writes =
          some ((Change.heartbeat worker).set now row))
      (later : after.find id = some ((Change.heartbeat worker).set now row))
  | recorded (records : Records id workerID commit.call)
      (ended : ∀ row, after.find id = some row → row.status ≠ .running)
  | reaped (threshold : Time) (reaperID : GoString) (move : Move)
      (called : commit.call = .requeueStaleRunning threshold reaperID)
      (found : before.find id = some move.row)
      (stale : move.row.stale move.now threshold = true)
      (logged : .insertLog move.log ∈ commit.writes)
      (ended : ∀ row, after.find id = some row → row.status ≠ .running)

section Names

variable {platform : Platform} {state next : State} {step : Step}

theorem Worker.Acts.claim_name
    (acts : worker.Acts store reaction) {name : GoString}
    (calling : reaction.call = some (.claim name)) :
    name = worker.workerID := by
  cases acts with
  | claim phase =>
      cases calling
      rfl
  | finish claim task heartbeat handled nextRunAt duration phase =>
      have ends :=
        markHandled_ends worker.workerID task handled nextRunAt duration
      rw [Option.some.inj calling] at ends
      cases ends
  | execute claim task phase returned =>
      unfold Worker.execute at calling
      split_ifs at calling
      cases calling
  | beatRunning claim task heartbeat later call phase beat =>
      cases beat _ calling
  | beatPersisting claim task heartbeat later session call phase beat =>
      cases beat _ calling
  | _ => cases calling

theorem WellNamed.keep
    (named : WellNamed state) (moves : state.Moves platform step next) :
    WellNamed next := by
  constructor
  · intro worker member
    cases moves with
    | start settings registry =>
        rcases List.mem_append.mp member with inside | started
        · exact named.workers worker inside
        · rcases List.mem_map.mp started with ⟨index, _, equal⟩
          subst worker
          exact ⟨_, index, rfl⟩
    | stop process pool found detached =>
        rcases List.mem_map.mp member with ⟨before, inside, equal⟩
        subst worker
        unfold Worker.stopped
        split_ifs
        · exact named.workers before inside
        · exact named.workers before inside
    | work index action actor reaction found acts =>
        rcases List.mem_or_eq_of_mem_set member with inside | equal
        · exact named.workers worker inside
        · subst worker
          exact named.workers actor (List.mem_of_getElem? found)
    | sent step call outside => exact named.workers worker member
    | served step label store answer stepped =>
        exact named.workers worker member
  · intro index name called
    rcases moves.called_cases called with
      old | outside | ⟨position, worker, reaction, found, acts, calling, _⟩
    · exact named.claims index name old
    · cases outside
    · rw [acts.claim_name calling]
      exact named.workers worker (List.mem_of_getElem? found)

theorem wellNamed_start : WellNamed {} where
  workers := by simp
  claims := by
    rintro index name ⟨session, found, _⟩
    cases found

end Names

section Running

variable {platform : Platform} {state next : State} {step : Step}
  {id : TaskId} {claim : Nat} {workerID : GoString} {row : TaskRecord}

/-- The row of the task is locked by the worker that made the claim. -/
theorem RunsUnder.owned
    (runs : RunsUnder state.store.history id claim)
    (reached : Reached platform state.store) (named : WellNamed state)
    (called : Called state.store claim (.claim workerID)) :
    ∃ row locker,
      state.store.db.find id = some row ∧ row.ownedBy locker = true ∧
        locker.bytes = workerID := by
  rcases runs with ⟨grant, current, mine⟩
  rcases reached with ⟨schedule, followed⟩
  have held := interleave_granted followed id
  rcases held.covers grant current with ⟨row, found, covers⟩
  rcases held.stems grant current with
    ⟨commit, member, name, locker, same, claimed, _, encoded, locked⟩
  rcases (interleave_ok followed).known commit member with
    ⟨session, located, sameCall⟩
  rw [same, mine] at located
  have own := called.unique ⟨session, located, sameCall.trans claimed⟩
  cases own
  rcases named.claims claim workerID called with
    ⟨workerPrefix, number, equal⟩
  subst workerID
  refine ⟨row, locker, found, ?_, claim_locker encoded⟩
  simp [TaskRecord.ownedBy, covers.running, covers.lockedBy, locked]

/-- A task gets under a claim only by the commit of the claim. -/
theorem RunsUnder.cases
    (runs : RunsUnder next.store.history id claim)
    (moves : state.Moves platform step next) :
    RunsUnder state.store.history id claim ∨
      ∃ (commit : StoreCommit) (grant : Grant) (name : GoString),
        next.store.history = state.store.history ++ [commit] ∧
          granted id next.store.history = some grant ∧
          commit.session = claim ∧ grant.session = claim ∧
          commit.call = .claim name ∧
          written id commit.writes = some grant.row := by
  rcases moves.history_cases with silent | ⟨_, commit, grown⟩
  · left
    rwa [silent] at runs
  · rcases runs with ⟨grant, current, mine⟩
    have known := current
    rw [grown, granted_concat] at current
    unfold nextGrant at current
    split at current
    · exact Or.inl ⟨grant, current, mine⟩
    · rename_i row wrote
      split_ifs at current
      split at current
      · rename_i name called
        cases current
        exact Or.inr
          ⟨commit, _, name, grown, known, mine, mine, called, wrote⟩
      · exact Or.inl ⟨grant, current, mine⟩

theorem RunsUnder.before
    (runs : RunsUnder next.store.history id claim)
    (reached : Reached platform state.store)
    (moves : state.Moves platform step next)
    (ended : ¬ state.store.InProgress claim) :
    RunsUnder state.store.history id claim := by
  rcases runs.cases moves with
    before | ⟨commit, grant, name, grown, _, mine, _⟩
  · exact before
  · rcases moves.published reached grown with ⟨running, _⟩
    rw [mine] at running
    exact (ended running).elim

/-- The row that a reaper run writes was stale, and the log says so. -/
theorem reaped_of_written
    {threshold : Time} {reaperID : GoString} {writes : List Write}
    (lawful :
      Lawful platform db (.requeueStaleRunning threshold reaperID) writes)
    (wrote : written id writes = some row) :
    ∃ move : Move,
      db.find id = some move.row ∧
        move.row.stale move.now threshold = true ∧
        .insertLog move.log ∈ writes := by
  have moved :
      ∀ moves : List Move,
        writes = writesOf moves →
        (∀ move ∈ moves, move.Legal db) →
        (∀ move ∈ moves,
          (Call.requeueStaleRunning threshold reaperID).Performs move) →
          ∃ move : Move,
            db.find id = some move.row ∧
              move.row.stale move.now threshold = true ∧
              .insertLog move.log ∈ writes := by
    intro moves equal legal performs
    by_cases about : ∃ move ∈ moves, move.row.id = id
    · rcases about with ⟨move, member, same⟩
      refine ⟨move, ?_, (performs move member).2.1, ?_⟩
      · rw [← same]
        exact (legal move member).found
      · rw [equal, writesOf]
        exact List.mem_append_right _ (List.mem_map_of_mem member)
    · have silent : written id writes = none := by
        rw [equal]
        apply written_eq_none
        apply writesOf_task
        intro move member same
        exact about ⟨move, member, same⟩
      rw [silent] at wrote
      cases wrote
  cases lawful with
  | enqueue call rows enqueues free apart =>
      rw [written_insertions] at wrote
      cases wrote
  | move call move legal performs =>
      refine moved [move] rfl ?_ ?_
      · intro other member
        cases List.mem_singleton.mp member
        exact legal
      · intro other member
        cases List.mem_singleton.mp member
        exact performs
  | reap threshold reaperID moves distinct legal performs =>
      exact moved moves rfl legal performs

theorem locker_unique
    {first second : Text} (one : row.ownedBy first = true)
    (two : row.ownedBy second = true) :
    first = second := by
  simp only [TaskRecord.ownedBy, decide_eq_true_eq] at one two
  exact Option.some.inj (one.2.symm.trans two.2)

/-- A move of a running task takes it out of `RUNNING`. -/
theorem after_status_ne_running
    {move : Move} (enabled : move.change.Enabled move.now move.row)
    (running : move.row.status = .running) :
    move.after.status ≠ .running := by
  unfold Move.after
  cases change : move.change with
  | claim worker =>
      rw [change] at enabled
      cases running.symm.trans (due_pending enabled)
  | heartbeat worker =>
      rw [change] at enabled
      exact enabled.elim
  | _ => simp [Change.set]

/-- A running task is moved by its worker or by a reaper. -/
theorem records_of_performs
    {call : Call} {move : Move} (performs : call.Performs move)
    (enabled : move.change.Enabled move.now move.row)
    (running : move.row.status = .running) :
    (∃ threshold reaperID,
      call = .requeueStaleRunning threshold reaperID) ∨
      ∃ worker,
        Records move.row.id worker.bytes call ∧
          move.row.ownedBy worker = true := by
  have outcome :
      ∀ {id workerID}, Records id workerID call →
        ∃ worker,
          Records move.row.id worker.bytes call ∧
            move.row.ownedBy worker = true := by
    intro id workerID records
    rcases records.owned performs enabled with
      ⟨sameId, worker, sameName, owned⟩
    rw [← sameId, ← sameName] at records
    exact ⟨worker, records, owned⟩
  cases call with
  | cancel taskID =>
      rw [performs.2.1] at enabled
      cases running.symm.trans enabled
  | claim name =>
      rcases Update.encode_claim performs.1 with ⟨_, worker, _, _, change⟩
      rw [change] at enabled
      cases running.symm.trans (due_pending enabled)
  | markCompleted taskID name durationMs =>
      exact Or.inr (outcome ⟨rfl, rfl⟩)
  | markPending task name lastError nextRunAt =>
      exact Or.inr (outcome ⟨rfl, rfl⟩)
  | markDead taskID name lastError reason =>
      exact Or.inr (outcome ⟨rfl, rfl⟩)
  | retryDead taskID =>
      rw [performs.2.1] at enabled
      cases running.symm.trans enabled
  | requeueStaleRunning threshold reaperID =>
      exact Or.inl ⟨threshold, reaperID, rfl⟩
  | _ => exact performs.elim

/-- Everything that a commit can do to a task that a worker has locked. -/
theorem affects_of_owned
    {locker : Text} (lawful : Lawful platform db commit.call commit.writes)
    (found : db.find id = some row) (owned : row.ownedBy locker = true) :
    Affects db ((postgres platform).applyAll commit.writes db) id
      locker.bytes commit := by
  have running := ownedBy_running owned
  have step := lawful.viewStep id
  generalize applied :
    (postgres platform).applyAll commit.writes db = after at step
  generalize before : db.view id = first at step
  generalize wrote : written id commit.writes = written at step
  generalize later : after.view id = last at step
  have beforeRow := congrArg TaskView.row before
  have laterRow := congrArg TaskView.row later
  rw [Database.view_row] at beforeRow laterRow
  cases step with
  | stay =>
      subst before
      exact .spared wrote later
  | enqueue fresh logs letters enqueues =>
      rw [found] at beforeRow
      cases beforeRow
  | beat worker held now logs letters beaten called =>
      rw [found] at beforeRow
      cases beforeRow
      cases locker_unique beaten owned
      refine .renewed locker row now ?_ found wrote laterRow
      rw [called, Database.find_id found]
  | move move logs letters enabled performs =>
      rw [found] at beforeRow
      cases beforeRow
      have ended :
          ∀ row, after.find id = some row → row.status ≠ .running := by
        intro row current
        rw [laterRow] at current
        cases current
        exact after_status_ne_running enabled running
      rcases records_of_performs performs enabled running with
        ⟨threshold, reaperID, called⟩ | ⟨worker, records, ends⟩
      · rw [called] at lawful
        rcases reaped_of_written lawful wrote with
          ⟨other, stored, stale, logged⟩
        exact .reaped threshold reaperID other called stored stale logged
          ended
      · rw [Database.find_id found, locker_unique ends owned] at records
        exact .recorded records ended

section

variable (runs : RunsUnder state.store.history id claim)
  (reached : Reached platform state.store)
  (named : WellNamed state)
  (called : Called state.store claim (.claim workerID))

include runs reached named called

/-- What a commit does to a task that runs under a claim. -/
theorem RunsUnder.affects
    (moves : state.Moves platform step next)
    (grown : next.store.history = state.store.history ++ [commit]) :
    Affects state.store.db next.store.db id workerID commit := by
  rcases runs.owned reached named called with
    ⟨row, locker, found, owned, sameName⟩
  rcases moves.published reached grown with ⟨_, _, lawful, applied, _⟩
  rw [applied, ← sameName]
  exact affects_of_owned lawful found owned

/-- A heartbeat that finds its task under the claim of its worker. -/
theorem RunsUnder.beat_cases
    {fault : Option Fault} {clock : Time} {result : Response}
    {writes : List Write}
    (answered :
      BeatAnswered fault clock state.store.db id workerID result writes) :
    (fault ≠ none ∧ writes = [] ∧
      ∃ error, result = failUnit (.wrapped "hearbeat task" error)) ∨
      fault = none ∧ result = .unit (.ok ()) ∧
        ∃ worker row,
          state.store.db.find id = some row ∧
            writes =
              [.updateTask ((Change.heartbeat worker).set clock row)] := by
  rcases runs.owned reached named called with
    ⟨row, locker, found, owned, sameName⟩
  cases answered with
  | failed error cause =>
      left
      refine ⟨?_, rfl, error, rfl⟩
      rcases cause with faulty | noText
      · exact faulty
      · rw [← sameName, locker.valid] at noText
        cases noText
  | lost worker name foreign =>
      cases Text.ext (name.trans sameName.symm)
      rw [foreign row found] at owned
      cases owned
  | renewed worker other name quiet stored held =>
      exact Or.inr ⟨quiet, rfl, worker, other, stored, rfl⟩

end

end Running

/-! ## Transactions -/

section Transactions

variable {platform : Platform} {state next : State} {step : Step}

/-- Only an answer of the server advances a call. -/
theorem State.step_store
    (stepped : state.step platform step = some next) :
    next.store = state.store ∨
      ∃ label,
        (postgres platform).step (Call.program platform) state.store
            label = some next.store ∧
          ∀ index answer, label = .advance index answer →
            step = .serve index answer := by
  cases step with
  | serve index answer =>
      rcases Option.map_eq_some_iff.mp stepped with
        ⟨store, answered, equal⟩
      subst next
      refine Or.inr ⟨_, answered, ?_⟩
      rintro position other ⟨⟩
      rfl
  | start settings registry =>
      cases stepped
      exact Or.inl rfl
  | stop process =>
      simp only [State.step] at stepped
      split at stepped
      · cases stepped
      · split_ifs at stepped
        cases stepped
        exact Or.inl rfl
  | work index action =>
      simp only [State.step] at stepped
      split at stepped
      · cases stepped
      · rcases Option.map_eq_some_iff.mp stepped with
          ⟨reaction, _, equal⟩
        subst next
        cases reaction.call with
        | none => exact Or.inl rfl
        | some call =>
            refine Or.inr ⟨.spawn call, rfl, ?_⟩
            rintro position answer ⟨⟩
  | reap process =>
      simp only [State.step] at stepped
      split at stepped
      · cases stepped
      · split_ifs at stepped
        cases stepped
        refine Or.inr ⟨.spawn _, rfl, ?_⟩
        rintro position answer ⟨⟩
  | call call =>
      simp only [State.step] at stepped
      split_ifs at stepped
      cases stepped
      refine Or.inr ⟨.spawn call, rfl, ?_⟩
      rintro position answer ⟨⟩
  | lose index =>
      rcases Option.map_eq_some_iff.mp stepped with
        ⟨store, crashed, equal⟩
      subst next
      refine Or.inr ⟨.crash index, crashed, ?_⟩
      rintro position answer ⟨⟩

/-- A commit is an answer to the call that it is a commit of. -/
theorem State.step_served
    (stepped : state.step platform step = some next)
    (grown : next.store.history = state.store.history ++ [commit]) :
    ∃ answer, step = .serve commit.session answer := by
  rcases State.step_store stepped with
    same | ⟨label, moved, advances⟩
  · rw [same] at grown
    simp at grown
  · rcases Engine.step_published moved grown with
      ⟨answer, _, _, equal, _⟩
    exact ⟨answer, advances commit.session answer equal⟩

/-- The server answers the `BEGIN` of the call, at the clock. -/
def Begins (store : StoreConfig) (index : Nat) (clock : Time)
    (step : Step) : Prop :=
  ∃ answer session next,
    step = .serve index answer ∧ answer.clock = clock ∧
      store.sessions[index]? = some session ∧
      session.program = some (.begin next)

/-- An open transaction was open before, or its `BEGIN` is answered. -/
theorem State.step_opened
    (stepped : state.step platform step = some next)
    {tx : Tx Write Resource Time}
    (found : next.store.sessions[index]? = some session)
    (opened : session.tx = some tx) :
    (∃ before old,
      state.store.sessions[index]? = some before ∧
        before.tx = some old ∧ old.startedAt = tx.startedAt) ∨
      Begins state.store index tx.startedAt step := by
  rcases State.step_store stepped with
    same | ⟨label, moved, advances⟩
  · rw [same] at found
    exact Or.inl ⟨session, tx, found, opened, rfl⟩
  · rcases Engine.step_opened moved found opened with
      before | ⟨answer, before, rest, equal, located, program, clock⟩
    · exact Or.inl before
    · exact Or.inr ⟨answer, before, rest, advances index answer equal,
        clock.symm, located, program⟩

/-- An entry of the log carries the start of its transaction. -/
theorem State.step_logged
    (stepped : state.step platform step = some next)
    (reached : Reached platform state.store)
    (grown : next.store.history = state.store.history ++ [commit])
    {entry : LogRecord} (logged : .insertLog entry ∈ commit.writes) :
    ∃ session tx,
      state.store.sessions[commit.session]? = some session ∧
        session.tx = some tx ∧ tx.startedAt = entry.createdAt := by
  rcases State.step_store stepped with same | ⟨label, moved, _⟩
  · rw [same] at grown
    simp at grown
  · rcases reached with ⟨schedule, followed⟩
    have obeys :
        ∀ (index : Nat) session,
          state.store.sessions[index]? = some session →
            session.Obeys (postgres platform)
              (logStamping.watch Database Response) :=
      fun index session found =>
        Engine.follow_obeys logStamping.watch_sound
          (fun _ _ => True.intro)
          (Call.program_obeys platform session.call) followed found rfl
    exact Stamping.published_opened obeys moved grown logged rfl

end Transactions

/-! ## The goroutine that sends the heartbeats -/

/-- The claim, the task and the goroutine of the heartbeats. -/
def Phase.beating : Phase → Option (Nat × TaskRow × Heartbeat)
  | .running claim task heartbeat => some (claim, task, heartbeat)
  | .persisting claim task heartbeat _ => some (claim, task, heartbeat)
  | _ => none

/-- The goroutine goes on, whatever its heartbeat has returned. -/
def Heartbeat.Alive (store : StoreConfig) (id : TaskId)
    (workerID : GoString) : Heartbeat → Prop
  | .waiting => True
  | .sent session =>
      Called store session (.heartbeat id workerID) ∧
        callResult store session ≠
          some (some (.unit (.error .taskOwnershipLost)))
  | .stopped => False

/--
The goroutine of an execution with a handler goes on while the task runs under
the claim of the execution.
-/
def KeepsBeating (state : State) : Prop :=
  ∀ worker ∈ state.workers, ∀ claim task heartbeat,
    worker.phase.beating = some (claim, task, heartbeat) →
    worker.registry task.type = true →
    RunsUnder state.store.history task.id claim →
      heartbeat.Alive state.store task.id worker.workerID

section Loops

variable {platform : Platform} {state next : State} {workerID : GoString}
  {task : TaskRow} {action : Action}

theorem Heartbeat.act_cases
    {beat : Call} {heartbeat later : Heartbeat} {call : Option Call}
    (acted : heartbeat.act store beat action = some (later, call)) :
    later = .sent store.sessions.length ∧ call = some beat ∨
      ∃ session result,
        heartbeat = .sent session ∧
          callResult store session = some result ∧
          later = .afterResult result ∧ call = none := by
  unfold Heartbeat.act at acted
  split at acted
  · cases acted
    exact Or.inl ⟨rfl, rfl⟩
  · rename_i session
    rcases Option.map_eq_some_iff.mp acted with ⟨result, returned, equal⟩
    cases equal
    exact Or.inr ⟨session, result, rfl, returned, rfl, rfl⟩
  · cases acted

/-- What a step of the worker does to its goroutine. -/
theorem Worker.act_beating
    {claim : Nat} {later : Heartbeat}
    (acted : worker.act store action = some reaction)
    (beating : reaction.phase.beating = some (claim, task, later)) :
    (worker.registry task.type = true → later = .waiting) ∨
      ∃ heartbeat,
        worker.phase.beating = some (claim, task, heartbeat) ∧
          (later = heartbeat ∨
            heartbeat.act store (.heartbeat task.id worker.workerID)
              action = some (later, reaction.call)) := by
  simp only [Worker.act] at acted
  split at acted
  · cases acted
    cases beating
  · rename_i began phase
    rcases Option.map_eq_some_iff.mp acted with ⟨result, _, equal⟩
    split at equal
    · subst reaction
      left
      unfold Worker.execute at beating
      split_ifs at beating with registered
      · cases beating
        exact fun _ => rfl
      · cases beating
        intro absurd
        exact (registered absurd).elim
    · subst reaction
      cases beating
  · rename_i began given heartbeat handled nextRunAt duration phase
    cases acted
    cases beating
    exact Or.inr ⟨later, by rw [phase]; rfl, Or.inl rfl⟩
  · rename_i began given heartbeat session phase
    rcases Option.map_eq_some_iff.mp acted with ⟨result, _, equal⟩
    subst reaction
    cases beating
  · rename_i began given heartbeat phase _
    rcases Option.map_eq_some_iff.mp acted with
      ⟨⟨after, call⟩, beat, equal⟩
    subst reaction
    cases beating
    exact Or.inr ⟨heartbeat, by rw [phase]; rfl, Or.inr beat⟩
  · rename_i began given heartbeat session phase _
    rcases Option.map_eq_some_iff.mp acted with
      ⟨⟨after, call⟩, beat, equal⟩
    subst reaction
    cases beating
    exact Or.inr ⟨heartbeat, by rw [phase]; rfl, Or.inr beat⟩
  · cases acted

theorem Received.ended
    {claim : Nat} (received : Received store claim workerID task) :
    ¬ store.InProgress claim := by
  rcases received with ⟨session, found, _, finished⟩
  rintro ⟨other, program, located, current, unfinished⟩
  rw [found] at located
  cases located
  rw [finished] at current
  cases current
  exact unfinished _ rfl

/-- A worker whose goroutine runs has received the task. -/
theorem Tracked.beating
    (tracked : Tracked platform state) (member : worker ∈ state.workers)
    {claim : Nat} {heartbeat : Heartbeat}
    (beating : worker.phase.beating = some (claim, task, heartbeat)) :
    Received state.store claim worker.workerID task := by
  have ok := tracked.ok worker member
  unfold Worker.Ok at ok
  cases phase : worker.phase with
  | running began given current =>
      rw [phase] at beating
      cases beating
      simpa only [phase] using ok
  | persisting began given current session =>
      rw [phase] at beating
      cases beating
      simp only [phase] at ok
      exact ok.1
  | _ =>
      rw [phase] at beating
      cases beating

theorem Heartbeat.afterResult_alive
    {id : TaskId} {result : Option Response}
    (kept : result ≠ some (.unit (.error .taskOwnershipLost))) :
    (Heartbeat.afterResult result).Alive store id workerID := by
  unfold Heartbeat.afterResult
  split
  · exact (kept rfl).elim
  · exact True.intro

/-- The goroutine goes on if the result of its heartbeat does not change. -/
theorem Heartbeat.Alive.mono
    {before after : StoreConfig} {id : TaskId} {heartbeat : Heartbeat}
    (alive : heartbeat.Alive before id workerID)
    (kept :
      ∀ session, Called before session (.heartbeat id workerID) →
        Called after session (.heartbeat id workerID) ∧
          (callResult after session = callResult before session ∨
            callResult after session ≠
              some (some (.unit (.error .taskOwnershipLost))))) :
    heartbeat.Alive after id workerID := by
  cases heartbeat with
  | waiting => exact True.intro
  | stopped => exact alive.elim
  | sent session =>
      rcases kept session alive.1 with ⟨called, same | other⟩
      · refine ⟨called, ?_⟩
        rw [same]
        exact alive.2
      · exact ⟨called, other⟩

theorem callResult_congr
    {before after : StoreConfig}
    (same : after.sessions[index]? = before.sessions[index]?) :
    callResult after index = callResult before index := by
  simp only [callResult, same]

theorem Heartbeat.Alive.send
    {id : TaskId} {heartbeat : Heartbeat}
    (alive : heartbeat.Alive store id workerID) (call : Call) :
    heartbeat.Alive (send platform call store) id workerID := by
  apply alive.mono
  intro session called
  have same :
      (Pool.send platform call store).sessions[session]? =
        store.sessions[session]? :=
    List.getElem?_append_left called.lt
  refine ⟨?_, Or.inl (callResult_congr same)⟩
  rcases called with ⟨current, found, equal⟩
  exact ⟨current, same.trans found, equal⟩

theorem KeepsBeating.work
    (beats : KeepsBeating state) {actor : Worker}
    (found : state.workers[index]? = some actor)
    (acted : actor.act state.store action = some reaction) :
    KeepsBeating
      { state with
        store :=
          reaction.call.elim state.store
            fun call => send platform call state.store
        workers :=
          state.workers.set index { actor with phase := reaction.phase }
        events := state.events ++ reaction.events } := by
  intro worker member claim task heartbeat beating registered runs
  have sameHistory :
      (reaction.call.elim state.store
        fun call => send platform call state.store).history =
          state.store.history := by
    cases reaction.call <;> rfl
  replace runs : RunsUnder state.store.history task.id claim :=
    sameHistory ▸ runs
  have kept :
      ∀ {id : TaskId} {workerID : GoString} {heartbeat : Heartbeat},
        heartbeat.Alive state.store id workerID →
          heartbeat.Alive
            (reaction.call.elim state.store
              fun call => send platform call state.store) id
            workerID := by
    intro id workerID heartbeat alive
    cases reaction.call with
    | none => exact alive
    | some call => exact alive.send call
  rcases List.mem_or_eq_of_mem_set member with inside | equal
  · exact kept
      (beats worker inside claim task heartbeat beating registered runs)
  · subst worker
    rcases Worker.act_beating acted beating with
      started | ⟨before, current, same | acts⟩
    · rw [started registered]
      exact True.intro
    · rw [same]
      exact kept (beats actor (List.mem_of_getElem? found) claim task
        before current registered runs)
    · have alive := beats actor (List.mem_of_getElem? found) claim task
        before current registered runs
      rcases Heartbeat.act_cases acts with
        ⟨sent, calling⟩ | ⟨session, result, sent, returned, after, _⟩
      · subst heartbeat
        simp only [calling, Option.elim_some]
        refine ⟨called_send _ _, ?_⟩
        simp [callResult, send, Call.program, Store.heartbeat]
      · subst heartbeat
        subst before
        apply Heartbeat.afterResult_alive
        intro lost
        subst result
        exact alive.2 returned

/-- An answer of the server leaves the goroutine alone. -/
theorem KeepsBeating.served
    (beats : KeepsBeating state) (tracked : Tracked platform state)
    (named : WellNamed state) {answer : Answer Fault Resource Oracle Time}
    (stepped : state.step platform (.serve index answer) = some next) :
    KeepsBeating next := by
  have moves := State.step_moves stepped
  rcases Option.map_eq_some_iff.mp stepped with ⟨store, answered, equal⟩
  have sameWorkers : next.workers = state.workers := by
    rw [← equal]
  intro worker member claim task heartbeat beating registered runs
  rw [sameWorkers] at member
  have received := tracked.beating member beating
  have before := runs.before tracked.reached moves received.ended
  have alive :=
    beats worker member claim task heartbeat beating registered before
  apply alive.mono
  intro session called
  refine ⟨moves.called called, ?_⟩
  by_cases same : session = index
  · subst session
    right
    rcases State.serve_heartbeat tracked.reached stepped called with
      ⟨result, writes, beaten, _, _, returned⟩
    rw [returned]
    intro lost
    rcases before.beat_cases tracked.reached named received.called
        beaten with ⟨_, _, error, failed⟩ | ⟨_, done, _⟩
    · rw [failed] at lost
      cases lost
    · rw [done] at lost
      cases lost
  · left
    apply callResult_congr
    subst next
    cases Engine.step_cases answered with
    | advanced position answer owner moved located trip =>
        exact List.getElem?_set_ne (Ne.symm same)

/-- A lost connection leaves the goroutine alone. -/
theorem KeepsBeating.lost
    (beats : KeepsBeating state)
    (stepped : state.step platform (.lose index) = some next) :
    KeepsBeating next := by
  have moves := State.step_moves stepped
  rcases Option.map_eq_some_iff.mp stepped with ⟨store, crashed, equal⟩
  subst next
  cases Engine.step_cases crashed with
  | crashed position session located running =>
      intro worker member claim task heartbeat beating registered runs
      apply (beats worker member claim task heartbeat beating registered
        runs).mono
      intro other called
      refine ⟨moves.called called, ?_⟩
      by_cases same : other = index
      · subst other
        right
        simp [callResult, getElem?_set_some located]
      · left
        exact callResult_congr (List.getElem?_set_ne (Ne.symm same))

theorem KeepsBeating.step
    (beats : KeepsBeating state) (tracked : Tracked platform state)
    (named : WellNamed state) {step : Step}
    (stepped : state.step platform step = some next) :
    KeepsBeating next := by
  cases step with
  | start settings registry =>
      cases stepped
      intro worker member claim task heartbeat beating registered runs
      rcases List.mem_append.mp member with inside | started
      · exact beats worker inside claim task heartbeat beating registered runs
      · rcases List.mem_map.mp started with ⟨index, _, equal⟩
        subst worker
        cases beating
  | stop process =>
      simp only [State.step] at stepped
      split at stepped
      · cases stepped
      · split_ifs at stepped
        cases stepped
        intro worker member claim task heartbeat beating registered runs
        rcases List.mem_map.mp member with ⟨before, inside, equal⟩
        subst worker
        unfold Worker.stopped at beating registered ⊢
        split_ifs at beating registered ⊢
        · cases beating
        · exact beats before inside claim task heartbeat beating
            registered runs
  | work index action =>
      simp only [State.step] at stepped
      split at stepped
      · cases stepped
      · rename_i worker found
        rcases Option.map_eq_some_iff.mp stepped with
          ⟨reaction, acted, equal⟩
        subst next
        exact beats.work found acted
  | reap process =>
      simp only [State.step] at stepped
      split at stepped
      · cases stepped
      · split_ifs at stepped
        cases stepped
        intro worker member claim task heartbeat beating registered runs
        exact (beats worker member claim task heartbeat beating
          registered runs).send _
  | call call =>
      simp only [State.step] at stepped
      split_ifs at stepped
      cases stepped
      intro worker member claim task heartbeat beating registered runs
      exact (beats worker member claim task heartbeat beating registered
        runs).send _
  | serve index answer => exact beats.served tracked named stepped
  | lose index => exact beats.lost stepped

end Loops

end Dhara.Pool
