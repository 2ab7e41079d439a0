import Dhara.Playground.Scenarios
import Dhara.Store.Idempotency

/-!
# Isolation of the sessions

The requests of a visitor change only tasks of their session.  A retry and a
cancellation read the key of the task in one transaction and change the task
in another one.  In between other requests, workers and retention runs make
their steps, but no step changes the key of a task.  So the task still belongs
to the session when it is changed, unless it was deleted and another task was
given its identifier.
-/

namespace Dhara.Playground

open Dhara.Store

variable {row : TaskRecord} {id : TaskId}

/-! ## Calls of requests -/

/-- The task belongs to the session. -/
def Belongs (session : GoString) (row : TaskRecord) : Prop :=
  keyBelongsToSession (row.idempotencyKey.map Text.bytes) session = true

theorem Belongs.of_fixed {session : GoString} {later : TaskRecord}
    (belongs : Belongs session row) (same : later.fixed = row.fixed) :
    Belongs session later := by
  simp only [TaskRecord.fixed, Prod.mk.injEq] at same
  rw [Belongs, same.2.1]
  exact belongs

/--
No task of another session is changed, and every task that appears belongs to
the session.
-/
structure Isolated (session : GoString) (before after : Database) :
    Prop where
  others :
    ∀ id row, before.find id = some row → ¬ Belongs session row →
      after.view id = before.view id
  appearing :
    ∀ id row, before.find id = none → after.find id = some row →
      Belongs session row

theorem Isolated.refl (session : GoString) (db : Database) :
    Isolated session db db := by
  constructor
  · intro id row found foreign
    rfl
  · intro id row absent found
    rw [absent] at found
    cases found

/-- The calls that requests make. -/
def byRequest : Call → Bool
  | .create _ | .retryDead _ | .cancel _ => true
  | _ => false

/-- The task that a retry or a cancellation names. -/
def target : Call → Option TaskId
  | .retryDead id | .cancel id => some id
  | _ => none

section Calls

variable {platform : Platform} {session : GoString} {call : Call}

/-- A call of a request leaves the tasks alone that it does not name. -/
theorem ViewStep.stays {before after : TaskView} {wrote : Option TaskRecord}
    (requested : byRequest call = true)
    (step : ViewStep platform call before wrote after)
    (found : before.row = some row)
    (other : target call ≠ some row.id) : after = before := by
  cases step with
  | stay => rfl
  | enqueue fresh logs letters enqueues => cases found
  | beat workerID row now logs letters owned called =>
      subst called
      cases requested
  | move move logs letters enabled performs =>
      cases found
      cases call with
      | create task => exact performs.elim
      | retryDead id => exact absurd (congrArg some performs.1.symm) other
      | cancel id => exact absurd (congrArg some performs.1.symm) other
      | _ => cases requested

/-- Tasks that belong to the session, or are enqueued for it. -/
theorem ViewStep.belongs {before after : TaskView}
    {wrote : Option TaskRecord}
    (enqueued : ∀ row, call.Enqueues platform row → Belongs session row)
    (step : ViewStep platform call before wrote after)
    (belongs : ∀ row, before.row = some row → Belongs session row) :
    ∀ row, after.row = some row → Belongs session row := by
  intro row found
  cases present : before.row with
  | some old =>
      rcases step.fixed present with ⟨current, stored, same⟩
      rw [stored] at found
      cases found
      exact (belongs old present).of_fixed same
  | none =>
      cases step with
      | stay => exact belongs row found
      | enqueue fresh logs letters enqueues =>
          cases found
          exact enqueued row enqueues
      | beat | move => cases present

/-- What every step of the call keeps holds of the task after the call. -/
theorem execute_view (Holds : TaskView → Prop) {db : Database}
    (kept :
      ∀ before wrote after, ViewStep platform call before wrote after →
        Holds before → Holds after)
    (answers : Answers) (start : Holds (db.view id)) :
    Holds ((execute platform ⟨call, answers⟩ db).link.db.view id) := by
  rcases execute_delivers platform ⟨call, answers⟩ db with
    ⟨published, publishes, _⟩
  have commits :
      ∀ current other writes, other = call →
        Holds (Database.view current id) →
          Lawful platform current other writes →
            Holds
              (((postgres platform).applyAll writes current).view id) := by
    rintro current other writes rfl held lawful
    exact kept _ _ _ (lawful.viewStep id) held
  refine publishes.invariant_of (contract platform) commits ?_ start
  intro commit member
  rcases List.mem_map.mp member with ⟨writes, _, equal⟩
  rw [← equal]

theorem execute_isolated {db : Database}
    (requested : byRequest call = true)
    (own :
      ∀ id row, target call = some id → db.find id = some row →
        Belongs session row)
    (enqueued : ∀ row, call.Enqueues platform row → Belongs session row)
    (answers : Answers) :
    Isolated session db (execute platform ⟨call, answers⟩ db).link.db := by
  constructor
  · intro id row found foreign
    refine execute_view (· = db.view id) ?_ answers rfl
    rintro before wrote after step rfl
    refine ViewStep.stays requested step found ?_
    intro named
    refine foreign (own id row ?_ found)
    rw [named, Database.find_id found]
  · intro id row absent found
    refine execute_view
      (fun view => ∀ row, view.row = some row → Belongs session row)
      (fun _ _ _ step => ViewStep.belongs enqueued step) answers ?_ row
      found
    intro row stored
    rw [Database.view_row, absent] at stored
    cases stored

end Calls

/-! ## Stages -/

/-- The insertions of the plan have keys of the session. -/
def Plan.Keyed (session : GoString) (plan : Plan) : Prop :=
  ∀ position now uuid params,
    plan.insertion position now uuid = .ok params →
      keyBelongsToSession params.idempotencyKey session = true

/-- The work concerns only tasks of the session, or the one it names. -/
def Work.Within (session : GoString) (named : Option TaskId)
    (db : Database) : Work → Prop
  | .inserts plan => plan.Keyed session
  | .retry id _ | .cancel id =>
      named = some id ∧ ∀ row, db.find id = some row → Belongs session row

/-- The task that a request names. -/
def Request.target : Request → Option TaskId
  | .retryOwned _ id | .cancelOwned _ id => some id
  | _ => none

/-- The request is one of the session, at any stage. -/
def Stage.Within (session : GoString) (named : Option TaskId)
    (db : Database) : Stage → Prop
  | .arrived request =>
      request.session = session ∧ request.target = named
  | .ready work | .holding work | .admitted work _ =>
      work.Within session named db
  | .returned _ => True

section Stages

variable {platform : Platform} {runtime : Runtime} {config : Config}
  {session : GoString} {named : Option TaskId} {db : Database}
  {uuid : GoString}

theorem createKey_belongs {key : GoString} {chosen : Option GoString}
    (held : session ≠ [])
    (accepted : createKey session uuid chosen = .ok key) :
    keyBelongsToSession (some key) session = true := by
  cases chosen with
  | none =>
      cases accepted
      exact keyBelongsToSession_ownedKey held uuid
  | some chosen =>
      simp only [createKey, customKey] at accepted
      split_ifs at accepted
      cases accepted
      exact keyBelongsToSession_ownedKey held _

theorem createTask_keyed {input : CreateTaskInput} {now : Time} {plan : Plan}
    (held : session ≠ [])
    (made : createTask runtime config session input now uuid = .ok plan) :
    plan.Keyed session := by
  simp only [createTask] at made
  split at made
  · cases made
  · split at made
    · cases made
    · split at made
      · cases made
      · split at made
        · cases made
        · rename_i key accepted
          cases made
          rintro position clock nonce params ⟨⟩
          exact createKey_belongs held accepted

theorem scenario_keyed {request : Request} {plan : Plan}
    (held : request.session ≠ [])
    (requests : request.scenario runtime config = some (.ok plan)) :
    plan.Keyed request.session := by
  intro position now uuid params built
  rw [(request.scenario_serves requests).owned position now uuid params built]
  exact keyBelongsToSession_ownedKey held uuid

theorem within_planned {made : Except ServiceError Plan}
    (keyed : ∀ plan, made = .ok plan → plan.Keyed session) :
    (planned made).Within session named db := by
  cases made with
  | error error => exact True.intro
  | ok plan => exact keyed plan rfl

/-- The row was read, and it belongs to the session. -/
theorem within_readOwned {work : TaskStatus → Work} {fault : Option Fault}
    (concerns :
      ∀ status,
        (∀ row, db.find id = some row → Belongs session row) →
          (work status).Within session named db) :
    (readOwned session id work fault db).Within session named db := by
  unfold readOwned
  split
  · exact True.intro
  · split
    · exact True.intro
    · rename_i row found
      split
      · exact True.intro
      · rename_i allowed
        refine concerns row.status ?_
        intro other stored
        rw [found] at stored
        cases stored
        unfold requireOwned at allowed
        split_ifs at allowed with owned
        exact owned

theorem Request.prepare_within {request : Request} {now : Time}
    {fault : Option Fault} (held : request.session ≠ []) :
    (request.prepare runtime config now uuid fault db).Within
      request.session request.target db := by
  cases request with
  | createTask session input =>
      exact within_planned fun plan => createTask_keyed held
  | enqueueBurst | enqueueFlaky | enqueueSlow =>
      exact within_planned fun plan made =>
        scenario_keyed held (congrArg some made)
  | retryOwned session id =>
      refine within_readOwned ?_
      intro status own
      exact ⟨rfl, own⟩
  | cancelOwned session id =>
      show (readOwned session id (fun _ => .cancel id) fault db).Within
        session (some id) db
      refine within_readOwned ?_
      intro status own
      exact ⟨rfl, own⟩

/-- The calls that the work makes. -/
def Work.Makes : Work → Call → Prop
  | .inserts plan, call =>
      ∃ position now uuid params,
        plan.insertion position now uuid = .ok params ∧
          (params.normalize now).validate now = .ok () ∧
          call = .create (params.normalize now).toStoreTask
  | .retry id _, call => call = .retryDead id
  | .cancel id, call => call = .cancel id

/-- The next call of the work, and the stage after it. -/
theorem Work.next_makes (work : Work) (taskIDs : List TaskId)
    (now : Time) (uuid : GoString) (answers : Answers) :
    ((work.next platform taskIDs now uuid answers db).2 = db ∨
      ∃ call, work.Makes call ∧
        (work.next platform taskIDs now uuid answers db).2 =
          (execute platform ⟨call, answers⟩ db).link.db) ∧
      ((∃ outcome,
        (work.next platform taskIDs now uuid answers db).1 =
          .returned outcome) ∨
        ∃ plan more, work = .inserts plan ∧
          (work.next platform taskIDs now uuid answers db).1 =
            .admitted work more) := by
  cases work with
  | retry id status =>
      exact ⟨Or.inr ⟨_, rfl, rfl⟩, Or.inl ⟨_, rfl⟩⟩
  | cancel id => exact ⟨Or.inr ⟨_, rfl, rfl⟩, Or.inl ⟨_, rfl⟩⟩
  | inserts plan =>
      have inserted :
          ∀ params,
            plan.insertion taskIDs.length now uuid = .ok params →
              (insert platform now params answers db).2 = db ∨
                ∃ call, (Work.inserts plan).Makes call ∧
                  (insert platform now params answers db).2 =
                    (execute platform ⟨call, answers⟩ db).link.db := by
        intro params built
        cases valid : (params.normalize now).validate now with
        | error message =>
            refine Or.inl ?_
            rw [insert, valid]
        | ok =>
            rw [insert_of_valid valid]
            exact Or.inr ⟨_, ⟨_, now, uuid, params, built, valid, rfl⟩, rfl⟩
      simp only [Work.next, Plan.next]
      split_ifs
      · split
        · exact ⟨Or.inl rfl, Or.inl ⟨_, rfl⟩⟩
        · rename_i params built
          have stored := inserted params built
          split
          · exact ⟨stored, Or.inl ⟨_, rfl⟩⟩
          · split
            · exact ⟨stored, Or.inl ⟨_, rfl⟩⟩
            · exact ⟨stored, Or.inr ⟨plan, _, rfl, rfl⟩⟩
      · exact ⟨Or.inl rfl, Or.inl ⟨_, rfl⟩⟩

/-- The calls of a request concern only tasks of its session. -/
theorem Work.Makes.isolated {work : Work} {call : Call}
    (within : work.Within session named db) (makes : work.Makes call)
    (answers : Answers) :
    Isolated session db (execute platform ⟨call, answers⟩ db).link.db := by
  cases work with
  | inserts plan =>
      rcases makes with ⟨position, now, uuid, params, built, valid, rfl⟩
      refine execute_isolated rfl (by rintro id row ⟨⟩) ?_ answers
      intro row enqueues
      rw [Belongs, (create_columns (validate_fits valid) enqueues).1.2]
      exact within position now uuid params built
  | retry id status =>
      cases makes
      refine execute_isolated rfl ?_ ?_ answers
      · rintro other row ⟨⟩ found
        exact within.2 row found
      · rintro row ⟨task, ⟨⟩, _⟩
  | cancel id =>
      cases makes
      refine execute_isolated rfl ?_ ?_ answers
      · rintro other row ⟨⟩ found
        exact within.2 row found
      · rintro row ⟨task, ⟨⟩, _⟩

end Stages

/-! ## Runs -/

section Runs

variable (platform : Platform) (runtime : Runtime) (config : Config)

/-- A step of a request, and the committed state after it. -/
inductive Stage.Goes (db : Database) : Stage → Stage → Database → Prop where
  | prepared (request : Request) (now : Time) (uuid : GoString)
      (fault : Option Fault) :
      Goes db (.arrived request)
        (request.prepare runtime config now uuid fault db) db
  | locked (work : Work) : Goes db (.ready work) (.holding work) db
  | refused (work : Work) (error : ServiceError) :
      Goes db (.holding work) (.returned (.refused error)) db
  | passed (work : Work) : Goes db (.holding work) (.admitted work []) db
  | called (stage : Stage) (work : Work) (taskIDs : List TaskId)
      (now : Time) (uuid : GoString) (answers : Answers)
      (stands : stage = .admitted work taskIDs ∨ stage = .ready work) :
      Goes db stage (work.next platform taskIDs now uuid answers db).1
        (work.next platform taskIDs now uuid answers db).2

/-- What a step of the system can do to requests and keys. -/
inductive State.Turns (state next : State) (step : Step) : Prop where
  | took (index : Nat) (stage later : Stage)
      (found : state.requests[index]? = some stage)
      (goes : stage.Goes platform runtime config state.db later next.db)
      (caller : step.caller = none ∨ step.caller = some index)
      (requests : next.requests = state.requests.set index later)
  | elsewhere (outside : step.caller = none)
      (requests : state.requests <+: next.requests)
      (fixed :
        ∀ id old row, state.db.find id = some old →
          next.db.find id = some row → row.fixed = old.fixed)

/-- The step gives the identifier to no new task. -/
def Step.spares (id : TaskId) (state : State) (step : Step) : Bool :=
  (state.step platform runtime config step).all fun next =>
    (state.db.find id).isSome || (next.db.find id).isNone

variable {platform runtime config} {state next : State}

/-- No call changes the key of a task. -/
theorem execute_fixed {call : Call} {answers : Answers} {db : Database}
    {old : TaskRecord} (found : db.find id = some old)
    (stored :
      (execute platform ⟨call, answers⟩ db).link.db.find id = some row) :
    row.fixed = old.fixed := by
  have keeps :=
    execute_invariant platform
      (fun _ _ _ held lawful => Lawful.keeps lawful held) ⟨call, answers⟩
      (Database.Keeps.of_mem (Database.find_eq_some_iff.mp found).1)
  rcases keeps with ⟨current, there, same⟩
  rw [Database.find_id found, stored] at there
  cases there
  exact same

theorem State.step_turns {step : Step}
    (stepped : state.step platform runtime config step = some next) :
    state.Turns platform runtime config next step := by
  cases step with
  | arrive request =>
      cases stepped
      refine .elsewhere rfl (List.prefix_append _ _) ?_
      intro id old row found stored
      cases found.symm.trans stored
      rfl
  | prepare index now uuid fault =>
      simp only [State.step] at stepped
      split at stepped
      · rename_i request found
        cases stepped
        exact .took index _ _ found (.prepared request now uuid fault)
          (Or.inl rfl) rfl
      · cases stepped
  | lock index =>
      simp only [State.step] at stepped
      split at stepped
      · rename_i work found free
        split_ifs at stepped
        cases stepped
        exact .took index _ _ found (.locked work) (Or.inl rfl) rfl
      · cases stepped
  | check index fault =>
      simp only [State.step] at stepped
      split at stepped
      · rename_i work found
        split at stepped
        · cases stepped
          exact .took index _ _ found (.refused work _) (Or.inl rfl) rfl
        · cases stepped
          exact .took index _ _ found (.passed work) (Or.inl rfl) rfl
      · cases stepped
  | call index now uuid answers =>
      simp only [State.step] at stepped
      split at stepped
      · rename_i work taskIDs found
        cases stepped
        exact .took index _ _ found
          (.called _ work taskIDs now uuid answers (Or.inl rfl))
          (Or.inr rfl) rfl
      · rename_i id found
        cases stepped
        exact .took index _ _ found
          (.called _ (.cancel id) [] now uuid answers (Or.inr rfl))
          (Or.inr rfl) rfl
      · cases stepped
  | background call answers =>
      simp only [State.step] at stepped
      split_ifs at stepped
      cases stepped
      exact .elsewhere rfl (List.prefix_refl _) fun _ _ _ => execute_fixed
  | retain cutoff deleted =>
      simp only [State.step] at stepped
      split_ifs at stepped
      cases stepped
      refine .elsewhere rfl (List.prefix_refl _) ?_
      intro id old row found stored
      rw [find_sweep] at stored
      split_ifs at stored
      cases found.symm.trans stored
      rfl

section Sessions

variable {session : GoString} {named : Option TaskId} {index : Nat}
  {stage later : Stage} {db after : Database}

/-- A step of a request concerns only tasks of its session. -/
theorem Stage.Goes.within (held : session ≠ [])
    (within : stage.Within session named db)
    (goes : stage.Goes platform runtime config db later after) :
    later.Within session named after ∧ Isolated session db after := by
  cases goes with
  | prepared request now uuid fault =>
      rcases within with ⟨rfl, rfl⟩
      exact ⟨Request.prepare_within held, .refl _ _⟩
  | locked work | passed work => exact ⟨within, .refl _ _⟩
  | refused work error => exact ⟨True.intro, .refl _ _⟩
  | called stage work taskIDs now uuid answers stands =>
      have own : work.Within session named db := by
        rcases stands with rfl | rfl <;> exact within
      rcases work.next_makes taskIDs now uuid answers with ⟨calls, ends⟩
      constructor
      · rcases ends with ⟨outcome, equal⟩ | ⟨plan, more, rfl, equal⟩
        · rw [equal]
          exact True.intro
        · rw [equal]
          exact own
      · rcases calls with equal | ⟨call, makes, equal⟩
        · rw [equal]
          exact .refl _ _
        · rw [equal]
          exact makes.isolated own answers

/-- No request changes the key of a task. -/
theorem Stage.Goes.fixed
    (goes : stage.Goes platform runtime config db later after)
    {old : TaskRecord} (found : db.find id = some old)
    (stored : after.find id = some row) : row.fixed = old.fixed := by
  have same (stored : db.find id = some row) : row.fixed = old.fixed := by
    cases found.symm.trans stored
    rfl
  cases goes with
  | called stage work taskIDs now uuid answers stands =>
      rcases (work.next_makes taskIDs now uuid answers).1 with
        equal | ⟨call, _, equal⟩
      · rw [equal] at stored
        exact same stored
      · rw [equal] at stored
        exact execute_fixed found stored
  | _ => exact same stored

/-- A request stays one of its session, whatever else is done. -/
theorem Stage.Within.moved (within : stage.Within session named db)
    (kept :
      ∀ id row, named = some id → after.find id = some row →
        ∃ old, db.find id = some old ∧ row.fixed = old.fixed) :
    stage.Within session named after := by
  have works (work : Work) (within : work.Within session named db) :
      work.Within session named after := by
    cases work with
    | inserts plan => exact within
    | retry id status | cancel id =>
        refine ⟨within.1, ?_⟩
        intro row stored
        rcases kept id row within.1 stored with ⟨old, found, same⟩
        exact (within.2 old found).of_fixed same
  cases stage with
  | arrived | returned => exact within
  | ready work | holding work | admitted work => exact works work within

theorem Stage.Within.turns {step : Step} (held : session ≠ [])
    (found : state.requests[index]? = some stage)
    (within : stage.Within session named state.db)
    (spared :
      ∀ id, named = some id →
        step.spares platform runtime config id state = true)
    (stepped : state.step platform runtime config step = some next) :
    ∃ later, next.requests[index]? = some later ∧
      later.Within session named next.db := by
  have moved
      (fixed :
        ∀ id old row, state.db.find id = some old →
          next.db.find id = some row → row.fixed = old.fixed) :
      stage.Within session named next.db := by
    refine within.moved ?_
    intro id row names stored
    have fresh := spared id names
    simp only [Step.spares, stepped, Option.all_some, stored,
      Option.isNone_some, Bool.or_false] at fresh
    rcases Option.isSome_iff_exists.mp fresh with ⟨old, there⟩
    exact ⟨old, there, fixed id old row there stored⟩
  cases State.step_turns stepped with
  | took position other later located goes caller requests =>
      rw [requests]
      by_cases same : position = index
      · subst same
        rw [located] at found
        cases found
        exact ⟨later, getElem?_set_some located, (goes.within held within).1⟩
      · refine ⟨stage, ?_, moved fun _ _ _ => goes.fixed⟩
        rw [List.getElem?_set_ne same]
        exact found
  | elsewhere outside requests fixed =>
      rcases requests with ⟨rest, equal⟩
      refine ⟨stage, ?_, moved fixed⟩
      rw [← equal,
        List.getElem?_append_left (List.getElem?_eq_some_iff.mp found).1]
      exact found

theorem Stage.Within.follow {run : List Step} {final : State}
    (held : session ≠ [])
    (found : state.requests[index]? = some stage)
    (within : stage.Within session named state.db)
    (spared :
      ∀ id, named = some id →
        state.Allows platform runtime config
          (fun state step =>
            step.spares platform runtime config id state = true) run)
    (followed : state.follow platform runtime config run = some final) :
    ∃ later, final.requests[index]? = some later ∧
      later.Within session named final.db := by
  induction run generalizing state stage with
  | nil =>
      cases followed
      exact ⟨stage, found, within⟩
  | cons step rest induction =>
      rcases Option.bind_eq_some_iff.mp followed with
        ⟨middle, stepped, remaining⟩
      rcases within.turns held found (fun id names => (spared id names).1)
        stepped with ⟨later, place, kept⟩
      exact induction place kept
        (fun id names => (spared id names).2 middle stepped) remaining

end Sessions

/--
From the arrival of a request on, whatever other requests, workers and
retention runs do meanwhile, each of its calls leaves the tasks of other
sessions with their logs and dead letters as they are, and every task that it
enqueues belongs to its session, if no new task was given the identifier that
the request names.
-/
theorem requests_stay_in_session {index : Nat} {request : Request}
    {run : List Step} {step : Step} {middle : State}
    (arrived : state.requests[index]? = some (.arrived request))
    (held : request.session ≠ [])
    (spared :
      ∀ id, request.target = some id →
        state.Allows platform runtime config
          (fun state step =>
            step.spares platform runtime config id state = true) run)
    (followed : state.follow platform runtime config run = some middle)
    (stepped : middle.step platform runtime config step = some next)
    (own : step.caller = some index) :
    Isolated request.session middle.db next.db := by
  have within :
      (Stage.arrived request).Within request.session request.target
        state.db :=
    ⟨rfl, rfl⟩
  rcases within.follow held arrived spared followed with
    ⟨stage, found, kept⟩
  cases State.step_turns stepped with
  | took position other later located goes caller requests =>
      rw [own] at caller
      rcases caller with none | equal
      · cases none
      · cases equal
        rw [located] at found
        cases found
        exact (goes.within held kept).2
  | elsewhere outside requests fixed =>
      rw [own] at outside
      cases outside

end Runs

/-- A task of the visitor, a task of someone else, and a cancellation. -/
def sharedQueue : State where
  db :=
    executeAll echoPlatform .empty
      [⟨.create
          { emailTask [] with
            idempotencyKey := some (ownedKey visitor []) }, calm 7 0⟩,
        ⟨.create
          { emailTask [] with
            idempotencyKey := some (ownedKey (ascii "other") []) },
          calm 8 0⟩]
  requests := [.arrived (.cancelOwned visitor 7)]

theorem sharedQueue_isolated :
    ∃ middle next row,
      sharedQueue.follow echoPlatform plainRuntime {}
          [.prepare 0 0 [] none] = some middle ∧
        middle.step echoPlatform plainRuntime {}
          (.call 0 0 [] (calm 0 0)) = some next ∧
        middle.db.find 8 = some row ∧
        next.db.view 8 = middle.db.view 8 := by
  have reached :
      (sharedQueue.follow echoPlatform plainRuntime {}
          [.prepare 0 0 [] none]).any
          (fun middle =>
            (middle.step echoPlatform plainRuntime {}
                (.call 0 0 [] (calm 0 0))).isSome &&
              (middle.db.find 8).any fun row =>
                !keyBelongsToSession
                  (row.idempotencyKey.map Text.bytes) visitor) =
        true := by
    decide +kernel
  rcases (Option.any_eq_true _ _).mp reached with ⟨middle, followed, both⟩
  rcases Bool.and_eq_true_iff.mp both with ⟨steps, stored⟩
  rcases Option.isSome_iff_exists.mp steps with ⟨next, stepped⟩
  rcases (Option.any_eq_true _ _).mp stored with ⟨row, found, foreign⟩
  have isolated : Isolated visitor middle.db next.db := by
    refine requests_stay_in_session rfl (by decide) ?_ followed stepped rfl
    rintro id ⟨⟩
    exact ⟨by decide +kernel, fun _ _ => True.intro⟩
  refine ⟨middle, next, row, followed, stepped, found,
    isolated.others 8 row found ?_⟩
  simpa [Belongs] using foreign

end Dhara.Playground
