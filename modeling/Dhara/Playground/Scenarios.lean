import Dhara.Client.Admission
import Dhara.Playground.Confidentiality
import Dhara.Playground.Queue

/-!
# Scenarios

A scenario inserts its tasks one after the other while it holds the mutex,
and workers, reapers and retention go on meanwhile.  The tasks a request has
inserted are read off the run: they are the rows that its own calls bring
into the table.

`LoopRule` says what one call of the loop keeps, and `Stage.Tracks.follow`
carries it through every run.  If a scenario returns without an error, it has
inserted the requested number of tasks for its session.
-/

namespace Dhara.Playground

open Dhara.Store Dhara.Transaction

variable {request : Request} {index : Nat} {params : InsertParams}
  {run : List Step} {state : State} {now : Time} {plan : Plan}

/-! ## New rows -/

/-- The rows of the second state that the first one does not have. -/
def arrivals (before after : Database) : List TaskRecord :=
  after.tasks.rows.filter fun row => (before.find row.id).isNone

section Arrivals

variable {platform : Platform} {db : Database} {row : TaskRecord}

@[simp]
theorem arrivals_self (db : Database) : arrivals db db = [] := by
  rw [arrivals, List.filter_eq_nil_iff]
  intro row member
  simp [Database.find_of_mem member]

theorem arrivals_insert (free : db.Free row) :
    arrivals db ((postgres platform).applyAll [.insertTask row] db) =
      [row] := by
  have stored :
      ((postgres platform).applyAll [.insertTask row] db).tasks.rows =
        db.tasks.rows ++ [row] :=
    Write.rows_insertTask free
  have old := arrivals_self db
  rw [arrivals] at old
  rw [arrivals, stored, List.filter_append, old]
  simp [free.find_eq_none]

theorem length_arrivals_insert (row : TaskRecord) :
    (arrivals db
      ((postgres platform).applyAll [.insertTask row] db)).length ≤ 1 := by
  by_cases free : db.Free row
  · rw [arrivals_insert free]
    exact le_rfl
  · have same :
        (postgres platform).applyAll [.insertTask row] db = db := by
      have unchanged : db.tasks.insert row = db.tasks := dif_neg free
      change (Write.insertTask row).apply db = db
      rw [Write.apply, unchanged]
    rw [same, arrivals_self]
    exact Nat.zero_le 1

/-- A call of `Insert` brings at most one row into the table. -/
theorem length_arrivals_insert_call
    (platform : Platform) (now : Time) (params : InsertParams)
    (answers : Answers) (db : Database) :
    (arrivals db (insert platform now params answers db).2).length ≤
      1 := by
  unfold insert
  split
  · simp
  · rcases execute_create_db (params.normalize now).toStoreTask answers
      with same | ⟨row, stored⟩
    · refine le_of_eq_of_le (congrArg List.length
        (congrArg (arrivals db) same)) ?_
      simp
    · exact le_of_eq_of_le (congrArg List.length
        (congrArg (arrivals db) stored)) (length_arrivals_insert row)

end Arrivals

/-! ## Insertions that succeed -/

/--
The answers that a driver can give to a call.  A context that is done stays
done, and arguments are refused only if they cannot be encoded.
-/
structure Steady (answers : Answers) : Prop where
  done :
    ∀ position, (answers position).fault = some .contextDone →
      (answers (position + 1)).fault ≠ none
  encoded : ∀ position, (answers position).fault ≠ some .encodeArgs

section Insertions

variable
    {platform : Platform} {db : Database} {task : TaskRow}
    {answers : Answers}

theorem evalInsert_serverSide
    {oracle : Oracle} {args : InsertArgs}
    (server : ServerSide (args.encode platform)) :
    ServerSide (evalInsert platform now oracle args db) := by
  apply server.bind
  intro encoded
  split_ifs
  · exact .ok _
  · intro fault equal
    cases equal
    rfl
  · exact .ok _

/--
`Create` fails, inserts a row with the requested key, or finds one, if the
server and not the driver refuses its arguments.
-/
theorem execute_create_cases
    (steady : Steady answers) (fits : task.Fits)
    (server :
      ∀ payloadHash,
        ServerSide ((task.insertArgs payloadHash).encode platform)) :
    (∃ returned error,
      (execute platform ⟨.create task, answers⟩ db).result =
        .created returned (.error error)) ∨
      (∃ row,
        (execute platform ⟨.create task, answers⟩ db).result =
            .created (scanInserted task row) (.ok true) ∧
          (execute platform ⟨.create task, answers⟩ db).link.db =
            (postgres platform).applyAll [.insertTask row] db ∧
          db.Free row ∧ task.Requests row) ∨
      ∃ row ∈ db.tasks.rows, task.Requests row := by
  cases execute_create platform task answers db with
  | failed fails => exact Or.inl fails.error
  | inserted row result stored free requested =>
      exact Or.inr (Or.inl ⟨row, result, stored, free, requested fits⟩)
  | found row same stored requests =>
      exact Or.inr (Or.inr ⟨row, stored, requests⟩)
  | swallowed payloadHash fault same raised driver committed =>
      rcases raised with disturbed | refused
      · cases fault with
        | contextDone => exact (steady.done _ disturbed committed).elim
        | encodeArgs => exact (steady.encoded _ disturbed).elim
        | _ => cases driver
      · have refuses :=
          evalInsert_serverSide (server payloadHash) fault refused
        rw [driver] at refuses
        cases refuses

theorem insert_of_valid
    (valid : (params.normalize now).validate now = .ok ()) (answers : Answers)
    (db : Database) :
    insert platform now params answers db =
      (receipt
          (execute platform
            ⟨.create (params.normalize now).toStoreTask, answers⟩
            db).result,
        (execute platform
          ⟨.create (params.normalize now).toStoreTask, answers⟩
          db).link.db) := by
  rw [insert, valid]

/-- A successful `Insert` inserts a row with its key, or one has the key. -/
theorem insert_ok
    {result : EnqueueResult} (steady : Steady answers)
    (returned : (insert platform now params answers db).1 = .ok result) :
    (∃ row,
      arrivals db (insert platform now params answers db).2 = [row] ∧
        row.id = result.task.id ∧
        row.idempotencyKey.map Text.bytes = params.idempotencyKey) ∨
      ∃ row ∈ db.tasks.rows,
        row.idempotencyKey.map Text.bytes = params.idempotencyKey := by
  cases checked : (params.normalize now).validate now with
  | error message =>
      rw [insert, checked] at returned
      cases returned
  | ok accepted =>
      rw [insert_of_valid checked] at returned ⊢
      dsimp only at returned ⊢
      have valid := validated_of_validate checked
      rcases execute_create_cases steady valid.fits
          valid.serverSide with
        ⟨task, error, failed⟩ | ⟨row, inserted, stored, free, requests⟩ |
          ⟨row, stored, requests⟩
      · rw [failed] at returned
        cases returned
      · rw [inserted] at returned
        cases returned
        refine Or.inl ⟨row, ?_, rfl, requests.2⟩
        rw [stored]
        exact arrivals_insert free
      · exact Or.inr ⟨row, stored, requests.2⟩

end Insertions

/-! ## Requests for scenarios -/

/-- The session of a request. -/
def Request.session : Request → GoString
  | .createTask session _ => session
  | .enqueueBurst session _ => session
  | .enqueueFlaky session _ _ _ => session
  | .enqueueSlow session _ => session
  | .retryOwned session _ => session
  | .cancelOwned session _ => session

/-- The size that a request asks for, or the default. -/
def Request.requested : Request → Int
  | .enqueueBurst _ size => if size = 0 then 25 else size
  | .enqueueFlaky _ count _ _ => if count = 0 then 3 else count
  | .enqueueSlow _ count => if count = 0 then 1 else count
  | _ => 1

section Plans

variable {runtime : Runtime} {config : Config}

/-- The plan of a request for a scenario, or why it is refused. -/
def Request.scenario (runtime : Runtime) (config : Config) :
    Request → Option (Except ServiceError Plan)
  | .enqueueBurst session size =>
      some (Playground.enqueueBurst runtime config session size)
  | .enqueueFlaky session count mode succeedAfterMS =>
      some
        (Playground.enqueueFlaky runtime config session count mode
          succeedAfterMS)
  | .enqueueSlow session count =>
      some (Playground.enqueueSlow runtime config session count)
  | _ => none

theorem Request.prepare_scenario
    {made : Except ServiceError Plan}
    (requests : request.scenario runtime config = some made) (now : Time)
    (uuid : GoString) (fault : Option Fault) (db : Database) :
    request.prepare runtime config now uuid fault db = planned made := by
  cases request with
  | enqueueBurst session size | enqueueSlow session size =>
      cases requests
      rfl
  | enqueueFlaky session count mode succeedAfterMS =>
      cases requests
      rfl
  | _ => cases requests

theorem validateCount_ok {count default limit size : Int}
    (valid : validateCount count default limit = .ok size) :
    size = (if count = 0 then default else count) ∧
      (count ≠ 0 → 1 ≤ count ∧ count ≤ limit) := by
  unfold validateCount at valid
  split_ifs at valid with zero outside
  · cases valid
    exact ⟨by rw [if_pos zero], fun other => (other zero).elim⟩
  · cases valid
    exact ⟨by rw [if_neg zero], fun _ => by omega⟩

theorem insertion_key
    {session taskType payload uuid : GoString} {maxRetries : Int}
    (built :
      insertion runtime config session taskType payload maxRetries now
        uuid = .ok params) :
    params.idempotencyKey = some (ownedKey session uuid) := by
  unfold insertion at built
  split at built
  · cases built
  · cases built
    rfl

/-- What all plans of scenarios have in common. -/
structure Plan.Serves (request : Request) (plan : Plan) : Prop where
  named : plan.scenario.isSome = true
  sized : (plan.count : Int) = request.requested
  owned :
    ∀ index now uuid params,
      plan.insertion index now uuid = .ok params →
        params.idempotencyKey = some (ownedKey request.session uuid)

theorem Request.scenario_serves
    (requests : request.scenario runtime config = some (.ok plan)) :
    plan.Serves request := by
  cases request with
  | enqueueBurst session size =>
      simp only [Request.scenario, Option.some.injEq,
        Playground.enqueueBurst] at requests
      split at requests
      · cases requests
      · rename_i accepted
        rcases validateCount_ok accepted with ⟨equal, within⟩
        cases requests
        refine ⟨rfl, ?_, fun _ _ _ _ built => insertion_key built⟩
        simp only [Request.requested, equal]
        split_ifs <;> omega
  | enqueueFlaky session count mode succeedAfterMS =>
      simp only [Request.scenario, Option.some.injEq,
        Playground.enqueueFlaky] at requests
      split at requests
      · cases requests
      · rename_i accepted
        rcases validateCount_ok accepted with ⟨equal, within⟩
        split_ifs at requests
        all_goals
          cases requests
          refine ⟨rfl, ?_, ?_⟩
          · simp only [Request.requested, equal]
            split_ifs <;> omega
          · intro index now uuid params built
            simp only [flakyInsertion] at built
            split_ifs at built <;> exact insertion_key built
  | enqueueSlow session count =>
      simp only [Request.scenario, Option.some.injEq,
        Playground.enqueueSlow] at requests
      split at requests
      · cases requests
      · rename_i accepted
        rcases validateCount_ok accepted with ⟨equal, within⟩
        cases requests
        refine ⟨rfl, ?_, fun _ _ _ _ built => insertion_key built⟩
        simp only [Request.requested, equal]
        split_ifs <;> omega
  | _ => cases requests

end Plans

/-! ## Runs -/

/-- The request whose call the step is. -/
def Step.caller : Step → Option Nat
  | .call index _ _ _ => some index
  | _ => none

/-- The rows that a call of the request brings into the table. -/
def Step.brings (index : Nat) (step : Step) (before after : Database) :
    List TaskRecord :=
  if step.caller = some index then arrivals before after else []

theorem Step.brings_other {step : Step} (other : step.caller ≠ some index)
    (before after : Database) :
    step.brings index before after = [] :=
  if_neg other

section Runs

variable (platform : Platform) (runtime : Runtime) (config : Config)

/-- The rows that the calls of a request bring into the table in a run. -/
def State.inserted (index : Nat) (state : State) :
    List Step → List TaskRecord
  | [] => []
  | step :: rest =>
      match state.step platform runtime config step with
      | none => []
      | some next =>
          step.brings index state.db next.db ++ next.inserted index rest

/-- Every step of the run is allowed in the state before it. -/
def State.Allows (Allowed : State → Step → Prop) (state : State) :
    List Step → Prop
  | [] => True
  | step :: rest =>
      Allowed state step ∧
        ∀ next, state.step platform runtime config step = some next →
          next.Allows Allowed rest

variable
    (made : Except ServiceError Plan)
    (Holds : Plan → List TaskId → List TaskRecord → Prop)
    (Ends : Outcome → List TaskRecord → Prop)

/--
A request for a scenario is at this stage and has inserted the rows.  In its
loop the ids and the rows are related by `Holds`, at its end by `Ends`.
-/
def Stage.Tracks (rows : List TaskRecord) : Stage → Prop
  | .arrived request =>
      request.scenario runtime config = some made ∧ rows = []
  | .ready work =>
      ∃ plan, work = .inserts plan ∧ made = .ok plan ∧ rows = []
  | .holding work =>
      ∃ plan, work = .inserts plan ∧ made = .ok plan ∧ rows = []
  | .admitted work taskIDs =>
      ∃ plan,
        work = .inserts plan ∧ made = .ok plan ∧
          (plan.count : Int) ≤ config.maxPending ∧
          Holds plan taskIDs rows
  | .returned outcome => Ends outcome rows

/-- The rule for the loop of the scenario of a request. -/
structure LoopRule (index : Nat) (Allowed : State → Step → Prop) :
    Prop where
  refused : ∀ error, Ends (.refused error) []
  starts : ∀ plan, made = .ok plan → Holds plan [] []
  continues :
    ∀ plan taskIDs rows state now uuid answers,
      made = .ok plan → (plan.count : Int) ≤ config.maxPending →
      Holds plan taskIDs rows →
      Allowed state (.call index now uuid answers) →
        (plan.next platform taskIDs now uuid answers
            state.db).1.Tracks runtime config made Holds Ends
          (rows ++
            arrivals state.db
              (plan.next platform taskIDs now uuid answers state.db).2)

variable {platform runtime config made Holds Ends}

section

variable {Allowed : State → Step → Prop}
  (rule : LoopRule platform runtime config made Holds Ends index Allowed)

include rule

theorem tracks_planned :
    (planned made).Tracks runtime config made Holds Ends [] := by
  cases made with
  | error error => exact rule.refused error
  | ok plan => exact ⟨plan, rfl, rfl, rfl⟩

theorem tracks_check
    (equal : made = .ok plan) {fault : Option Fault} {db : Database}
    (passed : (Work.inserts plan).check config fault db = .ok ()) :
    (Stage.admitted (.inserts plan) []).Tracks runtime config made Holds
      Ends [] := by
  refine ⟨plan, rfl, equal, ?_, rule.starts plan equal⟩
  change ensureCapacity config plan.count fault db = .ok () at passed
  unfold ensureCapacity at passed
  split at passed
  · cases passed
  · split_ifs at passed with full
    have depth : 0 ≤ queueDepth db := by
      rw [queueDepth_eq]
      exact Int.natCast_nonneg _
    omega

/-- One step of the system keeps track of a request. -/
theorem Stage.Tracks.step
    {next : State} {step : Step} {stage : Stage} {rows : List TaskRecord}
    (found : state.requests[index]? = some stage)
    (tracks : stage.Tracks runtime config made Holds Ends rows)
    (allowed : Allowed state step)
    (stepped : state.step platform runtime config step = some next) :
    ∃ later,
      next.requests[index]? = some later ∧
        later.Tracks runtime config made Holds Ends
          (rows ++ step.brings index state.db next.db) := by
  cases step with
  | arrive request =>
      cases stepped
      have valid := (List.getElem?_eq_some_iff.mp found).1
      refine ⟨stage, ?_, ?_⟩
      · rw [List.getElem?_append_left valid]
        exact found
      · simp only [Step.brings, Step.caller, reduceCtorEq, if_false,
          List.append_nil]
        exact tracks
  | prepare position now uuid fault =>
      simp only [Step.brings, Step.caller, reduceCtorEq, if_false,
        List.append_nil]
      simp only [State.step] at stepped
      split at stepped
      · rename_i request located
        cases stepped
        by_cases same : position = index
        · subst position
          rw [located] at found
          cases found
          rcases tracks with ⟨requests, none⟩
          subst rows
          refine ⟨_, state.proceed_same located _, ?_⟩
          rw [request.prepare_scenario requests]
          exact tracks_planned rule
        · refine ⟨stage, ?_, tracks⟩
          rw [state.proceed_other same]
          exact found
      · cases stepped
  | lock position =>
      simp only [Step.brings, Step.caller, reduceCtorEq, if_false,
        List.append_nil]
      simp only [State.step] at stepped
      split at stepped
      · rename_i work located free
        split_ifs at stepped
        cases stepped
        by_cases same : position = index
        · subst position
          have valid := (List.getElem?_eq_some_iff.mp located).1
          rw [located] at found
          cases found
          exact ⟨.holding work, List.getElem?_set_self valid, tracks⟩
        · refine ⟨stage, ?_, tracks⟩
          rw [List.getElem?_set_ne same]
          exact found
      · cases stepped
  | check position fault =>
      simp only [Step.brings, Step.caller, reduceCtorEq, if_false,
        List.append_nil]
      simp only [State.step] at stepped
      split at stepped
      · rename_i work located
        by_cases same : position = index
        · subst position
          rw [located] at found
          cases found
          rcases tracks with ⟨plan, inserts, equal, none⟩
          subst work
          subst rows
          split at stepped
          · cases stepped
            exact ⟨_, state.proceed_same located _, rule.refused _⟩
          · rename_i passed
            cases stepped
            exact ⟨_, state.proceed_same located _,
              tracks_check rule equal passed⟩
        · have kept :
              ∀ moved,
                (state.proceed position moved).requests[index]? =
                  some stage := by
            intro moved
            rw [state.proceed_other same]
            exact found
          split at stepped
          · cases stepped
            exact ⟨stage, kept _, tracks⟩
          · cases stepped
            exact ⟨stage, kept _, tracks⟩
      · cases stepped
  | call position now uuid answers =>
      simp only [State.step] at stepped
      by_cases same : position = index
      · subst position
        simp only [Step.brings, Step.caller, if_true]
        split at stepped
        · rename_i work taskIDs located
          cases stepped
          rw [located] at found
          cases found
          rcases tracks with ⟨plan, inserts, equal, room, holds⟩
          subst work
          exact ⟨_, state.proceed_same located _,
            rule.continues plan taskIDs rows state now uuid answers equal
              room holds allowed⟩
        · rename_i id located
          rw [located] at found
          cases found
          rcases tracks with ⟨plan, inserts, _⟩
          cases inserts
        · cases stepped
      · have other :
            (Step.call position now uuid answers).caller ≠ some index :=
          fun equal => same (Option.some.inj equal)
        rw [Step.brings_other other, List.append_nil]
        refine ⟨stage, ?_, tracks⟩
        split at stepped
        · cases stepped
          rw [state.proceed_other same]
          exact found
        · cases stepped
          rw [state.proceed_other same]
          exact found
        · cases stepped
  | background call answers =>
      simp only [Step.brings, Step.caller, reduceCtorEq, if_false,
        List.append_nil]
      simp only [State.step] at stepped
      split_ifs at stepped
      cases stepped
      exact ⟨stage, found, tracks⟩
  | retain cutoff deleted =>
      simp only [Step.brings, Step.caller, reduceCtorEq, if_false,
        List.append_nil]
      simp only [State.step] at stepped
      split_ifs at stepped
      cases stepped
      exact ⟨stage, found, tracks⟩

/-- A run keeps track of a request. -/
theorem Stage.Tracks.follow
    {final : State} {stage : Stage} {rows : List TaskRecord}
    (found : state.requests[index]? = some stage)
    (tracks : stage.Tracks runtime config made Holds Ends rows)
    (allowed : state.Allows platform runtime config Allowed run)
    (followed : state.follow platform runtime config run = some final) :
    ∃ last,
      final.requests[index]? = some last ∧
        last.Tracks runtime config made Holds Ends
          (rows ++ state.inserted platform runtime config index run) := by
  induction run generalizing state stage rows with
  | nil =>
      cases followed
      refine ⟨stage, found, ?_⟩
      rw [State.inserted, List.append_nil]
      exact tracks
  | cons step rest induction =>
      rw [State.follow, Option.bind_eq_some_iff] at followed
      rcases followed with ⟨next, stepped, followed⟩
      rcases tracks.step rule found allowed.1 stepped with
        ⟨later, located, tracked⟩
      simp only [State.inserted, stepped]
      rw [← List.append_assoc]
      exact induction located tracked (allowed.2 next stepped) followed

end

end Runs

/-! ## The loop of a scenario -/

section Loops

variable
    {platform : Platform} {runtime : Runtime} {config : Config}
    {made : Except ServiceError Plan}

/-- What the next call of a scenario does. -/
theorem Plan.next_cases
    (platform : Platform) (named : plan.scenario.isSome = true)
    (taskIDs : List TaskId) (now : Time) (uuid : GoString) (answers : Answers)
    (db : Database) :
    (plan.count ≤ taskIDs.length ∧
        plan.next platform taskIDs now uuid answers db =
          (.returned
            (.scenario (plan.scenario.getD []) taskIDs.length taskIDs
              none), db)) ∨
      (∃ error,
        plan.next platform taskIDs now uuid answers db =
          (.returned (plan.failed taskIDs error), db)) ∨
      ∃ params,
        taskIDs.length < plan.count ∧
          plan.insertion taskIDs.length now uuid = .ok params ∧
          ((∃ error,
            plan.next platform taskIDs now uuid answers db =
              (.returned (plan.failed taskIDs error),
                (insert platform now params answers db).2)) ∨
            ∃ result,
              (insert platform now params answers db).1 = .ok result ∧
                plan.next platform taskIDs now uuid answers db =
                  (.admitted (.inserts plan)
                      (taskIDs ++ [result.task.id]),
                    (insert platform now params answers db).2)) := by
  rcases Option.isSome_iff_exists.mp named with ⟨name, scenario⟩
  unfold Plan.next
  split_ifs with more
  · cases built : plan.insertion taskIDs.length now uuid with
    | error error => exact Or.inr (Or.inl ⟨error, rfl⟩)
    | ok params =>
        refine Or.inr (Or.inr ⟨params, more, rfl, ?_⟩)
        cases returned : (insert platform now params answers db).1 with
        | error error =>
            exact Or.inl ⟨.client error, by simp only [returned]⟩
        | ok result =>
            exact Or.inr ⟨result, rfl, by simp only [returned, scenario]⟩
  · exact Or.inl ⟨by omega, rfl⟩

theorem Plan.failed_ne_success
    {taskIDs : List TaskId} {error : ServiceError} {name : GoString}
    {count : Nat} {ids : List TaskId} :
    plan.failed taskIDs error ≠ .scenario name count ids none := by
  unfold Plan.failed
  split <;> simp

/-- The rows belong to the session. -/
def Owned (session : GoString) (rows : List TaskRecord) : Prop :=
  ∀ row ∈ rows,
    keyBelongsToSession (row.idempotencyKey.map Text.bytes) session = true

/-- No key in the table has the nonce that a call of the request gets. -/
def Step.freshNonce (session : GoString) (index : Nat) (state : State) :
    Step → Bool
  | .call position _ uuid _ =>
      position ≠ index ∨
        state.db.tasks.rows.all fun row =>
          row.idempotencyKey.map Text.bytes ≠ some (ownedKey session uuid)
  | _ => true

/-- The calls of the request get fresh nonces in the whole run. -/
def State.freshNonces (platform : Platform) (runtime : Runtime)
    (config : Config) (session : GoString) (index : Nat)
    (state : State) : List Step → Bool
  | [] => true
  | step :: rest =>
      step.freshNonce session index state &&
        match state.step platform runtime config step with
        | none => true
        | some next =>
            next.freshNonces platform runtime config session index rest

/-- The calls of a run get answers that a driver can give. -/
def SteadyRun (run : List Step) : Prop :=
  ∀ index now uuid answers,
    Step.call index now uuid answers ∈ run → Steady answers

/-- A call of the request gets a fresh nonce and possible answers. -/
def FreshCalls (session : GoString) (index : Nat) (state : State)
    (step : Step) : Prop :=
  step.freshNonce session index state = true ∧ SteadyRun [step]

theorem State.allows_freshCalls
    {session : GoString}
    (fresh :
      state.freshNonces platform runtime config session index run = true)
    (steady : SteadyRun run) :
    state.Allows platform runtime config (FreshCalls session index)
      run := by
  induction run generalizing state with
  | nil => exact True.intro
  | cons step rest induction =>
      rw [State.freshNonces, Bool.and_eq_true] at fresh
      refine ⟨⟨fresh.1, ?_⟩, ?_⟩
      · intro position now uuid answers member
        rw [List.mem_singleton] at member
        exact steady position now uuid answers (member ▸ List.mem_cons_self)
      · intro next stepped
        have later := fresh.2
        rw [stepped] at later
        exact induction later fun position now uuid answers member =>
          steady position now uuid answers (List.mem_cons_of_mem step member)

theorem keyBelongsToSession_ownedKey {session : GoString}
    (named : session ≠ []) (uuid : GoString) :
    keyBelongsToSession (some (ownedKey session uuid)) session =
      true := by
  simp only [keyBelongsToSession, decide_eq_true_eq]
  exact ⟨named, List.prefix_append _ _⟩

/-- The rows a request has inserted are those it names. -/
theorem loopRule_named
    {session : GoString} (held : session ≠ [])
    (own : request.session = session)
    (serves : ∀ plan, made = .ok plan → plan.Serves request) (index : Nat) :
    LoopRule platform runtime config made
      (fun plan taskIDs rows =>
        taskIDs.length ≤ plan.count ∧
          rows.map TaskRecord.id = taskIDs ∧ Owned session rows)
      (fun outcome rows =>
        ∀ name count taskIDs,
          outcome = .scenario name count taskIDs none →
            ∃ plan,
              made = .ok plan ∧ count = taskIDs.length ∧
                count = plan.count ∧
                rows.map TaskRecord.id = taskIDs ∧ Owned session rows)
      index (FreshCalls session index) where
  refused := by
    intro error name count taskIDs success
    cases success
  starts := by
    intro plan _
    exact ⟨Nat.zero_le _, rfl, fun row none => nomatch none⟩
  continues := by
    rintro plan taskIDs rows state now uuid answers equal room
      ⟨counted, named, owned⟩ allowed
    have steady : Steady answers :=
      allowed.2 index now uuid answers List.mem_cons_self
    have fresh :
        ∀ row ∈ state.db.tasks.rows,
          row.idempotencyKey.map Text.bytes ≠
            some (ownedKey session uuid) := by
      simpa [Step.freshNonce] using allowed.1
    have serving := serves plan equal
    rcases plan.next_cases platform serving.named taskIDs now uuid
        answers state.db with
      ⟨full, ends⟩ | ⟨error, ends⟩ | ⟨params, more, built, called⟩
    · rw [ends, arrivals_self, List.append_nil]
      intro name count ids success
      cases success
      exact ⟨plan, equal, rfl, by omega, named, owned⟩
    · rw [ends]
      intro name count ids success
      exact (Plan.failed_ne_success success).elim
    · rcases called with ⟨error, ends⟩ | ⟨result, returned, goes⟩
      · rw [ends]
        intro name count ids success
        exact (Plan.failed_ne_success success).elim
      · have keyed := serving.owned _ _ _ _ built
        rw [own] at keyed
        rcases insert_ok steady returned with
          ⟨row, arrived, sameId, sameKey⟩ | ⟨row, stored, sameKey⟩
        · rw [goes]
          dsimp only
          refine ⟨plan, rfl, equal, room, ?_, ?_, ?_⟩
          · rw [List.length_append, List.length_singleton]
            omega
          · rw [arrived, List.map_append, named, List.map_singleton,
              sameId]
          · intro other member
            rw [arrived, List.mem_append, List.mem_singleton] at member
            rcases member with earlier | last
            · exact owned other earlier
            · rw [last, sameKey, keyed]
              exact keyBelongsToSession_ownedKey held uuid
        · rw [keyed] at sameKey
          exact (fresh row stored sameKey).elim

end Loops

/-! ## What a scenario delivers -/

/-- What a scenario that has returned without an error has done. -/
structure Delivers (request : Request) (rows : List TaskRecord)
    (count : Nat) (taskIDs : List TaskId) : Prop where
  counted : count = taskIDs.length
  inserted : rows.map TaskRecord.id = taskIDs
  owned : Owned request.session rows
  sized : (count : Int) = request.requested

/-- A scenario that returns without an error has done what it reports. -/
theorem scenario_delivers
    {platform : Platform} {runtime : Runtime} {config : Config}
    {made : Except ServiceError Plan}
    (requests : request.scenario runtime config = some made)
    (named : request.session ≠ []) {final : State}
    (arrived : state.requests[index]? = some (.arrived request))
    (followed : state.follow platform runtime config run = some final)
    (fresh :
      state.freshNonces platform runtime config request.session index
        run = true)
    (steady : SteadyRun run) {name : GoString} {count : Nat}
    {taskIDs : List TaskId}
    (returned :
      final.requests[index]? =
        some (.returned (.scenario name count taskIDs none))) :
    Delivers request
      (state.inserted platform runtime config index run) count
      taskIDs := by
  have serves : ∀ plan, made = .ok plan → plan.Serves request := by
    intro plan equal
    rw [equal] at requests
    exact Request.scenario_serves requests
  rcases Stage.Tracks.follow (loopRule_named named rfl serves index)
      arrived
      (show Stage.Tracks runtime config made _ _ [] (.arrived request)
        from ⟨requests, rfl⟩)
      (State.allows_freshCalls fresh steady) followed with
    ⟨last, located, tracks⟩
  rw [returned] at located
  cases located
  rcases tracks name count taskIDs rfl with
    ⟨plan, equal, counted, sized, inserted, owned⟩
  refine ⟨counted, inserted, owned, ?_⟩
  rw [sized]
  exact (serves plan equal).sized

end Dhara.Playground
