import Dhara.Store.Runs
import Dhara.Transaction.Watch
import Dhara.Types

/-!
# Idempotent enqueueing

`Create` inserts the task and, if that conflicts, compares it with the task
that holds the key, in a statement of its own.  Under every schedule the calls
with one type and one key agree on a single creator: the only one of them that
commits a row.  Its row keeps its payload and its hash whatever status it
reaches, so every later call gets a verdict about the same payload.
-/

namespace Dhara.Store

open Dhara.Transaction

variable {row : TaskRecord} {task : TaskRow} {db : Database} {index : Nat}

/-! ## Where rows come from -/

section Origins

variable {platform : Platform} {call : Call}

theorem Call.Performs.tasks_nil
    {move : Move} (performs : call.Performs move) :
    call.tasks = [] := by
  cases call with
  | create task => exact performs.elim
  | callerTx tasks decide => exact performs.elim
  | _ => rfl

/-- A call that enqueues nothing keeps the rows and their fixed columns. -/
theorem ViewStep.before
    {before after : TaskView} {wrote : Option TaskRecord}
    (step : ViewStep platform call before wrote after)
    (silent : call.tasks = []) (stored : after.row = some row) :
    ∃ old, before.row = some old ∧ row.fixed = old.fixed := by
  cases step with
  | stay => exact ⟨row, stored, rfl⟩
  | enqueue fresh logs letters enqueues =>
      rcases enqueues with ⟨task, member, _⟩
      rw [silent] at member
      cases member
  | beat workerID old now =>
      cases stored
      exact ⟨old, rfl, Change.set_fixed _ now old⟩
  | move move =>
      cases stored
      exact ⟨move.row, rfl, move.after_fixed⟩

/-- Every row after a commit was inserted by it or stored before. -/
theorem Lawful.origin
    {writes : List Write} (lawful : Lawful platform db call writes)
    (stored :
      ((postgres platform).applyAll writes db).find row.id = some row) :
    (.insertTask row ∈ writes ∧ call.Enqueues platform row) ∨
      ∃ old, db.find row.id = some old ∧ row.fixed = old.fixed := by
  have step := lawful.viewStep row.id
  cases lawful with
  | enqueue call rows enqueues free apart =>
      have member := (Database.find_eq_some_iff.mp stored).1
      rw [rows_insertions free apart, List.mem_append] at member
      rcases member with old | fresh
      · exact Or.inr ⟨row, Database.find_of_mem old, rfl⟩
      · exact Or.inl ⟨List.mem_map_of_mem fresh, enqueues row fresh⟩
  | beat taskID workerID => exact Or.inr (step.before rfl stored)
  | move call move legal performs =>
      exact Or.inr (step.before performs.tasks_nil stored)
  | reap threshold reaperID => exact Or.inr (step.before rfl stored)

theorem insertTask_not_mem_writesOf
    {moves : List Move} :
    .insertTask row ∉ writesOf moves := by
  intro member
  simp only [writesOf, List.mem_append, List.mem_map,
    List.mem_flatMap] at member
  rcases member with (⟨_, _, equal⟩ | ⟨move, _, letter⟩) | ⟨_, _, equal⟩
  · cases equal
  · unfold Move.letterWrites Change.letterWrites at letter
    split at letter <;> simp at letter
  · cases equal

/-- What a commit inserts is new, and stored afterwards. -/
theorem Lawful.inserted
    {writes : List Write} (lawful : Lawful platform db call writes)
    (member : .insertTask row ∈ writes) :
    db.Free row ∧ ((postgres platform).applyAll writes db).Keeps row := by
  cases lawful with
  | enqueue call rows enqueues free apart =>
      rcases List.mem_map.mp member with ⟨same, fresh, equal⟩
      cases equal
      refine ⟨free row fresh, Database.Keeps.of_mem ?_⟩
      rw [rows_insertions free apart]
      exact List.mem_append_right _ fresh
  | beat taskID workerID => simp at member
  | move call move legal performs =>
      exact (insertTask_not_mem_writesOf member).elim
  | reap threshold reaperID moves =>
      exact (insertTask_not_mem_writesOf member).elim

/--
Every stored row stems from an insertion in the history, every inserted row is
still stored, and insertions of different sessions do not clash.
-/
structure Origins (platform : Platform)
    (history : List StoreCommit) (db : Database) : Prop where
  stems :
    ∀ row, db.find row.id = some row →
      ∃ commit ∈ history, ∃ origin,
        .insertTask origin ∈ commit.writes ∧
          commit.call.Enqueues platform origin ∧
          row.fixed = origin.fixed
  kept :
    ∀ commit ∈ history, ∀ row, .insertTask row ∈ commit.writes → db.Keeps row
  apart :
    ∀ first ∈ history, ∀ second ∈ history,
      first.session ≠ second.session →
        ∀ row other,
          .insertTask row ∈ first.writes →
          .insertTask other ∈ second.writes →
            ¬ row.identity.Clashes other.identity

/-- A kept row clashes with no row that is free to be inserted. -/
theorem keeps_apart
    {fresh : TaskRecord} (keeps : db.Keeps row) (free : db.Free fresh) :
    ¬ row.identity.Clashes fresh.identity := by
  rcases keeps with ⟨current, found, same⟩
  rw [← TaskRecord.identity_of_fixed same]
  exact free current (Database.find_eq_some_iff.mp found).1

theorem Origins.step
    {history : List StoreCommit} {commit : StoreCommit}
    (origins : Origins platform history db)
    (lawful : Lawful platform db commit.call commit.writes) :
    Origins platform (history ++ [commit])
      ((postgres platform).applyAll commit.writes db) := by
  refine ⟨?_, ?_, ?_⟩
  · intro row stored
    rcases lawful.origin stored with
      ⟨member, enqueues⟩ | ⟨old, found, same⟩
    · exact ⟨commit, by simp, row, member, enqueues, rfl⟩
    · rw [← Database.find_id found] at found
      rcases origins.stems old found with
        ⟨earlier, occurs, origin, member, enqueues, kept⟩
      exact ⟨earlier, List.mem_append_left _ occurs, origin, member,
        enqueues, same.trans kept⟩
  · intro earlier occurs row member
    rw [List.mem_append, List.mem_singleton] at occurs
    rcases occurs with old | equal
    · exact lawful.keeps (origins.kept earlier old row member)
    · subst earlier
      exact (lawful.inserted member).2
  · intro first firstOccurs second secondOccurs different row other
      inFirst inSecond
    rw [List.mem_append, List.mem_singleton] at firstOccurs secondOccurs
    rcases firstOccurs with firstOld | firstNew
    · rcases secondOccurs with secondOld | secondNew
      · exact origins.apart first firstOld second secondOld different
          row other inFirst inSecond
      · subst second
        exact keeps_apart (origins.kept first firstOld row inFirst)
          (lawful.inserted inSecond).1
    · subst first
      rcases secondOccurs with secondOld | secondNew
      · intro clash
        exact keeps_apart (origins.kept second secondOld other inSecond)
          (lawful.inserted inFirst).1 (Identity.Clashes.symm _ _ clash)
      · subst second
        exact (different rfl).elim

theorem interleave_origins
    {schedule : List StoreLabel} {config : StoreConfig}
    (followed : interleave platform .empty schedule = some config) :
    Origins platform config.history config.db := by
  apply interleave_history (fun _ _ _ origins lawful =>
    origins.step lawful) followed
  refine ⟨?_, by simp, by simp⟩
  intro row stored
  cases stored

end Origins

/-! ## The program of the call -/

section Create

variable {platform : Platform}

/-- What holds wherever a call of `Create` is. -/
def CreateNode (stage : Stage) (program : StoreProgram Response) :
    Prop :=
  stage = .published →
    ∃ returned, program = .done (.created returned (.ok true))

theorem CreateNode.unpublished
    {stage : Stage} (before : stage ≠ .published)
    (program : StoreProgram Response) : CreateNode stage program :=
  fun published => (before published).elim

/-- The rest of `Create` after an `insertTask` that inserted nothing. -/
theorem create_along_clean
    (task : TaskRow) (result : Except StoreError Bool) :
    Program.Along (postgres platform) (fun _ _ => True) CreateNode
      .clean
      (match result with
      | .error error => .done (.created task (.error error))
      | .ok created =>
          commitTx (fun error => .created task (.error error))
            "commit tx" (.done (.created task (.ok created)))) := by
  have node := CreateNode.unpublished (show Stage.clean ≠ _ by decide)
  cases result with
  | error error => exact node _
  | ok created => exact ⟨node _, fun _ => node _, node _⟩

theorem create_along (task : TaskRow) :
    Program.Along (postgres platform) (fun _ _ => True) CreateNode
      .clean (Call.program platform (.create task)) := by
  have node := CreateNode.unpublished (show Stage.clean ≠ _ by decide)
  have dirty := CreateNode.unpublished (show Stage.dirty ≠ _ by decide)
  refine ⟨node _, fun _ => node _, ?_⟩
  simp only [createTx, insertTask]
  cases hashPayload platform task.payload with
  | none => exact node _
  | some payloadHash =>
      refine ⟨node _, fun fault => ⟨node _, ?_⟩, ?_⟩
      · exact create_along_clean task (.ok true)
      · intro clock others oracle db effect evaluated
        rcases evalInsert_cases evaluated with
          ⟨encoded, _, ⟨_, equal⟩ | ⟨_, _, equal⟩⟩
        · subst effect
          simp only [replayTask]
          cases task.idempotencyKey with
          | none => exact node _
          | some key =>
              refine ⟨node _, fun fault => node _, ?_⟩
              intro clock others oracle db effect evaluated
              change eval platform clock others oracle
                (.getByTypeAndIdempotencyKey task.type key) db =
                  .ok effect at evaluated
              simp only [eval, bind_eq_ok_iff, map_eq_ok_iff]
                at evaluated
              rcases evaluated with ⟨type, _, text, _, equal⟩
              subst effect
              cases db.findKey type text with
              | none => exact node _
              | some row =>
                  simp only
                  split_ifs
                  · exact create_along_clean (scanHashed row) (.ok false)
                  · exact create_along_clean task (.error .taskConflict)
        · subst effect
          refine ⟨dirty _, dirty _, fun _ => dirty _, ?_⟩
          exact fun _ => ⟨_, rfl⟩

/-- A call that has committed a row has returned it as created. -/
theorem create_committed
    {schedule : List StoreLabel} {config : StoreConfig}
    (followed : interleave platform db schedule = some config)
    {session : StoreSession} (found : config.sessions[index]? = some session)
    (called : session.call = .create task)
    (committed : session.commits ≠ []) :
    ∃ returned,
      session.program = some (.done (.created returned (.ok true))) := by
  have along :
      ∀ session, config.sessions[index]? = some session →
        session.call = .create task →
          Session.Along (postgres platform) (fun _ _ => True)
            CreateNode session := by
    apply Engine.follow_trace _ _ (List.append_nil schedule).symm followed
    · intro config label next moment held
      exact Engine.Moment.along (create_along task)
        (fun _ _ _ _ _ _ _ _ _ _ _ _ _ => True.intro) moment held
    · intro session impossible
      cases impossible
  have reached := along session found called
  cases current : session.program with
  | none =>
      rcases reached.crashed current committed with
        ⟨program, node, running⟩
      rcases node rfl with ⟨returned, equal⟩
      exact (running _ equal).elim
  | some program =>
      rcases reached.alive program current with ⟨stage, fits, node⟩
      rw [fits.published committed] at node
      rcases node.here rfl with ⟨returned, equal⟩
      exact ⟨returned, by rw [equal]⟩

/--
What `Create` can return, whatever faults it meets: a task with the requested
key, or a verdict about a stored row with the requested type and key.
-/
def CreateResult (platform : Platform) (Occurs : Database → Prop)
    (task : TaskRow) : Response → Prop
  | .created returned (.ok true) =>
      returned.idempotencyKey = task.idempotencyKey
  | .created returned (.ok false) =>
      ∃ db row,
        Occurs db ∧ row ∈ db.tasks.rows ∧ task.Requests row ∧
          returned = scanHashed row
  | .created _ (.error .taskConflict) =>
      ∃ db row,
        Occurs db ∧ row ∈ db.tasks.rows ∧ task.Requests row ∧
          hashPayload platform task.payload ≠ some row.payloadHash
  | _ => True

/-- What is asked of a call of `Create`. -/
def createWatch (platform : Platform) (Occurs : Database → Prop)
    (task : TaskRow) : Watch Database Write Resource Time Response where
  occurs := Occurs
  transaction := fun _ => True
  statement := fun _ => True
  result := CreateResult platform Occurs task

theorem createWatch_sound (Occurs : Database → Prop) (task : TaskRow) :
    (createWatch platform Occurs task).Sound where
  fresh := fun _ => True.intro
  tainted := fun _ _ _ => True.intro

theorem replayTask_obeys
    {Occurs : Database → Prop} {payloadHash : GoString}
    {next : TaskRow → Except StoreError Bool → StoreProgram Response}
    {opened : Tx Write Resource Time} (unwritten : opened.writes = [])
    (refused :
      ∀ error, error ≠ .taskConflict →
        ∀ tx, (next task (.error error)).Obeys (postgres platform)
          (createWatch platform Occurs task) tx)
    (replayed :
      ∀ db row, Occurs db → row ∈ db.tasks.rows → task.Requests row →
        row.payloadHash = payloadHash →
          ∀ tx, (next (scanHashed row) (.ok false)).Obeys
            (postgres platform) (createWatch platform Occurs task) tx)
    (conflicting :
      ∀ db row, Occurs db → row ∈ db.tasks.rows → task.Requests row →
        row.payloadHash ≠ payloadHash →
          ∀ tx, (next task (.error .taskConflict)).Obeys
            (postgres platform) (createWatch platform Occurs task) tx) :
    (replayTask task payloadHash next).Obeys (postgres platform)
      (createWatch platform Occurs task) (some opened) := by
  cases present : task.idempotencyKey with
  | none =>
      simp only [replayTask, present]
      exact refused .nilDereference (by simp) _
  | some key =>
      simp only [replayTask, present, getByTypeAndIdempotencyKey]
      refine ⟨fun fault after _ =>
        refused (.database fault) (by simp) after, ?_⟩
      intro current others oracle db effect located _ occurs evaluated
      cases located
      change eval platform opened.startedAt others oracle
        (.getByTypeAndIdempotencyKey task.type key)
        ((postgres platform).applyAll opened.writes db) = .ok effect
        at evaluated
      simp only [unwritten, Engine.applyAll_nil, eval, bind_eq_ok_iff,
        map_eq_ok_iff] at evaluated
      rcases evaluated with ⟨type, typed, text, keyTyped, equal⟩
      subst effect
      refine ⟨True.intro, ?_⟩
      cases found : db.findKey type text with
      | none => exact refused .noRows (by simp) _
      | some row =>
          have stored := (Database.findKey_eq_some_iff.mp found).1
          have requests := requests_of_findKey present typed keyTyped found
          dsimp only
          split_ifs with same
          · exact replayed db row occurs stored requests same _
          · exact conflicting db row occurs stored requests same _

theorem create_obeys (Occurs : Database → Prop) (task : TaskRow) :
    (Call.program platform (.create task)).Obeys (postgres platform)
      (createWatch platform Occurs task) none := by
  refine ⟨fun _ _ _ => True.intro, ?_⟩
  intro now
  simp only [createTx, insertTask]
  cases hashed : hashPayload platform task.payload with
  | none => exact True.intro
  | some payloadHash =>
      refine ⟨fun _ _ _ => ⟨fun _ _ _ => True.intro, rfl⟩, ?_⟩
      intro opened others oracle db effect located _ occurs evaluated
      cases located
      refine ⟨True.intro, ?_⟩
      rcases evalInsert_cases evaluated with
        ⟨encoded, _, ⟨_, equal⟩ | ⟨_, _, equal⟩⟩
      · subst effect
        apply replayTask_obeys rfl
        · intro error other tx
          cases error with
          | taskConflict => exact (other rfl).elim
          | _ => exact True.intro
        · intro db row occurs stored requests _ tx
          exact ⟨fun _ _ _ => True.intro, db, row, occurs, stored,
            requests, rfl⟩
        · intro db row occurs stored requests different tx
          refine ⟨db, row, occurs, stored, requests, ?_⟩
          rw [hashed]
          exact fun equal => different (Option.some.inj equal).symm
      · subst effect
        exact ⟨fun _ _ _ => True.intro, rfl⟩

/-- The columns of a row that `Create` inserts. -/
theorem create_columns
    (fits : task.Fits) (enqueues : (Call.create task).Enqueues platform row) :
    task.Requests row ∧
      platform.jsonb task.payload = some row.payload ∧
      hashPayload platform task.payload = some row.payloadHash := by
  rcases enqueues with
    ⟨same, member, payloadHash, encoded, now, hashed, bound, equal⟩
  rw [Call.tasks, List.mem_singleton] at member
  subst same
  rcases InsertArgs.encode_columns bound with
    ⟨_, _, hashColumn, stored⟩
  rw [equal]
  refine ⟨requests_record fits bound row.id now, stored, ?_⟩
  rw [hashed]
  exact congrArg some hashColumn.symm

end Create

/-! ## Verdicts -/

/-- A call of `Create` has returned. -/
def Returned (config : StoreConfig) (index : Nat)
    (task returned : TaskRow) (result : Except StoreError Bool) : Prop :=
  ∃ session,
    config.sessions[index]? = some session ∧
      session.call = .create task ∧
      session.program = some (.done (.created returned result))

/-- The same type and the same key. -/
def TaskRow.SameKey (first second : TaskRow) : Prop :=
  first.type = second.type ∧ first.idempotencyKey = second.idempotencyKey

/-- What `Validate` accepts is within the limits. -/
theorem validate_fits
    {params : NormalParams} {now : Time}
    (valid : params.validate now = .ok ()) : params.toStoreTask.Fits := by
  simp only [NormalParams.validate] at valid
  split_ifs at valid with _ long _ _ longKey
  constructor
  · exact Nat.le_of_not_lt long
  · intro key present
    change params.idempotencyKey = some key at present
    simpa [present] using longKey

/--
The session is a `Create` within the limits that `Validate` checks, with a
JSON payload and without database errors, or a method that enqueues nothing.
-/
def Regular (platform : Platform) (session : StoreSession) : Prop :=
  match session.call with
  | .create task =>
      task.Fits ∧
        (canonicalizeJSON platform task.payload).isSome = true ∧
        session.faulted = false
  | .callerTx _ _ => False
  | _ => True

/-- The call has created the row, which is stored with its payload. -/
structure Creates (platform : Platform) (config : StoreConfig)
    (index : Nat) (task : TaskRow) (row : TaskRecord) : Prop where
  returned :
    ∃ returned,
      Returned config index task returned (.ok true) ∧ returned.id = row.id
  stored : config.db.find row.id = some row
  requested : task.Requests row
  payload : platform.jsonb task.payload = some row.payload
  hashed : hashPayload platform task.payload = some row.payloadHash

/-- What `Create` guarantees in one state of an interleaved run. -/
structure Idempotent (platform : Platform) (config : StoreConfig) :
    Prop where
  /-- There is at most one row for a type and a key. -/
  unique :
    ∀ first ∈ config.db.tasks.rows, ∀ second ∈ config.db.tasks.rows,
      first.type = second.type → first.idempotencyKey ≠ none →
        first.idempotencyKey = second.idempotencyKey → first = second
  /-- All calls with one type and key refer to the row of one creator. -/
  keyed :
    ∀ index task returned result,
      Returned config index task returned result →
      task.idempotencyKey ≠ none →
        ∃ creator origin row,
          Creates platform config creator origin row ∧
            origin.SameKey task ∧
            (∀ other second answer,
              Returned config other second answer (.ok true) →
                second.SameKey task → other = creator) ∧
            (∀ commit ∈ config.history, ∀ second,
              commit.call = .create second → second.SameKey task →
                commit.session = creator) ∧
            if canonicalizeJSON platform task.payload =
                canonicalizeJSON platform origin.payload then
              result = .ok (decide (index = creator)) ∧ returned.id = row.id
            else
              result = .error .taskConflict
  /-- A call without a key creates a row of its own. -/
  unkeyed :
    ∀ index task returned result,
      Returned config index task returned result →
      task.idempotencyKey = none →
        result = .ok true ∧
          ∃ row, Creates platform config index task row ∧ returned.id = row.id
  /-- Different calls create different rows. -/
  fresh :
    ∀ first second task other returned answer,
      Returned config first task returned (.ok true) →
      Returned config second other answer (.ok true) →
      returned.id = answer.id → first = second
  /-- A call writes at most one row, and that has its own type. -/
  isolated :
    ∀ commit ∈ config.history, ∀ task, commit.call = .create task →
      ∃ row, commit.writes = [.insertTask row] ∧ row.type.bytes = task.type

section Verdicts

variable {platform : Platform} {schedule : List StoreLabel}
    {config : StoreConfig}

theorem Regular.create
    {session : StoreSession} (regular : Regular platform session)
    (called : session.call = .create task) :
    task.Fits ∧
      (canonicalizeJSON platform task.payload).isSome = true ∧
      session.faulted = false := by
  simpa only [Regular, called] using regular

theorem TaskRow.Requests.of_fixed
    {current : TaskRecord} (requests : task.Requests row)
    (same : current.fixed = row.fixed) :
    task.Requests current := by
  simp only [TaskRecord.fixed, Prod.mk.injEq] at same
  rcases same with ⟨_, sameKey, sameType, _⟩
  exact ⟨sameType ▸ requests.1, sameKey ▸ requests.2⟩

theorem TaskRow.Requests.sameKey
    {first second : TaskRow} (one : first.Requests row)
    (two : second.Requests row) :
    first.SameKey second :=
  ⟨one.1.symm.trans two.1, one.2.symm.trans two.2⟩

/-- Rows requested with the same key clash. -/
theorem TaskRow.Requests.clashes
    {first second : TaskRow} {other : TaskRecord} (one : first.Requests row)
    (two : second.Requests other) (same : first.SameKey second)
    (keyed : first.idempotencyKey ≠ none) :
    row.identity.Clashes other.identity := by
  have sameType : row.type = other.type := by
    apply Text.ext
    rw [one.1, two.1, same.1]
  have sameKey : row.idempotencyKey = other.idempotencyKey := by
    apply Option.map_injective fun _ _ equal => Text.ext equal
    rw [one.2, two.2, same.2]
  refine Or.inr ⟨sameType, ?_, sameKey⟩
  change row.idempotencyKey.isSome = true
  rw [← Option.isSome_map, one.2, Option.isSome_iff_ne_none]
  exact keyed

section Regular

variable (followed : interleave platform .empty schedule = some config)
  (regular : ∀ session ∈ config.sessions, Regular platform session)
  {returned : TaskRow}

include followed regular

/-- A commit of `Create` belongs to a call that has returned. -/
theorem commit_returned
    {commit : StoreCommit} (member : commit ∈ config.history)
    (called : commit.call = .create task) :
    ∃ row returned,
      commit.writes = [.insertTask row] ∧
        (Call.create task).Enqueues platform row ∧
        Returned config commit.session task returned (.ok true) ∧
        returned.id = row.id := by
  have ok := interleave_ok followed
  rcases ok.known commit member with ⟨session, found, sameCall⟩
  rw [called] at sameCall
  have recorded := ok.recorded commit.session session found
  have occurs : commit.writes ∈ session.commits := by
    rw [recorded]
    apply List.mem_map_of_mem
    simpa using member
  rcases create_committed followed found sameCall
      (List.ne_nil_of_mem occurs) with ⟨returned, finished⟩
  have promised := ok.ensures found finished
  have quiet := (regular session (List.mem_of_getElem? found)).create sameCall
  rw [sameCall] at promised
  rcases promised quiet.2.2 not_false with ⟨row, commits, enqueues, sameId, _⟩
  rw [commits, List.mem_singleton] at occurs
  exact ⟨row, returned, occurs, enqueues,
    ⟨session, found, sameCall, finished⟩, sameId⟩

/-- A call that returned a created task has committed it. -/
theorem Returned.committed
    (created : Returned config index task returned (.ok true)) :
    ∃ row,
      ⟨index, .create task, [.insertTask row]⟩ ∈ config.history ∧
        (Call.create task).Enqueues platform row ∧ task.Fits ∧
        returned.id = row.id ∧ config.db.Keeps row := by
  have ok := interleave_ok followed
  rcases created with ⟨session, found, called, finished⟩
  have promised := ok.ensures found finished
  have recorded := ok.history_of found
  have quiet := (regular session (List.mem_of_getElem? found)).create called
  rw [called] at promised recorded
  rcases promised quiet.2.2 not_false with
    ⟨row, commits, enqueues, sameId, keeps⟩
  refine ⟨row, ?_, enqueues, quiet.1, sameId, keeps⟩
  apply List.mem_of_mem_filter
  rw [recorded, commits]
  exact List.mem_singleton.mpr rfl

theorem Returned.creates
    (created : Returned config index task returned (.ok true)) :
    ∃ row, Creates platform config index task row ∧ returned.id = row.id := by
  rcases created.committed followed regular with
    ⟨row, _, enqueues, fits, sameId, current, found, kept⟩
  rcases create_columns fits enqueues with
    ⟨requests, payload, hashed⟩
  have requested := requests.of_fixed kept
  simp only [TaskRecord.fixed, Prod.mk.injEq] at kept
  rcases kept with ⟨keptId, _, _, keptPayload, keptHash, _⟩
  have currentId : returned.id = current.id := sameId.trans keptId.symm
  refine ⟨current, ⟨⟨returned, created, currentId⟩, ?_, requested, ?_,
    ?_⟩, currentId⟩
  · rw [keptId]
    exact found
  · rw [keptPayload]
    exact payload
  · rw [keptHash]
    exact hashed

/-- Two creators whose rows clash are the same call. -/
theorem creator_unique
    {first second : Nat} {other answer : TaskRow}
    (one : Returned config first task returned (.ok true))
    (two : Returned config second other answer (.ok true))
    (clash :
      returned.id = answer.id ∨
        (task.SameKey other ∧ task.idempotencyKey ≠ none)) :
    first = second := by
  by_contra different
  rcases one.committed followed regular with
    ⟨row, inFirst, enqueues, fits, sameId, _⟩
  rcases two.committed followed regular with
    ⟨entry, inSecond, entryEnqueues, entryFits, entryId, _⟩
  apply (interleave_origins followed).apart _ inFirst _ inSecond
    different row entry (by simp) (by simp)
  rcases clash with equal | ⟨same, keyed⟩
  · exact Or.inl (sameId.symm.trans (equal.trans entryId))
  · exact (create_columns fits enqueues).1.clashes
      (create_columns entryFits entryEnqueues).1 same keyed

/-- Every stored row has a creator. -/
theorem keeps_creates
    (keeps : config.db.Keeps row) :
    ∃ creator origin current,
      Creates platform config creator origin current ∧
        current.fixed = row.fixed := by
  rcases keeps with ⟨current, found, same⟩
  rw [← Database.find_id found] at found
  rcases (interleave_origins followed).stems current found with
    ⟨commit, member, inserted, occurs, enqueues, kept⟩
  have creating : ∃ task, commit.call = .create task := by
    rcases (interleave_ok followed).known commit member with
      ⟨session, located, called⟩
    have allowed := regular session (List.mem_of_getElem? located)
    rcases enqueues with ⟨task, requested, _⟩
    rw [← called] at requested ⊢
    cases call : session.call with
    | create task => exact ⟨task, rfl⟩
    | callerTx tasks decide =>
        simp only [Regular, call] at allowed
    | _ =>
        rw [call] at requested
        cases requested
  rcases creating with ⟨task, called⟩
  rcases commit_returned followed regular member called with
    ⟨stored, returned, writes, _, created, sameId⟩
  rw [writes, List.mem_singleton] at occurs
  cases occurs
  rcases created.creates followed regular with
    ⟨latest, creates, latestId⟩
  have equal : latest = current := by
    have keptId : current.id = inserted.id := congrArg Prod.fst kept
    have stored := creates.stored
    rw [← latestId, sameId, ← keptId, found] at stored
    exact (Option.some.inj stored).symm
  rw [← equal] at same
  exact ⟨commit.session, task, latest, creates, same⟩

/-- The three ways in which a regular call can return. -/
theorem Returned.outcomes
    {result : Except StoreError Bool}
    (finished : Returned config index task returned result) :
    result = .ok true ∨
      (∃ row,
        result = .ok false ∧ config.db.Keeps row ∧
          returned.id = row.id ∧ task.Requests row ∧
          task.idempotencyKey.isSome = true ∧
          hashPayload platform task.payload = some row.payloadHash) ∨
      ∃ row payloadHash,
        result = .error .taskConflict ∧ config.db.Keeps row ∧
          task.Requests row ∧ task.idempotencyKey.isSome = true ∧
          hashPayload platform task.payload = some payloadHash ∧
          payloadHash ≠ row.payloadHash := by
  rcases finished with ⟨session, found, called, program⟩
  have promised := (interleave_ok followed).ensures found program
  have quiet := (regular session (List.mem_of_getElem? found)).create called
  rw [called] at promised
  replace promised := promised quiet.2.2 not_false
  cases result with
  | ok created =>
      cases created with
      | true => exact Or.inl rfl
      | false =>
          rcases promised with ⟨_, row, replayed⟩
          exact Or.inr (Or.inl ⟨row, rfl, replayed⟩)
  | error error =>
      cases error with
      | taskConflict =>
          rcases promised with ⟨_, row, payloadHash, refused⟩
          exact Or.inr (Or.inr ⟨row, payloadHash, rfl, refused⟩)
      | _ =>
          rcases promised with ⟨_, undecoded | unfit⟩
          · rw [hashPayload, Option.map_eq_none_iff] at undecoded
            simp [undecoded] at quiet
          · exact (unfit quiet.1).elim

/-- The verdict of a call compares its payload with the creator's. -/
theorem Returned.verdict
    (collisionFree : Function.Injective platform.sum256)
    {result : Except StoreError Bool}
    (finished : Returned config index task returned result) :
    ∃ creator origin row,
      Creates platform config creator origin row ∧
        origin.SameKey task ∧
        if canonicalizeJSON platform task.payload =
            canonicalizeJSON platform origin.payload then
          result = .ok (decide (index = creator)) ∧ returned.id = row.id
        else
          result = .error .taskConflict := by
  have samePayload :
      ∀ first second,
        hashPayload platform first = hashPayload platform second ↔
          canonicalizeJSON platform first =
            canonicalizeJSON platform second :=
    fun _ _ => (Option.map_injective collisionFree).eq_iff
  rcases finished.outcomes followed regular with
    created |
      ⟨row, replayed, keeps, sameId, requests, _, hashed⟩ |
      ⟨row, payloadHash, refused, keeps, requests, _, hashed, changed⟩
  · subst result
    rcases finished.creates followed regular with
      ⟨row, creates, sameId⟩
    refine ⟨index, task, row, creates, ⟨rfl, rfl⟩, ?_⟩
    rw [if_pos rfl]
    exact ⟨by simp, sameId⟩
  · subst result
    rcases keeps_creates followed regular keeps with
      ⟨creator, origin, current, creates, kept⟩
    have differs : index ≠ creator := by
      intro equal
      subst creator
      rcases finished with ⟨session, found, _, program⟩
      rcases creates.returned with
        ⟨_, ⟨other, located, _, created⟩, _⟩
      rw [found] at located
      cases located
      rw [program] at created
      cases created
    refine ⟨creator, origin, current, creates,
      creates.requested.sameKey (requests.of_fixed kept), ?_⟩
    simp only [TaskRecord.fixed, Prod.mk.injEq] at kept
    rcases kept with ⟨keptId, _, _, _, keptHash, _⟩
    have equal := creates.hashed
    rw [keptHash, ← hashed, samePayload] at equal
    rw [if_pos equal.symm]
    exact ⟨by simp [differs], sameId.trans keptId.symm⟩
  · rcases keeps_creates followed regular keeps with
      ⟨creator, origin, current, creates, kept⟩
    refine ⟨creator, origin, current, creates,
      creates.requested.sameKey (requests.of_fixed kept), ?_⟩
    simp only [TaskRecord.fixed, Prod.mk.injEq] at kept
    rcases kept with ⟨_, _, _, _, keptHash, _⟩
    rw [if_neg, refused]
    rw [← samePayload, creates.hashed, hashed, keptHash]
    exact fun equal => changed (Option.some.inj equal)

/--
Under every schedule of regular calls with a collision-free hash, `Create` is
idempotent.
-/
theorem create_idempotent
    (collisionFree : Function.Injective platform.sum256) :
    Idempotent platform config where
  unique := by
    intro first firstStored second secondStored sameType keyed sameKey
    apply config.db.tasks.eq_of_clash Identity.Clashes.symm firstStored
      secondStored
    exact Or.inr ⟨sameType, Option.isSome_iff_ne_none.mpr keyed, sameKey⟩
  keyed := by
    intro index task returned result finished keyed
    rcases finished.verdict followed regular collisionFree with
      ⟨creator, origin, row, creates, same, verdict⟩
    rcases creates.returned with ⟨answer, created, _⟩
    have sole :
        ∀ other second answer,
          Returned config other second answer (.ok true) →
            second.SameKey task → other = creator := by
      intro other second answer found sameKey
      apply creator_unique followed regular found created
      refine Or.inr ⟨⟨sameKey.1.trans same.1.symm,
        sameKey.2.trans same.2.symm⟩, ?_⟩
      rw [sameKey.2]
      exact keyed
    refine ⟨creator, origin, row, creates, same, sole, ?_, verdict⟩
    intro commit member second called sameKey
    rcases commit_returned followed regular member called with
      ⟨_, answer, _, _, found, _⟩
    exact sole commit.session second answer found sameKey
  unkeyed := by
    intro index task returned result finished unkeyed
    rcases finished.outcomes followed regular with
      created | ⟨_, _, _, _, _, keyed, _⟩ | ⟨_, _, _, _, _, keyed, _⟩
    · subst result
      exact ⟨rfl, finished.creates followed regular⟩
    · simp [unkeyed] at keyed
    · simp [unkeyed] at keyed
  fresh := by
    intro first second task other returned answer one two same
    exact creator_unique followed regular one two (Or.inl same)
  isolated := by
    intro commit member task called
    rcases commit_returned followed regular member called with
      ⟨row, returned, writes, enqueues, ⟨session, found, sameCall, _⟩, _⟩
    have quiet :=
      (regular session (List.mem_of_getElem? found)).create sameCall
    exact ⟨row, writes, (create_columns quiet.1 enqueues).1.1⟩

end Regular

end Verdicts

/-! ## A run -/

instance (task : TaskRow) : Decidable task.Fits :=
  decidable_of_iff
    (task.type.length ≤ 100 ∧
      task.idempotencyKey.all (fun key => key.length ≤ 255) = true)
    (by simp [TaskRow.Fits, Option.all_eq_true])

instance (platform : Platform) : DecidablePred (Regular platform) :=
  fun session =>
    match called : session.call with
    | .create task =>
        decidable_of_iff
          (task.Fits ∧
            (canonicalizeJSON platform task.payload).isSome = true ∧
            session.faulted = false)
          (by simp only [Regular, called])
    | .callerTx _ _ =>
        isFalse (by simp only [Regular, called, not_false_eq_true])
    | .cancel _ | .claim _ | .heartbeat _ _ | .markCompleted _ _ _
      | .markPending _ _ _ _ | .markDead _ _ _ _ | .retryDead _
      | .requeueStaleRunning _ _ =>
        isTrue (by simp only [Regular, called])

/-- A task with a key. -/
def keyedTask (payload : GoString) : TaskRow :=
  { emailTask payload with idempotencyKey := some (ascii "k") }

/--
Two calls with the same key overlap.  The task is claimed before a third call
comes with another payload, and a fourth call has no key.
-/
def replayedSchedule : List StoreLabel :=
  let send (index : Nat) (newId : TaskId) : StoreLabel :=
    .advance index (calm newId 0 0)
  [.spawn (.create (keyedTask (ascii "1"))),
    .spawn (.create (keyedTask (ascii "1"))),
    send 0 7, send 1 8, send 0 7, send 0 7, send 0 7,
    send 1 8, send 1 8, send 1 8,
    .spawn (.claim (ascii "w")),
    send 2 0, send 2 0, send 2 0, send 2 0, send 2 0,
    .spawn (.create (keyedTask (ascii "2"))),
    send 3 9, send 3 9, send 3 9,
    .spawn (.create (emailTask (ascii "1"))),
    send 4 10, send 4 10, send 4 10, send 4 10]

theorem replayedSchedule_idempotent :
    ∃ config,
      interleave echoPlatform .empty replayedSchedule = some config ∧
        config.sessions.map (createOutcome TaskRow.id) =
          [some (7, .ok true), some (7, .ok false), none,
            some (0, .error .taskConflict), some (10, .ok true)] ∧
        Idempotent echoPlatform config := by
  have outcome :
      (interleave echoPlatform .empty replayedSchedule).map
          (fun config =>
            (config.sessions.map (createOutcome TaskRow.id),
              decide
                (∀ session ∈ config.sessions,
                  Regular echoPlatform session))) =
        some
          ([some (7, .ok true), some (7, .ok false), none,
            some (0, .error .taskConflict), some (10, .ok true)],
            true) := by
    decide +kernel
  rcases Option.map_eq_some_iff.mp outcome with
    ⟨config, followed, equal⟩
  simp only [Prod.mk.injEq, decide_eq_true_eq] at equal
  exact ⟨config, followed, equal.1,
    create_idempotent followed equal.2 Function.injective_id⟩

end Dhara.Store
