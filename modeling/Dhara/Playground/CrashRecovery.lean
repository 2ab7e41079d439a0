import Dhara.Playground.CrashStatus
import Dhara.Store.AuditTrail

/-!
# The recovery that the crash demo shows

The demo looks at its task from time to time, and only at its current status.
What it has seen is nevertheless in the audit trail of the task, in the order
in which it was seen, because entries are only appended and the last one has
the current status.  A demo that has completed has therefore shown a task
that was claimed, requeued, claimed again and completed, whatever else the
workers, the reaper and other clients have done meanwhile.  Retention deletes
the task and its trail later on, so all of this is about tasks that it has
spared.
-/

namespace Dhara.Playground.Crash

open Dhara.Store Dhara.Transaction

variable {platform : Platform} {describe : ClientError → GoString}
  {manager after shared : Manager} {spared : TaskId → Prop} {row : TaskRecord}
  {demo : Demo} {id : TaskId} {deleted : Sweep} {logs : List LogRecord}
  {next : StoreConfig} {label : StoreLabel} {db : Database} {cutoff : Time}
  {index : Nat}

/-! ## What a trail tells -/

/-- A list that does not end like another one is a part of what is before. -/
theorem concat_sublist_of_ne {Entry : Type} {whole : List Entry}
    {last other : Entry} (part : List Entry)
    (sub : List.Sublist (part ++ [last]) (whole ++ [other]))
    (apart : last ≠ other) : List.Sublist (part ++ [last]) whole := by
  rw [← List.reverse_sublist] at sub ⊢
  simp only [List.reverse_append, List.reverse_singleton,
    List.singleton_append] at sub ⊢
  rcases List.cons_sublist_cons'.mp sub with inside | ⟨same, _⟩
  · exact inside
  · exact absurd same apart

/-- The statuses that the trail of a task has recorded. -/
def recorded (db : Database) (id : TaskId) : List TaskStatus :=
  (db.logsOf id).map LogRecord.status

/-- A trail ends with the current status, unless nothing has happened. -/
theorem trail_ends
    (trail : Trail row logs)
    (begun : row.status ≠ .pending ∨ logs.map LogRecord.status ≠ []) :
    ∃ earlier, logs.map LogRecord.status = earlier ++ [row.status] := by
  have last := trail.last
  rw [path, List.getLast?_cons] at last
  rcases List.eq_nil_or_concat (logs.map LogRecord.status) with
    empty | ⟨earlier, status, equal⟩
  · rw [empty] at last begun
    rcases begun with moved | ended
    · exact absurd (Option.some.inj last).symm moved
    · exact absurd rfl ended
  · rw [List.concat_eq_append] at equal
    rw [equal, List.getLast?_concat] at last
    refine ⟨earlier, ?_⟩
    rw [equal, ← Option.some.inj last]
    rfl

/-- A completed task has been running just before. -/
theorem trail_completed
    (trail : Trail row logs) (completed : row.status = .completed) :
    ∃ earlier,
      logs.map LogRecord.status = earlier ++ [.running, .completed] := by
  rcases trail_ends trail (Or.inl (by simp [completed])) with
    ⟨earlier, ends⟩
  have chain := trail.chain
  rw [path, ends, completed, ← List.cons_append, List.isChain_append] at chain
  rcases List.eq_nil_or_concat earlier with rfl | ⟨first, status, rfl⟩
  · have edge := chain.2.2 .pending rfl .completed rfl
    cases edge
  · rw [List.concat_eq_append] at chain ends
    have edge := chain.2.2 status
      (by rw [← List.cons_append, List.getLast?_concat]; rfl)
      .completed rfl
    cases edge
    refine ⟨first, ?_⟩
    rw [ends, completed]
    simp

/-- A task that has been completed stays so. -/
theorem trail_final
    (trail : Trail row logs)
    (completed : .completed ∈ logs.map LogRecord.status) :
    row.status = .completed := by
  rcases List.append_of_mem completed with ⟨earlier, later, equal⟩
  have chain := trail.chain
  have last := trail.last
  rw [path, equal, ← List.cons_append] at chain last
  cases later with
  | nil =>
      rw [List.getLast?_concat] at last
      exact (Option.some.inj last).symm
  | cons next rest =>
      have edge := (List.isChain_append.mp chain).2.1
      cases (List.isChain_cons_cons.mp edge).1

/-! ## What a demo has seen -/

/-- The statuses a demo has seen, and those that must lie in between. -/
def Point.seen : Point → List TaskStatus
  | .entering .kill | .killing _ | .entering (.wait .reaper)
  | .polling .reaper | .pausing .reaper => [.running]
  | .entering .restart | .respawning | .entering (.wait .completion)
  | .polling .completion | .pausing .completion => [.running, .pending]
  | .completing => [.running, .pending, .running, .completed]
  | _ => []

/-- What the demo has seen is in the trail of its task, if that is spared. -/
def Demo.Evident (demo : Demo) (spared : TaskId → Prop) (db : Database) :
    Prop :=
  demo.point.seen ≠ [] →
    ∃ id, demo.task = some id ∧
      (spared id → List.Sublist demo.point.seen (recorded db id))

/-- `waitFor` has returned the task. -/
theorem Demo.Evident.matched
    {wait : Wait} (evident : demo.Evident spared db)
    (reached : demo.point = .polling wait) (asked : demo.task = some id)
    (trails : spared id → Trail row (db.logsOf id))
    (accepted : wait.matches row.status = true) :
    ({ demo with point := wait.next row.status } : Demo).Evident spared
      db := by
  intro seen
  refine ⟨id, asked, fun kept => ?_⟩
  have trail := trails kept
  have before :
      demo.point.seen ≠ [] →
        List.Sublist demo.point.seen (recorded db id) := by
    intro some
    rcases evident some with ⟨_, same, sub⟩
    rw [asked] at same
    cases same
    exact sub kept
  rw [reached] at before
  cases wait with
  | claim =>
      by_cases running : row.status = .running
      · rcases trail_ends trail (Or.inl (by simp [running])) with
          ⟨earlier, ends⟩
        rw [recorded, ends, running]
        simp [Wait.next, Point.seen]
      · simp [Wait.next, running, Point.seen] at seen
  | reaper =>
      have before := before (List.cons_ne_nil _ _)
      by_cases dead : row.status = .dead
      · simp [Wait.next, dead, Point.seen] at seen
      · have pending : row.status = .pending := by
          simpa [Wait.matches, dead] using accepted
        have begun : recorded db id ≠ [] := by
          intro empty
          rw [empty] at before
          cases before
        rcases trail_ends trail (Or.inr begun) with ⟨earlier, ends⟩
        rw [recorded, ends, pending] at before ⊢
        have claimed : List.Sublist [.running] earlier :=
          concat_sublist_of_ne [] before (by decide)
        simpa [Wait.next, Point.seen, pending] using
          claimed.append (List.Sublist.refl [TaskStatus.pending])
  | completion =>
      have before := before (List.cons_ne_nil _ _)
      by_cases completed : row.status = .completed
      · rcases trail_completed trail completed with ⟨earlier, ends⟩
        rw [recorded, ends] at before
        rw [recorded, ends]
        have whole :
            List.Sublist ([.running] ++ [.pending])
              ((earlier ++ [.running]) ++ [TaskStatus.completed]) := by
          simpa [Point.seen] using before
        have shorter :=
          concat_sublist_of_ne [TaskStatus.running] whole (by decide)
        have requeued :=
          concat_sublist_of_ne [TaskStatus.running] shorter (by decide)
        simpa [Wait.next, Point.seen, completed] using
          requeued.append (List.Sublist.refl [TaskStatus.running, .completed])
      · simp [Wait.next, completed, Point.seen] at seen

/-! ## The store -/

/-- The trail of a task only grows. -/
theorem recorded_grows
    {call : Call} {wrote : Option TaskRecord} {before next : Database}
    (step : ViewStep platform call (before.view id) wrote (next.view id)) :
    List.Sublist (recorded before id) (recorded next id) := by
  have grown :
      ∀ {first second : TaskView},
        ViewStep platform call first wrote second →
          List.Sublist (first.logs.map LogRecord.status)
            (second.logs.map LogRecord.status) := by
    intro first second step
    cases step with
    | stay => exact List.Sublist.refl _
    | enqueue => exact List.Sublist.refl _
    | beat => exact List.Sublist.refl _
    | move => exact (List.sublist_append_left _ _).map _
  exact grown step

/-- The task was requeued after a claim, and completed by another one. -/
structure Recovered (db : Database) (id : TaskId) : Prop where
  completed : ∃ row, db.find id = some row ∧ row.status = .completed
  trail :
    List.Sublist [.running, .pending, .running, .completed] (recorded db id)

/-- What is known about the store of the crash schema. -/
structure StoreOk (platform : Platform) (spared : TaskId → Prop)
    (store : StoreConfig) : Prop where
  sessions : (openContract platform True).Coherent store
  trail : ∀ id, spared id → TrailOk (store.db.view id)

theorem storeOk_empty (platform : Platform) (spared : TaskId → Prop) :
    StoreOk platform spared { db := .empty } := by
  constructor
  · exact (openContract platform True).coherent_start .empty
  · exact fun _ _ => rfl

theorem StoreOk.step
    {store : StoreConfig} (ok : StoreOk platform spared store)
    (stepped :
      (postgres platform).step (Call.program platform) store label =
        some next) :
    StoreOk platform spared next := by
  constructor
  · exact ok.sessions.step (Call.meets platform) stepped
  · intro id kept
    rcases step_viewStep ok.sessions stepped id with ⟨call, wrote, step⟩
    exact step.trail (ok.trail id kept)

theorem StoreOk.send
    {store : StoreConfig} (ok : StoreOk platform spared store)
    (call : Call) :
    StoreOk platform spared (Pool.send platform call store) := by
  have stepped :
      (postgres platform).step (Call.program platform) store
        (.spawn call) = some (Pool.send platform call store) := rfl
  exact ok.step stepped

theorem StoreOk.found
    {store : StoreConfig} (ok : StoreOk platform spared store)
    (kept : spared id) (found : store.db.find id = some row) :
    Trail row (store.db.logsOf id) := by
  have trail := ok.trail id kept
  rw [TrailOk, Database.view_row, found] at trail
  exact trail

/-- A step of the store keeps what was seen. -/
theorem Demo.Evident.step
    {store : StoreConfig} (evident : demo.Evident spared store.db)
    (ok : StoreOk platform spared store)
    (stepped :
      (postgres platform).step (Call.program platform) store label =
        some next) :
    demo.Evident spared next.db := by
  intro seen
  rcases evident seen with ⟨id, asked, before⟩
  rcases step_viewStep ok.sessions stepped id with ⟨call, wrote, step⟩
  exact ⟨id, asked, fun kept =>
    (before kept).trans (recorded_grows step)⟩

/-- A step of the store keeps a recovered task. -/
theorem Recovered.step
    {store : StoreConfig} (recovered : Recovered store.db id)
    (ok : StoreOk platform spared store)
    (stepped :
      (postgres platform).step (Call.program platform) store label =
        some next) :
    Recovered next.db id := by
  rcases step_viewStep ok.sessions stepped id with ⟨call, wrote, step⟩
  rcases recovered.completed with ⟨row, found, completed⟩
  have located : (store.db.view id).row = some row := found
  have same : next.db.view id = store.db.view id :=
    step.terminal located (Or.inl completed)
  constructor
  · refine ⟨row, ?_, completed⟩
    exact (congrArg TaskView.row same).trans found
  · exact recovered.trail.trans (recorded_grows step)

/-! ## Retention -/

/-- A retention run leaves the task and its logs. -/
def Spares (deleted : Sweep) (id : TaskId) : Prop :=
  deleted.rows id = false ∧
    ∀ entry, entry.taskId = id → deleted.logs entry = false

theorem Spares.find
    (spares : Spares deleted id)
    (db : Database) : (sweep deleted db).find id = db.find id := by
  rw [find_sweep, if_neg (by simp [spares.1])]

theorem Spares.logsOf
    (spares : Spares deleted id)
    (db : Database) : (sweep deleted db).logsOf id = db.logsOf id := by
  rw [Database.logsOf, Database.logsOf, sweep, List.filter_filter]
  apply List.filter_congr
  intro entry _
  by_cases own : entry.taskId = id
  · simp [own, spares.2 entry own]
  · simp [own]

/-- No one has locked what a retention run deletes. -/
theorem deletable_unlocked
    {store : StoreConfig} (allowed : deletable cutoff deleted store = true)
    (member : row ∈ store.db.tasks.rows) (gone : deleted.rows row.id = true)
    {session : StoreSession} (found : store.sessions[index]? = some session)
    {res : Resource}
    (reserves : res ∈ reserved row.id row.type row.idempotencyKey) :
    res ∉ heldBy session.tx := by
  intro held
  simp only [deletable, Bool.and_eq_true, List.all_eq_true] at allowed
  have condition := allowed.1.1 row member
  simp only [gone, Bool.not_true, Bool.false_or, Bool.and_eq_true,
    Bool.not_eq_true'] at condition
  have taken : locked store row = true := by
    refine List.any_eq_true.mpr ⟨res, reserves, ?_⟩
    refine (heldByOthers_eq_true_iff _ _ _).mpr
      ⟨index, session, ?_, found, held⟩
    rintro rfl
    simp at found
  rw [condition.2] at taken
  cases taken

/-- A retention run does not touch what the sessions have locked. -/
theorem sweep_agrees
    {store : StoreConfig} (allowed : deletable cutoff deleted store = true)
    {session : StoreSession} (found : store.sessions[index]? = some session)
    {res : Resource} (held : res ∈ heldBy session.tx) :
    res.Agrees store.db (sweep deleted store.db) := by
  have kept :
      ∀ row ∈ store.db.tasks.rows,
        res ∈ reserved row.id row.type row.idempotencyKey →
          ¬ deleted.rows row.id = true :=
    fun row member reserves gone =>
      deletable_unlocked allowed member gone found reserves held
  cases res with
  | task id =>
      show store.db.find id = (sweep deleted store.db).find id
      rw [find_sweep]
      cases located : store.db.find id with
      | none => simp
      | some row =>
          rcases Database.find_eq_some_iff.mp located with ⟨member, rfl⟩
          rw [if_neg (kept row member (mem_reserved_task _ _ _))]
  | key type key =>
      rw [Resource.Agrees, Database.findKey_eq_none_iff,
        Database.findKey_eq_none_iff]
      constructor
      · exact fun free row member => free row (List.mem_of_mem_filter member)
      · rintro free row member rfl keyed
        refine free row (List.mem_filter.mpr ⟨member, ?_⟩) rfl keyed
        have stays := kept row member (keyed ▸ mem_reserved_key _ _ _)
        simpa using stays

theorem StoreOk.sweep
    {store : StoreConfig} (ok : StoreOk platform spared store)
    (allowed : deletable cutoff deleted store = true)
    (keeps : ∀ id, spared id → Spares deleted id) :
    StoreOk platform spared
      { store with db := Playground.sweep deleted store.db } := by
  constructor
  · exact ok.sessions.disturb trivial
      fun _ _ found _ held => sweep_agrees allowed found held
  · intro id kept
    have trail := ok.trail id kept
    have sameRow :
        ((Playground.sweep deleted store.db).view id).row =
          (store.db.view id).row := by
      rw [Database.view_row, Database.view_row, (keeps id kept).find]
    have sameLogs :
        ((Playground.sweep deleted store.db).view id).logs =
          (store.db.view id).logs :=
      (keeps id kept).logsOf store.db
    rw [TrailOk] at trail ⊢
    rw [sameRow, sameLogs]
    exact trail

/-! ## The invariant -/

/--
What the demos have seen and what the status shows is in the store, unless
retention has deleted it.
-/
structure Manager.Witnessed (platform : Platform)
    (spared : TaskId → Prop) (manager : Manager) : Prop where
  store : StoreOk platform spared manager.store
  evident : ∀ demo ∈ manager.demos, demo.Evident spared manager.store.db
  completed :
    manager.status.phase = .completed →
      ∃ id, manager.status.taskID = some id ∧
        (spared id → Recovered manager.store.db id)

theorem Manager.spawnWorker_store (failure : Option GoString) :
    (manager.spawnWorker failure).2.store = manager.store := by
  rcases manager.spawnWorker_cases failure with same | ⟨_, added⟩
  · rw [same]
  · rw [added]

theorem Manager.Kills.store
    {kill next : Kill} (kills : manager.Kills kill next shared) :
    shared.store = manager.store := by
  cases kills <;> rfl

/-- A demo only enqueues. -/
theorem Manager.Runs.store
    {next : Demo} (runs : manager.Runs platform describe demo next shared) :
    shared.store = manager.store ∨
      ∃ task,
        shared.store = Pool.send platform (.create task) manager.store := by
  cases runs with
  | spawned failure => exact Or.inl (spawnWorker_store failure)
  | restarted failure => exact Or.inl (spawnWorker_store failure)
  | restored failure => exact Or.inl (spawnWorker_store failure)
  | killed _ _ _ _ kills => exact Or.inl kills.store
  | sent task => exact Or.inr ⟨task, rfl⟩
  | _ => exact Or.inl rfl

theorem Demo.Evident.of_nil
    (unseen : demo.point.seen = []) :
    demo.Evident spared db :=
  fun seen => absurd unseen seen

/-- A demo that goes on without having seen more. -/
theorem Demo.Evident.reach
    {point : Point} (evident : demo.Evident spared db)
    (same : point.seen = demo.point.seen) :
    ({ demo with point } : Demo).Evident spared db := by
  intro seen
  rw [same] at seen
  rcases evident seen with ⟨id, asked, before⟩
  exact ⟨id, asked, same ▸ before⟩

theorem Leg.body_seen (leg : Leg) :
    leg.body.seen = (Point.entering leg).seen := by
  rcases leg with _ | (_ | _ | _) | _ | _ <;> rfl

theorem Manager.Runs.evident
    {next : Demo} (runs : manager.Runs platform describe demo next shared)
    (ok : StoreOk platform spared manager.store)
    (evident : demo.Evident spared manager.store.db) :
    next.Evident spared manager.store.db := by
  cases runs with
  | spawned failure reached =>
      refine .of_nil ?_
      cases (manager.spawnWorker failure).1 <;> rfl
  | entered leg now reached =>
      refine evident.reach ?_
      rw [reached]
      exact leg.body_seen
  | matched wait id row reached asked found accepted =>
      exact evident.matched reached asked (fun kept => ok.found kept found)
        accepted
  | paused wait reached =>
      refine evident.reach ?_
      rw [reached]
      cases wait <;> rfl
  | ticked wait reached =>
      refine evident.reach ?_
      rw [reached]
      cases wait <;> rfl
  | killed kill after _ reached kills =>
      rcases after with _ | handle | handle | _ | cause
      · exact evident.reach (by rw [reached]; rfl)
      · exact evident.reach (by rw [reached]; rfl)
      · exact evident.reach (by rw [reached]; rfl)
      · exact evident.reach (by rw [reached]; rfl)
      · exact .of_nil rfl
  | restarted failure reached =>
      cases (manager.spawnWorker failure).1 with
      | none => exact evident.reach (by rw [reached]; rfl)
      | some cause => exact .of_nil rfl
  | inspected reached =>
      refine .of_nil ?_
      cases manager.canceled <;> rfl
  | checked reached =>
      refine .of_nil ?_
      cases manager.workerRunning <;> rfl
  | _ => exact .of_nil rfl

/-- A demo that is about to complete has shown a recovery. -/
theorem Demo.Evident.recovered
    {store : StoreConfig} (ok : StoreOk platform spared store)
    (evident : demo.Evident spared store.db)
    (reached : demo.point = .completing) :
    ∃ id, demo.task = some id ∧ (spared id → Recovered store.db id) := by
  rcases evident (by simp [reached, Point.seen]) with ⟨id, asked, trail⟩
  rw [reached] at trail
  refine ⟨id, asked, fun kept => ⟨?_, trail kept⟩⟩
  have completed : .completed ∈ recorded store.db id :=
    (trail kept).subset (by simp [Point.seen])
  cases found : store.db.find id with
  | some row =>
      exact ⟨row, rfl, trail_final (ok.found kept found) completed⟩
  | none =>
      have empty := ok.trail id kept
      rw [TrailOk, Database.view_row, found] at empty
      have none : store.db.logsOf id = [] := empty
      rw [recorded, none] at completed
      cases completed

/-- The status changes only where the demo completes or goes on. -/
theorem Manager.Runs.shows
    {next : Demo} (runs : manager.Runs platform describe demo next shared)
    (completed : shared.status.phase = .completed) :
    shared.status = manager.status ∨
      demo.point = .recording ∧ manager.status.phase = .completed ∨
      demo.point = .completing ∧
        shared.status.taskID = manager.status.taskID := by
  have spawns :
      ∀ failure, (manager.spawnWorker failure).2.status = manager.status :=
    fun failure =>
      congrArg (fun board => board.2.1) (spawnWorker_board failure)
  cases runs with
  | spawned failure => exact Or.inl (spawns failure)
  | restarted failure => exact Or.inl (spawns failure)
  | restored failure => exact Or.inl (spawns failure)
  | killed _ _ _ _ kills =>
      exact Or.inl (congrArg (fun board => board.2.1) kills.board)
  | entered leg now reached =>
      have phase : leg.phase = .completed := completed
      have final := leg.phase_final
      rw [phase] at final
      cases final
  | recorded reached => exact Or.inr (Or.inl ⟨reached, completed⟩)
  | completed now reached => exact Or.inr (Or.inr ⟨reached, rfl⟩)
  | failed message now reached => cases completed
  | _ => exact Or.inl rfl

theorem Manager.Witnessed.ran
    {next : Demo} (ok : manager.Witnessed platform spared)
    (consistent : manager.Consistent)
    (found : manager.demos[index]? = some demo)
    (runs : manager.Runs platform describe demo next shared) :
    ({ shared with demos := shared.demos.set index next } :
        Manager).Witnessed platform spared := by
  have member := List.mem_of_getElem? found
  have sameDb : shared.store.db = manager.store.db := by
    rcases runs.store with same | ⟨task, sent⟩
    · rw [same]
    · rw [sent]
      rfl
  constructor
  · show StoreOk platform spared shared.store
    rcases runs.store with same | ⟨task, sent⟩
    · rw [same]
      exact ok.store
    · rw [sent]
      exact ok.store.send _
  · intro other stays
    show other.Evident spared shared.store.db
    rw [sameDb]
    rw [runs.threads.1] at stays
    rcases (mem_set_iff found).mp stays with rfl | ⟨_, _, located⟩
    · exact runs.evident ok.store (ok.evident demo member)
    · exact ok.evident other (List.mem_of_getElem? located)
  · intro completed
    show ∃ id, shared.status.taskID = some id ∧
      (spared id → Recovered shared.store.db id)
    rw [sameDb]
    rcases runs.shows completed with
      same | ⟨reached, early⟩ | ⟨reached, sameTask⟩
    · have before : manager.status.phase = .completed := by
        rw [← same]
        exact completed
      rw [same]
      exact ok.completed before
    · have shown :=
        (consistent.held found (by simp [Demo.active, reached])).2.shown
      have released := shown.final.mp (by rw [early]; rfl)
      rw [reached] at released
      cases released
    · have shown :=
        (consistent.held found (by simp [Demo.active, reached])).2.shown
      rw [sameTask, shown.task (by simp [reached])]
      exact (ok.evident demo member).recovered ok.store reached

/-- What does not touch the demos, the status and the store. -/
theorem Manager.Witnessed.beside
    (ok : manager.Witnessed platform spared)
    (store : after.store = manager.store)
    (demos : after.demos = manager.demos)
    (status : after.status = manager.status) :
    after.Witnessed platform spared := by
  constructor
  · rw [store]
    exact ok.store
  · rw [store, demos]
    exact ok.evident
  · rw [store, status]
    exact ok.completed

/-- A retention run keeps the spared tasks. -/
theorem Manager.Witnessed.sweep
    (ok : manager.Witnessed platform spared)
    (allowed : deletable cutoff deleted manager.store = true)
    (keeps : ∀ id, spared id → Spares deleted id) :
    ({ manager with
        store :=
          { manager.store with
            db := Playground.sweep deleted manager.store.db } } :
      Manager).Witnessed platform spared := by
  have same :
      ∀ id, spared id →
        recorded (Playground.sweep deleted manager.store.db) id =
          recorded manager.store.db id :=
    fun id kept => congrArg _ ((keeps id kept).logsOf manager.store.db)
  constructor
  · exact ok.store.sweep allowed keeps
  · intro demo member seen
    rcases ok.evident demo member seen with ⟨id, asked, before⟩
    exact ⟨id, asked, fun kept => (same id kept).symm ▸ before kept⟩
  · intro completed
    rcases ok.completed completed with ⟨id, shown, recovered⟩
    refine ⟨id, shown, fun kept => ⟨?_, ?_⟩⟩
    · rw [(keeps id kept).find]
      exact (recovered kept).completed
    · rw [same id kept]
      exact (recovered kept).trail

theorem Manager.Witnessed.moves
    {step : Step} (ok : manager.Witnessed platform spared)
    (consistent : manager.Consistent)
    (keeps :
      ∀ cutoff deleted, step = .cleanup cutoff deleted →
        ∀ id, spared id → Spares deleted id)
    (moves : manager.Moves platform describe step after) :
    after.Witnessed platform spared := by
  cases moves with
  | refused => exact ok
  | started session now =>
      refine ⟨ok.store, ?_, nofun⟩
      intro demo member
      rcases List.mem_append.mp member with old | new
      · exact ok.evident demo old
      · cases List.mem_singleton.mp new
        exact .of_nil rfl
  | ran index input demo next shared found runs =>
      exact ok.ran consistent found runs
  | killed index input kill next shared found kills =>
      exact ok.beside kills.store kills.threads.1
        (congrArg (fun board => board.2.1) kills.board)
  | served label store stepped =>
      constructor
      · exact ok.store.step stepped
      · exact fun demo member =>
          (ok.evident demo member).step ok.store stepped
      · intro completed
        rcases ok.completed completed with ⟨id, shown, recovered⟩
        exact ⟨id, shown, fun kept => (recovered kept).step ok.store stepped⟩
  | swept cutoff deleted allowed =>
      exact ok.sweep allowed (keeps cutoff deleted rfl)
  | skipped => exact ok
  | canceled => exact ok.beside rfl rfl rfl
  | closed => exact ok.beside rfl rfl rfl
  | exited => exact ok.beside rfl rfl rfl
  | finished => exact ok.beside rfl rfl rfl
  | reaped => exact ok.beside rfl rfl rfl

theorem witnessed_newCrashManager
    (platform : Platform) (spared : TaskId → Prop) (settings : Settings) :
    (newCrashManager settings).Witnessed platform spared :=
  ⟨storeOk_empty platform spared, nofun, nofun⟩

/-! ## Every run -/

/--
Whenever the status of the crash demo says `completed`, it names a task, and
as long as retention has not deleted that task or logs of it, the task is
completed, and its audit trail has, in this order, a claim, a requeueing,
another claim and the completion.
-/
theorem completed_demo_recovered
    (platform : Platform) (describe : ClientError → GoString)
    (settings : Settings) {steps : List Step} {final : Manager}
    (ran :
      (machine platform describe).run (newCrashManager settings) steps =
        some final)
    (completed : final.status.phase = .completed) :
    ∃ id,
      final.status.taskID = some id ∧
        ((∀ cutoff deleted, .cleanup cutoff deleted ∈ steps →
            Spares deleted id) →
          ∃ row,
            final.store.db.find id = some row ∧
              row.status = .completed ∧
              List.Sublist [.running, .pending, .running, .completed]
                ((final.store.db.logsOf id).map LogRecord.status)) := by
  let spared : TaskId → Prop := fun id =>
    ∀ cutoff deleted, Step.cleanup cutoff deleted ∈ steps → Spares deleted id
  have ok : final.Consistent ∧ final.Witnessed platform spared := by
    refine run_moves_of
      (fun manager =>
        manager.Consistent ∧ manager.Witnessed platform spared)
      ?_ ⟨consistent_newCrashManager settings,
        witnessed_newCrashManager platform spared settings⟩ ran
    rintro manager step after member ⟨consistent, witnessed⟩ moves
    refine ⟨consistent.moves moves, witnessed.moves consistent ?_ moves⟩
    rintro cutoff deleted rfl id kept
    exact kept cutoff deleted member
  rcases ok.2.completed completed with ⟨id, shown, recovers⟩
  refine ⟨id, shown, fun kept => ?_⟩
  rcases recovers kept with ⟨⟨row, found, isCompleted⟩, trail⟩
  exact ⟨row, found, isCompleted, trail⟩

/-- A demo whose task is claimed, requeued, claimed again and completed. -/
def recoveredRun : List Step :=
  restartedRun ++
    [.demo 0 (.clock 5), .serve (.spawn (.claim (ascii "w")))] ++
    serves 3 5 5000000 ++
    [.serve (.spawn (.markCompleted 7 (ascii "w") 5))] ++
    serves 4 4 5000000 ++
    [.demo 0 (.read false), .demo 0 (.clock 6)]

/-- A retention run that deletes these tasks with all that refers to them. -/
def cleanupOf (cutoff : Time) (rows : TaskId → Bool) : Step :=
  .cleanup cutoff
    ⟨rows, fun entry => rows entry.taskId, fun letter => rows letter.taskId⟩

theorem completed_demo_recovered_once :
    ∃ final id row,
      (machine echoPlatform untold).run (newCrashManager {})
          (recoveredRun ++ [cleanupOf 0 fun _ => false]) = some final ∧
        final.status.phase = .completed ∧
        final.store.db.find id = some row ∧ row.status = .completed := by
  have shown :
      ((machine echoPlatform untold).run (newCrashManager {})
          (recoveredRun ++ [cleanupOf 0 fun _ => false])).map
          (fun manager => manager.status.phase) =
        some .completed := by
    decide +kernel
  rcases Option.map_eq_some_iff.mp shown with ⟨final, ran, completed⟩
  rcases completed_demo_recovered echoPlatform untold {} ran completed with
    ⟨id, _, recovered⟩
  have spares :
      ∀ cutoff deleted,
        .cleanup cutoff deleted ∈
            recoveredRun ++ [cleanupOf 0 fun _ => false] →
          Spares deleted id := by
    intro cutoff deleted member
    simp [recoveredRun, restartedRun, spawningRun, serves, cleanupOf]
      at member
    rcases member with ⟨_, rfl⟩
    exact ⟨rfl, fun _ _ => rfl⟩
  rcases recovered spares with ⟨row, found, isCompleted, _⟩
  exact ⟨final, id, row, ran, completed, found, isCompleted⟩

/-- Once the task is old, the status goes on naming a task that is gone. -/
example :
    ((machine echoPlatform untold).run (newCrashManager {})
        (recoveredRun ++ [cleanupOf 1 fun _ => true])).map (fun manager =>
      (manager.status.phase, manager.status.taskID,
        manager.store.db.find 7)) =
      some (.completed, some 7, none) := by
  decide +kernel

end Dhara.Playground.Crash
