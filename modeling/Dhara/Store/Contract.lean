import Dhara.Store.Lifecycle
import Dhara.Transaction.Interleaving

/-!
# The contract of the task store

The contract ties the methods of the store to the task life cycle: what a
call commits is lawful, and what it returns agrees with what it committed.

A row lock protects the row of a task, and the lock on a key protects the
absence of a row with this key.  Where tasks may be deleted by others, the
locks are all that a call can rely on.  What is committed is lawful all the
same, but a task that was created or found need not be there any more.
-/

namespace Dhara.Store

open Dhara.Transaction

variable {platform : Platform} {db : Database}

/-! ## Locks -/

/-- The resource looks the same in both states. -/
def Resource.Agrees : Resource → Database → Database → Prop
  | .task id, before, after => before.find id = after.find id
  | .key type wanted, before, after =>
      before.findKey type wanted = none ↔ after.findKey type wanted = none

/-- The resources a write can disturb. -/
def Write.footprint : Write → List Resource
  | .insertTask row => reserved row.id row.type row.idempotencyKey
  | .updateTask row => [.task row.id]
  | _ => []

theorem Resource.Agrees.refl (res : Resource) (db : Database) :
    res.Agrees db db := by
  cases res with
  | task id => rfl
  | key type key => exact Iff.rfl

theorem Resource.Agrees.trans (res : Resource)
    (first second third : Database)
    (before : res.Agrees first second)
    (after : res.Agrees second third) :
    res.Agrees first third := by
  cases res with
  | task id => exact Eq.trans before after
  | key type key => exact Iff.trans before after

theorem mem_reserved_task (id : TaskId) (type : Text)
    (key : Option Text) :
    Resource.task id ∈ reserved id type key := by
  cases key <;> simp [reserved]

theorem mem_reserved_key (id : TaskId) (type key : Text) :
    Resource.key type key ∈ reserved id type (some key) := by
  simp [reserved]

theorem findKey_updateTask
    (row : TaskRecord) (type key : Text) (db : Database) :
    ((Write.updateTask row).apply db).findKey type key = none ↔
      db.findKey type key = none := by
  have columns :
      ∀ old : TaskRecord,
        (if old.identity = row.identity then row else old).identity =
          old.identity := by
    intro old
    split_ifs with same
    · exact same.symm
    · rfl
  have sameType :
      ∀ old : TaskRecord,
        (if old.identity = row.identity then row else old).type =
          old.type :=
    fun old => congrArg Identity.type (columns old)
  have sameKey :
      ∀ old : TaskRecord,
        (if old.identity = row.identity then row
          else old).idempotencyKey = old.idempotencyKey :=
    fun old => congrArg Identity.idempotencyKey (columns old)
  simp only [Database.findKey_eq_none_iff, Write.apply,
    Table.rows_replace, List.forall_mem_map, sameType, sameKey]

theorem findKey_insertTask
    {row : TaskRecord} {type key : Text}
    (other : Resource.key type key ∉
      reserved row.id row.type row.idempotencyKey) (db : Database) :
    db.findKey type key = none ↔
      ((Write.insertTask row).apply db).findKey type key = none := by
  by_cases free : db.Free row
  · rw [Database.findKey_eq_none_iff, Database.findKey_eq_none_iff,
      Write.rows_insertTask free]
    constructor
    · intro absent old member sameType sameKey
      rw [List.mem_append, List.mem_singleton] at member
      rcases member with stored | equal
      · exact absent old stored sameType sameKey
      · subst old
        rw [sameKey, sameType] at other
        exact other (mem_reserved_key row.id type key)
    · intro absent old member
      exact absent old (List.mem_append_left _ member)
  · have same : (Write.insertTask row).apply db = db := by
      have unchanged : db.tasks.insert row = db.tasks := dif_neg free
      rw [Write.apply, unchanged]
    rw [same]

theorem Resource.agrees_apply
    (res : Resource) (write : Write) (db : Database)
    (outside : res ∉ Write.footprint write) :
    res.Agrees db (write.apply db) := by
  cases res with
  | task id =>
      cases write with
      | insertTask row =>
          have other : (Write.insertTask row).task ≠ id := by
            intro same
            subst id
            exact outside (mem_reserved_task _ _ _)
          exact congrArg TaskView.row (Write.view_other other db).symm
      | updateTask row =>
          have other : (Write.updateTask row).task ≠ id := by
            intro same
            subst id
            exact outside (List.mem_singleton.mpr rfl)
          exact congrArg TaskView.row (Write.view_other other db).symm
      | _ => rfl
  | key type key =>
      cases write with
      | insertTask row => exact findKey_insertTask outside db
      | updateTask row => exact (findKey_updateTask row type key db).symm
      | _ => exact Iff.rfl

/-- A statement that does not wait locks only what is free. -/
theorem eval_exclusive
    {now : Time} {others : Resource → Bool} {oracle : Oracle} {stmt : Stmt}
    {effect : Effect (Reply stmt) Write Resource}
    (evaluated : eval platform now others oracle stmt db = .ok effect)
    (ready : waits platform others oracle stmt db = false) :
    ∀ res ∈ effect.locks, others res = false := by
  cases stmt with
  | insertTask args =>
      rcases evalInsert_cases evaluated with
        ⟨task, encoded, ⟨_, equal⟩ | ⟨_, _, equal⟩⟩
      · simp [equal]
      · simp only [waits, encoded, List.any_eq_false,
          Bool.not_eq_true] at ready
        simpa [equal] using ready
  | update id update =>
      rcases evalUpdate_cases evaluated with
        ⟨change, encoded, ⟨_, equal⟩ | ⟨row, found, guarded, equal⟩⟩
      · simp [equal]
      · simp only [waits, encoded, found, guarded, Option.any_some,
          Bool.true_and] at ready
        simpa [equal] using ready
  | selectDue workerID =>
      simp only [eval, map_eq_ok_iff] at evaluated
      rcases evaluated with ⟨_, _, equal⟩
      subst effect
      rcases evalSelectDue_cases now others oracle db with
        equal | ⟨row, _, _, free, equal⟩
      · simp [equal]
      · simpa [equal] using free
  | requeueStale threshold =>
      cases evaluated
      intro res member
      simp only [evalRequeueStale, List.mem_map] at member
      rcases member with ⟨row, stale, equal⟩
      subst res
      simp only [staleRows, List.mem_filter, Bool.and_eq_true,
        Bool.not_eq_true'] at stale
      exact stale.2.2
  | insertLog id status message =>
      simp only [eval, bind_eq_ok_iff] at evaluated
      rcases evaluated with ⟨text, _, evaluated⟩
      simp [evalReferencing_cases evaluated]
  | insertDeadLetter id lastError =>
      simp only [eval, bind_eq_ok_iff] at evaluated
      rcases evaluated with ⟨text, _, evaluated⟩
      simp [evalReferencing_cases evaluated]
  | getByTypeAndIdempotencyKey type key =>
      simp only [eval, bind_eq_ok_iff, map_eq_ok_iff] at evaluated
      rcases evaluated with ⟨text, _, other, _, equal⟩
      simp [← equal]
  | getById id =>
      cases evaluated
      simp
  | deleteDeadLetters id =>
      cases evaluated
      simp

/-! ## Promises -/

/-- The result is an error. -/
def Response.failed : Response → Bool
  | .created _ (.error _) => true
  | .enqueued _ (.error _) => true
  | .task (.error _) => true
  | .unit (.error _) => true
  | .count (.error _) => true
  | _ => false

/-- The type and the key are within the limits that `Validate` checks. -/
def TaskRow.Fits (task : TaskRow) : Prop :=
  task.type.length ≤ 100 ∧
    ∀ key, task.idempotencyKey = some key → key.length ≤ 255

/-- The row has the requested type and key. -/
def TaskRow.Requests (task : TaskRow) (row : TaskRecord) : Prop :=
  row.type.bytes = task.type ∧
    row.idempotencyKey.map Text.bytes = task.idempotencyKey

/-- What `Create` promises if no round trip was answered by a fault. -/
def EnsuredCreate (platform : Platform) (task : TaskRow)
    (commits : List (List Write)) (db : Database) : Response → Prop
  | .created returned (.ok true) =>
      ∃ row,
        commits = [[.insertTask row]] ∧
          (Call.create task).Enqueues platform row ∧
          returned.id = row.id ∧ db.Keeps row
  | .created returned (.ok false) =>
      commits = [] ∧
        ∃ row,
          db.Keeps row ∧ returned.id = row.id ∧ task.Requests row ∧
            task.idempotencyKey.isSome = true ∧
            hashPayload platform task.payload = some row.payloadHash
  | .created _ (.error .taskConflict) =>
      commits = [] ∧
        ∃ row payloadHash,
          db.Keeps row ∧ task.Requests row ∧
            task.idempotencyKey.isSome = true ∧
            hashPayload platform task.payload = some payloadHash ∧
            payloadHash ≠ row.payloadHash
  | .created _ (.error _) =>
      commits = [] ∧ (hashPayload platform task.payload = none ∨ ¬ task.Fits)
  | _ => False

/-- What a call returns when it has made its move. -/
def Call.reports (move : Move) : Call → Response
  | .claim _ => .task (.ok (scanClaimed move.after))
  | .cancel _ => .task (.ok (scanSummary move.after))
  | .retryDead _ => .task (.ok (scanSummary move.after))
  | _ => .unit (.ok ())

/-- What a call returns when it has made no move. -/
def Call.Declines (faulted : Bool) (result : Response) : Call → Prop
  | .cancel id =>
      result.failed = true ∨
        ∃ row, row.id = id ∧ result = .task (.ok (scanTask row))
  | .claim _ =>
      result.failed = true ∧
        (faulted = false → result = failTask .taskNotAvailable)
  | .retryDead _ => result.failed = true
  | _ =>
      result.failed = true ∧
        (faulted = false → result = failUnit .taskOwnershipLost)

/--
What a finished call has committed and returned, if tasks are deleted by
others or not.
-/
def Ensured (platform : Platform) (pruned : Prop) (call : Call)
    (commits : List (List Write)) (faulted : Bool) (result : Response)
    (db : Database) : Prop :=
  match call with
  | .create task =>
      faulted = false → ¬ pruned →
        EnsuredCreate platform task commits db result
  | .callerTx _ _ => True
  | .heartbeat taskID workerID =>
      (∃ worker row now,
        worker.bytes = workerID ∧ row.id = taskID ∧
          row.ownedBy worker = true ∧
          commits = [[.updateTask ((Change.heartbeat worker).set now row)]] ∧
          faulted = false ∧ result = .unit (.ok ())) ∨
        (commits = [] ∧ call.Declines faulted result)
  | .requeueStaleRunning threshold reaperID =>
      (∃ moves : List Move,
        commits = publish (writesOf moves) [] ∧ faulted = false ∧
          (∀ move ∈ moves,
            (Call.requeueStaleRunning threshold reaperID).Performs move) ∧
          result = .count (.ok moves.length)) ∨
        (commits = [] ∧ result.failed = true)
  | call =>
      (∃ move,
        commits = [writesOf [move]] ∧ faulted = false ∧
          call.Performs move ∧ result = call.reports move) ∨
        (commits = [] ∧ call.Declines faulted result)

theorem EnsuredCreate.stable
    {task : TaskRow} {commits : List (List Write)} {result : Response}
    (ensured : EnsuredCreate platform task commits db result) {other : Call}
    {writes : List Write} (lawful : Lawful platform db other writes) :
    EnsuredCreate platform task commits
      ((postgres platform).applyAll writes db) result := by
  unfold EnsuredCreate at ensured ⊢
  split at ensured
  · rcases ensured with ⟨row, committed, enqueues, same, keeps⟩
    exact ⟨row, committed, enqueues, same, lawful.keeps keeps⟩
  · rcases ensured with ⟨silent, row, keeps, rest⟩
    exact ⟨silent, row, lawful.keeps keeps, rest⟩
  · rcases ensured with ⟨silent, row, payloadHash, keeps, rest⟩
    exact ⟨silent, row, payloadHash, lawful.keeps keeps, rest⟩
  · exact ensured
  · exact ensured

theorem Ensured.stable
    {pruned : Prop} {call : Call} {commits : List (List Write)}
    {faulted : Bool} {result : Response}
    (ensured : Ensured platform pruned call commits faulted result db)
    {other : Call} {writes : List Write}
    (lawful : Lawful platform db other writes) :
    Ensured platform pruned call commits faulted result
      ((postgres platform).applyAll writes db) := by
  cases call with
  | create task =>
      exact fun calm kept => (ensured calm kept).stable lawful
  | _ => exact ensured

/-- The contract of the store, with tasks deleted by others or not. -/
def openContract (platform : Platform) (pruned : Prop) :
    Contract Call Response (postgres platform) where
  Lawful := Lawful platform
  Disturbs := fun _ _ => pruned
  Agrees := Resource.Agrees
  footprint := Write.footprint
  Ensures := Ensured platform pruned
  agrees_refl := Resource.Agrees.refl
  agrees_trans := Resource.Agrees.trans
  agrees_apply := Resource.agrees_apply
  exclusive := by
    intro now others oracle stmt db effect evaluated ready
    exact eval_exclusive evaluated ready
  ensures_stable := by
    intro call commits faulted result db other writes ensured lawful
    exact ensured.stable lawful
  ensures_disturbed := by
    intro call commits faulted result before after ensured disturbed
    cases call with
    | create task => exact fun _ kept => absurd disturbed kept
    | _ => exact ensured

/-- The contract of the store, where no task is deleted. -/
abbrev contract (platform : Platform) :
    Contract Call Response (postgres platform) :=
  openContract platform False

end Dhara.Store
