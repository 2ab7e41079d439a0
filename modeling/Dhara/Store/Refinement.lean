import Dhara.Store.Contract

/-!
# The methods keep the contract

Every method of the store meets the contract, from any state and under any
interference of the other sessions.  The proofs follow the programs: one rule
for each kind of round trip, then one lemma for each method.
-/

namespace Dhara.Store

open Dhara.Transaction

variable {next : StoreProgram Response} {tx : Tx Write Resource Time}
  {holds : Database → Prop} {locks : List Resource} {context : String}
  {row : TaskRecord} {id : TaskId}

/-! ## Stable assertions -/

section Stability

variable {platform : Platform} {pruned : Prop}

/-- A row lock keeps the row. -/
theorem stable_find
    {row : Option TaskRecord} (locked : .task id ∈ locks) :
    (openContract platform pruned).Stable locks
      fun db => db.find id = row := by
  rintro before after ⟨_, agrees⟩ held
  have same : before.find id = after.find id := agrees _ locked
  exact same.symm.trans held

/-- The locks of an insertion keep its identity free. -/
theorem stable_free
    (locked : reserved row.id row.type row.idempotencyKey ⊆ locks) :
    (openContract platform pruned).Stable locks fun db => db.Free row := by
  rintro before after ⟨_, agrees⟩ held
  rw [Database.free_iff] at held ⊢
  constructor
  · have same : before.find row.id = after.find row.id :=
      agrees _ (locked (mem_reserved_task _ _ _))
    exact same.symm.trans held.1
  · intro key keyed
    have member :
        Resource.key row.type key ∈
          reserved row.id row.type row.idempotencyKey := by
      rw [keyed]
      exact mem_reserved_key row.id row.type key
    have same :
        before.findKey row.type key = none ↔
          after.findKey row.type key = none :=
      agrees _ (locked member)
    exact same.mp (held.2 key keyed)

/-- A stored row stays stored without any lock, if no task is deleted. -/
theorem stable_keeps (locks : List Resource) (row : TaskRecord) :
    (openContract platform pruned).Stable locks
      fun db => ¬ pruned → db.Keeps row := by
  rintro before after ⟨⟨call, writes, lawful, equal⟩ | disturbed, _⟩ held kept
  · subst after
    exact Lawful.keeps lawful (held kept)
  · exact absurd disturbed kept

theorem stable_and
    {first second : Database → Prop}
    (left : (openContract platform pruned).Stable locks first)
    (right : (openContract platform pruned).Stable locks second) :
    (openContract platform pruned).Stable locks
      fun db => first db ∧ second db := by
  rintro before after interferes ⟨firstHeld, secondHeld⟩
  exact
    ⟨left before after interferes firstHeld,
      right before after interferes secondHeld⟩

end Stability

/-! ## Rules for the round trips -/

section Rules

variable
    {platform : Platform} {pruned : Prop} {call : Call}
    {fail : StoreError → Response}

/-- Giving up after a fault is always within the contract. -/
theorem Ensured.giveUp
    {result : Response} (failed : result.failed = true)
    (db : Database) :
    Ensured platform pruned call [] true result db := by
  cases call with
  | create task =>
      intro calm
      cases calm
  | callerTx tasks commits => exact True.intro
  | cancel id => exact Or.inr ⟨rfl, Or.inl failed⟩
  | retryDead taskID => exact Or.inr ⟨rfl, failed⟩
  | requeueStaleRunning threshold reaperID => exact Or.inr ⟨rfl, failed⟩
  | _ => exact Or.inr ⟨rfl, failed, nofun⟩

theorem meets_giveUp
    {result : Response} (failed : result.failed = true)
    (tx : Option (Tx Write Resource Time)) (holds : Database → Prop) :
    (openContract platform pruned).Meets call
      (.done result : StoreProgram Response) tx holds [] true :=
  fun db _ => Ensured.giveUp failed db

theorem meets_openTx
    (fails : ∀ error, (fail error).failed = true)
    (opened :
      ∀ now,
        (openContract platform pruned).Meets call next
          (some { startedAt := now }) (fun _ => True) [] false) :
    (openContract platform pruned).Meets call (openTx fail next) none
      (fun _ => True) [] false :=
  ⟨fun _ => meets_giveUp (fails _) _ _, rfl, opened⟩

/-- A statement that takes no lock and disturbs no resource. -/
theorem meets_sendTx
    (fails : ∀ error, (fail error).failed = true) {stmt : Stmt}
    (stable : (openContract platform pruned).Stable tx.locks holds)
    (sent :
      ∀ others oracle db effect,
        eval platform tx.startedAt others oracle stmt db = .ok effect →
          effect.locks = [] ∧
            (∀ write ∈ effect.writes, Write.footprint write = []) ∧
            (openContract platform pruned).Meets call next
              (some { tx with writes := tx.writes ++ effect.writes })
              holds [] false) :
    (openContract platform pruned).Meets call (sendTx fail stmt context next)
      (some tx) holds [] false := by
  refine ⟨fun _ _ => meets_giveUp (fails _) _ _, ?_⟩
  intro _ others oracle db effect held evaluated
  rcases sent others oracle _ effect evaluated with
    ⟨unlocked, quiet, later⟩
  refine ⟨?_, holds, ?_, held, ?_⟩
  · intro write member res disturbed
    have empty : (openContract platform pruned).footprint write = [] :=
      quiet write member
    rw [empty] at disturbed
    cases disturbed
  · rw [unlocked, List.append_nil]
    exact stable
  · rw [unlocked, List.append_nil]
    exact later

theorem meets_insertLog
    (fails : ∀ error, (fail error).failed = true) {status : TaskStatus}
    {message : GoString}
    (stable : (openContract platform pruned).Stable tx.locks holds)
    (logged :
      ∀ logId (text : Text), text.bytes = message →
        (openContract platform pruned).Meets call next
          (some
            { tx with
              writes :=
                tx.writes ++
                  [.insertLog ⟨logId, id, status, text, tx.startedAt⟩] })
          holds [] false) :
    (openContract platform pruned).Meets call
      (insertLog fail id status message context next)
      (some tx) holds [] false := by
  apply meets_sendTx fails stable
  intro others oracle db effect evaluated
  simp only [eval, bind_eq_ok_iff] at evaluated
  rcases evaluated with ⟨text, encoded, evaluated⟩
  have equal := evalReferencing_cases evaluated
  subst effect
  refine ⟨rfl, by simp [Write.footprint], ?_⟩
  exact logged oracle.logId text (toText_eq_ok_iff.mp encoded)

theorem meets_commitTx
    (fails : ∀ error, (fail error).failed = true)
    (lawful :
      tx.writes ≠ [] → ∀ db, holds db → Lawful platform db call tx.writes)
    (committed :
      (openContract platform pruned).Meets call next none (fun _ => True)
        (publish tx.writes []) false) :
    (openContract platform pruned).Meets call (commitTx fail context next)
      (some tx) holds [] false := by
  refine ⟨⟨fun _ => True, (openContract platform pruned).stable_true [],
    fun _ _ => True.intro, fun _ => meets_giveUp (fails _) _ _⟩, ?_⟩
  intro _
  exact
    ⟨lawful, fun _ => True, (openContract platform pruned).stable_true [],
      fun _ _ => True.intro, committed⟩

/-- A guarded update at the start of a transaction. -/
theorem meets_update
    {update : Update}
    {next : Except Fault (Option TaskRecord) → StoreProgram Response}
    (unwritten : tx.writes = [])
    (stable : (openContract platform pruned).Stable tx.locks holds)
    (refused :
      ∀ fault failed,
        (openContract platform pruned).Meets call (next (.error fault))
          (some { tx with failed }) holds [] true)
    (missed :
      ∀ db change,
        holds db → update.encode = .ok change →
          (∀ row, db.find id = some row → change.guard row = false) →
          (openContract platform pruned).Meets call (next (.ok none))
            (some tx) holds [] false)
    (updated :
      ∀ db change row,
        holds db → update.encode = .ok change →
          db.find id = some row → change.guard row = true →
          (openContract platform pruned).Meets call
            (next (.ok (some (change.set tx.startedAt row))))
            (some
              { tx with
                writes := [.updateTask (change.set tx.startedAt row)]
                locks := tx.locks ++ [.task id] })
            (fun db => db.find id = some row) [] false) :
    (openContract platform pruned).Meets call (.exec (.update id update) next)
      (some tx) holds [] false := by
  refine ⟨refused, ?_⟩
  intro _ others oracle db effect held evaluated
  rw [unwritten] at evaluated ⊢
  rcases evalUpdate_cases evaluated with
    ⟨change, encoded, ⟨unmatched, equal⟩ | ⟨row, found, guarded, equal⟩⟩
  · subst effect
    refine ⟨(openContract platform pruned).within_nil _, holds, ?_, held, ?_⟩
    · rw [List.append_nil]
      exact stable
    · have later := missed db change held encoded unmatched
      rw [List.append_nil, List.append_nil, ← unwritten]
      exact later
  · subst effect
    refine ⟨?_, fun db => db.find id = some row, ?_, found, ?_⟩
    · intro write member res disturbed
      rw [List.mem_singleton] at member
      subst write
      have sameId : (change.set tx.startedAt row).id = id :=
        (change.set_id tx.startedAt row).trans (Database.find_id found)
      have equal : res = .task id := by
        rw [← sameId]
        exact List.mem_singleton.mp disturbed
      simp [equal]
    · exact stable_find (by simp)
    · exact updated db change row held encoded found guarded

/-- A lookup on a connection of its own. -/
theorem meets_getById
    (fails : ∀ error, (fail error).failed = true)
    {next : Option TaskRow → StoreProgram Response}
    {tx : Option (Tx Write Resource Time)}
    (absent :
      (openContract platform pruned).Meets call (next none) tx
        (fun _ => True) [] false)
    (present :
      ∀ row, row.id = id →
        (openContract platform pruned).Meets call
          (next (some (scanTask row))) tx (fun _ => True) [] false) :
    (openContract platform pruned).Meets call (getById fail id next) tx
      holds [] false := by
  refine ⟨fun _ => meets_giveUp (fails _) _ _, ?_⟩
  intro now others oracle db effect _ evaluated
  cases evaluated
  refine ⟨(openContract platform pruned).within_nil _,
    fun nonempty => absurd rfl nonempty, fun _ => True,
    (openContract platform pruned).stable_true _, True.intro, ?_⟩
  simp only [publish_nil]
  cases found : db.find id with
  | none => exact absent
  | some row => exact present row (Database.find_id found)

/-- The end of a transaction that makes one move: its log and the commit. -/
theorem meets_logMove
    (fails : ∀ error, (fail error).failed = true) {change : Change}
    {status : TaskStatus} {message : GoString}
    {logContext commitContext : String} (locked : .task row.id ∈ tx.locks)
    (enabled : change.Enabled tx.startedAt row)
    (written :
      ∀ logId text,
        tx.writes ++
            [.insertLog ⟨logId, row.id, status, text, tx.startedAt⟩] =
          writesOf [⟨row, change, tx.startedAt, logId, text⟩])
    (performs :
      ∀ logId (text : Text), text.bytes = message →
        call.Performs ⟨row, change, tx.startedAt, logId, text⟩)
    (finished :
      ∀ logId (text : Text),
        call.Performs ⟨row, change, tx.startedAt, logId, text⟩ →
        (openContract platform pruned).Meets call next none (fun _ => True)
          [writesOf [⟨row, change, tx.startedAt, logId, text⟩]]
          false) :
    (openContract platform pruned).Meets call
      (insertLog fail row.id status message logContext
        (commitTx fail commitContext next))
      (some tx) (fun db => db.find row.id = some row) [] false := by
  apply meets_insertLog fails (stable_find locked)
  intro logId text encoded
  have performed := performs logId text encoded
  rw [written]
  apply meets_commitTx fails
  · intro _ db found
    exact Lawful.move call _ ⟨found, enabled⟩ performed
  · exact finished logId text performed

end Rules

/-! ## Clients -/

section Methods

variable (platform : Platform) {pruned : Prop} {stale : List TaskRecord}
  {reaperID : GoString} {now : Time}

theorem cancel_meets (id : TaskId) :
    (openContract platform pruned).Meets (.cancel id) (cancel id) none
      (fun _ => True) [] false := by
  apply meets_openTx fun _ => rfl
  intro now
  apply meets_update rfl ((openContract platform pruned).stable_true _)
  · intro fault failed
    exact meets_giveUp rfl _ _
  · intro _ _ _ _ _
    apply meets_getById fun _ => rfl
    · exact fun _ _ => Or.inr ⟨rfl, Or.inl rfl⟩
    · intro row sameId
      exact fun _ _ => Or.inr ⟨rfl, Or.inr ⟨row, sameId, rfl⟩⟩
  · intro db change row _ encoded found guarded
    have sameId := Database.find_id found
    subst id
    cases encoded
    have enabled : Change.cancel.Enabled now row := by
      simpa [Change.guard, Change.Enabled] using guarded
    refine meets_logMove (fun _ => rfl) (by simp) enabled ?_ ?_ ?_
    · intro logId text
      rfl
    · intro logId text encoded
      exact ⟨rfl, rfl, encoded⟩
    · intro logId text performed
      exact fun _ _ => Or.inl ⟨_, rfl, rfl, performed, rfl⟩

theorem retryDead_meets (taskID : TaskId) :
    (openContract platform pruned).Meets (.retryDead taskID)
      (retryDead taskID) none (fun _ => True) [] false := by
  apply meets_openTx fun _ => rfl
  intro now
  apply meets_update rfl ((openContract platform pruned).stable_true _)
  · intro fault failed
    exact meets_giveUp rfl _ _
  · intro _ _ _ _ _
    apply meets_getById fun _ => rfl
    · exact fun _ _ => Or.inr ⟨rfl, rfl⟩
    · intro row sameId
      exact fun _ _ => Or.inr ⟨rfl, rfl⟩
  · intro db change row _ encoded found guarded
    have sameId := Database.find_id found
    subst taskID
    cases encoded
    have enabled : Change.retryDead.Enabled now row := by
      simpa [Change.guard, Change.Enabled] using guarded
    apply meets_sendTx (fun _ => rfl) (stable_find (by simp))
    intro others oracle _ effect evaluated
    cases evaluated
    refine ⟨rfl, by simp [Write.footprint], ?_⟩
    refine meets_logMove (fun _ => rfl) (by simp) enabled ?_ ?_ ?_
    · intro logId text
      rfl
    · intro logId text encoded
      exact ⟨rfl, rfl, encoded⟩
    · intro logId text performed
      exact fun _ _ => Or.inl ⟨_, rfl, rfl, performed, rfl⟩

/-! ## Workers -/

theorem claim_meets (workerID : GoString) :
    (openContract platform pruned).Meets (.claim workerID) (claim workerID)
      none (fun _ => True) [] false := by
  apply meets_openTx fun _ => rfl
  intro now
  refine ⟨fun _ _ => meets_giveUp rfl _ _, ?_⟩
  intro _ others oracle db effect _ evaluated
  have bound :
      (toText workerID).map (fun _ => evalSelectDue now others oracle _) =
        .ok effect :=
    evaluated
  rcases map_eq_ok_iff.mp bound with ⟨_, _, selected⟩
  subst effect
  rcases evalSelectDue_cases now others oracle db with
    equal | ⟨row, found, due, _, equal⟩
  · rw [Engine.applyAll_nil, equal]
    refine ⟨(openContract platform pruned).within_nil _, fun _ => True,
      (openContract platform pruned).stable_true _, True.intro, ?_⟩
    exact fun _ _ => Or.inr ⟨rfl, rfl, fun _ => rfl⟩
  · rw [Engine.applyAll_nil, equal]
    refine ⟨(openContract platform pruned).within_nil _,
      fun db => db.find row.id = some row, stable_find (by simp), found,
      ?_⟩
    apply meets_update rfl (stable_find (by simp))
    · intro fault failed
      exact meets_giveUp rfl _ _
    · intro _ _ _ _ _
      exact fun _ _ => Or.inr ⟨rfl, rfl, fun _ => rfl⟩
    · intro db change current held encoded stored _
      have same : row = current := Option.some.inj (held.symm.trans stored)
      subst current
      rcases Update.encode_claim encoded with ⟨_, worker, _, _, equal⟩
      subst change
      refine meets_logMove (fun _ => rfl) (by simp)
        (show (Change.claim worker).Enabled now row from due) ?_ ?_ ?_
      · intro logId text
        rfl
      · intro logId text logged
        exact ⟨encoded, logged⟩
      · intro logId text performed
        exact fun _ _ => Or.inl ⟨_, rfl, rfl, performed, rfl⟩

theorem heartbeat_meets (taskID : TaskId) (workerID : GoString) :
    (openContract platform pruned).Meets (.heartbeat taskID workerID)
      (heartbeat taskID workerID) none (fun _ => True) [] false := by
  refine ⟨fun _ => meets_giveUp rfl _ _, ?_⟩
  intro now others oracle db effect _ evaluated
  rcases evalUpdate_cases evaluated with
    ⟨change, encoded, ⟨_, equal⟩ | ⟨row, found, guarded, equal⟩⟩
  · subst effect
    refine ⟨(openContract platform pruned).within_nil _,
      fun nonempty => absurd rfl nonempty, fun _ => True,
      (openContract platform pruned).stable_true _, True.intro, ?_⟩
    exact fun _ _ => Or.inr ⟨rfl, rfl, fun _ => rfl⟩
  · subst effect
    rcases Update.encode_heartbeat encoded with ⟨worker, bound, equal⟩
    subst change
    have sameId := Database.find_id found
    have sameWorker := toText_eq_ok_iff.mp bound
    subst sameWorker
    refine ⟨?_, ?_, fun _ => True,
      (openContract platform pruned).stable_true _, True.intro, ?_⟩
    · intro write member res disturbed
      rw [List.mem_singleton] at member
      subst write
      have equal : res = .task row.id := List.mem_singleton.mp disturbed
      simp [equal, sameId]
    · intro _
      exact Lawful.beat taskID worker row now found guarded
    · exact fun _ _ =>
        Or.inl ⟨worker, row, now, rfl, sameId, guarded, rfl, rfl, rfl⟩

/-- The common start of the methods that end an execution. -/
theorem meets_updateOwned
    {call : Call} {taskID : TaskId} {update : Update}
    (declines :
      ∀ db,
        Ensured platform pruned call [] false
          (failUnit .taskOwnershipLost) db)
    (updated :
      ∀ now change row,
        row.id = taskID → update.encode = .ok change →
          change.guard row = true →
          (openContract platform pruned).Meets call next
            (some
              { startedAt := now
                writes := [.updateTask (change.set now row)]
                locks := [.task taskID] })
            (fun db => db.find taskID = some row) [] false) :
    (openContract platform pruned).Meets call
      (updateOwned taskID update context next) none (fun _ => True) []
      false := by
  apply meets_openTx fun _ => rfl
  intro now
  apply meets_update rfl ((openContract platform pruned).stable_true _)
  · intro fault failed
    exact meets_giveUp rfl _ _
  · intro _ _ _ _ _
    exact fun db _ => declines db
  · intro db change row _ encoded found guarded
    exact updated now change row (Database.find_id found) encoded guarded

theorem markCompleted_meets (taskID : TaskId) (workerID : GoString)
    (durationMs : Int) :
    (openContract platform pruned).Meets
      (.markCompleted taskID workerID durationMs)
      (markCompleted taskID workerID durationMs) none (fun _ => True)
      [] false := by
  apply meets_updateOwned
  · exact fun _ => Or.inr ⟨rfl, rfl, fun _ => rfl⟩
  · intro now change row sameId encoded guarded
    subst taskID
    rcases Update.encode_markCompleted encoded with ⟨worker, _, equal⟩
    subst change
    refine meets_logMove (fun _ => rfl) (by simp)
      (show (Change.markCompleted worker).Enabled now row from guarded)
      ?_ ?_ ?_
    · intro logId text
      rfl
    · intro logId text logged
      exact ⟨rfl, encoded, logged⟩
    · intro logId text performed
      exact fun _ _ => Or.inl ⟨_, rfl, rfl, performed, rfl⟩

theorem markPending_meets (task : TaskRow)
    (workerID lastError : GoString) (nextRunAt : Time) :
    (openContract platform pruned).Meets
      (.markPending task workerID lastError nextRunAt)
      (markPending task workerID lastError nextRunAt) none
      (fun _ => True) [] false := by
  apply meets_updateOwned
  · exact fun _ => Or.inr ⟨rfl, rfl, fun _ => rfl⟩
  · intro now change row sameId encoded guarded
    rw [← sameId]
    rcases Update.encode_markPending encoded with
      ⟨worker, error, runAt, _, _, _, equal⟩
    subst change
    refine meets_logMove (fun _ => rfl) (by simp)
      (show (Change.markPending worker error runAt).Enabled now row
        from guarded) ?_ ?_ ?_
    · intro logId text
      rfl
    · intro logId text logged
      exact ⟨sameId, encoded, logged⟩
    · intro logId text performed
      exact fun _ _ => Or.inl ⟨_, rfl, rfl, performed, rfl⟩

theorem markDead_meets (taskID : TaskId)
    (workerID lastError reason : GoString) :
    (openContract platform pruned).Meets
      (.markDead taskID workerID lastError reason)
      (markDead taskID workerID lastError reason) none (fun _ => True)
      [] false := by
  apply meets_updateOwned
  · exact fun _ => Or.inr ⟨rfl, rfl, fun _ => rfl⟩
  · intro now change row sameId encoded guarded
    subst taskID
    rcases Update.encode_markDead encoded with
      ⟨worker, error, _, errorBound, equal⟩
    subst change
    apply meets_sendTx (fun _ => rfl) (stable_find (by simp))
    intro others oracle _ effect evaluated
    simp only [eval, bind_eq_ok_iff] at evaluated
    rcases evaluated with ⟨letter, letterBound, evaluated⟩
    have sameError : error = letter :=
      Except.ok.inj (errorBound.symm.trans letterBound)
    subst letter
    have sent := evalReferencing_cases evaluated
    subst effect
    refine ⟨rfl, by simp [Write.footprint], ?_⟩
    refine meets_logMove (fun _ => rfl) (by simp)
      (show (Change.markDead worker error).Enabled now row
        from guarded) ?_ ?_ ?_
    · intro logId text
      rfl
    · intro logId text logged
      exact ⟨rfl, encoded, logged⟩
    · intro logId text performed
      exact fun _ _ => Or.inl ⟨_, rfl, rfl, performed, rfl⟩

/-! ## Reapers -/

/-- The scan loop changes nothing. -/
theorem meets_scanReaped
    {call : Call}
    (scanned :
      (openContract platform pruned).Meets call next (some tx) holds [] false)
    (reaped : List ReapedTask) :
    (openContract platform pruned).Meets call (scanReaped next reaped)
      (some tx) holds [] false := by
  induction reaped with
  | nil => exact ⟨fun _ => meets_giveUp rfl _ _, scanned⟩
  | cons task rest induction =>
      exact ⟨fun _ => meets_giveUp rfl _ _, induction⟩

/-- A stale row, the change the reaper makes to it, and its result. -/
def reapedEntry (now : Time) (entry : TaskRecord × Change) : ReapedTask :=
  reapedTask (entry.2.set now entry.1).status entry.1

/-- The log loop turns the changed rows into moves, one after the other. -/
theorem meets_logReaped
    {call : Call} {writes : List Write}
    (stable : (openContract platform pruned).Stable locks holds)
    (entries : List (TaskRecord × Change))
    (finished :
      ∀ moves : List Move,
        (moves.map fun move => (move.row, move.change)) = entries →
          (∀ move ∈ moves,
            move.now = now ∧
              move.message.bytes =
                reaperLogMessage reaperID
                  (reapedTask move.after.status move.row)) →
          (openContract platform pruned).Meets call next
            (some
              { startedAt := now
                writes := writes ++ moves.map fun move => .insertLog move.log
                locks })
            holds [] false) :
    (openContract platform pruned).Meets call
      (logReaped reaperID next (entries.map (reapedEntry now)))
      (some { startedAt := now, writes, locks }) holds [] false := by
  induction entries generalizing writes with
  | nil =>
      have later := finished [] rfl (by simp)
      rw [List.map_nil, List.append_nil] at later
      exact later
  | cons entry rest induction =>
      refine meets_insertLog (fun _ => rfl) stable ?_
      intro logId text encoded
      apply induction
      intro moves equal stamped
      have later :=
        finished
          (⟨entry.1, entry.2, now, logId, text⟩ :: moves)
          (by rw [List.map_cons, equal])
          (by
            intro move member
            rcases List.mem_cons.mp member with same | later
            · subst move
              exact ⟨rfl, encoded⟩
            · exact stamped move later)
      rw [List.append_assoc]
      exact later

/-- The entries of a reaper run: the dead rows, then the requeued ones. -/
def reapedEntries (stale : List TaskRecord) :
    List (TaskRecord × Change) :=
  (stale.filter Change.toDead.guard).map (fun row => (row, .toDead)) ++
    (stale.filter Change.toPending.guard).map fun row =>
      (row, .toPending)

theorem mem_reapedEntries
    {change : Change} (member : (row, change) ∈ reapedEntries stale) :
    row ∈ stale ∧ change.guard row = true ∧
      (change = .toDead ∨ change = .toPending) := by
  rw [reapedEntries, List.mem_append, List.mem_map, List.mem_map]
    at member
  rcases member with ⟨row, filtered, equal⟩ | ⟨row, filtered, equal⟩
  · cases equal
    rw [List.mem_filter] at filtered
    exact ⟨filtered.1, filtered.2, Or.inl rfl⟩
  · cases equal
    rw [List.mem_filter] at filtered
    exact ⟨filtered.1, filtered.2, Or.inr rfl⟩

/-- Every stale row is reaped exactly once. -/
theorem reapedEntries_perm (stale : List TaskRecord) :
    ((reapedEntries stale).map Prod.fst).Perm stale := by
  have complement :
      Change.toPending.guard =
        fun row : TaskRecord => !Change.toDead.guard row := by
    funext row
    simp only [Change.guard, ← decide_not, not_le]
  rw [reapedEntries, List.map_append, List.map_map, List.map_map, complement]
  simpa [Function.comp_def] using
    List.filter_append_perm Change.toDead.guard stale

theorem evalRequeueStale_eq
    (now threshold : Time) (others : Resource → Bool) (db : Database) :
    evalRequeueStale now threshold others db =
      { reply :=
          (reapedEntries (staleRows now threshold others db)).map
            (reapedEntry now)
        writes :=
          ((reapedEntries (staleRows now threshold others db)).map
            fun entry => .updateTask (entry.2.set now entry.1)) ++
            (reapedEntries (staleRows now threshold others db)).flatMap
              fun entry => entry.2.letterWrites now entry.1
        locks :=
          (staleRows now threshold others db).map fun row =>
            .task row.id } := by
  have deadLetters :
      ∀ dead : List TaskRecord,
        ((dead.map fun row => (row, Change.toDead)).flatMap
            fun entry => entry.2.letterWrites now entry.1) =
          dead.map fun row =>
            .insertDeadLetter ⟨row.id, staleDeadError, now⟩ := by
    intro dead
    rw [List.flatMap_map, List.map_eq_flatMap]
    rfl
  have noLetters :
      ∀ pending : List TaskRecord,
        ((pending.map fun row => (row, Change.toPending)).flatMap
          fun entry => entry.2.letterWrites now entry.1) = [] := by
    intro pending
    simp [Change.letterWrites]
  simp only [evalRequeueStale, reapedEntries, List.map_append,
    List.flatMap_append, deadLetters, noLetters, List.map_map,
    List.append_nil]
  rfl

theorem writesOf_eq_entries
    {moves : List Move} (stamped : ∀ move ∈ moves, move.now = now) :
    writesOf moves =
      ((moves.map fun move => (move.row, move.change)).map
          fun entry => .updateTask (entry.2.set now entry.1)) ++
        ((moves.map fun move => (move.row, move.change)).flatMap
          fun entry => entry.2.letterWrites now entry.1) ++
        moves.map fun move => .insertLog move.log := by
  have updates :
      (moves.map fun move => Write.updateTask move.after) =
        moves.map fun move =>
          Write.updateTask (move.change.set now move.row) := by
    apply List.map_congr_left
    intro move member
    rw [Move.after, stamped move member]
  have letters :
      moves.flatMap Move.letterWrites =
        moves.flatMap fun move =>
          move.change.letterWrites now move.row := by
    apply List.flatMap_congr
    intro move member
    rw [Move.letterWrites, stamped move member]
  rw [writesOf, updates, letters, List.map_map, List.flatMap_map]
  rfl

/-- The locks of a reaper run keep all its rows. -/
theorem stable_findAll {rows : List TaskRecord} :
    (openContract platform pruned).Stable (rows.map fun row => .task row.id)
      fun db => ∀ row ∈ rows, db.find row.id = some row := by
  intro before after interferes held row member
  have locked : Resource.task row.id ∈ rows.map fun row => .task row.id :=
    List.mem_map.mpr ⟨row, member, rfl⟩
  exact stable_find locked before after interferes (held row member)

/-- The moves of a reaper run are legal and on different tasks. -/
theorem reap_lawful
    {threshold : Time} {moves : List Move} {db : Database}
    (distinct : (stale.map fun row => row.id).Nodup)
    (old : ∀ row ∈ stale, row.stale now threshold = true)
    (equal :
      (moves.map fun move => (move.row, move.change)) = reapedEntries stale)
    (performs :
      ∀ move ∈ moves,
        (Call.requeueStaleRunning threshold reaperID).Performs move)
    (found : ∀ row ∈ stale, db.find row.id = some row) :
    Lawful platform db (.requeueStaleRunning threshold reaperID)
      (writesOf moves) := by
  apply Lawful.reap threshold reaperID moves ?_ ?_ performs
  · have sameIds :
        (moves.map fun move => move.row.id) =
          ((reapedEntries stale).map Prod.fst).map fun row => row.id := by
      rw [← equal, List.map_map, List.map_map]
      rfl
    rw [sameIds]
    exact ((reapedEntries_perm stale).map _).nodup_iff.mpr distinct
  · intro move member
    have inside : (move.row, move.change) ∈ reapedEntries stale := by
      rw [← equal]
      exact List.mem_map.mpr ⟨move, member, rfl⟩
    rcases mem_reapedEntries inside with ⟨onRow, guarded, reaped⟩
    refine ⟨found move.row onRow, ?_⟩
    have running : move.row.status = .running := by
      have aged := old move.row onRow
      simp only [TaskRecord.stale, decide_eq_true_eq] at aged
      exact aged.1
    rcases reaped with dead | pending
    · rw [dead] at guarded ⊢
      exact ⟨running, by simpa [Change.guard] using guarded⟩
    · rw [pending] at guarded ⊢
      exact ⟨running, by simpa [Change.guard] using guarded⟩

/-- The end of a reaper run: its logs and the commit. -/
theorem meets_reaped
    {threshold : Time} {commitContext : String}
    (distinct : (stale.map fun row => row.id).Nodup)
    (old : ∀ row ∈ stale, row.stale now threshold = true) :
    (openContract platform pruned).Meets
      (.requeueStaleRunning threshold reaperID)
      (logReaped reaperID
        (commitTx failCount commitContext
          (.count .tasksReapedTotal
            ((reapedEntries stale).map (reapedEntry now)).length
            (.done
              (.count
                (.ok ((reapedEntries stale).map (reapedEntry now)).length)))))
        ((reapedEntries stale).map (reapedEntry now)))
      (some
        { startedAt := now
          writes :=
            ((reapedEntries stale).map fun entry =>
              .updateTask (entry.2.set now entry.1)) ++
              (reapedEntries stale).flatMap fun entry =>
                entry.2.letterWrites now entry.1
          locks := stale.map fun row => .task row.id })
      (fun db => ∀ row ∈ stale, db.find row.id = some row) [] false := by
  apply meets_logReaped platform
  · exact stable_findAll platform
  · intro moves equal stamped
    have performs :
        ∀ move ∈ moves,
          (Call.requeueStaleRunning threshold reaperID).Performs
            move := by
      intro move member
      have inside : (move.row, move.change) ∈ reapedEntries stale := by
        rw [← equal]
        exact List.mem_map.mpr ⟨move, member, rfl⟩
      rcases mem_reapedEntries inside with ⟨onRow, _, reaped⟩
      refine ⟨reaped, ?_, (stamped move member).2⟩
      rw [(stamped move member).1]
      exact old move.row onRow
    have counted :
        ((reapedEntries stale).map (reapedEntry now)).length =
          moves.length := by
      rw [← equal, List.length_map, List.length_map]
    have shape :=
      writesOf_eq_entries fun move member => (stamped move member).1
    rw [equal] at shape
    rw [← shape]
    apply meets_commitTx fun _ => rfl
    · intro _ db found
      exact reap_lawful platform distinct old equal performs found
    · intro _ _
      exact Or.inl ⟨moves, rfl, rfl, performs, by rw [counted]⟩

theorem requeueStaleRunning_meets (threshold : Time)
    (reaperID : GoString) :
    (openContract platform pruned).Meets
      (.requeueStaleRunning threshold reaperID)
      (requeueStaleRunning threshold reaperID) none (fun _ => True) []
      false := by
  apply meets_openTx fun _ => rfl
  intro now
  refine ⟨fun _ _ => meets_giveUp rfl _ _, ?_⟩
  intro _ others oracle db effect _ evaluated
  cases evaluated
  rw [Engine.applyAll_nil, evalRequeueStale_eq]
  have distinct :
      ((staleRows now threshold others db).map fun row => row.id).Nodup :=
    (List.filter_sublist.map _).nodup db.ids_nodup
  have stored :
      ∀ row ∈ staleRows now threshold others db,
        db.find row.id = some row ∧ row.stale now threshold = true := by
    intro row member
    simp only [staleRows, List.mem_filter, Bool.and_eq_true] at member
    exact ⟨Database.find_of_mem member.1, member.2.1⟩
  generalize staleRows now threshold others db = stale at *
  refine ⟨?_, fun db => ∀ row ∈ stale, db.find row.id = some row,
    stable_findAll platform, fun row member => (stored row member).1, ?_⟩
  · intro write member res disturbed
    simp only [List.mem_append, List.mem_map, List.mem_flatMap]
      at member
    rcases member with ⟨entry, occurs, equal⟩ | ⟨entry, occurs, letter⟩
    · subst write
      have equal : res = .task entry.1.id := by
        rw [← entry.2.set_id now entry.1]
        exact List.mem_singleton.mp disturbed
      subst res
      simp only [List.nil_append, List.mem_map]
      exact ⟨entry.1, (mem_reapedEntries occurs).1, rfl⟩
    · unfold Change.letterWrites at letter
      split at letter <;> simp_all [openContract, Write.footprint]
  · apply meets_scanReaped
    exact meets_reaped platform distinct fun row member =>
      (stored row member).2

end Methods

end Dhara.Store
