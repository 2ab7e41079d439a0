import Dhara.Store.EnqueueRefinement
import Dhara.Store.Execution

/-!
# `Create` on its own

One `Create`, from its first round trip to its last.  It fails, it inserts a
row for the task, or it finds a row with the key of the task.  There is a
fourth case: `insertTask` does not look at a fault of the `INSERT`, and if the
fault is one of the driver, the commit after it may succeed, so that a task is
reported as created that was not inserted.
-/

namespace Dhara.Store

open Dhara.Transaction

variable {platform : Platform} {db : Database} {task : TaskRow}
  {answers : Answers} {row : TaskRecord}

/-- The end of `Create`. -/
def createEnd (task : TaskRow) (result : Except StoreError Bool) :
    StoreProgram Response :=
  match result with
  | .error error => .done (.created task (.error error))
  | .ok created =>
      commitTx (fun error => .created task (.error error)) "commit tx"
        (.done (.created task (.ok created)))

/-- `Create` failed and left the committed state alone. -/
structure CreateFails (db : Database) (outcome : StoreOutcome Response) :
    Prop where
  same : outcome.link.db = db
  error : ∃ returned error, outcome.result = .created returned (.error error)

/-- What `Create` does on its own. -/
inductive Creation (platform : Platform) (task : TaskRow)
    (answers : Answers) (db : Database)
    (outcome : StoreOutcome Response) : Prop
  | failed (fails : CreateFails db outcome)
  | inserted (row : TaskRecord)
      (result : outcome.result = .created (scanInserted task row) (.ok true))
      (stored :
        outcome.link.db = (postgres platform).applyAll [.insertTask row] db)
      (free : db.Free row) (requested : task.Fits → task.Requests row)
  | found (row : TaskRecord) (same : outcome.link.db = db)
      (stored : row ∈ db.tasks.rows) (requests : task.Requests row)
  | swallowed (payloadHash : GoString) (fault : Fault)
      (same : outcome.link.db = db)
      (raised :
        Raised platform (answers 1)
          (.insertTask (task.insertArgs payloadHash)) db
          { startedAt := (answers 0).clock } fault)
      (driver : fault.driverSide = true)
      (committed : (answers 2).fault = none)

/-- The end of `Create` reports what it has committed, or fails. -/
theorem run_createEnd
    (task : TaskRow) (created : Bool) (answers : Answers)
    (tx : Tx Write Resource Time) :
    CreateFails db
        ((postgres platform).run (createEnd task (.ok created)) answers
          ⟨db, some tx⟩) ∨
      tx.failed = false ∧ (answers 0).fault = none ∧
        ((postgres platform).run (createEnd task (.ok created)) answers
            ⟨db, some tx⟩).result = .created task (.ok created) ∧
          ((postgres platform).run (createEnd task (.ok created)) answers
            ⟨db, some tx⟩).link.db =
              (postgres platform).applyAll tx.writes db := by
  simp only [createEnd, commitTx, Engine.run, Engine.commitTx]
  cases (answers 0).fault with
  | some fault => exact Or.inl ⟨rfl, _, _, rfl⟩
  | none =>
      cases tx.failed with
      | true => exact Or.inl ⟨rfl, _, _, rfl⟩
      | false => exact Or.inr ⟨rfl, rfl, rfl, rfl⟩

/-- A replay fails or finds a stored row with the requested key. -/
theorem run_replayTask
    (payloadHash : GoString) (answers : Answers) (startedAt : Time) :
    CreateFails db
        ((postgres platform).run (replayTask task payloadHash createEnd)
          answers ⟨db, some { startedAt }⟩) ∨
      ((postgres platform).run (replayTask task payloadHash createEnd)
          answers ⟨db, some { startedAt }⟩).link.db = db ∧
        ∃ row ∈ db.tasks.rows, task.Requests row := by
  cases present : task.idempotencyKey with
  | none =>
      simp only [replayTask, present]
      exact Or.inl ⟨rfl, _, _, rfl⟩
  | some key =>
      simp only [replayTask, present, getByTypeAndIdempotencyKey]
      rcases run_exec platform answers db
          (.getByTypeAndIdempotencyKey task.type key) _
          (opened_usable startedAt) with
        ⟨fault, _, runs⟩ | ⟨effect, _, evaluated, runs⟩
      · rw [runs]
        exact Or.inl ⟨rfl, _, _, rfl⟩
      · simp only [Engine.applyAll_nil, eval, bind_eq_ok_iff,
          map_eq_ok_iff] at evaluated
        rcases evaluated with ⟨type, typed, text, keyTyped, equal⟩
        rw [runs, ← equal]
        cases found : db.findKey type text with
        | none => exact Or.inl ⟨rfl, _, _, rfl⟩
        | some row =>
            have requests := requests_of_findKey present typed keyTyped found
            have stored := (Database.findKey_eq_some_iff.mp found).1
            dsimp only
            split_ifs
            · rcases run_createEnd (scanHashed row) false
                  (answers.drop 1) { startedAt } with
                fails | ⟨_, _, _, kept⟩
              · exact Or.inl fails
              · exact Or.inr ⟨kept, row, stored, requests⟩
            · exact Or.inl ⟨rfl, _, _, rfl⟩

/-- Every `Create` on its own. -/
theorem execute_create
    (platform : Platform) (task : TaskRow) (answers : Answers)
    (db : Database) :
    Creation platform task answers db
      (execute platform ⟨.create task, answers⟩ db) := by
  have program :
      (Call.create task).program platform =
        openTx (fun error => .created task (.error error))
          (insertTask platform task createEnd) :=
    rfl
  rw [execute, program]
  rcases run_openTx answers db
      (fun error => .created task (.error error)) _ with
    ⟨_, aborted⟩ | ⟨_, opened⟩
  · rcases aborted.error with ⟨error, _, result⟩
    exact .failed ⟨aborted.same, task, error, result⟩
  · rw [opened, insertTask]
    cases hashPayload platform task.payload with
    | none => exact .failed ⟨rfl, _, _, rfl⟩
    | some payloadHash =>
        rcases run_exec platform (answers.drop 1) db
            (.insertTask (task.insertArgs payloadHash)) _
            (opened_usable (answers 0).clock) with
          ⟨fault, raised, runs⟩ | ⟨effect, _, evaluated, runs⟩
        · rw [runs]
          rcases run_createEnd task true ((answers.drop 1).drop 1)
              { startedAt := (answers 0).clock
                failed := !fault.driverSide } with
            fails | ⟨usable, calm, _, same⟩
          · exact .failed ⟨fails.same, fails.error⟩
          · exact .swallowed payloadHash fault same raised
              (by simpa using usable) calm
        · rw [runs]
          rcases evalInsert_cases evaluated with
            ⟨encoded, bound, ⟨_, equal⟩ | ⟨unused, absent, equal⟩⟩
          · subst effect
            rcases run_replayTask payloadHash ((answers.drop 1).drop 1)
                (answers 0).clock with
              fails | ⟨same, row, stored, requests⟩
            · exact .failed fails
            · exact .found row same stored requests
          · subst effect
            rcases run_createEnd (scanInserted task _) true
                ((answers.drop 1).drop 1) _ with
              fails | ⟨_, _, result, stored⟩
            · exact .failed ⟨fails.same, fails.error⟩
            · exact .inserted _ result stored
                (free_record unused absent) fun fits =>
                  requests_record fits bound _ _

/-! ## A row with the same key -/

/-- A stored row with the type and the key of the task. -/
structure Holds (db : Database) (task : TaskRow) (row : TaskRecord) :
    Prop where
  stored : row ∈ db.tasks.rows
  requested : task.Requests row
  keyed : task.idempotencyKey ≠ none

/-- The row is found by its key. -/
theorem Holds.findKey
    (holds : Holds db task row) :
    ∃ key text,
      task.idempotencyKey = some key ∧
        toText task.type = .ok row.type ∧ toText key = .ok text ∧
          row.idempotencyKey = some text ∧
            db.findKey row.type text = some row := by
  rcases Option.ne_none_iff_exists'.mp holds.keyed with ⟨key, present⟩
  have named := holds.requested.2
  rw [present] at named
  rcases Option.map_eq_some_iff.mp named with ⟨text, keyed, bytes⟩
  exact ⟨key, text, present,
    toText_eq_ok_iff.mpr holds.requested.1,
    toText_eq_ok_iff.mpr bytes, keyed,
    Database.findKey_eq_some_iff.mpr ⟨holds.stored, rfl, keyed⟩⟩

theorem Holds.conflicts
    (holds : Holds db task row) (fits : task.Fits)
    {payloadHash : GoString} {encoded : EncodedTask}
    (bound : (task.insertArgs payloadHash).encode platform = .ok encoded) :
    encoded.conflicts db = true := by
  rcases holds.findKey with ⟨key, text, present, typed, keyTyped, _, found⟩
  rcases InsertArgs.encode_columns bound with
    ⟨⟨type, bytes, column⟩, keyed, _⟩
  change toText task.type = .ok type at bytes
  rw [typed] at bytes
  cases bytes
  have short : row.type.bytes.length ≤ 100 := by
    rw [holds.requested.1]
    exact fits.1
  rw [varchar_of_length short] at column
  change encodeKey task.idempotencyKey = .ok encoded.idempotencyKey
    at keyed
  rw [present] at keyed
  rcases encodeKey_some keyed with ⟨other, stored, same, fitted, equal⟩
  rw [keyTyped] at same
  cases same
  have shortKey : text.bytes.length ≤ 255 := by
    rw [toText_eq_ok_iff.mp keyTyped]
    exact fits.2 key present
  rw [varchar_of_length shortKey] at fitted
  cases fitted
  rw [EncodedTask.conflicts, equal, Option.any_some,
    ← Except.ok.inj column, found]
  rfl

/-- A conflict is one with a row of the same type and key. -/
theorem Holds.of_conflicts
    {payloadHash : GoString} {encoded : EncodedTask} (fits : task.Fits)
    (bound : (task.insertArgs payloadHash).encode platform = .ok encoded)
    (conflict : encoded.conflicts db = true) :
    ∃ row, Holds db task row := by
  rcases conflicts_keyed bound conflict with ⟨key, present⟩
  rcases encode_of_fits fits bound with ⟨typed, keyed⟩
  rcases keyed key present with ⟨text, keyTyped, stored⟩
  simp only [EncodedTask.conflicts, stored, Option.any_some] at conflict
  rcases Option.isSome_iff_exists.mp conflict with ⟨row, found⟩
  exact ⟨row, (Database.findKey_eq_some_iff.mp found).1,
    requests_of_findKey present typed keyTyped found, by simp [present]⟩

/--
`Create` on a state with a row of the same type and key, without faults: the
hash of the payload is compared with that of the row.
-/
theorem execute_create_held
    (quiet : ∀ position, (answers position).fault = none)
    (holds : Holds db task row) (fits : task.Fits)
    (accepted :
      ∀ payloadHash, hashPayload platform task.payload = some payloadHash →
        ∃ encoded,
          (task.insertArgs payloadHash).encode platform = .ok encoded) :
    (execute platform ⟨.create task, answers⟩ db).result =
      match hashPayload platform task.payload with
      | none => .created task (.error .invalidPayload)
      | some payloadHash =>
          if row.payloadHash = payloadHash then
            .created (scanHashed row) (.ok false)
          else
            .created task (.error .taskConflict) := by
  let fail := fun error => Response.created task (.error error)
  rw [execute]
  change ((postgres platform).run (create platform task) answers
    ⟨db, none⟩).result = _
  rcases run_openTx answers db fail _ with
    ⟨⟨position, disturbed⟩, _⟩ | ⟨_, opened⟩
  · exact (disturbed (quiet position)).elim
  · rw [create, opened, createTx, insertTask]
    cases hashed : hashPayload platform task.payload with
    | none => rfl
    | some payloadHash =>
        rcases accepted payloadHash hashed with ⟨encoded, bound⟩
        rcases holds.findKey with
          ⟨key, text, present, typed, keyTyped, _, found⟩
        have skipped :
            eval platform (answers 0).clock (answers 1).others
                (answers 1).oracle
                (.insertTask (task.insertArgs payloadHash))
                ((postgres platform).applyAll [] db) =
              .ok { reply := none } := by
          change evalInsert platform _ _ _ db = _
          rw [evalInsert, bound, Except.bind,
            if_pos (holds.conflicts fits bound)]
        have existing :
            eval platform (answers 0).clock (answers 2).others
                (answers 2).oracle
                (.getByTypeAndIdempotencyKey task.type key)
                ((postgres platform).applyAll [] db) =
              .ok { reply := some row } := by
          simp only [eval, typed, keyTyped, Except.bind, Except.map,
            Engine.applyAll_nil, found]
        dsimp only
        rw [run_exec_answered rfl (quiet 1) skipped]
        dsimp only
        rw [replayTask, present]
        dsimp only
        rw [getByTypeAndIdempotencyKey,
          run_exec_answered rfl (quiet 2) existing]
        dsimp only
        change ((postgres platform).run
          (if row.payloadHash = payloadHash then _ else _) _ _).result = _
        split_ifs with same
        · rcases run_commitTx (((answers.drop 1).drop 1).drop 1) db
              (fun error => .created (scanHashed row) (.error error))
              (opened_usable (answers 0).clock) with
            ⟨disturbed, _⟩ | ⟨_, runs⟩
          · exact (disturbed (quiet 3)).elim
          · exact congrArg Outcome.result runs
        · rfl

end Dhara.Store
