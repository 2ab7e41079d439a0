import Dhara.Store.Execution

/-!
# The reaper

A reaper run that meets no fault changes exactly the stale rows that nobody
else has locked.  It takes each of them out of `RUNNING`: a task with attempts
left is `PENDING` from now on, and any other is `DEAD` with a dead letter.  So
a task whose worker is gone is never lost, because the time since its last
heartbeat exceeds the threshold at some point.
-/

namespace Dhara.Store

open Dhara.Transaction

variable {stale : List TaskRecord} {row : TaskRecord} {reaperID : GoString}
  {now : Time} {db : Database}

/-- What the reaper makes of a stale row. -/
def reap (now : Time) (row : TaskRecord) : TaskRecord :=
  if row.maxRetries ≤ row.attempts then
    { row with
      status := .dead
      lastError := some staleDeadError
      lockedBy := none
      lockedAt := none
      updatedAt := now }
  else
    { row with
      status := .pending
      runAt := now
      lastError := some stalePendingError
      lockedBy := none
      lockedAt := none
      updatedAt := now }

/-- The dead letters that the reaper writes for a stale row. -/
def reapLetters (now : Time) (row : TaskRecord) : List DeadLetterRecord :=
  if row.maxRetries ≤ row.attempts then
    (reap now row).lastError.toList.map fun error => ⟨row.id, error, now⟩
  else
    []

/-- The entry of the log is the one that the reaper writes for the row. -/
structure ReapLog (now : Time) (reaperID : GoString) (row : TaskRecord)
    (entry : LogRecord) : Prop where
  taskId : entry.taskId = row.id
  status : entry.status = (reap now row).status
  createdAt : entry.createdAt = now
  message :
    entry.message.bytes =
      reaperLogMessage reaperID (reapedTask (reap now row).status row)

/--
The stale rows are reaped, each with one log entry, and everything else is as
before.
-/
structure Reaps (now : Time) (reaperID : GoString)
    (stale : List TaskRecord) (before after : Database) : Prop where
  reaped :
    ∀ row ∈ stale,
      ∃ entry,
        ReapLog now reaperID row entry ∧
          after.view row.id =
            { row := some (reap now row)
              logs := before.logsOf row.id ++ [entry]
              deadLetters :=
                before.deadLettersOf row.id ++ reapLetters now row }
  untouched :
    ∀ id, (∀ row ∈ stale, row.id ≠ id) → after.view id = before.view id

/-- The task was taken out of `RUNNING` at the given time. -/
def Rescued (now : Time) (view : TaskView) : Prop :=
  ∃ row,
    view.row = some row ∧
      ((row.status = .pending ∧ row.runAt = now) ∨
        (row.status = .dead ∧ view.deadLetters ≠ []))

/-! ## The moves of a reaper run -/

/-- The moves that the statement and the log loop of a reaper make. -/
structure ReapMoves (now : Time) (reaperID : GoString)
    (entries : List (TaskRecord × Change)) (moves : List Move) :
    Prop where
  entered : (moves.map fun move => (move.row, move.change)) = entries
  stamped :
    ∀ move ∈ moves,
      move.now = now ∧
        move.message.bytes =
          reaperLogMessage reaperID (reapedTask move.after.status move.row)

section Moves

variable {platform : Platform}

/-- A stale row is one of the entries of a reaper run. -/
theorem mem_reapedEntries_of_stale
    (member : row ∈ stale) :
    ∃ change, (row, change) ∈ reapedEntries stale := by
  have listed := (reapedEntries_perm stale).symm.subset member
  rcases List.mem_map.mp listed with ⟨⟨same, change⟩, inside, equal⟩
  cases equal
  exact ⟨change, inside⟩

/-- The change that the reaper makes to a row is the one of its attempts. -/
theorem set_of_mem_reapedEntries
    (now : Time) {change : Change}
    (member : (row, change) ∈ reapedEntries stale) :
    change.set now row = reap now row := by
  rcases mem_reapedEntries member with ⟨_, guarded, dead | pending⟩
  · subst change
    simp only [Change.guard, decide_eq_true_eq] at guarded
    rw [reap, if_pos guarded]
    rfl
  · subst change
    simp only [Change.guard, decide_eq_true_eq] at guarded
    rw [reap, if_neg (not_le.mpr guarded)]
    rfl

theorem lettersAfter_of_mem_reapedEntries
    {move : Move} (member : (move.row, move.change) ∈ reapedEntries stale)
    (letters : List DeadLetterRecord) :
    move.lettersAfter letters = letters ++ reapLetters move.now move.row := by
  rcases mem_reapedEntries member with ⟨_, guarded, dead | pending⟩
  · rw [dead] at guarded
    simp only [Change.guard, decide_eq_true_eq] at guarded
    simp only [Move.lettersAfter, dead, reapLetters, reap,
      if_pos guarded, Option.toList_some, List.map_cons, List.map_nil]
  · rw [pending] at guarded
    simp only [Change.guard, decide_eq_true_eq] at guarded
    simp only [Move.lettersAfter, pending, reapLetters,
      if_neg (not_le.mpr guarded), List.append_nil]

/-- The moves of a reaper run reap its stale rows. -/
theorem ReapMoves.reaps
    {moves : List Move}
    (made : ReapMoves now reaperID (reapedEntries stale) moves)
    (distinct : (stale.map fun row => row.id).Nodup)
    (stored : ∀ row ∈ stale, db.find row.id = some row) :
    Reaps now reaperID stale db
      ((postgres platform).applyAll (writesOf moves) db) := by
  have rows :
      (moves.map fun move => move.row) =
        (reapedEntries stale).map Prod.fst := by
    rw [← made.entered, List.map_map]
    rfl
  have apart : (moves.map fun move => move.row.id).Nodup := by
    have perm :
        (moves.map fun move => move.row.id).Perm
          (stale.map fun row => row.id) := by
      have listed := (reapedEntries_perm stale).map fun row => row.id
      rw [← rows, List.map_map] at listed
      exact listed
    exact perm.nodup_iff.mpr distinct
  constructor
  · intro row member
    rcases mem_reapedEntries_of_stale member with ⟨change, inside⟩
    rw [← made.entered, List.mem_map] at inside
    rcases inside with ⟨move, occurs, equal⟩
    cases equal
    rcases made.stamped move occurs with ⟨clock, text⟩
    have entry : (move.row, move.change) ∈ reapedEntries stale := by
      rw [← made.entered]
      exact List.mem_map.mpr ⟨move, occurs, rfl⟩
    have after : move.after = reap now move.row := by
      rw [Move.after, clock]
      exact set_of_mem_reapedEntries now entry
    refine ⟨move.log, ⟨rfl, ?_, clock, ?_⟩, ?_⟩
    · rw [← after]
      rfl
    · rw [← after]
      exact text
    · rw [view_writesOf apart occurs (stored move.row member), after,
        lettersAfter_of_mem_reapedEntries entry, clock]
  · intro id other
    apply view_applyAll_other
    apply writesOf_task
    intro move occurs
    have listed : move.row ∈ moves.map fun move => move.row :=
      List.mem_map.mpr ⟨move, occurs, rfl⟩
    rw [rows] at listed
    exact other move.row ((reapedEntries_perm stale).subset listed)

/-- A reaped task is out of `RUNNING`. -/
theorem Reaps.rescued
    {before after : Database} (reaps : Reaps now reaperID stale before after)
    (member : row ∈ stale) :
    Rescued now (after.view row.id) := by
  rcases reaps.reaped row member with ⟨entry, _, view⟩
  rw [view]
  by_cases exhausted : row.maxRetries ≤ row.attempts
  · refine ⟨_, rfl, Or.inr ⟨?_, ?_⟩⟩
    · rw [reap, if_pos exhausted]
    · simp [reapLetters, reap, exhausted]
  · refine ⟨_, rfl, Or.inl ⟨?_, ?_⟩⟩
    · rw [reap, if_neg exhausted]
    · rw [reap, if_neg exhausted]

end Moves

/-! ## The rest of the program -/

section Programs

variable {platform : Platform}

theorem run_scanReaped
    (answers : Answers) (db : Database)
    (tx : Option (Tx Write Resource Time))
    (next : StoreProgram Response) (reaped : List ReapedTask) :
    (answers.Faulty ∧
        GaveUp db
          ((postgres platform).run (scanReaped next reaped) answers
            ⟨db, tx⟩)) ∨
      ∃ count,
        (postgres platform).run (scanReaped next reaped) answers
            ⟨db, tx⟩ =
          (postgres platform).run next (answers.drop count) ⟨db, tx⟩ := by
  induction reaped generalizing answers with
  | nil =>
      simp only [scanReaped, Engine.run, scanRow]
      cases found : (answers 0).fault with
      | some fault =>
          exact Or.inl
            ⟨.of_fault found, (aborted_done rfl fault tx).gaveUp fun _ => rfl⟩
      | none =>
          refine Or.inr ⟨1, ?_⟩
          exact outcome_after_ok () _
  | cons task rest induction =>
      simp only [scanReaped, Engine.run, scanRow]
      cases found : (answers 0).fault with
      | some fault =>
          exact Or.inl
            ⟨.of_fault found, (aborted_done rfl fault tx).gaveUp fun _ => rfl⟩
      | none =>
          have scanned := induction (answers.drop 1)
          simp only [outcome_after_ok]
          rcases scanned with ⟨faulty, gaveUp⟩ | ⟨count, equal⟩
          · exact Or.inl ⟨faulty.of_drop, gaveUp⟩
          · rw [Answers.drop_drop] at equal
            exact Or.inr ⟨count + 1, equal⟩

theorem isText_reaperLogMessage
    {task : ReapedTask} (named : isText reaperID = true)
    (locked : isText task.lockedBy = true) :
    isText (reaperLogMessage reaperID task) = true := by
  have literals :
      ∀ literal ∈
          ["reaped by ", ": stale heartbeat",
            ": stale heartbeat; previous worker=", "; attempt ",
            "; attempt exhausted (", "/", ")", " requeued"],
        isText (ascii literal) = true := by
    decide +kernel
  unfold reaperLogMessage
  split <;>
    simp only [List.append_assoc, isText_append, isText_itoa, named,
      locked, literals, List.mem_cons, true_or, or_true]

/-- No write removes a task. -/
theorem stored_applyAll
    (platform : Platform) {id : TaskId} (writes : List Write)
    (stored : (db.find id).isSome = true) :
    (((postgres platform).applyAll writes db).find id).isSome = true := by
  induction writes generalizing db with
  | nil => exact stored
  | cons write rest induction =>
      rw [Engine.applyAll_cons]
      apply induction
      rcases Option.isSome_iff_exists.mp stored with ⟨row, found⟩
      rcases Database.find_eq_some_iff.mp found with ⟨member, same⟩
      have kept : ∃ row ∈ (write.apply db).tasks.rows, row.id = id := by
        cases write with
        | insertTask inserted =>
            refine ⟨row, ?_, same⟩
            simp only [Write.apply, Table.insert]
            split_ifs
            · exact List.mem_append_left _ member
            · exact member
        | updateTask updated =>
            by_cases replaced : row.identity = updated.identity
            · refine ⟨updated, ?_, ?_⟩
              · exact List.mem_map.mpr ⟨row, member, if_pos replaced⟩
              · rw [← same]
                exact (congrArg Identity.id replaced).symm
            · exact ⟨row, List.mem_map.mpr ⟨row, member, if_neg replaced⟩,
                same⟩
        | _ => exact ⟨row, member, same⟩
      rcases kept with ⟨current, inside, named⟩
      rw [← named]
      exact Option.isSome_iff_exists.mpr
        ⟨current, Database.find_of_mem inside⟩

/-- The log loop adds one entry for each move, and fails on a bad name. -/
theorem run_logReaped
    (platform : Platform) (answers : Answers) (db : Database)
    (reaperID : GoString) (next : StoreProgram Response) (now : Time)
    (writes : List Write) (locks : List Resource)
    {entries : List (TaskRecord × Change)}
    (stored :
      ∀ entry ∈ entries,
        (((postgres platform).applyAll writes db).find
          entry.1.id).isSome = true) :
    let outcome :=
      (postgres platform).run
        (logReaped reaperID next (entries.map (reapedEntry now)))
        answers ⟨db, some { startedAt := now, writes, locks }⟩
    ((answers.Faulty ∨ isText reaperID = false) ∧ GaveUp db outcome) ∨
      ∃ count moves,
        ReapMoves now reaperID entries moves ∧
          outcome =
            (postgres platform).run next (answers.drop count)
              ⟨db,
                some
                  { startedAt := now
                    writes :=
                      writes ++ moves.map fun move => .insertLog move.log
                    locks }⟩ := by
  induction entries generalizing answers writes with
  | nil =>
      refine Or.inr ⟨0, [], ⟨rfl, by simp⟩, ?_⟩
      simp only [List.map_nil, List.append_nil]
      rfl
  | cons entry rest induction =>
      have usable :
          ({ startedAt := now, writes, locks } :
            Tx Write Resource Time).failed = false :=
        rfl
      have locked : isText (reapedEntry now entry).lockedBy = true := by
        simp only [reapedEntry, reapedTask]
        cases entry.1.lockedBy with
        | none => rfl
        | some worker => exact worker.valid
      rcases run_sendTx answers db failCount usable with
        ⟨cause, aborted⟩ | ⟨effect, _, evaluated, equal⟩
      · refine Or.inl ⟨?_, aborted.gaveUp fun _ => rfl⟩
        rcases cause with fault | refused
        · exact Or.inl ⟨0, fault⟩
        · right
          by_contra named
          rw [Bool.not_eq_false] at named
          exact not_refused_insertLog
            (isText_reaperLogMessage named locked)
            (stored entry List.mem_cons_self) refused
      · simp only [eval, bind_eq_ok_iff, toText_eq_ok_iff] at evaluated
        rcases evaluated with ⟨text, encoded, evaluated⟩
        have logged := evalReferencing_cases evaluated
        subst effect
        simp only [List.append_nil] at equal
        rw [List.map_cons, logReaped, insertLog, equal]
        have stillStored :
            ∀ later ∈ rest, ∀ entry,
              (((postgres platform).applyAll
                (writes ++ [.insertLog entry]) db).find
                  later.1.id).isSome = true := by
          intro later member entry
          rw [Engine.applyAll_append]
          exact stored later (List.mem_cons_of_mem _ member)
        rcases induction (answers.drop 1) _
            (fun later member => stillStored later member _) with
          ⟨cause, gaveUp⟩ | ⟨count, moves, made, later⟩
        · refine Or.inl ⟨?_, gaveUp⟩
          exact cause.imp Answers.Faulty.of_drop id
        · refine Or.inr
            ⟨count + 1,
              ⟨entry.1, entry.2, now, (answers 0).oracle.logId, text⟩ ::
                moves, ⟨?_, ?_⟩, ?_⟩
          · rw [List.map_cons, made.entered]
          · intro move member
            rcases List.mem_cons.mp member with same | inside
            · subst move
              exact ⟨rfl, encoded⟩
            · exact made.stamped move inside
          · rw [later, Answers.drop_drop]
            simp only [List.append_assoc, List.singleton_append,
              List.map_cons]
            rfl

end Programs

/-! ## The call -/

section Calls

variable {platform : Platform} {threshold : Time}

theorem stale_of_lockedAt
    {lockedAt : Time} (running : row.status = .running)
    (locked : row.lockedAt = some lockedAt)
    (late : lockedAt + threshold < now) :
    row.stale now threshold = true := by
  have old : lockedAt < now - threshold := Int.lt_sub_right_of_add_lt late
  simp [TaskRecord.stale, running, locked, old]

/-- The rest of a reaper run after its statement. -/
theorem run_reaped
    (answers : Answers) (db : Database) {locks : List Resource}
    (stored : ∀ row ∈ stale, db.find row.id = some row) :
    let reaped := (reapedEntries stale).map (reapedEntry now)
    let outcome :=
      (postgres platform).run
        (scanReaped
          (logReaped reaperID
            (commitTx failCount "commit requeue stale running"
              (.count .tasksReapedTotal reaped.length
                (.done (.count (.ok reaped.length)))))
            reaped)
          reaped)
        answers
        ⟨db,
          some
            { startedAt := now
              writes :=
                ((reapedEntries stale).map fun entry =>
                  .updateTask (entry.2.set now entry.1)) ++
                  (reapedEntries stale).flatMap fun entry =>
                    entry.2.letterWrites now entry.1
              locks }⟩
    ((answers.Faulty ∨ isText reaperID = false) ∧
        GaveUp db outcome) ∨
      ∃ moves,
        ReapMoves now reaperID (reapedEntries stale) moves ∧
          outcome.result = .count (.ok stale.length) ∧
          outcome.link.db =
            (postgres platform).applyAll (writesOf moves) db := by
  intro reaped outcome
  have counted : reaped.length = stale.length := by
    rw [List.length_map, ← List.length_map Prod.fst,
      (reapedEntries_perm stale).length_eq]
  rcases run_scanReaped answers db _ _ reaped with
    ⟨faulty, gaveUp⟩ | ⟨scans, scanned⟩
  · exact Or.inl ⟨Or.inl faulty, gaveUp⟩
  change outcome = _ at scanned
  have present :
      ∀ writes, ∀ entry ∈ reapedEntries stale,
        (((postgres platform).applyAll writes db).find
          entry.1.id).isSome = true := by
    rintro writes ⟨row, change⟩ member
    apply stored_applyAll
    rw [stored row (mem_reapedEntries member).1]
    rfl
  rcases run_logReaped platform (answers.drop scans) db reaperID _ now _
      locks (present _) with
    ⟨cause, gaveUp⟩ | ⟨sent, moves, made, logged⟩
  · refine Or.inl ⟨cause.imp Answers.Faulty.of_drop id, ?_⟩
    rw [scanned]
    exact gaveUp
  have shape :=
    writesOf_eq_entries fun move member => (made.stamped move member).1
  rw [made.entered] at shape
  rw [← shape] at logged
  rcases run_commitTx ((answers.drop scans).drop sent) db failCount
      (show
        ({ startedAt := now, writes := writesOf moves, locks } :
          Tx Write Resource Time).failed = false
        from rfl) with
    ⟨fault, aborted⟩ | ⟨_, committed⟩
  · refine Or.inl ⟨Or.inl ?_, ?_⟩
    · exact Answers.Faulty.of_drop (Answers.Faulty.of_drop ⟨0, fault⟩)
    · rw [scanned, logged]
      exact aborted.gaveUp fun _ => rfl
  · have final := (scanned.trans logged).trans committed
    refine Or.inr ⟨moves, made, ?_, ?_⟩
    · rw [final, ← counted]
      rfl
    · rw [final]
      rfl

theorem staleRows_distinct
    (now threshold : Time) (others : Resource → Bool) (db : Database) :
    ((staleRows now threshold others db).map fun row => row.id).Nodup :=
  (List.filter_sublist.map _).nodup db.ids_nodup

theorem find_of_mem_staleRows
    {others : Resource → Bool}
    (member : row ∈ staleRows now threshold others db) :
    db.find row.id = some row :=
  Database.find_of_mem (List.mem_filter.mp member).1

/--
A reaper run gives up, because a round trip is answered by a fault or because
the name of the reaper cannot be stored, or it reaps the stale rows.
-/
theorem requeueStaleRunning_runs
    (answers : Answers) (db : Database) (threshold : Time)
    (reaperID : GoString) :
    let outcome :=
      execute platform ⟨.requeueStaleRunning threshold reaperID, answers⟩ db
    let stale :=
      staleRows (answers 0).clock threshold (answers 1).others db
    ((answers.Faulty ∨ isText reaperID = false) ∧
        GaveUp db outcome) ∨
      ∃ moves,
        ReapMoves (answers 0).clock reaperID (reapedEntries stale)
            moves ∧
          outcome.result = .count (.ok stale.length) ∧
          outcome.link.db =
            (postgres platform).applyAll (writesOf moves) db := by
  intro outcome stale
  rcases run_openTx answers db failCount _ with
    ⟨faulty, aborted⟩ | ⟨_, opened⟩
  · exact Or.inl ⟨Or.inl faulty, aborted.gaveUp fun _ => rfl⟩
  change outcome = _ at opened
  rcases run_exec platform (answers.drop 1) db (.requeueStale threshold)
      _ (opened_usable (answers 0).clock) with
    ⟨fault, raised, refused⟩ | ⟨effect, _, evaluated, sent⟩
  · refine Or.inl ⟨Or.inl ?_, ?_⟩
    · rcases raised.cause with fault | ⟨fault, impossible⟩
      · exact Answers.Faulty.of_drop ⟨0, fault⟩
      · cases impossible
    · rw [opened, refused]
      exact (aborted_done rfl fault _).gaveUp fun _ => rfl
  · cases evaluated
    have final := opened.trans sent
    rw [Engine.applyAll_nil, evalRequeueStale_eq] at final
    rw [final]
    rcases run_reaped ((answers.drop 1).drop 1) db
        (fun row member => find_of_mem_staleRows member) with
      ⟨cause, gaveUp⟩ | reaped
    · exact Or.inl
        ⟨cause.imp_left fun faulty => faulty.of_drop.of_drop, gaveUp⟩
    · exact Or.inr reaped

/-- A reaper run gives up, or it reaps exactly the stale rows. -/
theorem requeueStaleRunning_reaps
    (platform : Platform) (answers : Answers) (db : Database)
    (threshold : Time) (reaperID : GoString) :
    let outcome :=
      execute platform ⟨.requeueStaleRunning threshold reaperID, answers⟩ db
    let stale :=
      staleRows (answers 0).clock threshold (answers 1).others db
    ((answers.Faulty ∨ isText reaperID = false) ∧
        GaveUp db outcome) ∨
      (outcome.result = .count (.ok stale.length) ∧
        Reaps (answers 0).clock reaperID stale db outcome.link.db ∧
        (stale = [] → outcome.link.db = db)) := by
  intro outcome stale
  rcases requeueStaleRunning_runs answers db threshold reaperID with
    gaveUp | ⟨moves, made, result, published⟩
  · exact Or.inl gaveUp
  · refine Or.inr ⟨result, ?_, ?_⟩
    · rw [published]
      exact made.reaps (staleRows_distinct _ _ _ _)
        fun row member => find_of_mem_staleRows member
    · intro none
      have silent : moves = [] := by
        have entered := made.entered
        rw [show staleRows _ _ _ _ = [] from none] at entered
        exact List.map_eq_nil_iff.mp entered
      rw [published, silent]
      rfl

/--
A reaper run that starts later than the threshold after the last heartbeat, at
a moment when nobody else has locked the row, rescues the task.  It gives up
only if a round trip is answered by a fault, or if the name of the reaper
cannot be stored.
-/
theorem requeueStaleRunning_rescues
    (answers : Answers) {id : TaskId} {lockedAt : Time}
    (found : db.find id = some row) (running : row.status = .running)
    (locked : row.lockedAt = some lockedAt)
    (late : lockedAt + threshold < (answers 0).clock)
    (free : (answers 1).others (.task id) = false) :
    let outcome :=
      execute platform ⟨.requeueStaleRunning threshold reaperID, answers⟩ db
    ((answers.Faulty ∨ isText reaperID = false) ∧
        GaveUp db outcome) ∨
      ((∃ count, outcome.result = .count (.ok count)) ∧
        Rescued (answers 0).clock (outcome.link.db.view id)) := by
  intro outcome
  have sameId := Database.find_id found
  have member :
      row ∈ staleRows (answers 0).clock threshold (answers 1).others db := by
    simp only [staleRows, List.mem_filter, Bool.and_eq_true,
      Bool.not_eq_true']
    refine ⟨(Database.find_eq_some_iff.mp found).1,
      stale_of_lockedAt running locked late, ?_⟩
    rw [sameId]
    exact free
  rcases requeueStaleRunning_reaps platform answers db threshold
      reaperID with
    gaveUp | ⟨result, reaps, _⟩
  · exact Or.inl gaveUp
  · refine Or.inr ⟨⟨_, result⟩, ?_⟩
    rw [← sameId]
    exact reaps.rescued member

theorem reap_status_ne_running (now : Time) (row : TaskRecord) :
    (reap now row).status ≠ .running := by
  rw [reap]
  split_ifs
  · exact fun same => TaskStatus.noConfusion same
  · exact fun same => TaskStatus.noConfusion same

/-- After a reaper run no row that it could lock is stale. -/
theorem Reaps.staleRows_eq_nil
    {others later : Resource → Bool} {before after : Database}
    (reaps :
      Reaps now reaperID (staleRows now threshold others before) before after)
    (locked : ∀ id, others (.task id) = true → later (.task id) = true) :
    staleRows now threshold later after = [] := by
  rw [List.eq_nil_iff_forall_not_mem]
  intro row member
  have stored := find_of_mem_staleRows member
  simp only [staleRows, List.mem_filter, Bool.and_eq_true,
    Bool.not_eq_true'] at member
  rcases member with ⟨_, old, free⟩
  by_cases reaped :
      ∃ source ∈ staleRows now threshold others before, source.id = row.id
  · rcases reaped with ⟨source, inside, same⟩
    rcases reaps.reaped source inside with ⟨entry, _, view⟩
    have current := congrArg TaskView.row view
    rw [same, Database.view_row, stored] at current
    cases current
    simp only [TaskRecord.stale, decide_eq_true_eq] at old
    exact reap_status_ne_running now source old.1
  · have view :=
      reaps.untouched row.id fun other inside same =>
        reaped ⟨other, inside, same⟩
    have found := congrArg TaskView.row view
    rw [Database.view_row, Database.view_row, stored] at found
    apply reaped
    refine ⟨row, ?_, rfl⟩
    simp only [staleRows, List.mem_filter, Bool.and_eq_true,
      Bool.not_eq_true']
    refine ⟨(Database.find_eq_some_iff.mp found.symm).1, old, ?_⟩
    by_contra held
    rw [Bool.not_eq_false] at held
    rw [locked row.id held] at free
    cases free

/--
A reaper run gives up and changes nothing, because a round trip is answered by
a fault or because its name cannot be stored, or it reaps exactly the stale
rows that are not locked by others and returns their number.  A second run at
the same time then changes nothing, as long as the rows that were locked
still are.
-/
theorem reaper_step_exact
    (platform : Platform) (answers : Answers) (db : Database)
    (threshold : Time) (reaperID : GoString) :
    let outcome :=
      execute platform ⟨.requeueStaleRunning threshold reaperID, answers⟩ db
    let stale :=
      staleRows (answers 0).clock threshold (answers 1).others db
    ((answers.Faulty ∨ isText reaperID = false) ∧
        GaveUp db outcome) ∨
      (outcome.result = .count (.ok stale.length) ∧
        Reaps (answers 0).clock reaperID stale db outcome.link.db ∧
        ∀ again another,
          (again 0).clock = (answers 0).clock →
          (∀ id,
            (answers 1).others (.task id) = true →
              (again 1).others (.task id) = true) →
          (execute platform
              ⟨.requeueStaleRunning threshold another, again⟩
              outcome.link.db).link.db = outcome.link.db) := by
  intro outcome stale
  rcases requeueStaleRunning_reaps platform answers db threshold
      reaperID with
    gaveUp | ⟨result, reaps, _⟩
  · exact Or.inl gaveUp
  · refine Or.inr ⟨result, reaps, ?_⟩
    intro again another sameClock locked
    rcases requeueStaleRunning_reaps platform again outcome.link.db
        threshold another with
      ⟨_, gaveUp⟩ | ⟨_, _, unchanged⟩
    · exact gaveUp.same
    · apply unchanged
      rw [sameClock]
      exact reaps.staleRows_eq_nil locked

end Calls

end Dhara.Store
