import Dhara.Store.Runs

/-!
# Row invariants

The columns of a row are correlated: the lock columns with the status
`RUNNING`, the completion time with `COMPLETED`, the start time and the last
error with the number of attempts, and the dead letters with `DEAD`.  The
conjunction is kept by every step of the life cycle, and a completed or
canceled task is never touched again.
-/

namespace Dhara.Store

open Dhara.Transaction

variable {row : TaskRecord}

/-- The correlations between the columns of a row and its dead letters. -/
structure WellFormed (row : TaskRecord)
    (letters : List DeadLetterRecord) : Prop where
  running_iff_lockedBy : row.status = .running ↔ row.lockedBy.isSome = true
  lockedBy_iff_lockedAt :
    row.lockedBy.isSome = true ↔ row.lockedAt.isSome = true
  completed_iff_completedAt :
    row.status = .completed ↔ row.completedAt.isSome = true
  unstarted_iff_attempts : row.startedAt = none ↔ row.attempts = 0
  attempted :
    row.status = .running ∨ row.status = .completed ∨
      row.status = .dead → 1 ≤ row.attempts
  unattempted : row.attempts = 0 → row.lastError = none
  dead_lastError : row.status = .dead → row.lastError.isSome = true
  letters_length : letters.length = if row.status = .dead then 1 else 0

/-- The invariant of one task. -/
def ViewOk (view : TaskView) : Prop :=
  match view.row with
  | none => view.deadLetters = []
  | some row => WellFormed row view.deadLetters

/-! ## One step -/

/-- The transition graph of the migration. -/
inductive Transition : TaskStatus → TaskStatus → Prop where
  | claimed : Transition .pending .running
  | completed : Transition .running .completed
  | retried : Transition .running .pending
  | died : Transition .running .dead
  | canceled : Transition .pending .canceled
  | revived : Transition .dead .pending

theorem WellFormed.record
    (task : EncodedTask) (id : TaskId) (now : Time) :
    WellFormed (task.record id now) [] := by
  constructor <;> simp [EncodedTask.record]

/-- The status a worker's update starts from. -/
theorem ownedBy_running
    {workerID : Text} (owned : row.ownedBy workerID = true) :
    row.status = .running := by
  simp only [TaskRecord.ownedBy, decide_eq_true_eq] at owned
  exact owned.1

theorem due_pending
    {now : Time} (due : row.due now = true) :
    row.status = .pending := by
  simp only [TaskRecord.due, decide_eq_true_eq] at due
  exact due.1

theorem WellFormed.beat
    {letters : List DeadLetterRecord} (ok : WellFormed row letters)
    {workerID : Text} (owned : row.ownedBy workerID = true) (now : Time) :
    WellFormed ((Change.heartbeat workerID).set now row) letters := by
  have running := ownedBy_running owned
  have locked := ok.running_iff_lockedBy.mp running
  rcases ok with ⟨_, _, completed, unstarted, attempted, unattempted,
    deadError, length⟩
  constructor <;> simp_all [Change.set]

/-- Every move keeps the correlations. -/
theorem WellFormed.move
    {move : Move} {letters : List DeadLetterRecord}
    (ok : WellFormed move.row letters)
    (enabled : move.change.Enabled move.now move.row) :
    WellFormed move.after (move.lettersAfter letters) := by
  rcases move with ⟨row, change, now, logId, message⟩
  rcases ok with ⟨lockedBy, lockedAt, completed, unstarted, attempted,
    unattempted, deadError, length⟩
  cases change with
  | cancel =>
      have pending : row.status = .pending := enabled
      constructor <;>
        simp_all [Move.after, Change.set, Move.lettersAfter]
  | claim workerID =>
      have pending := due_pending enabled
      constructor <;>
        simp_all [Move.after, Change.set, Move.lettersAfter]
  | heartbeat workerID => exact enabled.elim
  | markCompleted workerID =>
      have running := ownedBy_running enabled
      constructor <;>
        simp_all [Move.after, Change.set, Move.lettersAfter]
  | markPending workerID lastError runAt =>
      have running := ownedBy_running enabled
      have started := Nat.one_le_iff_ne_zero.mp (attempted (Or.inl running))
      constructor <;>
        simp_all [Move.after, Change.set, Move.lettersAfter]
  | markDead workerID lastError =>
      have running := ownedBy_running enabled
      have started := Nat.one_le_iff_ne_zero.mp (attempted (Or.inl running))
      constructor <;>
        simp_all [Move.after, Change.set, Move.lettersAfter]
  | retryDead =>
      have dead : row.status = .dead := enabled
      constructor <;>
        simp_all [Move.after, Change.set, Move.lettersAfter]
  | toDead =>
      have running := enabled.1
      have started := Nat.one_le_iff_ne_zero.mp (attempted (Or.inl running))
      constructor <;>
        simp_all [Move.after, Change.set, Move.lettersAfter]
  | toPending =>
      have running := enabled.1
      have started := Nat.one_le_iff_ne_zero.mp (attempted (Or.inl running))
      constructor <;>
        simp_all [Move.after, Change.set, Move.lettersAfter]

/-- Every move is an edge of the transition graph. -/
theorem Move.transition
    {move : Move} (enabled : move.change.Enabled move.now move.row) :
    Transition move.row.status move.after.status := by
  rcases move with ⟨row, change, now, logId, message⟩
  cases change with
  | cancel =>
      have pending : row.status = .pending := enabled
      rw [pending]
      exact .canceled
  | claim workerID =>
      rw [due_pending enabled]
      exact .claimed
  | heartbeat workerID => exact enabled.elim
  | markCompleted workerID =>
      rw [ownedBy_running enabled]
      exact .completed
  | markPending workerID lastError runAt =>
      rw [ownedBy_running enabled]
      exact .retried
  | markDead workerID lastError =>
      rw [ownedBy_running enabled]
      exact .died
  | retryDead =>
      have dead : row.status = .dead := enabled
      rw [dead]
      exact .revived
  | toDead =>
      rw [enabled.1]
      exact .died
  | toPending =>
      rw [enabled.1]
      exact .retried

theorem ViewStep.ok
    {platform : Platform} {call : Call} {before after : TaskView}
    {wrote : Option TaskRecord}
    (step : ViewStep platform call before wrote after)
    (ok : ViewOk before) : ViewOk after := by
  cases step with
  | stay => exact ok
  | enqueue row logs letters enqueues =>
      rcases enqueues with ⟨_, _, _, encoded, now, _, _, equal⟩
      change letters = [] at ok
      rw [equal, ok]
      exact WellFormed.record encoded row.id now
  | beat workerID row now logs letters owned => exact ok.beat owned now
  | move move logs letters enabled => exact ok.move enabled

/-- A completed or canceled task makes no further step. -/
theorem ViewStep.terminal
    {platform : Platform} {call : Call} {before after : TaskView}
    {wrote : Option TaskRecord}
    (step : ViewStep platform call before wrote after)
    (found : before.row = some row)
    (terminal : row.status = .completed ∨ row.status = .canceled) :
    after = before := by
  cases step with
  | stay => rfl
  | enqueue => cases found
  | beat workerID row now logs letters owned =>
      cases found
      have running := ownedBy_running owned
      rw [running] at terminal
      simp at terminal
  | move move logs letters enabled =>
      cases found
      have edge := move.transition enabled
      rcases terminal with completed | canceled
      · rw [completed] at edge
        cases edge
      · rw [canceled] at edge
        cases edge

/-! ## Every run -/

section Runs

variable (platform : Platform)

/-- Every task of a reachable state satisfies the invariant. -/
theorem executeAll_ok (run : List Invocation) (id : TaskId) :
    ViewOk ((executeAll platform .empty run).view id) :=
  executeAll_view platform (fun _ _ _ _ step ok => step.ok ok) run rfl

/-- The view of a completed or canceled task stays as it is. -/
theorem executeAll_terminal
    (run : List Invocation) {db : Database} {id : TaskId}
    (found : db.find id = some row)
    (terminal : row.status = .completed ∨ row.status = .canceled) :
    (executeAll platform db run).view id = db.view id := by
  have kept :
      ∀ call before wrote after,
        ViewStep platform call before wrote after →
          before = db.view id → after = db.view id := by
    intro call before wrote after step same
    have stored : before.row = some row := by
      rw [same]
      exact found
    exact (step.terminal stored terminal).trans same
  exact executeAll_view platform kept run rfl

/--
In every state reached from the empty schema, every row is well formed with
its dead letters, and a completed or canceled row never changes again.
-/
theorem reachable_rows_wellFormed (run : List Invocation) :
    (∀ row ∈ (executeAll platform .empty run).tasks.rows,
      WellFormed row
        ((executeAll platform .empty run).deadLettersOf row.id)) ∧
      ∀ (later : List Invocation) (row : TaskRecord),
        row ∈ (executeAll platform .empty run).tasks.rows →
          row.status = .completed ∨ row.status = .canceled →
            row ∈ (executeAll platform .empty (run ++ later)).tasks.rows := by
  constructor
  · intro row member
    have found := Database.find_of_mem member
    have ok := executeAll_ok platform run row.id
    rw [ViewOk, Database.view_row, found] at ok
    exact ok
  · intro later row member terminal
    have found := Database.find_of_mem member
    have kept := executeAll_terminal platform later found terminal
    have stored :
        (executeAll platform .empty (run ++ later)).find row.id =
          some row := by
      rw [executeAll_append]
      exact (congrArg TaskView.row kept).trans found
    exact (Database.find_eq_some_iff.mp stored).1

end Runs

end Dhara.Store
