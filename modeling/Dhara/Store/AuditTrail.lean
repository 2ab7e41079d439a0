import Dhara.Store.Invariants
import Mathlib.Data.List.Chain
import Mathlib.Data.List.DropRight

/-!
# The audit trail

Every transition of a task appends one log entry with its new status, in the
transaction that makes the transition.  The trail of a task is therefore a
path of the transition graph that ends in the current status, and the
`RUNNING` entries since the last manual retry are its attempts.
-/

namespace Dhara.Store

open Dhara.Transaction

/-- The entry that `RetryDead` writes. -/
def LogRecord.manualRetry (entry : LogRecord) : Bool :=
  entry.status = .pending ∧
    entry.message.bytes = ascii "manual retry requested"

/-- The statuses of a trail, with the initial one in front. -/
def path (logs : List LogRecord) : List TaskStatus :=
  .pending :: logs.map fun entry => entry.status

/-- The number of `RUNNING` entries after the last manual retry. -/
def runsSinceRetry (logs : List LogRecord) : Nat :=
  (logs.rtakeWhile fun entry => !LogRecord.manualRetry entry).countP
    fun entry => entry.status = .running

/-- The trail of a row is a path to its status and counts its attempts. -/
structure Trail (row : TaskRecord) (logs : List LogRecord) : Prop where
  chain : (path logs).IsChain Transition
  last : (path logs).getLast? = some row.status
  runs : runsSinceRetry logs = row.attempts

/-! ## One step -/

/-- The entries of manual retries are those of `RetryDead`. -/
theorem manualRetry_iff
    {call : Call} {move : Move} (performs : call.Performs move) :
    LogRecord.manualRetry move.log = true ↔ move.change = .retryDead := by
  have kind := performs.makes
  have started :
      ∀ {bytes rest : GoString} {first : UInt8},
        bytes = first :: rest → first ≠ 109 →
          bytes ≠ ascii "manual retry requested" := by
    intro bytes rest first equal different same
    rw [equal] at same
    exact different (List.cons.inj same).1
  simp only [LogRecord.manualRetry, decide_eq_true_eq]
  constructor
  · rintro ⟨pending, message⟩
    change move.message.bytes = _ at message
    change move.after.status = _ at pending
    cases changed : move.change with
    | retryDead => rfl
    | markPending workerID lastError runAt =>
        rw [changed] at kind
        cases call with
        | markPending task workerID lastError nextRunAt =>
            exact absurd message (started performs.2.2 (by decide))
        | _ => cases kind
    | toPending =>
        rw [changed] at kind
        cases call with
        | requeueStaleRunning threshold reaperID =>
            have logged := performs.2.2
            rw [pending] at logged
            exact absurd message (started logged (by decide))
        | _ => cases kind
    | heartbeat workerID =>
        rw [changed] at kind
        cases call <;> cases kind
    | _ =>
        rw [Move.after, changed] at pending
        cases pending
  · intro changed
    rw [changed] at kind
    cases call with
    | retryDead taskID =>
        refine ⟨?_, performs.2.2⟩
        rw [Move.log, Move.after, changed]
        rfl
    | _ => cases kind

theorem path_concat (logs : List LogRecord) (entry : LogRecord) :
    path (logs ++ [entry]) = path logs ++ [entry.status] := by
  simp [path]

/-- One more entry, by whether it is a manual retry. -/
theorem runsSinceRetry_concat (logs : List LogRecord) (entry : LogRecord) :
    runsSinceRetry (logs ++ [entry]) =
      if LogRecord.manualRetry entry then 0
      else runsSinceRetry logs +
        if entry.status = .running then 1 else 0 := by
  unfold runsSinceRetry
  by_cases retried : LogRecord.manualRetry entry = true
  · rw [List.rtakeWhile_concat_neg _ _ _ (by simp [retried]),
      if_pos retried]
    rfl
  · rw [List.rtakeWhile_concat_pos _ _ _ (by simpa using retried),
      if_neg retried, List.countP_append]
    simp [List.countP_singleton]

/-- The attempts after a move, by what it logs. -/
theorem Move.after_attempts
    {move : Move} (enabled : move.change.Enabled move.now move.row) :
    move.after.attempts =
      if move.change = .retryDead then 0
      else move.row.attempts +
        if move.after.status = .running then 1 else 0 := by
  rcases move with ⟨row, change, now, logId, message⟩
  cases change with
  | heartbeat workerID => exact enabled.elim
  | _ => simp [Move.after, Change.set]

theorem Trail.move
    {call : Call} {move : Move} {logs : List LogRecord}
    (trail : Trail move.row logs)
    (enabled : move.change.Enabled move.now move.row)
    (performs : call.Performs move) :
    Trail move.after (logs ++ [move.log]) := by
  constructor
  · rw [path_concat]
    apply trail.chain.append (List.isChain_singleton _)
    intro last isLast first isFirst
    rw [trail.last] at isLast
    cases isLast
    cases isFirst
    exact move.transition enabled
  · rw [path_concat, List.getLast?_concat]
    rfl
  · rw [runsSinceRetry_concat, move.after_attempts enabled, trail.runs]
    simp only [manualRetry_iff performs]
    rfl

/-- The invariant of one task: without a row there is no trail. -/
def TrailOk (view : TaskView) : Prop :=
  match view.row with
  | none => view.logs = []
  | some row => Trail row view.logs

theorem ViewStep.trail
    {platform : Platform} {call : Call} {before after : TaskView}
    {wrote : Option TaskRecord}
    (step : ViewStep platform call before wrote after)
    (ok : TrailOk before) : TrailOk after := by
  cases step with
  | stay => exact ok
  | enqueue row logs letters enqueues =>
      rcases enqueues with ⟨_, _, _, encoded, now, _, _, equal⟩
      change logs = [] at ok
      rw [equal, ok]
      exact ⟨List.isChain_singleton _, rfl, rfl⟩
  | beat workerID row now logs letters owned =>
      exact ⟨ok.chain, ok.last, ok.runs⟩
  | move move logs letters enabled performs =>
      exact Trail.move ok enabled performs

/-! ## Every run -/

/--
In every reachable state the trail of every task is a path of the transition
graph from `PENDING` to its current status, and its `RUNNING` entries since
the last manual retry are the attempts of the row.
-/
theorem audit_trail_refines_lifecycle
    (platform : Platform) (run : List Invocation) :
    ∀ row ∈ (executeAll platform .empty run).tasks.rows,
      Trail row ((executeAll platform .empty run).logsOf row.id) := by
  intro row member
  have start : TrailOk (Database.empty.view row.id) := rfl
  have ok :=
    executeAll_view platform (fun _ _ _ _ step ok => step.trail ok) run start
  rw [TrailOk, Database.view_row, Database.find_of_mem member] at ok
  exact ok

/-- A task that fails once and is claimed again. -/
def retriedRun : List Invocation :=
  [⟨.create (emailTask []), calm 7 0⟩,
    ⟨.claim (ascii "w"), calm 0 0⟩,
    ⟨.markPending { id := 7 } (ascii "w") (ascii "e") 1, calm 0 0⟩,
    ⟨.claim (ascii "w"), calm 0 1⟩]

theorem retriedRun_trail :
    ∃ row ∈ (executeAll echoPlatform .empty retriedRun).tasks.rows,
      row.attempts = 2 ∧
        Trail row
          ((executeAll echoPlatform .empty retriedRun).logsOf row.id) := by
  have attempted :
      ((executeAll echoPlatform .empty retriedRun).find 7).map
          TaskRecord.attempts = some 2 := by
    decide +kernel
  rcases Option.map_eq_some_iff.mp attempted with ⟨row, found, twice⟩
  have member := (Database.find_eq_some_iff.mp found).1
  exact ⟨row, member, twice,
    audit_trail_refines_lifecycle echoPlatform retriedRun row member⟩

end Dhara.Store
