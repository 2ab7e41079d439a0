import Dhara.Store.ClaimExclusivity
import Mathlib.Data.List.Induction

/-!
# The attempt budget of a task

A task may be executed `max 1 max_retries` times between two manual retries.
Every commit keeps the row within this budget, provided that an execution
returns the task to `PENDING` only while it has attempts left.  The claims
between two manual retries are then within the budget too, because they count
up to the attempts of the row.
-/

namespace Dhara.Store

open Dhara.Transaction

variable {platform : Platform}

/-- The number of claims that a row allows between two manual retries. -/
def budget (row : TaskRecord) : Int :=
  max 1 row.maxRetries

/--
The attempts of the row are within its budget, with one attempt left if it
has not ended or was canceled.
-/
structure WithinBudget (row : TaskRecord) : Prop where
  spent : (row.attempts : Int) ≤ budget row
  left :
    row.status = .pending ∨ row.status = .canceled →
      (row.attempts : Int) < budget row

/-- The budget of a task, before it exists and after. -/
def budgetOf (row : Option TaskRecord) : Int :=
  row.elim 0 budget

theorem one_le_budget (row : TaskRecord) : 1 ≤ budget row :=
  le_max_left 1 row.maxRetries

theorem maxRetries_of_fixed
    {first second : TaskRecord} (same : first.fixed = second.fixed) :
    first.maxRetries = second.maxRetries := by
  simp only [TaskRecord.fixed, Prod.mk.injEq] at same
  exact same.2.2.2.2.2.2.1

theorem budget_of_fixed
    {first second : TaskRecord} (same : first.fixed = second.fixed) :
    budget first = budget second := by
  rw [budget, budget, maxRetries_of_fixed same]

/-! ## One step -/

/-- A row that waits for a worker has an attempt left. -/
theorem WithinBudget.of_left
    {row : TaskRecord} (left : (row.attempts : Int) < budget row) :
    WithinBudget row :=
  ⟨left.le, fun _ => left⟩

/-- A row that has ended or runs only has to be within its budget. -/
theorem WithinBudget.of_spent
    {row : TaskRecord} (spent : (row.attempts : Int) ≤ budget row)
    (busy : row.status ≠ .pending ∧ row.status ≠ .canceled) :
    WithinBudget row := by
  refine ⟨spent, ?_⟩
  rintro (pending | canceled)
  · exact (busy.1 pending).elim
  · exact (busy.2 canceled).elim

theorem WithinBudget.move
    {move : Move} (within : WithinBudget move.row)
    (enabled : move.change.Enabled move.now move.row)
    (left :
      ∀ workerID lastError runAt,
        move.change = .markPending workerID lastError runAt →
          (move.row.attempts : Int) < budget move.row) :
    WithinBudget move.after := by
  rcases move with ⟨row, change, now, logId, message⟩
  cases change with
  | cancel => exact .of_left (within.left (Or.inl enabled))
  | claim workerID =>
      have more := within.left (Or.inl (due_pending enabled))
      have next : ((row.attempts + 1 : Nat) : Int) ≤ budget row := by
        push_cast
        exact Int.add_one_le_iff.mpr more
      exact .of_spent next (by simp [Move.after, Change.set])
  | heartbeat workerID => exact enabled.elim
  | markCompleted workerID =>
      exact .of_spent within.spent (by simp [Move.after, Change.set])
  | markPending workerID lastError runAt =>
      exact .of_left (left workerID lastError runAt rfl)
  | markDead workerID lastError =>
      exact .of_spent within.spent (by simp [Move.after, Change.set])
  | retryDead =>
      exact .of_left (Int.lt_of_lt_of_le Int.zero_lt_one (one_le_budget _))
  | toDead =>
      exact .of_spent within.spent (by simp [Move.after, Change.set])
  | toPending =>
      have more := enabled.2
      exact .of_left (Int.lt_of_lt_of_le more (Int.le_max_right 1 _))

/-- A step of a task keeps its row within the budget. -/
theorem ViewStep.withinBudget
    {call : Call} {before after : TaskView} {wrote : Option TaskRecord}
    (step : ViewStep platform call before wrote after)
    (within : ∀ row, before.row = some row → WithinBudget row)
    (left :
      ∀ task workerID lastError nextRunAt,
        call = .markPending task workerID lastError nextRunAt →
          ∀ row, before.row = some row → wrote.isSome = true →
            (row.attempts : Int) < budget row) :
    ∀ row, after.row = some row → WithinBudget row := by
  intro row found
  cases step with
  | stay => exact within row found
  | enqueue fresh logs letters enqueues =>
      cases found
      rcases enqueues with ⟨_, _, _, encoded, now, _, _, equal⟩
      apply WithinBudget.of_left
      rw [equal]
      exact Int.lt_of_lt_of_le Int.zero_lt_one (one_le_budget _)
  | beat workerID old now logs letters owned called =>
      cases found
      have spent := (within old rfl).spent
      refine WithinBudget.of_spent spent ?_
      simp [Change.set, ownedBy_running owned]
  | move move logs letters enabled performs =>
      cases found
      apply (within move.row rfl).move enabled
      intro workerID lastError runAt change
      have kind := performs.makes
      rw [change] at kind
      cases call with
      | markPending task name error nextRunAt =>
          exact left task name error nextRunAt rfl move.row rfl rfl
      | _ => cases kind

/-! ## Every history -/

section Histories

variable {id : TaskId}

/-- Without a manual retry the claims are those of the window. -/
theorem claimsSinceRetry_append
    (before : List StoreCommit) {window : List StoreCommit}
    (automatic : ∀ commit ∈ window, retriesManually id commit = false) :
    claimsSinceRetry id (before ++ window) =
      claimsSinceRetry id before ++
        window.filterMap (claimedAttempts id) := by
  induction window using List.reverseRecOn with
  | nil => simp
  | append_singleton window commit induction =>
      rw [← List.append_assoc, claimsSinceRetry_concat,
        automatic commit (by simp),
        induction fun other member => automatic other (by simp [member])]
      cases value : claimedAttempts id commit <;> simp [value]

/-- The claims of every part of the history are within the budget. -/
def ClaimsWithin (id : TaskId) (history : List StoreCommit)
    (db : Database) : Prop :=
  ∀ earlier, earlier <+: history →
    ((claimsSinceRetry id earlier).length : Int) ≤ budgetOf (db.find id)

/-- The budget of a task never shrinks. -/
theorem ViewStep.budgetOf_le
    {call : Call} {before after : TaskView} {wrote : Option TaskRecord}
    (step : ViewStep platform call before wrote after) :
    budgetOf before.row ≤ budgetOf after.row := by
  cases found : before.row with
  | some row =>
      rcases step.fixed found with ⟨current, stored, same⟩
      rw [stored]
      exact (budget_of_fixed same).ge
  | none =>
      cases after.row with
      | none => exact le_rfl
      | some row =>
          exact Int.le_trans (by decide) (one_le_budget row)

theorem ClaimsWithin.concat
    {history : List StoreCommit} {db : Database} {commit : StoreCommit}
    (claims : ClaimsWithin id history db) (counted : Counted id history db)
    (lawful : Lawful platform db commit.call commit.writes)
    (within :
      ∀ row,
        ((postgres platform).applyAll commit.writes db).find id =
            some row →
          WithinBudget row) :
    ClaimsWithin id (history ++ [commit])
      ((postgres platform).applyAll commit.writes db) := by
  intro earlier part
  rcases List.prefix_concat_iff.mp part with whole | shorter
  · have next : Counted id (history ++ [commit]) _ :=
      counted.concat lawful
    rw [whole, next, List.length_range']
    cases found : ((postgres platform).applyAll commit.writes db).find id with
    | none => exact le_rfl
    | some row => exact (within row found).spent
  · exact (claims earlier shorter).trans (lawful.viewStep id).budgetOf_le

/-- The claims of a window without a manual retry are within the budget. -/
theorem ClaimsWithin.window
    {db : Database} {before window after : List StoreCommit}
    (claims : ClaimsWithin id (before ++ window ++ after) db)
    (automatic : ∀ commit ∈ window, retriesManually id commit = false) :
    ((window.filterMap (claimedAttempts id)).length : Int) ≤
      budgetOf (db.find id) := by
  have bounded := claims (before ++ window) (List.prefix_append _ _)
  rw [claimsSinceRetry_append before automatic, List.length_append]
    at bounded
  push_cast at bounded
  omega

end Histories

end Dhara.Store
