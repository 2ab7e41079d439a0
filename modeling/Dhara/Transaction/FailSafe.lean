import Dhara.Transaction.Program

/-!
# Fail-safe programs

A program is fail-safe when every fault makes it return a failure at once,
nothing is counted before the commit, and nothing can fail after it.  The
main theorem is that a fail-safe program which met a fault anywhere returned
a failure, left the committed state as it was and moved no counter.
-/

namespace Dhara.Transaction

section FailSafe

variable {Stmt : Type} {Reply : Stmt → Type}
  {Fault Db Write Res Oracle Time Counter Result : Type}
  (engine : Engine Stmt Reply Fault Db Write Res Oracle Time)
  (Failed : Result → Prop) {program : Program Stmt Reply Fault Counter Result}

section

variable {Sent : Type} (reply : Except Fault Sent)
  (outcome : Outcome Db Write Res Time Counter Result)

@[simp]
theorem Outcome.after_result :
    (outcome.after reply).result = outcome.result :=
  rfl

@[simp]
theorem Outcome.after_link :
    (outcome.after reply).link = outcome.link :=
  rfl

@[simp]
theorem Outcome.after_counts :
    (outcome.after reply).counts = outcome.counts :=
  rfl

@[simp]
theorem Outcome.after_faulted :
    (outcome.after reply).faulted = (isFault reply || outcome.faulted) :=
  rfl

end

/-! ## Round trips that leave the committed state alone -/

/-- A statement that never writes. -/
def Engine.ReadOnly (stmt : Stmt) : Prop :=
  ∀ clock others oracle db effect,
    engine.eval clock others oracle stmt db = .ok effect → effect.writes = []

@[simp]
theorem beginTx_db
    (answer : Answer Fault Res Oracle Time)
    (link : Link Db Write Res Time) :
    (beginTx answer link).2.db = link.db := by
  unfold beginTx
  cases answer.fault <;> rfl

@[simp]
theorem Engine.execTx_db
    (answer : Answer Fault Res Oracle Time)
    (stmt : Stmt) (link : Link Db Write Res Time) :
    (engine.execTx answer stmt link).2.db = link.db := by
  unfold Engine.execTx
  cases link.tx <;> rfl

theorem Engine.queryPool_db
    {stmt : Stmt} (readOnly : engine.ReadOnly stmt)
    (answer : Answer Fault Res Oracle Time)
    (link : Link Db Write Res Time) :
    (engine.queryPool answer stmt link).2.db = link.db := by
  unfold Engine.queryPool
  cases answer.fault with
  | some fault => rfl
  | none =>
      cases evaluated :
          engine.eval answer.clock answer.others answer.oracle
            stmt link.db with
      | error fault => rfl
      | ok effect =>
          have silent := readOnly _ _ _ _ _ evaluated
          simp [silent]

theorem Engine.commitTx_fault_db
    {answer : Answer Fault Res Oracle Time}
    {link : Link Db Write Res Time}
    (fault : isFault (engine.commitTx answer link).1 = true) :
    (engine.commitTx answer link).2.db = link.db := by
  unfold Engine.commitTx at fault ⊢
  cases opened : link.tx with
  | none => rfl
  | some tx =>
      simp only [opened] at fault ⊢
      cases answered : answer.fault with
      | some refusal => rfl
      | none =>
          simp only [answered] at fault ⊢
          cases failed : tx.failed with
          | true => simp
          | false => simp [failed] at fault

/-! ## The fail-safe discipline -/

/-- The program returns a failure and does nothing else. -/
def GivesUp
    (program : Program Stmt Reply Fault Counter Result) : Prop :=
  ∃ result, program = .done result ∧ Failed result

/-- Nothing but counters is left to do. -/
def Settled : Program Stmt Reply Fault Counter Result → Prop
  | .done _ => True
  | .count _ _ next => Settled next
  | _ => False

/-- Every fault is followed by giving up, up to and including the commit. -/
def FailSafe : Program Stmt Reply Fault Counter Result → Prop
  | .done _ => True
  | .begin next =>
      (∀ fault, GivesUp Failed (next (.error fault))) ∧
        FailSafe (next (.ok ()))
  | .exec _ next =>
      (∀ fault, GivesUp Failed (next (.error fault))) ∧
        ∀ reply, FailSafe (next (.ok reply))
  | .query stmt next =>
      engine.ReadOnly stmt ∧
        (∀ fault, GivesUp Failed (next (.error fault))) ∧
          ∀ reply, FailSafe (next (.ok reply))
  | .scan next =>
      (∀ fault, GivesUp Failed (next (.error fault))) ∧
        FailSafe (next (.ok ()))
  | .commit next =>
      (∀ fault, GivesUp Failed (next (.error fault))) ∧
        Settled (next (.ok ()))
  | .count _ _ _ => False

variable {Failed}

theorem GivesUp.run
    (givesUp : GivesUp Failed program)
    (answers : Nat → Answer Fault Res Oracle Time)
    (link : Link Db Write Res Time) :
    Failed (engine.run program answers link).result ∧
      (engine.run program answers link).link = link ∧
      (engine.run program answers link).counts = [] := by
  rcases givesUp with ⟨result, equal, failed⟩
  subst program
  exact ⟨failed, rfl, rfl⟩

theorem Settled.run
    (settled : Settled program) (answers : Nat → Answer Fault Res Oracle Time)
    (link : Link Db Write Res Time) :
    (engine.run program answers link).faulted = false := by
  induction program with
  | done result => rfl
  | count counter amount next induction =>
      exact induction settled
  | _ => exact settled.elim

/--
A fail-safe program that met a fault returned a failure, changed no committed
data and moved no counter.
-/
theorem FailSafe.run
    (safe : FailSafe engine Failed program)
    (answers : Nat → Answer Fault Res Oracle Time)
    (link : Link Db Write Res Time)
    (faulted : (engine.run program answers link).faulted = true) :
    Failed (engine.run program answers link).result ∧
      (engine.run program answers link).link.db = link.db ∧
      (engine.run program answers link).counts = [] := by
  induction program generalizing answers link with
  | done result => simp [Engine.run] at faulted
  | count counter amount next induction => exact safe.elim
  | begin next induction =>
      simp only [Engine.run, Outcome.after_faulted] at faulted
      simp only [Engine.run, Outcome.after_result,
        Outcome.after_link, Outcome.after_counts]
      rcases replied : (beginTx (answers 0) link).1 with fault | granted
      · have gaveUp := (safe.1 fault).run engine
          (fun n => answers (n + 1)) (beginTx (answers 0) link).2
        rw [gaveUp.2.1, beginTx_db]
        exact ⟨gaveUp.1, rfl, gaveUp.2.2⟩
      · rw [replied] at faulted
        have kept := induction (.ok granted) safe.2 _ _ faulted
        rwa [beginTx_db] at kept
  | exec stmt next induction =>
      simp only [Engine.run, Outcome.after_faulted] at faulted
      simp only [Engine.run, Outcome.after_result,
        Outcome.after_link, Outcome.after_counts]
      rcases replied :
          (engine.execTx (answers 0) stmt link).1 with fault | reply
      · have gaveUp := (safe.1 fault).run engine
          (fun n => answers (n + 1))
          (engine.execTx (answers 0) stmt link).2
        rw [gaveUp.2.1, Engine.execTx_db]
        exact ⟨gaveUp.1, rfl, gaveUp.2.2⟩
      · rw [replied] at faulted
        have kept := induction (.ok reply) (safe.2 reply) _ _ faulted
        rwa [Engine.execTx_db] at kept
  | query stmt next induction =>
      simp only [Engine.run, Outcome.after_faulted] at faulted
      simp only [Engine.run, Outcome.after_result,
        Outcome.after_link, Outcome.after_counts]
      have sameDb := engine.queryPool_db safe.1 (answers 0) link
      rcases replied :
          (engine.queryPool (answers 0) stmt link).1 with fault | reply
      · have gaveUp := (safe.2.1 fault).run engine
          (fun n => answers (n + 1))
          (engine.queryPool (answers 0) stmt link).2
        rw [gaveUp.2.1, sameDb]
        exact ⟨gaveUp.1, rfl, gaveUp.2.2⟩
      · rw [replied] at faulted
        have kept := induction (.ok reply) (safe.2.2 reply) _ _ faulted
        rwa [sameDb] at kept
  | scan next induction =>
      simp only [Engine.run, Outcome.after_faulted] at faulted
      simp only [Engine.run, Outcome.after_result,
        Outcome.after_link, Outcome.after_counts]
      rcases replied : scanRow (answers 0) with fault | granted
      · have gaveUp := (safe.1 fault).run engine
          (fun n => answers (n + 1)) link
        rw [gaveUp.2.1]
        exact ⟨gaveUp.1, rfl, gaveUp.2.2⟩
      · rw [replied] at faulted
        exact induction (.ok granted) safe.2 _ _ faulted
  | commit next induction =>
      simp only [Engine.run, Outcome.after_faulted] at faulted
      simp only [Engine.run, Outcome.after_result,
        Outcome.after_link, Outcome.after_counts]
      rcases replied : (engine.commitTx (answers 0) link).1
        with fault | granted
      · have sameDb : (engine.commitTx (answers 0) link).2.db = link.db :=
          engine.commitTx_fault_db (by rw [replied]; rfl)
        have gaveUp := (safe.1 fault).run engine
          (fun n => answers (n + 1))
          (engine.commitTx (answers 0) link).2
        rw [gaveUp.2.1, sameDb]
        exact ⟨gaveUp.1, rfl, gaveUp.2.2⟩
      · rw [replied] at faulted
        have settled := safe.2.run engine
          (fun n => answers (n + 1))
          (engine.commitTx (answers 0) link).2
        simp [settled] at faulted

end FailSafe

end Dhara.Transaction
