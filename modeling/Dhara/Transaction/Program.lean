import Mathlib.Data.List.Basic

/-!
# Transaction programs

A client of a transactional database is a tree of round trips: it opens a
transaction, sends statements, commits, reads through the pool, and moves
process-local counters.  Every round trip may be answered by a fault, and the
client sees the answer before it chooses what to do next.

The tree is independent of the way it is executed.  This module gives the
sequential execution, in which one program runs against one database with an
arbitrary stream of answers.  The interleaved execution of many programs is
the subject of `Dhara.Transaction.Sessions`.
-/

namespace Dhara.Transaction

/--
A client program.

`exec` sends a statement inside the open transaction, `query` sends one on a
connection of its own, and `scan` reads one buffered row.  A program that is
`done` while a transaction is open rolls it back.
-/
inductive Program
    (Stmt : Type) (Reply : Stmt → Type)
    (Fault Counter Result : Type) where
  | done (result : Result)
  | begin
      (next : Except Fault Unit → Program Stmt Reply Fault Counter Result)
  | exec (stmt : Stmt)
      (next : Except Fault (Reply stmt) →
        Program Stmt Reply Fault Counter Result)
  | query (stmt : Stmt)
      (next : Except Fault (Reply stmt) →
        Program Stmt Reply Fault Counter Result)
  | scan
      (next : Except Fault Unit → Program Stmt Reply Fault Counter Result)
  | commit
      (next : Except Fault Unit → Program Stmt Reply Fault Counter Result)
  | count (counter : Counter) (amount : Nat)
      (next : Program Stmt Reply Fault Counter Result)

/-- What a successful statement returns, writes and locks. -/
structure Effect (Reply Write Res : Type) where
  reply : Reply
  writes : List Write := []
  locks : List Res := []

/-- An open transaction and its uncommitted writes. -/
structure Tx (Write Res Time : Type) where
  startedAt : Time
  writes : List Write := []
  locks : List Res := []
  failed : Bool := false

/--
A database engine.

`eval` is one statement on the state its transaction sees, given the start
time of the transaction and the resources locked by others.  `waits` says
that the statement has to wait for one of these locks first.  A fault that
is `driverSide` is raised before the statement reaches the server and leaves
the transaction usable; every other fault aborts it.
-/
structure Engine
    (Stmt : Type) (Reply : Stmt → Type)
    (Fault Db Write Res Oracle Time : Type) where
  apply : Write → Db → Db
  eval :
    Time → (Res → Bool) → Oracle → (stmt : Stmt) → Db →
      Except Fault (Effect (Reply stmt) Write Res)
  waits : (Res → Bool) → Oracle → Stmt → Db → Bool
  driverSide : Fault → Bool
  closed : Fault
  aborted : Fault
  refused : Fault

/-- What the server and the network contribute to one round trip. -/
structure Answer (Fault Res Oracle Time : Type) where
  fault : Option Fault
  others : Res → Bool
  oracle : Oracle
  clock : Time

/-- One connection: the committed state and the transaction it has open. -/
structure Link (Db Write Res Time : Type) where
  db : Db
  tx : Option (Tx Write Res Time)

/-- What a finished program leaves behind. -/
structure Outcome
    (Db Write Res Time Counter Result : Type) where
  result : Result
  link : Link Db Write Res Time
  counts : List (Counter × Nat) := []
  faulted : Bool := false

/-- The reply of a round trip was a fault. -/
def isFault {Fault Reply : Type} : Except Fault Reply → Bool
  | .error _ => true
  | .ok _ => false

@[simp]
theorem isFault_error {Fault Reply : Type} (fault : Fault) :
    isFault (.error fault : Except Fault Reply) = true :=
  rfl

@[simp]
theorem isFault_ok {Fault Reply : Type} (reply : Reply) :
    isFault (.ok reply : Except Fault Reply) = false :=
  rfl

/-- Record whether an earlier round trip was answered by a fault. -/
def Outcome.after
    {Db Write Res Time Counter Result Fault Reply : Type}
    (reply : Except Fault Reply)
    (outcome : Outcome Db Write Res Time Counter Result) :
    Outcome Db Write Res Time Counter Result :=
  { outcome with faulted := isFault reply || outcome.faulted }

section Execution

variable
    {Stmt : Type} {Reply : Stmt → Type}
    {Fault Db Write Res Oracle Time Counter Result : Type}
    (engine : Engine Stmt Reply Fault Db Write Res Oracle Time)

/-- Apply a list of writes in order. -/
def Engine.applyAll (writes : List Write) (db : Db) : Db :=
  writes.foldl (fun current write => engine.apply write current) db

@[simp]
theorem Engine.applyAll_nil (db : Db) :
    engine.applyAll [] db = db :=
  rfl

@[simp]
theorem Engine.applyAll_cons
    (write : Write) (writes : List Write) (db : Db) :
    engine.applyAll (write :: writes) db =
      engine.applyAll writes (engine.apply write db) :=
  rfl

@[simp]
theorem Engine.applyAll_append
    (first second : List Write) (db : Db) :
    engine.applyAll (first ++ second) db =
      engine.applyAll second (engine.applyAll first db) := by
  simp [Engine.applyAll]

/-- Open a transaction at the server's clock. -/
def beginTx
    (answer : Answer Fault Res Oracle Time)
    (link : Link Db Write Res Time) :
    Except Fault Unit × Link Db Write Res Time :=
  match answer.fault with
  | some fault => (.error fault, link)
  | none =>
      (.ok (), { link with tx := some { startedAt := answer.clock } })

/-- One statement of an open transaction. -/
def Engine.runStmt
    (answer : Answer Fault Res Oracle Time)
    (stmt : Stmt) (db : Db) (tx : Tx Write Res Time) :
    Except Fault (Reply stmt) × Tx Write Res Time :=
  if tx.failed then
    (.error engine.aborted, tx)
  else
    match answer.fault with
    | some fault =>
        (.error fault, { tx with failed := !engine.driverSide fault })
    | none =>
        match engine.eval tx.startedAt answer.others answer.oracle stmt
            (engine.applyAll tx.writes db) with
        | .error fault =>
            (.error fault, { tx with failed := !engine.driverSide fault })
        | .ok effect =>
            (.ok effect.reply,
              { tx with
                writes := tx.writes ++ effect.writes
                locks := tx.locks ++ effect.locks })

/-- Send a statement in the open transaction, if there is one. -/
def Engine.execTx
    (answer : Answer Fault Res Oracle Time)
    (stmt : Stmt) (link : Link Db Write Res Time) :
    Except Fault (Reply stmt) × Link Db Write Res Time :=
  match link.tx with
  | none => (.error engine.closed, link)
  | some tx =>
      ((engine.runStmt answer stmt link.db tx).1,
        { link with
          tx := some (engine.runStmt answer stmt link.db tx).2 })

/-- Send a statement in an implicit transaction of its own. -/
def Engine.queryPool
    (answer : Answer Fault Res Oracle Time)
    (stmt : Stmt) (link : Link Db Write Res Time) :
    Except Fault (Reply stmt) × Link Db Write Res Time :=
  match answer.fault with
  | some fault => (.error fault, link)
  | none =>
      match engine.eval answer.clock answer.others answer.oracle
          stmt link.db with
      | .error fault => (.error fault, link)
      | .ok effect =>
          (.ok effect.reply,
            { link with
              db := engine.applyAll effect.writes link.db })

/-- Read one buffered row. -/
def scanRow
    (answer : Answer Fault Res Oracle Time) : Except Fault Unit :=
  match answer.fault with
  | some fault => .error fault
  | none => .ok ()

/--
Commit the open transaction.

A failed transaction is rolled back by the commit, and a commit that is
answered by a fault is discarded by the server.
-/
def Engine.commitTx
    (answer : Answer Fault Res Oracle Time)
    (link : Link Db Write Res Time) :
    Except Fault Unit × Link Db Write Res Time :=
  match link.tx with
  | none => (.error engine.closed, link)
  | some tx =>
      match answer.fault with
      | some fault => (.error fault, { link with tx := none })
      | none =>
          if tx.failed then
            (.error engine.refused, { link with tx := none })
          else
            (.ok (), { db := engine.applyAll tx.writes link.db, tx := none })

/--
Sequential execution.  `answers n` is what the server contributes to the
`n`-th round trip from now on.
-/
def Engine.run :
    Program Stmt Reply Fault Counter Result →
      (Nat → Answer Fault Res Oracle Time) →
      Link Db Write Res Time →
      Outcome Db Write Res Time Counter Result
  | .done result, _, link => { result, link }
  | .begin next, answers, link =>
      let reply := beginTx (answers 0) link
      (Engine.run (next reply.1) (fun n => answers (n + 1))
        reply.2).after reply.1
  | .exec stmt next, answers, link =>
      let reply := engine.execTx (answers 0) stmt link
      (Engine.run (next reply.1) (fun n => answers (n + 1))
        reply.2).after reply.1
  | .query stmt next, answers, link =>
      let reply := engine.queryPool (answers 0) stmt link
      (Engine.run (next reply.1) (fun n => answers (n + 1))
        reply.2).after reply.1
  | .scan next, answers, link =>
      let reply := scanRow (answers 0)
      (Engine.run (next reply) (fun n => answers (n + 1)) link).after reply
  | .commit next, answers, link =>
      let reply := engine.commitTx (answers 0) link
      (Engine.run (next reply.1) (fun n => answers (n + 1))
        reply.2).after reply.1
  | .count counter amount next, answers, link =>
      let outcome := Engine.run next answers link
      { outcome with counts := (counter, amount) :: outcome.counts }

/-! ## The possible answers of a round trip -/

section

variable (answer : Answer Fault Res Oracle Time)

include answer

theorem beginTx_cases
    (db : Db) (tx : Option (Tx Write Res Time)) :
    (∃ fault, beginTx answer ⟨db, tx⟩ = (.error fault, ⟨db, tx⟩)) ∨
      beginTx answer ⟨db, tx⟩ =
        (.ok (), ⟨db, some { startedAt := answer.clock }⟩) := by
  unfold beginTx
  cases answer.fault with
  | some fault => exact Or.inl ⟨fault, rfl⟩
  | none => exact Or.inr rfl

theorem scanRow_cases :
    (∃ fault, scanRow answer = .error fault) ∨ scanRow answer = .ok () := by
  unfold scanRow
  cases answer.fault with
  | some fault => exact Or.inl ⟨fault, rfl⟩
  | none => exact Or.inr rfl

theorem Engine.execTx_cases
    (stmt : Stmt) (db : Db) (tx : Tx Write Res Time) :
    (∃ fault failed,
      engine.execTx answer stmt ⟨db, some tx⟩ =
        (.error fault, ⟨db, some { tx with failed }⟩)) ∨
      (tx.failed = false ∧ answer.fault = none ∧
        ∃ effect,
          engine.eval tx.startedAt answer.others answer.oracle stmt
              (engine.applyAll tx.writes db) = .ok effect ∧
            engine.execTx answer stmt ⟨db, some tx⟩ =
              (.ok effect.reply,
                ⟨db,
                  some
                    { tx with
                      writes := tx.writes ++ effect.writes
                      locks := tx.locks ++ effect.locks }⟩)) := by
  simp only [Engine.execTx, Engine.runStmt]
  cases failed : tx.failed with
  | true =>
      refine Or.inl ⟨engine.aborted, tx.failed, ?_⟩
      simp
  | false =>
      cases answer.fault with
      | some fault =>
          exact Or.inl ⟨fault, !engine.driverSide fault, by simp⟩
      | none =>
          cases engine.eval tx.startedAt answer.others answer.oracle
              stmt (engine.applyAll tx.writes db) with
          | error fault =>
              exact Or.inl ⟨fault, !engine.driverSide fault, by simp⟩
          | ok effect =>
              refine Or.inr ⟨rfl, rfl, effect, rfl, ?_⟩
              simp

theorem Engine.queryPool_cases
    (stmt : Stmt) (db : Db) (tx : Option (Tx Write Res Time)) :
    (∃ fault,
      engine.queryPool answer stmt ⟨db, tx⟩ = (.error fault, ⟨db, tx⟩)) ∨
      (answer.fault = none ∧
        ∃ effect,
          engine.eval answer.clock answer.others answer.oracle stmt
              db = .ok effect ∧
            engine.queryPool answer stmt ⟨db, tx⟩ =
              (.ok effect.reply,
                ⟨engine.applyAll effect.writes db, tx⟩)) := by
  simp only [Engine.queryPool]
  cases answer.fault with
  | some fault => exact Or.inl ⟨fault, rfl⟩
  | none =>
      cases engine.eval answer.clock answer.others answer.oracle stmt db with
      | error fault => exact Or.inl ⟨fault, rfl⟩
      | ok effect => exact Or.inr ⟨rfl, effect, rfl, rfl⟩

theorem Engine.commitTx_cases
    (db : Db) (tx : Tx Write Res Time) :
    (∃ fault,
      engine.commitTx answer ⟨db, some tx⟩ = (.error fault, ⟨db, none⟩)) ∨
      (tx.failed = false ∧ answer.fault = none ∧
        engine.commitTx answer ⟨db, some tx⟩ =
          (.ok (), ⟨engine.applyAll tx.writes db, none⟩)) := by
  simp only [Engine.commitTx]
  cases answer.fault with
  | some fault => exact Or.inl ⟨fault, rfl⟩
  | none =>
      cases failed : tx.failed with
      | true => exact Or.inl ⟨engine.refused, by simp⟩
      | false => exact Or.inr ⟨rfl, rfl, by simp⟩

end

end Execution

end Dhara.Transaction
