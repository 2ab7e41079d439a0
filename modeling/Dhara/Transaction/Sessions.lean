import Dhara.Transaction.Program

/-!
# Interleaved sessions

Any number of sessions run against one database.  A session is a call whose
program is executed one round trip at a time, and the scheduler may switch
sessions between any two round trips.

Uncommitted writes are private to their session.  A resource locked by a
session stays locked until its transaction ends, and a statement that has to
wait for a lock held by another session is not executed before the lock is
free.  A session may crash at any point; the server then discards its
transaction.
-/

namespace Dhara.Transaction

/-- A call in progress.  A crashed session has no program left. -/
structure Session
    (Call Stmt : Type) (Reply : Stmt → Type)
    (Fault Counter Result Write Res Time : Type) where
  call : Call
  program : Option (Program Stmt Reply Fault Counter Result)
  tx : Option (Tx Write Res Time) := none
  commits : List (List Write) := []
  counts : List (Counter × Nat) := []
  faulted : Bool := false

/-- The resources locked by an optional transaction. -/
def heldBy {Write Res Time : Type} :
    Option (Tx Write Res Time) → List Res
  | none => []
  | some tx => tx.locks

@[simp]
theorem heldBy_none {Write Res Time : Type} :
    heldBy (none : Option (Tx Write Res Time)) = [] :=
  rfl

@[simp]
theorem heldBy_some {Write Res Time : Type}
    (tx : Tx Write Res Time) :
    heldBy (some tx) = tx.locks :=
  rfl

/-- Record a published list of writes; an empty commit publishes nothing. -/
def publish {Entry : Type} (entry : List Entry)
    (commits : List (List Entry)) : List (List Entry) :=
  match entry with
  | [] => commits
  | _ :: _ => commits ++ [entry]

@[simp]
theorem publish_nil {Entry : Type} (commits : List (List Entry)) :
    publish [] commits = commits :=
  rfl

@[simp]
theorem publish_cons {Entry : Type}
    (first : Entry) (rest : List Entry)
    (commits : List (List Entry)) :
    publish (first :: rest) commits = commits ++ [first :: rest] :=
  rfl

/-- One committed transaction of the interleaved execution. -/
structure Commit (Call Write : Type) where
  session : Nat
  call : Call
  writes : List Write

/-- The committed state, the sessions, and the commits in their order. -/
structure Config
    (Call Stmt : Type) (Reply : Stmt → Type)
    (Fault Counter Result Db Write Res Time : Type) where
  db : Db
  sessions :
    List (Session Call Stmt Reply Fault Counter Result Write Res Time) := []
  history : List (Commit Call Write) := []

/-- What the scheduler can do next. -/
inductive Label (Call Fault Res Oracle Time : Type) where
  | spawn (call : Call)
  | advance (index : Nat) (answer : Answer Fault Res Oracle Time)
  | crash (index : Nat)

/-- The effect of one round trip of one session. -/
structure Moved
    (Call Stmt : Type) (Reply : Stmt → Type)
    (Fault Counter Result Db Write Res Time : Type) where
  db : Db
  session : Session Call Stmt Reply Fault Counter Result Write Res Time
  published : List Write := []

section Interleaving

variable
    {Call Stmt : Type} {Reply : Stmt → Type}
    {Fault Db Write Res Oracle Time Counter Result : Type}
    [DecidableEq Res]
    (engine : Engine Stmt Reply Fault Db Write Res Oracle Time)

/-- The resource is locked by a session other than `index`. -/
def heldByOthers
    (sessions :
      List (Session Call Stmt Reply Fault Counter Result Write Res Time))
    (index : Nat) (res : Res) : Bool :=
  sessions.zipIdx.any fun entry =>
    entry.2 != index && decide (res ∈ heldBy entry.1.tx)

/-- The statement would run and has to wait for another session. -/
def Engine.blocked
    (answer : Answer Fault Res Oracle Time)
    (stmt : Stmt) (link : Link Db Write Res Time) : Bool :=
  match link.tx with
  | none => false
  | some tx =>
      !tx.failed && answer.fault.isNone &&
        engine.waits answer.others answer.oracle stmt
          (engine.applyAll tx.writes link.db)

/-- The writes a statement of its own transaction would publish. -/
def Engine.queryWrites
    (answer : Answer Fault Res Oracle Time)
    (stmt : Stmt) (db : Db) : List Write :=
  match answer.fault with
  | some _ => []
  | none =>
      match engine.eval answer.clock answer.others answer.oracle
          stmt db with
      | .error _ => []
      | .ok effect => effect.writes

/-- The writes a commit would publish. -/
def commitWrites
    (answer : Answer Fault Res Oracle Time)
    (tx : Option (Tx Write Res Time)) : List Write :=
  match tx, answer.fault with
  | some tx, none => if tx.failed then [] else tx.writes
  | _, _ => []

/-- Continue a session after a reply. -/
def Session.resume {Sent : Type}
    (session : Session Call Stmt Reply Fault Counter Result Write Res Time)
    (reply : Except Fault Sent)
    (next : Except Fault Sent → Program Stmt Reply Fault Counter Result)
    (tx : Option (Tx Write Res Time)) (published : List Write) :
    Session Call Stmt Reply Fault Counter Result Write Res Time :=
  { session with
    program := some (next reply)
    tx := tx
    commits := publish published session.commits
    faulted := session.faulted || isFault reply }

/--
One round trip of a session.  A finished session only has its deferred
rollback left, and a waiting statement gives no step.
-/
def Engine.advance
    (answer : Answer Fault Res Oracle Time) (db : Db)
    (session : Session Call Stmt Reply Fault Counter Result Write Res Time) :
    Option (Moved Call Stmt Reply Fault Counter Result Db Write Res Time) :=
  match session.program with
  | none => none
  | some (.done _) =>
      match session.tx with
      | none => none
      | some _ => some { db, session := { session with tx := none } }
  | some (.begin next) =>
      let reply := beginTx answer ⟨db, session.tx⟩
      some { db, session := session.resume reply.1 next reply.2.tx [] }
  | some (.exec stmt next) =>
      if engine.blocked answer stmt ⟨db, session.tx⟩ then
        none
      else
        let reply := engine.execTx answer stmt ⟨db, session.tx⟩
        some { db, session := session.resume reply.1 next reply.2.tx [] }
  | some (.query stmt next) =>
      if answer.fault.isNone &&
          engine.waits answer.others answer.oracle stmt db then
        none
      else
        let reply := engine.queryPool answer stmt ⟨db, session.tx⟩
        let published := engine.queryWrites answer stmt db
        some
          { db := reply.2.db
            session := session.resume reply.1 next session.tx published
            published }
  | some (.scan next) =>
      some
        { db,
          session := session.resume (scanRow answer) next session.tx [] }
  | some (.commit next) =>
      let reply := engine.commitTx answer ⟨db, session.tx⟩
      let published := commitWrites answer session.tx
      some
        { db := reply.2.db
          session := session.resume reply.1 next reply.2.tx published
          published }
  | some (.count counter amount next) =>
      some
        { db
          session :=
            { session with
              program := some next
              counts := session.counts ++ [(counter, amount)] } }

/-- Append a published list of writes to the history. -/
def recordCommit
    (history : List (Commit Call Write))
    (index : Nat) (call : Call) (writes : List Write) :
    List (Commit Call Write) :=
  match writes with
  | [] => history
  | _ :: _ => history ++ [⟨index, call, writes⟩]

/-- One step of the interleaved execution. -/
def Engine.step
    (programOf : Call → Program Stmt Reply Fault Counter Result)
    (config : Config Call Stmt Reply Fault Counter Result Db Write Res Time) :
    Label Call Fault Res Oracle Time →
      Option (Config Call Stmt Reply Fault Counter Result Db Write Res Time)
  | .spawn call =>
      some
        { config with
          sessions :=
            config.sessions ++ [{ call, program := some (programOf call) }] }
  | .advance index answer =>
      match config.sessions[index]? with
      | none => none
      | some session =>
          (engine.advance
            { answer with
              others := heldByOthers config.sessions index }
            config.db session).map fun moved =>
              { db := moved.db
                sessions := config.sessions.set index moved.session
                history :=
                  recordCommit config.history index session.call
                    moved.published }
  | .crash index =>
      match config.sessions[index]? with
      | none => none
      | some session =>
          match session.program with
          | some (.done _) => none
          | _ =>
              some
                { config with
                  sessions :=
                    config.sessions.set index
                      { session with program := none, tx := none } }

variable {engine} in
/-- Everything a step can be. -/
theorem Engine.step_eq_some
    {programOf : Call → Program Stmt Reply Fault Counter Result}
    {config next :
      Config Call Stmt Reply Fault Counter Result Db Write Res Time}
    {label : Label Call Fault Res Oracle Time}
    (stepped : engine.step programOf config label = some next) :
    (∃ call,
      label = .spawn call ∧
        next =
          { config with
            sessions :=
              config.sessions ++
                [{ call, program := some (programOf call) }] }) ∨
      (∃ index answer session moved,
        label = .advance index answer ∧
          config.sessions[index]? = some session ∧
          engine.advance
              { answer with
                others := heldByOthers config.sessions index }
              config.db session = some moved ∧
          next =
            { db := moved.db
              sessions := config.sessions.set index moved.session
              history :=
                recordCommit config.history index session.call
                  moved.published }) ∨
      ∃ index session,
        label = .crash index ∧
          config.sessions[index]? = some session ∧
          (∀ result, session.program ≠ some (.done result)) ∧
          next =
            { config with
              sessions :=
                config.sessions.set index
                  { session with program := none, tx := none } } := by
  cases label with
  | spawn call =>
      cases stepped
      exact Or.inl ⟨call, rfl, rfl⟩
  | advance index answer =>
      simp only [Engine.step] at stepped
      split at stepped
      · cases stepped
      · rename_i session located
        rcases Option.map_eq_some_iff.mp stepped with
          ⟨moved, advanced, equal⟩
        exact Or.inr (Or.inl ⟨index, answer, session, moved, rfl,
          located, advanced, equal.symm⟩)
  | crash index =>
      simp only [Engine.step] at stepped
      split at stepped
      · cases stepped
      · rename_i session located
        split at stepped
        · cases stepped
        · rename_i running
          cases stepped
          exact Or.inr (Or.inr ⟨index, session, rfl, located, running, rfl⟩)

/-- Follow a schedule. -/
def Engine.follow
    (programOf : Call → Program Stmt Reply Fault Counter Result)
    (config : Config Call Stmt Reply Fault Counter Result Db Write Res Time) :
    List (Label Call Fault Res Oracle Time) →
      Option (Config Call Stmt Reply Fault Counter Result Db Write Res Time)
  | [] => some config
  | label :: rest =>
      match engine.step programOf config label with
      | none => none
      | some next => Engine.follow programOf next rest

/-- A property kept by every step is kept by every schedule. -/
theorem Engine.follow_invariant
    {programOf : Call → Program Stmt Reply Fault Counter Result}
    {Holds :
      Config Call Stmt Reply Fault Counter Result Db Write Res Time → Prop}
    (kept :
      ∀ config label next,
        Holds config →
          engine.step programOf config label = some next → Holds next)
    {config final :
      Config Call Stmt Reply Fault Counter Result Db Write Res Time}
    {schedule : List (Label Call Fault Res Oracle Time)}
    (start : Holds config)
    (followed : engine.follow programOf config schedule = some final) :
    Holds final := by
  induction schedule generalizing config with
  | nil =>
      simp only [Engine.follow, Option.some.injEq] at followed
      subst final
      exact start
  | cons label rest induction =>
      simp only [Engine.follow] at followed
      cases stepped : engine.step programOf config label with
      | none => simp [stepped] at followed
      | some next =>
          simp only [stepped] at followed
          exact induction (kept config label next start stepped) followed

end Interleaving

end Dhara.Transaction
