import Dhara.Store.EnqueueRefinement

/-!
# Runs of the store

An atomic run is a sequence of calls, each executed to its end before the next
one starts.  The answers of the server are arbitrary at every round trip:
faults, row locks held elsewhere, generated values and the clock.  An
interleaved run switches between the round trips of any number of calls.

Both publish lawful commits only, so a property of the database that lawful
commits keep holds along every run.
-/

namespace Dhara.Store

open Dhara.Transaction

/-- What the server contributes to the round trips of one call. -/
abbrev Answers := Nat → Answer Fault Resource Oracle Time

/-- A call together with the answers it gets. -/
structure Invocation where
  call : Call
  answers : Answers

section Runs

variable (platform : Platform) {db : Database}

/-- Execute one call on a committed state. -/
def execute (invocation : Invocation) (db : Database) :
    Outcome Database Write Resource Time Counter Response :=
  (postgres platform).run (invocation.call.program platform)
    invocation.answers ⟨db, none⟩

/-- The committed state after a sequence of calls. -/
def executeAll (db : Database) (run : List Invocation) : Database :=
  run.foldl
    (fun current invocation =>
      (execute platform invocation current).link.db) db

@[simp]
theorem executeAll_nil (db : Database) :
    executeAll platform db [] = db :=
  rfl

@[simp]
theorem executeAll_cons
    (db : Database) (invocation : Invocation) (rest : List Invocation) :
    executeAll platform db (invocation :: rest) =
      executeAll platform (execute platform invocation db).link.db
        rest :=
  rfl

@[simp]
theorem executeAll_append
    (db : Database) (first second : List Invocation) :
    executeAll platform db (first ++ second) =
      executeAll platform (executeAll platform db first) second := by
  simp [executeAll]

/-- A call publishes lawful commits and keeps its promise. -/
theorem execute_delivers (invocation : Invocation) (db : Database) :
    (contract platform).Delivers invocation.call [] false db
      (execute platform invocation db) :=
  (invocation.call.meets platform).run True.intro invocation.answers

section Invariant

variable {Holds : Database → Prop}
    (kept :
      ∀ db call writes,
        Holds db → Lawful platform db call writes →
          Holds ((postgres platform).applyAll writes db))

include kept

theorem execute_invariant
    (invocation : Invocation) (start : Holds db) :
    Holds (execute platform invocation db).link.db := by
  rcases execute_delivers platform invocation db with
    ⟨published, publishes, _⟩
  exact publishes.invariant (contract platform) kept start

/-- A property kept by every lawful commit holds along every run. -/
theorem executeAll_invariant
    (run : List Invocation) (start : Holds db) :
    Holds (executeAll platform db run) := by
  induction run generalizing db with
  | nil => exact start
  | cons invocation rest induction =>
      exact induction (execute_invariant platform kept invocation start)

end Invariant

/-- A property kept by every step of a life holds along every run. -/
theorem executeAll_view
    {Holds : TaskView → Prop}
    (kept :
      ∀ call before wrote after,
        ViewStep platform call before wrote after →
          Holds before → Holds after)
    (run : List Invocation) {id : TaskId} (start : Holds (db.view id)) :
    Holds ((executeAll platform db run).view id) := by
  have kept :
      ∀ current call writes,
        Holds (Database.view current id) →
          Lawful platform current call writes →
            Holds
              (((postgres platform).applyAll writes current).view id) := by
    intro current call writes held lawful
    exact kept call _ _ _ (lawful.viewStep id) held
  exact executeAll_invariant platform kept run start

/-! ## Interleaved runs -/

/-- The sessions of the store and the committed state. -/
abbrev StoreConfig :=
  Config Call Stmt Reply Fault Counter Response Database Write Resource Time

/-- A call of the store in progress. -/
abbrev StoreSession :=
  Session Call Stmt Reply Fault Counter Response Write Resource Time

/-- What a call of `Create` has returned. -/
def createOutcome {Seen : Type} (seen : TaskRow → Seen)
    (session : StoreSession) : Option (Seen × Except StoreError Bool) :=
  match session.program with
  | some (.done response) => response.creation seen
  | _ => none

theorem createOutcome_eq_some {Seen : Type} {seen : TaskRow → Seen}
    {session : StoreSession} {shown : Seen}
    {result : Except StoreError Bool}
    (outcome : createOutcome seen session = some (shown, result)) :
    ∃ returned,
      session.program = some (.done (.created returned result)) := by
  unfold createOutcome Response.creation at outcome
  split at outcome
  · split at outcome
    · cases outcome
      exact ⟨_, by assumption⟩
    · cases outcome
  · cases outcome

/-- A step of the scheduler. -/
abbrev StoreLabel := Label Call Fault Resource Oracle Time

/-- A committed transaction of the store. -/
abbrev StoreCommit := Commit Call Write

/-- Follow a schedule from a committed state without sessions. -/
def interleave (db : Database) (schedule : List StoreLabel) :
    Option StoreConfig :=
  (postgres platform).follow (Call.program platform) { db } schedule

variable {platform}

variable {schedule : List StoreLabel} {config : StoreConfig}

theorem interleave_ok
    (followed : interleave platform db schedule = some config) :
    (contract platform).ConfigOk db config :=
  Contract.follow_ok (Call.meets platform) followed

/-- A property kept by every step of a life holds under every schedule. -/
theorem interleave_view
    {Holds : TaskView → Prop}
    (kept :
      ∀ call before wrote after,
        ViewStep platform call before wrote after →
          Holds before → Holds after)
    (followed : interleave platform db schedule = some config) {id : TaskId}
    (start : Holds (db.view id)) :
    Holds (config.db.view id) := by
  have kept :
      ∀ current call writes,
        Holds (Database.view current id) →
          (contract platform).Lawful current call writes →
            Holds
              (((postgres platform).applyAll writes current).view id) := by
    intro current call writes held lawful
    exact kept call _ _ _ (Lawful.viewStep lawful id) held
  exact (interleave_ok followed).publishes.invariant
    (contract platform) kept start

/-- A property of the history kept by every lawful commit. -/
theorem interleave_history
    {Holds : List StoreCommit → Database → Prop}
    (kept :
      ∀ history current (commit : StoreCommit),
        Holds history current →
          Lawful platform current commit.call commit.writes →
            Holds (history ++ [commit])
              ((postgres platform).applyAll commit.writes current))
    (followed : interleave platform db schedule = some config)
    (start : Holds [] db) :
    Holds config.history config.db := by
  have invariant :
      ∀ config label next,
        ((contract platform).ConfigOk db config ∧
            Holds config.history config.db) →
          (postgres platform).step (Call.program platform) config
              label = some next →
            (contract platform).ConfigOk db next ∧
              Holds next.history next.db := by
    rintro config label next ⟨ok, held⟩ stepped
    refine ⟨Contract.step_ok (Call.meets platform) ok stepped, ?_⟩
    rcases ok.step_cases stepped with
      ⟨same, silent⟩ | ⟨commit, lawful, applied, recorded, _⟩
    · rw [same, silent]
      exact held
    · rw [applied, recorded]
      exact kept _ _ commit held lawful
  exact ((postgres platform).follow_invariant invariant
    ⟨(contract platform).configOk_start db, start⟩ followed).2

/-- One step takes every view through at most one step of its life. -/
theorem step_viewStep
    {pruned : Prop} {next : StoreConfig} {label : StoreLabel}
    (ok : (openContract platform pruned).Coherent config)
    (stepped :
      (postgres platform).step (Call.program platform) config label =
        some next)
    (id : TaskId) :
    ∃ call wrote,
      ViewStep platform call (config.db.view id) wrote (next.db.view id) := by
  rcases ok.step_cases stepped with
    ⟨same, _⟩ | ⟨commit, lawful, applied, _, _⟩
  · rw [same]
    exact ⟨.cancel id, none, .stay _⟩
  · rw [applied]
    exact ⟨commit.call, _, Lawful.viewStep lawful id⟩

end Runs

/-! ## Answers of concrete runs -/

/-- Every round trip succeeds. -/
def calm (newId : TaskId) (clock : Time) : Answers :=
  fun _ => ⟨none, fun _ => false, ⟨0, newId, 0⟩, clock⟩

/-- Every round trip succeeds but one. -/
def calmExcept (position : Nat) (fault : Fault) : Answers :=
  fun index =>
    { calm 0 0 index with
      fault := if index = position then some fault else none }

/-- A task that is due from time zero on. -/
def emailTask (payload : GoString) : TaskRow :=
  { type := ascii "email", payload, maxRetries := 3, runAt := 0 }

end Dhara.Store
