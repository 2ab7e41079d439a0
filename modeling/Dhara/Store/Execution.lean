import Dhara.Store.Runs

/-!
# One call on its own

The execution of a call, one round trip after the other.  Every round trip is
answered by a fault, and then the call gives up, or it goes on with the rest
of the program and the rest of the answers.
-/

namespace Dhara.Store

open Dhara.Transaction

/-- What a call of the store leaves behind. -/
abbrev StoreOutcome (Result : Type) :=
  Outcome Database Write Resource Time Counter Result

/-- The call returned an error, and committed and counted nothing. -/
structure GaveUp (db : Database) (outcome : StoreOutcome Response) :
    Prop where
  failed : outcome.result.failed = true
  same : outcome.link.db = db
  uncounted : outcome.counts = []

/-- The error is one of the driver. -/
def StoreError.ofFault : StoreError → Bool
  | .database _ => true
  | .wrapped _ _ => true
  | _ => false

/-- The call gave up with the error of a round trip. -/
structure Aborted (fail : StoreError → Response) (db : Database)
    (outcome : StoreOutcome Response) : Prop where
  error : ∃ error, error.ofFault = true ∧ outcome.result = fail error
  same : outcome.link.db = db
  uncounted : outcome.counts = []

theorem Aborted.gaveUp
    {fail : StoreError → Response} {db : Database}
    {outcome : StoreOutcome Response} (aborted : Aborted fail db outcome)
    (fails : ∀ error, (fail error).failed = true) :
    GaveUp db outcome := by
  rcases aborted.error with ⟨error, _, result⟩
  exact ⟨by rw [result, fails], aborted.same, aborted.uncounted⟩

/-- The answers after the first ones. -/
def Answers.drop (answers : Answers) (count : Nat) : Answers :=
  fun position => answers (position + count)

/-- Some round trip is answered by a fault. -/
def Answers.Faulty (answers : Answers) : Prop :=
  ∃ position, (answers position).fault ≠ none

@[simp]
theorem Answers.drop_drop (answers : Answers) (first second : Nat) :
    (answers.drop first).drop second = answers.drop (second + first) := by
  funext position
  simp [Answers.drop, Nat.add_assoc]

@[simp]
theorem Answers.drop_zero (answers : Answers) :
    answers.drop 0 = answers :=
  rfl

theorem Answers.Faulty.of_drop
    {answers : Answers} {count : Nat}
    (faulty : (answers.drop count).Faulty) : answers.Faulty := by
  rcases faulty with ⟨position, fault⟩
  exact ⟨position + count, fault⟩

theorem Answers.Faulty.of_fault
    {answers : Answers} {position : Nat} {fault : Fault}
    (found : (answers position).fault = some fault) :
    answers.Faulty :=
  ⟨position, by simp [found]⟩

/-- A round trip without a fault leaves no trace in the outcome. -/
@[simp]
theorem outcome_after_ok {Reply Result : Type} (reply : Reply)
    (outcome : StoreOutcome Result) :
    outcome.after (.ok reply : Except Fault Reply) = outcome := by
  simp [Outcome.after]

section RoundTrips

variable {platform : Platform} {answers : Answers} {db : Database}
  {tx : Tx Write Resource Time}

theorem aborted_done
    {fail : StoreError → Response} {error : StoreError}
    (driver : error.ofFault = true) {Reply : Type} (fault : Fault)
    (tx : Option (Tx Write Resource Time)) :
    Aborted fail db
      (((postgres platform).run (.done (fail error)) answers
        ⟨db, tx⟩).after (.error fault : Except Fault Reply)) :=
  ⟨⟨error, driver, rfl⟩, rfl, rfl⟩

theorem run_openTx
    (answers : Answers) (db : Database) (fail : StoreError → Response)
    (next : StoreProgram Response) :
    (answers.Faulty ∧
        Aborted fail db
          ((postgres platform).run (openTx fail next) answers ⟨db, none⟩)) ∨
      ((answers 0).fault = none ∧
        (postgres platform).run (openTx fail next) answers ⟨db, none⟩ =
          (postgres platform).run next (answers.drop 1)
            ⟨db, some { startedAt := (answers 0).clock }⟩) := by
  simp only [openTx, Engine.run, beginTx]
  cases found : (answers 0).fault with
  | some fault =>
      exact Or.inl ⟨.of_fault found, aborted_done rfl fault none⟩
  | none =>
      refine Or.inr ⟨rfl, ?_⟩
      exact outcome_after_ok () _

theorem opened_usable (startedAt : Time) :
    ({ startedAt } : Tx Write Resource Time).failed = false :=
  rfl

/-- The statement is refused on the state its transaction sees. -/
def Refused (platform : Platform)
    (answer : Answer Fault Resource Oracle Time) (stmt : Stmt)
    (db : Database) (tx : Tx Write Resource Time) : Prop :=
  ∃ fault,
    eval platform tx.startedAt answer.others answer.oracle stmt
      ((postgres platform).applyAll tx.writes db) = .error fault

/-- A log entry is accepted if its text can be stored and its task exists. -/
theorem not_refused_insertLog
    {answer : Answer Fault Resource Oracle Time} {id : TaskId}
    {status : TaskStatus} {message : GoString} (text : isText message = true)
    (present :
      (((postgres platform).applyAll tx.writes db).find id).isSome = true) :
    ¬ Refused platform answer (.insertLog id status message) db tx := by
  rintro ⟨fault, refused⟩
  simp only [eval, toText_of_isText text, Except.bind, evalReferencing,
    if_pos present] at refused
  cases refused

/-- The fault that the statement is answered by. -/
def Raised (platform : Platform)
    (answer : Answer Fault Resource Oracle Time) (stmt : Stmt)
    (db : Database) (tx : Tx Write Resource Time) (fault : Fault) :
    Prop :=
  answer.fault = some fault ∨
    eval platform tx.startedAt answer.others answer.oracle stmt
      ((postgres platform).applyAll tx.writes db) = .error fault

/-- One statement inside a transaction, with the fault it is answered by. -/
theorem run_exec
    (platform : Platform) (answers : Answers) (db : Database) {Result : Type}
    (stmt : Stmt) (next : Except Fault (Reply stmt) → StoreProgram Result)
    (usable : tx.failed = false) :
    (∃ fault,
      Raised platform (answers 0) stmt db tx fault ∧
        (postgres platform).run (.exec stmt next) answers
            ⟨db, some tx⟩ =
          ((postgres platform).run (next (.error fault))
            (answers.drop 1)
            ⟨db, some { tx with failed := !fault.driverSide }⟩).after
              (.error fault : Except Fault (Reply stmt))) ∨
      ∃ effect,
        (answers 0).fault = none ∧
          eval platform tx.startedAt (answers 0).others
              (answers 0).oracle stmt
              ((postgres platform).applyAll tx.writes db) =
            .ok effect ∧
          (postgres platform).run (.exec stmt next) answers
              ⟨db, some tx⟩ =
            (postgres platform).run (next (.ok effect.reply))
              (answers.drop 1)
              ⟨db,
                some
                  { tx with
                    writes := tx.writes ++ effect.writes
                    locks := tx.locks ++ effect.locks }⟩ := by
  simp only [Engine.run, Engine.execTx, Engine.runStmt, usable, Raised]
  cases found : (answers 0).fault with
  | some fault => exact Or.inl ⟨fault, Or.inl rfl, rfl⟩
  | none =>
      have evaluates :
          (postgres platform).eval tx.startedAt (answers 0).others
              (answers 0).oracle stmt
              ((postgres platform).applyAll tx.writes db) =
            eval platform tx.startedAt (answers 0).others
              (answers 0).oracle stmt
              ((postgres platform).applyAll tx.writes db) :=
        rfl
      simp only [evaluates]
      cases evaluated :
          eval platform tx.startedAt (answers 0).others
            (answers 0).oracle stmt
            ((postgres platform).applyAll tx.writes db) with
      | error fault => exact Or.inl ⟨fault, Or.inr rfl, rfl⟩
      | ok effect =>
          refine Or.inr ⟨effect, True.intro, rfl, ?_⟩
          exact outcome_after_ok effect.reply _

theorem Raised.cause
    {answer : Answer Fault Resource Oracle Time} {stmt : Stmt} {fault : Fault}
    (raised : Raised platform answer stmt db tx fault) :
    answer.fault ≠ none ∨ Refused platform answer stmt db tx := by
  rcases raised with disturbed | refused
  · exact Or.inl (by simp [disturbed])
  · exact Or.inr ⟨fault, refused⟩

/-- A statement that is neither disturbed nor refused. -/
theorem run_exec_answered
    {Result : Type} {stmt : Stmt}
    {next : Except Fault (Reply stmt) → StoreProgram Result}
    (usable : tx.failed = false) (calm : (answers 0).fault = none)
    {effect : Effect (Reply stmt) Write Resource}
    (evaluated :
      eval platform tx.startedAt (answers 0).others (answers 0).oracle
        stmt ((postgres platform).applyAll tx.writes db) = .ok effect) :
    (postgres platform).run (.exec stmt next) answers ⟨db, some tx⟩ =
      (postgres platform).run (next (.ok effect.reply)) (answers.drop 1)
        ⟨db,
          some
            { tx with
              writes := tx.writes ++ effect.writes
              locks := tx.locks ++ effect.locks }⟩ := by
  rcases run_exec platform answers db stmt next usable with
    ⟨fault, disturbed | refused, _⟩ | ⟨other, _, same, runs⟩
  · rw [calm] at disturbed
    cases disturbed
  · rw [evaluated] at refused
    cases refused
  · rw [evaluated] at same
    cases same
    exact runs

theorem run_sendTx
    (answers : Answers) (db : Database) (fail : StoreError → Response)
    {stmt : Stmt} {context : String} {next : StoreProgram Response}
    (usable : tx.failed = false) :
    (((answers 0).fault ≠ none ∨
          Refused platform (answers 0) stmt db tx) ∧
        Aborted fail db
          ((postgres platform).run (sendTx fail stmt context next)
            answers ⟨db, some tx⟩)) ∨
      ∃ effect,
        (answers 0).fault = none ∧
          eval platform tx.startedAt (answers 0).others
              (answers 0).oracle stmt
              ((postgres platform).applyAll tx.writes db) =
            .ok effect ∧
          (postgres platform).run (sendTx fail stmt context next)
              answers ⟨db, some tx⟩ =
            (postgres platform).run next (answers.drop 1)
              ⟨db,
                some
                  { tx with
                    writes := tx.writes ++ effect.writes
                    locks := tx.locks ++ effect.locks }⟩ := by
  rcases run_exec platform answers db stmt _ usable with
    ⟨fault, raised, equal⟩ | ⟨effect, calm, evaluated, equal⟩
  · refine Or.inl ⟨raised.cause, ?_⟩
    rw [sendTx, equal]
    exact aborted_done rfl fault _
  · refine Or.inr ⟨effect, calm, evaluated, ?_⟩
    rw [sendTx, equal]

theorem run_commitTx
    (answers : Answers) (db : Database) (fail : StoreError → Response)
    {context : String} {next : StoreProgram Response}
    (usable : tx.failed = false) :
    ((answers 0).fault ≠ none ∧
        Aborted fail db
          ((postgres platform).run (commitTx fail context next) answers
            ⟨db, some tx⟩)) ∨
      ((answers 0).fault = none ∧
        (postgres platform).run (commitTx fail context next) answers
            ⟨db, some tx⟩ =
          (postgres platform).run next (answers.drop 1)
            ⟨(postgres platform).applyAll tx.writes db, none⟩) := by
  simp only [commitTx, Engine.run, Engine.commitTx, usable]
  cases found : (answers 0).fault with
  | some fault =>
      exact Or.inl ⟨by simp, aborted_done rfl fault none⟩
  | none =>
      refine Or.inr ⟨rfl, ?_⟩
      exact outcome_after_ok () _

end RoundTrips

end Dhara.Store
