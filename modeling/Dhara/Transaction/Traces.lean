import Dhara.Transaction.Interleaving
import Mathlib.Data.List.Induction

/-!
# What happens along a schedule

A moment of a schedule is one of its steps, with the configurations before
and after.  `Engine.follow_trace` proves a property of the final
configuration by induction over the moments of the schedule.

`Program.Along` says that every node a program can still reach satisfies a
property, given the replies its lookups have seen.  It follows the stage of
the transaction: nothing written, something written, something published.
-/

namespace Dhara.Transaction

section Trips

variable {Call Stmt : Type} {Reply : Stmt → Type}
  {Fault Db Write Res Oracle Time Counter Result : Type}
  {engine : Engine Stmt Reply Fault Db Write Res Oracle Time}
  {session after :
    Session Call Stmt Reply Fault Counter Result Write Res Time}
  {moved : Moved Call Stmt Reply Fault Counter Result Db Write Res Time}
  {program : Program Stmt Reply Fault Counter Result}
  {answer : Answer Fault Res Oracle Time}

/-! ## One round trip -/

/-- What the program does with a fault. -/
def Program.onFault (fault : Fault) :
    Program Stmt Reply Fault Counter Result →
      Option (Program Stmt Reply Fault Counter Result)
  | .begin next => some (next (.error fault))
  | .exec _ next => some (next (.error fault))
  | .query _ next => some (next (.error fault))
  | .scan next => some (next (.error fault))
  | .commit next => some (next (.error fault))
  | _ => none

/--
What a fault leaves of a transaction: nothing, or the transaction, which may
be aborted.
-/
def Tainted (before after : Option (Tx Write Res Time)) : Prop :=
  ∀ opened, after = some opened →
    ∃ old failed, before = some old ∧ opened = { old with failed }

theorem Tainted.refl (tx : Option (Tx Write Res Time)) :
    Tainted tx tx :=
  fun opened current => ⟨opened, opened.failed, current, rfl⟩

theorem Tainted.none (before : Option (Tx Write Res Time)) :
    Tainted before none := by
  intro opened impossible
  cases impossible

theorem Tainted.unwritten
    {before after : Option (Tx Write Res Time)}
    (tainted : Tainted before after) :
    ∀ opened, after = some opened →
      ∃ old, before = some old ∧ opened.writes = old.writes := by
  intro opened current
  rcases tainted opened current with ⟨old, failed, located, equal⟩
  exact ⟨old, located, by rw [equal]⟩

/-- Everything one round trip of a session can do. -/
inductive Engine.Trip
    (engine : Engine Stmt Reply Fault Db Write Res Oracle Time)
    (answer : Answer Fault Res Oracle Time) (db : Db)
    (session : Session Call Stmt Reply Fault Counter Result Write Res Time) :
    Moved Call Stmt Reply Fault Counter Result Db Write Res Time → Prop where
  | rollback (result : Result)
      (program : session.program = some (.done result)) :
      Trip engine answer db session
        { db, session := { session with tx := none } }
  | fault (fault : Fault)
      (program rest : Program Stmt Reply Fault Counter Result)
      (tx : Option (Tx Write Res Time))
      (current : session.program = some program)
      (failing : program.onFault fault = some rest)
      (tainted : Tainted session.tx tx) :
      Trip engine answer db session
        { db
          session :=
            { session with program := some rest, tx, faulted := true } }
  | begun (next : Except Fault Unit →
        Program Stmt Reply Fault Counter Result)
      (program : session.program = some (.begin next)) :
      Trip engine answer db session
        { db
          session :=
            { session with
              program := some (next (.ok ()))
              tx := some { startedAt := answer.clock } } }
  | executed (stmt : Stmt)
      (next : Except Fault (Reply stmt) →
        Program Stmt Reply Fault Counter Result)
      (tx : Tx Write Res Time) (effect : Effect (Reply stmt) Write Res)
      (program : session.program = some (.exec stmt next))
      (opened : session.tx = some tx)
      (evaluated :
        engine.eval tx.startedAt answer.others answer.oracle stmt
          (engine.applyAll tx.writes db) = .ok effect) :
      Trip engine answer db session
        { db
          session :=
            { session with
              program := some (next (.ok effect.reply))
              tx :=
                some
                  { tx with
                    writes := tx.writes ++ effect.writes
                    locks := tx.locks ++ effect.locks } } }
  | queried (stmt : Stmt)
      (next : Except Fault (Reply stmt) →
        Program Stmt Reply Fault Counter Result)
      (effect : Effect (Reply stmt) Write Res)
      (program : session.program = some (.query stmt next))
      (quiet : answer.fault = none)
      (evaluated :
        engine.eval answer.clock answer.others answer.oracle stmt db =
          .ok effect) :
      Trip engine answer db session
        { db := engine.applyAll effect.writes db
          session :=
            { session with
              program := some (next (.ok effect.reply))
              commits := publish effect.writes session.commits }
          published := effect.writes }
  | scanned (next : Except Fault Unit →
        Program Stmt Reply Fault Counter Result)
      (program : session.program = some (.scan next)) :
      Trip engine answer db session
        { db
          session := { session with program := some (next (.ok ())) } }
  | committed (next : Except Fault Unit →
        Program Stmt Reply Fault Counter Result)
      (tx : Tx Write Res Time)
      (program : session.program = some (.commit next))
      (opened : session.tx = some tx) :
      Trip engine answer db session
        { db := engine.applyAll tx.writes db
          session :=
            { session with
              program := some (next (.ok ()))
              tx := none
              commits := publish tx.writes session.commits }
          published := tx.writes }
  | counted (counter : Counter) (amount : Nat)
      (next : Program Stmt Reply Fault Counter Result)
      (program : session.program = some (.count counter amount next)) :
      Trip engine answer db session
        { db
          session :=
            { session with
              program := some next
              counts := session.counts ++ [(counter, amount)] } }

theorem Engine.advance_trip
    {db : Db} (advanced : engine.advance answer db session = some moved) :
    engine.Trip answer db session moved := by
  have same := Tainted.refl session.tx
  have closed := Tainted.none session.tx
  unfold Engine.advance at advanced
  split at advanced
  · cases advanced
  · rename_i result program
    split at advanced
    · cases advanced
    · cases advanced
      exact .rollback result program
  · rename_i next program
    cases advanced
    rcases beginTx_cases answer db session.tx with
      ⟨fault, replied⟩ | replied
    · rw [replied]
      simpa [Session.resume] using
        Engine.Trip.fault fault _ _ session.tx program rfl same
    · rw [replied]
      simpa [Session.resume] using Engine.Trip.begun next program
  · rename_i stmt next program
    split at advanced
    · cases advanced
    · cases advanced
      cases opened : session.tx with
      | none =>
          simpa [Session.resume, Engine.execTx, opened] using
            Engine.Trip.fault engine.closed _ _ none program rfl closed
      | some tx =>
          rcases engine.execTx_cases answer stmt db tx with
            ⟨fault, failed, replied⟩ | ⟨_, _, effect, evaluated, replied⟩
          · have tainted :
                Tainted session.tx (some { tx with failed }) := by
              intro current equal
              cases equal
              exact ⟨tx, failed, opened, rfl⟩
            rw [replied]
            simpa [Session.resume] using
              Engine.Trip.fault fault _ _ _ program rfl tainted
          · rw [replied]
            simpa [Session.resume] using
              Engine.Trip.executed stmt next tx effect program opened
                evaluated
  · rename_i stmt next program
    split at advanced
    · cases advanced
    · cases advanced
      simp only [Engine.queryPool, Engine.queryWrites]
      cases quiet : answer.fault with
      | some fault =>
          simpa [Session.resume] using
            Engine.Trip.fault fault _ _ session.tx program rfl same
      | none =>
          cases evaluated :
              engine.eval answer.clock answer.others answer.oracle
                stmt db with
          | error fault =>
              simpa [Session.resume] using
                Engine.Trip.fault fault _ _ session.tx program rfl same
          | ok effect =>
              simpa [Session.resume] using
                Engine.Trip.queried stmt next effect program quiet evaluated
  · rename_i next program
    cases advanced
    rcases scanRow_cases answer with ⟨fault, replied⟩ | replied
    · rw [replied]
      simpa [Session.resume] using
        Engine.Trip.fault fault _ _ session.tx program rfl same
    · rw [replied]
      simpa [Session.resume] using Engine.Trip.scanned next program
  · rename_i next program
    cases advanced
    simp only [Engine.commitTx, commitWrites]
    cases opened : session.tx with
    | none =>
        simpa [Session.resume] using
          Engine.Trip.fault engine.closed _ _ none program rfl closed
    | some tx =>
        cases answer.fault with
        | some fault =>
            simpa [Session.resume] using
              Engine.Trip.fault fault _ _ none program rfl closed
        | none =>
            cases failed : tx.failed with
            | true =>
                simpa [Session.resume, failed] using
                  Engine.Trip.fault engine.refused _ _ none program rfl closed
            | false =>
                simpa [Session.resume, failed] using
                  Engine.Trip.committed next tx program opened
  · rename_i counter amount next program
    cases advanced
    exact .counted counter amount next program

/-! ## Programs along their replies -/

/-- How far the transaction of a session has come. -/
inductive Stage where
  | clean
  | dirty
  | published
deriving DecidableEq

/-- The stage after a new transaction. -/
def Stage.reset : Stage → Stage
  | .dirty => .clean
  | stage => stage

/-- The stage after a statement with the given writes. -/
def Stage.write (writes : List Write) : Stage → Stage
  | .clean => if writes.isEmpty then .clean else .dirty
  | stage => stage

/-- The stage after a statement of its own transaction. -/
def Stage.publish (writes : List Write) (stage : Stage) : Stage :=
  if writes.isEmpty then stage else .published

/-- The stage after a commit. -/
def Stage.commit : Stage → Stage
  | .dirty => .published
  | stage => stage

/-- The stage is that of the session. -/
def Stage.Fits
    (session : Session Call Stmt Reply Fault Counter Result Write Res Time) :
    Stage → Prop
  | .clean =>
      session.commits = [] ∧ ∀ tx, session.tx = some tx → tx.writes = []
  | .dirty =>
      session.commits = [] ∧ ∀ tx, session.tx = some tx → tx.writes ≠ []
  | .published => session.commits ≠ []

variable
    (engine)
    (Saw : (stmt : Stmt) → Reply stmt → Prop)
    (Node : Stage → Program Stmt Reply Fault Counter Result → Prop)

/--
Every node the program can still reach satisfies `Node`, if all replies to
its lookups satisfy `Saw`.
-/
def Program.Along :
    Stage → Program Stmt Reply Fault Counter Result → Prop
  | stage, .done result => Node stage (.done result)
  | stage, .begin next =>
      Node stage (.begin next) ∧
        (∀ fault, Program.Along stage (next (.error fault))) ∧
        Program.Along stage.reset (next (.ok ()))
  | stage, .exec stmt next =>
      Node stage (.exec stmt next) ∧
        (∀ fault, Program.Along stage (next (.error fault))) ∧
        ∀ clock others oracle db effect,
          engine.eval clock others oracle stmt db = .ok effect →
            Program.Along (stage.write effect.writes)
              (next (.ok effect.reply))
  | stage, .query stmt next =>
      Node stage (.query stmt next) ∧
        (∀ fault, Program.Along stage (next (.error fault))) ∧
        ∀ clock others oracle db effect,
          engine.eval clock others oracle stmt db = .ok effect →
            Saw stmt effect.reply →
              Program.Along (stage.publish effect.writes)
                (next (.ok effect.reply))
  | stage, .scan next =>
      Node stage (.scan next) ∧
        (∀ fault, Program.Along stage (next (.error fault))) ∧
        Program.Along stage (next (.ok ()))
  | stage, .commit next =>
      Node stage (.commit next) ∧
        (∀ fault, Program.Along stage (next (.error fault))) ∧
        Program.Along stage.commit (next (.ok ()))
  | stage, .count counter amount next =>
      Node stage (.count counter amount next) ∧ Program.Along stage next

/--
The session is at a stage from which `Node` holds along its program.  If it
crashed after publishing something, `Node` held where it crashed.
-/
structure Session.Along
    (session : Session Call Stmt Reply Fault Counter Result Write Res Time) :
    Prop where
  alive :
    ∀ program, session.program = some program →
      ∃ stage : Stage,
        stage.Fits session ∧ Program.Along engine Saw Node stage program
  crashed :
    session.program = none → session.commits ≠ [] →
      ∃ program, Node .published program ∧ ∀ result, program ≠ .done result

variable {engine Saw Node}

variable {stage : Stage}

theorem Program.Along.here
    (along : Program.Along engine Saw Node stage program) :
    Node stage program := by
  cases program with
  | done result => exact along
  | _ => exact along.1

theorem Program.Along.onFault
    {fault : Fault} {rest : Program Stmt Reply Fault Counter Result}
    (along : Program.Along engine Saw Node stage program)
    (failing : program.onFault fault = some rest) :
    Program.Along engine Saw Node stage rest := by
  cases program with
  | done result => cases failing
  | count counter amount next => cases failing
  | _ =>
      cases failing
      exact along.2.1 fault

theorem Stage.Fits.published
    (fits : stage.Fits session) (committed : session.commits ≠ []) :
    stage = .published := by
  cases stage with
  | published => rfl
  | _ => exact (committed fits.1).elim

/-- A fault leaves the stage as it is. -/
theorem Stage.Fits.unwritten
    (fits : stage.Fits session) (commits : after.commits = session.commits)
    (unwritten :
      ∀ opened, after.tx = some opened →
        ∃ old, session.tx = some old ∧ opened.writes = old.writes) :
    stage.Fits after := by
  cases stage with
  | published =>
      change after.commits ≠ []
      rw [commits]
      exact fits
  | clean =>
      refine ⟨commits.trans fits.1, ?_⟩
      intro opened current
      rcases unwritten opened current with ⟨old, before, same⟩
      rw [same]
      exact fits.2 old before
  | dirty =>
      refine ⟨commits.trans fits.1, ?_⟩
      intro opened current
      rcases unwritten opened current with ⟨old, before, same⟩
      rw [same]
      exact fits.2 old before

theorem publish_ne_nil {Entry : Type}
    {entry : List Entry} {commits : List (List Entry)}
    (nonempty : entry ≠ [] ∨ commits ≠ []) :
    publish entry commits ≠ [] := by
  cases entry with
  | nil => simpa using nonempty
  | cons first rest => simp

theorem Stage.Fits.write
    {tx : Tx Write Res Time} (fits : stage.Fits session)
    (opened : session.tx = some tx) {writes : List Write} {locks : List Res}
    (commits : after.commits = session.commits)
    (grown :
      after.tx =
        some { tx with writes := tx.writes ++ writes, locks := locks }) :
    (stage.write writes).Fits after := by
  cases stage with
  | clean =>
      have clean := fits.2 tx opened
      simp only [Stage.write]
      split_ifs with silent
      · refine ⟨commits.trans fits.1, ?_⟩
        intro current equal
        rw [grown] at equal
        cases equal
        simpa [clean] using silent
      · refine ⟨commits.trans fits.1, ?_⟩
        intro current equal
        rw [grown] at equal
        cases equal
        simpa [clean] using silent
  | dirty =>
      refine ⟨commits.trans fits.1, ?_⟩
      intro current equal
      rw [grown] at equal
      cases equal
      have written := fits.2 tx opened
      simp [written]
  | published =>
      change after.commits ≠ []
      rw [commits]
      exact fits

theorem Stage.Fits.publish
    (fits : stage.Fits session) {writes : List Write}
    (commits : after.commits = Transaction.publish writes session.commits)
    (same : after.tx = session.tx) :
    (stage.publish writes).Fits after := by
  cases writes with
  | nil =>
      apply fits.unwritten commits
      intro opened current
      exact ⟨opened, same ▸ current, rfl⟩
  | cons first rest =>
      change after.commits ≠ []
      rw [commits]
      exact publish_ne_nil (Or.inl (by simp))

theorem Stage.Fits.commit
    {tx : Tx Write Res Time} (fits : stage.Fits session)
    (opened : session.tx = some tx)
    (commits : after.commits = Transaction.publish tx.writes session.commits)
    (closed : after.tx = none) :
    stage.commit.Fits after := by
  have unopened :
      ∀ current, after.tx = some current → current.writes = [] := by
    intro current equal
    rw [closed] at equal
    cases equal
  cases stage with
  | clean =>
      refine ⟨?_, unopened⟩
      rw [commits, fits.2 tx opened]
      exact fits.1
  | dirty =>
      change after.commits ≠ []
      rw [commits]
      exact publish_ne_nil (Or.inl (fits.2 tx opened))
  | published =>
      change after.commits ≠ []
      rw [commits]
      exact publish_ne_nil (Or.inr fits)

/-- One round trip leads along the program. -/
theorem Session.Along.trip
    {db : Db} (along : Session.Along engine Saw Node session)
    (trip : engine.Trip answer db session moved)
    (saw :
      ∀ stmt rest effect,
        session.program = some (.query stmt rest) →
          answer.fault = none →
          engine.eval answer.clock answer.others answer.oracle stmt
              db = .ok effect →
            Saw stmt effect.reply) :
    Session.Along engine Saw Node moved.session := by
  have kept :
      ∀ opened, session.tx = some opened →
        ∃ old, session.tx = some old ∧ opened.writes = old.writes :=
    fun opened current => ⟨opened, current, rfl⟩
  cases trip with
  | rollback result program =>
      refine ⟨?_, fun impossible => ?_⟩
      · intro other equal
        rcases along.alive other equal with ⟨stage, fits, node⟩
        refine ⟨stage, fits.unwritten rfl ?_, node⟩
        intro opened impossible
        cases impossible
      · rw [program] at impossible
        cases impossible
  | fault fault program rest tx current failing tainted =>
      refine ⟨?_, nofun⟩
      intro other equal
      cases equal
      rcases along.alive program current with ⟨stage, fits, node⟩
      exact ⟨stage, fits.unwritten rfl tainted.unwritten,
        node.onFault failing⟩
  | begun next program =>
      refine ⟨?_, nofun⟩
      intro other equal
      cases equal
      rcases along.alive _ program with ⟨stage, fits, node⟩
      refine ⟨stage.reset, ?_, node.2.2⟩
      cases stage with
      | published => exact fits
      | _ =>
          refine ⟨fits.1, ?_⟩
          intro opened current
          cases current
          rfl
  | executed stmt next tx effect program opened evaluated =>
      refine ⟨?_, nofun⟩
      intro other equal
      cases equal
      rcases along.alive _ program with ⟨stage, fits, node⟩
      exact ⟨_, fits.write opened rfl rfl, node.2.2 _ _ _ _ _ evaluated⟩
  | queried stmt next effect program quiet evaluated =>
      refine ⟨?_, nofun⟩
      intro other equal
      cases equal
      rcases along.alive _ program with ⟨stage, fits, node⟩
      exact ⟨_, fits.publish rfl rfl,
        node.2.2 _ _ _ _ _ evaluated
          (saw stmt next effect program quiet evaluated)⟩
  | scanned next program =>
      refine ⟨?_, nofun⟩
      intro other equal
      cases equal
      rcases along.alive _ program with ⟨stage, fits, node⟩
      exact ⟨stage, fits.unwritten rfl kept, node.2.2⟩
  | committed next tx program opened =>
      refine ⟨?_, nofun⟩
      intro other equal
      cases equal
      rcases along.alive _ program with ⟨stage, fits, node⟩
      exact ⟨_, fits.commit opened rfl rfl, node.2.2⟩
  | counted counter amount next program =>
      refine ⟨?_, nofun⟩
      intro other equal
      cases equal
      rcases along.alive _ program with ⟨stage, fits, node⟩
      exact ⟨stage, fits.unwritten rfl kept, node.2⟩

/-- A session may crash wherever it is. -/
theorem Session.Along.crash
    (along : Session.Along engine Saw Node session)
    (running : ∀ result, session.program ≠ some (.done result)) :
    Session.Along engine Saw Node
      { session with program := none, tx := none } := by
  refine ⟨nofun, ?_⟩
  intro _ committed
  cases current : session.program with
  | none => exact along.crashed current committed
  | some program =>
      rcases along.alive program current with ⟨stage, fits, node⟩
      rw [fits.published committed] at node
      refine ⟨program, node.here, ?_⟩
      intro result equal
      subst program
      exact running result current

end Trips

section Traces

variable
    {Call Stmt : Type} {Reply : Stmt → Type}
    {Fault Db Write Res Oracle Time Counter Result : Type}
    [DecidableEq Res]
    {engine : Engine Stmt Reply Fault Db Write Res Oracle Time}
    {programOf : Call → Program Stmt Reply Fault Counter Result}
    {start config next final :
      Config Call Stmt Reply Fault Counter Result Db Write Res Time}
    {schedule : List (Label Call Fault Res Oracle Time)}
    {label : Label Call Fault Res Oracle Time}

variable {index : Nat}

variable {earlier later : List (Label Call Fault Res Oracle Time)}
  {call : Call}

/-! ## Moments -/

/-- The schedule takes the step from `config` to `next`. -/
structure Engine.Moment
    (engine : Engine Stmt Reply Fault Db Write Res Oracle Time)
    (programOf : Call → Program Stmt Reply Fault Counter Result)
    (start : Config Call Stmt Reply Fault Counter Result Db Write Res Time)
    (schedule : List (Label Call Fault Res Oracle Time))
    (config : Config Call Stmt Reply Fault Counter Result Db Write Res Time)
    (label : Label Call Fault Res Oracle Time)
    (next : Config Call Stmt Reply Fault Counter Result Db Write Res Time) :
    Prop where
  reached :
    ∃ earlier later,
      schedule = earlier ++ label :: later ∧
        engine.follow programOf start earlier = some config
  stepped : engine.step programOf config label = some next

theorem Engine.follow_append
    (first second : List (Label Call Fault Res Oracle Time)) :
    engine.follow programOf start (first ++ second) =
      (engine.follow programOf start first).bind fun middle =>
        engine.follow programOf middle second := by
  induction first generalizing start with
  | nil => rfl
  | cons label rest induction =>
      simp only [List.cons_append, Engine.follow]
      cases engine.step programOf start label with
      | none => rfl
      | some next => exact induction

/-- The rest of the schedule leads from a moment to the end. -/
theorem Engine.Moment.rest
    (moment : engine.Moment programOf start schedule config label next)
    (followed : engine.follow programOf start schedule = some final) :
    ∃ later, engine.follow programOf next later = some final := by
  rcases moment with ⟨⟨earlier, later, split, reached⟩, stepped⟩
  refine ⟨later, ?_⟩
  rw [split, Engine.follow_append, reached] at followed
  simpa [Engine.follow, stepped] using followed

/-- A property of what was scheduled so far, kept by every step. -/
theorem Engine.follow_along
    {Holds :
      List (Label Call Fault Res Oracle Time) →
        Config Call Stmt Reply Fault Counter Result Db Write Res Time → Prop}
    (kept :
      ∀ earlier later config label next,
        schedule = earlier ++ label :: later →
        engine.follow programOf start earlier = some config →
        engine.step programOf config label = some next →
          Holds earlier config → Holds (earlier ++ [label]) next)
    (held : Holds [] start) (split : schedule = earlier ++ later)
    (followed : engine.follow programOf start earlier = some config) :
    Holds earlier config := by
  induction earlier using List.reverseRecOn generalizing later config with
  | nil =>
      simp only [Engine.follow, Option.some.injEq] at followed
      subst config
      exact held
  | append_singleton earlier label induction =>
      rw [Engine.follow_append, Option.bind_eq_some_iff] at followed
      rcases followed with ⟨middle, reached, last⟩
      simp only [Engine.follow] at last
      cases stepped : engine.step programOf middle label with
      | none => simp [stepped] at last
      | some next =>
          simp only [stepped, Option.some.injEq] at last
          subst config
          rw [List.append_assoc, List.singleton_append] at split
          exact kept earlier later middle label next split reached
            stepped (induction split reached)

section Trace

variable
    {Holds :
      Config Call Stmt Reply Fault Counter Result Db Write Res Time → Prop}
    (kept :
      ∀ config label next,
        engine.Moment programOf start schedule config label next →
          Holds config → Holds next)
    (held : Holds start)

include kept held

/-- A property kept at every moment holds in every configuration. -/
theorem Engine.follow_trace
    (split : schedule = earlier ++ later)
    (followed : engine.follow programOf start earlier = some config) :
    Holds config := by
  have along :
      ∀ earlier later config label next,
        schedule = earlier ++ label :: later →
        engine.follow programOf start earlier = some config →
        engine.step programOf config label = some next →
          Holds config → Holds next :=
    fun earlier later config label next split reached stepped =>
      kept config label next ⟨⟨earlier, later, split, reached⟩, stepped⟩
  exact Engine.follow_along along held split followed

theorem Engine.Moment.trace
    (moment : engine.Moment programOf start schedule config label next) :
    Holds config := by
  rcases moment.reached with ⟨earlier, later, split, reached⟩
  exact Engine.follow_trace kept held split reached

end Trace

/-! ## Sessions along a schedule -/

/-- The session has started and not returned. -/
def Config.InProgress
    (config : Config Call Stmt Reply Fault Counter Result Db Write Res Time)
    (index : Nat) : Prop :=
  ∃ session program,
    config.sessions[index]? = some session ∧
      session.program = some program ∧
      ∀ result, program ≠ .done result

/-- Everything one step of the scheduler can do. -/
inductive Engine.Stepped
    (engine : Engine Stmt Reply Fault Db Write Res Oracle Time)
    (programOf : Call → Program Stmt Reply Fault Counter Result)
    (config : Config Call Stmt Reply Fault Counter Result Db Write Res Time) :
    Label Call Fault Res Oracle Time →
      Config Call Stmt Reply Fault Counter Result Db Write Res Time →
      Prop where
  | spawned (call : Call) :
      Stepped engine programOf config (.spawn call)
        { config with
          sessions :=
            config.sessions ++ [{ call, program := some (programOf call) }] }
  | advanced (index : Nat) (answer : Answer Fault Res Oracle Time)
      (session : Session Call Stmt Reply Fault Counter Result Write Res Time)
      (moved : Moved Call Stmt Reply Fault Counter Result Db Write Res Time)
      (located : config.sessions[index]? = some session)
      (trip :
        engine.Trip
          { answer with others := heldByOthers config.sessions index }
          config.db session moved) :
      Stepped engine programOf config (.advance index answer)
        { db := moved.db
          sessions := config.sessions.set index moved.session
          history :=
            recordCommit config.history index session.call moved.published }
  | crashed (index : Nat)
      (session : Session Call Stmt Reply Fault Counter Result Write Res Time)
      (located : config.sessions[index]? = some session)
      (running : ∀ result, session.program ≠ some (.done result)) :
      Stepped engine programOf config (.crash index)
        { config with
          sessions :=
            config.sessions.set index
              { session with program := none, tx := none } }

theorem Engine.step_cases
    (stepped : engine.step programOf config label = some next) :
    engine.Stepped programOf config label next := by
  rcases Engine.step_eq_some stepped with
    ⟨call, sameLabel, equal⟩ |
      ⟨index, answer, session, moved, sameLabel, located, advanced, equal⟩ |
      ⟨index, session, sameLabel, located, running, equal⟩
  · subst label
    subst next
    exact .spawned call
  · subst label
    subst next
    exact .advanced index answer session moved located
      (Engine.advance_trip advanced)
  · subst label
    subst next
    exact .crashed index session located running

/-- What a step does to one session and to the history. -/
theorem Engine.step_session
    (stepped : engine.step programOf config label = some next)
    {after : Session Call Stmt Reply Fault Counter Result Write Res Time}
    (found : next.sessions[index]? = some after) :
    config.sessions[index]? = some after ∨
      (∃ call,
        label = .spawn call ∧ index = config.sessions.length ∧
          after = { call, program := some (programOf call) }) ∨
      (∃ answer session moved,
        label = .advance index answer ∧
          config.sessions[index]? = some session ∧
          engine.Trip
            { answer with
              others := heldByOthers config.sessions index }
            config.db session moved ∧
          after = moved.session) ∨
      ∃ session,
        config.sessions[index]? = some session ∧
          (∀ result, session.program ≠ some (.done result)) ∧
          after = { session with program := none, tx := none } := by
  cases Engine.step_cases stepped with
  | spawned call =>
      rcases getElem?_concat_some found with old | ⟨last, rfl⟩
      · exact Or.inl old
      · exact Or.inr (Or.inl ⟨call, rfl, last, rfl⟩)
  | advanced position answer session moved located trip =>
      rcases getElem?_set_cases found with ⟨same, moves⟩ | ⟨_, old⟩
      · subst index
        exact Or.inr (Or.inr (Or.inl
          ⟨answer, session, moved, rfl, located, trip, moves⟩))
      · exact Or.inl old
  | crashed position session located running =>
      rcases getElem?_set_cases found with ⟨same, crashed⟩ | ⟨_, old⟩
      · subst after
        subst index
        exact Or.inr (Or.inr (Or.inr ⟨session, located, running, rfl⟩))
      · exact Or.inl old

/--
What the round trips and the crashes of a call keep is true of its session in
every configuration.
-/
theorem Engine.follow_session
    {db : Db}
    {Holds :
      Session Call Stmt Reply Fault Counter Result Write Res Time → Prop}
    (initial : Holds { call, program := some (programOf call) })
    (trips :
      ∀ config label next answer session moved,
        engine.Moment programOf { db } schedule config label next →
          engine.Trip answer config.db session moved →
            Holds session → Holds moved.session)
    (crashes :
      ∀ session, Holds session →
        Holds { session with program := none, tx := none })
    (followed : engine.follow programOf { db } schedule = some config)
    {session : Session Call Stmt Reply Fault Counter Result Write Res Time}
    (found : config.sessions[index]? = some session)
    (called : session.call = call) : Holds session := by
  have held :
      ∀ (index : Nat) session, config.sessions[index]? = some session →
        session.call = call → Holds session := by
    apply Engine.follow_trace _ _ (List.append_nil schedule).symm followed
    · intro config label next moment held index after found called
      rcases Engine.step_session moment.stepped found with
        old | ⟨spawned, _, _, equal⟩ |
          ⟨answer, session, moved, _, located, trip, equal⟩ |
          ⟨session, located, _, equal⟩
      · exact held index after old called
      · subst after
        replace called : spawned = call := called
        subst spawned
        exact initial
      · subst after
        have sameCall : moved.session.call = session.call := by
          cases trip <;> rfl
        exact trips config label next _ session moved moment trip
          (held index session located (sameCall.symm.trans called))
      · subst after
        exact crashes session (held index session located called)
    · intro index session found
      simp at found
  exact held index session found called

theorem Engine.step_length
    (stepped : engine.step programOf config label = some next) :
    config.sessions.length ≤ next.sessions.length := by
  cases Engine.step_cases stepped with
  | spawned call => simp
  | advanced position answer session moved located trip => simp
  | crashed position session located running => simp

/-- A session stays where it is and keeps its call. -/
theorem Engine.step_call
    (stepped : engine.step programOf config label = some next)
    {session : Session Call Stmt Reply Fault Counter Result Write Res Time}
    (found : config.sessions[index]? = some session) :
    ∃ after,
      next.sessions[index]? = some after ∧
        after.call = session.call ∧
        ∀ result, session.program = some (.done result) →
          after.program = some (.done result) := by
  have inside := (List.getElem?_eq_some_iff.mp found).1
  have still := Nat.lt_of_lt_of_le inside (Engine.step_length stepped)
  have stays := List.getElem?_eq_getElem still
  refine ⟨_, stays, ?_⟩
  rcases Engine.step_session stepped stays with
    old | ⟨_, _, last, _⟩ |
      ⟨_, mover, moved, _, located, trip, equal⟩ |
      ⟨victim, located, running, equal⟩
  · rw [found] at old
    cases old
    exact ⟨rfl, fun _ finished => finished⟩
  · omega
  · rw [found] at located
    cases located
    rw [equal]
    cases trip with
    | rollback => exact ⟨rfl, fun _ finished => finished⟩
    | fault fault program rest tx current failing =>
        refine ⟨rfl, ?_⟩
        intro result finished
        rw [finished] at current
        cases current
        cases failing
    | begun _ program | executed _ _ _ _ program
      | queried _ _ _ program | scanned _ program
      | committed _ _ program | counted _ _ _ program =>
        refine ⟨rfl, ?_⟩
        intro result finished
        rw [finished] at program
        cases program
  · rw [found] at located
    cases located
    rw [equal]
    exact ⟨rfl, fun result finished => (running result finished).elim⟩

/-- A session in progress was in progress before, or is new. -/
theorem Engine.step_inProgress
    (stepped : engine.step programOf config label = some next)
    (running : next.InProgress index) :
    config.InProgress index ∨
      ∃ call, label = .spawn call ∧ index = config.sessions.length := by
  rcases running with ⟨after, program, found, current, unfinished⟩
  rcases Engine.step_session stepped found with
    old | ⟨call, spawned, last, _⟩ |
      ⟨_, session, moved, _, located, trip, equal⟩ |
      ⟨_, _, _, equal⟩
  · exact Or.inl ⟨after, program, old, current, unfinished⟩
  · exact Or.inr ⟨call, spawned, last⟩
  · subst after
    refine Or.inl ⟨session, ?_⟩
    cases trip with
    | rollback result finished =>
        change session.program = some program at current
        rw [finished] at current
        cases current
        exact (unfinished result rfl).elim
    | fault fault before rest tx asked failing =>
        refine ⟨before, located, asked, ?_⟩
        intro result equal
        subst before
        cases failing
    | begun _ asked | executed _ _ _ _ asked
      | queried _ _ _ asked | scanned _ asked
      | committed _ _ asked | counted _ _ _ asked =>
        refine ⟨_, located, asked, ?_⟩
        intro result equal
        cases equal
  · subst after
    cases current

/-- A session that has returned keeps its result. -/
theorem Engine.follow_done
    {result : Result}
    (returned :
      ∃ session,
        config.sessions[index]? = some session ∧
          session.call = call ∧
          session.program = some (.done result))
    (followed : engine.follow programOf config schedule = some final) :
    ∃ session,
      final.sessions[index]? = some session ∧
        session.call = call ∧
        session.program = some (.done result) := by
  apply engine.follow_invariant _ returned followed
  rintro config label next ⟨session, found, called, finished⟩ stepped
  rcases Engine.step_call stepped found with
    ⟨after, stays, sameCall, sameResult⟩
  exact ⟨after, stays, sameCall.trans called, sameResult result finished⟩

/-- Only a session in progress publishes something. -/
theorem Engine.step_history
    (stepped : engine.step programOf config label = some next) :
    next.history = config.history ∨
      ∃ commit : Commit Call Write,
        next.history = config.history ++ [commit] ∧
          config.InProgress commit.session := by
  cases Engine.step_cases stepped with
  | spawned call => exact Or.inl rfl
  | crashed position session located running => exact Or.inl rfl
  | advanced position answer session moved located trip =>
      have recorded :
          ∀ writes program,
            session.program = some program →
            (∀ result, program ≠ .done result) →
              recordCommit config.history position session.call
                  writes = config.history ∨
                ∃ commit : Commit Call Write,
                  recordCommit config.history position session.call
                      writes = config.history ++ [commit] ∧
                    config.InProgress commit.session := by
        intro writes program current running
        cases writes with
        | nil => exact Or.inl rfl
        | cons write rest =>
            exact Or.inr
              ⟨⟨position, session.call, write :: rest⟩, rfl,
                session, program, located, current, running⟩
      cases trip with
      | queried stmt rest effect program =>
          apply recorded _ _ program
          intro result equal
          cases equal
      | committed rest tx program opened =>
          apply recorded _ _ program
          intro result equal
          cases equal
      | _ => exact Or.inl rfl

/-- Every commit was published at a moment of its session. -/
theorem Engine.commit_moment
    (fresh : start.history = [])
    (followed : engine.follow programOf start schedule = some final)
    {commit : Commit Call Write} (member : commit ∈ final.history) :
    ∃ config label next,
      engine.Moment programOf start schedule config label next ∧
        next.history = config.history ++ [commit] ∧
        config.InProgress commit.session := by
  have kept :
      ∀ config label next,
        engine.Moment programOf start schedule config label next →
        (∀ entry ∈ config.history,
          ∃ config label next,
            engine.Moment programOf start schedule config label
                next ∧
              next.history = config.history ++ [entry] ∧
              config.InProgress entry.session) →
          ∀ entry ∈ next.history,
            ∃ config label next,
              engine.Moment programOf start schedule config label
                  next ∧
                next.history = config.history ++ [entry] ∧
                config.InProgress entry.session := by
    intro config label next moment explained entry occurs
    rcases Engine.step_history moment.stepped with
      same | ⟨last, grown, running⟩
    · rw [same] at occurs
      exact explained entry occurs
    · rw [grown, List.mem_append, List.mem_singleton] at occurs
      rcases occurs with old | equal
      · exact explained entry old
      · subst entry
        exact ⟨config, label, next, moment, grown, running⟩
  have explained :=
    Engine.follow_trace kept (by simp [fresh])
      (List.append_nil schedule).symm followed
  exact explained commit member

/--
A session whose program satisfies `Node` along its replies does so at every
moment, if `Saw` is true of every lookup it makes in the schedule.
-/
theorem Engine.Moment.along
    {Saw : (stmt : Stmt) → Reply stmt → Prop}
    {Node : Stage → Program Stmt Reply Fault Counter Result → Prop}
    (initial : Program.Along engine Saw Node .clean (programOf call))
    (saw :
      ∀ config answer next session stmt rest effect,
        engine.Moment programOf start schedule config
            (.advance index answer) next →
          config.sessions[index]? = some session →
          session.call = call →
          session.program = some (.query stmt rest) →
          answer.fault = none →
          engine.eval answer.clock
              (heldByOthers config.sessions index) answer.oracle stmt
              config.db = .ok effect →
            Saw stmt effect.reply)
    (moment : engine.Moment programOf start schedule config label next)
    (held :
      ∀ session, config.sessions[index]? = some session →
        session.call = call → Session.Along engine Saw Node session) :
    ∀ session, next.sessions[index]? = some session →
      session.call = call → Session.Along engine Saw Node session := by
  intro after found called
  rcases Engine.step_session moment.stepped found with
    old | ⟨other, _, _, spawned⟩ |
      ⟨answer, session, moved, advanced, located, trip, equal⟩ |
      ⟨session, located, running, equal⟩
  · exact held after old called
  · subst after
    change other = call at called
    subst other
    refine ⟨?_, nofun⟩
    intro program current
    cases current
    exact ⟨.clean, ⟨rfl, nofun⟩, initial⟩
  · subst after
    subst label
    have sameCall : session.call = call := by
      cases trip <;> exact called
    apply (held session located sameCall).trip trip
    intro stmt rest effect program quiet evaluated
    exact saw config answer next session stmt rest effect moment
      located sameCall program quiet evaluated
  · subst after
    exact (held session located called).crash running

end Traces

end Dhara.Transaction
