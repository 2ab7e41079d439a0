import Dhara.Transaction.Traces

/-!
# Watched programs

What a program writes and returns depends on the replies to its statements,
and a reply depends on the committed state at that moment and on what the
transaction has written.  A watch says what its transactions, its statements
outside of transactions and its results must satisfy, if the statements are
evaluated on the states of a given set.  Under a schedule these are the states
the schedule goes through, and every session satisfies what its program was
proved to satisfy.
-/

namespace Dhara.Transaction

section Watched

variable {Call Stmt : Type} {Reply : Stmt → Type}
  {Fault Db Write Res Oracle Time Counter Result : Type}
  {session : Session Call Stmt Reply Fault Counter Result Write Res Time}
  {config : Config Call Stmt Reply Fault Counter Result Db Write Res Time}
  {moved : Moved Call Stmt Reply Fault Counter Result Db Write Res Time}
  {answer : Answer Fault Res Oracle Time}

/-- What is asked of a program on the states that occur. -/
structure Watch (Db Write Res Time Result : Type) where
  occurs : Db → Prop
  transaction : Tx Write Res Time → Prop
  statement : List Write → Prop
  result : Result → Prop

/-- What is asked of transactions does not depend on their end. -/
structure Watch.Sound (watch : Watch Db Write Res Time Result) :
    Prop where
  fresh : ∀ now, watch.transaction { startedAt := now }
  tainted :
    ∀ tx failed, watch.transaction tx → watch.transaction { tx with failed }

section Programs

variable
    (engine : Engine Stmt Reply Fault Db Write Res Oracle Time)
    (watch : Watch Db Write Res Time Result)

/-- The program does what is asked, from this transaction on. -/
def Program.Obeys :
    Option (Tx Write Res Time) →
      Program Stmt Reply Fault Counter Result → Prop
  | _, .done result => watch.result result
  | tx, .begin next =>
      (∀ fault after, Tainted tx after →
        Program.Obeys after (next (.error fault))) ∧
        ∀ now, Program.Obeys (some { startedAt := now }) (next (.ok ()))
  | tx, .exec stmt next =>
      (∀ fault after, Tainted tx after →
        Program.Obeys after (next (.error fault))) ∧
        ∀ opened others oracle db effect, tx = some opened →
          watch.transaction opened → watch.occurs db →
          engine.eval opened.startedAt others oracle stmt
              (engine.applyAll opened.writes db) = .ok effect →
            watch.transaction
                { opened with
                  writes := opened.writes ++ effect.writes
                  locks := opened.locks ++ effect.locks } ∧
              Program.Obeys
                (some
                  { opened with
                    writes := opened.writes ++ effect.writes
                    locks := opened.locks ++ effect.locks })
                (next (.ok effect.reply))
  | tx, .query stmt next =>
      (∀ fault after, Tainted tx after →
        Program.Obeys after (next (.error fault))) ∧
        ∀ clock others oracle db effect, watch.occurs db →
          engine.eval clock others oracle stmt db = .ok effect →
            watch.statement effect.writes ∧
              Program.Obeys tx (next (.ok effect.reply))
  | tx, .scan next =>
      (∀ fault after, Tainted tx after →
        Program.Obeys after (next (.error fault))) ∧
        Program.Obeys tx (next (.ok ()))
  | tx, .commit next =>
      (∀ fault after, Tainted tx after →
        Program.Obeys after (next (.error fault))) ∧
        Program.Obeys none (next (.ok ()))
  | tx, .count _ _ next => Program.Obeys tx next

/-- The session does what is asked from now on. -/
structure Session.Obeys
    (session : Session Call Stmt Reply Fault Counter Result Write Res Time) :
    Prop where
  program :
    ∀ program, session.program = some program →
      program.Obeys engine watch session.tx
  transaction : ∀ tx, session.tx = some tx → watch.transaction tx

end Programs

variable
    {engine : Engine Stmt Reply Fault Db Write Res Oracle Time}
    {watch : Watch Db Write Res Time Result}

theorem Program.Obeys.onFault
    {tx after : Option (Tx Write Res Time)} {fault : Fault}
    {program rest : Program Stmt Reply Fault Counter Result}
    (obeys : program.Obeys engine watch tx)
    (failing : program.onFault fault = some rest)
    (tainted : Tainted tx after) :
    rest.Obeys engine watch after := by
  cases program with
  | done result => cases failing
  | count counter amount next => cases failing
  | _ =>
      cases failing
      exact obeys.1 fault after tainted

/-- One round trip keeps what is asked. -/
theorem Engine.Trip.obeys
    {db : Db} (trip : engine.Trip answer db session moved)
    (sound : watch.Sound) (occurs : watch.occurs db)
    (held : session.Obeys engine watch) :
    moved.session.Obeys engine watch := by
  cases trip with
  | rollback result finished =>
      refine ⟨?_, nofun⟩
      intro program current
      have done : program = .done result :=
        Option.some.inj (current.symm.trans finished)
      subst program
      exact held.program _ finished
  | fault fault before rest tx asked failing tainted =>
      constructor
      · intro program current
        cases current
        exact (held.program before asked).onFault failing tainted
      · intro later equal
        rcases tainted later equal with ⟨old, failed, located, same⟩
        rw [same]
        exact sound.tainted old failed (held.transaction old located)
  | begun next asked =>
      constructor
      · intro program current
        cases current
        exact (held.program _ asked).2 _
      · intro later equal
        cases equal
        exact sound.fresh _
  | executed stmt next tx effect asked located evaluated =>
      have reached :=
        (held.program _ asked).2 tx _ _ db effect located
          (held.transaction tx located) occurs evaluated
      constructor
      · intro program current
        cases current
        exact reached.2
      · intro later equal
        cases equal
        exact reached.1
  | queried stmt next effect asked quiet evaluated =>
      refine ⟨?_, held.transaction⟩
      intro program current
      cases current
      exact ((held.program _ asked).2 _ _ _ db effect occurs evaluated).2
  | scanned next asked =>
      refine ⟨?_, held.transaction⟩
      intro program current
      cases current
      exact (held.program _ asked).2
  | committed next tx asked =>
      refine ⟨?_, nofun⟩
      intro program current
      cases current
      exact (held.program _ asked).2
  | counted counter amount next asked =>
      refine ⟨?_, held.transaction⟩
      intro program current
      cases current
      have counted : (Program.count counter amount next).Obeys engine
          watch session.tx := held.program _ asked
      exact counted

/-- What a round trip publishes. -/
theorem Engine.Trip.published
    {db : Db} (trip : engine.Trip answer db session moved)
    (occurs : watch.occurs db) (held : session.Obeys engine watch) :
    moved.db = engine.applyAll moved.published db ∧
      (moved.published = [] ∨
        (∃ tx,
          session.tx = some tx ∧ moved.published = tx.writes ∧
            moved.session.tx = none) ∨
        watch.statement moved.published ∧ moved.session.tx = session.tx) := by
  cases trip with
  | queried stmt next effect asked quiet evaluated =>
      exact ⟨rfl, Or.inr (Or.inr
        ⟨((held.program _ asked).2 _ _ _ db effect occurs evaluated).1, rfl⟩)⟩
  | committed next tx asked located =>
      exact ⟨rfl, Or.inr (Or.inl ⟨tx, located, rfl, rfl⟩)⟩
  | _ => exact ⟨rfl, Or.inl rfl⟩

variable
    [DecidableEq Res]
    {programOf : Call → Program Stmt Reply Fault Counter Result}
    {start : Config Call Stmt Reply Fault Counter Result Db Write Res Time}
    {schedule : List (Label Call Fault Res Oracle Time)}

/-- The schedule goes through the committed state. -/
def Engine.Visits
    (engine : Engine Stmt Reply Fault Db Write Res Oracle Time)
    (programOf : Call → Program Stmt Reply Fault Counter Result)
    (start : Config Call Stmt Reply Fault Counter Result Db Write Res Time)
    (schedule : List (Label Call Fault Res Oracle Time)) (db : Db) :
    Prop :=
  ∃ earlier later config,
    schedule = earlier ++ later ∧
      engine.follow programOf start earlier = some config ∧
      config.db = db

theorem Engine.Moment.visits
    {next : Config Call Stmt Reply Fault Counter Result Db Write Res Time}
    {label : Label Call Fault Res Oracle Time}
    (moment : engine.Moment programOf start schedule config label next) :
    engine.Visits programOf start schedule config.db := by
  rcases moment.reached with ⟨earlier, later, split, reached⟩
  exact ⟨earlier, label :: later, config, split, reached, rfl⟩

/-- A session does what its program does. -/
theorem Engine.follow_obeys
    {db : Db} {call : Call} (sound : watch.Sound)
    (occurs :
      ∀ visited, engine.Visits programOf { db } schedule visited →
        watch.occurs visited)
    (obeys : (programOf call).Obeys engine watch none)
    (followed : engine.follow programOf { db } schedule = some config)
    {index : Nat} (found : config.sessions[index]? = some session)
    (called : session.call = call) :
    session.Obeys engine watch := by
  refine Engine.follow_session ?_ ?_ ?_ followed found called
  · refine ⟨?_, nofun⟩
    intro program current
    cases current
    exact obeys
  · intro config label next answer session moved moment trip held
    exact trip.obeys sound (occurs _ moment.visits) held
  · exact fun session _ => ⟨nofun, nofun⟩

end Watched

end Dhara.Transaction
