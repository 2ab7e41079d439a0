import Dhara.Transaction.Watch

/-!
# The time of a call

A schedule goes through the states that are reached by its beginnings.  Those
in which a session has started and has not returned are the time of its call.
The statements of the session are evaluated in that time, and everything
between two moments of it lies in it too.
-/

namespace Dhara.Transaction

section During

variable
    {Call Stmt : Type} {Reply : Stmt → Type}
    {Fault Db Write Res Oracle Time Counter Result : Type}
    [DecidableEq Res]
    {engine : Engine Stmt Reply Fault Db Write Res Oracle Time}
    {programOf : Call → Program Stmt Reply Fault Counter Result}
    {start config next final :
      Config Call Stmt Reply Fault Counter Result Db Write Res Time}
    {schedule : List (Label Call Fault Res Oracle Time)}
    {label : Label Call Fault Res Oracle Time}
    {index : Nat}

variable
    {session : Session Call Stmt Reply Fault Counter Result Write Res Time}

/-! ## Between two states -/

theorem Engine.follow_cons
    {rest : List (Label Call Fault Res Oracle Time)} :
    engine.follow programOf config (label :: rest) = some final ↔
      ∃ next,
        engine.step programOf config label = some next ∧
          engine.follow programOf next rest = some final := by
  simp only [Engine.follow]
  cases engine.step programOf config label with
  | none => simp
  | some next => simp

/-- Where a property begins to hold. -/
theorem Engine.follow_crossing
    {Holds :
      Config Call Stmt Reply Fault Counter Result Db Write Res Time → Prop}
    (before : ¬ Holds start)
    (followed : engine.follow programOf start schedule = some final)
    (after : Holds final) :
    ∃ earlier label later config next,
      schedule = earlier ++ label :: later ∧
        engine.follow programOf start earlier = some config ∧
        engine.step programOf config label = some next ∧
        engine.follow programOf next later = some final ∧
        ¬ Holds config ∧ Holds next := by
  induction schedule generalizing start with
  | nil =>
      cases followed
      exact absurd after before
  | cons label rest induction =>
      rcases Engine.follow_cons.mp followed with
        ⟨next, stepped, remaining⟩
      by_cases reached : Holds next
      · exact ⟨[], label, rest, start, next, rfl, rfl, stepped, remaining,
          before, reached⟩
      · rcases induction reached remaining with
          ⟨earlier, crossing, later, config, after, split, followed, rest⟩
        refine ⟨label :: earlier, crossing, later, config, after, ?_, ?_,
          rest⟩
        · rw [split]
          rfl
        · simpa [Engine.follow, stepped] using followed

/-- A session in progress was in progress before, if it was there. -/
theorem Engine.step_inProgress_back
    (stepped : engine.step programOf config label = some next)
    (found : config.sessions[index]? = some session)
    (running : next.InProgress index) : config.InProgress index := by
  rcases running with ⟨after, program, located, current, unfinished⟩
  rcases Engine.step_session stepped located with
    old | ⟨call, _, last, _⟩ |
      ⟨answer, mover, moved, _, here, trip, equal⟩ |
      ⟨victim, _, _, equal⟩
  · exact ⟨after, program, old, current, unfinished⟩
  · have inside := (List.getElem?_eq_some_iff.mp found).1
    omega
  · have asked : ∃ asked, mover.program = some asked := by
      cases trip <;> exact ⟨_, ‹mover.program = _›⟩
    rcases asked with ⟨asked, waiting⟩
    refine ⟨mover, asked, here, waiting, ?_⟩
    rintro result rfl
    rcases Engine.step_call stepped here with ⟨later, stays, _, kept⟩
    rw [located] at stays
    cases stays
    have finished := kept result waiting
    rw [current] at finished
    exact unfinished result (Option.some.inj finished)
  · rw [equal] at current
    cases current

theorem Engine.follow_inProgress_back
    (followed : engine.follow programOf config schedule = some final)
    (found : config.sessions[index]? = some session)
    (running : final.InProgress index) : config.InProgress index := by
  induction schedule generalizing config session with
  | nil =>
      cases followed
      exact running
  | cons label rest induction =>
      rcases Engine.follow_cons.mp followed with
        ⟨next, stepped, remaining⟩
      rcases Engine.step_call stepped found with ⟨after, stays, _, _⟩
      exact Engine.step_inProgress_back stepped found
        (induction remaining stays)

/-- A session that has started is there at every later state. -/
theorem Engine.follow_stays
    (followed : engine.follow programOf config schedule = some final)
    (found : config.sessions[index]? = some session) :
    ∃ after, final.sessions[index]? = some after := by
  induction schedule generalizing config session with
  | nil =>
      cases followed
      exact ⟨session, found⟩
  | cons label rest induction =>
      rcases Engine.follow_cons.mp followed with
        ⟨next, stepped, remaining⟩
      rcases Engine.step_call stepped found with ⟨after, stays, _, _⟩
      exact induction remaining stays

/-! ## The time of a call -/

/-- The schedule goes through the state while the session is in progress. -/
structure Engine.During
    (engine : Engine Stmt Reply Fault Db Write Res Oracle Time)
    (programOf : Call → Program Stmt Reply Fault Counter Result)
    (start : Config Call Stmt Reply Fault Counter Result Db Write Res Time)
    (schedule : List (Label Call Fault Res Oracle Time)) (index : Nat)
    (config : Config Call Stmt Reply Fault Counter Result Db Write Res Time) :
    Prop where
  reached :
    ∃ earlier later,
      schedule = earlier ++ later ∧
        engine.follow programOf start earlier = some config
  running : config.InProgress index

theorem Engine.Moment.during
    (moment : engine.Moment programOf start schedule config label next)
    (running : config.InProgress index) :
    engine.During programOf start schedule index config := by
  rcases moment.reached with ⟨earlier, later, split, reached⟩
  exact ⟨⟨earlier, label :: later, split, reached⟩, running⟩

/--
A property that holds at one moment of a call and not at another one, and
that is never lost, begins to hold during the call.
-/
theorem Engine.During.crossing
    {Holds :
      Config Call Stmt Reply Fault Counter Result Db Write Res Time → Prop}
    {first second :
      Config Call Stmt Reply Fault Counter Result Db Write Res Time}
    (kept :
      ∀ later final,
        engine.follow programOf second later = some final → Holds final)
    (early : engine.During programOf start schedule index first)
    (before : ¬ Holds first)
    (late : engine.During programOf start schedule index second)
    (after : Holds second) :
    ∃ config label next,
      engine.Moment programOf start schedule config label next ∧
        engine.During programOf start schedule index next ∧
        ¬ Holds config ∧ Holds next := by
  rcases early.reached with ⟨head, tail, split, reachedFirst⟩
  rcases late.reached with ⟨head', tail', split', reachedSecond⟩
  rcases List.prefix_or_prefix_of_prefix ⟨tail, split.symm⟩
      ⟨tail', split'.symm⟩ with ⟨middle, equal⟩ | ⟨middle, equal⟩
  · rw [← equal, Engine.follow_append, reachedFirst] at reachedSecond
    rcases Engine.follow_crossing before reachedSecond after with
      ⟨earlier, label, later, config, next, parts, reached, stepped,
        remaining, missing, holds⟩
    rcases early.running with ⟨session, _, found, _, _⟩
    refine ⟨config, label, next, ⟨?_, stepped⟩, ⟨?_, ?_⟩, missing, holds⟩
    · refine ⟨head ++ earlier, later ++ tail', ?_, ?_⟩
      · rw [split', ← equal, parts]
        simp
      · rw [Engine.follow_append, reachedFirst]
        exact reached
    · refine ⟨head ++ (earlier ++ [label]), later ++ tail', ?_, ?_⟩
      · rw [split', ← equal, parts]
        simp
      · simp [Engine.follow_append, reachedFirst, reached, Engine.follow,
          stepped]
    · rcases Engine.follow_stays reached found with ⟨_, there⟩
      rcases Engine.step_call stepped there with ⟨_, stays, _, _⟩
      exact Engine.follow_inProgress_back remaining stays late.running
  · rw [← equal, Engine.follow_append, reachedSecond] at reachedFirst
    exact absurd (kept middle first reachedFirst) before

/-! ## What a call has seen -/

omit [DecidableEq Res] in
theorem Engine.Trip.of_done
    {answer : Answer Fault Res Oracle Time} {db : Db} {result : Result}
    {moved : Moved Call Stmt Reply Fault Counter Result Db Write Res Time}
    (trip : engine.Trip answer db session moved)
    (finished : session.program = some (.done result)) :
    moved.session = { session with tx := none } := by
  cases trip with
  | rollback => rfl
  | fault fault program rest tx current failing =>
      rw [finished] at current
      cases current
      cases failing
  | _ => simp_all

section Obeys

variable {db : Db} {call : Call}
  {watch : Watch Db Write Res Time Result} (sound : watch.Sound)
  (occurs :
    ∀ visited,
      engine.During programOf { db } schedule index visited →
        watch.occurs visited.db)
  (obeys : (programOf call).Obeys engine watch none)

include sound occurs obeys

theorem Engine.Moment.obeys_during
    (moment : engine.Moment programOf { db } schedule config label next)
    (held :
      ∀ session, config.sessions[index]? = some session →
        session.call = call → session.Obeys engine watch) :
    ∀ session, next.sessions[index]? = some session →
      session.call = call → session.Obeys engine watch := by
  intro after located called
  rcases Engine.step_session moment.stepped located with
    old | ⟨other, _, _, spawned⟩ |
      ⟨answer, mover, moved, advanced, here, trip, equal⟩ |
      ⟨victim, here, _, equal⟩
  · exact held after old called
  · subst after
    cases called
    refine ⟨?_, nofun⟩
    intro program current
    cases current
    exact obeys
  · subst after
    have sameCall : mover.call = call := by
      cases trip <;> exact called
    have before := held mover here sameCall
    by_cases finished : ∃ result, mover.program = some (.done result)
    · rcases finished with ⟨result, finished⟩
      rw [trip.of_done finished]
      refine ⟨?_, nofun⟩
      intro program current
      have done : program = .done result :=
        Option.some.inj (current.symm.trans finished)
      subst program
      exact before.program _ finished
    · have asked : ∃ asked, mover.program = some asked := by
        cases trip <;> exact ⟨_, ‹mover.program = _›⟩
      rcases asked with ⟨asked, waiting⟩
      refine trip.obeys sound (occurs _ (moment.during ?_)) before
      refine ⟨mover, asked, here, waiting, ?_⟩
      rintro result rfl
      exact finished ⟨result, waiting⟩
  · subst after
    exact ⟨nofun, nofun⟩

/-- A session does what its program does on the states of its own time. -/
theorem Engine.follow_obeys_during
    (followed : engine.follow programOf { db } schedule = some config)
    (found : config.sessions[index]? = some session)
    (called : session.call = call) :
    session.Obeys engine watch := by
  have held :
      ∀ session, config.sessions[index]? = some session →
        session.call = call → session.Obeys engine watch := by
    have kept :
        ∀ config label next,
          engine.Moment programOf { db } schedule config label next →
            (∀ session, config.sessions[index]? = some session →
              session.call = call → session.Obeys engine watch) →
              ∀ session, next.sessions[index]? = some session →
                session.call = call → session.Obeys engine watch :=
      fun _ _ _ moment held =>
        moment.obeys_during sound occurs obeys held
    exact Engine.follow_trace kept nofun (List.append_nil schedule).symm
      followed
  exact held session found called

end Obeys

end During

end Dhara.Transaction
