import Dhara.Transaction.Watch

/-!
# Stamped writes

Some writes carry a stamp: a number that the server draws from a sequence,
and the start time of their transaction.  A stamped write is about a resource
that its transaction has locked, so two open transactions never have stamped
writes about the same one.

Under every schedule, the committed writes about a resource carry their
numbers in the order of the commits.  Their times are those at which their
sessions began, in whatever order that was.
-/

namespace Dhara.Transaction

/-- The stamps of the writes, and the sequence of the server. -/
structure Stamping (Write Res Oracle Time : Type) where
  about : Write → Option Res
  number : Write → Nat
  time : Write → Time
  draw : Oracle → Nat

section Stamps

variable {Call Stmt : Type} {Reply : Stmt → Type}
  {Fault Db Write Res Oracle Time Counter Result : Type}
  (stamping : Stamping Write Res Oracle Time)
  {session : Session Call Stmt Reply Fault Counter Result Write Res Time}
  {moved : Moved Call Stmt Reply Fault Counter Result Db Write Res Time}
  {answer : Answer Fault Res Oracle Time} {tx : Tx Write Res Time} {db : Db}
  {program : Program Stmt Reply Fault Counter Result} {index : Nat}

/-- Statements take the stamps of their writes. -/
def Stamping.Sound
    (engine : Engine Stmt Reply Fault Db Write Res Oracle Time) :
    Prop :=
  ∀ clock others oracle stmt db effect,
    engine.eval clock others oracle stmt db = .ok effect →
      ∀ write ∈ effect.writes, ∀ res, stamping.about write = some res →
        stamping.number write = stamping.draw oracle ∧
          stamping.time write = clock

/--
Stamped writes are made in transactions, about resources these have locked.
-/
def Stamping.watch (Db Result : Type) :
    Watch Db Write Res Time Result where
  occurs := fun _ => True
  transaction := fun tx =>
    ∀ write ∈ tx.writes, ∀ res, stamping.about write = some res →
      res ∈ tx.locks ∧ stamping.time write = tx.startedAt
  statement := fun writes =>
    ∀ write ∈ writes, stamping.about write = none
  result := fun _ => True

theorem Stamping.watch_sound :
    (stamping.watch Db Result).Sound where
  fresh := by
    intro now write member
    cases member
  tainted := fun _ _ held => held

variable {stamping}

/-- A statement keeps the transaction in order if it stamps under a lock. -/
theorem Stamping.Sound.extend
    {engine : Engine Stmt Reply Fault Db Write Res Oracle Time}
    (sound : stamping.Sound engine) {opened : Tx Write Res Time}
    (held : (stamping.watch Db Result).transaction opened)
    {others : Res → Bool} {oracle : Oracle} {stmt : Stmt}
    {effect : Effect (Reply stmt) Write Res}
    (evaluated :
      engine.eval opened.startedAt others oracle stmt db = .ok effect)
    (locked :
      ∀ write ∈ effect.writes, ∀ res,
        stamping.about write = some res →
          res ∈ opened.locks ++ effect.locks) :
    (stamping.watch Db Result).transaction
      { opened with
        writes := opened.writes ++ effect.writes
        locks := opened.locks ++ effect.locks } := by
  intro write member res stamped
  rcases List.mem_append.mp member with old | new
  · rcases held write old res stamped with ⟨inside, timed⟩
    exact ⟨List.mem_append_left _ inside, timed⟩
  · exact ⟨locked write new res stamped,
      (sound _ _ _ _ _ _ evaluated write new res stamped).2⟩

variable (stamping)

/-! ## Numbers -/

/-- Writes about one resource carry increasing numbers. -/
def Stamping.InOrder (first second : Write) : Prop :=
  ∀ res, stamping.about first = some res →
    stamping.about second = some res →
      stamping.number first ≤ stamping.number second

/-- The number that the sequence holds at a step. -/
def Stamping.drawnAt :
    Label Call Fault Res Oracle Time → Option Nat
  | .advance _ answer => some (stamping.draw answer.oracle)
  | _ => none

/-- The numbers of the sequence along a schedule. -/
def Stamping.drawn
    (schedule : List (Label Call Fault Res Oracle Time)) : List Nat :=
  schedule.filterMap stamping.drawnAt

/-- Writes in the order of their numbers, all drawn in the schedule. -/
structure Stamping.Drawn
    (schedule : List (Label Call Fault Res Oracle Time))
    (writes : List Write) : Prop where
  known :
    ∀ write ∈ writes, ∀ res, stamping.about write = some res →
      stamping.number write ∈ stamping.drawn schedule
  ordered : writes.Pairwise stamping.InOrder

variable
    {stamping}
    {earlier : List (Label Call Fault Res Oracle Time)}
    {left right more : List Write}

theorem Stamping.Drawn.mono
    (drawn : stamping.Drawn earlier left)
    (later : List (Label Call Fault Res Oracle Time)) :
    stamping.Drawn (earlier ++ later) left := by
  refine ⟨?_, drawn.ordered⟩
  intro write member res stamped
  rw [Stamping.drawn, List.filterMap_append]
  exact List.mem_append_left _ (drawn.known write member res stamped)

/-- Writes that keep the order with the later ones can come before them. -/
theorem Stamping.Drawn.insert
    (before : stamping.Drawn earlier (left ++ more))
    (after : stamping.Drawn earlier (left ++ right))
    (apart :
      ∀ first ∈ more, ∀ second ∈ right, stamping.InOrder first second) :
    stamping.Drawn earlier (left ++ more ++ right) := by
  have ordered := List.pairwise_append.mp after.ordered
  constructor
  · intro write member
    rcases List.mem_append.mp member with old | new
    · exact before.known write old
    · exact after.known write (List.mem_append_right _ new)
  · refine List.pairwise_append.mpr ⟨before.ordered, ordered.2.1, ?_⟩
    intro first member second follows
    rcases List.mem_append.mp member with old | new
    · exact ordered.2.2 first old second follows
    · exact apart first new second follows

theorem Stamping.Drawn.unstamped
    (drawn : stamping.Drawn earlier left)
    (plain : ∀ write ∈ more, stamping.about write = none) :
    stamping.Drawn earlier (left ++ more) := by
  constructor
  · intro write member res stamped
    rcases List.mem_append.mp member with old | new
    · exact drawn.known write old res stamped
    · rw [plain write new] at stamped
      cases stamped
  · refine List.pairwise_append.mpr ⟨drawn.ordered, ?_, ?_⟩
    · apply List.pairwise_of_forall_mem_list
      intro first member second _ res stamped
      rw [plain first member] at stamped
      cases stamped
    · intro first _ second follows res _ stamped
      rw [plain second follows] at stamped
      cases stamped

/-- Writes with a new number come after all the earlier ones. -/
theorem Stamping.Drawn.draw
    (drawn : stamping.Drawn earlier left)
    (sequence :
      (stamping.drawn
        (earlier ++ [Label.advance index answer])).Pairwise (· ≤ ·))
    (numbered :
      ∀ write ∈ more, ∀ res, stamping.about write = some res →
        stamping.number write = stamping.draw answer.oracle) :
    stamping.Drawn (earlier ++ [Label.advance index answer])
      (left ++ more) := by
  have newest :
      ∀ number ∈ stamping.drawn earlier,
        number ≤ stamping.draw answer.oracle := by
    intro number member
    rw [Stamping.drawn, List.filterMap_append,
      List.pairwise_append] at sequence
    exact sequence.2.2 number member _ (by simp [Stamping.drawnAt])
  constructor
  · intro write member res stamped
    rcases List.mem_append.mp member with old | new
    · exact (drawn.mono _).known write old res stamped
    · rw [numbered write new res stamped, Stamping.drawn,
        List.filterMap_append]
      simp [Stamping.drawnAt]
  · refine List.pairwise_append.mpr ⟨drawn.ordered, ?_, ?_⟩
    · apply List.pairwise_of_forall_mem_list
      intro first member second follows res before after
      exact Nat.le_of_eq ((numbered first member res before).trans
        (numbered second follows res after).symm)
    · intro first member second follows res before after
      rw [numbered second follows res after]
      exact newest _ (drawn.known first member res before)

/-- Everything committed, in the order of the commits. -/
def Config.written
    (config : Config Call Stmt Reply Fault Counter Result Db Write Res Time) :
    List Write :=
  config.history.flatMap Commit.writes

theorem flatMap_recordCommit
    (history : List (Commit Call Write)) (index : Nat) (call : Call)
    (writes : List Write) :
    (recordCommit history index call writes).flatMap Commit.writes =
      history.flatMap Commit.writes ++ writes := by
  cases writes with
  | nil => simp [recordCommit]
  | cons first rest => simp [recordCommit]

variable (stamping) in
/-- The committed writes are in order, and so is what would follow them. -/
structure Stamping.Ordered
    (earlier : List (Label Call Fault Res Oracle Time))
    (config : Config Call Stmt Reply Fault Counter Result Db Write Res Time) :
    Prop where
  committed : stamping.Drawn earlier config.written
  pending :
    ∀ (index : Nat) session tx,
      config.sessions[index]? = some session → session.tx = some tx →
        stamping.Drawn earlier (config.written ++ tx.writes)

section Steps

variable
    {engine : Engine Stmt Reply Fault Db Write Res Oracle Time}
    (sound : stamping.Sound engine)

include sound in
/-- What the session that moves would commit next. -/
theorem Engine.Trip.drawn
    {others : Res → Bool} {written : List Write}
    (trip : engine.Trip { answer with others } db session moved)
    (held : session.Obeys engine (stamping.watch Db Result))
    (sequence :
      (stamping.drawn
        (earlier ++ [Label.advance index answer])).Pairwise (· ≤ ·))
    (committed : stamping.Drawn earlier written)
    (pending :
      ∀ tx, session.tx = some tx →
        stamping.Drawn earlier (written ++ tx.writes))
    (opened : moved.session.tx = some tx) :
    stamping.Drawn (earlier ++ [Label.advance index answer])
      (written ++ moved.published ++ tx.writes) := by
  have kept :
      ∀ old, session.tx = some old → tx.writes = old.writes →
        stamping.Drawn (earlier ++ [Label.advance index answer])
          (written ++ [] ++ tx.writes) := by
    intro old located same
    rw [List.append_nil, same]
    exact (pending old located).mono _
  cases trip with
  | rollback result finished => cases opened
  | fault fault before rest after asked failing tainted =>
      rcases tainted.unwritten tx opened with ⟨old, located, same⟩
      exact kept old located same
  | begun next asked =>
      cases opened
      simpa using committed.mono _
  | executed stmt next old effect asked located evaluated =>
      cases opened
      rw [List.append_nil, ← List.append_assoc]
      exact (pending old located).draw sequence
        fun write member res stamped =>
          (sound _ _ _ _ _ _ evaluated write member res stamped).1
  | queried stmt next effect asked quiet evaluated =>
      have plain :=
        ((held.program _ asked).2 _ _ _ db effect True.intro evaluated).1
      refine ((committed.unstamped plain).insert (pending tx opened)
        ?_).mono _
      intro first member second _ res stamped
      rw [plain first member] at stamped
      cases stamped
  | scanned next asked => exact kept tx opened rfl
  | committed next old asked located => cases opened
  | counted counter amount next asked => exact kept tx opened rfl

variable
    [DecidableEq Res]
    {programOf : Call → Program Stmt Reply Fault Counter Result}
    {config next :
      Config Call Stmt Reply Fault Counter Result Db Write Res Time}
    {label : Label Call Fault Res Oracle Time}

include sound in
theorem Stamping.Ordered.step
    (ordered : stamping.Ordered earlier config)
    (sequence : (stamping.drawn (earlier ++ [label])).Pairwise (· ≤ ·))
    (obeys :
      ∀ (index : Nat) session, config.sessions[index]? = some session →
        session.Obeys engine (stamping.watch Db Result))
    (disjoint :
      ∀ (left right : Nat) first second, left ≠ right →
        config.sessions[left]? = some first →
        config.sessions[right]? = some second →
          ∀ res ∈ heldBy first.tx, res ∉ heldBy second.tx)
    (stepped : engine.step programOf config label = some next) :
    stamping.Ordered (earlier ++ [label]) next := by
  have quiet :
      next.history = config.history →
      (∀ (index : Nat) session tx,
        next.sessions[index]? = some session → session.tx = some tx →
          config.sessions[index]? = some session) →
        stamping.Ordered (earlier ++ [label]) next := by
    intro same known
    have written : next.written = config.written :=
      congrArg (List.flatMap Commit.writes) same
    constructor
    · rw [written]
      exact ordered.committed.mono _
    · intro index session tx found opened
      rw [written]
      exact (ordered.pending index session tx
        (known index session tx found opened) opened).mono _
  cases Engine.step_cases stepped with
  | spawned call =>
      apply quiet rfl
      intro index session tx found opened
      rcases getElem?_concat_some found with old | ⟨_, rfl⟩
      · exact old
      · cases opened
  | crashed position session located running =>
      apply quiet rfl
      intro index session tx found opened
      rcases getElem?_set_cases found with ⟨_, crashed⟩ | ⟨_, old⟩
      · subst session
        cases opened
      · exact old
  | advanced position answer session moved located trip =>
      have held := obeys position session located
      have written :
          Config.written
              { db := moved.db
                sessions := config.sessions.set position moved.session
                history :=
                  recordCommit config.history position session.call
                    moved.published } =
            config.written ++ moved.published :=
        flatMap_recordCommit _ _ _ _
      have published := (trip.published True.intro held).2
      have committed :
          stamping.Drawn earlier (config.written ++ moved.published) := by
        rcases published with
          nothing | ⟨tx, opened, equal, _⟩ | ⟨plain, _⟩
        · rw [nothing, List.append_nil]
          exact ordered.committed
        · rw [equal]
          exact ordered.pending position session tx located opened
        · exact ordered.committed.unstamped plain
      constructor
      · rw [written]
        exact committed.mono _
      · intro index after tx found opened
        rw [written]
        rcases getElem?_set_cases found with
          ⟨same, moves⟩ | ⟨different, old⟩
        · subst after
          exact trip.drawn sound held sequence ordered.committed
            (fun tx => ordered.pending position session tx located)
            opened
        · refine (committed.insert
            (ordered.pending index after tx old opened) ?_).mono _
          intro first member second follows res before behind
          have theirs :=
            ((obeys index after old).transaction tx opened second
              follows res behind).1
          rcases published with
            nothing | ⟨mine, begun, equal, _⟩ | ⟨plain, _⟩
          · rw [nothing] at member
            cases member
          · rw [equal] at member
            have ours :=
              (held.transaction mine begun first member res before).1
            refine (disjoint position index session after
              (Ne.symm different) located old res ?_ ?_).elim
            · rw [begun]
              exact ours
            · rw [opened]
              exact theirs
          · rw [plain first member] at before
            cases before

end Steps

/-! ## Times -/

/-- The program never opens a transaction. -/
def Program.Beginless : Program Stmt Reply Fault Counter Result → Prop
  | .done _ => True
  | .begin _ => False
  | .exec _ next => ∀ reply, (next reply).Beginless
  | .query _ next => ∀ reply, (next reply).Beginless
  | .scan next => ∀ reply, (next reply).Beginless
  | .commit next => ∀ reply, (next reply).Beginless
  | .count _ _ next => next.Beginless

/-- The program opens a transaction at once or never. -/
def Program.OpensFirst : Program Stmt Reply Fault Counter Result → Prop
  | .begin next => ∀ reply, (next reply).Beginless
  | program => program.Beginless

theorem Program.Beginless.onFault
    {rest : Program Stmt Reply Fault Counter Result} {fault : Fault}
    (beginless : program.Beginless)
    (failing : program.onFault fault = some rest) : rest.Beginless := by
  cases program with
  | done result => cases failing
  | begin next => exact beginless.elim
  | count counter amount next => cases failing
  | _ =>
      cases failing
      exact beginless _

/-- The time of the first round trip of a session. -/
def beganAt (index : Nat) :
    List (Label Call Fault Res Oracle Time) → Option Time
  | [] => none
  | .advance position answer :: rest =>
      if position = index then some answer.clock
      else beganAt index rest
  | _ :: rest => beganAt index rest

theorem beganAt_append
    (index : Nat) (left right : List (Label Call Fault Res Oracle Time)) :
    beganAt index (left ++ right) =
      (beganAt index left).or (beganAt index right) := by
  induction left with
  | nil => rfl
  | cons label rest induction =>
      cases label with
      | advance position answer =>
          simp only [List.cons_append, beganAt]
          split_ifs
          · rfl
          · exact induction
      | _ => exact induction

/-- A session in which the first round trip is the only one that begins. -/
inductive Session.Began
    (programOf : Call → Program Stmt Reply Fault Counter Result)
    (began : Option Time)
    (session : Session Call Stmt Reply Fault Counter Result Write Res Time) :
    Prop where
  | untouched
      (program : session.program = some (programOf session.call))
      (closed : session.tx = none) (unbegun : began = none)
  | running
      (beginless :
        ∀ program, session.program = some program → program.Beginless)
      (opened : ∀ tx, session.tx = some tx → began = some tx.startedAt)

variable
    {programOf : Call → Program Stmt Reply Fault Counter Result}
    {engine : Engine Stmt Reply Fault Db Write Res Oracle Time}

/-- A round trip without a new transaction. -/
theorem Engine.Trip.running
    (trip : engine.Trip answer db session moved) {began : Option Time}
    (beginless :
      ∀ program, session.program = some program → program.Beginless)
    (opened : ∀ tx, session.tx = some tx → began = some tx.startedAt) :
    moved.session.Began programOf began := by
  have later :
      ∀ program, moved.session.program = some program →
        program.Beginless := by
    intro program current
    cases trip with
    | rollback result finished => exact beginless program current
    | fault fault before rest tx asked failing tainted =>
        cases current
        exact (beginless before asked).onFault failing
    | begun next asked => exact (beginless _ asked).elim
    | counted counter amount next asked =>
        cases current
        have counted : (Program.count counter amount program).Beginless :=
          beginless _ asked
        exact counted
    | executed stmt next tx effect asked =>
        cases current
        exact beginless _ asked _
    | queried stmt next effect asked =>
        cases current
        exact beginless _ asked _
    | scanned next asked =>
        cases current
        exact beginless _ asked _
    | committed next tx asked =>
        cases current
        exact beginless _ asked _
  refine .running later ?_
  intro tx located
  cases trip with
  | rollback result finished => cases located
  | fault fault before rest after asked failing tainted =>
      rcases tainted tx located with ⟨old, failed, before, same⟩
      rw [same]
      exact opened old before
  | begun next asked => exact (beginless _ asked).elim
  | executed stmt next old effect asked before =>
      cases located
      exact opened old before
  | committed next old asked => cases located
  | _ => exact opened tx located

/-- The first round trip. -/
theorem Engine.Trip.began
    (trip : engine.Trip answer db session moved)
    (current : session.program = some program) (first : program.OpensFirst)
    (closed : session.tx = none) :
    moved.session.Began programOf (some answer.clock) := by
  have nothing :
      ∀ tx, session.tx = some tx → some answer.clock = some tx.startedAt := by
    intro tx located
    rw [closed] at located
    cases located
  cases program with
  | begin next =>
      cases trip with
      | fault fault before rest tx asked failing tainted =>
          rw [current] at asked
          cases asked
          cases failing
          refine .running ?_ ?_
          · intro later equal
            cases equal
            exact first _
          · intro later located
            rcases tainted later located with ⟨old, _, before, _⟩
            rw [closed] at before
            cases before
      | begun rest asked =>
          rw [current] at asked
          cases asked
          refine .running ?_ ?_
          · intro later equal
            cases equal
            exact first _
          · intro later located
            cases located
            rfl
      | rollback result asked =>
          rw [current] at asked
          cases asked
      | executed stmt rest tx effect asked =>
          rw [current] at asked
          cases asked
      | queried stmt rest effect asked =>
          rw [current] at asked
          cases asked
      | scanned rest asked =>
          rw [current] at asked
          cases asked
      | committed rest tx asked =>
          rw [current] at asked
          cases asked
      | counted counter amount rest asked =>
          rw [current] at asked
          cases asked
  | _ =>
      refine trip.running ?_ nothing
      intro other equal
      rw [current] at equal
      cases equal
      exact first

variable
    {config next :
      Config Call Stmt Reply Fault Counter Result Db Write Res Time}
    {label : Label Call Fault Res Oracle Time}

variable (stamping programOf) in
/-- Sessions begin once, and committed writes carry the time of that. -/
structure Stamping.Timed
    (earlier : List (Label Call Fault Res Oracle Time))
    (config : Config Call Stmt Reply Fault Counter Result Db Write Res Time) :
    Prop where
  unborn :
    ∀ index, config.sessions.length ≤ index → beganAt index earlier = none
  began :
    ∀ (index : Nat) session, config.sessions[index]? = some session →
      session.Began programOf (beganAt index earlier)
  committed :
    ∀ commit ∈ config.history, ∀ write ∈ commit.writes, ∀ res,
      stamping.about write = some res →
        beganAt commit.session earlier = some (stamping.time write)

theorem beganAt_concat
    (index : Nat) (label : Label Call Fault Res Oracle Time) :
    beganAt index (earlier ++ [label]) =
      (beganAt index earlier).or
        (match label with
        | .advance position answer =>
            if position = index then some answer.clock else none
        | _ => none) := by
  rw [beganAt_append]
  cases label <;> rfl

/-- The time of the first round trip of a session is never revised. -/
theorem beganAt_stays
    {time : Time} (known : beganAt index earlier = some time)
    (later : List (Label Call Fault Res Oracle Time)) :
    beganAt index (earlier ++ later) = some time := by
  rw [beganAt_append, known]
  rfl

theorem Session.Began.startedAt
    {began : Option Time} (held : session.Began programOf began)
    (opened : session.tx = some tx) :
    began = some tx.startedAt := by
  cases held with
  | untouched program closed unbegun =>
      rw [closed] at opened
      cases opened
  | running beginless known => exact known tx opened

theorem Session.Began.advance
    {began : Option Time} (held : session.Began programOf began)
    (trip : engine.Trip answer db session moved)
    (opensFirst : ∀ call, (programOf call).OpensFirst) :
    moved.session.Began programOf (began.or (some answer.clock)) := by
  cases held with
  | untouched program closed unbegun =>
      rw [unbegun]
      exact trip.began program (opensFirst session.call) closed
  | running beginless opened =>
      apply trip.running beginless
      intro tx located
      rw [opened tx located]
      rfl

theorem Stamping.Timed.step [DecidableEq Res]
    (timed : stamping.Timed programOf earlier config)
    (opensFirst : ∀ call, (programOf call).OpensFirst)
    (obeys :
      ∀ (index : Nat) session, config.sessions[index]? = some session →
        session.Obeys engine (stamping.watch Db Result))
    (stepped : engine.step programOf config label = some next) :
    stamping.Timed programOf (earlier ++ [label]) next := by
  cases Engine.step_cases stepped with
  | spawned call =>
      have same :
          ∀ index,
            beganAt index (earlier ++ [Label.spawn call]) =
              beganAt index earlier := by
        intro index
        simp [beganAt_concat]
      refine ⟨?_, ?_, ?_⟩
      · intro index outside
        rw [same]
        apply timed.unborn
        simp only [List.length_append, List.length_singleton] at outside
        omega
      · intro index session found
        rw [same]
        rcases getElem?_concat_some found with old | ⟨last, rfl⟩
        · exact timed.began index session old
        · exact .untouched rfl rfl (timed.unborn index (by omega))
      · intro commit member write written res stamped
        rw [same]
        exact timed.committed commit member write written res stamped
  | crashed position session located running =>
      have same :
          ∀ index,
            beganAt index (earlier ++ [Label.crash position]) =
              beganAt index earlier := by
        intro index
        simp [beganAt_concat]
      refine ⟨?_, ?_, ?_⟩
      · intro index outside
        rw [same]
        apply timed.unborn
        simpa using outside
      · intro index after found
        rw [same]
        rcases getElem?_set_cases found with ⟨_, crashed⟩ | ⟨_, old⟩
        · subst after
          exact .running nofun nofun
        · exact timed.began index after old
      · intro commit member write written res stamped
        rw [same]
        exact timed.committed commit member write written res stamped
  | advanced position answer session moved located trip =>
      have held := obeys position session located
      have began := timed.began position session located
      refine ⟨?_, ?_, ?_⟩
      · intro index outside
        have inside := (List.getElem?_eq_some_iff.mp located).1
        simp only [List.length_set] at outside
        have other : position ≠ index := by omega
        simp [beganAt_concat, other, timed.unborn index outside]
      · intro index after found
        rcases getElem?_set_cases found with
          ⟨same, moves⟩ | ⟨different, old⟩
        · subst after
          subst index
          rw [beganAt_concat]
          simpa using began.advance trip opensFirst
        · have other : position ≠ index := Ne.symm different
          simpa [beganAt_concat, other] using timed.began index after old
      · intro commit member write written res stamped
        have published := (trip.published True.intro held).2
        rcases mem_recordCommit member with old | new
        · exact beganAt_stays
            (timed.committed commit old write written res stamped) _
        · subst commit
          rcases published with
            nothing | ⟨tx, opened, equal, _⟩ | ⟨plain, _⟩
          · rw [nothing] at written
            cases written
          · rw [equal] at written
            rw [(held.transaction tx opened write written res stamped).2]
            exact beganAt_stays (began.startedAt opened) _
          · rw [plain write written] at stamped
            cases stamped

/-! ## Open transactions -/

/-- An open transaction was open before, or its `BEGIN` was answered. -/
theorem Engine.Trip.opened
    (trip : engine.Trip answer db session moved)
    (opened : moved.session.tx = some tx) :
    (∃ old, session.tx = some old ∧ old.startedAt = tx.startedAt) ∨
      ∃ rest,
        session.program = some (.begin rest) ∧
          tx.startedAt = answer.clock := by
  cases trip with
  | rollback result program => cases opened
  | fault fault program rest after current failing tainted =>
      rcases tainted tx opened with ⟨old, failed, located, equal⟩
      exact Or.inl ⟨old, located, by rw [equal]⟩
  | begun rest program =>
      cases opened
      exact Or.inr ⟨rest, program, rfl⟩
  | executed stmt rest old effect program located evaluated =>
      cases opened
      exact Or.inl ⟨old, located, rfl⟩
  | committed rest old program located => cases opened
  | _ => exact Or.inl ⟨tx, opened, rfl⟩

theorem Engine.step_opened [DecidableEq Res]
    (stepped : engine.step programOf config label = some next)
    {after : Session Call Stmt Reply Fault Counter Result Write Res Time}
    (found : next.sessions[index]? = some after)
    (opened : after.tx = some tx) :
    (∃ session old,
      config.sessions[index]? = some session ∧ session.tx = some old ∧
        old.startedAt = tx.startedAt) ∨
      ∃ answer session rest,
        label = .advance index answer ∧
          config.sessions[index]? = some session ∧
          session.program = some (.begin rest) ∧
          tx.startedAt = answer.clock := by
  rcases Engine.step_session stepped found with
    old | ⟨call, _, _, equal⟩ |
      ⟨answer, session, moved, advances, located, trip, equal⟩ |
      ⟨session, _, _, equal⟩
  · exact Or.inl ⟨after, tx, old, opened, rfl⟩
  · subst after
    cases opened
  · subst after
    rcases trip.opened opened with
      ⟨old, before, same⟩ | ⟨rest, program, same⟩
    · exact Or.inl ⟨session, old, located, before, same⟩
    · exact Or.inr ⟨answer, session, rest, advances, located, program, same⟩
  · subst after
    cases opened

/-- What is published is published by a round trip. -/
theorem Engine.step_published [DecidableEq Res]
    (stepped : engine.step programOf config label = some next)
    {commit : Commit Call Write}
    (grown : next.history = config.history ++ [commit]) :
    ∃ answer session moved,
      label = .advance commit.session answer ∧
        config.sessions[commit.session]? = some session ∧
        engine.Trip
          { answer with
            others := heldByOthers config.sessions commit.session }
          config.db session moved ∧
        commit.writes = moved.published := by
  cases Engine.step_cases stepped with
  | spawned call => simp at grown
  | crashed position session located running => simp at grown
  | advanced position answer session moved located trip =>
      replace grown :
          recordCommit config.history position session.call
            moved.published = config.history ++ [commit] := grown
      cases published : moved.published with
      | nil => simp [published, recordCommit] at grown
      | cons first others =>
          rw [published, recordCommit, List.append_cancel_left_eq]
            at grown
          cases grown
          exact ⟨answer, session, moved, rfl, located, trip, published.symm⟩

/-- A published stamp is the start of the transaction that is committed. -/
theorem Stamping.published_opened [DecidableEq Res]
    (obeys :
      ∀ (index : Nat) session, config.sessions[index]? = some session →
        session.Obeys engine (stamping.watch Db Result))
    (stepped : engine.step programOf config label = some next)
    {commit : Commit Call Write}
    (grown : next.history = config.history ++ [commit])
    {write : Write} (written : write ∈ commit.writes) {res : Res}
    (stamped : stamping.about write = some res) :
    ∃ session tx,
      config.sessions[commit.session]? = some session ∧
        session.tx = some tx ∧ tx.startedAt = stamping.time write := by
  rcases Engine.step_published stepped grown with
    ⟨answer, session, moved, _, located, trip, published⟩
  have held := obeys commit.session session located
  rw [published] at written
  rcases (trip.published True.intro held).2 with
    nothing | ⟨tx, opened, equal, _⟩ | ⟨plain, _⟩
  · rw [nothing] at written
    cases written
  · rw [equal] at written
    exact ⟨session, tx, located, opened,
      (held.transaction tx opened write written res stamped).2.symm⟩
  · rw [plain write written] at stamped
    cases stamped

/-! ## Whole schedules -/

/-- Locks of different sessions are different. -/
def Config.Disjoint
    (config : Config Call Stmt Reply Fault Counter Result Db Write Res Time) :
    Prop :=
  ∀ (left right : Nat) first second, left ≠ right →
    config.sessions[left]? = some first →
    config.sessions[right]? = some second →
      ∀ res ∈ heldBy first.tx, res ∉ heldBy second.tx

variable (stamping) in
theorem Stamping.ordered_start (start : Db) :
    stamping.Ordered []
      ({ db := start } :
        Config Call Stmt Reply Fault Counter Result Db Write Res Time) where
  committed := ⟨by simp [Config.written], .nil⟩
  pending := by simp

variable (stamping programOf) in
theorem Stamping.timed_start (start : Db) :
    stamping.Timed programOf []
      ({ db := start } :
        Config Call Stmt Reply Fault Counter Result Db Write Res Time) where
  unborn := fun _ _ => rfl
  began := by simp
  committed := by simp

/-- Every schedule keeps the numbers in order and the times. -/
theorem Stamping.Sound.follow [DecidableEq Res]
    (sound : stamping.Sound engine) {start : Db}
    (opensFirst : ∀ call, (programOf call).OpensFirst)
    (obeys :
      ∀ call, (programOf call).Obeys engine (stamping.watch Db Result) none)
    (disjoint :
      ∀ earlier config,
        engine.follow programOf { db := start } earlier = some config →
          config.Disjoint)
    {schedule : List (Label Call Fault Res Oracle Time)}
    (sequence : (stamping.drawn schedule).Pairwise (· ≤ ·))
    (followed :
      engine.follow programOf { db := start } schedule = some config) :
    stamping.Ordered schedule config ∧
      stamping.Timed programOf schedule config := by
  have held :
      ∀ earlier config,
        engine.follow programOf { db := start } earlier = some config →
          ∀ (index : Nat) session,
            config.sessions[index]? = some session →
              session.Obeys engine (stamping.watch Db Result) :=
    fun earlier config reached index session found =>
      Engine.follow_obeys stamping.watch_sound
        (fun _ _ => True.intro) (obeys session.call) reached found rfl
  have along :
      ∀ earlier later config label next,
        schedule = earlier ++ label :: later →
        engine.follow programOf { db := start } earlier = some config →
        engine.step programOf config label = some next →
          stamping.Ordered earlier config ∧
              stamping.Timed programOf earlier config →
            stamping.Ordered (earlier ++ [label]) next ∧
              stamping.Timed programOf (earlier ++ [label]) next := by
    intro earlier later config label next split reached stepped before
    have drawn : (stamping.drawn (earlier ++ [label])).Pairwise (· ≤ ·) := by
      rw [split, List.append_cons, Stamping.drawn,
        List.filterMap_append] at sequence
      exact (List.pairwise_append.mp sequence).1
    exact ⟨before.1.step sound drawn (held earlier config reached)
        (disjoint earlier config reached) stepped,
      before.2.step opensFirst (held earlier config reached) stepped⟩
  exact Engine.follow_along along
    ⟨stamping.ordered_start start, stamping.timed_start programOf start⟩
    (List.append_nil schedule).symm followed

end Stamps

end Dhara.Transaction
