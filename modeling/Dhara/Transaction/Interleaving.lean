import Dhara.Machine
import Dhara.Transaction.Contract

/-!
# Contracts under interleaving

Sessions whose programs meet a contract keep it under every schedule.  Two
sessions never hold the same lock, so a commit disturbs no resource another
session has locked, and the assertions of the other sessions survive it.
They also survive disturbances that leave all locked resources alone.

The main theorem, `Contract.follow_ok`, says that the commits of any schedule
are lawful one after the other, and that the results of all finished sessions
are as promised in the state reached.
-/

namespace Dhara.Transaction

section Interleaving

variable {Call Stmt : Type} {Reply : Stmt → Type}
  {Fault Db Write Res Oracle Time Counter Result : Type}
  {engine : Engine Stmt Reply Fault Db Write Res Oracle Time}
  (contract : Contract Call Result engine)
  {session : Session Call Stmt Reply Fault Counter Result Write Res Time}
  {answer : Answer Fault Res Oracle Time}
  {next : Except Fault Unit → Program Stmt Reply Fault Counter Result}
  {db : Db}
  {moved : Moved Call Stmt Reply Fault Counter Result Db Write Res Time}
  {call : Call} {after : Db}

/-- What is known about one session in the committed state `db`. -/
structure Contract.SessionOk (db : Db)
    (session : Session Call Stmt Reply Fault Counter Result Write Res Time) :
    Prop where
  within : ∀ tx, session.tx = some tx → contract.Within tx.locks tx.writes
  meets :
    ∀ program, session.program = some program →
      ∃ holds : Db → Prop,
        contract.Stable (heldBy session.tx) holds ∧ holds db ∧
          contract.Meets session.call program session.tx holds
            session.commits session.faulted

/-- The effect of one round trip, as the other sessions see it. -/
structure Contract.MoveOk
    (answer : Answer Fault Res Oracle Time) (db : Db)
    (session : Session Call Stmt Reply Fault Counter Result Write Res Time)
    (moved : Moved Call Stmt Reply Fault Counter Result Db Write Res Time) :
    Prop where
  resumed : contract.SessionOk moved.db moved.session
  sameCall : moved.session.call = session.call
  locked :
    ∀ res ∈ heldBy moved.session.tx,
      res ∈ heldBy session.tx ∨ answer.others res = false
  recorded : moved.session.commits = publish moved.published session.commits
  applied : moved.db = engine.applyAll moved.published db
  lawful :
    moved.published ≠ [] → contract.Lawful db session.call moved.published
  apart :
    ∀ res, answer.others res = true → res ∉ heldBy session.tx →
      contract.Agrees res db moved.db

variable {contract}

theorem Contract.within_append
    {locks more : List Res} {first second : List Write}
    (left : contract.Within locks first)
    (right : contract.Within (locks ++ more) second) :
    contract.Within (locks ++ more) (first ++ second) := by
  intro write member res touched
  rcases List.mem_append.mp member with old | new
  · exact List.mem_append_left more (left write old res touched)
  · exact right write new res touched

/-- A round trip that publishes nothing. -/
theorem Contract.MoveOk.quiet
    {next : Session Call Stmt Reply Fault Counter Result Write Res Time}
    (ok : contract.SessionOk db next) (call : next.call = session.call)
    (commits : next.commits = session.commits)
    (locks :
      ∀ res ∈ heldBy next.tx,
        res ∈ heldBy session.tx ∨ answer.others res = false) :
    contract.MoveOk answer db session { db, session := next } where
  resumed := ok
  sameCall := call
  locked := locks
  recorded := commits
  applied := rfl
  lawful := fun nonempty => (nonempty rfl).elim
  apart := fun res _ _ => contract.agrees_refl res db

/-- Continue a session whose remaining program meets the contract. -/
theorem Contract.SessionOk.resume {Sent : Type} {reply : Except Fault Sent}
    {next : Except Fault Sent → Program Stmt Reply Fault Counter Result}
    {tx : Option (Tx Write Res Time)} {published : List Write}
    {holds : Db → Prop} {faulted : Bool}
    (within :
      ∀ opened, tx = some opened → contract.Within opened.locks opened.writes)
    (stable : contract.Stable (heldBy tx) holds) (held : holds db)
    (marked : (session.faulted || isFault reply) = faulted)
    (meets :
      contract.Meets session.call (next reply) tx holds
        (publish published session.commits) faulted) :
    contract.SessionOk db (session.resume reply next tx published) where
  within := within
  meets := by
    intro program equal
    simp only [Session.resume, Option.some.injEq] at equal
    subst program
    subst faulted
    exact ⟨holds, stable, held, meets⟩

section

variable (ok : contract.SessionOk db session)

include ok

theorem Contract.advance_begin
    (program : session.program = some (.begin next)) :
    contract.MoveOk answer db session
      { db
        session :=
          session.resume (beginTx answer ⟨db, session.tx⟩).1 next
            (beginTx answer ⟨db, session.tx⟩).2.tx [] } := by
  rcases ok.meets _ program with
    ⟨holds, stable, held, onFault, closed, onOk⟩
  rcases beginTx_cases answer db session.tx with
    ⟨fault, replied⟩ | replied
  · rw [replied]
    refine Contract.MoveOk.quiet ?_ rfl rfl fun res member =>
      Or.inl member
    exact Contract.SessionOk.resume ok.within stable held
      (by simp) (onFault fault)
  · rw [replied]
    refine Contract.MoveOk.quiet ?_ rfl rfl ?_
    · refine Contract.SessionOk.resume ?_ ?_ held (by simp)
        (onOk answer.clock)
      · rintro opened equal
        cases equal
        intro write member
        simp at member
      · rw [closed] at stable
        exact stable
    · intro res member
      simp [Session.resume] at member

theorem Contract.advance_scan
    (program : session.program = some (.scan next)) :
    contract.MoveOk answer db session
      { db
        session := session.resume (scanRow answer) next session.tx [] } := by
  rcases ok.meets _ program with
    ⟨holds, stable, held, onFault, onOk⟩
  refine Contract.MoveOk.quiet ?_ rfl rfl fun res member =>
    Or.inl member
  rcases scanRow_cases answer with ⟨fault, replied⟩ | replied
  · rw [replied]
    exact Contract.SessionOk.resume ok.within stable held
      (by simp) (onFault fault)
  · rw [replied]
    exact Contract.SessionOk.resume ok.within stable held (by simp) onOk

theorem Contract.advance_exec
    {stmt : Stmt}
    {next :
      Except Fault (Reply stmt) → Program Stmt Reply Fault Counter Result}
    (program : session.program = some (.exec stmt next))
    (free : engine.blocked answer stmt ⟨db, session.tx⟩ = false) :
    contract.MoveOk answer db session
      { db
        session :=
          session.resume (engine.execTx answer stmt ⟨db, session.tx⟩).1
            next (engine.execTx answer stmt ⟨db, session.tx⟩).2.tx
            [] } := by
  rcases ok.meets _ program with ⟨holds, stable, held, meets⟩
  rcases opened : session.tx with _ | tx
  · rw [opened] at meets stable
    refine Contract.MoveOk.quiet ?_ rfl rfl ?_
    · exact Contract.SessionOk.resume (by simp [Engine.execTx]) stable
        held (by simp [Engine.execTx]) meets
    · intro res member
      simp [Session.resume, Engine.execTx] at member
  · rw [opened] at meets stable free
    have within := ok.within tx opened
    rcases meets with ⟨onFault, onOk⟩
    rcases engine.execTx_cases answer stmt db tx with
      ⟨fault, failed, replied⟩ | ⟨alive, answered, effect, evaluated, replied⟩
    · rw [replied]
      refine Contract.MoveOk.quiet ?_ rfl rfl ?_
      · refine Contract.SessionOk.resume ?_ stable held (by simp)
          (onFault fault failed)
        rintro other equal
        cases equal
        exact within
      · intro res member
        rw [opened]
        exact Or.inl member
    · rcases onOk alive _ _ db effect held evaluated with
        ⟨writesWithin, known, knownStable, knows, later⟩
      have unblocked :
          engine.waits answer.others answer.oracle stmt
            (engine.applyAll tx.writes db) = false := by
        simpa [Engine.blocked, alive, answered] using free
      rw [replied]
      refine Contract.MoveOk.quiet ?_ rfl rfl ?_
      · refine Contract.SessionOk.resume ?_ knownStable knows (by simp) later
        rintro other equal
        cases equal
        exact Contract.within_append within writesWithin
      · intro res member
        rw [opened]
        rcases List.mem_append.mp member with old | new
        · exact Or.inl old
        · exact Or.inr
            (contract.exclusive _ _ _ _ _ _ evaluated unblocked res new)

theorem Contract.advance_query
    {stmt : Stmt}
    {next :
      Except Fault (Reply stmt) → Program Stmt Reply Fault Counter Result}
    (program : session.program = some (.query stmt next))
    (free :
      (answer.fault.isNone &&
        engine.waits answer.others answer.oracle stmt db) = false) :
    contract.MoveOk answer db session
      { db := (engine.queryPool answer stmt ⟨db, session.tx⟩).2.db
        session :=
          session.resume
            (engine.queryPool answer stmt ⟨db, session.tx⟩).1 next
            session.tx (engine.queryWrites answer stmt db)
        published := engine.queryWrites answer stmt db } := by
  rcases ok.meets _ program with
    ⟨holds, stable, held, onFault, onOk⟩
  rcases engine.queryPool_cases answer stmt db session.tx with
    ⟨fault, replied⟩ | ⟨answered, effect, evaluated, replied⟩
  · have silent : engine.queryWrites answer stmt db = [] := by
      unfold Engine.queryPool at replied
      unfold Engine.queryWrites
      cases answered : answer.fault with
      | some other => rfl
      | none =>
          simp only [answered] at replied
          cases evaluated :
              engine.eval answer.clock answer.others answer.oracle
                stmt db with
          | error other => rfl
          | ok effect => simp [evaluated] at replied
    rw [replied, silent]
    refine Contract.MoveOk.quiet ?_ rfl rfl fun res member =>
      Or.inl member
    exact Contract.SessionOk.resume ok.within stable held
      (by simp) (onFault fault)
  · have written :
        engine.queryWrites answer stmt db = effect.writes := by
      simp [Engine.queryWrites, answered, evaluated]
    have unblocked :
        engine.waits answer.others answer.oracle stmt db = false := by
      simpa [answered] using free
    rcases onOk _ _ _ db effect held evaluated with
      ⟨writesWithin, lawful, known, knownStable, knows, later⟩
    rw [replied, written]
    exact
      { resumed :=
          Contract.SessionOk.resume ok.within knownStable knows
            (by simp) later
        sameCall := rfl
        locked := fun res member => Or.inl member
        recorded := rfl
        applied := rfl
        lawful := lawful
        apart := by
          intro res lockedByOther _
          apply contract.agrees_applyAll writesWithin
          intro member
          have unlocked :=
            contract.exclusive _ _ _ _ _ _ evaluated unblocked res member
          simp [unlocked] at lockedByOther }

theorem Contract.advance_commit
    (program : session.program = some (.commit next)) :
    contract.MoveOk answer db session
      { db := (engine.commitTx answer ⟨db, session.tx⟩).2.db
        session :=
          session.resume (engine.commitTx answer ⟨db, session.tx⟩).1
            next (engine.commitTx answer ⟨db, session.tx⟩).2.tx
            (commitWrites answer session.tx)
        published := commitWrites answer session.tx } := by
  rcases ok.meets _ program with ⟨holds, stable, held, meets⟩
  rcases opened : session.tx with _ | tx
  · rw [opened] at meets stable
    refine Contract.MoveOk.quiet ?_ rfl rfl ?_
    · exact Contract.SessionOk.resume (by simp [Engine.commitTx])
        stable held (by simp [Engine.commitTx]) meets
    · intro res member
      simp [Session.resume, Engine.commitTx] at member
  · rw [opened] at meets stable
    have within := ok.within tx opened
    rcases meets with ⟨⟨known, knownStable, knows, onFault⟩, onOk⟩
    rcases engine.commitTx_cases answer db tx with
      ⟨fault, replied⟩ | ⟨alive, answered, replied⟩
    · have silent : commitWrites answer (some tx) = [] := by
        unfold Engine.commitTx at replied
        unfold commitWrites
        cases answered : answer.fault with
        | some other => rfl
        | none =>
            cases failed : tx.failed with
            | true => simp [failed]
            | false => simp [answered, failed] at replied
      rw [replied, silent]
      refine Contract.MoveOk.quiet ?_ rfl rfl ?_
      · exact Contract.SessionOk.resume (by simp) knownStable
          (knows db held) (by simp) (onFault fault)
      · intro res member
        simp [Session.resume] at member
    · have written : commitWrites answer (some tx) = tx.writes := by
        simp [commitWrites, answered, alive]
      rcases onOk alive with
        ⟨lawful, settled, settledStable, knowsSettled, later⟩
      rw [replied, written]
      exact
        { resumed :=
            Contract.SessionOk.resume (by simp) settledStable
              (knowsSettled db held) (by simp) later
          sameCall := rfl
          locked := by
            intro res member
            simp [Session.resume] at member
          recorded := rfl
          applied := rfl
          lawful := fun nonempty => lawful nonempty db held
          apart := by
            intro res _ notHeld
            rw [opened] at notHeld
            exact contract.agrees_applyAll within notHeld db }

/-- One round trip of a session that keeps its contract. -/
theorem Contract.advance_ok
    (advanced : engine.advance answer db session = some moved) :
    contract.MoveOk answer db session moved := by
  unfold Engine.advance at advanced
  split at advanced
  · cases advanced
  · rename_i result program
    split at advanced
    · cases advanced
    · simp only [Option.some.injEq] at advanced
      subst moved
      refine Contract.MoveOk.quiet ⟨by simp, ?_⟩ rfl rfl (by simp)
      intro other equal
      rcases ok.meets _ program with ⟨holds, _, held, ensures⟩
      simp only [program, Option.some.injEq] at equal
      subst other
      exact
        ⟨contract.Ensures session.call session.commits
            session.faulted result,
          contract.stable_ensures _ _ _ _ _, ensures db held,
          fun _ promised => promised⟩
  · rename_i next program
    simp only [Option.some.injEq] at advanced
    subst moved
    exact Contract.advance_begin ok program
  · rename_i stmt next program
    split at advanced
    · cases advanced
    · rename_i free
      simp only [Option.some.injEq] at advanced
      subst moved
      exact Contract.advance_exec ok program (by simpa using free)
  · rename_i stmt next program
    split at advanced
    · cases advanced
    · rename_i free
      simp only [Option.some.injEq] at advanced
      subst moved
      exact Contract.advance_query ok program (by simpa using free)
  · rename_i next program
    simp only [Option.some.injEq] at advanced
    subst moved
    exact Contract.advance_scan ok program
  · rename_i next program
    simp only [Option.some.injEq] at advanced
    subst moved
    exact Contract.advance_commit ok program
  · rename_i counter amount next program
    simp only [Option.some.injEq] at advanced
    subst moved
    refine Contract.MoveOk.quiet ⟨ok.within, ?_⟩ rfl rfl
      fun res member => Or.inl member
    intro other equal
    simp only [Option.some.injEq] at equal
    subst other
    rcases ok.meets _ program with ⟨holds, stable, held, meets⟩
    exact ⟨holds, stable, held, meets⟩

end

/-! ## Whole configurations -/

variable
    {config next :
      Config Call Stmt Reply Fault Counter Result Db Write Res Time}
    {session : Session Call Stmt Reply Fault Counter Result Write Res Time}
    {start : Db} {index : Nat}

/-- What is known about the sessions of a configuration. -/
structure Contract.Coherent
    (contract : Contract Call Result engine)
    (config : Config Call Stmt Reply Fault Counter Result Db Write Res Time) :
    Prop where
  sessionOk :
    ∀ (index : Nat) session,
      config.sessions[index]? = some session →
        contract.SessionOk config.db session
  disjoint :
    ∀ (left right : Nat) first second,
      left ≠ right →
      config.sessions[left]? = some first →
      config.sessions[right]? = some second →
        ∀ res ∈ heldBy first.tx, res ∉ heldBy second.tx
  recorded :
    ∀ (index : Nat) session,
      config.sessions[index]? = some session →
        session.commits =
          (config.history.filter
            (fun commit => commit.session = index)).map Commit.writes
  known :
    ∀ commit ∈ config.history,
      ∃ session,
        config.sessions[commit.session]? = some session ∧
          session.call = commit.call

/-- What is known about a configuration reached from `start`. -/
structure Contract.ConfigOk
    (contract : Contract Call Result engine) (start : Db)
    (config : Config Call Stmt Reply Fault Counter Result Db Write Res Time) :
    Prop extends contract.Coherent config where
  publishes :
    contract.Publishes start
      (config.history.map fun commit => (commit.call, commit.writes))
      config.db

theorem Contract.coherent_start
    (contract : Contract Call Result engine) (start : Db) :
    contract.Coherent
      ({ db := start } :
        Config Call Stmt Reply Fault Counter Result Db Write Res Time) where
  sessionOk := by simp
  disjoint := by simp
  recorded := by simp
  known := by simp

theorem Contract.configOk_start
    (contract : Contract Call Result engine) (start : Db) :
    contract.ConfigOk start
      ({ db := start } :
        Config Call Stmt Reply Fault Counter Result Db Write Res Time) where
  toCoherent := contract.coherent_start start
  publishes := .nil start

/-- The assertions of a session survive a change that spares its locks. -/
theorem Contract.SessionOk.interfered
    (ok : contract.SessionOk db session)
    (interferes : contract.Interferes (heldBy session.tx) db after) :
    contract.SessionOk after session where
  within := ok.within
  meets := by
    intro program equal
    rcases ok.meets program equal with ⟨holds, stable, held, meets⟩
    exact ⟨holds, stable, stable db after interferes held, meets⟩

/-- The assertions of a session survive what another session publishes. -/
theorem Contract.SessionOk.survives
    (ok : contract.SessionOk db session) {writes : List Write}
    (lawful : writes ≠ [] → contract.Lawful db call writes)
    (applied : after = engine.applyAll writes db)
    (agrees : ∀ res ∈ heldBy session.tx, contract.Agrees res db after) :
    contract.SessionOk after session := by
  cases writes with
  | nil =>
      simp only [Engine.applyAll_nil] at applied
      subst after
      exact ok
  | cons first rest =>
      exact ok.interfered
        ⟨Or.inl ⟨call, first :: rest, lawful (by simp), applied⟩, agrees⟩

/-- The sessions survive a disturbance that spares what they have locked. -/
theorem Contract.Coherent.disturb
    (ok : contract.Coherent config)
    (disturbs : contract.Disturbs config.db after)
    (spared :
      ∀ (index : Nat) session,
        config.sessions[index]? = some session →
          ∀ res ∈ heldBy session.tx, contract.Agrees res config.db after) :
    contract.Coherent { config with db := after } where
  sessionOk := fun index session found =>
    (ok.sessionOk index session found).interfered
      ⟨Or.inr disturbs, spared index session found⟩
  disjoint := ok.disjoint
  recorded := ok.recorded
  known := ok.known

theorem heldByOthers_eq_true_iff [DecidableEq Res]
    (sessions :
      List (Session Call Stmt Reply Fault Counter Result Write Res Time))
    (index : Nat) (res : Res) :
    heldByOthers sessions index res = true ↔
      ∃ other session,
        other ≠ index ∧ sessions[other]? = some session ∧
          res ∈ heldBy session.tx := by
  simp only [heldByOthers, List.any_eq_true, Bool.and_eq_true,
    bne_iff_ne, ne_eq, decide_eq_true_eq, Prod.exists,
    List.mem_zipIdx_iff_getElem?]
  constructor
  · rintro ⟨session, other, found, different, member⟩
    exact ⟨other, session, different, found, member⟩
  · rintro ⟨other, session, different, found, member⟩
    exact ⟨session, other, found, different, member⟩

theorem recordCommit_writes
    (history : List (Commit Call Write))
    (index : Nat) (call : Call) (writes : List Write) :
    ((recordCommit history index call writes).filter
        (fun commit => commit.session = index)).map Commit.writes =
      publish writes
        ((history.filter
          (fun commit => commit.session = index)).map Commit.writes) := by
  cases writes with
  | nil => rfl
  | cons first rest => simp [recordCommit]

theorem recordCommit_other
    (history : List (Commit Call Write))
    {index other : Nat} (different : other ≠ index)
    (call : Call) (writes : List Write) :
    (recordCommit history index call writes).filter
        (fun commit => commit.session = other) =
      history.filter (fun commit => commit.session = other) := by
  cases writes with
  | nil => rfl
  | cons first rest => simp [recordCommit, Ne.symm different]

theorem mem_recordCommit
    {history : List (Commit Call Write)} {index : Nat} {writes : List Write}
    {commit : Commit Call Write}
    (member : commit ∈ recordCommit history index call writes) :
    commit ∈ history ∨ commit = ⟨index, call, writes⟩ := by
  cases writes with
  | nil => exact Or.inl member
  | cons first rest =>
      simpa only [recordCommit, List.mem_append,
        List.mem_singleton] using member

theorem Contract.Coherent.spawn
    (ok : contract.Coherent config)
    {program : Program Stmt Reply Fault Counter Result}
    (meets : contract.Meets call program none (fun _ => True) [] false) :
    contract.Coherent
      { config with
        sessions :=
          config.sessions ++ [{ call, program := some program }] } := by
  refine ⟨?_, ?_, ?_, ?_⟩
  · intro index session found
    rcases getElem?_concat_some found with old | ⟨_, rfl⟩
    · exact ok.sessionOk index session old
    · refine ⟨by simp, ?_⟩
      intro other equal
      simp only [Option.some.injEq] at equal
      subst other
      exact ⟨fun _ => True, contract.stable_true _, True.intro, meets⟩
  · intro left right first second different foundLeft foundRight res
      member
    rcases getElem?_concat_some foundLeft with oldLeft | ⟨_, rfl⟩
    · rcases getElem?_concat_some foundRight with oldRight | ⟨_, rfl⟩
      · exact ok.disjoint left right first second different oldLeft
          oldRight res member
      · simp
    · simp at member
  · intro index session found
    rcases getElem?_concat_some found with old | ⟨position, rfl⟩
    · exact ok.recorded index session old
    · have none :
          config.history.filter
            (fun commit => commit.session = index) = [] := by
        rw [List.filter_eq_nil_iff]
        intro commit member equal
        rcases ok.known commit member with ⟨owner, found, _⟩
        simp only [decide_eq_true_eq] at equal
        rw [equal, position] at found
        simp at found
      simp [none]
  · intro commit member
    rcases ok.known commit member with ⟨session, found, same⟩
    exact ⟨session, getElem?_concat_old found, same⟩

section

variable (ok : contract.Coherent config)
  (found : config.sessions[index]? = some session)

include ok found

/-- The owner of every commit is still there after a session is replaced. -/
theorem Contract.Coherent.known_set
    {later : Session Call Stmt Reply Fault Counter Result Write Res Time}
    (sameCall : later.call = session.call) {commit : Commit Call Write}
    (member : commit ∈ config.history) :
    ∃ owner,
      (config.sessions.set index later)[commit.session]? = some owner ∧
        owner.call = commit.call := by
  rcases ok.known commit member with ⟨owner, located, same⟩
  by_cases own : commit.session = index
  · subst index
    rw [found] at located
    cases located
    exact ⟨later, getElem?_set_some found, sameCall.trans same⟩
  · refine ⟨owner, ?_, same⟩
    rw [List.getElem?_set_ne (Ne.symm own)]
    exact located

theorem Contract.Coherent.crash :
    contract.Coherent
      { config with
        sessions :=
          config.sessions.set index
            { session with program := none, tx := none } } := by
  refine ⟨?_, ?_, ?_, ?_⟩
  · intro position other lookup
    rcases getElem?_set_cases lookup with ⟨_, equal⟩ | ⟨_, old⟩
    · subst other
      exact ⟨by simp, by simp⟩
    · exact ok.sessionOk position other old
  · intro left right first second different foundLeft foundRight res
      member
    rcases getElem?_set_cases foundLeft with
      ⟨_, equalLeft⟩ | ⟨_, oldLeft⟩
    · subst first
      simp at member
    · rcases getElem?_set_cases foundRight with
        ⟨_, equalRight⟩ | ⟨_, oldRight⟩
      · subst second
        simp
      · exact ok.disjoint left right first second different oldLeft
          oldRight res member
  · intro position other lookup
    rcases getElem?_set_cases lookup with ⟨same, equal⟩ | ⟨_, old⟩
    · subst other
      subst position
      exact ok.recorded index session found
    · exact ok.recorded position other old
  · intro commit member
    have sameCall :
        ({ session with program := none, tx := none } :
          Session Call Stmt Reply Fault Counter Result Write Res
            Time).call = session.call :=
      rfl
    exact ok.known_set found sameCall member

theorem Contract.Coherent.advance [DecidableEq Res]
    (moveOk :
      contract.MoveOk
        { answer with others := heldByOthers config.sessions index }
        config.db session moved) :
    contract.Coherent
      { db := moved.db
        sessions := config.sessions.set index moved.session
        history :=
          recordCommit config.history index session.call
            moved.published } := by
  have othersHold :
      ∀ (position : Nat) other res,
        position ≠ index →
        config.sessions[position]? = some other →
        res ∈ heldBy other.tx →
          heldByOthers config.sessions index res = true := by
    intro position other res different located member
    exact (heldByOthers_eq_true_iff config.sessions index res).mpr
      ⟨position, other, different, located, member⟩
  have notShared :
      ∀ (position : Nat) other res,
        position ≠ index →
        config.sessions[position]? = some other →
        res ∈ heldBy other.tx → res ∉ heldBy moved.session.tx := by
    intro position other res different located member mine
    rcases moveOk.locked res mine with old | free
    · exact ok.disjoint index position session other
        (Ne.symm different) found located res old member
    · have taken :=
        othersHold position other res different located member
      simp only at free
      rw [taken] at free
      exact Bool.noConfusion free
  refine ⟨?_, ?_, ?_, ?_⟩
  · intro position other lookup
    rcases getElem?_set_cases lookup with ⟨_, equal⟩ | ⟨apart, old⟩
    · subst other
      exact moveOk.resumed
    · apply (ok.sessionOk position other old).survives
        moveOk.lawful moveOk.applied
      intro res member
      apply moveOk.apart res
      · exact othersHold position other res apart old member
      · exact fun mine =>
          ok.disjoint index position session other (Ne.symm apart)
            found old res mine member
  · intro left right first second different foundLeft foundRight res
      member
    rcases getElem?_set_cases foundLeft with
      ⟨atLeft, equalLeft⟩ | ⟨apartLeft, oldLeft⟩
    · subst first
      rcases getElem?_set_cases foundRight with
        ⟨atRight, _⟩ | ⟨apartRight, oldRight⟩
      · exact (different (atLeft.trans atRight.symm)).elim
      · exact fun shared =>
          notShared right second res apartRight oldRight shared member
    · rcases getElem?_set_cases foundRight with
        ⟨_, equalRight⟩ | ⟨_, oldRight⟩
      · subst second
        exact notShared left first res apartLeft oldLeft member
      · exact ok.disjoint left right first second different oldLeft
          oldRight res member
  · intro position other lookup
    rcases getElem?_set_cases lookup with ⟨same, equal⟩ | ⟨apart, old⟩
    · subst other
      subst position
      rw [recordCommit_writes, ← ok.recorded index session found]
      exact moveOk.recorded
    · rw [recordCommit_other _ apart]
      exact ok.recorded position other old
  · intro commit member
    rcases mem_recordCommit member with old | new
    · exact ok.known_set found moveOk.sameCall old
    · subst commit
      exact ⟨moved.session, getElem?_set_some found, moveOk.sameCall⟩

end

variable
    {programOf : Call → Program Stmt Reply Fault Counter Result}
    {label : Label Call Fault Res Oracle Time}

theorem Contract.Coherent.step [DecidableEq Res]
    (meets :
      ∀ call,
        contract.Meets call (programOf call) none (fun _ => True) [] false)
    (ok : contract.Coherent config)
    (stepped : engine.step programOf config label = some next) :
    contract.Coherent next := by
  rcases Engine.step_eq_some stepped with
    ⟨call, _, equal⟩ |
      ⟨index, answer, session, moved, _, found, advanced, equal⟩ |
      ⟨index, session, _, found, _, equal⟩
  · subst next
    exact ok.spawn (meets call)
  · subst next
    exact ok.advance found
      (Contract.advance_ok (ok.sessionOk index session found) advanced)
  · subst next
    exact ok.crash found

/-- A step changes the committed state only by a recorded commit. -/
theorem Contract.Coherent.step_cases [DecidableEq Res]
    (ok : contract.Coherent config)
    (stepped : engine.step programOf config label = some next) :
    (next.db = config.db ∧ next.history = config.history) ∨
      ∃ commit : Commit Call Write,
        contract.Lawful config.db commit.call commit.writes ∧
          next.db = engine.applyAll commit.writes config.db ∧
          next.history = config.history ++ [commit] ∧
          commit.writes ≠ [] := by
  rcases Engine.step_eq_some stepped with
    ⟨call, _, equal⟩ |
      ⟨index, answer, session, moved, _, found, advanced, equal⟩ |
      ⟨index, session, _, _, _, equal⟩
  · subst next
    exact Or.inl ⟨rfl, rfl⟩
  · subst next
    have moveOk :=
      Contract.advance_ok (ok.sessionOk index session found) advanced
    have applied := moveOk.applied
    have lawful := moveOk.lawful
    cases published : moved.published with
    | nil =>
        rw [published] at applied
        exact Or.inl ⟨applied, rfl⟩
    | cons write rest =>
        rw [published] at applied lawful
        exact Or.inr
          ⟨⟨index, session.call, write :: rest⟩, lawful (by simp),
            applied, rfl, by simp⟩
  · subst next
    exact Or.inl ⟨rfl, rfl⟩

/-- One step of the interleaved execution keeps the contract. -/
theorem Contract.step_ok [DecidableEq Res]
    (meets :
      ∀ call,
        contract.Meets call (programOf call) none (fun _ => True) [] false)
    (ok : contract.ConfigOk start config)
    (stepped : engine.step programOf config label = some next) :
    contract.ConfigOk start next where
  toCoherent := ok.toCoherent.step meets stepped
  publishes := by
    rcases ok.step_cases stepped with
      ⟨sameDb, sameHistory⟩ | ⟨commit, lawful, applied, grown, _⟩
    · rw [sameDb, sameHistory]
      exact ok.publishes
    · rw [applied, grown, List.map_append]
      exact .snoc ok.publishes commit.call commit.writes lawful

/-- Every schedule keeps the contract. -/
theorem Contract.follow_ok [DecidableEq Res]
    (meets :
      ∀ call,
        contract.Meets call (programOf call) none (fun _ => True) [] false)
    {schedule : List (Label Call Fault Res Oracle Time)}
    (followed :
      engine.follow programOf { db := start } schedule = some config) :
    contract.ConfigOk start config :=
  engine.follow_invariant
    (fun _ _ _ ok stepped => Contract.step_ok meets ok stepped)
    (contract.configOk_start start) followed

/-- The commits of a session in the history. -/
theorem Contract.Coherent.history_of
    (ok : contract.Coherent config)
    (found : config.sessions[index]? = some session) :
    config.history.filter (fun commit => commit.session = index) =
      session.commits.map fun writes =>
        ⟨index, session.call, writes⟩ := by
  have same :
      ∀ commit ∈
          config.history.filter (fun commit => commit.session = index),
        (⟨index, session.call, commit.writes⟩ : Commit Call Write) =
          commit := by
    intro commit member
    simp only [List.mem_filter, decide_eq_true_eq] at member
    rcases member with ⟨occurs, atIndex⟩
    rcases ok.known commit occurs with ⟨owner, located, called⟩
    rw [atIndex, found] at located
    cases located
    rw [called, ← atIndex]
  rw [ok.recorded index session found, List.map_map]
  exact ((List.map_congr_left same).trans (List.map_id _)).symm

/-- The result of a finished session is as promised. -/
theorem Contract.Coherent.ensures
    (ok : contract.Coherent config)
    (found : config.sessions[index]? = some session)
    {result : Result}
    (finished : session.program = some (.done result)) :
    contract.Ensures session.call session.commits session.faulted
      result config.db := by
  rcases (ok.sessionOk index session found).meets _ finished with
    ⟨holds, _, held, meets⟩
  exact meets config.db held

end Interleaving

end Dhara.Transaction
