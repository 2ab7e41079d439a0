import Dhara.Store.Invariants

/-!
# Claims are exclusive

Any number of sessions run their round trips in any order.  A committed
`Claim` increments the attempts of a row that was `PENDING` when it was
locked, and the row stays locked until the commit.  So the claims of a task
count 1, 2, 3, … from one manual retry to the next, and between two of them
the task went back to `PENDING`.
-/

namespace Dhara.Store

open Dhara.Transaction

/-! ## Claims in the history -/

/-- The attempts value that a committed `Claim` of the task returns. -/
def claimedAttempts (id : TaskId) (commit : StoreCommit) : Option Nat :=
  match commit.call with
  | .claim _ => (written id commit.writes).map TaskRecord.attempts
  | _ => none

/-- The commit is a manual retry of the task. -/
def retriesManually (id : TaskId) (commit : StoreCommit) : Bool :=
  match commit.call with
  | .retryDead _ => (written id commit.writes).isSome
  | _ => false

/-- The commit returns the task to `PENDING`. -/
def returnsToPending (id : TaskId) (commit : StoreCommit) : Bool :=
  (written id commit.writes).any fun row => row.status = .pending

/-- The values claimed since the last manual retry, in their order. -/
def claimsSinceRetry (id : TaskId) (history : List StoreCommit) :
    List Nat :=
  history.foldl
    (fun claims commit =>
      if retriesManually id commit then []
      else claims ++ (claimedAttempts id commit).toList) []

@[simp]
theorem claimsSinceRetry_concat
    (id : TaskId) (history : List StoreCommit) (commit : StoreCommit) :
    claimsSinceRetry id (history ++ [commit]) =
      if retriesManually id commit then []
      else
        claimsSinceRetry id history ++
          (claimedAttempts id commit).toList := by
  simp [claimsSinceRetry]

/-- The attempts of a task, before it exists and after. -/
def attemptsOf (row : Option TaskRecord) : Nat :=
  row.elim 0 TaskRecord.attempts

/-! ## One commit -/

/-- What a commit does to the attempts and the status of a task. -/
inductive Turn (id : TaskId) (commit : StoreCommit) :
    Option TaskRecord → Option TaskRecord → Prop where
  | claimed (old new : TaskRecord)
      (value : claimedAttempts id commit = some new.attempts)
      (automatic : retriesManually id commit = false)
      (pending : old.status = .pending)
      (running : new.status = .running)
      (counted : new.attempts = old.attempts + 1) :
      Turn id commit (some old) (some new)
  | retried (old new : TaskRecord)
      (unclaimed : claimedAttempts id commit = none)
      (manual : retriesManually id commit = true)
      (returned : returnsToPending id commit = true)
      (reset : new.attempts = 0) :
      Turn id commit (some old) (some new)
  | other (before after : Option TaskRecord)
      (unclaimed : claimedAttempts id commit = none)
      (automatic : retriesManually id commit = false)
      (same : attemptsOf after = attemptsOf before)
      (left :
        ∀ old, before = some old → old.status ≠ .pending →
          returnsToPending id commit = true ∨
            ∃ new, after = some new ∧ new.status ≠ .pending) :
      Turn id commit before after

section Commits

variable {platform : Platform} {db : Database} {commit : StoreCommit}
  {after : Option TaskRecord} {id : TaskId}

/-- A commit that wrote nothing to the task is no turn of it. -/
theorem Turn.unwritten
    (silent : written id commit.writes = none) {before : Option TaskRecord}
    (same : attemptsOf after = attemptsOf before)
    (left :
      ∀ old, before = some old → old.status ≠ .pending →
        ∃ new, after = some new ∧ new.status ≠ .pending) :
    Turn id commit before after := by
  apply Turn.other before after _ _ same
  · intro old found busy
    exact Or.inr (left old found busy)
  · unfold claimedAttempts
    split
    · rw [silent]
      rfl
    · rfl
  · unfold retriesManually
    split
    · rw [silent]
      rfl
    · rfl

/-- A commit that leaves the task in another status than `PENDING`. -/
theorem Turn.finish
    {old new : TaskRecord} (unclaimed : claimedAttempts id commit = none)
    (automatic : retriesManually id commit = false)
    (same : new.attempts = old.attempts) (busy : new.status ≠ .pending) :
    Turn id commit (some old) (some new) :=
  .other _ _ unclaimed automatic same fun _ _ _ => Or.inr ⟨new, rfl, busy⟩

/-- A commit that returns the task to `PENDING`. -/
theorem Turn.back
    {old new : TaskRecord} (wrote : written id commit.writes = some new)
    (unclaimed : claimedAttempts id commit = none)
    (automatic : retriesManually id commit = false)
    (same : new.attempts = old.attempts) (pending : new.status = .pending) :
    Turn id commit (some old) (some new) := by
  refine Turn.other _ _ unclaimed automatic same ?_
  intro _ _ _
  simp [returnsToPending, wrote, pending]

/-- A move of the task is a turn of it. -/
theorem Turn.move
    {move : Move} (wrote : written id commit.writes = some move.after)
    (enabled : move.change.Enabled move.now move.row)
    (kind : commit.call.makes move.change = true) :
    Turn id commit (some move.row) (some move.after) := by
  rcases commit with ⟨session, call, writes⟩
  rcases move with ⟨row, change, now, logId, message⟩
  cases change with
  | claim workerID =>
      cases call with
      | claim name =>
          apply Turn.claimed
          · exact congrArg (Option.map TaskRecord.attempts) wrote
          · rfl
          · exact due_pending enabled
          · rfl
          · rfl
      | _ => cases kind
  | retryDead =>
      cases call with
      | retryDead taskID =>
          apply Turn.retried
          · rfl
          · exact congrArg Option.isSome wrote
          · rw [returnsToPending, wrote]
            rfl
          · rfl
      | _ => cases kind
  | heartbeat workerID => exact enabled.elim
  | markPending workerID lastError runAt =>
      cases call with
      | markPending => exact Turn.back wrote rfl rfl rfl rfl
      | _ => cases kind
  | toPending =>
      cases call with
      | requeueStaleRunning => exact Turn.back wrote rfl rfl rfl rfl
      | _ => cases kind
  | cancel =>
      cases call with
      | cancel => exact Turn.finish rfl rfl rfl nofun
      | _ => cases kind
  | markCompleted workerID =>
      cases call with
      | markCompleted => exact Turn.finish rfl rfl rfl nofun
      | _ => cases kind
  | markDead workerID lastError =>
      cases call with
      | markDead => exact Turn.finish rfl rfl rfl nofun
      | _ => cases kind
  | toDead =>
      cases call with
      | requeueStaleRunning => exact Turn.finish rfl rfl rfl nofun
      | _ => cases kind

/-- A lawful commit is a turn of every task. -/
theorem Lawful.turn
    (lawful : Lawful platform db commit.call commit.writes)
    (id : TaskId) :
    Turn id commit (db.find id)
      (((postgres platform).applyAll commit.writes db).find id) := by
  have step := lawful.viewStep id
  generalize before : db.view id = first at step
  generalize wrote : written id commit.writes = row at step
  generalize after :
    ((postgres platform).applyAll commit.writes db).view id = last
      at step
  rw [← Database.view_row, ← Database.view_row, before, after]
  cases step with
  | stay =>
      apply Turn.unwritten wrote rfl
      intro old found busy
      exact ⟨old, found, busy⟩
  | enqueue row logs letters enqueues =>
      rcases enqueues with ⟨_, _, _, encoded, now, _, _, equal⟩
      apply Turn.unwritten wrote
      · rw [equal]
        rfl
      · intro old found
        cases found
  | beat workerID row now logs letters owned called =>
      rcases commit with ⟨session, call, writes⟩
      change call = _ at called
      subst call
      refine Turn.other _ _ rfl rfl rfl ?_
      intro old found busy
      cases found
      exact Or.inr ⟨_, rfl, busy⟩
  | move move logs letters enabled performs =>
      exact Turn.move wrote enabled performs.makes

/-- A claim finds the task `PENDING` and makes it `RUNNING`. -/
theorem Turn.of_claimed
    {before : Option TaskRecord} (turn : Turn id commit before after)
    (claimed : (claimedAttempts id commit).isSome = true) :
    (∀ row, before = some row → row.status = .pending) ∧
      ∃ row, after = some row ∧ row.status ≠ .pending := by
  cases turn with
  | claimed old new value automatic pending running =>
      constructor
      · intro row found
        cases found
        exact pending
      · refine ⟨new, rfl, ?_⟩
        rw [running]
        decide
  | retried old new unclaimed =>
      rw [unclaimed] at claimed
      cases claimed
  | other before after unclaimed =>
      rw [unclaimed] at claimed
      cases claimed

/-- A busy task stays busy unless it is returned to `PENDING`. -/
theorem Turn.of_busy
    {old : TaskRecord} (turn : Turn id commit (some old) after)
    (busy : old.status ≠ .pending) :
    returnsToPending id commit = true ∨
      ∃ row, after = some row ∧ row.status ≠ .pending := by
  cases turn with
  | claimed old new value automatic pending =>
      exact (busy pending).elim
  | retried old new unclaimed manual returned =>
      exact Or.inl returned
  | other before after unclaimed automatic same left =>
      exact left old rfl busy

end Commits

/-! ## Every history -/

section Histories

variable {platform : Platform} {db : Database} {commit : StoreCommit}
    {history : List StoreCommit} {id : TaskId}

/-- The claims since the last manual retry count up to the attempts. -/
def Counted (id : TaskId) (history : List StoreCommit) (db : Database) :
    Prop :=
  claimsSinceRetry id history = List.range' 1 (attemptsOf (db.find id))

theorem Counted.concat
    (counted : Counted id history db)
    (lawful : Lawful platform db commit.call commit.writes) :
    Counted id (history ++ [commit])
      ((postgres platform).applyAll commit.writes db) := by
  have turn := lawful.turn id
  unfold Counted at counted ⊢
  rw [claimsSinceRetry_concat]
  generalize db.find id = before at counted turn
  generalize
    ((postgres platform).applyAll commit.writes db).find id = after
      at turn ⊢
  cases turn with
  | claimed old new value automatic pending running increment =>
      have next : attemptsOf (some new) = attemptsOf (some old) + 1 :=
        increment
      rw [automatic, value, counted, next, List.range'_1_concat, increment]
      simp [attemptsOf, Nat.add_comm]
  | retried old new unclaimed manual returned reset =>
      have cleared : attemptsOf (some new) = 0 := reset
      rw [manual, cleared]
      rfl
  | other _ _ unclaimed automatic same left =>
      rw [automatic, unclaimed, counted, same]
      simp

/-- The position of a committed claim of the task. -/
def ClaimedAt (id : TaskId) (history : List StoreCommit)
    (position : Nat) : Prop :=
  ∃ commit,
    history[position]? = some commit ∧
      (claimedAttempts id commit).isSome = true

/-- The position of a commit that returns the task to `PENDING`. -/
def ReturnedAt (id : TaskId) (history : List StoreCommit)
    (position : Nat) : Prop :=
  ∃ commit,
    history[position]? = some commit ∧ returnsToPending id commit = true

/--
Between two claims the task was returned to `PENDING`, and after the last one
it is not `PENDING` unless it was returned.
-/
structure Separated (id : TaskId) (history : List StoreCommit)
    (db : Database) : Prop where
  between :
    ∀ first second, first < second →
      ClaimedAt id history first → ClaimedAt id history second →
        ∃ middle, first < middle ∧ middle < second ∧
          ReturnedAt id history middle
  sinceLast :
    ∀ position, ClaimedAt id history position →
      (∃ later, position < later ∧ ReturnedAt id history later) ∨
        ∃ row, db.find id = some row ∧ row.status ≠ .pending

theorem Separated.concat
    (separated : Separated id history db)
    (lawful : Lawful platform db commit.call commit.writes) :
    Separated id (history ++ [commit])
      ((postgres platform).applyAll commit.writes db) := by
  have kept :
      ∀ {position}, ReturnedAt id history position →
        ReturnedAt id (history ++ [commit]) position := by
    rintro position ⟨entry, found, returned⟩
    exact ⟨entry, getElem?_concat_old found, returned⟩
  have turn := lawful.turn id
  have inside :
      ∀ {position}, ReturnedAt id history position →
        position < history.length := by
    rintro position ⟨entry, found, _⟩
    exact (List.getElem?_eq_some_iff.mp found).1
  constructor
  · rintro first second ordered ⟨one, foundOne, claimedOne⟩
      ⟨two, foundTwo, claimedTwo⟩
    have bounded := (List.getElem?_eq_some_iff.mp foundTwo).1
    rw [List.length_append, List.length_singleton] at bounded
    have early : ClaimedAt id history first := by
      rcases getElem?_concat_some foundOne with old | ⟨last, _⟩
      · exact ⟨one, old, claimedOne⟩
      · omega
    rcases getElem?_concat_some foundTwo with old | ⟨last, equal⟩
    · rcases separated.between first second ordered early
          ⟨two, old, claimedTwo⟩ with
        ⟨middle, after, before, returned⟩
      exact ⟨middle, after, before, kept returned⟩
    · subst two
      rcases separated.sinceLast first early with
        ⟨later, after, returned⟩ | ⟨row, found, busy⟩
      · refine ⟨later, after, ?_, kept returned⟩
        rw [last]
        exact inside returned
      · exact (busy ((turn.of_claimed claimedTwo).1 row found)).elim
  · rintro position ⟨entry, found, claimed⟩
    rcases getElem?_concat_some found with old | ⟨last, equal⟩
    · rcases separated.sinceLast position ⟨entry, old, claimed⟩ with
        ⟨later, after, returned⟩ | ⟨row, stored, busy⟩
      · exact Or.inl ⟨later, after, kept returned⟩
      · rw [stored] at turn
        rcases turn.of_busy busy with returned | stays
        · refine Or.inl ⟨history.length, ?_, commit, ?_, returned⟩
          · exact (List.getElem?_eq_some_iff.mp old).1
          · simp
        · exact Or.inr stays
    · subst entry
      exact Or.inr (turn.of_claimed claimed).2

end Histories

/-! ## Every schedule -/

section Schedules

variable {platform : Platform} {schedule : List StoreLabel}
    {config : StoreConfig}

/-- The claims of every part of the history count from one. -/
theorem interleave_counted
    (followed : interleave platform .empty schedule = some config)
    (id : TaskId) {earlier : List StoreCommit}
    (part : earlier <+: config.history) :
    claimsSinceRetry id earlier =
      List.range' 1 (claimsSinceRetry id earlier).length := by
  let Holds : List StoreCommit → Database → Prop := fun history db =>
    Counted id history db ∧
      ∀ earlier, earlier <+: history →
        claimsSinceRetry id earlier =
          List.range' 1 (claimsSinceRetry id earlier).length
  have kept :
      ∀ history current (commit : StoreCommit),
        Holds history current →
          Lawful platform current commit.call commit.writes →
            Holds (history ++ [commit])
              ((postgres platform).applyAll commit.writes current) := by
    rintro history current commit ⟨counted, parts⟩ lawful
    have next := counted.concat lawful
    refine ⟨next, ?_⟩
    intro earlier isPart
    rcases List.prefix_concat_iff.mp isPart with whole | shorter
    · rw [whole, next]
      simp
    · exact parts earlier shorter
  have start : Holds [] .empty := by
    refine ⟨rfl, ?_⟩
    intro earlier isPart
    rw [List.prefix_nil.mp isPart]
    rfl
  exact (interleave_history kept followed start).2 earlier part

theorem interleave_separated
    (followed : interleave platform .empty schedule = some config)
    (id : TaskId) :
    Separated id config.history config.db := by
  have start : Separated id [] .empty := by
    constructor
    · rintro first second _ ⟨commit, found, _⟩
      cases found
    · rintro position ⟨commit, found, _⟩
      cases found
  exact interleave_history
    (fun _ _ _ separated lawful => separated.concat lawful) followed
    start

/-- A finished `Claim` returned the row of its only commit, or failed. -/
theorem claim_session_cases
    {db : Database} (ok : (contract platform).ConfigOk db config)
    {index : Nat} {workerID : GoString} {result : Response}
    {session : StoreSession}
    (found : config.sessions[index]? = some session)
    (called : session.call = .claim workerID)
    (finished : session.program = some (.done result)) :
    (∃ commit task,
      result = .task (.ok task) ∧
        config.history.filter (fun entry => entry.session = index) =
          [commit] ∧
        (claimedAttempts task.id commit).map Int.ofNat = some task.attempts) ∨
      (result.failed = true ∧
        config.history.filter (fun entry => entry.session = index) = []) := by
  have promised := ok.ensures found finished
  have recorded := ok.history_of found
  rw [called] at promised recorded
  rcases promised with
    ⟨move, committed, _, _, returned⟩ | ⟨silent, declined⟩
  · rw [committed] at recorded
    refine Or.inl ⟨_, _, returned, recorded, ?_⟩
    have wrote : written move.row.id (writesOf [move]) = some move.after :=
      written_writesOf (by simp) (by simp)
    simp [claimedAttempts, scanClaimed, wrote]
  · rw [silent] at recorded
    exact Or.inr ⟨declined.1, recorded⟩

/--
Under every schedule of the round trips of any number of calls: the claims of
a task since a manual retry return 1, 2, 3, …; between two claims of a task a
commit returned it to `PENDING`; a claim that returned a task has committed
once and returned the value it committed, and one that failed has committed
nothing; and a step that commits nothing leaves the database as it is.
-/
theorem claims_exclusive_under_interleaving
    (followed : interleave platform .empty schedule = some config)
    (id : TaskId) :
    (∀ earlier, earlier <+: config.history →
      claimsSinceRetry id earlier =
        List.range' 1 (claimsSinceRetry id earlier).length) ∧
      (∀ first second, first < second →
        ClaimedAt id config.history first →
          ClaimedAt id config.history second →
            ∃ middle, first < middle ∧ middle < second ∧
              ReturnedAt id config.history middle) ∧
      (∀ (index : Nat) (session : StoreSession) (workerID : GoString)
        (result : Response),
        config.sessions[index]? = some session →
          session.call = .claim workerID →
            session.program = some (.done result) →
              (∃ commit task,
                result = .task (.ok task) ∧
                  config.history.filter
                      (fun entry => entry.session = index) =
                    [commit] ∧
                  (claimedAttempts task.id commit).map Int.ofNat =
                    some task.attempts) ∨
                (result.failed = true ∧
                  config.history.filter
                    (fun entry => entry.session = index) = [])) ∧
      ∀ (label : StoreLabel) (next : StoreConfig),
        (postgres platform).step (Call.program platform) config label =
            some next →
          next.history = config.history → next.db = config.db := by
  have ok := interleave_ok followed
  refine ⟨?_, ?_, ?_, ?_⟩
  · intro earlier part
    exact interleave_counted followed id part
  · exact (interleave_separated followed id).between
  · intro index session workerID result found called finished
    exact claim_session_cases ok found called finished
  · intro label next stepped silent
    rcases ok.step_cases stepped with
      ⟨same, _⟩ | ⟨commit, _, _, recorded, _⟩
    · exact same
    · rw [silent] at recorded
      simp at recorded

/-- Two workers contend for one task. -/
def contendedSchedule : List StoreLabel :=
  [.spawn (.create (emailTask [])), .spawn (.claim (ascii "v")),
    .spawn (.claim (ascii "w"))] ++
    [0, 0, 0, 0, 1, 2, 1, 2, 1, 1, 1].map fun index =>
      .advance index (calm 7 0 0)

theorem contendedSchedule_claims :
    ∃ config,
      interleave echoPlatform .empty contendedSchedule = some config ∧
        (claimsSinceRetry 7 config.history).length = 1 ∧
        claimsSinceRetry 7 config.history = List.range' 1 1 := by
  have claimed :
      (interleave echoPlatform .empty contendedSchedule).map
          (fun config =>
            (claimsSinceRetry 7 config.history).length) =
        some 1 := by
    decide +kernel
  rcases Option.map_eq_some_iff.mp claimed with
    ⟨config, followed, once⟩
  have counted :=
    (claims_exclusive_under_interleaving followed 7).1
      config.history List.prefix_rfl
  rw [once] at counted
  exact ⟨config, followed, once, counted⟩

end Schedules

end Dhara.Store
