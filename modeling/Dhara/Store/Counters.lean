import Dhara.Store.Invariants
import Dhara.Transaction.Counters

/-!
# The counters of a worker process

The store moves process counters after its commits.  This module compares
them with what the process has committed: the transitions of its workers and
its reaper, and the rows it inserted into `dead_letters`.

A task that the reaper finds exhausted gets its dead letter without any move
of `TasksDeadTotal`.  The counters therefore agree with the commits exactly
as long as every task the reaper takes has attempts left.
-/

namespace Dhara.Store

open Dhara.Transaction

variable {db : Database} {moves : List Move} {call : Call} {result : Response}
  {change : Change}

/-! ## What a commit changes -/

/-- The rows of `tasks` that a commit updates. -/
def updated (writes : List Write) : Nat :=
  writes.countP fun
    | .updateTask _ => true
    | _ => false

/-- The rows that a commit inserts into `dead_letters`. -/
def lettersInserted (writes : List Write) : Nat :=
  writes.countP fun
    | .insertDeadLetter _ => true
    | _ => false

/-- The tasks that a commit takes from one status to another. -/
def moved (source target : TaskStatus) (db : Database)
    (writes : List Write) : Nat :=
  writes.countP fun
    | .updateTask row =>
        row.status == target &&
          (db.find row.id).any fun old => old.status == source
    | _ => false

/-- The call is a run of the reaper. -/
def Call.reaps : Call → Bool
  | .requeueStaleRunning _ _ => true
  | _ => false

section Process

variable (platform : Platform) (mine : Nat → Bool)

/--
A sum over the commits of a process, each measured in the state it was made
in.
-/
def committed (measure : Database → StoreCommit → Nat)
    (start : Database) (history : List StoreCommit) : Nat :=
  (((postgres platform).replay start history).map fun entry =>
    if mine entry.2.session then measure entry.1 entry.2 else 0).sum

/-- The tasks that a commit of a worker takes between two statuses. -/
def movedByWorker (source target : TaskStatus) (db : Database)
    (commit : StoreCommit) : Nat :=
  if commit.call.reaps then 0 else moved source target db commit.writes

/-- The tasks that a commit of a reaper takes between two statuses. -/
def movedByReaper (source target : TaskStatus) (db : Database)
    (commit : StoreCommit) : Nat :=
  if commit.call.reaps then moved source target db commit.writes else 0

/-- The counters of the process agree with what it has committed. -/
structure Reconciled (start : Database) (config : StoreConfig) :
    Prop where
  completed :
    config.counted mine .tasksCompletedTotal =
      committed platform mine
        (fun db commit => moved .running .completed db commit.writes)
        start config.history
  retried :
    config.counted mine .tasksRetriedTotal =
      committed platform mine (movedByWorker .running .pending) start
        config.history
  dead :
    config.counted mine .tasksDeadTotal =
      committed platform mine
        (fun _ commit => lettersInserted commit.writes) start
        config.history
  reaped :
    config.counted mine .tasksReapedTotal =
      committed platform mine (movedByReaper .running .pending) start
          config.history +
        committed platform mine (movedByReaper .running .dead) start
          config.history
  failures :
    config.counted mine .taskAttemptFailuresTotal =
      config.counted mine .tasksRetriedTotal +
        committed platform mine (movedByWorker .running .dead) start
          config.history

/-- Every task the reaper of the process takes has attempts left. -/
def ReapsRetryable (start : Database) (history : List StoreCommit) :
    Prop :=
  ∀ entry ∈ (postgres platform).replay start history,
    mine entry.2.session = true → entry.2.call.reaps = true →
      ∀ row, entry.1.find row.id = some row →
        (written row.id entry.2.writes).isSome = true →
          (row.attempts : Int) < row.maxRetries

end Process

/-! ## Measures of moves -/

theorem countP_map_false {Entry Image : Type} (f : Entry → Image)
    (test : Image → Bool) (entries : List Entry)
    (fails : ∀ entry ∈ entries, test (f entry) = false) :
    (entries.map f).countP test = 0 := by
  rw [List.countP_eq_zero]
  intro image member
  rcases List.mem_map.mp member with ⟨entry, occurs, equal⟩
  subst image
  simp [fails entry occurs]

theorem Move.letterWrites_kind (move : Move) :
    ∀ write ∈ move.letterWrites,
      (∃ letter, write = .insertDeadLetter letter) ∨
        ∃ id, write = .deleteDeadLetters id := by
  intro write member
  unfold Move.letterWrites Change.letterWrites at member
  split at member
  · exact Or.inl ⟨_, List.mem_singleton.mp member⟩
  · exact Or.inl ⟨_, List.mem_singleton.mp member⟩
  · exact Or.inr ⟨_, List.mem_singleton.mp member⟩
  · cases member

/-- Only the updates of a transaction of moves pass a test on updates. -/
theorem countP_writesOf
    {test : Write → Bool}
    (onLetter : ∀ letter, test (.insertDeadLetter letter) = false)
    (onDelete : ∀ id, test (.deleteDeadLetters id) = false)
    (onLog : ∀ log, test (.insertLog log) = false)
    (moves : List Move) :
    (writesOf moves).countP test =
      moves.countP fun move => test (.updateTask move.after) := by
  have letters : (moves.flatMap Move.letterWrites).countP test = 0 := by
    rw [List.countP_eq_zero]
    intro write member
    rcases List.mem_flatMap.mp member with ⟨move, _, inside⟩
    rcases move.letterWrites_kind write inside with
      ⟨letter, equal⟩ | ⟨id, equal⟩
    · simp [equal, onLetter]
    · simp [equal, onDelete]
  have logs :
      (moves.map fun move => Write.insertLog move.log).countP test =
        0 :=
    countP_map_false _ _ _ fun move _ => onLog move.log
  rw [writesOf, List.countP_append, List.countP_append, letters, logs,
    List.countP_map]
  rfl

@[simp]
theorem updated_writesOf (moves : List Move) :
    updated (writesOf moves) = moves.length := by
  rw [updated, countP_writesOf (fun _ => rfl) (fun _ => rfl) fun _ => rfl]
  simp

theorem moved_writesOf
    {source target : TaskStatus} (legal : ∀ move ∈ moves, move.Legal db) :
    moved source target db (writesOf moves) =
      moves.countP fun move =>
        move.after.status == target && move.row.status == source := by
  rw [moved, countP_writesOf (fun _ => rfl) (fun _ => rfl) fun _ => rfl]
  apply List.countP_congr
  intro move member
  simp [(legal move member).found]

/-- The change inserts a dead letter. -/
def Change.buries : Change → Bool
  | .markDead _ _ => true
  | .toDead => true
  | _ => false

theorem lettersInserted_writesOf (moves : List Move) :
    lettersInserted (writesOf moves) =
      moves.countP fun move => move.change.buries := by
  have updates :
      lettersInserted
          (moves.map fun move => Write.updateTask move.after) = 0 :=
    countP_map_false _ _ _ fun _ _ => rfl
  have logs :
      lettersInserted (moves.map fun move => Write.insertLog move.log) = 0 :=
    countP_map_false _ _ _ fun _ _ => rfl
  have letters :
      lettersInserted (moves.flatMap Move.letterWrites) =
        moves.countP fun move => move.change.buries := by
    clear updates logs
    induction moves with
    | nil => rfl
    | cons move rest induction =>
        rw [lettersInserted, List.flatMap_cons, List.countP_append,
          List.countP_cons, ← lettersInserted, ← lettersInserted,
          induction, Nat.add_comm]
        congr 1
        unfold Move.letterWrites Change.letterWrites
        cases move.change <;> rfl
  rw [lettersInserted, writesOf, List.countP_append, List.countP_append,
    ← lettersInserted, ← lettersInserted, ← lettersInserted, updates,
    logs, letters]
  simp

/-! ## What a commit is worth -/

/-- The counters a commit of the call moves. -/
def Call.bumps : Call → List Counter
  | .markCompleted _ _ _ => [.tasksCompletedTotal]
  | .markPending _ _ _ _ => [.taskAttemptFailuresTotal, .tasksRetriedTotal]
  | .markDead _ _ _ _ => [.taskAttemptFailuresTotal, .tasksDeadTotal]
  | .requeueStaleRunning _ _ => [.tasksReapedTotal]
  | _ => []

/-- How far a commit of the call moves a counter. -/
def Call.worth (counter : Counter) (call : Call)
    (writes : List Write) : Nat :=
  if counter ∈ call.bumps then updated writes else 0

/-- The statuses between which a change moves a task. -/
def Change.ends : Change → TaskStatus × TaskStatus
  | .cancel => (.pending, .canceled)
  | .claim _ => (.pending, .running)
  | .heartbeat _ => (.running, .running)
  | .markCompleted _ => (.running, .completed)
  | .markPending _ _ _ => (.running, .pending)
  | .markDead _ _ => (.running, .dead)
  | .retryDead => (.dead, .pending)
  | .toDead => (.running, .dead)
  | .toPending => (.running, .pending)

theorem Change.Enabled.ends
    {now : Time} {row : TaskRecord} (enabled : change.Enabled now row) :
    change.ends = (row.status, (change.set now row).status) := by
  cases change with
  | heartbeat workerID => exact enabled.elim
  | cancel =>
      rw [show row.status = .pending from enabled]
      rfl
  | claim workerID =>
      rw [due_pending enabled]
      rfl
  | markCompleted workerID | markPending workerID lastError runAt
    | markDead workerID lastError =>
      rw [ownedBy_running enabled]
      rfl
  | retryDead =>
      rw [show row.status = .dead from enabled]
      rfl
  | toDead | toPending =>
      rw [enabled.1]
      rfl

/-- The moves of one transaction, all made by the call. -/
structure MadeBy (call : Call) (db : Database) (moves : List Move) :
    Prop where
  legal : ∀ move ∈ moves, move.Legal db
  makes : ∀ move ∈ moves, call.makes move.change = true

theorem MadeBy.singleton
    {move : Move} (legal : move.Legal db) (performs : call.Performs move) :
    MadeBy call db [move] := by
  constructor
  · intro other member
    rw [List.mem_singleton.mp member]
    exact legal
  · intro other member
    rw [List.mem_singleton.mp member]
    exact performs.makes

theorem MadeBy.moved_eq
    (made : MadeBy call db moves) (source target : TaskStatus) :
    moved source target db (writesOf moves) =
      moves.countP fun move => move.change.ends == (source, target) := by
  rw [moved_writesOf made.legal]
  apply List.countP_congr
  intro move member
  rw [(made.legal move member).enabled.ends]
  simp [Move.after, and_comm]

/-- A test with the same outcome for every move. -/
theorem countP_constant {Entry : Type} {test : Entry → Bool}
    {entries : List Entry} (outcome : Bool)
    (constant : ∀ entry ∈ entries, test entry = outcome) :
    entries.countP test = if outcome then entries.length else 0 := by
  cases outcome with
  | true =>
      rw [if_pos rfl, List.countP_eq_length]
      exact constant
  | false =>
      rw [if_neg (by simp), List.countP_eq_zero]
      intro entry member
      simp [constant entry member]

/-- A commit is that of moves of the call, or it changes no status. -/
theorem Lawful.made
    {platform : Platform} {writes : List Write}
    (lawful : Lawful platform db call writes) :
    (∃ moves, writes = writesOf moves ∧ MadeBy call db moves) ∨
      (lettersInserted writes = 0 ∧
        (∀ counter, call.worth counter writes = 0) ∧
        ∀ source target, source ≠ target →
          moved source target db writes = 0) := by
  cases lawful with
  | enqueue call rows =>
      have letters : lettersInserted (rows.map .insertTask) = 0 :=
        countP_map_false _ _ _ fun _ _ => rfl
      have updates : updated (rows.map .insertTask) = 0 :=
        countP_map_false _ _ _ fun _ _ => rfl
      refine Or.inr ⟨letters, ?_, ?_⟩
      · intro counter
        simp [Call.worth, updates]
      · intro source target _
        exact countP_map_false _ _ _ fun _ _ => rfl
  | beat taskID workerID row now found owned =>
      have running := ownedBy_running owned
      have same := Database.find_id found
      refine Or.inr ⟨rfl, ?_, ?_⟩
      · intro counter
        simp [Call.worth, Call.bumps]
      · intro source target apart
        rw [moved, List.countP_eq_zero]
        intro write member
        rw [List.mem_singleton.mp member]
        simp only [Change.set, same, found, running, Option.any_some,
          Bool.and_eq_true, beq_iff_eq, not_and]
        exact fun left right => apart (right.symm.trans left)
  | move call move legal performs =>
      exact Or.inl ⟨[move], rfl, MadeBy.singleton legal performs⟩
  | reap threshold reaperID moves distinct legal performs =>
      exact Or.inl ⟨moves, rfl, legal, fun move member =>
        (performs move member).makes⟩

/-- What the counters of a worker's or client's call say about its moves. -/
structure Call.Bookkeeping (call : Call) (change : Change) : Prop where
  completes :
    (change.ends == (.running, .completed)) =
      decide (.tasksCompletedTotal ∈ call.bumps)
  retries :
    (change.ends == (.running, .pending)) =
      decide (.tasksRetriedTotal ∈ call.bumps)
  kills :
    (change.ends == (.running, .dead)) = decide (.tasksDeadTotal ∈ call.bumps)
  buries : change.buries = decide (.tasksDeadTotal ∈ call.bumps)

theorem Call.bookkeeping
    (works : call.reaps = false)
    (makes : call.makes change = true) : call.Bookkeeping change := by
  cases call <;> cases change <;>
    first
    | (cases makes; done)
    | (cases works; done)
    | constructor <;> rfl

theorem Call.reaps_iff :
    call.reaps = true ↔ call.bumps = [.tasksReapedTotal] := by
  cases call <;> simp [Call.reaps, Call.bumps]

/-- A reaper either requeues a task or buries it. -/
theorem Call.reaps_ends
    (reaps : call.reaps = true) (makes : call.makes change = true) :
    (change.ends == (.running, .dead)) = change.buries ∧
      (change.ends == (.running, .pending)) = !change.buries ∧
      (change.ends == (.running, .completed)) = false := by
  cases call <;> cases change <;>
    first
    | (cases makes; done)
    | (cases reaps; done)
    | exact ⟨rfl, rfl, rfl⟩

section Worth

variable
    {platform : Platform} {db : Database} {call : Call}
    {writes : List Write}

theorem MadeBy.bookkeeping
    (made : MadeBy call db moves) (works : call.reaps = false) :
    ∀ move ∈ moves, call.Bookkeeping move.change :=
  fun move member => Call.bookkeeping works (made.makes move member)

theorem MadeBy.reaps_ends
    (made : MadeBy call db moves) (reaps : call.reaps = true) :
    ∀ move ∈ moves,
      (move.change.ends == (.running, .dead)) = move.change.buries ∧
        (move.change.ends == (.running, .pending)) = !move.change.buries ∧
        (move.change.ends == (.running, .completed)) = false :=
  fun move member => Call.reaps_ends reaps (made.makes move member)

theorem worth_writesOf (counter : Counter) (moves : List Move) :
    call.worth counter (writesOf moves) =
      if decide (counter ∈ call.bumps) then moves.length else 0 := by
  simp [Call.worth]

variable (lawful : Lawful platform db call writes)

include lawful

theorem Lawful.worth_completed :
    moved .running .completed db writes =
      call.worth .tasksCompletedTotal writes := by
  rcases lawful.made with ⟨moves, equal, made⟩ | ⟨_, worthless, unmoved⟩
  · subst writes
    rw [made.moved_eq, worth_writesOf]
    cases reaps : call.reaps with
    | true =>
        rw [Call.reaps_iff.mp reaps]
        exact countP_constant false fun move member =>
          (made.reaps_ends reaps move member).2.2
    | false =>
        exact countP_constant _ fun move member =>
          (made.bookkeeping reaps move member).completes
  · rw [worthless, unmoved _ _ (by decide)]

theorem Lawful.worth_retried :
    (if call.reaps then 0 else moved .running .pending db writes) =
      call.worth .tasksRetriedTotal writes := by
  rcases lawful.made with ⟨moves, equal, made⟩ | ⟨_, worthless, unmoved⟩
  · subst writes
    rw [made.moved_eq, worth_writesOf]
    cases reaps : call.reaps with
    | true =>
        rw [Call.reaps_iff.mp reaps]
        rfl
    | false =>
        exact countP_constant _ fun move member =>
          (made.bookkeeping reaps move member).retries
  · rw [worthless, unmoved _ _ (by decide), ite_self]

/-- The reaper's dead letters are not counted. -/
theorem Lawful.worth_dead :
    lettersInserted writes =
      call.worth .tasksDeadTotal writes +
        if call.reaps then moved .running .dead db writes else 0 := by
  rcases lawful.made with
    ⟨moves, equal, made⟩ | ⟨letters, worthless, unmoved⟩
  · subst writes
    rw [lettersInserted_writesOf, made.moved_eq, worth_writesOf]
    cases reaps : call.reaps with
    | true =>
        rw [Call.reaps_iff.mp reaps]
        change _ = 0 + _
        rw [Nat.zero_add]
        apply List.countP_congr
        intro move member
        rw [(made.reaps_ends reaps move member).1]
    | false =>
        exact countP_constant _ fun move member =>
          (made.bookkeeping reaps move member).buries
  · rw [letters, worthless, unmoved _ _ (by decide), ite_self]

theorem Lawful.worth_reaped :
    (if call.reaps then moved .running .pending db writes else 0) +
        (if call.reaps then moved .running .dead db writes else 0) =
      call.worth .tasksReapedTotal writes := by
  rcases lawful.made with ⟨moves, equal, made⟩ | ⟨_, worthless, unmoved⟩
  · subst writes
    rw [made.moved_eq, made.moved_eq, worth_writesOf]
    cases reaps : call.reaps with
    | true =>
        have pending :
            (moves.countP fun move =>
                move.change.ends == (.running, .pending)) =
              moves.countP fun move => !move.change.buries := by
          apply List.countP_congr
          intro move member
          rw [(made.reaps_ends reaps move member).2.1]
        have dead :
            (moves.countP fun move =>
                move.change.ends == (.running, .dead)) =
              moves.countP fun move => move.change.buries := by
          apply List.countP_congr
          intro move member
          rw [(made.reaps_ends reaps move member).1]
        rw [Call.reaps_iff.mp reaps, pending, dead, Nat.add_comm]
        have whole :=
          List.length_eq_countP_add_countP
            (fun move : Move => move.change.buries) (l := moves)
        simpa using whole.symm
    | false =>
        have unworthy : Counter.tasksReapedTotal ∉ call.bumps := by
          cases call <;> simp [Call.bumps, Call.reaps] at reaps ⊢
        simp [unworthy]
  · rw [worthless, unmoved _ _ (by decide), unmoved _ _ (by decide),
      ite_self]

theorem Lawful.worth_failures :
    call.worth .taskAttemptFailuresTotal writes =
      call.worth .tasksRetriedTotal writes +
        if call.reaps then 0 else moved .running .dead db writes := by
  rcases lawful.made with ⟨moves, equal, made⟩ | ⟨_, worthless, unmoved⟩
  · subst writes
    cases reaps : call.reaps with
    | true =>
        rw [worth_writesOf, worth_writesOf, Call.reaps_iff.mp reaps]
        rfl
    | false =>
        rw [if_neg (by simp), made.moved_eq,
          countP_constant _ fun move member =>
            (made.bookkeeping reaps move member).kills,
          worth_writesOf, worth_writesOf]
        cases call <;> simp [Call.bumps]
  · rw [worthless, worthless, unmoved _ _ (by decide), ite_self]

end Worth

/-! ## What the programs count -/

/-- The counters of a worker process. -/
def Counter.ofWorker : Counter → Bool
  | .tasksEnqueuedTotal => false
  | .tasksCanceledTotal => false
  | _ => true

/-- What a call has counted when it returns. -/
def Call.tally (call : Call) : Response → List (Counter × Nat)
  | .count (.ok amount) => call.bumps.map fun counter => (counter, amount)
  | .unit (.ok ()) => call.bumps.map fun counter => (counter, 1)
  | _ => []

/-- The counters of a worker process stand as the result says. -/
def Call.Tells (call : Call) (result : Response)
    (counts : List (Counter × Nat)) : Prop :=
  ∀ counter : Counter, counter.ofWorker = true →
    total counter counts = total counter (call.tally result)

section Reports

variable
    {Result : Type} {Says : Result → List (Counter × Nat) → Prop}
    {counts : List (Counter × Nat)} {fail : StoreError → Result}
    {next : StoreProgram Result}

theorem reports_openTx
    (failed : ∀ error, Says (fail error) counts)
    (rest : next.Reports Says counts) :
    (openTx fail next).Reports Says counts := by
  intro reply
  cases reply with
  | error fault => exact failed _
  | ok sent => exact rest

theorem reports_sendTx
    (stmt : Stmt) (context : String)
    (failed : ∀ error, Says (fail error) counts)
    (rest : next.Reports Says counts) :
    (sendTx fail stmt context next).Reports Says counts := by
  intro reply
  cases reply with
  | error fault => exact failed _
  | ok sent => exact rest

theorem reports_commitTx
    (context : String)
    (failed : ∀ error, Says (fail error) counts)
    (rest : next.Reports Says counts) :
    (commitTx fail context next).Reports Says counts := by
  intro reply
  cases reply with
  | error fault => exact failed _
  | ok sent => exact rest

theorem reports_getById
    (id : TaskId) {after : Option TaskRow → StoreProgram Result}
    (failed : ∀ error, Says (fail error) counts)
    (rest : ∀ found, (after found).Reports Says counts) :
    (getById fail id after).Reports Says counts := by
  intro reply
  cases reply with
  | error fault => exact failed _
  | ok found =>
      cases found with
      | none => exact rest none
      | some row => exact rest (some (scanTask row))

/-- Only the counter of enqueued tasks may have moved. -/
def Idle (counts : List (Counter × Nat)) : Prop :=
  ∀ counter : Counter, counter.ofWorker = true → total counter counts = 0

theorem idle_nil : Idle [] :=
  fun _ _ => rfl

theorem Idle.enqueued (idle : Idle counts) :
    Idle (counts ++ [(.tasksEnqueuedTotal, 1)]) := by
  intro counter worker
  have other : Counter.tasksEnqueuedTotal ≠ counter := by
    intro same
    subst counter
    cases worker
  simp [idle counter worker, other]

theorem reports_insertTask
    (platform : Platform) (task : TaskRow) (idle : Idle counts)
    {after : TaskRow → Except StoreError Bool → StoreProgram Result}
    (rest :
      ∀ task result counts, Idle counts →
        (after task result).Reports Says counts) :
    (insertTask platform task after).Reports Says counts := by
  unfold insertTask
  split
  · exact rest _ _ _ idle
  · intro reply
    cases reply with
    | error fault => exact rest _ _ _ idle.enqueued
    | ok inserted =>
        cases inserted with
        | some row => exact rest _ _ _ idle.enqueued
        | none =>
            change (replayTask _ _ _).Reports Says counts
            unfold replayTask
            split
            · exact rest _ _ _ idle
            · intro reply
              cases reply with
              | error fault => exact rest _ _ _ idle
              | ok existing =>
                  cases existing with
                  | none => exact rest _ _ _ idle
                  | some row =>
                      change Program.Reports Says counts (if _ then _ else _)
                      split_ifs
                      · exact rest _ _ _ idle
                      · exact rest _ _ _ idle

theorem reports_createEach
    (platform : Platform) (tasks : List TaskRow)
    (results : List (TaskRow × Except StoreError Bool))
    (idle : Idle counts)
    {after : List (TaskRow × Except StoreError Bool) → StoreProgram Result}
    (rest :
      ∀ results counts, Idle counts → (after results).Reports Says counts) :
    (createEach platform tasks results after).Reports Says counts := by
  induction tasks generalizing results counts with
  | nil => exact rest _ _ idle
  | cons task tasks induction =>
      rw [createEach, createTx]
      exact reports_insertTask platform task idle
        fun _ _ _ idle => induction _ idle

end Reports

/-! ### Methods that move no counter of a worker -/

section Silent

variable {platform : Platform}

/-- The program moves no counter of a worker process. -/
abbrev Silent (program : StoreProgram Response) : Prop :=
  program.Reports (fun _ => Idle) []

theorem silent_create (task : TaskRow) :
    Silent (Store.create platform task) := by
  apply reports_openTx fun _ => idle_nil
  apply reports_insertTask platform task idle_nil
  intro task result counts idle
  cases result with
  | error error => exact idle
  | ok created => exact reports_commitTx _ (fun _ => idle) idle

theorem silent_callerTx (tasks : List TaskRow)
    (commits : List (TaskRow × Except StoreError Bool) → Bool) :
    Silent (Store.callerTx platform tasks commits) := by
  apply reports_openTx fun _ => idle_nil
  apply reports_createEach platform tasks [] idle_nil
  intro results counts idle
  split_ifs
  · exact reports_commitTx _ (fun _ => idle) idle
  · exact idle

theorem silent_cancel (id : TaskId) : Silent (Store.cancel id) := by
  apply reports_openTx fun _ => idle_nil
  intro reply
  cases reply with
  | error fault => exact idle_nil
  | ok updated =>
      cases updated with
      | none =>
          apply reports_getById id fun _ => idle_nil
          intro found
          cases found <;> exact idle_nil
      | some row =>
          apply reports_sendTx _ _ fun _ => idle_nil
          apply reports_commitTx _ fun _ => idle_nil
          intro counter worker
          cases counter <;> first | rfl | cases worker

theorem silent_claim (workerID : GoString) :
    Silent (Store.claim workerID) := by
  apply reports_openTx fun _ => idle_nil
  intro reply
  cases reply with
  | error fault => exact idle_nil
  | ok due =>
      cases due with
      | none => exact idle_nil
      | some id =>
          intro reply
          cases reply with
          | error fault => exact idle_nil
          | ok updated =>
              cases updated with
              | none => exact idle_nil
              | some row =>
                  exact reports_sendTx _ _ (fun _ => idle_nil)
                    (reports_commitTx _ (fun _ => idle_nil) idle_nil)

theorem silent_heartbeat (taskID : TaskId) (workerID : GoString) :
    Silent (Store.heartbeat taskID workerID) := by
  intro reply
  cases reply with
  | error fault => exact idle_nil
  | ok updated => cases updated <;> exact idle_nil

theorem silent_retryDead (taskID : TaskId) :
    Silent (Store.retryDead taskID) := by
  apply reports_openTx fun _ => idle_nil
  intro reply
  cases reply with
  | error fault => exact idle_nil
  | ok updated =>
      cases updated with
      | none =>
          apply reports_getById taskID fun _ => idle_nil
          intro found
          cases found <;> exact idle_nil
      | some row =>
          apply reports_sendTx _ _ fun _ => idle_nil
          apply reports_sendTx _ _ fun _ => idle_nil
          exact reports_commitTx _ (fun _ => idle_nil) idle_nil

end Silent

/-! ### Methods that do -/

section Programs

variable {call : Call} {next : StoreProgram Response}

theorem tells_failed (failed : result.failed = true) :
    call.Tells result [] := by
  intro counter _
  cases result with
  | unit outcome | count outcome =>
      cases outcome with
      | error error => rfl
      | ok value => cases failed
  | _ => rfl

theorem reports_updateOwned
    (taskID : TaskId) (update : Update) (context : String)
    (rest : next.Reports call.Tells []) :
    (updateOwned taskID update context next).Reports call.Tells [] := by
  have failed : ∀ error, call.Tells (failUnit error) [] :=
    fun _ => tells_failed rfl
  apply reports_openTx failed
  intro reply
  cases reply with
  | error fault => exact failed _
  | ok updated =>
      cases updated with
      | none => exact failed _
      | some row => exact rest

theorem reports_scanReaped
    (rest : next.Reports call.Tells []) (reaped : List ReapedTask) :
    (scanReaped next reaped).Reports call.Tells [] := by
  induction reaped with
  | nil =>
      intro reply
      cases reply with
      | error fault => exact tells_failed rfl
      | ok sent => exact rest
  | cons task reaped induction =>
      intro reply
      cases reply with
      | error fault => exact tells_failed rfl
      | ok sent => exact induction

theorem reports_logReaped
    (reaperID : GoString) (rest : next.Reports call.Tells [])
    (reaped : List ReapedTask) :
    (logReaped reaperID next reaped).Reports call.Tells [] := by
  induction reaped with
  | nil => exact rest
  | cons task reaped induction =>
      exact reports_sendTx _ _ (fun _ => tells_failed rfl) induction

theorem reports_requeueStaleRunning
    (threshold : Time) (reaperID : GoString)
    (counts :
      ∀ amount,
        call.Tells (.count (.ok amount)) [(.tasksReapedTotal, amount)]) :
    (Store.requeueStaleRunning threshold reaperID).Reports call.Tells [] := by
  have failed : ∀ error, call.Tells (failCount error) [] :=
    fun _ => tells_failed rfl
  apply reports_openTx failed
  intro reply
  cases reply with
  | error fault => exact failed _
  | ok reaped =>
      apply reports_scanReaped
      apply reports_logReaped
      exact reports_commitTx _ failed (counts reaped.length)

theorem Silent.reports
    {program : StoreProgram Response} (silent : Silent program)
    (nothing : call.bumps = []) : program.Reports call.Tells [] := by
  apply silent.mono
  intro result counts idle counter worker
  rw [idle counter worker, Call.tally.eq_def, nothing]
  split <;> rfl

/-- Every method counts what its result says. -/
theorem Call.program_reports (platform : Platform) (call : Call) :
    (call.program platform).Reports call.Tells [] := by
  have failed : ∀ error, call.Tells (failUnit error) [] :=
    fun _ => tells_failed rfl
  cases call with
  | create task => exact (silent_create task).reports rfl
  | callerTx tasks commits =>
      exact (silent_callerTx tasks commits).reports rfl
  | cancel id => exact (silent_cancel id).reports rfl
  | claim workerID => exact (silent_claim workerID).reports rfl
  | heartbeat taskID workerID =>
      exact (silent_heartbeat taskID workerID).reports rfl
  | markCompleted taskID workerID durationMs =>
      exact reports_updateOwned _ _ _
        (reports_sendTx _ _ failed (reports_commitTx _ failed fun _ _ => rfl))
  | markPending task workerID lastError nextRunAt =>
      exact reports_updateOwned _ _ _
        (reports_sendTx _ _ failed (reports_commitTx _ failed fun _ _ => rfl))
  | markDead taskID workerID lastError reason =>
      exact reports_updateOwned _ _ _
        (reports_sendTx _ _ failed
          (reports_sendTx _ _ failed
            (reports_commitTx _ failed fun _ _ => rfl)))
  | retryDead taskID => exact (silent_retryDead taskID).reports rfl
  | requeueStaleRunning threshold reaperID =>
      exact reports_requeueStaleRunning _ _ fun _ _ _ => rfl

end Programs

/-! ## Reconciliation -/

theorem total_bumps
    (counter : Counter) (call : Call) (amount : Nat) :
    total counter (call.bumps.map fun bumped => (bumped, amount)) =
      if counter ∈ call.bumps then amount else 0 := by
  cases call <;> cases counter <;> simp [Call.bumps]

theorem tally_failed (call : Call)
    (failed : result.failed = true) : call.tally result = [] := by
  cases result with
  | unit outcome | count outcome =>
      cases outcome with
      | error error => rfl
      | ok value => cases failed
  | _ => rfl

/-- A finished call has counted what its commits are worth. -/
theorem Ensured.tally
    {platform : Platform} {commits : List (List Write)} {faulted : Bool}
    (ensured : Ensured platform False call commits faulted result db)
    (counter : Counter) :
    total counter (call.tally result) =
      (commits.map (call.worth counter)).sum := by
  have silent :
      call.bumps = [] →
        total counter (call.tally result) =
          (commits.map (call.worth counter)).sum := by
    intro nothing
    have worthless : call.worth counter = fun _ => 0 := by
      funext writes
      simp [Call.worth, nothing]
    rw [worthless, Call.tally.eq_def, nothing]
    split <;> simp
  have declined :
      commits = [] → result.failed = true →
        total counter (call.tally result) =
          (commits.map (call.worth counter)).sum := by
    intro nothing failed
    rw [nothing, tally_failed call failed]
    rfl
  have performed :
      ∀ move, commits = [writesOf [move]] → result = .unit (.ok ()) →
        total counter (call.tally result) =
          (commits.map (call.worth counter)).sum := by
    intro move committed returned
    rw [committed, returned, Call.tally, total_bumps]
    simp [Call.worth]
  cases call with
  | markCompleted | markPending | markDead =>
      rcases ensured with
        ⟨move, committed, _, _, returned⟩ | ⟨nothing, failed, _⟩
      · exact performed move committed returned
      · exact declined nothing failed
  | requeueStaleRunning threshold reaperID =>
      rcases ensured with
        ⟨moves, committed, _, _, returned⟩ | ⟨nothing, failed⟩
      · rw [returned, Call.tally, total_bumps, committed]
        cases moves with
        | nil => simp [writesOf]
        | cons move rest =>
            have whole : publish (writesOf (move :: rest)) [] =
                [writesOf (move :: rest)] := rfl
            rw [whole]
            simp [Call.worth]
      · exact declined nothing failed
  | _ => exact silent rfl

section Reconciliation

variable
    {platform : Platform} {mine : Nat → Bool} {start : Database}
    {schedule : List StoreLabel} {config : StoreConfig}

/-- The counters of a quiescent process are what its commits are worth. -/
theorem counted_worth
    (followed : interleave platform start schedule = some config)
    (quiescent : config.Quiescent mine)
    (counter : Counter) (worker : counter.ofWorker = true) :
    config.counted mine counter =
      sumOver mine
        (fun commit => commit.call.worth counter commit.writes)
        config.history := by
  have ok := interleave_ok followed
  apply Config.counted_eq ok
  intro index session owned found
  rcases Session.returned_result (quiescent index session owned found)
    with ⟨result, finished⟩
  have tells :=
    Engine.follow_reports (Call.program_reports platform) followed
      index session _ found finished
  rw [tells counter worker]
  exact Ensured.tally (ok.ensures found finished) counter

/-- A sum that depends on the commits only. -/
theorem committed_eq_sumOver
    (measure : StoreCommit → Nat) (history : List StoreCommit) :
    committed platform mine (fun _ => measure) start history =
      sumOver mine measure history := by
  have whole :
      ((postgres platform).replay start history).map Prod.snd =
        history :=
    Engine.replay_map_snd start history
  rw [sumOver]
  conv_rhs => rw [← whole, List.map_map]
  rfl

theorem committed_add
    (first second : Database → StoreCommit → Nat)
    (history : List StoreCommit) :
    committed platform mine
        (fun db commit => first db commit + second db commit) start
        history =
      committed platform mine first start history +
        committed platform mine second start history := by
  rw [committed, committed, committed, ← List.sum_map_add]
  congr 1
  apply List.map_congr_left
  intro entry _
  split_ifs <;> rfl

/-- Sums over lawful commits, compared commit by commit. -/
theorem committed_congr
    (followed : interleave platform start schedule = some config)
    {first second : Database → StoreCommit → Nat}
    (equal :
      ∀ db (commit : StoreCommit),
        Lawful platform db commit.call commit.writes →
          first db commit = second db commit) :
    committed platform mine first start config.history =
      committed platform mine second start config.history := by
  have lawful := (interleave_ok followed).publishes.replay.2
  rw [committed, committed]
  congr 1
  apply List.map_congr_left
  intro entry member
  rw [equal entry.1 entry.2 (lawful entry member)]

/-- A sum over the commits of a process vanishes with its terms. -/
theorem committed_eq_zero_iff
    {measure : Database → StoreCommit → Nat}
    {history : List StoreCommit} :
    committed platform mine measure start history = 0 ↔
      ∀ entry ∈ (postgres platform).replay start history,
        mine entry.2.session = true → measure entry.1 entry.2 = 0 := by
  rw [committed, List.sum_eq_zero_iff_forall_eq_nat]
  constructor
  · intro zero entry member owned
    have here := zero _ (List.mem_map_of_mem member)
    simpa [owned] using here
  · intro zero value member
    rcases List.mem_map.mp member with ⟨entry, occurs, equal⟩
    subst value
    split_ifs with owned
    · exact zero entry occurs owned
    · rfl

theorem written_isSome_iff
    {id : TaskId} :
    (written id (writesOf moves)).isSome = true ↔
      ∃ move ∈ moves, move.row.id = id := by
  constructor
  · intro wrote
    by_contra absent
    push Not at absent
    rw [written_eq_none (writesOf_task absent)] at wrote
    cases wrote
  · rintro ⟨move, member, same⟩
    rw [written, List.findSome?_isSome_iff]
    refine ⟨.updateTask move.after, ?_, ?_⟩
    · simp only [writesOf, List.mem_append, List.mem_map]
      exact Or.inl (Or.inl ⟨move, member, rfl⟩)
    · simp [same]

/-- The reaper buries a task exactly if it has no attempts left. -/
theorem Move.Legal.buries_iff
    {move : Move} (legal : move.Legal db) (reaps : call.reaps = true)
    (makes : call.makes move.change = true) :
    move.change.buries = false ↔
      (move.row.attempts : Int) < move.row.maxRetries := by
  have enabled := legal.enabled
  cases call with
  | requeueStaleRunning threshold reaperID =>
      cases change : move.change with
      | toDead =>
          rw [change] at enabled
          simpa [Change.buries] using enabled.2
      | toPending =>
          rw [change] at enabled
          simpa [Change.buries] using enabled.2
      | _ =>
          rw [change] at makes
          cases makes
  | _ => cases reaps

theorem MadeBy.buries_none_iff
    (made : MadeBy call db moves) (reaps : call.reaps = true) :
    moved .running .dead db (writesOf moves) = 0 ↔
      ∀ row, db.find row.id = some row →
        (written row.id (writesOf moves)).isSome = true →
          (row.attempts : Int) < row.maxRetries := by
  have buries :
      ∀ move ∈ moves,
        (move.change.ends == (.running, .dead)) = false ↔
          (move.row.attempts : Int) < move.row.maxRetries := by
    intro move member
    rw [(made.reaps_ends reaps move member).1]
    exact (made.legal move member).buries_iff reaps (made.makes move member)
  rw [made.moved_eq, List.countP_eq_zero]
  constructor
  · intro none row found wrote
    rcases written_isSome_iff.mp wrote with ⟨move, member, same⟩
    have located := (made.legal move member).found
    rw [same, found] at located
    cases located
    exact (buries _ member).mp (Bool.eq_false_iff.mpr (none _ member))
  · intro retryable move member
    rw [Bool.not_eq_true]
    apply (buries move member).mpr
    exact retryable move.row (made.legal move member).found
      (written_isSome_iff.mpr ⟨move, member, rfl⟩)

/-- A reaper run buries nobody exactly if every task has attempts left. -/
theorem Lawful.buries_none_iff
    {writes : List Write} (lawful : Lawful platform db call writes)
    (reaps : call.reaps = true) :
    moved .running .dead db writes = 0 ↔
      ∀ row, db.find row.id = some row →
        (written row.id writes).isSome = true →
          (row.attempts : Int) < row.maxRetries := by
  cases lawful with
  | enqueue call rows =>
      simp only [written_insertions]
      constructor
      · intro _ row _ wrote
        cases wrote
      · intro _
        exact countP_map_false _ _ _ fun _ _ => rfl
  | beat taskID workerID row now found owned => cases reaps
  | move call move legal performs =>
      exact (MadeBy.singleton legal performs).buries_none_iff reaps
  | reap threshold reaperID moves distinct legal performs =>
      exact MadeBy.buries_none_iff
        ⟨legal, fun move member => (performs move member).makes⟩ reaps

/--
The counters of a quiescent process agree with what it has committed exactly
if its reaper has only taken tasks with attempts left.
-/
theorem counters_reconcile_iff_reaps_retryable
    (followed : interleave platform start schedule = some config)
    (quiescent : config.Quiescent mine) :
    Reconciled platform mine start config ↔
      ReapsRetryable platform mine start config.history := by
  have lawful := (interleave_ok followed).publishes.replay.2
  have counted :
      ∀ counter : Counter, counter.ofWorker = true →
        config.counted mine counter =
          committed platform mine
            (fun _ commit => commit.call.worth counter commit.writes)
            start config.history := by
    intro counter worker
    rw [counted_worth followed quiescent counter worker, committed_eq_sumOver]
  have dead :
      committed platform mine
          (fun _ commit => lettersInserted commit.writes) start
          config.history =
        config.counted mine .tasksDeadTotal +
          committed platform mine (movedByReaper .running .dead) start
            config.history := by
    rw [counted _ rfl, ← committed_add]
    exact committed_congr followed fun _ _ commits => commits.worth_dead
  have buried :
      committed platform mine (movedByReaper .running .dead) start
          config.history = 0 ↔
        ReapsRetryable platform mine start config.history := by
    rw [committed_eq_zero_iff]
    apply forall₃_congr
    intro entry member _
    rw [movedByReaper]
    split_ifs with reaps
    · simp only [reaps, forall_true_left]
      exact (lawful entry member).buries_none_iff reaps
    · simp [reaps]
  rw [← buried]
  constructor
  · intro reconciled
    have balance := reconciled.dead
    omega
  · intro none
    constructor
    · rw [counted _ rfl]
      exact (committed_congr followed fun _ _ commits =>
        commits.worth_completed).symm
    · rw [counted _ rfl]
      exact (committed_congr followed fun _ _ commits =>
        commits.worth_retried).symm
    · omega
    · rw [counted _ rfl, ← committed_add]
      exact (committed_congr followed fun _ _ commits =>
        commits.worth_reaped).symm
    · rw [counted _ rfl, counted _ rfl, ← committed_add]
      exact committed_congr followed fun _ _ commits =>
        commits.worth_failures

end Reconciliation

/-! ## An exhausted task -/

/--
A client enqueues a task with one attempt.  A worker process claims it and
gives no sign of life, and the reaper of the process takes it.
-/
def buriedSchedule : List StoreLabel :=
  [.spawn (.create { emailTask [] with maxRetries := 1 }),
    .spawn (.claim (ascii "w"))] ++
    [0, 0, 0, 0, 1, 1, 1, 1, 1].map (fun index =>
      .advance index (calm 7 0 0)) ++
    [.spawn (.requeueStaleRunning 10 (ascii "r"))] ++
    List.replicate 7 (.advance 2 (calm 7 100 0))

/-- The calls of the worker process in this schedule. -/
def workerProcess (index : Nat) : Bool :=
  index != 0

theorem buriedSchedule_outcome :
    ∃ config,
      interleave echoPlatform .empty buriedSchedule = some config ∧
        config.Quiescent workerProcess ∧
        config.counted workerProcess .tasksDeadTotal = 0 ∧
        committed echoPlatform workerProcess
          (fun _ commit => lettersInserted commit.writes) .empty
          config.history = 1 := by
  have outcome :
      (interleave echoPlatform .empty buriedSchedule).any
        (fun config =>
          config.sessions.all Session.returned = true ∧
            config.counted workerProcess .tasksDeadTotal = 0 ∧
            committed echoPlatform workerProcess
              (fun _ commit => lettersInserted commit.writes) .empty
              config.history = 1) = true := by
    decide +kernel
  simp only [Option.any_eq_true, decide_eq_true_eq] at outcome
  rcases outcome with ⟨config, followed, returned, counted, letters⟩
  exact ⟨config, followed, Config.quiescent_of_all returned _, counted,
    letters⟩

/-- The dead letter of the reaper is missing from `TasksDeadTotal`. -/
theorem buriedSchedule_not_reconciled :
    ∃ config,
      interleave echoPlatform .empty buriedSchedule = some config ∧
        config.Quiescent workerProcess ∧
        ¬ Reconciled echoPlatform workerProcess .empty config := by
  rcases buriedSchedule_outcome with
    ⟨config, followed, quiescent, counted, letters⟩
  refine ⟨config, followed, quiescent, ?_⟩
  intro reconciled
  have balance := reconciled.dead
  rw [counted, letters] at balance
  cases balance

theorem buriedSchedule_not_retryable :
    ∃ config,
      interleave echoPlatform .empty buriedSchedule = some config ∧
        config.Quiescent workerProcess ∧
        ¬ ReapsRetryable echoPlatform workerProcess .empty
          config.history := by
  rcases buriedSchedule_outcome with
    ⟨config, followed, quiescent, counted, letters⟩
  refine ⟨config, followed, quiescent, ?_⟩
  intro retryable
  have reconciled :=
    (counters_reconcile_iff_reaps_retryable followed quiescent).mpr retryable
  have balance := reconciled.dead
  rw [counted, letters] at balance
  cases balance

end Dhara.Store
