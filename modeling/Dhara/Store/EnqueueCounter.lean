import Dhara.Store.Runs
import Dhara.Transaction.Counters

/-!
# The counter of enqueued tasks

`insertTask` moves `TasksEnqueuedTotal` inside the transaction, right after
its `INSERT` and whatever error the `INSERT` was answered with.  The counter
therefore exceeds the number of committed rows by one for every failed
`INSERT`, and by the inserted rows of every transaction that is rolled back
or fails to commit.  It is exact if none of this happens in a run.
-/

namespace Dhara.Store

open Dhara.Transaction

variable {stmt : Stmt}

/-! ## Rows -/

/-- The rows that a list of writes inserts into `tasks`. -/
def inserted (writes : List Write) : Nat :=
  writes.countP fun
    | .insertTask _ => true
    | _ => false

@[simp]
theorem inserted_nil : inserted [] = 0 :=
  rfl

@[simp]
theorem inserted_append (first second : List Write) :
    inserted (first ++ second) = inserted first + inserted second :=
  List.countP_append

/-- The rows that wait for the commit of a transaction. -/
def pending (tx : Option (Tx Write Resource Time)) : Nat :=
  tx.elim 0 fun opened => inserted opened.writes

@[simp]
theorem pending_none : pending none = 0 :=
  rfl

@[simp]
theorem pending_some (tx : Tx Write Resource Time) :
    pending (some tx) = inserted tx.writes :=
  rfl

/-- The rows that a session has committed. -/
def insertedAll (commits : List (List Write)) : Nat :=
  (commits.map inserted).sum

theorem insertedAll_publish
    (writes : List Write) (commits : List (List Write)) :
    insertedAll (publish writes commits) =
      insertedAll commits + inserted writes := by
  cases writes with
  | nil => rfl
  | cons write rest => simp [insertedAll]

/-! ## Steps that spoil the count -/

section Spoiling

variable (platform : Platform)

/-- The call enqueues tasks. -/
def Call.enqueues : Call → Bool
  | .create _ => true
  | .callerTx _ _ => true
  | _ => false

/--
The round trip leaves the count right: an `INSERT` is answered without an
error, and a transaction that has inserted rows neither fails to commit nor
is rolled back.
-/
def Spares (answer : Answer Fault Resource Oracle Time) (db : Database)
    (session : StoreSession) : Prop :=
  match session.program with
  | some (.exec (.insertTask args) _) =>
      isFault
        ((postgres platform).execTx answer (.insertTask args)
          ⟨db, session.tx⟩).1 = false
  | some (.commit _) =>
      isFault ((postgres platform).commitTx answer ⟨db, session.tx⟩).1 =
          false ∨ pending session.tx = 0
  | some (.done _) => pending session.tx = 0
  | _ => True

/-- The step leaves the count of the client's calls right. -/
def StepSpares (mine : Nat → Bool) (config : StoreConfig) :
    StoreLabel → Prop
  | .advance index answer =>
      mine index = true →
        ∀ session, config.sessions[index]? = some session →
          Spares platform
            { answer with
              others := heldByOthers config.sessions index }
            config.db session
  | _ => True

/-- Every step of the schedule leaves the count right. -/
def NothingSpoiled (mine : Nat → Bool) (config : StoreConfig) :
    List StoreLabel → Prop
  | [] => True
  | label :: rest =>
      StepSpares platform mine config label ∧
        match (postgres platform).step (Call.program platform) config
          label with
        | none => True
        | some next => NothingSpoiled mine next rest

/-- The rows a round trip counts without ever committing them. -/
def loss (answer : Answer Fault Resource Oracle Time) (db : Database)
    (session : StoreSession) : Nat :=
  match session.program with
  | some (.exec (.insertTask args) _) =>
      if isFault
          ((postgres platform).execTx answer (.insertTask args)
            ⟨db, session.tx⟩).1 then 1 else 0
  | some (.commit _) =>
      if isFault
          ((postgres platform).commitTx answer ⟨db, session.tx⟩).1 then
        pending session.tx
      else 0
  | some (.done _) => pending session.tx
  | _ => 0

/-- The loss of a session by one step. -/
def lossAt (index : Nat) (config : StoreConfig) : StoreLabel → Nat
  | .advance position answer =>
      if position = index then
        (config.sessions[index]?).elim 0 fun session =>
          loss platform
            { answer with
              others := heldByOthers config.sessions index }
            config.db session
      else 0
  | _ => 0

/-- The loss of a session along a schedule. -/
def losses (index : Nat) (config : StoreConfig) :
    List StoreLabel → Nat
  | [] => 0
  | label :: rest =>
      lossAt platform index config label +
        match (postgres platform).step (Call.program platform) config
          label with
        | none => 0
        | some next => losses index next rest

variable {platform}

theorem loss_eq_zero_iff
    {answer : Answer Fault Resource Oracle Time} {db : Database}
    {session : StoreSession} :
    loss platform answer db session = 0 ↔
      Spares platform answer db session := by
  unfold loss Spares
  split
  · simp
  · rename_i next _
    generalize isFault
      ((postgres platform).commitTx answer ⟨db, session.tx⟩).1 = failed
    cases failed <;> simp
  · rfl
  · simp

theorem stepSpares_iff
    {mine : Nat → Bool} {config : StoreConfig} {label : StoreLabel} :
    StepSpares platform mine config label ↔
      ∀ index, mine index = true →
        lossAt platform index config label = 0 := by
  cases label with
  | spawn call => simp [StepSpares, lossAt]
  | crash index => simp [StepSpares, lossAt]
  | advance position answer =>
      simp only [StepSpares, lossAt]
      constructor
      · intro spares index owned
        split_ifs with same
        · subst position
          cases found : config.sessions[index]? with
          | none => rfl
          | some session =>
              exact loss_eq_zero_iff.mpr (spares owned session found)
        · rfl
      · intro lossless owned session found
        have here := lossless position owned
        rw [if_pos rfl, found] at here
        exact loss_eq_zero_iff.mp here

theorem nothingSpoiled_iff
    {mine : Nat → Bool} {config : StoreConfig}
    {schedule : List StoreLabel} :
    NothingSpoiled platform mine config schedule ↔
      ∀ index, mine index = true →
        losses platform index config schedule = 0 := by
  induction schedule generalizing config with
  | nil => simp [NothingSpoiled, losses]
  | cons label rest induction =>
      simp only [NothingSpoiled, losses, stepSpares_iff,
        Nat.add_eq_zero_iff, imp_and, forall_and]
      cases (postgres platform).step (Call.program platform) config label with
      | none => simp
      | some next => simp only [induction]

end Spoiling

/-! ## Programs that enqueue -/

section Programs

variable {Result : Type}

/-- What the program counts before its next round trip. -/
def owed : StoreProgram Result → Nat
  | .count .tasksEnqueuedTotal amount _ => amount
  | _ => 0

theorem owed_count (counter : Counter) (amount : Nat)
    (next : StoreProgram Result) :
    owed (.count counter amount next) =
      if counter = .tasksEnqueuedTotal then amount else 0 := by
  cases counter <;> rfl

/-- What a reply lets the program count. -/
def credit : (stmt : Stmt) → Except Fault (Reply stmt) → Nat
  | .insertTask _, .ok none => 0
  | .insertTask _, _ => 1
  | _, _ => 0

/--
The program opens one transaction and counts exactly the replies to its
`INSERT` statements that it takes for a new row.
-/
def CountsInserts : Bool → StoreProgram Result → Prop
  | _, .done _ => True
  | opened, .begin next =>
      opened = false ∧
        (∀ fault,
          owed (next (.error fault)) = 0 ∧
            CountsInserts false (next (.error fault))) ∧
        owed (next (.ok ())) = 0 ∧ CountsInserts true (next (.ok ()))
  | opened, .exec stmt next =>
      ∀ reply,
        owed (next reply) = credit stmt reply ∧
          CountsInserts opened (next reply)
  | opened, .commit next =>
      ∀ reply, owed (next reply) = 0 ∧ CountsInserts opened (next reply)
  | opened, .count _ _ next => owed next = 0 ∧ CountsInserts opened next
  | _, .query _ _ => False
  | _, .scan _ => False

variable {platform : Platform}

theorem countsInserts_insertTask
    (task : TaskRow)
    {next : TaskRow → Except StoreError Bool → StoreProgram Result}
    (quiet : ∀ task result, owed (next task result) = 0)
    (rest : ∀ task result, CountsInserts true (next task result)) :
    owed (insertTask platform task next) = 0 ∧
      CountsInserts true (insertTask platform task next) := by
  unfold insertTask
  split
  · exact ⟨quiet _ _, rest _ _⟩
  · refine ⟨rfl, ?_⟩
    intro reply
    cases reply with
    | error fault => exact ⟨rfl, quiet _ _, rest _ _⟩
    | ok found =>
        cases found with
        | some row => exact ⟨rfl, quiet _ _, rest _ _⟩
        | none =>
            change owed (replayTask _ _ _) = 0 ∧
              CountsInserts true (replayTask _ _ _)
            unfold replayTask
            split
            · exact ⟨quiet _ _, rest _ _⟩
            · refine ⟨rfl, ?_⟩
              intro reply
              cases reply with
              | error fault => exact ⟨quiet _ _, rest _ _⟩
              | ok existing =>
                  cases existing with
                  | none => exact ⟨quiet _ _, rest _ _⟩
                  | some row =>
                      change owed (if _ then _ else _) = 0 ∧
                        CountsInserts true (if _ then _ else _)
                      split_ifs
                      · exact ⟨quiet _ _, rest _ _⟩
                      · exact ⟨quiet _ _, rest _ _⟩

theorem countsInserts_createEach
    (tasks : List TaskRow)
    (results : List (TaskRow × Except StoreError Bool))
    {next : List (TaskRow × Except StoreError Bool) → StoreProgram Result}
    (rest :
      ∀ results,
        owed (next results) = 0 ∧ CountsInserts true (next results)) :
    owed (createEach platform tasks results next) = 0 ∧
      CountsInserts true (createEach platform tasks results next) := by
  induction tasks generalizing results with
  | nil => exact rest results
  | cons task tasks induction =>
      rw [createEach, createTx]
      exact countsInserts_insertTask task
        (fun task result =>
          (induction (results ++ [(task, result)])).1)
        fun task result =>
          (induction (results ++ [(task, result)])).2

theorem countsInserts_openTx
    (fail : StoreError → Result) {next : StoreProgram Result}
    (rest : owed next = 0 ∧ CountsInserts true next) :
    CountsInserts false (openTx fail next) :=
  ⟨rfl, fun _ => ⟨rfl, True.intro⟩, rest⟩

theorem countsInserts_commitTx
    {fail : StoreError → Result} (context : String) (result : Result) :
    CountsInserts true (commitTx fail context (.done result)) := by
  intro reply
  cases reply with
  | error fault => exact ⟨rfl, True.intro⟩
  | ok sent => exact ⟨rfl, True.intro⟩

theorem Call.program_countsInserts
    {call : Call} (enqueues : call.enqueues = true) :
    owed (call.program platform) = 0 ∧
      CountsInserts false (call.program platform) := by
  cases call with
  | create task =>
      refine ⟨rfl, countsInserts_openTx
        (fun error => .created task (.error error)) ?_⟩
      apply countsInserts_insertTask task
      · intro task result
        cases result <;> rfl
      · intro task result
        cases result with
        | error error => exact True.intro
        | ok created => exact countsInserts_commitTx _ _
  | callerTx tasks commits =>
      refine ⟨rfl, countsInserts_openTx
        (fun error => .enqueued [] (.error error)) ?_⟩
      apply countsInserts_createEach tasks []
      intro results
      split_ifs
      · exact ⟨rfl, countsInserts_commitTx _ _⟩
      · exact ⟨rfl, True.intro⟩
  | _ => cases enqueues

/-- A statement inserts the rows it lets the program count. -/
theorem inserted_eq_credit
    {now : Time} {others : Resource → Bool} {oracle : Oracle} {db : Database}
    {effect : Effect (Reply stmt) Write Resource}
    (evaluated : eval platform now others oracle stmt db = .ok effect) :
    inserted effect.writes = credit stmt (.ok effect.reply) := by
  cases stmt with
  | insertTask args =>
      rcases evalInsert_cases evaluated with
        ⟨task, encoded, ⟨_, equal⟩ | ⟨_, _, equal⟩⟩
      · simp [equal, credit]
      · simp [equal, credit, inserted]
  | update id update =>
      rcases evalUpdate_cases evaluated with
        ⟨change, encoded, ⟨_, equal⟩ | ⟨row, found, guarded, equal⟩⟩
      · simp [equal, credit]
      · simp [equal, credit, inserted]
  | selectDue workerID =>
      simp only [eval, map_eq_ok_iff] at evaluated
      rcases evaluated with ⟨_, _, equal⟩
      subst effect
      rcases evalSelectDue_cases now others oracle db with
        equal | ⟨row, _, _, free, equal⟩
      · simp [equal, credit]
      · simp [equal, credit]
  | requeueStale threshold =>
      cases evaluated
      simp [evalRequeueStale, inserted, credit, List.countP_map,
        Function.comp_def]
  | insertLog id status message =>
      simp only [eval, bind_eq_ok_iff] at evaluated
      rcases evaluated with ⟨text, _, evaluated⟩
      simp [evalReferencing_cases evaluated, credit, inserted]
  | insertDeadLetter id lastError =>
      simp only [eval, bind_eq_ok_iff] at evaluated
      rcases evaluated with ⟨text, _, evaluated⟩
      simp [evalReferencing_cases evaluated, credit, inserted]
  | getByTypeAndIdempotencyKey type key =>
      simp only [eval, bind_eq_ok_iff, map_eq_ok_iff] at evaluated
      rcases evaluated with ⟨text, _, other, _, equal⟩
      simp [← equal, credit]
  | getById id =>
      cases evaluated
      simp [credit]
  | deleteDeadLetters id =>
      cases evaluated
      simp [credit, inserted]

end Programs

/-! ## The balance of one session -/

/--
What the session has counted or is about to count are the rows it has
committed, the rows of its open transaction, and the rows it has lost.
-/
def Balanced (lost : Nat) (session : StoreSession) : Prop :=
  ∀ program, session.program = some program →
    ∃ opened,
      CountsInserts opened program ∧
        (opened = false → session.tx = none) ∧
        total .tasksEnqueuedTotal session.counts + owed program =
          insertedAll session.commits + pending session.tx + lost

section Balance

variable
    {platform : Platform}
    {answer : Answer Fault Resource Oracle Time} {db : Database}
    {session : StoreSession} {lost : Nat}
    {moved :
      Moved Call Stmt Reply Fault Counter Response Database Write
        Resource Time}

/-- A session that goes on after a reply. -/
theorem Balanced.resume {Sent : Type}
    {reply : Except Fault Sent}
    {next : Except Fault Sent → StoreProgram Response}
    {tx : Option (Tx Write Resource Time)} {published : List Write}
    {opened : Bool}
    (counts : CountsInserts opened (next reply))
    (closed : opened = false → tx = none)
    (balance :
      total .tasksEnqueuedTotal session.counts + owed (next reply) =
        insertedAll session.commits + inserted published + pending tx +
          lost) :
    Balanced lost (session.resume reply next tx published) := by
  intro program current
  cases current
  refine ⟨opened, counts, closed, ?_⟩
  simpa [Session.resume, insertedAll_publish] using balance

theorem loss_exec {next : Except Fault (Reply stmt) → StoreProgram Response}
    (current : session.program = some (.exec stmt next)) :
    loss platform answer db session =
      if isFault
          ((postgres platform).execTx answer stmt ⟨db, session.tx⟩).1 then
        credit stmt (.error (postgres platform).closed)
      else 0 := by
  simp only [loss, current]
  cases stmt <;> simp [credit]

theorem credit_error (first second : Fault) :
    credit stmt (.error first) = credit stmt (.error second) := by
  cases stmt <;> rfl

theorem Balanced.exec
    {next : Except Fault (Reply stmt) → StoreProgram Response}
    (balanced : Balanced lost session)
    (current : session.program = some (.exec stmt next)) :
    Balanced (lost + loss platform answer db session)
      (session.resume
        ((postgres platform).execTx answer stmt ⟨db, session.tx⟩).1
        next
        ((postgres platform).execTx answer stmt
          ⟨db, session.tx⟩).2.tx []) := by
  rcases balanced _ current with ⟨opened, counts, closed, balance⟩
  rw [loss_exec current]
  change _ + 0 = _ at balance
  cases held : session.tx with
  | none =>
      apply Balanced.resume (counts _).2 fun _ => rfl
      rw [held] at balance
      rw [(counts _).1]
      simp only [Engine.execTx, isFault_error, if_true, inserted_nil,
        pending_none] at balance ⊢
      omega
  | some tx =>
      have started : opened = true := by
        cases opened with
        | true => rfl
        | false => simp [closed rfl] at held
      rw [held, pending_some] at balance
      rcases (postgres platform).execTx_cases answer stmt db tx with
        ⟨fault, failed, replied⟩ | ⟨_, _, effect, evaluated, replied⟩
      · rw [replied]
        apply Balanced.resume (counts _).2 (by simp [started])
        rw [(counts _).1, credit_error fault (postgres platform).closed]
        simp only [isFault_error, if_true, inserted_nil, pending_some]
        omega
      · rw [replied]
        apply Balanced.resume (counts _).2 (by simp [started])
        rw [(counts _).1, ← inserted_eq_credit evaluated]
        simp only [isFault_ok, Bool.false_eq_true, if_false,
          inserted_nil, pending_some, inserted_append]
        omega

theorem Balanced.commit
    {next : Except Fault Unit → StoreProgram Response}
    (balanced : Balanced lost session)
    (current : session.program = some (.commit next)) :
    Balanced (lost + loss platform answer db session)
      (session.resume
        ((postgres platform).commitTx answer ⟨db, session.tx⟩).1 next
        ((postgres platform).commitTx answer ⟨db, session.tx⟩).2.tx
        (commitWrites answer session.tx)) := by
  rcases balanced _ current with ⟨opened, counts, closed, balance⟩
  have lost :
      loss platform answer db session =
        if isFault
            ((postgres platform).commitTx answer ⟨db, session.tx⟩).1
        then pending session.tx else 0 := by
    simp [loss, current]
  rw [lost]
  change _ + 0 = _ at balance
  cases held : session.tx with
  | none =>
      apply Balanced.resume (counts _).2 fun _ => rfl
      rw [held] at balance
      rw [(counts _).1]
      simpa [Engine.commitTx, commitWrites] using balance
  | some tx =>
      rw [held] at balance
      cases faulty : answer.fault with
      | some fault =>
          simp only [Engine.commitTx, commitWrites, faulty]
          apply Balanced.resume (counts _).2 fun _ => rfl
          rw [(counts _).1]
          simp only [isFault_error, if_true, inserted_nil, pending_none]
          omega
      | none =>
          cases failed : tx.failed with
          | true =>
              simp only [Engine.commitTx, commitWrites, faulty, failed,
                if_true]
              apply Balanced.resume (counts _).2 fun _ => rfl
              rw [(counts _).1]
              simp only [isFault_error, if_true, inserted_nil, pending_none]
              omega
          | false =>
              simp only [Engine.commitTx, commitWrites, faulty, failed,
                Bool.false_eq_true, if_false]
              apply Balanced.resume (counts _).2 fun _ => rfl
              rw [(counts _).1]
              simp only [isFault_ok, Bool.false_eq_true, if_false,
                pending_none]
              simpa using balance

theorem Balanced.begin
    {next : Except Fault Unit → StoreProgram Response}
    (balanced : Balanced lost session)
    (current : session.program = some (.begin next)) :
    Balanced (lost + loss platform answer db session)
      (session.resume (beginTx answer ⟨db, session.tx⟩).1 next
        (beginTx answer ⟨db, session.tx⟩).2.tx []) := by
  rcases balanced _ current with
    ⟨opened, ⟨unopened, onFault, quiet, onOk⟩, closed, balance⟩
  have none := closed unopened
  change _ + 0 = _ at balance
  have lossless : loss platform answer db session = 0 := by
    simp [loss, current]
  rw [none] at balance
  rw [lossless]
  rcases beginTx_cases answer db session.tx with
    ⟨fault, replied⟩ | replied
  · rw [replied]
    apply Balanced.resume (onFault fault).2 fun _ => none
    rw [(onFault fault).1, none]
    simpa using balance
  · rw [replied]
    apply Balanced.resume onOk (by simp)
    rw [quiet]
    simpa using balance

/-- A round trip adds its loss. -/
theorem Balanced.advance
    (balanced : Balanced lost session)
    (advanced : (postgres platform).advance answer db session = some moved) :
    Balanced (lost + loss platform answer db session) moved.session := by
  cases current : session.program with
  | none => simp [Engine.advance, current] at advanced
  | some program =>
      rcases balanced program current with
        ⟨opened, counts, closed, balance⟩
      cases program with
      | query stmt next => exact counts.elim
      | scan next => exact counts.elim
      | done result =>
          have lost :
              loss platform answer db session = pending session.tx := by
            simp [loss, current]
          simp only [Engine.advance, current] at advanced
          split at advanced
          · cases advanced
          · cases advanced
            intro program same
            cases same
            refine ⟨opened, True.intro, fun _ => rfl, ?_⟩
            change total .tasksEnqueuedTotal session.counts + _ =
              insertedAll session.commits + 0 + _
            omega
      | begin next =>
          simp only [Engine.advance, current] at advanced
          cases advanced
          exact balanced.begin current
      | exec stmt next =>
          simp only [Engine.advance, current] at advanced
          split at advanced
          · cases advanced
          · cases advanced
            exact balanced.exec current
      | commit next =>
          simp only [Engine.advance, current] at advanced
          cases advanced
          exact balanced.commit current
      | count counter amount next =>
          have lossless : loss platform answer db session = 0 := by
            simp [loss, current]
          simp only [Engine.advance, current] at advanced
          cases advanced
          intro program same
          cases same
          refine ⟨opened, counts.2, closed, ?_⟩
          rw [owed_count] at balance
          rw [lossless, counts.1, total_append, total_cons, total_nil]
          omega

end Balance

/-! ## The balance of a client -/

/-- Every call that enqueues is balanced up to its losses. -/
structure AllBalanced (lost : Nat → Nat) (config : StoreConfig) :
    Prop where
  balanced :
    ∀ (index : Nat) session, config.sessions[index]? = some session →
      session.call.enqueues = true → Balanced (lost index) session
  unlost : ∀ index, config.sessions.length ≤ index → lost index = 0

section Clients

variable
    {platform : Platform} {mine : Nat → Bool} {start : Database}
    {schedule : List StoreLabel} {config next : StoreConfig}
    {lost : Nat → Nat}

theorem lossAt_of_none
    {index : Nat} (missing : config.sessions[index]? = none)
    (label : StoreLabel) : lossAt platform index config label = 0 := by
  cases label with
  | advance position answer => simp [lossAt, missing]
  | _ => rfl

theorem AllBalanced.step {label : StoreLabel}
    (all : AllBalanced lost config)
    (stepped :
      (postgres platform).step (Call.program platform) config label =
        some next) :
    AllBalanced
      (fun index => lost index + lossAt platform index config label)
      next := by
  constructor
  · intro index after found enqueues
    rcases Engine.step_eq_some stepped with
      ⟨call, sameLabel, equal⟩ |
        ⟨position, answer, session, moved, sameLabel, located, advanced,
          equal⟩ |
        ⟨position, session, sameLabel, located, _, equal⟩
    · subst label
      subst next
      change Balanced (lost index + 0) after
      rcases getElem?_concat_some found with old | ⟨last, rfl⟩
      · exact all.balanced index after old enqueues
      · rw [all.unlost index last.ge]
        intro program current
        cases current
        rcases Call.program_countsInserts enqueues with
          ⟨quiet, counts⟩
        exact ⟨false, counts, fun _ => rfl, (Nat.zero_add _).trans quiet⟩
    · subst label
      subst next
      rcases getElem?_set_cases found with
        ⟨same, moves⟩ | ⟨apart, old⟩
      · subst index
        subst after
        have sameCall : moved.session.call = session.call := by
          cases Engine.advance_trip advanced <;> rfl
        rw [sameCall] at enqueues
        have here :=
          (all.balanced position session located enqueues).advance advanced
        simpa [lossAt, located] using here
      · have elsewhere : position ≠ index := fun same =>
          apart same.symm
        simpa [lossAt, elsewhere] using all.balanced index after old enqueues
    · subst label
      subst next
      rcases getElem?_set_cases found with
        ⟨same, crashed⟩ | ⟨_, old⟩
      · subst after
        intro program current
        cases current
      · exact all.balanced index after old enqueues
  · intro index outside
    have shorter := Engine.step_length stepped
    have before : config.sessions.length ≤ index :=
      Nat.le_trans shorter outside
    rw [all.unlost index before, Nat.zero_add]
    exact lossAt_of_none (List.getElem?_eq_none before) label

theorem AllBalanced.follow
    (all : AllBalanced lost config) {final : StoreConfig}
    (followed :
      (postgres platform).follow (Call.program platform) config
        schedule = some final) :
    AllBalanced
      (fun index =>
        lost index + losses platform index config schedule)
      final := by
  induction schedule generalizing lost config with
  | nil =>
      simp only [Engine.follow, Option.some.injEq] at followed
      subst final
      exact all
  | cons label rest induction =>
      simp only [Engine.follow] at followed
      cases stepped :
          (postgres platform).step (Call.program platform) config label with
      | none => simp [stepped] at followed
      | some next =>
          simp only [stepped] at followed
          have later := induction (all.step stepped) followed
          simpa [losses, stepped, Nat.add_assoc] using later

/-- Every transaction of the client has ended. -/
def Ended (mine : Nat → Bool) (config : StoreConfig) : Prop :=
  ∀ (index : Nat) session, mine index = true →
    config.sessions[index]? = some session →
      session.returned = true ∧ session.tx.isNone = true

/--
Once all transactions of a client have ended, `TasksEnqueuedTotal` is the
number of rows its calls have inserted and committed exactly if no `INSERT`
was answered by an error and no inserted row was rolled back.
-/
theorem enqueued_total_iff_nothing_spoiled
    (followed : interleave platform start schedule = some config)
    (client :
      ∀ (index : Nat) session, mine index = true →
        config.sessions[index]? = some session → session.call.enqueues = true)
    (ended : Ended mine config) :
    config.counted mine .tasksEnqueuedTotal =
        sumOver mine (fun commit => inserted commit.writes) config.history ↔
      NothingSpoiled platform mine { db := start } schedule := by
  have initial : AllBalanced (fun _ => 0) { db := start } :=
    ⟨by simp, fun _ _ => rfl⟩
  have all := initial.follow followed
  have balanced :
      ∀ (index : Nat) session, mine index = true →
        config.sessions[index]? = some session →
          total .tasksEnqueuedTotal session.counts =
            (session.commits.map inserted).sum +
              losses platform index { db := start } schedule := by
    intro index session owned found
    rcases ended index session owned found with ⟨returned, closed⟩
    rcases Session.returned_result returned with ⟨result, finished⟩
    rcases all.balanced index session found
        (client index session owned found) _ finished with
      ⟨_, _, _, balance⟩
    rw [Option.isNone_iff_eq_none.mp closed] at balance
    simpa [owed, insertedAll] using balance
  have excess :
      config.counted mine .tasksEnqueuedTotal =
        sumOver mine (fun commit => inserted commit.writes)
            config.history +
          ((List.range config.sessions.length).map fun index =>
            if mine index then
              losses platform index { db := start } schedule
            else 0).sum :=
    Config.counted_excess (interleave_ok followed)
      (fun _ => inserted) balanced
  have unlost :
      ∀ index, config.sessions.length ≤ index →
        losses platform index { db := start } schedule = 0 := by
    intro index outside
    simpa using all.unlost index outside
  rw [nothingSpoiled_iff, excess, Nat.add_eq_left,
    List.sum_eq_zero_iff_forall_eq_nat]
  constructor
  · intro zero index owned
    by_cases inside : index < config.sessions.length
    · have here :=
        zero _ (List.mem_map_of_mem (List.mem_range.mpr inside))
      simpa [owned] using here
    · exact unlost index (Nat.le_of_not_lt inside)
  · intro zero value member
    rcases List.mem_map.mp member with ⟨index, _, equal⟩
    subst value
    split_ifs with owned
    · exact zero index owned
    · rfl

end Clients

/-! ## A rolled back transaction -/

/--
A caller enqueues a task in a transaction of its own and rolls it back.
-/
def rolledBackSchedule : List StoreLabel :=
  .spawn (.callerTx [emailTask []] fun _ => false) ::
    List.replicate 4 (.advance 0 (calm 7 0 0))

theorem rolledBackSchedule_outcome :
    ∃ config,
      interleave echoPlatform .empty rolledBackSchedule = some config ∧
        (∀ (index : Nat) session, (fun _ => true) index = true →
          config.sessions[index]? = some session →
            session.call.enqueues = true) ∧
        Ended (fun _ => true) config ∧
        config.counted (fun _ => true) .tasksEnqueuedTotal = 1 ∧
        sumOver (fun _ => true) (fun commit => inserted commit.writes)
          config.history = 0 := by
  have outcome :
      (interleave echoPlatform .empty rolledBackSchedule).any
        (fun config =>
          (config.sessions.all fun session =>
              session.call.enqueues && session.returned &&
                session.tx.isNone) = true ∧
            config.counted (fun _ => true) .tasksEnqueuedTotal = 1 ∧
            sumOver (fun _ => true)
              (fun commit => inserted commit.writes)
              config.history = 0) = true := by
    decide +kernel
  simp only [Option.any_eq_true, decide_eq_true_eq, List.all_eq_true,
    Bool.and_eq_true] at outcome
  rcases outcome with ⟨config, followed, sessions, counted, rows⟩
  refine ⟨config, followed, ?_, ?_, counted, rows⟩
  · intro index session _ found
    exact (sessions session (List.mem_of_getElem? found)).1.1
  · intro index session _ found
    have here := sessions session (List.mem_of_getElem? found)
    exact ⟨here.1.2, here.2⟩

/-- The rolled back task stays counted. -/
theorem rolledBackSchedule_miscounts :
    ∃ config,
      interleave echoPlatform .empty rolledBackSchedule = some config ∧
        Ended (fun _ => true) config ∧
        config.counted (fun _ => true) .tasksEnqueuedTotal ≠
          sumOver (fun _ => true)
            (fun commit => inserted commit.writes) config.history := by
  rcases rolledBackSchedule_outcome with
    ⟨config, followed, _, ended, counted, rows⟩
  refine ⟨config, followed, ended, ?_⟩
  rw [counted, rows]
  decide

theorem rolledBackSchedule_spoiled :
    ¬ NothingSpoiled echoPlatform (fun _ => true) { db := .empty }
      rolledBackSchedule := by
  rcases rolledBackSchedule_outcome with
    ⟨config, followed, client, ended, counted, rows⟩
  intro nothing
  have balance :=
    (enqueued_total_iff_nothing_spoiled followed client ended).mpr nothing
  rw [counted, rows] at balance
  cases balance

end Dhara.Store
