import Dhara.Pool.Leases

/-!
# Healthy executions are not reaped

That an execution is healthy is not enough.  A heartbeat names the task and
the worker, but not the claim.  If the worker fails a task and claims it
again, a heartbeat of the first execution that is still under way dates the
lock of the second one back to its own stamp.

If no heartbeat that is stamped before the claim is committed under it, the
lock on the row is never older than the threshold of a reaper, so that no
reaper that starts in time takes the task away.
-/

namespace Dhara.Pool

open Dhara.Store Dhara.Transaction
open Dhara.Environment (WorkerConfig)

variable {commit : StoreCommit} {number index : Nat}
  {earlier later : List TimedStep}

/-! ## Whole runs -/

/-- The commit is one of a reaper with the threshold that starts in time. -/
def Lease.ReapsInTime (platform : Platform) (config : WorkerConfig)
    (lease : Lease) (run : List TimedStep) (commit : StoreCommit) :
    Prop :=
  ∀ threshold reaperID,
    commit.call = .requeueStaleRunning threshold reaperID →
      config.stuckThreshold / 1000 ≤ threshold ∧
        lease.StartsInTime platform run commit.session

/-- No reaper that starts in time takes the task away. -/
structure Lease.NeverReaped (platform : Platform) (config : WorkerConfig)
    (lease : Lease) (run : List TimedStep) (final : State) : Prop where
  /-- A run of a reaper changes nothing about the task. -/
  unchanged :
    ∀ earlier timed state next commit threshold reaperID,
      Moment platform run earlier timed state next →
      lease.Runs state →
      next.store.history = state.store.history ++ [commit] →
      commit.call = .requeueStaleRunning threshold reaperID →
      lease.ReapsInTime platform config run commit →
        next.store.db.view lease.task.id = state.store.db.view lease.task.id
  /-- The task runs until an outcome is recorded in the worker's name. -/
  stays :
    ∀ earlier later state,
      run = earlier ++ later → runTo platform earlier = some state →
      lease.Runs state →
      (∀ before timed current next commit,
        Moment platform run (earlier ++ before) timed current next →
        next.store.history = current.store.history ++ [commit] →
          ¬ Records lease.task.id lease.workerID commit.call ∧
            lease.ReapsInTime platform config run commit) →
        lease.Runs final ∧
          ∃ row locker,
            final.store.db.find lease.task.id = some row ∧
              row.ownedBy locker = true ∧
              locker.bytes = lease.workerID

section Safety

variable
    {platform : Platform} {delay : Int} {config : WorkerConfig}
    {lease : Lease} {run earlier later : List TimedStep}
    {timed : TimedStep} {state next final : State}

theorem runTo_called
    (split : run = earlier ++ later)
    (reached : runTo platform earlier = some state)
    (followed : runTo platform run = some final) {call : Call}
    (called : Called state.store index call) :
    Called final.store index call := by
  rw [split, runTo, List.map_append, State.follow_append] at followed
  rcases Option.bind_eq_some_iff.mp followed with
    ⟨middle, arrived, continued⟩
  cases Option.some.inj (arrived.symm.trans reached)
  exact State.follow_invariant
    (fun _ _ _ held moves => moves.called held) called continued

/-- The task runs under a claim of the worker. -/
theorem Lease.Runs.called
    (runs : lease.Runs state) (tracked : Tracked platform state)
    (split : run = earlier ++ later)
    (reached : runTo platform earlier = some state)
    (followed : runTo platform run = some final)
    (received : Received final.store lease.claim lease.workerID lease.task) :
    Called state.store lease.claim (.claim lease.workerID) := by
  rcases runs with ⟨grant, current, mine⟩
  rcases tracked.reached with ⟨schedule, scheduled⟩
  rcases (interleave_granted scheduled lease.task.id).stems grant current
    with ⟨commit, member, name, _, same, claimed, _⟩
  rcases (interleave_ok scheduled).known commit member with
    ⟨session, located, sameCall⟩
  rw [same, mine] at located
  have called : Called state.store lease.claim (.claim name) :=
    ⟨session, located, sameCall.trans claimed⟩
  cases (runTo_called split reached followed called).unique received.called
  exact called

theorem Lease.Healthy.kept
    (healthy : lease.Healthy platform delay config run)
    (undisturbed : lease.Undisturbed platform run)
    (fits : config.heartbeatInterval + 2 * delay ≤ config.stuckThreshold)
    (positive : 0 < config.heartbeatInterval)
    (shorter : config.heartbeatInterval < config.stuckThreshold)
    (followed : runTo platform run = some final)
    (received : Received final.store lease.claim lease.workerID lease.task)
    (split : run = earlier ++ later)
    (reached : runTo platform earlier = some state) :
    lease.Kept platform delay config run earlier state := by
  refine runTo_induction Lease.kept_start ?_ split reached
  intro before timed current next moment kept
  refine kept.step healthy undisturbed fits shorter (by omega) moment ?_
  intro runs
  rcases moment.occurs with ⟨rest, whole⟩
  exact runs.called kept.tracked whole moment.reached followed received

/-- A reaper that starts in time leaves the task alone. -/
theorem Lease.Kept.spared
    (kept : lease.Kept platform delay config run earlier state)
    (moment : Moment platform run earlier timed state next)
    (runs : lease.Runs state)
    (called : Called state.store lease.claim (.claim lease.workerID))
    {threshold : Time} {reaperID : GoString}
    (grown : next.store.history = state.store.history ++ [commit])
    (calls : commit.call = .requeueStaleRunning threshold reaperID)
    (inTime : lease.ReapsInTime platform config run commit) :
    written lease.task.id commit.writes = none ∧
      next.store.db.view lease.task.id =
        state.store.db.view lease.task.id := by
  have moves := State.step_moves moment.stepped
  cases runs.affects kept.tracked.reached kept.named called moves grown with
  | spared silent same => exact ⟨silent, same⟩
  | renewed worker row now beats found wrote stored =>
      cases calls.symm.trans beats
  | recorded records ended =>
      rw [calls] at records
      exact records.elim
  | reaped limit reaper move reaps stored stale logged ended =>
      rcases kept.locked runs with ⟨row, locked, found, dated, fresh⟩
      cases Option.some.inj (stored.symm.trans found)
      rcases inTime limit reaper reaps with ⟨enough, starts⟩
      rcases State.step_logged moment.stepped kept.tracked.reached grown
          logged with ⟨session, tx, located, opened, stamped⟩
      have unexpired := fresh.unexpired commit.session session tx located
        opened starts
      rw [stamped] at unexpired
      simp only [TaskRecord.stale, dated, Option.any_some,
        decide_eq_true_eq, Time] at stale
      simp only [nanoseconds, Move.log] at unexpired
      omega

/-- A task stays under its claim while nobody takes it away. -/
theorem Lease.Kept.runs_step
    (kept : lease.Kept platform delay config run earlier state)
    (moment : Moment platform run earlier timed state next)
    (runs : lease.Runs state)
    (called : Called state.store lease.claim (.claim lease.workerID))
    (left :
      ∀ commit,
        next.store.history = state.store.history ++ [commit] →
          ¬ Records lease.task.id lease.workerID commit.call ∧
            lease.ReapsInTime platform config run commit) :
    lease.Runs next := by
  have moves := State.step_moves moment.stepped
  unfold Lease.Runs RunsUnder at runs ⊢
  rcases moves.history_cases with silent | ⟨_, commit, grown⟩
  · rw [silent]
    exact runs
  · have stays :
        nextGrant lease.task.id
            (granted lease.task.id state.store.history) commit =
          granted lease.task.id state.store.history →
        ∃ grant,
          granted lease.task.id next.store.history = some grant ∧
            grant.session = lease.claim := by
      intro same
      rw [grown, granted_concat, same]
      exact runs
    apply stays
    rcases left commit grown with ⟨unrecorded, inTime⟩
    cases RunsUnder.affects runs kept.tracked.reached kept.named called
        moves grown with
    | spared silent same => exact nextGrant_unwritten silent
    | renewed worker row now beats found wrote stored =>
        rcases RunsUnder.owned runs kept.tracked.reached kept.named called
          with ⟨other, locker, current, owned, _⟩
        cases Option.some.inj (found.symm.trans current)
        have running :
            ((Change.heartbeat worker).set now row).status = .running :=
          ownedBy_running owned
        simp only [nextGrant, wrote, beats, running, if_true]
    | recorded records ended => exact (unrecorded records).elim
    | reaped limit reaper move reaps stored stale logged ended =>
        exact nextGrant_unwritten
          (kept.spared moment runs called grown reaps inTime).1

/--
A healthy execution of a pool with an accepted configuration is never reaped,
if twice the delay fits between the interval and the threshold and no
heartbeat that is stamped before the claim is committed under it.
-/
theorem healthy_never_reaped
    {format : Int → GoString}
    (valid : config.validate format = .ok ())
    (fits : config.heartbeatInterval + 2 * delay ≤ config.stuckThreshold)
    (followed : runTo platform run = some final)
    (received : Received final.store lease.claim lease.workerID lease.task)
    (healthy : lease.Healthy platform delay config run)
    (undisturbed : lease.Undisturbed platform run) :
    lease.NeverReaped platform config run final := by
  rcases WorkerConfig.validate_intervals valid with
    ⟨positive, shorter, _⟩
  have kept :
      ∀ {earlier later state}, run = earlier ++ later →
        runTo platform earlier = some state →
          lease.Kept platform delay config run earlier state :=
    fun split reached =>
      healthy.kept undisturbed fits positive shorter followed received
        split reached
  have called :
      ∀ {earlier later state}, run = earlier ++ later →
        runTo platform earlier = some state → lease.Runs state →
          Called state.store lease.claim (.claim lease.workerID) :=
    fun split reached runs =>
      runs.called (kept split reached).tracked split reached followed received
  constructor
  · intro earlier timed state next commit threshold reaperID moment runs
      grown calls inTime
    rcases moment.occurs with ⟨later, split⟩
    exact ((kept split moment.reached).spared moment runs
      (called split moment.reached runs) grown calls inTime).2
  · intro earlier later state split reached runs left
    have whole : run = earlier ++ later ++ [] := by
      rw [List.append_nil]
      exact split
    have ends : lease.Runs final := by
      refine runTo_induction_from (fun _ => lease.Runs) reached runs ?_
        whole (split ▸ followed)
      intro before timed current next moment held
      rcases moment.occurs with ⟨rest, here⟩
      exact (kept here moment.reached).runs_step moment held
        (called here moment.reached held)
        (fun commit => left before timed current next commit moment)
    refine ⟨ends, ?_⟩
    have state := kept (List.append_nil run).symm followed
    exact ends.owned state.tracked.reached state.named
      (called (List.append_nil run).symm followed ends)

end Safety

/-! ## A healthy run -/

/-- The steps happen at one time. -/
def during (time : Int) (steps : List Step) : List TimedStep :=
  steps.map fun step => ⟨time, step⟩

/-- A heartbeat every two seconds, and a threshold of five. -/
def beatingConfig : WorkerConfig where
  workerPrefix := defaultPrefix
  workerCount := 1
  pollInterval := second
  heartbeatInterval := 2 * second
  handlerTimeout := 300 * second
  stuckThreshold := 5 * second
  reaperInterval := 5 * second
  baseBackoff := second
  maxBackoff := 300 * second
  metricsPort := 9090

/-- The claim is made at zero, and its ticker starts a second later. -/
def beatingLease : Lease where
  claim := 1
  workerID := workerName defaultPrefix 0
  task := firstAttempt
  claimedAt := 0
  ticker := ⟨second, 2 * second, by decide⟩
  deadline := 301 * second

/-- The claim and the first tick, at three seconds. -/
def claimedRun : List TimedStep :=
  during 0
      ([.call (.create (emailTask []))] ++ answers 0 4 0 ++
        [.start
            { heartbeatInterval := 2000000, staleThreshold := 5000000 }
            fun _ => true,
          .work 0 .claim] ++
        answers 1 5 0) ++
    during second [.work 0 .receive] ++
    during (3 * second) [.work 0 .tick]

/-- The heartbeat of the tick is committed after another second. -/
def beatingStep : TimedStep :=
  ⟨4 * second, .serve 2 (calm 7 3000000 0)⟩

/-- A reaper runs when the claim itself is older than the threshold. -/
def reaperSteps : List TimedStep :=
  during (6 * second) ([.work 0 .beaten, .reap 0] ++ answers 3 5 6000000)

def beatingRun : List TimedStep :=
  claimedRun ++ [beatingStep] ++ reaperSteps

/-- The call of the session is the heartbeat of the execution. -/
def Lease.sentHeartbeat (lease : Lease) (state : State) (index : Nat) :
    Bool :=
  match (state.store.sessions[index]?).map Session.call with
  | some (.heartbeat id name) =>
      id = lease.task.id ∧ name = lease.workerID
  | _ => false

/-- The claim has returned the task. -/
def Lease.hasReceived (lease : Lease) (state : State) : Bool :=
  match state.store.sessions[lease.claim]? with
  | some ⟨.claim name, some (.done (.task (.ok task))), _, _, _, _⟩ =>
      name = lease.workerID ∧ task = lease.task
  | _ => false

/-- What is asked of a step of a healthy run. -/
def Lease.check (lease : Lease) (delay : Int) (run : List TimedStep)
    (timed : TimedStep) (state next : State) : Bool :=
  ((granted lease.task.id next.store.history).all fun grant =>
      grant.session = lease.claim →
        grant.row.lockedAt = some lease.claimedAt) &&
    (timed.time ≤ lease.ticker.start || lease.hasReceived state) &&
    (state.workers.all fun worker => worker.registry lease.task.type) &&
    match timed.step with
    | .serve index answer =>
        !lease.sentHeartbeat state index ||
          (sentAt echoPlatform index {} run).any fun tick =>
            tick ≤ nanoseconds answer.clock ∧ timed.time ≤ tick + delay
    | _ => true

variable {lease : Lease}

theorem Lease.sentHeartbeat_of_called
    {state : State}
    (called :
      Called state.store index (.heartbeat lease.task.id lease.workerID)) :
    lease.sentHeartbeat state index = true := by
  rcases called with ⟨session, found, equal⟩
  simp [Lease.sentHeartbeat, found, equal]

theorem Lease.called_of_sentHeartbeat
    {state : State} (sent : lease.sentHeartbeat state index = true) :
    Called state.store index (.heartbeat lease.task.id lease.workerID) := by
  unfold Lease.sentHeartbeat at sent
  split at sent
  · rename_i id name located
    rcases Option.map_eq_some_iff.mp located with ⟨session, found, equal⟩
    rw [decide_eq_true_eq] at sent
    rw [sent.1, sent.2] at equal
    exact ⟨session, found, equal⟩
  · cases sent

theorem Lease.received_of_hasReceived
    {state : State} (has : lease.hasReceived state = true) :
    Received state.store lease.claim lease.workerID lease.task := by
  unfold Lease.hasReceived at has
  split at has
  · rename_i name task tx commits counts faulted found
    rw [decide_eq_true_eq] at has
    rw [has.1, has.2] at found
    exact ⟨_, found, rfl, rfl⟩
  · cases has

/-- The answer is not stamped after it is given. -/
def TimedStep.stamped (timed : TimedStep) : Bool :=
  match timed.step with
  | .serve _ answer => nanoseconds answer.clock ≤ timed.time
  | _ => true

theorem oneClock_of_stamped {run : List TimedStep}
    (ordered : run.Pairwise fun first second => first.time ≤ second.time)
    (stamped : run.all TimedStep.stamped = true) : OneClock run where
  ordered := ordered
  stamped := by
    intro timed member index answer serves
    have checked := List.all_eq_true.mp stamped timed member
    simpa only [TimedStep.stamped, serves, decide_eq_true_eq] using checked

/-- A run that passes the check is healthy if no heartbeat is overdue. -/
theorem Lease.healthy_of_passes
    {delay : Int} {config : WorkerConfig} {run : List TimedStep}
    (clock : OneClock run)
    (paced : lease.ticker.interval = config.heartbeatInterval)
    (prompt : lease.ticker.start ≤ nanoseconds lease.claimedAt + delay)
    (passed : passes echoPlatform (lease.check delay run) {} run = true)
    (beaten :
      ∀ earlier timed state next,
        Moment echoPlatform run earlier timed state next →
          ∀ number, 1 ≤ number →
            lease.ticker.tick number + delay < timed.time →
              lease.Beaten echoPlatform delay earlier number) :
    lease.Healthy echoPlatform delay config run where
  clock := clock
  paced := paced
  prompt := prompt
  claimed := by
    intro earlier timed state next moment grant known mine
    have checked := moment.passed passed
    simp only [Lease.check, Bool.and_eq_true, known, Option.all_some,
      decide_eq_true_eq] at checked
    exact checked.1.1.1 mine
  received := by
    intro earlier timed state next moment late
    have checked := moment.passed passed
    simp only [Lease.check, Bool.and_eq_true, Bool.or_eq_true,
      decide_eq_true_eq] at checked
    rcases checked.1.1.2 with early | has
    · exact absurd early (not_le.mpr late)
    · exact Lease.received_of_hasReceived has
  registered := by
    intro earlier timed state next moment worker member _ _
    have checked := moment.passed passed
    simp only [Lease.check, Bool.and_eq_true] at checked
    exact List.all_eq_true.mp checked.1.2 worker member
  beaten := by
    intro earlier timed state next moment _ _ _ number positive _ overdue
    exact beaten earlier timed state next moment number positive overdue
  inTime := by
    rintro earlier timed state next moment _ index answer serves
      ⟨other, reply, equal, _, _, sent⟩
    cases serves.symm.trans equal
    have checked := moment.passed passed
    simp only [Lease.check, Bool.and_eq_true, serves, Bool.or_eq_true,
      Bool.not_eq_true', Lease.sentHeartbeat_of_called sent,
      Bool.true_eq_false, false_or, Option.any_eq_true,
      decide_eq_true_eq] at checked
    exact checked.2

theorem Lease.Beaten.append
    {platform : Platform} {delay : Int}
    (beaten : lease.Beaten platform delay earlier number)
    (more : List TimedStep) :
    lease.Beaten platform delay (earlier ++ more) number := by
  rcases beaten with
    ⟨before, timed, state, next, clock, moment, rest⟩
  rcases moment.occurs with ⟨later, split⟩
  refine ⟨before, timed, state, next, clock,
    ⟨⟨later ++ more, ?_⟩, moment.reached, moment.stepped⟩, rest⟩
  rw [split, List.append_assoc, List.cons_append]

theorem beatingRun_beaten :
    beatingLease.Beaten echoPlatform second
      (claimedRun ++ [beatingStep]) 1 := by
  have served :
      (runTo echoPlatform claimedRun).any (fun state =>
        beatingLease.sentHeartbeat state 2 &&
          (state.step echoPlatform beatingStep.step).isSome) = true := by
    decide +kernel
  simp only [Option.any_eq_true, Bool.and_eq_true,
    Option.isSome_iff_exists] at served
  rcases served with ⟨state, reached, sent, next, stepped⟩
  exact ⟨claimedRun, beatingStep, state, next, 3000000,
    ⟨⟨[], rfl⟩, reached, stepped⟩,
    ⟨2, _, rfl, rfl, rfl, Lease.called_of_sentHeartbeat sent⟩,
    by decide, by decide⟩

theorem beatingRun_late
    {timed : TimedStep} (split : beatingRun = earlier ++ timed :: later)
    (late : 4 * second < timed.time) :
    ∃ more, earlier = claimedRun ++ [beatingStep] ++ more := by
  have early :
      ∀ other ∈ claimedRun ++ [beatingStep], other.time ≤ 4 * second := by
    decide +kernel
  rcases List.append_eq_append_iff.mp split with
    ⟨more, equal, _⟩ | ⟨more, equal, rest⟩
  · exact ⟨more, equal⟩
  · cases more with
    | nil => exact ⟨[], by simpa using equal.symm⟩
    | cons first others =>
        cases (List.cons.inj rest).1
        have bound := early timed (by rw [equal]; simp)
        omega

theorem beatingRun_healthy :
    beatingLease.Healthy echoPlatform second beatingConfig
      beatingRun := by
  refine Lease.healthy_of_passes
    (oneClock_of_stamped (by decide +kernel) (by decide +kernel)) rfl
    (by decide) (by decide +kernel) ?_
  intro earlier timed state next moment number positive overdue
  have ends : ∀ other ∈ beatingRun, other.time ≤ 6 * second := by
    decide +kernel
  have last := ends timed moment.mem
  have unfolded :
      beatingLease.ticker.tick number = second + number * (2 * second) := rfl
  have first : number = 1 := by
    rw [unfolded] at overdue
    simp only [second] at overdue last
    omega
  subst first
  rcases moment.occurs with ⟨later, split⟩
  rcases beatingRun_late split (by
    rw [unfolded] at overdue
    simp only [second] at overdue ⊢
    omega) with ⟨more, equal⟩
  rw [equal]
  exact beatingRun_beaten.append more

/-- Every answer of the server is stamped after the claim at zero. -/
theorem beatingRun_undisturbed :
    beatingLease.Undisturbed echoPlatform beatingRun := by
  rintro earlier timed state next moment _ clock
    ⟨index, answer, serves, same, _⟩
  have stamped :
      beatingRun.all (fun timed =>
        match timed.step with
        | .serve _ answer => 0 ≤ answer.clock
        | _ => true) = true := by
    decide +kernel
  have checked := List.all_eq_true.mp stamped timed moment.mem
  simp only [serves, decide_eq_true_eq] at checked
  rw [← same]
  exact checked

theorem beatingRun_never_reaped :
    ∃ final,
      runTo echoPlatform beatingRun = some final ∧
        beatingLease.NeverReaped echoPlatform beatingConfig beatingRun
          final := by
  have ends :
      (runTo echoPlatform beatingRun).any
        beatingLease.hasReceived = true := by
    decide +kernel
  simp only [Option.any_eq_true] at ends
  rcases ends with ⟨final, followed, has⟩
  have valid : beatingConfig.validate (fun _ => []) = .ok () := by
    decide
  have fits :
      beatingConfig.heartbeatInterval + 2 * second ≤
        beatingConfig.stuckThreshold := by
    decide
  exact ⟨final, followed, healthy_never_reaped valid fits followed
    (Lease.received_of_hasReceived has) beatingRun_healthy
    beatingRun_undisturbed⟩

/-! ## A heartbeat of the execution before -/

/-- The second claim of the task, and the ticker of its execution. -/
def secondLease : Lease where
  claim := 4
  workerID := workerName defaultPrefix 0
  task := { firstAttempt with attempts := 2 }
  claimedAt := 2500000
  ticker := ⟨4 * second, 2 * second, by decide⟩
  deadline := 304 * second

/--
The first tick of the first execution is at two seconds.  Its heartbeat is
still under way when the handler fails, the task becomes `PENDING` and the
worker claims it again.
-/
def reclaimedRun : List TimedStep :=
  during 0
      ([.call (.create (emailTask []))] ++ answers 0 4 0 ++
        [.start
            { heartbeatInterval := 2000000, staleThreshold := 5000000 }
            fun _ => true,
          .work 0 .claim] ++
        answers 1 5 0 ++ [.work 0 .receive]) ++
    during (2 * second)
      ([.work 0 .tick,
          .work 0 (.finish (.returned (some (ascii "boom"))) 2400000 2000)] ++
        answers 3 6 2000000 ++ [.work 0 .settle]) ++
    during 2500000000 ([.work 0 .claim] ++ answers 4 5 2500000)

/-- The heartbeat is committed under the second claim, and a reaper runs. -/
def strayRun : List TimedStep :=
  reclaimedRun ++
    during 3400000000 [.serve 2 (calm 7 2000000 0)] ++
    during (4 * second) [.work 0 .receive] ++
    during (6 * second) [.work 0 .tick] ++
    during 7200000000 ([.reap 0] ++ answers 6 5 7200000)

/-- The reaper commits. -/
def strayReap : TimedStep :=
  ⟨7200000000, .serve 6 (calm 7 7200000 0)⟩

/-- The step commits a reaper that takes the task away from the claim. -/
def Lease.reaps (lease : Lease) (threshold : Time) (state next : State) :
    Bool :=
  next.store.history.length = state.store.history.length + 1 ∧
    (next.store.history.getLast?.any fun commit =>
      match commit.call with
      | .requeueStaleRunning limit _ => limit = threshold
      | _ => false) = true ∧
    (granted lease.task.id state.store.history).map Grant.session =
      some lease.claim ∧
    (state.store.db.find lease.task.id).map TaskRecord.status =
      some .running ∧
    (next.store.db.find lease.task.id).map TaskRecord.status = some .pending

theorem Lease.reaps_commit
    {threshold : Time} {platform : Platform} {state next : State}
    {step : Step} (stepped : state.step platform step = some next)
    (reaped : lease.reaps threshold state next = true) :
    ∃ commit reaperID,
      next.store.history = state.store.history ++ [commit] ∧
        commit.call = .requeueStaleRunning threshold reaperID ∧
        lease.Runs state ∧
        next.store.db.view lease.task.id ≠
          state.store.db.view lease.task.id := by
  simp only [Lease.reaps, decide_eq_true_eq] at reaped
  rcases reaped with ⟨longer, last, held, running, pending⟩
  rcases (State.step_moves stepped).history_cases with
    silent | ⟨_, commit, grown⟩
  · rw [silent] at longer
    omega
  · rw [grown, List.getLast?_concat, Option.any_some] at last
    rcases Option.map_eq_some_iff.mp held with ⟨grant, known, mine⟩
    have moved :
        next.store.db.view lease.task.id ≠
          state.store.db.view lease.task.id := by
      intro same
      have rows := congrArg TaskView.row same
      simp only [Database.view] at rows
      rw [rows, running] at pending
      cases pending
    split at last
    · rename_i limit reaperID calls
      rw [decide_eq_true_eq] at last
      subst limit
      exact ⟨commit, reaperID, grown, calls, ⟨grant, known, mine⟩, moved⟩
    · cases last

/-- The step is before the deadline and before the execution has ended. -/
def Lease.unfinished (lease : Lease) (timed : TimedStep)
    (state _next : State) : Bool :=
  (match timed.step with
    | .serve _ answer => nanoseconds answer.clock < lease.deadline
    | _ => true) &&
    state.events.all fun
      | .persisted claim _ _ => claim ≠ lease.claim
      | _ => true

theorem Lease.startsInTime_of_passes
    {platform : Platform} {run : List TimedStep}
    (passed : passes platform lease.unfinished {} run = true)
    (index : Nat) : lease.StartsInTime platform run index := by
  rintro earlier timed state next clock moment ⟨answer, _, _, serves, same, _⟩
  have checked := moment.passed passed
  simp only [Lease.unfinished, serves, Bool.and_eq_true,
    decide_eq_true_eq, List.all_eq_true] at checked
  rw [← same]
  refine ⟨checked.1, ?_⟩
  rintro ⟨session, persisted, _⟩
  have other := checked.2 _ persisted
  simp at other

/-- The heartbeat dates the lock back, and a healthy task is requeued. -/
theorem strayRun_reaped :
    beatingConfig.validate (fun _ => []) = .ok () ∧
      beatingConfig.heartbeatInterval + 2 * 1500000000 ≤
        beatingConfig.stuckThreshold ∧
      1500000000 < beatingConfig.heartbeatInterval ∧
      ∃ final,
        runTo echoPlatform (strayRun ++ [strayReap]) = some final ∧
          Received final.store secondLease.claim secondLease.workerID
            secondLease.task ∧
          secondLease.Healthy echoPlatform 1500000000 beatingConfig
            (strayRun ++ [strayReap]) ∧
          ¬ secondLease.NeverReaped echoPlatform beatingConfig
            (strayRun ++ [strayReap]) final := by
  refine ⟨by decide, by decide, by decide, ?_⟩
  have healthy :
      secondLease.Healthy echoPlatform 1500000000 beatingConfig
        (strayRun ++ [strayReap]) := by
    refine Lease.healthy_of_passes
      (oneClock_of_stamped (by decide +kernel) (by decide +kernel)) rfl
      (by decide) (by decide +kernel) ?_
    intro earlier timed state next moment number positive overdue
    have ends :
        ∀ other ∈ strayRun ++ [strayReap], other.time ≤ 7200000000 := by
      decide +kernel
    have last := ends timed moment.mem
    have unfolded :
        secondLease.ticker.tick number =
          4 * second + number * (2 * second) := rfl
    rw [unfolded] at overdue
    simp only [second] at overdue
    omega
  have outcome :
      (runTo echoPlatform strayRun).any (fun state =>
        (state.step echoPlatform strayReap.step).any fun next =>
          secondLease.reaps 5000000 state next &&
            secondLease.hasReceived next) = true := by
    decide +kernel
  simp only [Option.any_eq_true, Bool.and_eq_true] at outcome
  rcases outcome with ⟨state, reached, next, stepped, reaped, has⟩
  have followed :
      runTo echoPlatform (strayRun ++ [strayReap]) = some next := by
    rw [runTo_concat, reached]
    exact stepped
  refine ⟨next, followed, Lease.received_of_hasReceived has, healthy, ?_⟩
  intro never
  rcases Lease.reaps_commit stepped reaped with
    ⟨commit, reaperID, grown, calls, runs, moved⟩
  have inTime :
      secondLease.ReapsInTime echoPlatform beatingConfig
        (strayRun ++ [strayReap]) commit := by
    intro threshold reaper called
    cases calls.symm.trans called
    exact ⟨by decide,
      Lease.startsInTime_of_passes (by decide +kernel) commit.session⟩
  exact moved (never.unchanged strayRun strayReap state next commit
    5000000 reaperID ⟨⟨[], rfl⟩, reached, stepped⟩ runs grown calls
    inTime)

end Dhara.Pool
