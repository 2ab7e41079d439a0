import Dhara.Environment.Worker
import Dhara.Pool.Heartbeats
import Dhara.Ticker

/-!
# Leases of tasks in timed runs

The steps of the system are given times, in nanoseconds, on the clock that
also stamps the rows of the database.  An execution is healthy if its ticker
starts at most a delay after the timestamp of the claim, and if the heartbeat
of every tick is stamped after the tick and committed at most the delay after
it.

What is kept at every step speaks of the lock, of the ticks whose heartbeats
have been committed, and of the transactions that are open, because a reaper
compares the lock that it finds with the time at which its transaction began.
-/

namespace Dhara.Pool

open Dhara.Store Dhara.Transaction
open Dhara.Environment (WorkerConfig)

variable {commit : StoreCommit} {clock : Time} {number index : Nat}

/-! ## Timed runs -/

/-- A step and when it happens, in nanoseconds. -/
structure TimedStep where
  time : Int
  step : Step

/-- A timestamp of the database, which counts microseconds. -/
def nanoseconds (stamp : Time) : Int :=
  1000 * stamp

/-- The state after a timed run. -/
def runTo (platform : Platform) (run : List TimedStep) : Option State :=
  State.follow platform {} (run.map TimedStep.step)

/-- A step of the run, with the steps before it and the states around it. -/
structure Moment (platform : Platform) (run earlier : List TimedStep)
    (timed : TimedStep) (state next : State) : Prop where
  occurs : ∃ later, run = earlier ++ timed :: later
  reached : runTo platform earlier = some state
  stepped : state.step platform timed.step = some next

/-- The steps are in order, and no answer is stamped after it is given. -/
structure OneClock (run : List TimedStep) : Prop where
  ordered : run.Pairwise fun first second => first.time ≤ second.time
  stamped :
    ∀ timed ∈ run, ∀ index answer, timed.step = .serve index answer →
      nanoseconds answer.clock ≤ timed.time

variable {later : List TimedStep}

section Runs

variable
    {platform : Platform} {run earlier : List TimedStep}
    {timed : TimedStep} {state next : State}

theorem State.follow_append
    (start : State) (first second : List Step) :
    start.follow platform (first ++ second) =
      (start.follow platform first).bind
        fun state => state.follow platform second := by
  induction first generalizing start with
  | nil => rfl
  | cons step rest induction =>
      simp only [List.cons_append, State.follow, Option.bind_assoc]
      congr 1
      funext next
      exact induction next

theorem runTo_concat :
    runTo platform (earlier ++ [timed]) =
      (runTo platform earlier).bind
        fun state => state.step platform timed.step := by
  simp only [runTo, List.map_append, State.follow_append]
  congr 1
  funext state
  simp [State.follow]

/-- What every later step keeps holds after every longer part of the run. -/
theorem runTo_induction_from
    (Holds : List TimedStep → State → Prop)
    (reached : runTo platform earlier = some state)
    (start : Holds earlier state)
    (kept :
      ∀ before timed current next,
        Moment platform run (earlier ++ before) timed current next →
          Holds (earlier ++ before) current →
            Holds (earlier ++ before ++ [timed]) next)
    {before rest : List TimedStep} {current : State}
    (split : run = earlier ++ before ++ rest)
    (arrived : runTo platform (earlier ++ before) = some current) :
    Holds (earlier ++ before) current := by
  induction before using List.reverseRecOn generalizing rest current with
  | nil =>
      rw [List.append_nil] at arrived ⊢
      cases Option.some.inj (arrived.symm.trans reached)
      exact start
  | append_singleton before timed induction =>
      rw [← List.append_assoc] at split arrived ⊢
      rw [runTo_concat] at arrived
      rcases Option.bind_eq_some_iff.mp arrived with
        ⟨middle, there, stepped⟩
      rw [List.append_assoc, List.singleton_append] at split
      exact kept before timed middle current
        ⟨⟨rest, split⟩, there, stepped⟩ (induction split there)

/-- What every step keeps holds after every part of the run. -/
theorem runTo_induction
    {Holds : List TimedStep → State → Prop} (start : Holds [] {})
    (kept :
      ∀ earlier timed state next,
        Moment platform run earlier timed state next →
          Holds earlier state → Holds (earlier ++ [timed]) next)
    (split : run = earlier ++ later)
    (reached : runTo platform earlier = some state) :
    Holds earlier state := by
  have whole : run = [] ++ earlier ++ later := split
  have begun : runTo platform [] = some {} := rfl
  exact runTo_induction_from Holds begun start
    (fun before timed current next => kept before timed current next)
    whole reached

/-- A moment of a longer run is its last step or a moment of the rest. -/
theorem Moment.concat_cases
    {before : List TimedStep} {last : TimedStep}
    (moment : Moment platform (before ++ [last]) earlier timed state next) :
    Moment platform before earlier timed state next ∨
      earlier = before ∧ timed = last := by
  rcases moment.occurs with ⟨later, split⟩
  rcases List.eq_nil_or_concat later with nothing | ⟨rest, final, equal⟩
  · subst later
    right
    exact ⟨(List.append_inj' split rfl).1.symm,
      (List.cons.inj (List.append_inj' split rfl).2).1.symm⟩
  · subst later
    left
    rw [List.concat_eq_append, ← List.cons_append, ← List.append_assoc]
      at split
    exact ⟨⟨rest, (List.append_inj' split rfl).1⟩, moment.reached,
      moment.stepped⟩

theorem OneClock.earlier_le
    (clock : OneClock run)
    (moment : Moment platform run earlier timed state next) :
    ∀ other ∈ earlier, other.time ≤ timed.time := by
  intro other member
  rcases moment.occurs with ⟨later, split⟩
  have ordered := clock.ordered
  rw [split, List.pairwise_append] at ordered
  exact ordered.2.2 other member timed (by simp)

theorem Moment.mem
    (moment : Moment platform run earlier timed state next) :
    timed ∈ run := by
  rcases moment.occurs with ⟨later, split⟩
  rw [split]
  simp

/-- When the call of a session was sent. -/
def sentAt (platform : Platform) (index : Nat) :
    State → List TimedStep → Option Int
  | _, [] => none
  | state, timed :: rest =>
      (state.step platform timed.step).bind fun next =>
        if state.store.sessions.length ≤ index ∧
            index < next.store.sessions.length then
          some timed.time
        else
          sentAt platform index next rest

/-- The check passes at every step of the run. -/
def passes (platform : Platform)
    (check : TimedStep → State → State → Bool) :
    State → List TimedStep → Bool
  | _, [] => true
  | state, timed :: rest =>
      match state.step platform timed.step with
      | none => true
      | some next =>
          check timed state next && passes platform check next rest

theorem Moment.passed
    (moment : Moment platform run earlier timed state next)
    {check : TimedStep → State → State → Bool}
    (passed : passes platform check {} run = true) :
    check timed state next = true := by
  rcases moment with ⟨⟨later, split⟩, reached, stepped⟩
  subst run
  unfold runTo at reached
  generalize ({} : State) = start at reached passed
  induction earlier generalizing start with
  | nil =>
      cases reached
      rw [List.nil_append, passes, stepped, Bool.and_eq_true] at passed
      exact passed.1
  | cons first rest induction =>
      rcases Option.bind_eq_some_iff.mp reached with
        ⟨second, begun, continued⟩
      rw [List.cons_append, passes, begun, Bool.and_eq_true] at passed
      exact induction second continued passed.2

end Runs

/-! ## Healthy executions -/

/--
The execution of a claim: the worker and the task, the timestamp of the claim,
the ticker of the heartbeats, and the time at which the context of the handler
ends.
-/
structure Lease where
  claim : Nat
  workerID : GoString
  task : TaskRow
  claimedAt : Time
  ticker : Ticker
  deadline : Int

section Leases

variable (platform : Platform) (delay : Int) (lease : Lease)

/-- The task runs under the claim. -/
def Lease.Runs (state : State) : Prop :=
  RunsUnder state.store.history lease.task.id lease.claim

/-- The write that ends the execution has returned. -/
def Lease.Returned (state : State) : Prop :=
  ∃ session,
    .persisted lease.claim lease.task session ∈ state.events ∧
      (callResult state.store session).isSome = true

/-- The goroutine of the heartbeats has stopped by itself. -/
def Lease.Stopped (state : State) : Prop :=
  ∃ worker ∈ state.workers,
    worker.phase.beating = some (lease.claim, lease.task, .stopped)

/-- The server answers a heartbeat without a fault, at the clock. -/
def Lease.Beats (state : State) (clock : Time) (step : Step) : Prop :=
  ∃ index answer,
    step = .serve index answer ∧ answer.clock = clock ∧
      answer.fault = none ∧
      Called state.store index (.heartbeat lease.task.id lease.workerID)

/-- The heartbeat of the tick has been committed in time. -/
def Lease.Beaten (earlier : List TimedStep) (number : Nat) : Prop :=
  ∃ before timed state next clock,
    Moment platform earlier before timed state next ∧
      lease.Beats state clock timed.step ∧
      lease.ticker.tick number ≤ nanoseconds clock ∧
      timed.time ≤ lease.ticker.tick number + delay

/--
The transaction of the call starts before the handler has to end and before
the execution has ended.
-/
def Lease.StartsInTime (run : List TimedStep) (index : Nat) : Prop :=
  ∀ earlier timed state next clock,
    Moment platform run earlier timed state next →
    Begins state.store index clock timed.step →
      nanoseconds clock < lease.deadline ∧ ¬ lease.Returned state

/-- The execution is healthy. -/
structure Lease.Healthy (config : WorkerConfig) (run : List TimedStep) :
    Prop where
  clock : OneClock run
  paced : lease.ticker.interval = config.heartbeatInterval
  /-- `claimedAt` is the timestamp of the claim. -/
  claimed :
    ∀ earlier timed state next,
      Moment platform run earlier timed state next →
        ∀ grant, granted lease.task.id next.store.history = some grant →
          grant.session = lease.claim →
            grant.row.lockedAt = some lease.claimedAt
  prompt : lease.ticker.start ≤ nanoseconds lease.claimedAt + delay
  /-- The ticker starts when the claim has returned the task. -/
  received :
    ∀ earlier timed state next,
      Moment platform run earlier timed state next →
        lease.ticker.start < timed.time →
          Received state.store lease.claim lease.workerID lease.task
  /-- The worker has a handler for the task. -/
  registered :
    ∀ earlier timed state next,
      Moment platform run earlier timed state next →
        ∀ worker ∈ state.workers, ∀ heartbeat,
          worker.phase.beating =
              some (lease.claim, lease.task, heartbeat) →
            worker.registry lease.task.type = true
  /-- While the goroutine runs, the heartbeat of every tick is committed. -/
  beaten :
    ∀ earlier timed state next,
      Moment platform run earlier timed state next →
        lease.Runs state → ¬ lease.Returned state →
          ¬ lease.Stopped state →
            ∀ number, 1 ≤ number →
              lease.ticker.tick number < lease.deadline →
              lease.ticker.tick number + delay < timed.time →
                lease.Beaten platform delay earlier number
  /--
  Every heartbeat in the name of the worker is stamped after the tick at which
  it was sent, and committed at most the delay after the tick.
  -/
  inTime :
    ∀ earlier timed state next,
      Moment platform run earlier timed state next →
        lease.Runs state →
          ∀ index answer, timed.step = .serve index answer →
            lease.Beats state answer.clock timed.step →
              ∃ tick,
                sentAt platform index {} run = some tick ∧
                  tick ≤ nanoseconds answer.clock ∧
                  timed.time ≤ tick + delay

/-- No heartbeat that is stamped before the claim is committed under it. -/
def Lease.Undisturbed (run : List TimedStep) : Prop :=
  ∀ earlier timed state next,
    Moment platform run earlier timed state next →
      lease.Runs state →
        ∀ clock, lease.Beats state clock timed.step → lease.claimedAt ≤ clock

end Leases

/-! ## The row of the task -/

section Rows

variable
    {platform : Platform} {lease : Lease} {state next : State}
    {step : Step}

/-- A claim stamps the row with the start of its transaction. -/
theorem State.step_claimed
    (stepped : state.step platform step = some next)
    (reached : Reached platform state.store) {id : TaskId} {name : GoString}
    {row : TaskRecord}
    (grown : next.store.history = state.store.history ++ [commit])
    (claims : commit.call = .claim name)
    (wrote : written id commit.writes = some row) :
    next.store.db.find id = some row ∧
      ∃ session tx,
        state.store.sessions[commit.session]? = some session ∧
          session.tx = some tx ∧ row.lockedAt = some tx.startedAt := by
  rcases (State.step_moves stepped).published reached grown with
    ⟨_, _, lawful, applied, filled⟩
  rw [claims] at lawful
  constructor
  · have view := lawful.viewStep id
    rw [wrote, ← applied] at view
    rcases view.of_written (fun _ _ => nofun) with
      ⟨move, _, after, equal, _⟩
    rw [Database.view_row, equal] at after
    exact after
  · rcases lawful.moves filled rfl (fun _ _ => nofun)
        (fun _ _ => nofun) with ⟨move, writes, _, performs⟩
    have logged : .insertLog move.log ∈ commit.writes := by
      rw [writes]
      simp [writesOf]
    have same : move.after = row := by
      rw [writes] at wrote
      by_cases about : move.row.id = id
      · rw [← about, written_writesOf (by simp) (by simp)] at wrote
        exact Option.some.inj wrote
      · have silent : written id (writesOf [move]) = none := by
          apply written_eq_none
          apply writesOf_task
          simpa using about
        rw [silent] at wrote
        cases wrote
    rcases State.step_logged stepped reached grown logged with
      ⟨session, tx, located, opened, stamped⟩
    refine ⟨session, tx, located, opened, ?_⟩
    have kind := performs.makes
    cases change : move.change with
    | claim worker =>
        rw [← same, Move.after, change, stamped]
        rfl
    | _ =>
        rw [change] at kind
        cases kind

/-- A heartbeat without a fault renews the lock. -/
theorem Lease.Beats.renews
    (beats : lease.Beats state clock step) (runs : lease.Runs state)
    (reached : Reached platform state.store) (named : WellNamed state)
    (called : Called state.store lease.claim (.claim lease.workerID))
    (stepped : state.step platform step = some next) :
    ∃ row,
      next.store.db.find lease.task.id = some row ∧
        row.lockedAt = some clock := by
  have moves := State.step_moves stepped
  rcases beats with ⟨index, answer, serves, sameClock, quiet, sent⟩
  subst step
  subst clock
  rcases State.serve_heartbeat reached stepped sent with
    ⟨result, writes, answered, grown, _⟩
  rcases runs.beat_cases reached named called answered with
    ⟨faulty, _⟩ | ⟨_, _, worker, row, found, equal⟩
  · exact (faulty quiet).elim
  · subst writes
    have wrote :
        written lease.task.id
            [.updateTask ((Change.heartbeat worker).set answer.clock row)] =
          some ((Change.heartbeat worker).set answer.clock row) := by
      simp [written, Change.set, Database.find_id found]
    cases runs.affects reached named called moves grown with
    | spared silent same => cases silent.symm.trans wrote
    | renewed other before now calls stored wrote' later =>
        refine ⟨_, later, ?_⟩
        rw [← Option.some.inj (wrote.symm.trans wrote')]
        rfl
    | recorded records ended => exact records.elim
    | reaped threshold reaperID move calls stored stale logged ended =>
        cases calls

/-- Only a heartbeat changes the row while the task runs. -/
theorem Lease.Runs.row_cases
    (runs : lease.Runs state) (later : lease.Runs next)
    (reached : Reached platform state.store) (named : WellNamed state)
    (called : Called state.store lease.claim (.claim lease.workerID))
    (stepped : state.step platform step = some next) :
    (∃ clock, lease.Beats state clock step) ∨
      next.store.db.find lease.task.id =
        state.store.db.find lease.task.id := by
  have moves := State.step_moves stepped
  rcases later.owned (moves.reached reached) (named.keep moves)
      (moves.called called) with ⟨row, locker, found, owned, _⟩
  have running := ownedBy_running owned
  rcases moves.history_cases with silent | ⟨_, commit, grown⟩
  · right
    rw [moves.silent reached silent]
  · cases runs.affects reached named called moves grown with
    | spared silent same =>
        right
        simpa only [Database.view_row] using congrArg TaskView.row same
    | renewed worker before now calls held wrote stored =>
        left
        rcases State.step_served stepped grown with ⟨answer, serves⟩
        subst step
        rcases moves.published reached grown with ⟨_, sent, _⟩
        rw [calls] at sent
        rcases State.serve_heartbeat reached stepped sent with
          ⟨result, writes, answered, recorded, _⟩
        rcases runs.beat_cases reached named called answered with
          ⟨_, nothing, _⟩ | ⟨quiet, _⟩
        · subst writes
          rw [grown] at recorded
          simp [recordCommit] at recorded
        · exact ⟨_, _, answer, rfl, rfl, quiet, sent⟩
    | recorded records ended => exact (ended row found running).elim
    | reaped threshold reaperID move calls stored stale logged ended =>
        exact (ended row found running).elim

end Rows

/-! ## The age of the lock -/

section Ages

variable (platform : Platform) (delay : Int) (config : WorkerConfig)
    (lease : Lease) (run : List TimedStep)

/--
The lock is recent enough for the reapers whose transactions are open, and for
those that may start now.
-/
structure Lease.Fresh (earlier : List TimedStep) (state : State)
    (locked : Time) : Prop where
  started : nanoseconds lease.claimedAt ≤ lease.ticker.start
  claimed : lease.claimedAt ≤ locked
  renewed :
    ∀ number, lease.Beaten platform delay earlier number →
      lease.ticker.tick number ≤ nanoseconds locked + delay
  unexpired :
    ∀ (index : Nat) session tx,
      state.store.sessions[index]? = some session →
      session.tx = some tx → lease.StartsInTime platform run index →
        nanoseconds tx.startedAt - config.stuckThreshold ≤ nanoseconds locked

/-- What holds after every part of the run. -/
structure Lease.Kept (earlier : List TimedStep) (state : State) :
    Prop where
  tracked : Tracked platform state
  named : WellNamed state
  beating : KeepsBeating state
  opened :
    ∀ (index : Nat) session tx,
      state.store.sessions[index]? = some session →
      session.tx = some tx →
        ∃ timed ∈ earlier, nanoseconds tx.startedAt ≤ timed.time
  locked :
    lease.Runs state →
      ∃ row locked,
        state.store.db.find lease.task.id = some row ∧
          row.lockedAt = some locked ∧
          lease.Fresh platform delay config run earlier state locked

end Ages

variable {earlier : List TimedStep}

section Steps

variable
    {platform : Platform} {delay : Int} {config : WorkerConfig}
    {lease : Lease} {run earlier : List TimedStep} {timed : TimedStep}
    {state next : State} {locked : Time}

theorem nanoseconds_le_iff {first second : Time} :
    nanoseconds first ≤ nanoseconds second ↔ first ≤ second :=
  mul_le_mul_iff_of_pos_left (by decide : (0 : Int) < 1000)

theorem Lease.Beaten.concat_cases
    (beaten : lease.Beaten platform delay (earlier ++ [timed]) number)
    (reached : runTo platform earlier = some state) :
    lease.Beaten platform delay earlier number ∨
      ∃ clock, lease.Beats state clock timed.step := by
  rcases beaten with
    ⟨before, other, current, after, clock, moment, beats, rest⟩
  rcases moment.concat_cases with inside | ⟨sameRun, sameStep⟩
  · exact Or.inl ⟨before, other, current, after, clock, inside, beats, rest⟩
  · right
    subst before
    subst other
    rw [Option.some.inj (reached.symm.trans moment.reached)]
    exact ⟨clock, beats⟩

/-- The heartbeat of a tick is committed after the tick. -/
theorem Lease.Beaten.passed
    (beaten : lease.Beaten platform delay earlier number)
    (clock : OneClock run) (split : run = earlier ++ later) :
    ∃ timed ∈ earlier, lease.ticker.tick number ≤ timed.time := by
  rcases beaten with
    ⟨before, timed, state, next, stamp, moment, beats, after, _⟩
  rcases beats with ⟨index, answer, serves, same, _⟩
  subst stamp
  have stamped := clock.stamped timed
    (by rw [split]; exact List.mem_append_left _ moment.mem) index answer
    serves
  exact ⟨timed, moment.mem, after.trans stamped⟩

/-- A lock is fresh that is dated at most the delay before now. -/
theorem Lease.fresh_of_recent
    (clock : OneClock run) (split : run = earlier ++ later)
    (within : delay ≤ config.stuckThreshold)
    (opened :
      ∀ (index : Nat) session tx,
        state.store.sessions[index]? = some session →
        session.tx = some tx →
          ∃ timed ∈ earlier, nanoseconds tx.startedAt ≤ timed.time)
    (started : nanoseconds lease.claimedAt ≤ lease.ticker.start)
    (claimed : lease.claimedAt ≤ locked)
    (recent : ∀ timed ∈ earlier, timed.time ≤ nanoseconds locked + delay) :
    lease.Fresh platform delay config run earlier state locked where
  started := started
  claimed := claimed
  renewed := by
    intro number beaten
    rcases beaten.passed clock split with ⟨other, member, passed⟩
    exact passed.trans (recent other member)
  unexpired := by
    intro index session tx found inside _
    rcases opened index session tx found inside with
      ⟨other, member, before⟩
    have now := recent other member
    omega

/-- The lock is recent enough for a reaper that starts now. -/
theorem Lease.Fresh.expires
    (fresh : lease.Fresh platform delay config run earlier state locked)
    (healthy : lease.Healthy platform delay config run)
    (fits : config.heartbeatInterval + 2 * delay ≤ config.stuckThreshold)
    (shorter : config.heartbeatInterval < config.stuckThreshold)
    (moment : Moment platform run earlier timed state next)
    (runs : lease.Runs state) (goes : ¬ lease.Stopped state)
    (stamped : nanoseconds clock ≤ timed.time)
    (early : nanoseconds clock < lease.deadline)
    (unreturned : ¬ lease.Returned state) :
    nanoseconds clock - config.stuckThreshold ≤ nanoseconds locked := by
  rw [← healthy.paced] at fits shorter
  refine Ticker.fresh_of_renewed fits shorter healthy.prompt
    (nanoseconds_le_iff.mpr fresh.claimed) early ?_
  intro number positive before overdue
  exact fresh.renewed number
    (healthy.beaten earlier timed state next moment runs unreturned goes
      number positive before (overdue.trans_le stamped))

section

variable (kept : lease.Kept platform delay config run earlier state)

include kept

/-- The goroutine of a healthy execution does not stop by itself. -/
theorem Lease.Kept.goes
    (healthy : lease.Healthy platform delay config run)
    (moment : Moment platform run earlier timed state next)
    (runs : lease.Runs state) : ¬ lease.Stopped state := by
  rintro ⟨worker, member, beating⟩
  exact kept.beating worker member lease.claim lease.task .stopped
    beating
    (healthy.registered earlier timed state next moment worker member
      .stopped beating) runs

/-- A step that is no heartbeat keeps the lock fresh. -/
theorem Lease.Kept.fresh_keep
    (healthy : lease.Healthy platform delay config run)
    (fits : config.heartbeatInterval + 2 * delay ≤ config.stuckThreshold)
    (shorter : config.heartbeatInterval < config.stuckThreshold)
    (moment : Moment platform run earlier timed state next)
    (runs : lease.Runs state)
    (fresh : lease.Fresh platform delay config run earlier state locked)
    (idle : ¬ ∃ clock, lease.Beats state clock timed.step) :
    lease.Fresh platform delay config run (earlier ++ [timed]) next
      locked where
  started := fresh.started
  claimed := fresh.claimed
  renewed := by
    intro number beaten
    rcases beaten.concat_cases moment.reached with before | beats
    · exact fresh.renewed number before
    · exact (idle beats).elim
  unexpired := by
    intro index session tx found inside inTime
    rcases State.step_opened moment.stepped found inside with
      ⟨before, old, located, opened, same⟩ | begins
    · rw [← same]
      exact fresh.unexpired index before old located opened inTime
    · rcases inTime earlier timed state next tx.startedAt moment begins
        with ⟨early, unreturned⟩
      rcases begins with ⟨answer, _, _, serves, same, _⟩
      have stamped :=
        healthy.clock.stamped timed moment.mem index answer serves
      rw [same] at stamped
      exact fresh.expires healthy fits shorter moment runs
        (kept.goes healthy moment runs) stamped early unreturned

theorem Lease.Kept.opened_step
    (clock : OneClock run)
    (moment : Moment platform run earlier timed state next) :
    ∀ (index : Nat) session tx,
      next.store.sessions[index]? = some session →
      session.tx = some tx →
        ∃ other ∈ earlier ++ [timed],
          nanoseconds tx.startedAt ≤ other.time := by
  intro index session tx found inside
  rcases State.step_opened moment.stepped found inside with
    ⟨before, old, located, opened, same⟩ | ⟨answer, _, _, serves, same, _⟩
  · rcases kept.opened index before old located opened with
      ⟨other, member, bound⟩
    exact ⟨other, List.mem_append_left _ member, same ▸ bound⟩
  · refine ⟨timed, by simp, ?_⟩
    rw [← same]
    exact clock.stamped timed moment.mem index answer serves

/-- The lock is fresh after the claim. -/
theorem Lease.Kept.claim
    (healthy : lease.Healthy platform delay config run)
    (within : delay ≤ config.stuckThreshold)
    (moment : Moment platform run earlier timed state next) {grant : Grant}
    {name : GoString}
    (grown : next.store.history = state.store.history ++ [commit])
    (known : granted lease.task.id next.store.history = some grant)
    (ours : commit.session = lease.claim) (mine : grant.session = lease.claim)
    (claims : commit.call = .claim name)
    (wrote : written lease.task.id commit.writes = some grant.row) :
    ∃ row locked,
      next.store.db.find lease.task.id = some row ∧
        row.lockedAt = some locked ∧
        lease.Fresh platform delay config run (earlier ++ [timed]) next
          locked := by
  have moves := State.step_moves moment.stepped
  rcases State.step_claimed moment.stepped kept.tracked.reached grown
      claims wrote with ⟨found, session, tx, located, opened, stamped⟩
  have dated :=
    healthy.claimed earlier timed state next moment grant known mine
  have began : tx.startedAt = lease.claimedAt :=
    Option.some.inj (stamped.symm.trans dated)
  have early : timed.time ≤ lease.ticker.start := by
    by_contra late
    rcases moves.published kept.tracked.reached grown with ⟨running, _⟩
    rw [ours] at running
    exact (healthy.received earlier timed state next moment
      (not_le.mp late)).ended running
  have before := healthy.clock.earlier_le moment
  refine ⟨grant.row, lease.claimedAt, found, dated, ?_⟩
  rcases moment.occurs with ⟨later, split⟩
  rw [List.append_cons] at split
  refine Lease.fresh_of_recent healthy.clock split within
    (kept.opened_step healthy.clock moment) ?_ le_rfl ?_
  · rcases kept.opened commit.session session tx located opened with
      ⟨other, member, bound⟩
    rw [began] at bound
    exact bound.trans ((before other member).trans early)
  · intro other member
    refine le_trans ?_ (early.trans healthy.prompt)
    rcases List.mem_append.mp member with inside | last
    · exact before other inside
    · rw [List.mem_singleton.mp last]

/-- The lock is fresh after a heartbeat. -/
theorem Lease.Kept.renew
    (healthy : lease.Healthy platform delay config run)
    (undisturbed : lease.Undisturbed platform run)
    (within : delay ≤ config.stuckThreshold)
    (moment : Moment platform run earlier timed state next)
    (runs : lease.Runs state)
    (fresh : lease.Fresh platform delay config run earlier state locked)
    (beats : lease.Beats state clock timed.step) :
    lease.Fresh platform delay config run (earlier ++ [timed]) next
      clock := by
  have claimed := undisturbed earlier timed state next moment runs clock beats
  have recent : timed.time ≤ nanoseconds clock + delay := by
    rcases beats with ⟨index, answer, serves, same, rest⟩
    rcases healthy.inTime earlier timed state next moment runs index
        answer serves ⟨index, answer, serves, rfl, rest⟩ with
      ⟨tick, _, after, soon⟩
    rw [same] at after
    omega
  have before := healthy.clock.earlier_le moment
  rcases moment.occurs with ⟨later, split⟩
  rw [List.append_cons] at split
  refine Lease.fresh_of_recent healthy.clock split within
    (kept.opened_step healthy.clock moment) fresh.started claimed ?_
  intro other member
  rcases List.mem_append.mp member with inside | last
  · exact (before other inside).trans recent
  · rw [List.mem_singleton.mp last]
    exact recent

/-- One step keeps what holds of the run. -/
theorem Lease.Kept.step
    (healthy : lease.Healthy platform delay config run)
    (undisturbed : lease.Undisturbed platform run)
    (fits : config.heartbeatInterval + 2 * delay ≤ config.stuckThreshold)
    (shorter : config.heartbeatInterval < config.stuckThreshold)
    (within : delay ≤ config.stuckThreshold)
    (moment : Moment platform run earlier timed state next)
    (called :
      lease.Runs state →
        Called state.store lease.claim (.claim lease.workerID)) :
    lease.Kept platform delay config run (earlier ++ [timed]) next := by
  have moves := State.step_moves moment.stepped
  refine ⟨kept.tracked.keep moves, kept.named.keep moves,
    kept.beating.step kept.tracked kept.named moment.stepped,
    kept.opened_step healthy.clock moment, ?_⟩
  intro later
  rcases later.cases moves with
    before | ⟨commit, grant, name, grown, known, ours, mine, claims, wrote⟩
  · have runs : lease.Runs state := before
    rcases kept.locked runs with ⟨row, locked, found, dated, fresh⟩
    by_cases beats : ∃ clock, lease.Beats state clock timed.step
    · rcases beats with ⟨clock, beats⟩
      rcases beats.renews runs kept.tracked.reached kept.named
          (called runs) moment.stepped with ⟨after, stored, renewed⟩
      exact ⟨after, clock, stored, renewed,
        kept.renew healthy undisturbed within moment runs fresh beats⟩
    · refine ⟨row, locked, ?_, dated,
        kept.fresh_keep healthy fits shorter moment runs fresh beats⟩
      rcases runs.row_cases later kept.tracked.reached kept.named
          (called runs) moment.stepped with beat | same
      · exact (beats beat).elim
      · exact same.trans found
  · exact kept.claim healthy within moment grown known ours mine claims wrote

end

theorem Lease.kept_start : lease.Kept platform delay config run [] {} where
  tracked := tracked_start
  named := wellNamed_start
  beating := by
    intro worker member
    cases member
  opened := by
    intro index session tx found
    cases found
  locked := by
    rintro ⟨grant, found, _⟩
    cases found

end Steps

end Dhara.Pool
