import Dhara.Server.Cancellation
import Dhara.Transaction.During

/-!
# Manual retries

`RetryDead` updates the task if it is `DEAD`.  When the update matches
nothing, a lookup on a connection of its own decides between a missing task
and one that is not `DEAD`.  Unlike the lookup of `Cancel`, its answer says no
more than that the task exists, so whatever happens between the two
statements, the reply is the one of an atomic retry at some moment of the
request.
-/

namespace Dhara.Server

open Dhara.Store Dhara.Transaction

/-! ## The requests -/

/--
`handleRetryDeadTask`, from the parsed path value and what `RetryTask`
returns.
-/
def handleRetryDeadTask (id : Option TaskId)
    (retried : TaskId → Except ClientError Task) : HttpReply :=
  match id with
  | none => ⟨400, .error "invalid task id"⟩
  | some id =>
      match retried id with
      | .error (.store .taskNotFound) => ⟨404, .error "task not found"⟩
      | .error (.store .taskNotDead) =>
          ⟨409, .error "task is not in DEAD status"⟩
      | .error _ => ⟨500, .error "failed to retry task"⟩
      | .ok task => ⟨200, .task task⟩

/-- The reply and the effect of an atomic retry. -/
def AtomicRetry (id : TaskId) (before after : Database)
    (reply : HttpReply) : Prop :=
  match before.find id with
  | none => reply = ⟨404, .error "task not found"⟩
  | some row =>
      if row.status = .dead then
        ∃ stored,
          after.find id = some stored ∧ stored.status = .pending ∧
            stored.attempts = 0 ∧
            reply = ⟨200, .task (newTask (scanSummary stored))⟩
      else reply = ⟨409, .error "task is not in DEAD status"⟩

section Retry

variable (platform : Platform) (db : Database)
    (schedule : List StoreLabel) (index : Nat) (id : TaskId)

/-- A state of the store while the call is in progress. -/
abbrev CallState (config : StoreConfig) : Prop :=
  (postgres platform).During (Call.program platform) { db } schedule index
    config

/--
The reply is that of an atomic retry, which takes effect with one step of the
store while the call is in progress, or changes nothing.
-/
def RetryLinearizable (reply : HttpReply) : Prop :=
  ∃ config next,
    CallState platform db schedule index config ∧
      (next = config ∨
        ∃ label, StoreMoment platform db schedule config label next) ∧
      AtomicRetry id config.db next.db reply

/-- What the call has seen when it declines. -/
def Declined : StoreError → Prop
  | .taskNotFound =>
      ∃ config,
        CallState platform db schedule index config ∧ config.db.find id = none
  | .taskNotDead =>
      (∃ config,
        CallState platform db schedule index config ∧
          ∀ row, config.db.find id = some row → row.status ≠ .dead) ∧
        ∃ config row,
          CallState platform db schedule index config ∧
            config.db.find id = some row
  | _ => True

/-- What the results of the call say about the states of its time. -/
def retryWatch : Watch Database Write Resource Time Response where
  occurs current :=
    ∃ config,
      CallState platform db schedule index config ∧ config.db = current
  transaction := fun _ => True
  statement := fun _ => True
  result
    | .task (.error error) => Declined platform db schedule index id error
    | _ => True

theorem retryWatch_sound :
    (retryWatch platform db schedule index id).Sound :=
  ⟨fun _ => True.intro, fun _ _ _ => True.intro⟩

variable {platform db schedule index id}

theorem retryDead_obeys :
    (Call.program platform (.retryDead id)).Obeys (postgres platform)
      (retryWatch platform db schedule index id) none := by
  refine ⟨fun _ _ _ => True.intro, fun now => ⟨fun _ _ _ => True.intro, ?_⟩⟩
  rintro opened others oracle _ effect opening _ ⟨early, during, rfl⟩
    evaluated
  cases opening
  change evalUpdate now id .retryDead early.db = .ok effect at evaluated
  refine ⟨True.intro, ?_⟩
  rcases evalUpdate_cases evaluated with
    ⟨change, encoded, ⟨missed, equal⟩ | ⟨row, _, _, equal⟩⟩
  · subst effect
    cases encoded
    refine ⟨fun _ _ _ => True.intro, ?_⟩
    rintro clock _ _ _ looked ⟨late, lookup, rfl⟩ answered
    cases answered
    refine ⟨True.intro, ?_⟩
    cases found : late.db.find id with
    | none => exact ⟨late, lookup, found⟩
    | some row =>
        refine ⟨⟨early, during, ?_⟩, late, row, lookup, found⟩
        intro other located dead
        have guarded := missed other located
        simp [Change.guard, dead] at guarded
  · subst effect
    refine ⟨fun _ _ _ => True.intro, ?_⟩
    intro _ _ _ _ _ _ _ _ _
    refine ⟨True.intro, fun _ _ _ => True.intro, ?_⟩
    intro _ _ _ _ _ _ _ _ _
    exact ⟨True.intro, fun _ _ _ => True.intro, True.intro⟩

/-! ## The moment of a reply -/

theorem viewStep_present
    {call : Call} {wrote : Option TaskRecord} {before after : TaskView}
    (step : ViewStep platform call before wrote after)
    (present : before.row ≠ none) : after.row ≠ none := by
  cases step with
  | stay => exact present
  | _ => nofun

theorem viewStep_appears
    {call : Call} {wrote : Option TaskRecord} {before after : TaskView}
    (step : ViewStep platform call before wrote after)
    (absent : before.row = none) (present : after.row ≠ none) :
    ∃ row, after.row = some row ∧ row.status = .pending := by
  cases step with
  | stay => exact absurd absent present
  | enqueue row logs letters enqueues =>
      rcases enqueues with ⟨_, _, _, encoded, now, _, _, equal⟩
      refine ⟨row, rfl, ?_⟩
      rw [equal]
      rfl
  | beat => cases absent
  | move => cases absent

section Runs

variable {config final : StoreConfig} {session : StoreSession}

/-- A state that the schedule goes through. -/
theorem during_ok (during : CallState platform db schedule index config) :
    (contract platform).ConfigOk db config := by
  rcases during.reached with ⟨earlier, _, _, reached⟩
  exact interleave_ok reached

/-- A task is never removed. -/
theorem present_stays
    {later : List StoreLabel}
    (during : CallState platform db schedule index config)
    (present : config.db.find id ≠ none)
    (followed :
      (postgres platform).follow (Call.program platform) config later =
        some final) :
    final.db.find id ≠ none := by
  have kept :
      ∀ config label next,
        ((contract platform).ConfigOk db config ∧
            config.db.find id ≠ none) →
          (postgres platform).step (Call.program platform) config
              label = some next →
            (contract platform).ConfigOk db next ∧
              next.db.find id ≠ none := by
    rintro config label next ⟨ok, present⟩ stepped
    refine ⟨Contract.step_ok (Call.meets platform) ok stepped, ?_⟩
    rcases step_viewStep ok.toCoherent stepped id with ⟨call, wrote, step⟩
    exact viewStep_present step present
  exact ((postgres platform).follow_invariant kept
    ⟨during_ok during, present⟩ followed).2

/-- A task that appears is `PENDING`. -/
theorem appears_pending
    {label : StoreLabel} {next : StoreConfig}
    (moment : StoreMoment platform db schedule config label next)
    (absent : ¬ config.db.find id ≠ none)
    (present : next.db.find id ≠ none) :
    ∃ row, next.db.find id = some row ∧ row.status = .pending := by
  rcases step_viewStep (moment_ok moment).toCoherent moment.stepped id with
    ⟨call, wrote, step⟩
  exact viewStep_appears step (not_not.mp absent) present

/-- A call that says that the task is not `DEAD` is right at some moment. -/
theorem declined_notDead
    (declined : Declined platform db schedule index id .taskNotDead) :
    ∃ config row,
      CallState platform db schedule index config ∧
        config.db.find id = some row ∧ row.status ≠ .dead := by
  rcases declined with
    ⟨⟨early, first, unmatched⟩, late, row, second, found⟩
  by_cases absent : early.db.find id = none
  · have present : late.db.find id ≠ none := by
      rw [found]
      nofun
    have crossing :=
      Engine.During.crossing
        (fun _ _ followed => present_stays second present followed)
        first (not_not.mpr absent) second present
    rcases crossing with
      ⟨before, label, next, moment, during, missing, appeared⟩
    rcases appears_pending moment missing appeared with
      ⟨born, located, pending⟩
    exact ⟨next, born, during, located, by simp [pending]⟩
  · rcases Option.ne_none_iff_exists'.mp absent with ⟨old, located⟩
    exact ⟨early, old, first, located, unmatched old located⟩

/-- A committed retry is atomic at the moment of its commit. -/
theorem committed_retry
    (followed : interleave platform db schedule = some final)
    {move : Move} (performs : (Call.retryDead id).Performs move)
    (member :
      (⟨index, .retryDead id, writesOf [move]⟩ : StoreCommit) ∈
        final.history) :
    RetryLinearizable platform db schedule index id
      ⟨200, .task (newTask (scanSummary move.after))⟩ := by
  rcases committed_move followed performs.1 member nofun with
    ⟨config, label, next, moment, running, made, before, after, same,
      enabled, ⟨_, changed, _⟩⟩
  refine ⟨config, next, moment.during running, Or.inr ⟨label, moment⟩, ?_⟩
  have dead : made.row.status = .dead := by
    rw [changed] at enabled
    exact enabled
  rw [AtomicRetry, before]
  simp only [dead, if_true]
  refine ⟨made.after, after, ?_, ?_, by rw [same]⟩
  · rw [Move.after, changed]
    rfl
  · rw [Move.after, changed]
    rfl

/-- A refused retry is atomic at a moment that the call has seen. -/
theorem declined_retry
    {error : StoreError}
    (seen : Declined platform db schedule index id error)
    (answered :
      (handleRetryDeadTask (some id) fun _ =>
        retryTask (.error error)).status ≠ 500) :
    RetryLinearizable platform db schedule index id
      (handleRetryDeadTask (some id) fun _ =>
        retryTask (.error error)) := by
  cases error with
  | taskNotFound =>
      rcases seen with ⟨config, during, absent⟩
      refine ⟨config, config, during, Or.inl rfl, ?_⟩
      rw [AtomicRetry, absent]
      rfl
  | taskNotDead =>
      rcases declined_notDead seen with
        ⟨config, row, during, located, alive⟩
      refine ⟨config, config, during, Or.inl rfl, ?_⟩
      rw [AtomicRetry, located]
      simp only [alive, if_false]
      rfl
  | _ => exact absurd rfl answered

/--
Every reply of a retry request but the internal error is the reply of an
atomic retry at some moment of the request, whatever other calls do in
between; and a retry that is refused has written nothing.
-/
theorem retry_linearizable
    {result : Except StoreError TaskRow}
    (followed : interleave platform db schedule = some final)
    (found : final.sessions[index]? = some session)
    (called : session.call = .retryDead id)
    (returned : session.program = some (.done (.task result)))
    (answered :
      (handleRetryDeadTask (some id) fun _ => retryTask result).status ≠
        500) :
    RetryLinearizable platform db schedule index id
        (handleRetryDeadTask (some id) fun _ => retryTask result) ∧
      ((handleRetryDeadTask (some id) fun _ => retryTask result).status ≠
          200 →
        ∀ commit ∈ final.history, commit.session ≠ index) := by
  have configOk := interleave_ok followed
  have promised := configOk.ensures found returned
  have recorded := configOk.history_of found
  rw [called] at promised recorded
  have occurs :
      ∀ visited, CallState platform db schedule index visited →
        (retryWatch platform db schedule index id).occurs visited.db :=
    fun visited during => ⟨visited, during, rfl⟩
  have obeyed :=
    Engine.follow_obeys_during (retryWatch_sound platform db schedule index
      id) occurs retryDead_obeys followed found called
  cases result with
  | ok task =>
      rcases promised with
        ⟨move, committed, _, performs, reported⟩ | ⟨_, declines⟩
      · cases reported
        rw [committed] at recorded
        refine ⟨committed_retry followed performs ?_,
          fun failed => absurd rfl failed⟩
        apply List.mem_of_mem_filter
        rw [recorded]
        exact List.mem_singleton.mpr rfl
      · cases declines
  | error error =>
      have silent : session.commits = [] := by
        rcases promised with ⟨_, _, _, _, reported⟩ | ⟨silent, _⟩
        · cases reported
        · exact silent
      constructor
      · exact declined_retry (obeyed.program _ returned) answered
      · intro _ commit member same
        have inside :
            commit ∈ final.history.filter fun commit =>
              commit.session = index :=
          List.mem_filter.mpr ⟨member, decide_eq_true same⟩
        rw [recorded, silent] at inside
        cases inside

end Runs

end Retry

/-! ## A retry that is overtaken -/

/-- The task of a call of `RetryDead`, and what the call has returned. -/
def retryOutcome (index : Nat) (config : StoreConfig) :
    Option (TaskId × Except StoreError TaskRow) :=
  match config.sessions[index]? with
  | none => none
  | some session =>
      match session.call, session.program with
      | .retryDead id, some (.done (.task result)) => some (id, result)
      | _, _ => none

theorem retryOutcome_cases
    {index : Nat} {config : StoreConfig} {id : TaskId}
    {result : Except StoreError TaskRow}
    (outcome : retryOutcome index config = some (id, result)) :
    ∃ session,
      config.sessions[index]? = some session ∧
        session.call = .retryDead id ∧
        session.program = some (.done (.task result)) := by
  unfold retryOutcome at outcome
  split at outcome
  · cases outcome
  · rename_i session found
    split at outcome
    · rename_i called returned
      cases outcome
      exact ⟨session, found, called, returned⟩
    · cases outcome

/-- The task is not `DEAD`. -/
def notDead : Except StoreError TaskRow → Bool
  | .error .taskNotDead => true
  | _ => false

/--
The task is enqueued, claimed and dead-lettered between the update of the
retry, which finds no task, and its lookup, which finds a `DEAD` one.
-/
def overtakenRetry : List StoreLabel :=
  [.spawn (.retryDead 7), .spawn (.create (emailTask [])),
    .spawn (.claim (ascii "w")),
    .spawn (.markDead 7 (ascii "w") (ascii "e") (ascii "r"))] ++
    trips [0, 0, 1, 1, 1, 1, 2, 2, 2, 2, 2, 3, 3, 3, 3, 3, 3, 0]

theorem overtakenRetry_linearizable :
    ∃ config row,
      interleave echoPlatform .empty overtakenRetry = some config ∧
        config.db.find 7 = some row ∧ row.status = .dead ∧
        RetryLinearizable echoPlatform .empty overtakenRetry 0 7
          ⟨409, .error "task is not in DEAD status"⟩ := by
  have outcome :
      (interleave echoPlatform .empty overtakenRetry).map (fun config =>
          ((config.db.find 7).map TaskRecord.status,
            (retryOutcome 0 config).map fun result =>
              (result.1, notDead result.2))) =
        some (some .dead, some (7, true)) := by
    decide +kernel
  rcases Option.map_eq_some_iff.mp outcome with ⟨config, followed, equal⟩
  simp only [Prod.mk.injEq, Option.map_eq_some_iff, Prod.exists] at equal
  rcases equal with
    ⟨⟨row, located, dead⟩, id, result, returned, rfl, declined⟩
  rcases retryOutcome_cases returned with
    ⟨session, found, called, finished⟩
  rcases result with error | task
  · cases error with
    | taskNotDead =>
        exact ⟨config, row, followed, located, dead,
          (retry_linearizable followed found called finished nofun).1⟩
    | _ => cases declined
  · cases declined

end Dhara.Server
