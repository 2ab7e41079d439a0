import Dhara.Playground.CrashProcess

/-!
# The status of the crash demo

`running` is taken by `Start` and given back by the deferred function of the
demo, each under the mutex, while the status is written by whoever runs.  At
every moment at most one demo has taken `running`.  The status is that of
this demo, or that of the last one if there is none.
-/

namespace Dhara.Playground.Crash

open Dhara.Store Dhara.Transaction

variable {platform : Platform} {describe : ClientError → GoString}
  {manager after shared : Manager} {status : CrashStatus} {demo next : Demo}

/-! ## The status of one demo -/

/-- The times and the error of a status fit its phase. -/
structure CrashStatus.Stamped (status : CrashStatus) : Prop where
  started : status.startedAt.isSome = true ↔ status.phase ≠ .idle
  finished : status.finishedAt.isSome = true ↔ status.phase.final = true
  error : status.error ≠ [] ↔ status.phase = .failed

/-- The demo has not inserted its task. -/
def Point.early : Point → Bool
  | .spawning | .entering .enqueue | .inserting | .awaitingInsert _ => true
  | _ => false

/-- Neither has the demo a task to show, nor is it over. -/
def Point.between : Point → Bool
  | .recording | .releasing => false
  | _ => true

theorem Point.between_iff {point : Point} :
    point.between = true ↔ point ≠ .recording ∧ point ≠ .releasing := by
  cases point <;> simp [between]

/-- What the status says about the demo that has taken `running`. -/
structure Demo.Shown (demo : Demo) (status : CrashStatus) : Prop where
  session : status.session = demo.session
  early : demo.point.early = true → demo.task = none
  recording : demo.point = .recording → status.taskID = none
  task : demo.point ≠ .recording → status.taskID = demo.task
  final : status.phase.final = true ↔ demo.point = .releasing
  begun : status.phase ≠ .idle
  message : ∀ message, demo.point = .failing message → message ≠ []

/-- A demo that goes on without the status. -/
theorem Demo.Shown.reach
    {point : Point} (shown : demo.Shown status)
    (before : demo.point.between = true)
    (early : point.early = true → demo.point.early = true)
    (later : point.between = true)
    (message : ∀ message, point = .failing message → message ≠ []) :
    ({ demo with point } : Demo).Shown status := by
  rw [Point.between_iff] at before later
  constructor
  · exact shown.session
  · exact fun now => shown.early (early now)
  · exact fun recording => absurd recording later.1
  · exact fun _ => shown.task before.1
  · constructor
    · exact fun final => absurd (shown.final.mp final) before.2
    · exact fun released => absurd released later.2
  · exact shown.begun
  · exact message

/-- A demo that fails. -/
theorem Demo.Shown.failing
    {message : GoString} (shown : demo.Shown status)
    (before : demo.point.between = true) (told : message ≠ []) :
    ({ demo with point := .failing message } : Demo).Shown status := by
  refine shown.reach before nofun rfl ?_
  rintro _ ⟨⟩
  exact told

theorem Leg.phase_final (leg : Leg) : leg.phase.final = false := by
  rcases leg with _ | (_ | _ | _) | _ | _ <;> rfl

theorem Leg.phase_ne_idle (leg : Leg) : leg.phase ≠ .idle := by
  rcases leg with _ | (_ | _ | _) | _ | _ <;> nofun

theorem Leg.phase_ne_failed (leg : Leg) : leg.phase ≠ .failed := by
  rcases leg with _ | (_ | _ | _) | _ | _ <;> nofun

theorem Leg.body_early (leg : Leg) :
    leg.body.early = (Point.entering leg).early := by
  rcases leg with _ | _ | _ | _ <;> rfl

theorem Leg.body_cases (leg : Leg) :
    leg.body.between = true ∧ ∀ message, leg.body ≠ .failing message := by
  rcases leg with _ | _ | _ | _ <;> exact ⟨rfl, nofun⟩

/-- `setPhase`. -/
theorem Demo.Shown.setPhase
    {leg : Leg} (now : Time) (shown : demo.Shown status)
    (stamped : status.Stamped) (reached : demo.point = .entering leg) :
    ({ demo with point := leg.body } : Demo).Shown
        (status.setPhase leg.phase now) ∧
      (status.setPhase leg.phase now).Stamped := by
  have unfinished : status.phase.final = false := by
    rw [← Bool.not_eq_true, shown.final, reached]
    nofun
  have between := Point.between_iff.mp leg.body_cases.1
  constructor
  · constructor
    · exact shown.session
    · intro early
      refine shown.early ?_
      rw [reached, ← Leg.body_early]
      exact early
    · exact fun recording => absurd recording between.1
    · exact fun _ => shown.task (by simp [reached])
    · constructor
      · intro final
        exact absurd final (by simp [CrashStatus.setPhase, leg.phase_final])
      · exact fun released => absurd released between.2
    · exact leg.phase_ne_idle
    · exact fun message equal => absurd equal (leg.body_cases.2 message)
  · constructor
    · simpa [CrashStatus.setPhase, leg.phase_ne_idle] using
        stamped.started.mpr shown.begun
    · simpa [CrashStatus.setPhase, leg.phase_final, unfinished] using
        stamped.finished
    · simp [CrashStatus.setPhase, leg.phase_ne_failed]

/-- `m.status.TaskID = taskID`. -/
theorem Demo.Shown.record
    (shown : demo.Shown status) (reached : demo.point = .recording) :
    ({ demo with point := .entering (.wait .claim) } : Demo).Shown
      { status with taskID := demo.task } := by
  constructor
  · exact shown.session
  · nofun
  · nofun
  · exact fun _ => rfl
  · constructor
    · intro final
      have released := shown.final.mp final
      rw [reached] at released
      cases released
    · nofun
  · exact shown.begun
  · nofun

/-- The end of a demo that has completed. -/
theorem Demo.Shown.complete
    (now : Time) (shown : demo.Shown status) (stamped : status.Stamped)
    (reached : demo.point = .completing) :
    ({ demo with point := .releasing } : Demo).Shown
        (status.complete now) ∧
      (status.complete now).Stamped := by
  have unfailed : status.error = [] := by
    by_contra told
    have failed := stamped.error.mp told
    have released := shown.final.mp (by rw [failed]; rfl)
    rw [reached] at released
    cases released
  constructor
  · exact ⟨shown.session, nofun, nofun,
      fun _ => shown.task (by simp [reached]),
      ⟨fun _ => rfl, fun _ => rfl⟩, nofun, nofun⟩
  · refine ⟨?_, ?_, ?_⟩
    · simpa [CrashStatus.complete] using stamped.started.mpr shown.begun
    · simp [CrashStatus.complete, DemoPhase.final]
    · simp [CrashStatus.complete, unfailed]

/-- The end of a demo that has failed. -/
theorem Demo.Shown.fail
    {message : GoString} (now : Time) (shown : demo.Shown status)
    (stamped : status.Stamped) (reached : demo.point = .failing message) :
    ({ demo with point := .releasing } : Demo).Shown
        (status.fail message now) ∧
      (status.fail message now).Stamped := by
  constructor
  · exact ⟨shown.session, nofun, nofun,
      fun _ => shown.task (by simp [reached]),
      ⟨fun _ => rfl, fun _ => rfl⟩, nofun, nofun⟩
  · refine ⟨?_, ?_, ?_⟩
    · simpa [CrashStatus.fail] using stamped.started.mpr shown.begun
    · simp [CrashStatus.fail, DemoPhase.final]
    · simpa [CrashStatus.fail] using shown.message message reached

/-! ## One step -/

/-- What the mutex of the status guards, and the configuration. -/
def Manager.board (manager : Manager) :
    Settings × CrashStatus × Bool :=
  (manager.settings, manager.status, manager.running)

theorem Manager.spawnWorker_board (failure : Option GoString) :
    (manager.spawnWorker failure).2.board = manager.board := by
  rcases manager.spawnWorker_cases failure with same | ⟨_, added⟩
  · rw [same]
  · rw [added]
    rfl

theorem Manager.Kills.board
    {kill next : Kill} (kills : manager.Kills kill next shared) :
    shared.board = manager.board := by
  cases kills <;> rfl

/-- What a step of the demo that has taken `running` does to the status. -/
inductive Manager.Writes (manager : Manager) (next : Demo)
    (shared : Manager) : Prop where
  | shown (active : next.active = true)
      (settings : shared.settings = manager.settings)
      (running : shared.running = manager.running)
      (enabled : shared.status.enabled = manager.status.enabled)
      (shown : next.Shown shared.status)
      (stamped : shared.status.Stamped)
  | released (idle : next.active = false)
      (settings : shared.settings = manager.settings)
      (running : shared.running = false)
      (kept : shared.status = manager.status)
      (final : manager.status.phase.final = true)

/-- A step that leaves the status alone. -/
theorem Manager.Writes.of_board
    (same : shared.board = manager.board) (active : next.active = true)
    (shown : next.Shown manager.status) (stamped : manager.status.Stamped) :
    manager.Writes next shared := by
  simp only [board, Prod.mk.injEq] at same
  rcases same with ⟨settings, status, running⟩
  refine .shown active settings running ?_ ?_ ?_
  · rw [status]
  · rw [status]
    exact shown
  · rw [status]
    exact stamped

theorem ascii_append_ne_nil {text : String} (rest : GoString)
    (told : ascii text ≠ []) : ascii text ++ rest ≠ [] := by
  simp [told]

/-- The status after `spawnWorker`. -/
theorem Demo.Shown.spawned
    {complaint : String} {next : Point} {error : Option GoString}
    (shown : demo.Shown status) (before : demo.point.between = true)
    (told : ascii complaint ≠ [])
    (further : ({ demo with point := next } : Demo).Shown status) :
    ({ demo with point := spawnResult complaint next error } :
        Demo).Shown status := by
  cases error with
  | none => exact further
  | some cause =>
      exact shown.failing before (ascii_append_ne_nil cause told)

theorem spawnResult_active
    {complaint : String} {leg : Leg} {error : Option GoString} :
    ({ demo with
        point := spawnResult complaint (.entering leg) error } :
      Demo).active = true := by
  cases error <;> rfl

/-- The status after `waitFor` has returned a task. -/
theorem Demo.Shown.matched
    {wait : Wait} (taskStatus : TaskStatus) (shown : demo.Shown status)
    (reached : demo.point = .polling wait) :
    ({ demo with point := wait.next taskStatus } : Demo).Shown status ∧
      ({ demo with point := wait.next taskStatus } : Demo).active = true := by
  have before : demo.point.between = true := by
    rw [reached]
    rfl
  cases wait with
  | claim =>
      simp only [Wait.next]
      split
      · exact ⟨shown.failing before (ascii_append_ne_nil _ (by decide)), rfl⟩
      · exact ⟨shown.reach before nofun rfl nofun, rfl⟩
  | reaper =>
      simp only [Wait.next]
      split
      · exact ⟨shown.failing before (by decide), rfl⟩
      · exact ⟨shown.reach before nofun rfl nofun, rfl⟩
  | completion =>
      simp only [Wait.next]
      split
      · exact ⟨shown.failing before (ascii_append_ne_nil _ (by decide)), rfl⟩
      · exact ⟨shown.reach before nofun rfl nofun, rfl⟩

/-- The status after a step of `killWorker`. -/
theorem Demo.Shown.killed
    {kill : Kill} (next : Kill) (shown : demo.Shown status)
    (reached : demo.point = .killing kill) :
    ({ demo with point := killResult next } : Demo).Shown status ∧
      ({ demo with point := killResult next } : Demo).active = true := by
  have before : demo.point.between = true := by
    rw [reached]
    rfl
  rcases next with _ | handle | handle | _ | cause
  · exact ⟨shown.reach before nofun rfl nofun, rfl⟩
  · exact ⟨shown.reach before nofun rfl nofun, rfl⟩
  · exact ⟨shown.reach before nofun rfl nofun, rfl⟩
  · exact ⟨shown.reach before nofun rfl nofun, rfl⟩
  · exact ⟨shown.failing before (ascii_append_ne_nil cause (by decide)), rfl⟩

/-- The status after the insertion. -/
theorem Demo.Shown.inserted
    {call : Nat} (id : TaskId) (shown : demo.Shown status)
    (reached : demo.point = .awaitingInsert call) :
    ({ demo with task := some id, point := .recording } :
        Demo).Shown status := by
  have unassigned : demo.task = none := by
    refine shown.early ?_
    rw [reached]
    rfl
  have unfinished : ¬ status.phase.final = true := by
    rw [shown.final, reached]
    nofun
  refine ⟨shown.session, nofun, fun _ => ?_, fun apart => absurd rfl apart,
    ⟨fun final => absurd final unfinished, nofun⟩, shown.begun, nofun⟩
  exact (shown.task (by simp [reached])).trans unassigned

theorem Wait.complaint_append_ne_nil (wait : Wait) (cause : GoString) :
    wait.complaint ++ cause ≠ [] := by
  cases wait with
  | claim => exact ascii_append_ne_nil cause (by decide)
  | reaper => exact ascii_append_ne_nil cause (by decide)
  | completion => exact ascii_append_ne_nil cause (by decide)

theorem Manager.Runs.writes
    (runs : manager.Runs platform describe demo next shared)
    (active : demo.active = true) (shown : demo.Shown manager.status)
    (stamped : manager.status.Stamped) :
    manager.Writes next shared := by
  cases runs with
  | spawned failure reached =>
      have before : demo.point.between = true := by
        rw [reached]
        rfl
      refine .of_board (spawnWorker_board failure) spawnResult_active ?_
        stamped
      refine shown.spawned before (by decide) ?_
      exact shown.reach before (fun _ => by simp [reached, Point.early])
        rfl nofun
  | restarted failure reached =>
      have before : demo.point.between = true := by
        rw [reached]
        rfl
      refine .of_board (spawnWorker_board failure) spawnResult_active ?_
        stamped
      refine shown.spawned before (by decide) ?_
      exact shown.reach before nofun rfl nofun
  | entered leg now reached =>
      rcases shown.setPhase now stamped reached with
        ⟨further, marked⟩
      refine .shown ?_ rfl rfl rfl further marked
      rcases leg with _ | _ | _ | _ <;> rfl
  | sent task reached =>
      refine .of_board rfl rfl ?_ stamped
      exact shown.reach (by rw [reached]; rfl)
        (fun _ => by simp [reached, Point.early]) rfl nofun
  | rejected error reached =>
      refine .of_board rfl rfl ?_ stamped
      refine shown.failing ?_ (ascii_append_ne_nil _ (by decide))
      rcases reached with reached | ⟨call, reached⟩ <;> rw [reached] <;> rfl
  | inserted call id reached =>
      exact .of_board rfl rfl (shown.inserted id reached) stamped
  | recorded reached =>
      exact .shown rfl rfl rfl rfl (shown.record reached)
        ⟨stamped.started, stamped.finished, stamped.error⟩
  | matched wait id row reached =>
      rcases shown.matched row.status reached with ⟨further, stays⟩
      exact .of_board rfl stays further stamped
  | paused wait reached =>
      refine .of_board rfl rfl ?_ stamped
      exact shown.reach (by rw [reached]; rfl) nofun rfl nofun
  | ticked wait reached =>
      refine .of_board rfl rfl ?_ stamped
      exact shown.reach (by rw [reached]; rfl) nofun rfl nofun
  | expired wait cause reached =>
      refine .of_board rfl rfl ?_ stamped
      exact shown.failing (by rw [reached]; rfl)
        (wait.complaint_append_ne_nil cause)
  | killed kill after _ reached kills =>
      rcases shown.killed after reached with ⟨further, stays⟩
      exact .of_board kills.board stays further stamped
  | completed now reached =>
      rcases shown.complete now stamped reached with
        ⟨further, marked⟩
      exact .shown rfl rfl rfl rfl further marked
  | failed message now reached =>
      rcases shown.fail now stamped reached with
        ⟨further, marked⟩
      exact .shown rfl rfl rfl rfl further marked
  | released reached =>
      exact .released rfl rfl rfl rfl (shown.final.mpr reached)
  | inspected reached => simp [Demo.active, reached] at active
  | checked reached => simp [Demo.active, reached] at active
  | restored failure reached => simp [Demo.active, reached] at active

/-- A demo that has given `running` back. -/
theorem Manager.Runs.inactive
    (runs : manager.Runs platform describe demo next shared)
    (inactive : demo.active = false) :
    next.active = false ∧ shared.board = manager.board := by
  cases runs with
  | inspected reached =>
      refine ⟨?_, rfl⟩
      simp only [Demo.active]
      cases manager.canceled <;> rfl
  | checked reached =>
      refine ⟨?_, rfl⟩
      simp only [Demo.active]
      cases manager.workerRunning <;> rfl
  | restored failure reached => exact ⟨rfl, spawnWorker_board failure⟩
  | rejected error reached =>
      rcases reached with reached | ⟨call, reached⟩ <;>
        simp [Demo.active, reached] at inactive
  | _ => simp_all [Demo.active]

/-! ## The invariant -/

/-- The demo of a position is the only one that has taken `running`. -/
structure Manager.Holder (manager : Manager) (index : Nat) (demo : Demo) :
    Prop where
  found : manager.demos[index]? = some demo
  active : demo.active = true
  alone :
    ∀ position other, manager.demos[position]? = some other →
      other.active = true → position = index
  shown : demo.Shown manager.status

/-- The status is that of the demo that runs, or of the last one. -/
structure Manager.Consistent (manager : Manager) : Prop where
  stamped : manager.status.Stamped
  enabled : manager.status.enabled = manager.enabled
  holder : manager.running = true → ∃ index demo, manager.Holder index demo
  free :
    manager.running = false →
      (∀ demo ∈ manager.demos, demo.active = false) ∧
        (manager.status.phase = .idle ∨ manager.status.phase.final = true)

/-- A demo that has taken `running` is the holder. -/
theorem Manager.Consistent.held
    {index : Nat} (ok : manager.Consistent)
    (found : manager.demos[index]? = some demo)
    (active : demo.active = true) :
    manager.running = true ∧ manager.Holder index demo := by
  cases running : manager.running with
  | false =>
      have idle := (ok.free running).1 demo (List.mem_of_getElem? found)
      rw [active] at idle
      cases idle
  | true =>
      rcases ok.holder running with ⟨position, other, holder⟩
      have same := holder.alone index demo found active
      subst same
      rw [holder.found] at found
      cases found
      exact ⟨rfl, holder⟩

/-- What does not touch the demos and the status. -/
theorem Manager.Consistent.beside
    (ok : manager.Consistent) (same : after.board = manager.board)
    (demos : after.demos = manager.demos) : after.Consistent := by
  simp only [board, Prod.mk.injEq] at same
  rcases same with ⟨settings, status, running⟩
  constructor
  · rw [status]
    exact ok.stamped
  · show after.status.enabled = after.settings.enableCrashDemo
    rw [status, settings]
    exact ok.enabled
  · intro busy
    rw [running] at busy
    rcases ok.holder busy with ⟨index, demo, holder⟩
    refine ⟨index, demo, ?_, holder.active, ?_, ?_⟩
    · rw [demos]
      exact holder.found
    · rw [demos]
      exact holder.alone
    · rw [status]
      exact holder.shown
  · intro idle
    rw [running] at idle
    rw [demos, status]
    exact ok.free idle

/-- The demos other than the holder after it has made a step. -/
theorem Manager.Holder.others
    {index : Nat} (holder : manager.Holder index demo) {position : Nat}
    {other : Demo}
    (found : (manager.demos.set index next)[position]? = some other)
    (active : other.active = true) : position = index := by
  rw [List.getElem?_set] at found
  split_ifs at found with same
  · exact same.symm
  · exact holder.alone position other found active

theorem Manager.Consistent.ran
    {index : Nat} (ok : manager.Consistent)
    (found : manager.demos[index]? = some demo)
    (runs : manager.Runs platform describe demo next shared) :
    ({ shared with demos := shared.demos.set index next } :
        Manager).Consistent := by
  rw [runs.threads.1]
  cases active : demo.active with
  | true =>
      rcases ok.held found active with ⟨busy, holder⟩
      have inside := (List.getElem?_eq_some_iff.mp found).1
      cases runs.writes active holder.shown ok.stamped with
      | shown stays settings running enabled shown stamped =>
          constructor
          · exact stamped
          · show shared.status.enabled = shared.settings.enableCrashDemo
            rw [enabled, settings]
            exact ok.enabled
          · intro _
            refine ⟨index, next, ?_, stays, ?_, shown⟩
            · exact List.getElem?_set_self inside
            · exact fun position other located => holder.others located
          · intro idle
            exact absurd (busy.symm.trans (running.symm.trans idle)) nofun
      | released idle settings free kept final =>
          constructor
          · show shared.status.Stamped
            rw [kept]
            exact ok.stamped
          · show shared.status.enabled = shared.settings.enableCrashDemo
            rw [kept, settings]
            exact ok.enabled
          · intro running
            exact absurd (free.symm.trans running) nofun
          · intro _
            constructor
            · intro other member
              rcases (mem_set_iff found).mp member with
                rfl | ⟨position, apart, located⟩
              · exact idle
              · rw [← Bool.not_eq_true]
                exact fun active =>
                  apart (holder.alone position other located active)
            · refine Or.inr ?_
              show shared.status.phase.final = true
              rw [kept]
              exact final
  | false =>
      rcases runs.inactive active with ⟨stays, same⟩
      simp only [board, Prod.mk.injEq] at same
      rcases same with ⟨settings, status, running⟩
      constructor
      · show shared.status.Stamped
        rw [status]
        exact ok.stamped
      · show shared.status.enabled = shared.settings.enableCrashDemo
        rw [status, settings]
        exact ok.enabled
      · intro busy
        rcases ok.holder (running.symm.trans busy) with
          ⟨position, other, holder⟩
        have apart : index ≠ position := by
          rintro rfl
          rw [holder.found] at found
          cases found
          rw [holder.active] at active
          cases active
        refine ⟨position, other, ?_, holder.active, ?_, ?_⟩
        · exact (List.getElem?_set_ne apart).trans holder.found
        · intro third thread located isActive
          rw [List.getElem?_set] at located
          split_ifs at located with same
          · cases located
            rw [stays] at isActive
            cases isActive
          · exact holder.alone third thread located isActive
        · show other.Shown shared.status
          rw [status]
          exact holder.shown
      · intro idle
        rcases ok.free (running.symm.trans idle) with ⟨inactive, rest⟩
        constructor
        · intro other member
          rcases (mem_set_iff found).mp member with
            rfl | ⟨position, _, located⟩
          · exact stays
          · exact inactive other (List.mem_of_getElem? located)
        · show shared.status.phase = .idle ∨
            shared.status.phase.final = true
          rw [status]
          exact rest

theorem Manager.Consistent.start
    (ok : manager.Consistent) (session : GoString) (now : Time)
    (enabled : manager.enabled = true) (free : manager.running = false) :
    (manager.started session now).Consistent := by
  rcases ok.free free with ⟨inactive, _⟩
  constructor
  · exact ⟨⟨fun _ => nofun, fun _ => rfl⟩, ⟨nofun, nofun⟩,
      ⟨fun told => absurd rfl told, nofun⟩⟩
  · exact enabled.symm
  · intro _
    refine ⟨manager.demos.length, { session }, ?_, rfl, ?_, ?_⟩
    · exact List.getElem?_concat_length
    · intro position other located active
      rcases getElem?_concat_some located with old | ⟨last, _⟩
      · have idle := inactive other (List.mem_of_getElem? old)
        rw [active] at idle
        cases idle
      · exact last
    · exact ⟨rfl, fun _ => rfl, nofun, fun _ => rfl, ⟨nofun, nofun⟩,
        nofun, nofun⟩
  · nofun

/-- The number of demos that have taken `running`. -/
theorem Manager.Consistent.count (ok : manager.Consistent) :
    manager.demos.countP Demo.active = if manager.running then 1 else 0 := by
  cases running : manager.running with
  | true =>
      rcases ok.holder running with ⟨index, demo, holder⟩
      exact countP_eq_one holder.found holder.active holder.alone
  | false =>
      refine List.countP_eq_zero.mpr ?_
      intro demo member
      simp [(ok.free running).1 demo member]

theorem Manager.Runs.settings
    (runs : manager.Runs platform describe demo next shared) :
    shared.settings = manager.settings := by
  cases runs with
  | spawned failure =>
      exact congrArg Prod.fst (spawnWorker_board failure)
  | restarted failure =>
      exact congrArg Prod.fst (spawnWorker_board failure)
  | restored failure =>
      exact congrArg Prod.fst (spawnWorker_board failure)
  | killed _ _ _ _ kills => exact congrArg Prod.fst kills.board
  | _ => rfl

theorem Manager.Moves.settings
    {step : Step} (moves : manager.Moves platform describe step after) :
    after.settings = manager.settings := by
  cases moves with
  | ran _ _ _ _ _ _ runs => exact runs.settings
  | killed _ _ _ _ _ _ kills => exact congrArg Prod.fst kills.board
  | _ => rfl

theorem Manager.Consistent.moves
    {step : Step} (ok : manager.Consistent)
    (moves : manager.Moves platform describe step after) :
    after.Consistent := by
  cases moves with
  | refused => exact ok
  | started session now enabled free =>
      exact ok.start session now enabled free
  | ran index input demo next shared found runs => exact ok.ran found runs
  | killed index input kill next shared found kills =>
      exact ok.beside kills.board kills.threads.1
  | closed => exact ok.beside rfl rfl
  | exited => exact ok.beside rfl rfl
  | finished => exact ok.beside rfl rfl
  | reaped => exact ok.beside rfl rfl
  | served => exact ok.beside rfl rfl
  | skipped => exact ok
  | swept => exact ok.beside rfl rfl
  | canceled => exact ok.beside rfl rfl

theorem consistent_newCrashManager (settings : Settings) :
    (newCrashManager settings).Consistent := by
  constructor
  · exact ⟨⟨nofun, fun begun => absurd rfl begun⟩, ⟨nofun, nofun⟩,
      ⟨fun told => absurd rfl told, nofun⟩⟩
  · rfl
  · nofun
  · exact fun _ => ⟨nofun, Or.inl rfl⟩

/-! ## Every run -/

theorem run_consistent
    {settings : Settings} {steps : List Step} {final : Manager}
    (ran :
      (machine platform describe).run (newCrashManager settings) steps =
        some final) :
    final.Consistent :=
  run_moves Manager.Consistent (fun _ _ _ ok moves => ok.moves moves)
    (consistent_newCrashManager settings) ran

/--
At every moment of every run, the status that `Status` returns is that of the
demo that has taken `running`: it names its session, its task except between
the insertion and the record of it, and a final phase exactly when only the
release of `running` is left.  Without such a demo the phase is `idle` or
final.  The start, the end and the error of the status are set exactly in the
phases they belong to.
-/
theorem crash_status_truthful
    (platform : Platform) (describe : ClientError → GoString)
    (settings : Settings) {steps : List Step} {final : Manager}
    (ran :
      (machine platform describe).run (newCrashManager settings) steps =
        some final) :
    (∀ demo ∈ final.demos, demo.active = true →
        final.status.session = demo.session ∧
          (demo.point = .recording → final.status.taskID = none) ∧
          (demo.point ≠ .recording → final.status.taskID = demo.task) ∧
          (final.status.phase.final = true ↔ demo.point = .releasing)) ∧
      ((∀ demo ∈ final.demos, demo.active = false) →
        final.status.phase = .idle ∨ final.status.phase.final = true) ∧
      (final.status.startedAt.isSome = true ↔ final.status.phase ≠ .idle) ∧
      (final.status.finishedAt.isSome = true ↔
        final.status.phase.final = true) ∧
      (final.status.error ≠ [] ↔ final.status.phase = .failed) := by
  have ok := run_consistent ran
  refine ⟨?_, ?_, ok.stamped.started, ok.stamped.finished, ok.stamped.error⟩
  · intro demo member active
    rcases List.mem_iff_getElem?.mp member with ⟨index, found⟩
    have shown := (ok.held found active).2.shown
    exact ⟨shown.session, shown.recording, shown.task, shown.final⟩
  · intro inactive
    refine (ok.free ?_).2
    cases running : final.running with
    | false => rfl
    | true =>
        rcases ok.holder running with ⟨index, demo, holder⟩
        have idle := inactive demo (List.mem_of_getElem? holder.found)
        rw [holder.active] at idle
        cases idle

/-- A demo that could not start the worker. -/
def failingRun : List Step :=
  [.start none (ascii "s") 0,
    .demo 0 (.spawned (some (ascii "no such file"))), .demo 0 (.clock 1)]

theorem crash_status_truthful_failed :
    ∃ final,
      (machine echoPlatform untold).run (newCrashManager {}) failingRun =
          some final ∧
        final.status.phase = .failed ∧ final.status.error ≠ [] := by
  have reached :
      ∃ final,
        (machine echoPlatform untold).run (newCrashManager {}) failingRun =
            some final ∧
          final.status.phase = .failed :=
    ⟨_, rfl, rfl⟩
  rcases reached with ⟨final, ran, failed⟩
  exact ⟨final, ran, failed,
    (crash_status_truthful echoPlatform untold {} ran).2.2.2.2.mpr failed⟩

/-! ## The request -/

/-- The status in the reply of `Start`. -/
def encodeStatus (status : CrashStatus) : Http.Value :=
  .object
    ([("enabled", .bool status.enabled),
        ("phase", .text status.phase.text)] ++
      Http.omitNil "task_id" (fun id => .text (Http.uuidString id))
        status.taskID ++
      Http.omitNil "started_at" .time status.startedAt ++
      Http.omitNil "updated_at" .time status.updatedAt ++
      Http.omitNil "finished_at" .time status.finishedAt ++
      (if status.error = [] then [] else [("error", .text status.error)]) ++
      [("reaped_total", .int 0)])

/-- `handleCrash`, after the limiters and the body. -/
def handleCrash (context : Option GoString) (session : GoString)
    (now : Time) (manager : Manager) : Http.Reply × Manager :=
  match manager.start context session now with
  | (.error .disabled, next) =>
      (Http.writeError 404 (ascii "crash demo is disabled"), next)
  | (.error .busy, next) =>
      (Http.writeError 409 (ascii "a crash demo is already running"), next)
  | (.error (.context _), next) =>
      (Http.writeError 500 (ascii "failed to start crash demo"), next)
  | (.ok status, next) => (⟨202, none, encodeStatus status⟩, next)

theorem run_enabled
    {settings : Settings} {steps : List Step} {final : Manager}
    (ran :
      (machine platform describe).run (newCrashManager settings) steps =
        some final) :
    final.enabled = settings.enableCrashDemo := by
  refine congrArg Settings.enableCrashDemo ?_
  exact run_moves (fun manager => manager.settings = settings)
    (fun _ _ _ same moves => moves.settings.trans same) rfl ran

/--
The demo is enabled.  At every moment of every run at most one demo holds
`running`; an earlier one may still restore its worker.  A request that has
passed the limiters, of a visitor who still waits, is accepted if none does,
and the demo of that visitor is then the one; it is refused with 409, and
changes nothing, if one does.
-/
theorem crash_demo_exclusive
    (platform : Platform) (describe : ClientError → GoString)
    (settings : Settings) (enabled : settings.enableCrashDemo = true)
    {steps : List Step} {final : Manager}
    (ran :
      (machine platform describe).run (newCrashManager settings) steps =
        some final)
    (session : GoString) (now : Time) :
    final.demos.countP Demo.active ≤ 1 ∧
      (final.demos.countP Demo.active = 0 →
        (handleCrash none session now final).1.status = 202 ∧
          (handleCrash none session now final).2 =
            final.started session now) ∧
      (final.demos.countP Demo.active = 1 →
        (handleCrash none session now final).1.status = 409 ∧
          (handleCrash none session now final).2 = final) := by
  have ok := run_consistent ran
  have allowed : final.enabled = true := (run_enabled ran).trans enabled
  rw [ok.count]
  cases busy : final.running with
  | true =>
      refine ⟨le_rfl, (fun zero => by cases zero), fun _ => ?_⟩
      simp [handleCrash, Manager.start, allowed, busy, Http.writeError]
  | false =>
      refine ⟨Nat.zero_le 1, fun _ => ?_, (fun one => by cases one)⟩
      simp [handleCrash, Manager.start, Manager.started, allowed, busy]

theorem crash_demo_exclusive_busy :
    ∃ final,
      (machine echoPlatform untold).run (newCrashManager {}) spawningRun =
          some final ∧
        final.demos.countP Demo.active = 1 ∧
        (handleCrash none (ascii "t") 5 final).1.status = 409 := by
  have reached :
      ∃ final,
        (machine echoPlatform untold).run (newCrashManager {})
            spawningRun = some final ∧
          final.demos.countP Demo.active = 1 :=
    ⟨_, rfl, rfl⟩
  rcases reached with ⟨final, ran, busy⟩
  exact ⟨final, ran, busy,
    ((crash_demo_exclusive echoPlatform untold {} rfl ran (ascii "t")
      5).2.2 busy).1⟩

end Dhara.Playground.Crash
