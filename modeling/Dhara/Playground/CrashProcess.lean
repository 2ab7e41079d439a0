import Dhara.Playground.CrashManager

/-!
# The child of the crash manager

`proc` is the only reference to the isolated worker.  `killWorker` drops it
before it kills the child, and the goroutine of a child drops it after the
child has exited, but only if it still is its own.  In between a demo may
start another child.

At every moment each child that runs is the one of `proc`, or has been sent a
signal, or is about to be sent one, or could not be killed.
-/

namespace Dhara.Playground.Crash

open Dhara.Store Dhara.Transaction

variable {platform : Platform} {describe : ClientError → GoString}
  {manager after shared : Manager} {demo next : Demo} {handle index : Nat}

/-! ## The invariant -/

/-- A thread is about to kill the child. -/
def Manager.Pursued (manager : Manager) (handle : Nat) : Prop :=
  (∃ demo ∈ manager.demos, demo.point = .killing (.killing handle)) ∨
    Kill.killing handle ∈ manager.closers

/-- The child does not run, or `killWorker` deals with it. -/
def Manager.Attended (manager : Manager) (handle : Nat)
    (child : ProcHandle) : Prop :=
  child.running = false ∨ child.signaled = true ∨ child.spared = true ∨
    manager.Pursued handle

/-- No child is forgotten. -/
structure Manager.Supervised (manager : Manager) : Prop where
  newest :
    ∀ handle, manager.proc = some handle → handle + 1 = manager.handles.length
  attended :
    ∀ handle child, manager.handles[handle]? = some child →
      manager.proc = some handle ∨ manager.Attended handle child
  exited :
    ∀ (handle : Nat) (child : ProcHandle),
      manager.handles[handle]? = some child → child.done = true →
        child.running = false

theorem Manager.Attended.mono
    {child : ProcHandle} (attended : manager.Attended handle child)
    (pursued : manager.Pursued handle → after.Pursued handle) :
    after.Attended handle child := by
  rcases attended with stopped | signaled | spared | pursuit
  · exact Or.inl stopped
  · exact Or.inr (Or.inl signaled)
  · exact Or.inr (Or.inr (Or.inl spared))
  · exact Or.inr (Or.inr (Or.inr (pursued pursuit)))

/-- A change of the threads that takes no pursuer away. -/
theorem Manager.Supervised.threads
    (ok : manager.Supervised) (sameProc : after.proc = manager.proc)
    (sameHandles : after.handles = manager.handles)
    (pursued : ∀ handle, manager.Pursued handle → after.Pursued handle) :
    after.Supervised := by
  constructor
  · rw [sameProc, sameHandles]
    exact ok.newest
  · intro handle child found
    rw [sameHandles] at found
    rw [sameProc]
    exact (ok.attended handle child found).imp_right
      fun attended => attended.mono (pursued handle)
  · rw [sameHandles]
    exact ok.exited

/-- A new child, when there is no other one. -/
theorem Manager.Supervised.spawn
    (ok : manager.Supervised) (free : manager.proc = none)
    (held : after.proc = some manager.handles.length)
    (added : after.handles = manager.handles ++ [({} : ProcHandle)])
    (pursued : ∀ handle, manager.Pursued handle → after.Pursued handle) :
    after.Supervised := by
  constructor
  · intro handle equal
    rw [held] at equal
    cases equal
    simp [added]
  · intro handle child found
    rw [added] at found
    rcases getElem?_concat_some found with old | ⟨rfl, rfl⟩
    · rcases ok.attended handle child old with current | attended
      · rw [free] at current
        cases current
      · exact Or.inr (attended.mono (pursued handle))
    · exact Or.inl held
  · intro handle child found done
    rw [added] at found
    rcases getElem?_concat_some found with old | ⟨_, rfl⟩
    · exact ok.exited handle child old done
    · cases done

/-- A change of one child. -/
theorem Manager.Supervised.marked
    {change : ProcHandle → ProcHandle} (ok : manager.Supervised)
    (handle : Nat) (sameProc : after.proc = manager.proc)
    (changed : after.handles = manager.handles.modify handle change)
    (attended :
      ∀ child, manager.handles[handle]? = some child →
        manager.Attended handle child → after.Attended handle (change child))
    (exited :
      ∀ child, manager.handles[handle]? = some child →
        (child.done = true → child.running = false) →
          (change child).done = true → (change child).running = false)
    (others :
      ∀ position, handle ≠ position → manager.Pursued position →
        after.Pursued position) :
    after.Supervised := by
  constructor
  · rw [sameProc, changed, List.length_modify]
    exact ok.newest
  · intro position child found
    rw [changed] at found
    rw [sameProc]
    rcases getElem?_modify_some found with ⟨before, located, rfl⟩
    refine (ok.attended position before located).imp_right ?_
    intro was
    split_ifs with same
    · subst same
      exact attended before located was
    · exact was.mono (others position same)
  · intro position child found
    rw [changed] at found
    rcases getElem?_modify_some found with ⟨before, located, rfl⟩
    split_ifs with same
    · subst same
      exact exited before located (ok.exited handle before located)
    · exact ok.exited position before located

/-- One thread goes on with `killWorker`. -/
theorem Manager.Supervised.kill
    {kill next : Kill} (ok : manager.Supervised)
    (kills : manager.Kills kill next shared)
    (sameProc : after.proc = shared.proc)
    (sameHandles : after.handles = shared.handles)
    (others :
      ∀ handle, kill ≠ .killing handle → manager.Pursued handle →
        after.Pursued handle)
    (itself : ∀ handle, next = .killing handle → after.Pursued handle) :
    after.Supervised := by
  cases kills with
  | absent idle =>
      exact ok.threads sameProc sameHandles
        fun handle => others handle (by simp)
  | taken handle held =>
      constructor
      · rw [sameProc]
        rintro _ ⟨⟩
      · intro position child found
        rw [sameHandles] at found
        rcases ok.attended position child found with current | attended
        · rw [held] at current
          cases current
          exact Or.inr (Or.inr (Or.inr (Or.inr (itself handle rfl))))
        · exact Or.inr (attended.mono (others position (by simp)))
      · rw [sameHandles]
        exact ok.exited
  | signaled handle =>
      refine ok.marked handle sameProc sameHandles ?_ ?_ ?_
      · intro child _ _
        exact Or.inr (Or.inl rfl)
      · exact fun child _ exited => exited
      · exact fun position apart =>
          others position (by simpa using apart)
  | spared handle cause =>
      refine ok.marked handle sameProc sameHandles ?_ ?_ ?_
      · intro child _ _
        exact Or.inr (Or.inr (Or.inl rfl))
      · exact fun child _ exited => exited
      · exact fun position apart =>
          others position (by simpa using apart)
  | exited handle done =>
      exact ok.threads sameProc sameHandles
        fun position => others position (by simp)
  | overdue handle =>
      exact ok.threads sameProc sameHandles
        fun position => others position (by simp)

/-! ## One step -/

theorem Manager.Kills.threads
    {kill next : Kill} (kills : manager.Kills kill next shared) :
    shared.demos = manager.demos ∧ shared.closers = manager.closers := by
  cases kills <;> exact ⟨rfl, rfl⟩

/-- `spawnWorker` starts a child or changes nothing. -/
theorem Manager.spawnWorker_cases (failure : Option GoString) :
    (manager.spawnWorker failure).2 = manager ∨
      manager.proc = none ∧
        (manager.spawnWorker failure).2 =
          { manager with
            proc := some manager.handles.length
            handles := manager.handles ++ [{}] } := by
  simp only [spawnWorker]
  by_cases busy : manager.workerRunning = true
  · rw [if_pos busy]
    exact Or.inl rfl
  · rw [if_neg busy]
    cases failure with
    | some cause => exact Or.inl rfl
    | none =>
        exact Or.inr ⟨Option.not_isSome_iff_eq_none.mp busy, rfl⟩

/-- What a demo does to the children. -/
inductive Manager.Handles (manager : Manager) (demo next : Demo)
    (shared : Manager) : Prop where
  | kept (idle : ∀ kill, demo.point ≠ .killing kill)
      (sameProc : shared.proc = manager.proc)
      (sameHandles : shared.handles = manager.handles)
  | spawned (idle : ∀ kill, demo.point ≠ .killing kill)
      (free : manager.proc = none)
      (held : shared.proc = some manager.handles.length)
      (added : shared.handles = manager.handles ++ [({} : ProcHandle)])
  | killed (kill after : Kill)
      (reached : demo.point = .killing kill)
      (went : next.point = killResult after)
      (kills : manager.Kills kill after shared)

theorem Manager.Handles.of_spawnWorker
    (failure : Option GoString) (idle : ∀ kill, demo.point ≠ .killing kill) :
    manager.Handles demo next (manager.spawnWorker failure).2 := by
  rcases manager.spawnWorker_cases failure with same | ⟨free, added⟩
  · rw [same]
    exact .kept idle rfl rfl
  · rw [added]
    exact .spawned idle free rfl rfl

theorem Manager.Runs.handles
    (runs : manager.Runs platform describe demo next shared) :
    manager.Handles demo next shared := by
  cases runs with
  | spawned failure reached =>
      exact .of_spawnWorker failure (by simp [reached])
  | restarted failure reached =>
      exact .of_spawnWorker failure (by simp [reached])
  | restored failure reached =>
      exact .of_spawnWorker failure (by simp [reached])
  | killed kill after _ reached kills =>
      exact .killed kill after reached rfl kills
  | rejected error reached =>
      refine .kept ?_ rfl rfl
      rcases reached with reached | ⟨call, reached⟩ <;> simp [reached]
  | _ => exact .kept (by simp [*]) rfl rfl

theorem Manager.Runs.threads
    (runs : manager.Runs platform describe demo next shared) :
    shared.demos = manager.demos ∧ shared.closers = manager.closers := by
  have spawns :
      ∀ failure,
        (manager.spawnWorker failure).2.demos = manager.demos ∧
          (manager.spawnWorker failure).2.closers = manager.closers := by
    intro failure
    rcases manager.spawnWorker_cases failure with same | ⟨_, added⟩
    · rw [same]
      exact ⟨rfl, rfl⟩
    · rw [added]
      exact ⟨rfl, rfl⟩
  cases runs with
  | spawned failure => exact spawns failure
  | restarted failure => exact spawns failure
  | restored failure => exact spawns failure
  | killed _ _ _ _ kills => exact kills.threads
  | _ => exact ⟨rfl, rfl⟩

/-- The pursuers that are not the demo that makes the step. -/
theorem Manager.Pursued.other_demo
    (pursued : manager.Pursued handle)
    (found : manager.demos[index]? = some demo)
    (elsewhere : demo.point ≠ .killing (.killing handle))
    (threads :
      shared.demos = manager.demos ∧ shared.closers = manager.closers) :
    ({ shared with demos := shared.demos.set index next } :
        Manager).Pursued handle := by
  rcases pursued with ⟨other, member, reached⟩ | member
  · refine Or.inl ⟨other, ?_, reached⟩
    rw [← threads.1] at found member
    refine mem_set_of_ne found member ?_
    rintro rfl
    exact elsewhere reached
  · refine Or.inr ?_
    rw [← threads.2] at member
    exact member

theorem Manager.Supervised.ran
    (ok : manager.Supervised) (found : manager.demos[index]? = some demo)
    (runs : manager.Runs platform describe demo next shared) :
    ({ shared with demos := shared.demos.set index next } :
        Manager).Supervised := by
  have threads := runs.threads
  cases runs.handles with
  | kept idle sameProc sameHandles =>
      refine ok.threads sameProc sameHandles ?_
      intro handle pursued
      exact pursued.other_demo found (idle _) threads
  | spawned idle free held added =>
      refine ok.spawn free held added ?_
      intro handle pursued
      exact pursued.other_demo found (idle _) threads
  | killed kill after reached went kills =>
      refine ok.kill kills rfl rfl ?_ ?_
      · intro handle elsewhere pursued
        refine pursued.other_demo found ?_ threads
        rw [reached]
        simpa using elsewhere
      · rintro handle rfl
        refine Or.inl ⟨next, ?_, went⟩
        rw [← threads.1] at found
        exact (mem_set_iff found).mpr (Or.inl rfl)

theorem Manager.Supervised.closer
    {kill next : Kill} (ok : manager.Supervised)
    (found : manager.closers[index]? = some kill)
    (kills : manager.Kills kill next shared) :
    ({ shared with closers := shared.closers.set index next } :
        Manager).Supervised := by
  have threads := kills.threads
  rw [← threads.2] at found
  refine ok.kill kills rfl rfl ?_ ?_
  · rintro handle elsewhere (⟨demo, member, reached⟩ | member)
    · rw [← threads.1] at member
      exact Or.inl ⟨demo, member, reached⟩
    · rw [← threads.2] at member
      exact Or.inr (mem_set_of_ne found member (Ne.symm elsewhere))
  · rintro handle rfl
    exact Or.inr ((mem_set_iff found).mpr (Or.inl rfl))

/-- The goroutine of a child drops the handle only if it is its own. -/
theorem Manager.Supervised.reap
    (ok : manager.Supervised)
    (done :
      (manager.handles[handle]?).any
        (fun child => child.done && !child.reaped) = true) :
    ({ manager with
        proc :=
          if manager.proc = some handle then none
          else manager.proc } : Manager).Supervised := by
  constructor
  · intro position held
    refine ok.newest position ?_
    split_ifs at held with own
    exact held
  · intro position child located
    rcases ok.attended position child located with current | attended
    · by_cases own : manager.proc = some handle
      · rw [own] at current
        cases current
        rw [located] at done
        have exited : child.done = true := by
          simp_all
        exact Or.inr (Or.inl (ok.exited handle child located exited))
      · exact Or.inl ((if_neg own).trans current)
    · exact Or.inr attended
  · exact ok.exited

theorem Manager.Supervised.moves
    {step : Step} (ok : manager.Supervised)
    (moves : manager.Moves platform describe step after) :
    after.Supervised := by
  cases moves with
  | refused => exact ok
  | started session now =>
      refine ok.threads rfl rfl ?_
      rintro handle (⟨demo, member, reached⟩ | member)
      · exact Or.inl ⟨demo, List.mem_append_left _ member, reached⟩
      · exact Or.inr member
  | closed =>
      refine ok.threads rfl rfl ?_
      rintro handle (pursuit | member)
      · exact Or.inl pursuit
      · exact Or.inr (List.mem_append_left _ member)
  | ran index input demo next shared found runs =>
      exact ok.ran found runs
  | killed index input kill next shared found kills =>
      exact ok.closer found kills
  | exited handle =>
      refine ok.marked handle rfl rfl ?_ ?_ ?_
      · exact fun _ _ _ => Or.inl rfl
      · exact fun _ _ _ _ => rfl
      · exact fun _ _ pursued => pursued
  | finished handle dead =>
      refine ok.marked handle rfl rfl ?_ ?_ ?_
      · exact fun _ _ attended => attended
      · intro child located _ _
        rw [located] at dead
        simpa using dead
      · exact fun _ _ pursued => pursued
  | reaped handle done =>
      refine (ok.reap done).marked handle rfl rfl ?_ ?_ ?_
      · exact fun _ _ attended => attended
      · exact fun _ _ exited => exited
      · exact fun _ _ pursued => pursued
  | skipped => exact ok
  | served => exact ok.threads rfl rfl fun _ pursued => pursued
  | swept => exact ok.threads rfl rfl fun _ pursued => pursued
  | canceled => exact ok.threads rfl rfl fun _ pursued => pursued

theorem supervised_newCrashManager (settings : Settings) :
    (newCrashManager settings).Supervised := by
  constructor
  · rintro _ ⟨⟩
  · rintro _ _ ⟨⟩
  · rintro _ _ ⟨⟩

/-! ## Every run -/

/--
In every run, each child that is still running, has not been sent a signal
and has not survived a failed `Kill`, is the one of `proc` or is about to be
killed by a thread.  So at most one child runs that no call of `killWorker`
has taken.
-/
theorem no_child_is_forgotten
    (platform : Platform) (describe : ClientError → GoString)
    (settings : Settings) {steps : List Step} {final : Manager}
    (ran :
      (machine platform describe).run (newCrashManager settings) steps =
        some final)
    {handle : Nat} {child : ProcHandle}
    (located : final.handles[handle]? = some child)
    (alive : child.running = true) (unsignaled : child.signaled = false)
    (unspared : child.spared = false) :
    final.Pursued handle ∨
      final.proc = some handle ∧ handle + 1 = final.handles.length := by
  have ok : final.Supervised :=
    run_moves Manager.Supervised (fun _ _ _ ok moves => ok.moves moves)
      (supervised_newCrashManager settings) ran
  rcases ok.attended handle child located with
    held | stopped | signaled | spared | pursued
  · exact Or.inr ⟨held, ok.newest handle held⟩
  · rw [alive] at stopped
    cases stopped
  · rw [unsignaled] at signaled
    cases signaled
  · rw [unspared] at spared
    cases spared
  · exact Or.inl pursued

/-- The error of a client without its text. -/
def untold : ClientError → GoString :=
  fun _ => []

/-- A demo that has started the worker. -/
def spawningRun : List Step :=
  [.start none (ascii "s") 0, .demo 0 (.spawned none)]

/-- Round trips of a call of the store. -/
def serves (session count : Nat) (clock : Time) : List Step :=
  List.replicate count (.serve (.advance session (calm 7 clock 0)))

/-- A demo whose worker was killed and restarted. -/
def restartedRun : List Step :=
  spawningRun ++
    [.demo 0 (.clock 0), .demo 0 (.nonce 0 (ascii "u"))] ++
    serves 0 4 0 ++
    [.demo 0 .go, .demo 0 .go, .demo 0 (.clock 1),
      .serve (.spawn (.claim (ascii "w")))] ++ serves 1 5 0 ++
    [.demo 0 (.read false), .demo 0 (.clock 2), .demo 0 .go,
      .demo 0 (.killed none), .exit 0, .finish 0, .demo 0 .go,
      .demo 0 (.clock 3),
      .serve (.spawn (.requeueStaleRunning 4000000 (ascii "r")))] ++
    serves 2 6 5000000 ++
    [.demo 0 (.read false), .demo 0 (.clock 4), .demo 0 (.spawned none)]

theorem no_child_is_forgotten_restarted :
    ∃ final,
      (machine echoPlatform untold).run (newCrashManager {})
          restartedRun = some final ∧
        final.handles.map ProcHandle.signaled = [true, false] ∧
        (final.Pursued 1 ∨
          final.proc = some 1 ∧ 1 + 1 = final.handles.length) := by
  have reached :
      ((machine echoPlatform untold).run (newCrashManager {})
          restartedRun).any (fun final =>
        final.handles.map ProcHandle.signaled = [true, false] ∧
          final.handles[1]? = some ({} : ProcHandle)) = true := by
    decide +kernel
  rcases (Option.any_eq_true _ _).mp reached with ⟨final, ran, checked⟩
  rw [decide_eq_true_eq] at checked
  exact ⟨final, ran, checked.1,
    no_child_is_forgotten echoPlatform untold {} ran checked.2 rfl rfl rfl⟩

end Dhara.Playground.Crash
