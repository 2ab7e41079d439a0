import Dhara.Playground.Http
import Dhara.Store.Timeline

/-!
# The timeline of a task

`TaskLogs` sorts the log entries of a task by their time, and by their number
if the times are equal.  The time of an entry is the start of its
transaction, so the page shows the transitions in the order in which they
were committed exactly if their transactions also began in that order.

`RetryDead` can begin before the `MarkDead` whose effect it undoes.  Its
entry is then shown first.
-/

namespace Dhara.Playground.Http

open Dhara.Store Dhara.Transaction

/-- The limit that `TaskLogs` sends. -/
def logLimit (limit : Int) : Nat :=
  (if limit < 1 ∨ 200 < limit then 100 else limit).toNat

/-- The columns that `TaskLogs` selects. -/
def scanLog (entry : LogRecord) : TaskLog :=
  ⟨entry.status, entry.message.bytes, entry.createdAt⟩

theorem taskLogs_eq_ok
    {surroundings : Surroundings} {position : Nat} {id : TaskId}
    {limit : Int} {db : Database} {logs : List TaskLog}
    (returned : taskLogs surroundings position id limit db = .ok logs) :
    logs =
      (((db.logsOf id).mergeSort olderLog).take (logLimit limit)).map
        scanLog := by
  simp only [taskLogs, answered, bind, Except.bind, pure,
    Except.pure] at returned
  cases faulted : surroundings.faults position with
  | some fault =>
      rw [faulted] at returned
      cases returned
  | none =>
      rw [faulted] at returned
      cases returned
      rfl

/-! ## The order of the listing -/

theorem olderLog_trans (first second third : LogRecord)
    (left : olderLog first second = true)
    (right : olderLog second third = true) :
    olderLog first third = true := by
  simp only [olderLog, decide_eq_true_eq] at left right ⊢
  grind

theorem olderLog_total (first second : LogRecord) :
    (olderLog first second || olderLog second first) = true := by
  simp only [olderLog, Bool.or_eq_true, decide_eq_true_eq]
  grind

/-- Sorting shows the entries as they are if their times are in order. -/
theorem map_scanLog_mergeSort_iff
    {entries : List LogRecord}
    (numbered : entries.Pairwise fun first second => first.id ≤ second.id) :
    (entries.mergeSort olderLog).map scanLog = entries.map scanLog ↔
      entries.Pairwise
        fun first second => first.createdAt ≤ second.createdAt := by
  constructor
  · intro same
    have times :
        (entries.mergeSort olderLog).map LogRecord.createdAt =
          entries.map LogRecord.createdAt := by
      have projected := congrArg (List.map TaskLog.createdAt) same
      rwa [List.map_map, List.map_map] at projected
    have sorted :
        (entries.mergeSort olderLog).Pairwise
          fun first second => first.createdAt ≤ second.createdAt := by
      refine (List.pairwise_mergeSort olderLog_trans olderLog_total
        entries).imp ?_
      intro first second older
      simp only [olderLog, decide_eq_true_eq] at older
      grind
    rw [← List.pairwise_map (R := (· ≤ ·)) (f := LogRecord.createdAt)]
      at sorted ⊢
    rwa [times] at sorted
  · intro timed
    have sorted :
        entries.Pairwise
          fun first second => olderLog first second = true := by
      refine (timed.and numbered).imp ?_
      intro first second both
      simp only [olderLog, decide_eq_true_eq]
      grind
    rw [List.mergeSort_of_pairwise sorted]

/-! ## The order of the transitions -/

section Timeline

variable {platform : Platform}

/--
The log entries of a task show the transitions of the task, and `TaskLogs`
returns them in the order of the commits exactly if the transactions that
made the transitions began in that order.
-/
theorem task_timeline_in_order_iff
    {schedule : List StoreLabel} {config : StoreConfig}
    (sequenced : Sequenced schedule)
    (followed : interleave platform .empty schedule = some config)
    {surroundings : Surroundings} {position : Nat} {id : TaskId}
    {limit : Int} {logs : List TaskLog}
    (few : (config.db.logsOf id).length ≤ logLimit limit)
    (returned :
      taskLogs surroundings position id limit config.db = .ok logs) :
    (timeline id config.history).map LogRecord.status =
        transitions platform id .empty config.history ∧
      (logs = (timeline id config.history).map scanLog ↔
        BegunInOrder schedule id config.history) := by
  refine ⟨interleave_transitions followed id, ?_⟩
  rcases interleave_stamped sequenced followed with ⟨ordered, timed⟩
  have listed := taskLogs_eq_ok returned
  rw [List.take_of_length_le (by simpa using few),
    interleave_logsOf followed id] at listed
  rw [listed, map_scanLog_mergeSort_iff (timeline_ids ordered id),
    timeline_times_iff timed id]

/-- The answer of the server at a time, with a value of the log sequence. -/
def answerAt (clock : Time) (logId : Nat) :
    Answer Fault Resource Oracle Time :=
  ⟨none, fun _ => false, ⟨0, 7, logId⟩, clock⟩

/-- Round trips of a session at a time. -/
def trips (count index : Nat) (clock : Time) (logId : Nat) :
    List StoreLabel :=
  List.replicate count (.advance index (answerAt clock logId))

/-- A task is created, claimed, marked dead and retried. -/
def retriedCalls : List StoreLabel :=
  [.spawn (.create (emailTask [])), .spawn (.claim (ascii "v")),
    .spawn (.markDead 7 (ascii "v") (ascii "e") (ascii "r")),
    .spawn (.retryDead 7)]

/-- The retry begins before the transaction whose effect it undoes. -/
def overtakenSchedule : List StoreLabel :=
  retriedCalls ++ trips 4 0 0 0 ++ trips 5 1 1 1 ++ trips 1 3 5 1 ++
    trips 5 2 6 2 ++ trips 4 3 6 3

/-- The retry begins after the transaction whose effect it undoes. -/
def orderlySchedule : List StoreLabel :=
  retriedCalls ++ trips 4 0 0 0 ++ trips 5 1 1 1 ++ trips 5 2 6 2 ++
    trips 5 3 7 3

/-- What decides the place of an entry, and what is shown there. -/
def placed (entry : LogRecord) : Time × Nat × TaskStatus :=
  (entry.createdAt, entry.id, entry.status)

/-- The order of `TaskLogs` on what decides it. -/
def olderPlace (first second : Time × Nat × TaskStatus) : Bool :=
  first.1 < second.1 ∨ (first.1 = second.1 ∧ first.2.1 ≤ second.2.1)

theorem map_placed_mergeSort (entries : List LogRecord) :
    (entries.mergeSort olderLog).map placed =
      (entries.map placed).mergeSort olderPlace :=
  List.map_mergeSort fun _ _ _ _ => rfl

/--
`MarkDead` commits before `RetryDead` updates the row, but began after it:
the task is shown `PENDING` before it is shown `DEAD`.
-/
theorem overtaken_retry_shown_first :
    ∃ config logs,
      Sequenced overtakenSchedule ∧
        interleave echoPlatform .empty overtakenSchedule = some config ∧
        (config.db.logsOf 7).length ≤ logLimit 100 ∧
        taskLogs {} 0 7 100 config.db = .ok logs ∧
        transitions echoPlatform 7 .empty config.history =
          [.running, .dead, .pending] ∧
        logs.map TaskLog.status = [.running, .pending, .dead] := by
  have reached :
      (interleave echoPlatform .empty overtakenSchedule).map
          (fun config =>
            ((config.db.logsOf 7).map placed,
              transitions echoPlatform 7 .empty config.history)) =
        some
          ([(1, 1, .running), (6, 2, .dead), (5, 3, .pending)],
            [.running, .dead, .pending]) := by
    decide +kernel
  rcases Option.map_eq_some_iff.mp reached with
    ⟨config, followed, equal⟩
  rcases Prod.mk.inj equal with ⟨entries, moved⟩
  have count := congrArg List.length entries
  rw [List.length_map] at count
  have few : (config.db.logsOf 7).length ≤ logLimit 100 := by
    rw [count]
    decide
  refine ⟨config,
    (((config.db.logsOf 7).mergeSort olderLog).take (logLimit 100)).map
      scanLog,
    by decide +kernel, followed, few, rfl, moved, ?_⟩
  have sorted :
      ((config.db.logsOf 7).mergeSort olderLog).map placed =
        [(1, 1, .running), (5, 3, .pending), (6, 2, .dead)] := by
    rw [map_placed_mergeSort, entries]
    simp [List.mergeSort, olderPlace]
  have shown :=
    congrArg (List.map fun place : Time × Nat × TaskStatus => place.2.2)
      sorted
  rw [List.map_map] at shown
  rw [List.map_map, List.take_of_length_le (by simpa using few)]
  exact shown

/-- A retry that began later is shown later. -/
theorem orderly_retry_shown_last :
    ∃ config logs,
      interleave echoPlatform .empty orderlySchedule = some config ∧
        taskLogs {} 0 7 100 config.db = .ok logs ∧
        logs = (timeline 7 config.history).map scanLog ∧
        (timeline 7 config.history).map LogRecord.status =
          transitions echoPlatform 7 .empty config.history := by
  have reached :
      (interleave echoPlatform .empty orderlySchedule).map
          (fun config =>
            (config.db.logsOf 7).map LogRecord.createdAt) =
        some [1, 6, 7] := by
    decide +kernel
  rcases Option.map_eq_some_iff.mp reached with
    ⟨config, followed, times⟩
  have sequenced : Sequenced orderlySchedule := by decide +kernel
  have few : (config.db.logsOf 7).length ≤ logLimit 100 := by
    have count := congrArg List.length times
    rw [List.length_map] at count
    rw [count]
    decide
  have begun : BegunInOrder orderlySchedule 7 config.history := by
    rw [← timeline_times_iff (interleave_stamped sequenced followed).2,
      ← interleave_logsOf followed 7,
      ← List.pairwise_map (R := (· ≤ ·)) (f := LogRecord.createdAt),
      times]
    decide
  have shown :=
    task_timeline_in_order_iff sequenced followed few
      (rfl : taskLogs {} 0 7 100 config.db = .ok _)
  exact ⟨config, _, followed, rfl, shown.2.mpr begun, shown.1⟩

end Timeline

end Dhara.Playground.Http
