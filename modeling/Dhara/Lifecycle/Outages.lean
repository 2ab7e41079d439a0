import Dhara.Lifecycle.Moves

/-!
# Claims that fail

While the store cannot be reached, every claim of every worker fails.  Each
failure is counted, but a worker warns only of the first one of an outage.  A
failure that is received after the context has ended is not looked at: the
loop returns.
-/

namespace Dhara.Lifecycle

open Dhara.Store Dhara.Pool

/-! ## Outages -/

/-- What a claim was for the loop. -/
inductive Claimed where
  | task
  | empty
  | failed
deriving DecidableEq

/-- What a claim with this result was. -/
def Claimed.of : Option Response → Claimed
  | some (.task (.ok _)) => .task
  | some (.task (.error .taskNotAvailable)) => .empty
  | _ => .failed

theorem Claimed.of_eq_failed {result : Option Response}
    (refused : ∀ task, result ≠ some (.task (.ok task)))
    (available : result ≠ some (.task (.error .taskNotAvailable))) :
    Claimed.of result = .failed := by
  unfold Claimed.of
  split
  · exact absurd rfl (refused _)
  · exact absurd rfl available
  · rfl

/-- A claim fails, and the one before it did not. -/
def outageBegins (results : List Claimed) (position : Nat) : Bool :=
  decide (results[position]? = some .failed) &&
    (position == 0 || decide (results[position - 1]? ≠ some .failed))

/-- How many outages a loop has seen. -/
def outages (results : List Claimed) : Nat :=
  (List.range results.length).countP (outageBegins results)

/-- An outage begins with a failure that follows no other. -/
theorem outages_concat (results : List Claimed) (result : Claimed) :
    outages (results ++ [result]) =
      outages results +
        if result = .failed ∧ results.getLast? ≠ some .failed then 1
        else 0 := by
  have before :
      (List.range results.length).countP
          (outageBegins (results ++ [result])) =
        outages results := by
    refine List.countP_congr ?_
    intro position member
    have inside := List.mem_range.mp member
    have previous : position - 1 < results.length := by omega
    simp only [outageBegins, List.getElem?_append_left inside,
      List.getElem?_append_left previous]
  have last :
      outageBegins (results ++ [result]) results.length =
        decide (result = .failed ∧ results.getLast? ≠ some .failed) := by
    cases results using List.reverseRecOn with
    | nil => simp [outageBegins]
    | append_singleton earlier final =>
        simp [outageBegins]
  rw [outages, List.length_append, List.length_singleton,
    List.range_succ, List.countP_append, before, List.countP_singleton,
    last]
  simp only [decide_eq_true_eq]

/-! ## The loop of a worker -/

/-- What the claims were that the loop has received, in their order. -/
def Goroutine.results (store : StoreConfig) (goroutine : Goroutine) :
    List Claimed :=
  goroutine.claims.filterMap fun claim =>
    (callResult store claim).map Claimed.of

/--
The claims that the loop has received have returned, and it knows whether the
last one failed and has warned of that.
-/
structure Goroutine.Warned (store : StoreConfig) (goroutine : Goroutine) :
    Prop where
  returned :
    ∀ claim ∈ goroutine.claims, (callResult store claim).isSome = true
  failing :
    goroutine.claimFailing = true ↔
      (goroutine.results store).getLast? = some .failed
  warnings : goroutine.warnings = outages (goroutine.results store)

section Turns

variable {goroutine after : Goroutine} {canceled : Bool}
  {worker : Worker} {store : StoreConfig} {move : Move} {phase : Phase}
  {metrics : Metrics} {claim : Nat} {result : Option Response}

/-- The results of a loop that has received one more claim. -/
theorem Goroutine.results_received
    (returned : callResult store claim = some result)
    (received : after.claims = goroutine.claims ++ [claim]) :
    after.results store = goroutine.results store ++ [Claimed.of result] := by
  simp [results, received, List.filterMap_append, returned]

theorem Goroutine.Warned.received
    (warned : goroutine.Warned store)
    (returned : callResult store claim = some result)
    (received : after.claims = goroutine.claims ++ [claim])
    (failing : after.claimFailing = true ↔ Claimed.of result = .failed)
    (warnings :
      after.warnings =
        if after.claimFailing && !goroutine.claimFailing then
          goroutine.warnings + 1
        else goroutine.warnings) : after.Warned store := by
  have results := Goroutine.results_received returned received
  refine ⟨?_, ?_, ?_⟩
  · intro other member
    rw [received] at member
    rcases List.mem_append.mp member with old | new
    · exact warned.returned other old
    · rw [List.mem_singleton.mp new, returned]
      rfl
  · rw [results, List.getLast?_concat, failing, Option.some.injEq]
  · rw [results, outages_concat, warnings, warned.warnings]
    simp only [← failing, ne_eq, ← warned.failing]
    cases after.claimFailing <;> cases goroutine.claimFailing <;> rfl

theorem Goroutine.Turns.warned
    (turns : goroutine.Turns canceled worker store move after phase metrics)
    (warned : goroutine.Warned store) : after.Warned store := by
  cases turns with
  | took claim task loop before returned =>
      exact warned.received returned rfl (by simp [Claimed.of]) rfl
  | empty claim loop lasting before returned =>
      exact warned.received returned rfl (by simp [Claimed.of]) rfl
  | failed claim result loop lasting before returned refused available =>
      refine warned.received returned rfl ?_ ?_
      · simp [Claimed.of_eq_failed refused available]
      · cases goroutine.claimFailing <;> rfl
  | begin | declined | claim | left | finish | settle | beatRunning
  | beatPersisting | poll | quit =>
      exact ⟨warned.returned, warned.failing, warned.warnings⟩

/-- Every claim that fails is counted. -/
theorem Goroutine.Turns.failures
    (turns : goroutine.Turns canceled worker store move after phase metrics) :
    metrics.claimErrorsTotal =
      ((after.results store).count .failed -
        (goroutine.results store).count .failed : Int) := by
  cases turns with
  | took claim task loop before returned =>
      rw [Goroutine.results_received returned rfl]
      simp [Claimed.of]
  | empty claim loop lasting before returned =>
      rw [Goroutine.results_received returned rfl]
      simp [Claimed.of]
  | failed claim result loop lasting before returned refused available =>
      rw [Goroutine.results_received returned rfl,
        Claimed.of_eq_failed refused available, List.count_append,
        List.count_singleton_self]
      push_cast
      omega
  | _ => simp [Goroutine.results]

end Turns

/-! ## Every run -/

/-- The failures of a process are counted, and its loops have warned. -/
structure Process.Reported (system : State) (process : Process) :
    Prop where
  counted :
    process.metrics.claimErrorsTotal =
      process.running.elim 0 fun running =>
        ((running.goroutines.flatMap
          (Goroutine.results system.store)).count .failed : Int)
  warned :
    ∀ running, process.running = some running →
      ∀ goroutine ∈ running.goroutines, goroutine.Warned system.store

section Hosts

variable {platform : Platform}

/-- The results that a loop has received do not change. -/
theorem Goes.results {system after : State} {goroutine : Goroutine}
    (goes : Goes platform system after)
    (warned : goroutine.Warned system.store) :
    goroutine.results after.store = goroutine.results system.store := by
  refine List.filterMap_congr fun claim member => ?_
  rcases Option.isSome_iff_exists.mp (warned.returned claim member) with
    ⟨result, returned⟩
  rw [goes.returned returned, returned]

theorem Process.Reported.goes {process : Process} {system after : State}
    (reported : process.Reported system)
    (goes : Goes platform system after) : process.Reported after := by
  have same :
      ∀ running, process.running = some running →
        running.goroutines.flatMap (Goroutine.results after.store) =
          running.goroutines.flatMap (Goroutine.results system.store) :=
    fun running runs => List.flatMap_congr fun goroutine member =>
      goes.results (reported.warned running runs goroutine member)
  constructor
  · rw [reported.counted]
    cases runs : process.running with
    | none => rfl
    | some running => simp only [Option.elim_some, same running runs]
  · intro running runs goroutine member
    have warned := reported.warned running runs goroutine member
    have results := goes.results warned
    refine ⟨?_, results ▸ warned.failing, results ▸ warned.warnings⟩
    intro claim received
    rcases Option.isSome_iff_exists.mp (warned.returned claim received)
      with ⟨result, returned⟩
    rw [goes.returned returned]
    rfl

theorem Process.Reported.moves {process later : Process}
    {system after : State} {turn : Option (Nat × Move)}
    (reported : process.Reported system)
    (moves : process.Moves platform system turn later after) :
    later.Reported system := by
  have counted := reported.counted
  cases moves with
  | paced paced =>
      rcases paced.running with
        ⟨none, gone⟩ | ⟨running, resumed, runs, goesOn, same⟩
      · refine ⟨by rw [paced.metrics, gone, counted, none], ?_⟩
        intro running continues
        rw [gone] at continues
        cases continues
      · constructor
        · rw [paced.metrics, goesOn, counted, runs, Option.elim_some,
            Option.elim_some, same.goroutines]
        · intro current continues
          rw [goesOn] at continues
          cases continues
          rw [same.goroutines]
          exact reported.warned running runs
  | started fresh pools workers goes =>
      constructor
      · rw [counted, fresh, Option.elim_some, List.count_eq_zero.mpr]
        · rfl
        · intro member
          rcases List.mem_flatMap.mp member with ⟨goroutine, spawned, failed⟩
          rw [List.eq_of_mem_replicate spawned] at failed
          cases failed
      · rintro running ⟨⟩ goroutine member
        rw [List.eq_of_mem_replicate member]
        exact ⟨nofun, by simp [Goroutine.results], rfl⟩
  | @worked _ _ _ goroutine _ _ _ metrics _ worked =>
      constructor
      · show process.metrics.claimErrorsTotal +
            metrics.claimErrorsTotal = _
        rw [counted, worked.runs, worked.turns.failures]
        exact (count_flatMap_set_int _ worked.located).symm
      · rintro current ⟨⟩ thread member
        have warned := reported.warned _ worked.runs
        rcases List.mem_or_eq_of_mem_set member with old | rfl
        · exact warned thread old
        · exact worked.turns.warned
            (warned goroutine (List.mem_of_getElem? worked.located))
  | reaped runs active failures pools workers goes =>
      constructor
      · rw [runs] at counted
        rw [failures]
        exact (Int.add_zero _).trans counted
      · have warned := reported.warned _ runs
        rintro current ⟨⟩
        exact warned
  | exited left => exact ⟨counted, reported.warned⟩

/--
At every moment of every run `ClaimErrorsTotal` of a worker process is the
number of claims that its loops have received while their context lasted and
that failed for another reason than an empty queue, and every loop has logged
one warning for each of its outages, however long they lasted.
-/
theorem outages_reported_once {labels : List Label} {final : Host}
    (ran : (machine platform).run {} labels = some final)
    {index : Nat} {process : Process} {running : Running}
    (found : final.processes[index]? = some process)
    (runs : process.running = some running) :
    process.metrics.claimErrorsTotal =
        (running.goroutines.flatMap
          (Goroutine.results final.system.store)).count .failed ∧
      ∀ goroutine ∈ running.goroutines,
        (∀ claim ∈ goroutine.claims,
          (callResult final.system.store claim).isSome = true) ∧
        goroutine.warnings =
          outages (goroutine.results final.system.store) := by
  have reported :
      ∀ process ∈ final.processes, process.Reported final.system :=
    run_processes Process.Reported
      (fun _ _ => ⟨rfl, by rintro running ⟨⟩⟩) Process.Reported.goes
      Process.Reported.moves ran
  have here := reported process (List.mem_of_getElem? found)
  constructor
  · have counted := here.counted
    rw [runs] at counted
    exact counted
  · intro goroutine member
    have warned := here.warned running runs goroutine member
    exact ⟨warned.returned, warned.warnings⟩

end Hosts

/-- A claim whose connection is lost. -/
def lostClaim (session : Nat) : List Label :=
  [.work 0 0 .claim, .lose session, .work 0 0 .receive, .work 0 0 .poll]

/-- Two outages, the first of two claims, with an empty queue between. -/
def outageRun : List Label :=
  [.create {}, .start 0 false, .work 0 0 .begin] ++ lostClaim 0 ++
    lostClaim 1 ++ [.work 0 0 .claim] ++
    List.replicate 3 (.serve 2 (calm 7 0 0)) ++
    [.work 0 0 .receive, .work 0 0 .poll] ++ lostClaim 3

theorem outageRun_reported :
    ∃ final process running goroutine,
      (machine echoPlatform).run {} outageRun = some final ∧
        final.processes[0]? = some process ∧
        process.running = some running ∧
        running.goroutines[0]? = some goroutine ∧
        process.metrics.claimErrorsTotal = 3 ∧
        goroutine.warnings = 2 := by
  have reached :
      ((machine echoPlatform).run {} outageRun).any
          (fun final =>
            final.processes[0]?.any fun process =>
              process.running.any fun running =>
                decide
                  ((running.goroutines.flatMap
                    (Goroutine.results final.system.store)).count
                      .failed = 3) &&
                  running.goroutines[0]?.any fun goroutine =>
                    decide
                      (outages (goroutine.results final.system.store) = 2)) =
        true := by
    decide +kernel
  rcases (Option.any_eq_true _ _).mp reached with ⟨final, ran, holds⟩
  rcases (Option.any_eq_true _ _).mp holds with ⟨process, found, works⟩
  rcases (Option.any_eq_true _ _).mp works with ⟨running, runs, both⟩
  rcases Bool.and_eq_true_iff.mp both with ⟨three, seen⟩
  rcases (Option.any_eq_true _ _).mp seen with ⟨goroutine, located, two⟩
  rcases outages_reported_once ran found runs with ⟨errors, warnings⟩
  exact ⟨final, process, running, goroutine, ran, found, runs, located,
    errors.trans (congrArg Nat.cast (of_decide_eq_true three)),
    (warnings goroutine (List.mem_of_getElem? located)).2.trans
      (of_decide_eq_true two)⟩

end Dhara.Lifecycle
