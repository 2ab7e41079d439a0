import Dhara.Transaction.Traces
import Mathlib.Algebra.BigOperators.Group.List.Basic
import Mathlib.Algebra.GroupWithZero.Nat

/-!
# Counters under interleaving

Programs move process counters between their round trips.
`Program.Reports` says what a program has counted wherever it returns, and
`Engine.follow_reports` carries this to every session of a schedule.

The counters of a process are summed over its sessions, and what the process
has committed is summed over the history.  `Config.counted_eq` turns a
balance of every single session into a balance of the process.
-/

namespace Dhara.Transaction

section Totals

variable {Counter : Type} [DecidableEq Counter]

/-- The total of one counter. -/
def total (counter : Counter) (counts : List (Counter × Nat)) : Nat :=
  (counts.map fun entry =>
    if entry.1 = counter then entry.2 else 0).sum

@[simp]
theorem total_nil (counter : Counter) : total counter [] = 0 :=
  rfl

@[simp]
theorem total_cons (counter : Counter) (entry : Counter × Nat)
    (counts : List (Counter × Nat)) :
    total counter (entry :: counts) =
      (if entry.1 = counter then entry.2 else 0) + total counter counts := by
  simp [total]

@[simp]
theorem total_append (counter : Counter)
    (first second : List (Counter × Nat)) :
    total counter (first ++ second) =
      total counter first + total counter second := by
  simp [total]

end Totals

/-! ## What a program counts -/

section Reports

variable
    {Call Stmt : Type} {Reply : Stmt → Type}
    {Fault Db Write Res Oracle Time Counter Result : Type}

/-- Wherever the program returns, it has counted what `Says` allows. -/
def Program.Reports (Says : Result → List (Counter × Nat) → Prop) :
    List (Counter × Nat) → Program Stmt Reply Fault Counter Result → Prop
  | counts, .done result => Says result counts
  | counts, .begin next =>
      ∀ reply, Program.Reports Says counts (next reply)
  | counts, .exec _ next =>
      ∀ reply, Program.Reports Says counts (next reply)
  | counts, .query _ next =>
      ∀ reply, Program.Reports Says counts (next reply)
  | counts, .scan next =>
      ∀ reply, Program.Reports Says counts (next reply)
  | counts, .commit next =>
      ∀ reply, Program.Reports Says counts (next reply)
  | counts, .count counter amount next =>
      Program.Reports Says (counts ++ [(counter, amount)]) next

theorem Program.Reports.onFault
    {Says : Result → List (Counter × Nat) → Prop}
    {counts : List (Counter × Nat)} {fault : Fault}
    {program rest : Program Stmt Reply Fault Counter Result}
    (reports : program.Reports Says counts)
    (failing : program.onFault fault = some rest) :
    rest.Reports Says counts := by
  cases program with
  | done result => cases failing
  | count counter amount next => cases failing
  | _ =>
      cases failing
      exact reports (.error fault)

theorem Program.Reports.mono
    {Says Weaker : Result → List (Counter × Nat) → Prop}
    {counts : List (Counter × Nat)}
    {program : Program Stmt Reply Fault Counter Result}
    (reports : program.Reports Says counts)
    (implies : ∀ result counts, Says result counts → Weaker result counts) :
    program.Reports Weaker counts := by
  induction program generalizing counts with
  | done result => exact implies _ _ reports
  | count counter amount next induction => exact induction reports
  | exec stmt next induction | query stmt next induction =>
      exact fun reply => induction reply (reports reply)
  | begin next induction | scan next induction | commit next induction =>
      exact fun reply => induction reply (reports reply)

/-- One round trip keeps what the program will report. -/
theorem Engine.Trip.reports
    {engine : Engine Stmt Reply Fault Db Write Res Oracle Time}
    {answer : Answer Fault Res Oracle Time} {db : Db}
    {session : Session Call Stmt Reply Fault Counter Result Write Res Time}
    {moved : Moved Call Stmt Reply Fault Counter Result Db Write Res Time}
    {Says : Result → List (Counter × Nat) → Prop}
    (trip : engine.Trip answer db session moved)
    (held :
      ∀ program, session.program = some program →
        program.Reports Says session.counts) :
    ∀ program, moved.session.program = some program →
      program.Reports Says moved.session.counts := by
  intro program current
  cases trip with
  | rollback result finished => exact held program current
  | fault fault before rest tx asked failing =>
      cases current
      exact (held before asked).onFault failing
  | begun next asked | scanned next asked =>
      cases current
      exact held _ asked (.ok ())
  | executed stmt next tx effect asked
    | queried stmt next effect asked =>
      cases current
      exact held _ asked (.ok effect.reply)
  | committed next tx asked =>
      cases current
      exact held _ asked (.ok ())
  | counted counter amount next asked =>
      cases current
      exact held _ asked

variable [DecidableEq Res]

/-- Every session of a schedule has counted what it reports. -/
theorem Engine.follow_reports
    {engine : Engine Stmt Reply Fault Db Write Res Oracle Time}
    {programOf : Call → Program Stmt Reply Fault Counter Result}
    {Says : Call → Result → List (Counter × Nat) → Prop}
    (initial : ∀ call, (programOf call).Reports (Says call) [])
    {start : Db} {schedule : List (Label Call Fault Res Oracle Time)}
    {config : Config Call Stmt Reply Fault Counter Result Db Write Res Time}
    (followed :
      engine.follow programOf { db := start } schedule = some config) :
    ∀ (index : Nat) session program,
      config.sessions[index]? = some session →
        session.program = some program →
          program.Reports (Says session.call) session.counts := by
  apply engine.follow_invariant _ _ followed
  · intro config label next held stepped index after program found
      current
    rcases Engine.step_session stepped found with
      old | ⟨call, _, _, spawned⟩ |
        ⟨answer, session, moved, _, located, trip, equal⟩ |
        ⟨session, _, _, equal⟩
    · exact held index after program old current
    · subst after
      cases current
      exact initial call
    · subst after
      have sameCall : moved.session.call = session.call := by
        cases trip <;> rfl
      rw [sameCall]
      exact trip.reports
        (fun program => held index session program located) program
        current
    · subst after
      cases current
  · intro index session program found
    simp at found

end Reports

/-! ## Sums over a process -/

section Sums

variable {Call Stmt : Type} {Reply : Stmt → Type}
  {Fault Db Write Res Oracle Time Counter Result : Type}
  {config : Config Call Stmt Reply Fault Counter Result Db Write Res Time}

/-- The session has returned. -/
def Session.returned
    (session : Session Call Stmt Reply Fault Counter Result Write Res Time) :
    Bool :=
  match session.program with
  | some (.done _) => true
  | _ => false

theorem Session.returned_result
    {session : Session Call Stmt Reply Fault Counter Result Write Res Time}
    (returned : session.returned = true) :
    ∃ result, session.program = some (.done result) := by
  unfold Session.returned at returned
  split at returned
  · exact ⟨_, by assumption⟩
  · cases returned

/-- Every session of the process has returned. -/
def Config.Quiescent (mine : Nat → Bool)
    (config : Config Call Stmt Reply Fault Counter Result Db Write Res Time) :
    Prop :=
  ∀ (index : Nat) session, mine index = true →
    config.sessions[index]? = some session → session.returned = true

theorem Config.quiescent_of_all
    (returned : config.sessions.all Session.returned = true)
    (mine : Nat → Bool) : config.Quiescent mine := by
  intro index session _ found
  exact List.all_eq_true.mp returned session (List.mem_of_getElem? found)

/-- A sum over the commits of a process. -/
def sumOver (mine : Nat → Bool) (measure : Commit Call Write → Nat)
    (history : List (Commit Call Write)) : Nat :=
  (history.map fun commit =>
    if mine commit.session then measure commit else 0).sum

theorem sum_single (bound position amount : Nat) :
    ((List.range bound).map fun index =>
        if position = index then amount else 0).sum =
      if position < bound then amount else 0 := by
  induction bound with
  | zero => rfl
  | succ bound induction =>
      rw [List.range_succ, List.map_append, List.sum_append, induction,
        List.map_singleton, List.sum_singleton]
      split_ifs <;> omega

/-- A sum over a history is the sum of the sums over its sessions. -/
theorem sum_by_session
    {history : List (Commit Call Write)} {bound : Nat}
    (bounded : ∀ commit ∈ history, commit.session < bound)
    (measure : Commit Call Write → Nat) :
    ((List.range bound).map fun index =>
        ((history.filter fun commit => commit.session = index).map
          measure).sum).sum =
      (history.map measure).sum := by
  induction history with
  | nil => simp
  | cons commit rest induction =>
      have inside : commit.session < bound := bounded commit (by simp)
      have split :
          ∀ index,
            (((commit :: rest).filter fun other =>
                other.session = index).map measure).sum =
              (if commit.session = index then measure commit else 0) +
                ((rest.filter fun other =>
                  other.session = index).map measure).sum := by
        intro index
        by_cases same : commit.session = index
        · simp [same]
        · simp [same]
      simp only [split, List.sum_map_add, sum_single, if_pos inside,
        induction fun other member =>
          bounded other (List.mem_cons_of_mem commit member),
        List.map_cons, List.sum_cons]

variable [DecidableEq Counter]

/-- The counter of the process whose sessions are `mine`. -/
def Config.counted (mine : Nat → Bool) (counter : Counter)
    (config : Config Call Stmt Reply Fault Counter Result Db Write Res Time) :
    Nat :=
  ((List.range config.sessions.length).map fun index =>
    if mine index then
      (config.sessions[index]?).elim 0 fun session =>
        total counter session.counts
    else 0).sum

/--
If every session of the process has counted what it committed up to an
excess, the process exceeds its commits by the sum.
-/
theorem Config.counted_excess
    {engine : Engine Stmt Reply Fault Db Write Res Oracle Time}
    {contract : Contract Call Result engine} {start : Db}
    (ok : contract.ConfigOk start config) {mine : Nat → Bool}
    {counter : Counter} {excess : Nat → Nat}
    (measure : Call → List Write → Nat)
    (balanced :
      ∀ (index : Nat) session, mine index = true →
        config.sessions[index]? = some session →
          total counter session.counts =
            (session.commits.map (measure session.call)).sum + excess index) :
    config.counted mine counter =
      sumOver mine (fun commit => measure commit.call commit.writes)
          config.history +
        ((List.range config.sessions.length).map fun index =>
          if mine index then excess index else 0).sum := by
  have bounded :
      ∀ commit ∈ config.history, commit.session < config.sessions.length := by
    intro commit member
    rcases ok.known commit member with ⟨session, found, _⟩
    exact (List.getElem?_eq_some_iff.mp found).1
  rw [sumOver, ← sum_by_session bounded, Config.counted, ← List.sum_map_add]
  congr 1
  apply List.map_congr_left
  intro index member
  have inside : index < config.sessions.length := List.mem_range.mp member
  have found : config.sessions[index]? = some config.sessions[index] :=
    List.getElem?_eq_getElem inside
  by_cases owned : mine index = true
  · rw [if_pos owned, if_pos owned, found, Option.elim_some,
      balanced index _ owned found, ok.history_of found, List.map_map]
    congr 2
    apply List.map_congr_left
    intro writes _
    exact (if_pos owned).symm
  · have foreign :
        ∀ commit ∈
            config.history.filter fun commit => commit.session = index,
          (if mine commit.session = true then
            measure commit.call commit.writes else 0) = 0 := by
      intro commit occurs
      have same := (List.mem_filter.mp occurs).2
      rw [decide_eq_true_eq] at same
      rw [same, if_neg owned]
    rw [if_neg owned, if_neg owned, List.map_congr_left foreign]
    simp

/--
If every session of the process has counted what it committed, so has the
process.
-/
theorem Config.counted_eq
    {engine : Engine Stmt Reply Fault Db Write Res Oracle Time}
    {contract : Contract Call Result engine} {start : Db}
    (ok : contract.ConfigOk start config) {mine : Nat → Bool}
    {counter : Counter} {measure : Call → List Write → Nat}
    (balanced :
      ∀ (index : Nat) session, mine index = true →
        config.sessions[index]? = some session →
          total counter session.counts =
            (session.commits.map (measure session.call)).sum) :
    config.counted mine counter =
      sumOver mine (fun commit => measure commit.call commit.writes)
        config.history := by
  have whole :
      config.counted mine counter =
        sumOver mine (fun commit => measure commit.call commit.writes)
            config.history +
          ((List.range config.sessions.length).map fun index =>
            if mine index then 0 else 0).sum :=
    Config.counted_excess ok measure balanced
  simpa using whole

end Sums

/-! ## Replaying a history -/

section Replay

variable
    {Call Stmt : Type} {Reply : Stmt → Type}
    {Fault Db Write Res Oracle Time Result : Type}
    {engine : Engine Stmt Reply Fault Db Write Res Oracle Time}

/-- The commits of a history, each with the state it was made in. -/
def Engine.replay
    (engine : Engine Stmt Reply Fault Db Write Res Oracle Time)
    (db : Db) :
    List (Commit Call Write) → List (Db × Commit Call Write)
  | [] => []
  | commit :: rest =>
      (db, commit) ::
        Engine.replay engine (engine.applyAll commit.writes db) rest

theorem Engine.replay_append (db : Db)
    (first : List (Commit Call Write)) (last : Commit Call Write) :
    engine.replay db (first ++ [last]) =
      engine.replay db first ++
        [(first.foldl
          (fun current commit =>
            engine.applyAll commit.writes current) db, last)] := by
  induction first generalizing db with
  | nil => rfl
  | cons commit rest induction =>
      simp [Engine.replay, induction]

@[simp]
theorem Engine.replay_map_snd (db : Db)
    (history : List (Commit Call Write)) :
    (engine.replay db history).map Prod.snd = history := by
  induction history generalizing db with
  | nil => rfl
  | cons commit rest induction => simp [Engine.replay, induction]

/-- Every commit of a published history was lawful where it was made. -/
theorem Contract.Publishes.replay
    {contract : Contract Call Result engine}
    {start final : Db} {history : List (Commit Call Write)}
    (publishes :
      contract.Publishes start
        (history.map fun commit => (commit.call, commit.writes))
        final) :
    (history.foldl
        (fun current commit => engine.applyAll commit.writes current)
        start = final) ∧
      ∀ entry ∈ engine.replay start history,
        contract.Lawful entry.1 entry.2.call entry.2.writes := by
  induction history using List.reverseRecOn generalizing final with
  | nil =>
      generalize entries :
        ([] : List (Commit Call Write)).map
          (fun commit => (commit.call, commit.writes)) = commits
        at publishes
      cases publishes with
      | nil => simp [Engine.replay]
      | snoc => simp at entries
  | append_singleton earlier last induction =>
      rw [List.map_append, List.map_singleton] at publishes
      generalize entries :
        earlier.map (fun commit => (commit.call, commit.writes)) ++
          [(last.call, last.writes)] = commits at publishes
      cases publishes with
      | nil => simp at entries
      | snoc before call writes lawful =>
          rcases List.append_inj' entries rfl with ⟨same, ending⟩
          cases ending
          subst same
          rcases induction before with ⟨reached, lawfully⟩
          rw [List.foldl_append, Engine.replay_append, reached]
          refine ⟨rfl, ?_⟩
          intro entry member
          rcases List.mem_append.mp member with old | new
          · exact lawfully entry old
          · rw [List.mem_singleton.mp new]
            exact lawful

end Replay

end Dhara.Transaction
