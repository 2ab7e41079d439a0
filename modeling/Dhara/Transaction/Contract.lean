import Dhara.Transaction.FailSafe
import Dhara.Transaction.Sessions

/-!
# Rely-guarantee contracts for transaction programs

A contract names the commits a call may publish and what the call promises
about its result.  `Contract.Meets` proves a program against it, round trip
by round trip.  Between two round trips the program only keeps assertions
that survive every lawful commit of the other sessions, and every disturbance
from outside, which leaves its locked resources alone.

One proof of `Meets` serves both executions.  `Contract.Meets.run` is its
consequence for the sequential execution, and the interleaved one is treated
in `Dhara.Transaction.Interleaving`.
-/

namespace Dhara.Transaction

/--
A contract over an engine.

`Lawful db call writes` says that the call may publish these writes on `db`,
and `Disturbs before after` that something else than a call may do this.
`Agrees res before after` says that the resource looks the same in both
states; a write can only disturb the resources of its footprint.
-/
structure Contract
    (Call : Type) {Stmt : Type} {Reply : Stmt → Type}
    {Fault Db Write Res Oracle Time : Type} (Result : Type)
    (engine : Engine Stmt Reply Fault Db Write Res Oracle Time) where
  Lawful : Db → Call → List Write → Prop
  Disturbs : Db → Db → Prop
  Agrees : Res → Db → Db → Prop
  footprint : Write → List Res
  Ensures : Call → List (List Write) → Bool → Result → Db → Prop
  agrees_refl : ∀ res db, Agrees res db db
  agrees_trans :
    ∀ res first second third,
      Agrees res first second → Agrees res second third →
        Agrees res first third
  agrees_apply :
    ∀ res write db,
      res ∉ footprint write → Agrees res db (engine.apply write db)
  exclusive :
    ∀ clock others oracle stmt db effect,
      engine.eval clock others oracle stmt db = .ok effect →
        engine.waits others oracle stmt db = false →
          ∀ res ∈ effect.locks, others res = false
  ensures_stable :
    ∀ call commits faulted result db other writes,
      Ensures call commits faulted result db →
        Lawful db other writes →
          Ensures call commits faulted result (engine.applyAll writes db)
  ensures_disturbed :
    ∀ call commits faulted result before after,
      Ensures call commits faulted result before →
        Disturbs before after → Ensures call commits faulted result after

section Contracts

variable
    {Call Stmt : Type} {Reply : Stmt → Type}
    {Fault Db Write Res Oracle Time Counter Result : Type}
    {engine : Engine Stmt Reply Fault Db Write Res Oracle Time}

variable {outcome : Outcome Db Write Res Time Counter Result}
  {commits : List (List Write)} {writes : List Write} {call : Call}
  {faulted : Bool} {first : Db}

variable {program : Program Stmt Reply Fault Counter Result} {last start : Db}

/-- Commits published one after the other. -/
inductive Contract.Publishes
    (contract : Contract Call Result engine) :
    Db → List (Call × List Write) → Db → Prop where
  | nil (db : Db) : Contract.Publishes contract db [] db
  | snoc {first last : Db} {commits : List (Call × List Write)}
      (earlier : Contract.Publishes contract first commits last)
      (call : Call) (writes : List Write)
      (lawful : contract.Lawful last call writes) :
      Contract.Publishes contract first (commits ++ [(call, writes)])
        (engine.applyAll writes last)

variable (contract : Contract Call Result engine)

theorem Contract.Publishes.single
    {db : Db} (lawful : contract.Lawful db call writes) :
    contract.Publishes db [(call, writes)] (engine.applyAll writes db) :=
  Contract.Publishes.snoc (.nil db) call writes lawful

theorem Contract.Publishes.append
    {middle : Db} {left right : List (Call × List Write)}
    (before : contract.Publishes first left middle)
    (after : contract.Publishes middle right last) :
    contract.Publishes first (left ++ right) last := by
  induction after with
  | nil => simpa using before
  | snoc earlier call writes lawful induction =>
      rw [← List.append_assoc]
      exact Contract.Publishes.snoc induction call writes lawful

/-- A property kept by every lawful commit is kept by all of them. -/
theorem Contract.Publishes.invariant
    {Holds : Db → Prop}
    (kept :
      ∀ db call writes,
        Holds db → contract.Lawful db call writes →
          Holds (engine.applyAll writes db))
    {commits : List (Call × List Write)}
    (published : contract.Publishes first commits last)
    (start : Holds first) :
    Holds last := by
  induction published with
  | nil => exact start
  | snoc earlier call writes lawful induction =>
      exact kept _ call writes induction lawful

/-- A property kept by the commits of some calls is kept by all of them. -/
theorem Contract.Publishes.invariant_of
    {Holds : Db → Prop} {Allowed : Call → Prop}
    (kept :
      ∀ db call writes,
        Allowed call → Holds db → contract.Lawful db call writes →
          Holds (engine.applyAll writes db))
    {commits : List (Call × List Write)}
    (published : contract.Publishes first commits last)
    (allowed : ∀ commit ∈ commits, Allowed commit.1) (start : Holds first) :
    Holds last := by
  induction published with
  | nil => exact start
  | snoc earlier call writes lawful induction =>
      have before :=
        induction fun commit member =>
          allowed commit (List.mem_append_left _ member)
      exact kept _ call writes (allowed (call, writes) (by simp)) before
        lawful

theorem Contract.Publishes.eq_of_nil
    (published : contract.Publishes first [] last) :
    last = first := by
  generalize none : ([] : List (Call × List Write)) = commits
    at published
  cases published with
  | nil => rfl
  | snoc => simp at none

theorem Contract.Publishes.of_single
    (published : contract.Publishes first [(call, writes)] last) :
    contract.Lawful first call writes ∧
      last = engine.applyAll writes first := by
  generalize only : [(call, writes)] = commits at published
  cases published with
  | nil => simp at only
  | @snoc middle earlier before other more lawful =>
      have empty : earlier = [] := by
        cases earlier with
        | nil => rfl
        | cons => simp at only
      subst empty
      cases only
      rw [before.eq_of_nil contract] at lawful ⊢
      exact ⟨lawful, rfl⟩

/-- A commit of another session, or a disturbance. -/
def Contract.Changes (before after : Db) : Prop :=
  (∃ call writes,
    contract.Lawful before call writes ∧
      after = engine.applyAll writes before) ∨
    contract.Disturbs before after

/-- A change of the committed state that leaves `locks` alone. -/
def Contract.Interferes
    (locks : List Res) (before after : Db) : Prop :=
  contract.Changes before after ∧
    ∀ res ∈ locks, contract.Agrees res before after

/-- An assertion that the changes by others cannot falsify. -/
def Contract.Stable
    (locks : List Res) (holds : Db → Prop) : Prop :=
  ∀ before after,
    contract.Interferes locks before after → holds before → holds after

theorem Contract.stable_true (locks : List Res) :
    contract.Stable locks fun _ => True :=
  fun _ _ _ _ => True.intro

theorem Contract.stable_ensures
    (call : Call) (commits : List (List Write))
    (faulted : Bool) (result : Result) (locks : List Res) :
    contract.Stable locks (contract.Ensures call commits faulted result) := by
  rintro before after ⟨⟨other, writes, lawful, equal⟩ | disturbs, _⟩ held
  · subst after
    exact contract.ensures_stable call commits faulted result before
      other writes held lawful
  · exact contract.ensures_disturbed call commits faulted result before
      after held disturbs

/-- The writes only disturb resources of the list. -/
def Contract.Within
    (locks : List Res) (writes : List Write) : Prop :=
  ∀ write ∈ writes, ∀ res ∈ contract.footprint write, res ∈ locks

theorem Contract.within_nil (locks : List Res) :
    contract.Within locks [] := by
  intro write member
  cases member

theorem Contract.agrees_applyAll
    {locks : List Res} (within : contract.Within locks writes) {res : Res}
    (outside : res ∉ locks) (db : Db) :
    contract.Agrees res db (engine.applyAll writes db) := by
  induction writes generalizing db with
  | nil => exact contract.agrees_refl res db
  | cons write rest induction =>
      have first : contract.Agrees res db (engine.apply write db) := by
        apply contract.agrees_apply
        intro member
        exact outside (within write (by simp) res member)
      have later :=
        induction
          (fun other member =>
            within other (List.mem_cons_of_mem write member))
          (engine.apply write db)
      exact contract.agrees_trans res _ _ _ first later

/--
The program keeps the contract of `call` from here on.

`holds` is what the session knows about the committed state, `commits` what
it has published, and `faulted` whether a round trip was answered by a fault.
-/
def Contract.Meets (call : Call) :
    Program Stmt Reply Fault Counter Result →
      Option (Tx Write Res Time) → (Db → Prop) →
      List (List Write) → Bool → Prop
  | .done result, _, holds, commits, faulted =>
      ∀ db, holds db → contract.Ensures call commits faulted result db
  | .begin next, tx, holds, commits, faulted =>
      (∀ fault,
        Contract.Meets call (next (.error fault)) tx holds commits true) ∧
        tx = none ∧
        ∀ now,
          Contract.Meets call (next (.ok ()))
            (some { startedAt := now }) holds commits faulted
  | .exec _ next, none, holds, commits, _ =>
      Contract.Meets call (next (.error engine.closed)) none holds
        commits true
  | .exec stmt next, some tx, holds, commits, faulted =>
      (∀ fault failed,
        Contract.Meets call (next (.error fault))
          (some { tx with failed }) holds commits true) ∧
        (tx.failed = false →
          ∀ others oracle db effect,
            holds db →
            engine.eval tx.startedAt others oracle stmt
                (engine.applyAll tx.writes db) = .ok effect →
              contract.Within (tx.locks ++ effect.locks)
                  effect.writes ∧
                ∃ known : Db → Prop,
                  contract.Stable (tx.locks ++ effect.locks) known ∧
                    known db ∧
                    Contract.Meets call (next (.ok effect.reply))
                      (some
                        { tx with
                          writes := tx.writes ++ effect.writes
                          locks := tx.locks ++ effect.locks })
                      known commits faulted)
  | .query stmt next, tx, holds, commits, faulted =>
      (∀ fault,
        Contract.Meets call (next (.error fault)) tx holds commits true) ∧
        ∀ now others oracle db effect,
          holds db →
          engine.eval now others oracle stmt db = .ok effect →
            contract.Within effect.locks effect.writes ∧
              (effect.writes ≠ [] → contract.Lawful db call effect.writes) ∧
              ∃ known : Db → Prop,
                contract.Stable (heldBy tx) known ∧
                  known (engine.applyAll effect.writes db) ∧
                  Contract.Meets call (next (.ok effect.reply)) tx
                    known (publish effect.writes commits) faulted
  | .scan next, tx, holds, commits, faulted =>
      (∀ fault,
        Contract.Meets call (next (.error fault)) tx holds commits true) ∧
        Contract.Meets call (next (.ok ())) tx holds commits faulted
  | .commit next, none, holds, commits, _ =>
      Contract.Meets call (next (.error engine.closed)) none holds
        commits true
  | .commit next, some tx, holds, commits, faulted =>
      (∃ known : Db → Prop,
        contract.Stable [] known ∧ (∀ db, holds db → known db) ∧
          ∀ fault,
            Contract.Meets call (next (.error fault)) none known
              commits true) ∧
        (tx.failed = false →
          (tx.writes ≠ [] →
            ∀ db, holds db → contract.Lawful db call tx.writes) ∧
          ∃ known : Db → Prop,
            contract.Stable [] known ∧
              (∀ db, holds db → known (engine.applyAll tx.writes db)) ∧
              Contract.Meets call (next (.ok ())) none known
                (publish tx.writes commits) faulted)
  | .count _ _ next, tx, holds, commits, faulted =>
      Contract.Meets call next tx holds commits faulted

variable {contract} in
/-- A session may know more than its program needs. -/
theorem Contract.Meets.mono
    {tx : Option (Tx Write Res Time)} {weak strong : Db → Prop}
    (meets : contract.Meets call program tx weak commits faulted)
    (implies : ∀ db, strong db → weak db) :
    contract.Meets call program tx strong commits faulted := by
  induction program generalizing tx commits faulted with
  | done result => exact fun db held => meets db (implies db held)
  | begin next induction =>
      rcases meets with ⟨onFault, fresh, onOk⟩
      exact ⟨fun fault => induction _ (onFault fault), fresh,
        fun now => induction _ (onOk now)⟩
  | exec stmt next induction =>
      cases tx with
      | none => exact induction (.error engine.closed) meets
      | some tx =>
          rcases meets with ⟨onFault, onOk⟩
          refine ⟨fun fault failed =>
            induction _ (onFault fault failed), ?_⟩
          intro alive others oracle db effect held
          exact onOk alive others oracle db effect (implies db held)
  | query stmt next induction =>
      rcases meets with ⟨onFault, onOk⟩
      refine ⟨fun fault => induction _ (onFault fault), ?_⟩
      intro now others oracle db effect held
      exact onOk now others oracle db effect (implies db held)
  | scan next induction =>
      rcases meets with ⟨onFault, onOk⟩
      exact ⟨fun fault => induction _ (onFault fault), induction _ onOk⟩
  | commit next induction =>
      cases tx with
      | none => exact induction (.error engine.closed) meets
      | some tx =>
          rcases meets with ⟨⟨known, stable, knows, onFault⟩, onOk⟩
          refine ⟨⟨known, stable, fun db held =>
            knows db (implies db held), onFault⟩, ?_⟩
          intro alive
          rcases onOk alive with
            ⟨lawful, settled, stable, knowsSettled, later⟩
          exact ⟨fun nonempty db held =>
              lawful nonempty db (implies db held), settled, stable,
            fun db held => knowsSettled db (implies db held), later⟩
  | count counter amount next induction => exact induction meets

/-! ## Sequential soundness -/

/-- What a sequential run publishes and promises. -/
def Contract.Delivers
    (call : Call) (commits : List (List Write)) (faulted : Bool)
    (start : Db)
    (outcome : Outcome Db Write Res Time Counter Result) : Prop :=
  ∃ published : List (List Write),
    contract.Publishes start
        (published.map fun writes => (call, writes))
        outcome.link.db ∧
      contract.Ensures call (commits ++ published)
        (faulted || outcome.faulted) outcome.result outcome.link.db

variable {contract}

theorem Contract.Delivers.after_fault {Sent : Type}
    (delivers : contract.Delivers call commits true start outcome)
    (fault : Fault) :
    contract.Delivers call commits faulted start
      (outcome.after (.error fault : Except Fault Sent)) := by
  rcases delivers with ⟨published, publishes, ensures⟩
  refine ⟨published, publishes, ?_⟩
  simpa using ensures

theorem Contract.Delivers.after_ok {Sent : Type}
    (delivers : contract.Delivers call commits faulted start outcome)
    (reply : Sent) :
    contract.Delivers call commits faulted start
      (outcome.after (.ok reply : Except Fault Sent)) := by
  rcases delivers with ⟨published, publishes, ensures⟩
  refine ⟨published, publishes, ?_⟩
  simpa using ensures

/-- Prepend a commit to what a run delivers. -/
theorem Contract.Delivers.publish
    (lawful : writes ≠ [] → contract.Lawful start call writes)
    (delivers :
      contract.Delivers call (publish writes commits) faulted
        (engine.applyAll writes start) outcome) :
    contract.Delivers call commits faulted start outcome := by
  cases writes with
  | nil => exact delivers
  | cons first rest =>
      rcases delivers with ⟨published, publishes, ensures⟩
      refine ⟨(first :: rest) :: published, ?_, ?_⟩
      · have single :=
          Contract.Publishes.single contract (lawful (by simp))
        exact Contract.Publishes.append contract single publishes
      · simpa using ensures

/--
A program that meets its contract keeps it in every sequential execution.
-/
theorem Contract.Meets.run
    {tx : Option (Tx Write Res Time)} {holds : Db → Prop}
    (meets : contract.Meets call program tx holds commits faulted) {db : Db}
    (held : holds db) (answers : Nat → Answer Fault Res Oracle Time) :
    contract.Delivers call commits faulted db
      (engine.run program answers ⟨db, tx⟩) := by
  induction program generalizing db tx holds commits faulted answers with
  | done result =>
      refine ⟨[], .nil _, ?_⟩
      simpa [Engine.run] using meets db held
  | begin next induction =>
      rcases meets with ⟨onFault, _, onOk⟩
      rcases beginTx_cases (answers 0) db tx with
        ⟨fault, replied⟩ | replied
      · simp only [Engine.run, replied]
        exact (induction _ (onFault fault) held _).after_fault fault
      · simp only [Engine.run, replied]
        exact (induction _ (onOk _) held _).after_ok ()
  | exec stmt next induction =>
      cases tx with
      | none =>
          exact (induction (.error engine.closed) meets held
            _).after_fault engine.closed
      | some tx =>
          rcases meets with ⟨onFault, onOk⟩
          rcases engine.execTx_cases (answers 0) stmt db tx with
            ⟨fault, failed, replied⟩ | ⟨alive, _, effect, evaluated, replied⟩
          · simp only [Engine.run, replied]
            exact (induction _ (onFault fault failed) held
              _).after_fault fault
          · rcases onOk alive _ _ db effect held evaluated with
              ⟨_, known, _, knows, later⟩
            simp only [Engine.run, replied]
            exact (induction _ later knows _).after_ok effect.reply
  | query stmt next induction =>
      rcases meets with ⟨onFault, onOk⟩
      rcases engine.queryPool_cases (answers 0) stmt db tx with
        ⟨fault, replied⟩ | ⟨_, effect, evaluated, replied⟩
      · simp only [Engine.run, replied]
        exact (induction _ (onFault fault) held _).after_fault fault
      · rcases onOk _ _ _ db effect held evaluated with
          ⟨_, lawful, known, _, knows, later⟩
        simp only [Engine.run, replied]
        have delivers := induction _ later knows (fun n => answers (n + 1))
        exact (delivers.publish lawful).after_ok effect.reply
  | scan next induction =>
      rcases meets with ⟨onFault, onOk⟩
      rcases scanRow_cases (answers 0) with
        ⟨fault, replied⟩ | replied
      · simp only [Engine.run, replied]
        exact (induction _ (onFault fault) held _).after_fault fault
      · simp only [Engine.run, replied]
        exact (induction _ onOk held _).after_ok ()
  | commit next induction =>
      cases tx with
      | none =>
          exact (induction (.error engine.closed) meets held
            _).after_fault engine.closed
      | some tx =>
          rcases meets with ⟨⟨known, _, knows, onFault⟩, onOk⟩
          rcases engine.commitTx_cases (answers 0) db tx with
            ⟨fault, replied⟩ | ⟨alive, _, replied⟩
          · simp only [Engine.run, replied]
            exact (induction _ (onFault fault) (knows db held)
              _).after_fault fault
          · rcases onOk alive with
              ⟨lawful, settled, _, knowsSettled, later⟩
            simp only [Engine.run, replied]
            have delivers :=
              induction _ later (knowsSettled db held)
                (fun n => answers (n + 1))
            exact (delivers.publish fun nonempty =>
              lawful nonempty db held).after_ok ()
  | count counter amount next induction =>
      exact induction meets held answers

end Contracts

end Dhara.Transaction
