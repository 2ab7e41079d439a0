import Dhara.Store.Execution

/-!
# The order of claims

`Claim` takes a due row that nobody else has locked and that no other such row
precedes, or it finds that there is none.  Claims at a fixed time, without
another writer, therefore return the due tasks one after the other in the
order of the queue, each exactly once, and then find none.
-/

namespace Dhara.Store

open Dhara.Transaction

variable {row : TaskRecord}

/-- What `Claim` returns for the row that it takes. -/
def claimed (row : TaskRecord) : Response :=
  .task (.ok (scanClaimed { row with attempts := row.attempts + 1 }))

/-- What `Claim` returns if there is no row to take. -/
def notAvailable : Response :=
  failTask .taskNotAvailable

/-- The response is an error of the driver. -/
def Response.ofFault : Response → Bool
  | .task (.error error) => error.ofFault
  | _ => false

/-- The row may be the next one. -/
def Front (now : Time) (locked : Resource → Bool) (db : Database)
    (row : TaskRecord) : Prop :=
  row ∈ dueRows now locked db ∧
    ∀ other ∈ dueRows now locked db, other.precedes row = false

/--
What can make a claim fail: a fault of a round trip, a name that cannot be
stored, and a counter of attempts at the limit of its column.
-/
def Hindered (now : Time) (locked : Resource → Bool) (db : Database)
    (workerID : GoString) (answers : Answers) : Prop :=
  answers.Faulty ∨
    (∃ fault, (Update.claim workerID).encode = .error fault) ∨
    ∃ row, Front now locked db row ∧ maxInt4 ≤ row.attempts

/-- The claim has taken the row. -/
structure Takes (now : Time) (before : Database) (row : TaskRecord)
    (outcome : StoreOutcome Response) : Prop where
  result : outcome.result = claimed row
  running :
    ∃ worker, outcome.link.db.find row.id =
      some ((Change.claim worker).set now row)
  untouched : ∀ id, id ≠ row.id → outcome.link.db.view id = before.view id

/-- How a claim ends. -/
inductive ClaimEnds (now : Time) (locked : Resource → Bool)
    (db : Database) (workerID : GoString) (answers : Answers)
    (outcome : StoreOutcome Response) : Prop where
  | failed
      (hindered : Hindered now locked db workerID answers)
      (error : outcome.result.ofFault = true)
      (same : outcome.link.db = db)
  | idle
      (none : dueRows now locked db = [])
      (result : outcome.result = notAvailable)
      (same : outcome.link.db = db)
  | takes (row : TaskRecord)
      (front : Front now locked db row)
      (taken : Takes now db row outcome)

/-- A claim of a worker with the answers it gets. -/
def claimCall (call : GoString × Answers) : Invocation :=
  ⟨.claim call.1, call.2⟩

/-- The responses of calls that are made one after the other. -/
def responses (platform : Platform) :
    Database → List Invocation → List Response
  | _, [] => []
  | db, invocation :: rest =>
      (execute platform invocation db).result ::
        responses platform (execute platform invocation db).link.db rest

/--
What claims at a fixed time return, apart from errors of the driver, and what
they leave behind: first `returned`, a part of the due rows, and then nothing.
-/
structure Drains (platform : Platform) (now : Time)
    (locked : Resource → Bool) (db : Database)
    (calls : List Invocation) (returned rest : List TaskRecord)
    (idle : Nat) : Prop where
  once : (returned ++ rest).Perm (dueRows now locked db)
  ordered :
    returned.Pairwise fun first second => second.precedes first = false
  before : ∀ first ∈ returned, ∀ second ∈ rest, second.precedes first = false
  results :
    ((responses platform db calls).filter fun response =>
        !response.ofFault) =
      returned.map claimed ++ List.replicate idle notAvailable
  exhausted : 0 < idle → rest = []
  left : (dueRows now locked (executeAll platform db calls)).Perm rest
  untouched :
    ∀ id, (∀ row ∈ returned, row.id ≠ id) →
      (executeAll platform db calls).view id = db.view id

/-! ## The front of the queue -/

section Front

variable {now : Time} {locked : Resource → Bool} {db : Database}

theorem TaskRecord.precedes_self (row : TaskRecord) :
    TaskRecord.precedes row row = false := by
  simp [TaskRecord.precedes]

theorem TaskRecord.precedes_trans
    {first second third : TaskRecord}
    (before : TaskRecord.precedes first second = true)
    (after : TaskRecord.precedes second third = true) :
    TaskRecord.precedes first third = true := by
  simp only [TaskRecord.precedes, decide_eq_true_eq] at before after ⊢
  rcases before with higher | ⟨same, earlier⟩
  · rcases after with lower | ⟨equal, _⟩
    · exact Or.inl (lt_trans lower higher)
    · exact Or.inl (equal ▸ higher)
  · rcases after with lower | ⟨equal, later⟩
    · exact Or.inl (same ▸ lower)
    · exact Or.inr ⟨same.trans equal, lt_trans earlier later⟩

/-- A row of a list that is not empty is preceded by none of them. -/
theorem exists_front {rows : List TaskRecord} (some : rows ≠ []) :
    ∃ row ∈ rows, ∀ other ∈ rows, other.precedes row = false := by
  induction rows with
  | nil => exact absurd rfl some
  | cons first rest induction =>
      by_cases empty : rest = []
      · subst rest
        refine ⟨first, List.mem_cons_self, ?_⟩
        intro other member
        rw [List.mem_singleton.mp member]
        exact TaskRecord.precedes_self first
      · rcases induction empty with ⟨row, member, free⟩
        by_cases ahead : first.precedes row = true
        · refine ⟨first, List.mem_cons_self, ?_⟩
          intro other occurs
          rcases List.mem_cons.mp occurs with same | inside
          · rw [same]
            exact TaskRecord.precedes_self first
          · by_contra precedes
            rw [Bool.not_eq_false] at precedes
            have chain := TaskRecord.precedes_trans precedes ahead
            rw [free other inside] at chain
            cases chain
        · refine ⟨row, List.mem_cons_of_mem first member, ?_⟩
          intro other occurs
          rcases List.mem_cons.mp occurs with same | inside
          · rw [same]
            exact Bool.not_eq_true _ ▸ ahead
          · exact free other inside

theorem mem_frontRows_iff :
    row ∈ frontRows now locked db ↔ Front now locked db row := by
  simp [frontRows, Front, List.mem_filter]

/-- The sub-select finds a front row, or there is no due row. -/
theorem evalSelectDue_front
    (now : Time) (locked : Resource → Bool) (oracle : Oracle)
    (db : Database) :
    (dueRows now locked db = [] ∧
        evalSelectDue now locked oracle db = { reply := none }) ∨
      ∃ row,
        Front now locked db row ∧
          evalSelectDue now locked oracle db =
            { reply := some row.id, locks := [.task row.id] } := by
  simp only [evalSelectDue]
  cases picked :
      (frontRows now locked db)[
        oracle.pick % (frontRows now locked db).length]? with
  | none =>
      refine Or.inl ⟨?_, rfl⟩
      by_contra some
      rcases exists_front some with ⟨row, member, free⟩
      have front := mem_frontRows_iff.mpr ⟨member, free⟩
      rw [List.getElem?_eq_none_iff] at picked
      have below := Nat.mod_lt oracle.pick (List.length_pos_of_mem front)
      omega
  | some row =>
      have front := List.mem_of_getElem? picked
      exact Or.inr ⟨row, mem_frontRows_iff.mp front, rfl⟩

theorem Front.find (front : Front now locked db row) :
    db.find row.id = some row :=
  Database.find_of_mem (List.mem_filter.mp front.1).1

end Front

/-! ## One claim -/

section Claims

variable {platform : Platform} {db : Database} {now : Time}
  {workerID : GoString}

theorem isText_claimLogMessage
    (named : isText workerID = true) (task : TaskRow) :
    isText (claimLogMessage workerID task) = true := by
  have literals :
      ∀ literal ∈ ["claimed by worker ", " (attempt ", "/", ")"],
        isText (ascii literal) = true := by
    intro literal member
    simp only [List.mem_cons, List.not_mem_nil, or_false] at member
    rcases member with same | same | same | same
    all_goals
      subst literal
      exact isText_ascii (by simp)
  simp only [claimLogMessage, List.append_assoc, isText_append,
    isText_itoa, named, literals, List.mem_cons, true_or, or_true]

/-- The log entry and the commit of a claim. -/
theorem run_claimEnd
    (answers : Answers) (db : Database) (named : isText workerID = true)
    (found : db.find row.id = some row) {change : Change}
    {locks : List Resource} :
    let after := change.set now row
    let outcome :=
      (postgres platform).run
        (insertLog failTask after.id .running
          (claimLogMessage workerID (scanClaimed after))
          "insert claim log"
          (commitTx failTask "commit claim"
            (.done (.task (.ok (scanClaimed after))))))
        answers
        ⟨db, some { startedAt := now, writes := [.updateTask after], locks }⟩
    (answers.Faulty ∧ Aborted failTask db outcome) ∨
      ∃ entry : LogRecord,
        entry.taskId = row.id ∧
          outcome.result = .task (.ok (scanClaimed after)) ∧
          outcome.link.db =
            (postgres platform).applyAll
              [.updateTask after, .insertLog entry] db := by
  intro after outcome
  have present :
      (((postgres platform).applyAll [.updateTask after] db).find
        after.id).isSome = true := by
    have stored :=
      Write.view_updateTask
        (show db.find after.id = some row by
          rw [show after.id = row.id from change.set_id now row]
          exact found)
        (change.set_identity now row).symm
    have current := congrArg TaskView.row stored
    rw [Database.view_row] at current
    rw [Engine.applyAll_cons, Engine.applyAll_nil]
    exact Option.isSome_iff_exists.mpr ⟨after, current⟩
  have usable :
      ({ startedAt := now, writes := [.updateTask after], locks } :
        Tx Write Resource Time).failed = false :=
    rfl
  rcases run_sendTx answers db failTask usable with
    ⟨cause, aborted⟩ | ⟨effect, _, evaluated, sent⟩
  · refine Or.inl ⟨?_, aborted⟩
    rcases cause with fault | refused
    · exact ⟨0, fault⟩
    · exact absurd refused
        (not_refused_insertLog (isText_claimLogMessage named _) present)
  · simp only [eval, bind_eq_ok_iff] at evaluated
    rcases evaluated with ⟨text, _, evaluated⟩
    have logged := evalReferencing_cases evaluated
    subst effect
    change outcome = _ at sent
    have still :
        ({ startedAt := now
           writes :=
             [.updateTask after] ++
               [.insertLog
                 ⟨(answers 0).oracle.logId, after.id, .running, text, now⟩]
           locks := locks ++ [] } : Tx Write Resource Time).failed =
          false :=
      rfl
    rcases run_commitTx (answers.drop 1) db failTask still with
      ⟨fault, aborted⟩ | ⟨_, committed⟩
    · refine Or.inl ⟨Answers.Faulty.of_drop ⟨0, fault⟩, ?_⟩
      rw [sent]
      exact aborted
    · refine Or.inr
        ⟨⟨(answers 0).oracle.logId, after.id, .running, text, now⟩,
          change.set_id now row, ?_, ?_⟩
      · rw [sent, committed]
        rfl
      · rw [sent, committed]
        rfl

/-- A transaction that updates one row and logs it takes the row. -/
theorem takes_of_writes
    (platform : Platform) (worker : Text) {entry : LogRecord}
    {outcome : StoreOutcome Response} (found : db.find row.id = some row)
    (named : entry.taskId = row.id) (result : outcome.result = claimed row)
    (published :
      outcome.link.db =
        (postgres platform).applyAll
          [.updateTask ((Change.claim worker).set now row),
            .insertLog entry] db) :
    Takes now db row outcome := by
  constructor
  · exact result
  · refine ⟨worker, ?_⟩
    have stored :=
      Write.view_updateTask
        (show db.find ((Change.claim worker).set now row).id = some row
          from found)
        rfl
    have current := congrArg TaskView.row stored
    rw [Database.view_row] at current
    rw [published]
    exact current
  · intro id other
    rw [published]
    apply view_applyAll_other
    intro write member
    rcases List.mem_cons.mp member with same | member
    · subst write
      exact Ne.symm other
    · rw [List.mem_singleton.mp member]
      exact fun same => other (same.symm.trans named)

/-- Why the update of a claim is refused. -/
theorem evalUpdate_claim_refused
    {fault : Fault} (found : db.find row.id = some row)
    (refused : evalUpdate now row.id (.claim workerID) db = .error fault) :
    (∃ fault, (Update.claim workerID).encode = .error fault) ∨
      maxInt4 ≤ row.attempts := by
  cases changed : (Update.claim workerID).encode with
  | error fault => exact Or.inl ⟨fault, rfl⟩
  | ok change =>
      rcases Update.encode_claim changed with
        ⟨_, worker, _, _, equal⟩
      subst change
      simp only [evalUpdate, changed, found, Except.bind, Change.guard,
        if_true] at refused
      by_cases overflow : (Change.claim worker).overflows row = true
      · simp only [Change.overflows, decide_eq_true_eq] at overflow
        exact Or.inr (Int.lt_add_one_iff.mp overflow)
      · rw [if_neg overflow] at refused
        cases refused

/-- How a claim ends, for every way the server can answer. -/
theorem claim_ends
    (platform : Platform) (db : Database) (workerID : GoString)
    (answers : Answers) :
    ClaimEnds (answers 0).clock (answers 1).others db workerID answers
      (execute platform ⟨.claim workerID, answers⟩ db) := by
  generalize ran : execute platform ⟨.claim workerID, answers⟩ db = outcome
  have failed :
      Hindered (answers 0).clock (answers 1).others db workerID
          answers →
        Aborted failTask db outcome →
        ClaimEnds (answers 0).clock (answers 1).others db workerID
          answers outcome := by
    rintro hindered ⟨⟨error, driver, result⟩, same, _⟩
    exact .failed hindered (by rw [result]; exact driver) same
  rcases run_openTx answers db failTask _ with
    ⟨faulty, aborted⟩ | ⟨_, opened⟩
  · exact failed (Or.inl faulty) (ran ▸ aborted)
  replace opened := ran.symm.trans opened
  rcases run_exec platform (answers.drop 1) db (.selectDue workerID) _
      (opened_usable (answers 0).clock) with
    ⟨fault, raised, refused⟩ | ⟨effect, _, evaluated, sent⟩
  · apply failed
    · rcases raised.cause with fault | ⟨fault, unbound⟩
      · exact Or.inl (Answers.Faulty.of_drop ⟨0, fault⟩)
      · refine Or.inr (Or.inl ?_)
        cases text : toText workerID with
        | error fault =>
            exact ⟨fault, by simp [Update.encode, text, Except.bind]⟩
        | ok text' =>
            simp only [eval, text, Except.map] at unbound
            cases unbound
    · rw [opened, refused]
      exact aborted_done rfl fault _
  replace sent := opened.trans sent
  have bound :
      (toText workerID).map (fun _ =>
          evalSelectDue (answers 0).clock (answers 1).others
            (answers 1).oracle db) = .ok effect :=
    evaluated
  rcases map_eq_ok_iff.mp bound with ⟨text, encoded, selected⟩
  subst effect
  rcases evalSelectDue_front (answers 0).clock (answers 1).others
      (answers 1).oracle db with
    ⟨none, equal⟩ | ⟨row, front, equal⟩
  · rw [equal] at sent
    refine .idle none ?_ ?_
    · rw [sent]
      rfl
    · rw [sent]
      rfl
  rw [equal] at sent
  have held :
      ({ startedAt := (answers 0).clock
         locks := [.task row.id] } : Tx Write Resource Time).failed =
        false :=
    rfl
  rcases run_exec platform ((answers.drop 1).drop 1) db
      (.update row.id (.claim workerID)) _ held with
    ⟨fault, raised, refused⟩ | ⟨effect, _, evaluated, taken⟩
  · apply failed
    · rcases raised.cause with fault | ⟨fault, unbound⟩
      · exact Or.inl
          (Answers.Faulty.of_drop (Answers.Faulty.of_drop ⟨0, fault⟩))
      · rcases evalUpdate_claim_refused front.find unbound with
          unnamed | limit
        · exact Or.inr (Or.inl unnamed)
        · exact Or.inr (Or.inr ⟨row, front, limit⟩)
    · rw [sent]
      refine Eq.mpr (congrArg _ refused) ?_
      exact aborted_done rfl fault _
  · replace taken := sent.trans taken
    have updated :
        evalUpdate (answers 0).clock row.id (.claim workerID) db =
          .ok effect :=
      evaluated
    rcases evalUpdate_cases updated with
      ⟨change, changed, ⟨unguarded, _⟩ | ⟨current, stored, _, equal⟩⟩
    · rcases Update.encode_claim changed with
        ⟨_, worker, _, _, equal⟩
      subst change
      exact absurd (unguarded row front.find) Bool.noConfusion
    · rcases Update.encode_claim changed with
        ⟨_, worker, _, _, claims⟩
      subst change
      rw [front.find] at stored
      cases stored
      subst effect
      rcases run_claimEnd (((answers.drop 1).drop 1).drop 1) db
          (isText_of_toText encoded) front.find with
        ⟨faulty, aborted⟩ | ⟨entry, named, result, published⟩
      · apply failed
        · exact Or.inl faulty.of_drop.of_drop.of_drop
        · rw [taken]
          exact aborted
      · refine .takes row front
          (takes_of_writes platform worker front.find named ?_ ?_)
        · rw [taken]
          exact result
        · rw [taken]
          exact published

theorem mem_dueRows_iff
    {locked : Resource → Bool} :
    row ∈ dueRows now locked db ↔
      db.find row.id = some row ∧ row.due now = true ∧
        locked (.task row.id) = false := by
  simp [dueRows, List.mem_filter, Database.find_eq_some_iff]

theorem dueRows_nodup
    (now : Time) (locked : Resource → Bool) (db : Database) :
    (dueRows now locked db).Nodup :=
  (List.filter_sublist.nodup db.ids_nodup.of_map)

/-- The row that was taken is the only one that is no longer due. -/
theorem Takes.dueRows_perm
    {locked : Resource → Bool} {outcome : StoreOutcome Response}
    (front : Front now locked db row) (taken : Takes now db row outcome) :
    (row :: dueRows now locked outcome.link.db).Perm
      (dueRows now locked db) := by
  rcases taken.running with ⟨worker, running⟩
  have gone : row ∉ dueRows now locked outcome.link.db := by
    rw [mem_dueRows_iff, running]
    rintro ⟨same, due, _⟩
    rw [← Option.some.inj same] at due
    cases due
  rw [List.perm_ext_iff_of_nodup
    (List.nodup_cons.mpr ⟨gone, dueRows_nodup _ _ _⟩)
    (dueRows_nodup _ _ _)]
  intro other
  rw [List.mem_cons]
  by_cases sameId : other.id = row.id
  · constructor
    · rintro (same | due)
      · rw [same]
        exact front.1
      · rw [mem_dueRows_iff, sameId, running] at due
        rcases due with ⟨same, due, _⟩
        rw [← Option.some.inj same] at due
        cases due
    · intro due
      have stored := (mem_dueRows_iff.mp due).1
      rw [sameId, front.find] at stored
      exact Or.inl (Option.some.inj stored).symm
  · have view := congrArg TaskView.row (taken.untouched other.id sameId)
    rw [Database.view_row, Database.view_row] at view
    rw [mem_dueRows_iff, mem_dueRows_iff, view]
    constructor
    · rintro (same | due)
      · exact absurd (congrArg TaskRecord.id same) sameId
      · exact due
    · exact Or.inr

end Claims

/-! ## Claims one after the other -/

section Drains

variable {platform : Platform} {now : Time} {locked : Resource → Bool}
    {db : Database} {invocation : Invocation} {calls : List Invocation}
    {returned rest : List TaskRecord} {idle : Nat}

/-- Without calls every due row is left. -/
theorem drains_nil :
    Drains platform now locked db [] [] (dueRows now locked db) 0 where
  once := List.Perm.refl _
  ordered := List.Pairwise.nil
  before := fun _ member => absurd member List.not_mem_nil
  results := rfl
  exhausted := fun positive => absurd positive (lt_irrefl 0)
  left := List.Perm.refl _
  untouched := fun _ _ => rfl

/-- A call that fails is as if it had not been made. -/
theorem Drains.cons_failed
    (error : (execute platform invocation db).result.ofFault = true)
    (same : (execute platform invocation db).link.db = db)
    (drains : Drains platform now locked db calls returned rest idle) :
    Drains platform now locked db (invocation :: calls) returned rest
      idle where
  once := drains.once
  ordered := drains.ordered
  before := drains.before
  results := by
    simp only [responses, same, List.filter_cons, error, Bool.not_true,
      Bool.false_eq_true, if_false]
    exact drains.results
  exhausted := drains.exhausted
  left := by
    rw [executeAll_cons, same]
    exact drains.left
  untouched := by
    rw [executeAll_cons, same]
    exact drains.untouched

/-- A call that finds nothing is followed by such calls only. -/
theorem Drains.cons_idle
    (none : dueRows now locked db = [])
    (result : (execute platform invocation db).result = notAvailable)
    (same : (execute platform invocation db).link.db = db)
    (drains : Drains platform now locked db calls returned rest idle) :
    Drains platform now locked db (invocation :: calls) returned rest
      (idle + 1) := by
  have empty : returned ++ rest = [] := by
    have perm := drains.once
    rw [none] at perm
    exact List.perm_nil.mp perm
  rw [List.append_eq_nil_iff] at empty
  rcases empty with ⟨noneReturned, noneLeft⟩
  constructor
  · exact drains.once
  · exact drains.ordered
  · exact drains.before
  · have later := drains.results
    rw [noneReturned, List.map_nil, List.nil_append] at later ⊢
    rw [responses, same, result, List.filter_cons_of_pos rfl, later,
      List.replicate_succ]
  · exact fun _ => noneLeft
  · rw [executeAll_cons, same]
    exact drains.left
  · rw [executeAll_cons, same]
    exact drains.untouched

/-- The row that a call takes is returned before the others. -/
theorem Drains.cons_takes
    (front : Front now locked db row)
    (taken : Takes now db row (execute platform invocation db))
    (drains :
      Drains platform now locked
        (execute platform invocation db).link.db calls returned rest
        idle) :
    Drains platform now locked db (invocation :: calls)
      (row :: returned) rest idle := by
  have once : (row :: returned ++ rest).Perm (dueRows now locked db) :=
    (drains.once.cons row).trans (taken.dueRows_perm front)
  have last : ∀ other ∈ returned ++ rest, other.precedes row = false :=
    fun other member =>
      front.2 other (once.subset (List.mem_cons_of_mem row member))
  constructor
  · exact once
  · rw [List.pairwise_cons]
    exact ⟨fun other member => last other (List.mem_append_left _ member),
      drains.ordered⟩
  · intro first member second inside
    rcases List.mem_cons.mp member with same | later
    · rw [same]
      exact last second (List.mem_append_right _ inside)
    · exact drains.before first later second inside
  · rw [responses, taken.result, List.filter_cons_of_pos rfl,
      drains.results]
    rfl
  · exact drains.exhausted
  · exact drains.left
  · intro id other
    rw [executeAll_cons,
      drains.untouched id fun later member =>
        other later (List.mem_cons_of_mem row member)]
    exact taken.untouched id (Ne.symm (other row List.mem_cons_self))

/-- Claims at a fixed time and with fixed locks drain the queue. -/
theorem exists_drains
    (platform : Platform) (now : Time) (locked : Resource → Bool)
    (db : Database) {calls : List (GoString × Answers)}
    (fixed :
      ∀ call ∈ calls, (call.2 0).clock = now ∧ (call.2 1).others = locked) :
    ∃ returned rest idle,
      Drains platform now locked db (calls.map claimCall) returned rest
        idle := by
  induction calls generalizing db with
  | nil => exact ⟨[], dueRows now locked db, 0, drains_nil⟩
  | cons call calls induction =>
      have ends := claim_ends platform db call.1 call.2
      rw [(fixed call List.mem_cons_self).1,
        (fixed call List.mem_cons_self).2] at ends
      rcases induction
          (execute platform (claimCall call) db).link.db
          (fun later member =>
            fixed later (List.mem_cons_of_mem call member)) with
        ⟨returned, rest, idle, drains⟩
      cases ends with
      | failed hindered error same =>
          change (execute platform (claimCall call) db).link.db = db
            at same
          rw [same] at drains
          exact ⟨returned, rest, idle, drains.cons_failed error same⟩
      | idle none result same =>
          change (execute platform (claimCall call) db).link.db = db
            at same
          rw [same] at drains
          exact ⟨returned, rest, idle + 1, drains.cons_idle none result same⟩
      | takes row front taken =>
          exact ⟨row :: returned, rest, idle, drains.cons_takes front taken⟩

/-- More answers than due rows mean that the last one found nothing. -/
theorem Drains.exhausts
    (drains : Drains platform now locked db calls returned rest idle)
    (many :
      (dueRows now locked db).length <
        ((responses platform db calls).filter fun response =>
          !response.ofFault).length) :
    rest = [] ∧ 0 < idle := by
  have counted := drains.once.length_eq
  rw [List.length_append] at counted
  rw [drains.results, List.length_append, List.length_map,
    List.length_replicate] at many
  have positive : 0 < idle := by omega
  exact ⟨drains.exhausted positive, positive⟩

end Drains

theorem claimed_ne_notAvailable (row : TaskRecord) :
    claimed row ≠ notAvailable := by
  intro same
  cases same

/--
A claim takes a due row that is not locked and that none of the others
precedes, and it finds none exactly if there is none, unless it is hindered.
Claims at a fixed time and with fixed locks return the due rows in this order,
each once, and then find none.
-/
theorem claim_order_and_drain
    (platform : Platform) (now : Time) (locked : Resource → Bool)
    (db : Database) (calls : List (GoString × Answers))
    (fixed :
      ∀ call ∈ calls, (call.2 0).clock = now ∧ (call.2 1).others = locked) :
    (∀ call ∈ calls,
      ClaimEnds now locked db call.1 call.2
          (execute platform (claimCall call) db) ∧
        ((execute platform (claimCall call) db).result.ofFault = false →
          ((execute platform (claimCall call) db).result =
              notAvailable ↔
            dueRows now locked db = []))) ∧
      ∃ returned rest idle,
        Drains platform now locked db (calls.map claimCall) returned
            rest idle ∧
          ((dueRows now locked db).length <
              ((responses platform db (calls.map claimCall)).filter
                fun response => !response.ofFault).length →
            rest = [] ∧ 0 < idle) := by
  constructor
  · intro call member
    have ends := claim_ends platform db call.1 call.2
    rw [(fixed call member).1, (fixed call member).2] at ends
    change ClaimEnds now locked db call.1 call.2
      (execute platform (claimCall call) db) at ends
    refine ⟨ends, ?_⟩
    intro answered
    cases ends with
    | failed _ error _ =>
        rw [error] at answered
        cases answered
    | idle none result _ => exact ⟨fun _ => none, fun _ => result⟩
    | takes row front taken =>
        constructor
        · intro idle
          exact absurd (taken.result.symm.trans idle)
            (claimed_ne_notAvailable row)
        · intro none
          have member := front.1
          rw [none] at member
          exact absurd member List.not_mem_nil
  · rcases exists_drains platform now locked db fixed with
      ⟨returned, rest, idle, drains⟩
    exact ⟨returned, rest, idle, drains, drains.exhausts⟩

/-- A task of low priority, one of high priority, and one for later. -/
def mixedQueue : Database :=
  executeAll echoPlatform .empty
    [⟨.create (emailTask []), calm 7 0⟩,
      ⟨.create { emailTask [] with priority := 5 }, calm 8 0⟩,
      ⟨.create { emailTask [] with runAt := 9 }, calm 9 0⟩]

theorem mixedQueue_drained :
    ∃ returned idle,
      Drains echoPlatform 1 (fun _ => false) mixedQueue
          ([(ascii "w", calm 0 1), (ascii "v", calm 0 1),
            (ascii "w", calm 0 1)].map claimCall) returned [] idle ∧
        0 < idle := by
  have fixed :
      ∀ call ∈ [(ascii "w", calm 0 1), (ascii "v", calm 0 1),
          (ascii "w", calm 0 1)],
        (call.2 0).clock = 1 ∧ (call.2 1).others = fun _ => false := by
    intro call member
    simp only [List.mem_cons, List.not_mem_nil, or_false] at member
    rcases member with same | same | same
    all_goals
      subst call
      exact ⟨rfl, rfl⟩
  have many :
      (dueRows 1 (fun _ => false) mixedQueue).length <
        ((responses echoPlatform mixedQueue
          ([(ascii "w", calm 0 1), (ascii "v", calm 0 1),
            (ascii "w", calm 0 1)].map claimCall)).filter
              fun response => !response.ofFault).length := by
    decide +kernel
  rcases (claim_order_and_drain echoPlatform 1 (fun _ => false) mixedQueue
      _ fixed).2 with
    ⟨returned, rest, idle, drains, exhausts⟩
  rcases exhausts many with ⟨none, positive⟩
  subst rest
  exact ⟨returned, idle, drains, positive⟩

end Dhara.Store
