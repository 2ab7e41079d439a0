import Dhara.Store.Refinement

/-!
# Enqueueing keeps the contract

`insertTask` runs in a transaction that may already hold uncommitted rows.
The rule for it lists the verdicts a caller can get when no round trip was
answered by a fault, and what is known about the database in each case.
`Create` and a caller-owned transaction follow from it, and with them all
methods of the store.
-/

namespace Dhara.Store

open Dhara.Transaction

variable {tx : Tx Write Resource Time} {rows : List TaskRecord}
  {db : Database} {task : TaskRow} {row : TaskRecord} {flag : Bool}

/-! ## Transactions with uncommitted rows -/

/-- None of the uncommitted rows clashes with a committed one. -/
def FreeAll (rows : List TaskRecord) (db : Database) : Prop :=
  ∀ row ∈ rows, db.Free row

/-- The row is one of the uncommitted ones or stored. -/
def Seen (pruned : Prop) (rows : List TaskRecord) (row : TaskRecord)
    (db : Database) : Prop :=
  row ∈ rows ∨ (¬ pruned → db.Keeps row)

/-- A transaction that has inserted the given rows and nothing else. -/
structure Enqueuing (platform : Platform) (call : Call)
    (rows : List TaskRecord) (tx : Tx Write Resource Time) : Prop where
  written : tx.writes = rows.map .insertTask
  enqueues : ∀ row ∈ rows, call.Enqueues platform row
  locked :
    ∀ row ∈ rows, reserved row.id row.type row.idempotencyKey ⊆ tx.locks
  apart :
    rows.Pairwise fun first second =>
      ¬ first.identity.Clashes second.identity

section Rows

variable {platform : Platform} {pruned : Prop} {call : Call}

theorem Enqueuing.stable_freeAll
    (enqueuing : Enqueuing platform call rows tx) :
    (openContract platform pruned).Stable tx.locks (FreeAll rows) := by
  intro before after interferes held row member
  exact stable_free (enqueuing.locked row member) before after interferes
    (held row member)

theorem stable_seen
    (locks : List Resource) (rows : List TaskRecord)
    (row : TaskRecord) :
    (openContract platform pruned).Stable locks (Seen pruned rows row) := by
  intro before after interferes held
  rcases held with uncommitted | stored
  · exact Or.inl uncommitted
  · exact Or.inr (stable_keeps locks row before after interferes stored)

section

variable (enqueuing : Enqueuing platform call rows tx)
  (free : FreeAll rows db)

include enqueuing free

/-- The transaction sees the committed rows and its own. -/
theorem Enqueuing.view_rows :
    ((postgres platform).applyAll tx.writes db).tasks.rows =
      db.tasks.rows ++ rows := by
  rw [enqueuing.written]
  exact rows_insertions free enqueuing.apart

theorem Enqueuing.seen
    (member : row ∈ ((postgres platform).applyAll tx.writes db).tasks.rows) :
    Seen pruned rows row db := by
  rw [enqueuing.view_rows free, List.mem_append] at member
  rcases member with committed | uncommitted
  · exact Or.inr fun _ => Database.Keeps.of_mem committed
  · exact Or.inl uncommitted

/-- A seen row is visible, up to the columns that may change. -/
theorem Enqueuing.visible
    (kept : ¬ pruned) (seen : Seen pruned rows row db) :
    ∃ current ∈
        ((postgres platform).applyAll tx.writes db).tasks.rows,
      current.fixed = row.fixed := by
  rw [enqueuing.view_rows free]
  rcases seen with uncommitted | stored
  · exact ⟨row, List.mem_append_right _ uncommitted, rfl⟩
  · rcases stored kept with ⟨current, found, same⟩
    have member := (Database.find_eq_some_iff.mp found).1
    exact ⟨current, List.mem_append_left _ member, same⟩

end

theorem free_record
    {task : EncodedTask} {id : TaskId} {now : Time}
    (unused : task.conflicts db = false) (absent : db.find id = none) :
    db.Free (task.record id now) := by
  rw [Database.free_iff]
  refine ⟨absent, ?_⟩
  intro key keyed
  change task.idempotencyKey = some key at keyed
  simp only [EncodedTask.conflicts, keyed, Option.any_some] at unused
  change db.findKey task.type key = none
  simpa using unused

/-- One more row joins the transaction. -/
theorem Enqueuing.insert
    (enqueuing : Enqueuing platform call rows tx)
    (enqueues : call.Enqueues platform row) (free : FreeAll rows db)
    (unclashed : ((postgres platform).applyAll tx.writes db).Free row) :
    Enqueuing platform call (rows ++ [row])
        { tx with
          writes := tx.writes ++ [.insertTask row]
          locks := tx.locks ++ reserved row.id row.type row.idempotencyKey } ∧
      FreeAll (rows ++ [row]) db := by
  rw [Database.Free, enqueuing.view_rows free] at unclashed
  constructor
  · refine ⟨?_, ?_, ?_, ?_⟩
    · simp [enqueuing.written]
    · intro other member
      rw [List.mem_append, List.mem_singleton] at member
      rcases member with earlier | equal
      · exact enqueuing.enqueues other earlier
      · subst other
        exact enqueues
    · intro other member
      rw [List.mem_append, List.mem_singleton] at member
      rcases member with earlier | equal
      · exact List.subset_append_of_subset_left _
          (enqueuing.locked other earlier)
      · subst other
        exact List.subset_append_right _ _
    · rw [List.pairwise_append]
      refine ⟨enqueuing.apart, List.pairwise_singleton _ _, ?_⟩
      intro first member second equal
      rw [List.mem_singleton] at equal
      subst second
      exact unclashed first (List.mem_append_right _ member)
  · intro other member
    rw [List.mem_append, List.mem_singleton] at member
    rcases member with earlier | equal
    · exact free other earlier
    · subst other
      intro old stored
      exact unclashed old (List.mem_append_left _ stored)

end Rows

/-! ## The verdicts of `insertTask` -/

/--
What `insertTask` returns if no round trip was answered by a fault, with the
uncommitted rows afterwards and what is known about the database.
-/
inductive Verdict (platform : Platform) (pruned : Prop)
    (task : TaskRow) (rows : List TaskRecord) :
    List TaskRecord → (Database → Prop) → TaskRow →
      Except StoreError Bool → Prop where
  | invalid (undecoded : hashPayload platform task.payload = none) :
      Verdict platform pruned task rows rows (FreeAll rows) task
        (.error .invalidPayload)
  | inserted (row : TaskRecord)
      (enqueues : (Call.create task).Enqueues platform row) :
      Verdict platform pruned task rows (rows ++ [row])
        (FreeAll (rows ++ [row])) (scanInserted task row) (.ok true)
  | replayed (row : TaskRecord) (requests : task.Requests row)
      (keyed : task.idempotencyKey.isSome = true)
      (same : hashPayload platform task.payload = some row.payloadHash) :
      Verdict platform pruned task rows rows
        (fun db => FreeAll rows db ∧ Seen pruned rows row db)
        (scanHashed row) (.ok false)
  | conflict (row : TaskRecord) (payloadHash : GoString)
      (requests : task.Requests row)
      (keyed : task.idempotencyKey.isSome = true)
      (hashed : hashPayload platform task.payload = some payloadHash)
      (different : payloadHash ≠ row.payloadHash) :
      Verdict platform pruned task rows rows
        (fun db => FreeAll rows db ∧ Seen pruned rows row db) task
        (.error .taskConflict)
  | lost (unfit : ¬ pruned → ¬ task.Fits) :
      Verdict platform pruned task rows rows (FreeAll rows) task
        (.error .noRows)

section InsertTask

variable {platform : Platform} {pruned : Prop} {call : Call}
  {encoded : EncodedTask} {payloadHash : GoString}
  {next : TaskRow → Except StoreError Bool → StoreProgram Response}

/-- A fitting type and key are stored as requested. -/
theorem encode_of_fits
    (fits : task.Fits)
    (bound : (task.insertArgs payloadHash).encode platform = .ok encoded) :
    toText task.type = .ok encoded.type ∧
      ∀ key, task.idempotencyKey = some key →
        ∃ text,
          toText key = .ok text ∧ encoded.idempotencyKey = some text := by
  rcases InsertArgs.encode_columns bound with
    ⟨⟨text, typed, fitted⟩, keyed, _⟩
  change toText task.type = .ok text at typed
  change encodeKey task.idempotencyKey = .ok encoded.idempotencyKey
    at keyed
  constructor
  · have short : text.bytes.length ≤ 100 := by
      rw [toText_eq_ok_iff.mp typed]
      exact fits.1
    rw [varchar_of_length short] at fitted
    cases fitted
    exact typed
  · intro key present
    rw [present] at keyed
    rcases encodeKey_some keyed with
      ⟨keyText, column, keyTyped, keyFitted, stored⟩
    have short : keyText.bytes.length ≤ 255 := by
      rw [toText_eq_ok_iff.mp keyTyped]
      exact fits.2 key present
    rw [varchar_of_length short] at keyFitted
    cases keyFitted
    exact ⟨keyText, keyTyped, stored⟩

/-- The row of a fitting task has the requested type and key. -/
theorem requests_record
    (fits : task.Fits)
    (bound : (task.insertArgs payloadHash).encode platform = .ok encoded)
    (id : TaskId) (now : Time) : task.Requests (encoded.record id now) := by
  rcases encode_of_fits fits bound with ⟨typed, keyed⟩
  refine ⟨toText_eq_ok_iff.mp typed, ?_⟩
  change encoded.idempotencyKey.map Text.bytes = task.idempotencyKey
  cases present : task.idempotencyKey with
  | none =>
      have keyColumn :
          encodeKey task.idempotencyKey = .ok encoded.idempotencyKey :=
        (InsertArgs.encode_columns bound).2.1
      rw [present] at keyColumn
      rw [← Except.ok.inj keyColumn]
      rfl
  | some key =>
      rcases keyed key present with ⟨text, keyTyped, column⟩
      rw [column]
      exact congrArg some (toText_eq_ok_iff.mp keyTyped)

/-- Without a key there is no conflict. -/
theorem conflicts_keyed
    (bound : (task.insertArgs payloadHash).encode platform = .ok encoded)
    (conflict : encoded.conflicts db = true) :
    ∃ key, task.idempotencyKey = some key := by
  rcases InsertArgs.encode_columns bound with ⟨_, keyed, _⟩
  change encodeKey task.idempotencyKey = .ok encoded.idempotencyKey
    at keyed
  cases present : task.idempotencyKey with
  | some key => exact ⟨key, rfl⟩
  | none =>
      rw [present] at keyed
      have absent : encoded.idempotencyKey = none :=
        (Except.ok.inj keyed).symm
      simp [EncodedTask.conflicts, absent] at conflict

/-- The row found for the type and the key is the requested one. -/
theorem requests_of_findKey
    {key : GoString} {type text : Text}
    (present : task.idempotencyKey = some key)
    (typed : toText task.type = .ok type) (keyTyped : toText key = .ok text)
    (found : db.findKey type text = some row) : task.Requests row := by
  rcases Database.findKey_eq_some_iff.mp found with
    ⟨_, rowType, rowKey⟩
  constructor
  · rw [rowType]
    exact toText_eq_ok_iff.mp typed
  · rw [rowKey, present]
    exact congrArg some (toText_eq_ok_iff.mp keyTyped)

/-- The replay branch, after a conflict with a row that is seen. -/
theorem meets_replayTask
    {holder : TaskRecord}
    (hashed : hashPayload platform task.payload = some payloadHash)
    (bound : (task.insertArgs payloadHash).encode platform = .ok encoded)
    (enqueuing : Enqueuing platform call rows tx) {key : GoString}
    (present : task.idempotencyKey = some key)
    (sameType : holder.type = encoded.type)
    (sameKey : holder.idempotencyKey = encoded.idempotencyKey)
    (faulted :
      ∀ result tx, Enqueuing platform call rows tx →
        (openContract platform pruned).Meets call (next task result) (some tx)
          (FreeAll rows) [] true)
    (decided :
      ∀ known returned result,
        Verdict platform pruned task rows rows known returned result →
          (openContract platform pruned).Stable tx.locks known →
          (openContract platform pruned).Meets call (next returned result)
            (some tx) known [] flag) :
    (openContract platform pruned).Meets call
      (replayTask task payloadHash next) (some tx)
      (fun db => FreeAll rows db ∧ Seen pruned rows holder db) [] flag := by
  simp only [replayTask, present, getByTypeAndIdempotencyKey]
  constructor
  · intro fault failed
    have tainted : Enqueuing platform call rows { tx with failed } :=
      ⟨enqueuing.written, enqueuing.enqueues, enqueuing.locked,
        enqueuing.apart⟩
    exact (faulted (.error (.database fault)) _ tainted).mono
      fun _ held => held.1
  · intro _ others oracle db effect held evaluated
    rcases held with ⟨free, seen⟩
    change eval platform tx.startedAt others oracle
      (.getByTypeAndIdempotencyKey task.type key)
      ((postgres platform).applyAll tx.writes db) = .ok effect
      at evaluated
    simp only [eval, bind_eq_ok_iff, map_eq_ok_iff] at evaluated
    rcases evaluated with ⟨type, typed, text, keyTyped, equal⟩
    subst effect
    simp only [List.append_nil]
    cases found :
        ((postgres platform).applyAll tx.writes db).findKey type text with
    | none =>
        have unfit : ¬ pruned → ¬ task.Fits := by
          intro kept fits
          rcases encode_of_fits fits bound with ⟨typeKept, keyKept⟩
          rcases keyKept key present with ⟨stored, storedTyped, held⟩
          rcases enqueuing.visible free kept seen with
            ⟨current, member, same⟩
          have columns := TaskRecord.identity_of_fixed same
          have currentType : current.type = type :=
            (congrArg Identity.type columns).trans
              (sameType.trans (Except.ok.inj (typeKept.symm.trans typed)))
          have sameText : stored = text :=
            Except.ok.inj (storedTyped.symm.trans keyTyped)
          have currentKey : current.idempotencyKey = some text :=
            (congrArg Identity.idempotencyKey columns).trans
              (sameKey.trans (held.trans (congrArg some sameText)))
          exact Database.findKey_eq_none_iff.mp found current member
            currentType currentKey
        exact ⟨(openContract platform pruned).within_nil _, FreeAll rows,
          enqueuing.stable_freeAll, free,
          decided _ _ _ (.lost unfit) enqueuing.stable_freeAll⟩
    | some row =>
        have member := (Database.findKey_eq_some_iff.mp found).1
        have requests := requests_of_findKey present typed keyTyped found
        have keyed : task.idempotencyKey.isSome = true := by
          rw [present]
          rfl
        have stable :
            (openContract platform pruned).Stable tx.locks
              fun db => FreeAll rows db ∧ Seen pruned rows row db :=
          stable_and enqueuing.stable_freeAll (stable_seen _ rows row)
        refine ⟨(openContract platform pruned).within_nil _,
          fun db => FreeAll rows db ∧ Seen pruned rows row db, stable,
          ⟨free, enqueuing.seen free member⟩, ?_⟩
        by_cases same : row.payloadHash = payloadHash
        · have kept : (scanHashed row).payloadHash = payloadHash := same
          simp only [kept, if_true]
          apply decided _ _ _ _ stable
          exact .replayed row requests keyed (same ▸ hashed)
        · have changed : ¬ (scanHashed row).payloadHash = payloadHash :=
            same
          simp only [changed, if_false]
          apply decided _ _ _ _ stable
          exact .conflict row payloadHash requests keyed hashed (Ne.symm same)

/-- The rule for `insertTask` in a transaction with uncommitted rows. -/
theorem meets_insertTask
    (enqueuing : Enqueuing platform call rows tx)
    (requested : task ∈ call.tasks)
    (faulted :
      ∀ result tx, Enqueuing platform call rows tx →
        (openContract platform pruned).Meets call (next task result) (some tx)
          (FreeAll rows) [] true)
    (decided :
      ∀ later known returned result tx,
        Verdict platform pruned task rows later known returned result →
          Enqueuing platform call later tx →
          (openContract platform pruned).Stable tx.locks known →
          (openContract platform pruned).Meets call (next returned result)
            (some tx) known [] flag) :
    (openContract platform pruned).Meets call (insertTask platform task next)
      (some tx) (FreeAll rows) [] flag := by
  unfold insertTask
  cases hashed : hashPayload platform task.payload with
  | none =>
      exact decided rows _ _ _ tx (.invalid hashed) enqueuing
        enqueuing.stable_freeAll
  | some payloadHash =>
      constructor
      · intro fault failed
        have tainted : Enqueuing platform call rows { tx with failed } :=
          ⟨enqueuing.written, enqueuing.enqueues, enqueuing.locked,
            enqueuing.apart⟩
        exact faulted (.ok true) _ tainted
      · intro _ others oracle db effect free evaluated
        rcases evalInsert_cases evaluated with
          ⟨encoded, bound, ⟨conflict, equal⟩ | ⟨unused, absent, equal⟩⟩
        · subst effect
          rcases conflicts_keyed bound conflict with ⟨key, present⟩
          simp only [EncodedTask.conflicts, Option.any_eq_true,
            Option.isSome_iff_exists] at conflict
          rcases conflict with ⟨text, keyed, holder, found⟩
          rcases Database.findKey_eq_some_iff.mp found with
            ⟨member, holderType, holderKey⟩
          refine ⟨(openContract platform pruned).within_nil _,
            fun db => FreeAll rows db ∧ Seen pruned rows holder db, ?_,
            ⟨free, enqueuing.seen free member⟩, ?_⟩
          · rw [List.append_nil]
            exact stable_and enqueuing.stable_freeAll
              (stable_seen _ rows holder)
          · simp only [List.append_nil]
            apply meets_replayTask hashed bound enqueuing present
              holderType (holderKey.trans keyed.symm) faulted
            intro known returned result verdict stable
            exact decided rows known returned result tx verdict
              enqueuing stable
        · subst effect
          have unclashed :
              ((postgres platform).applyAll tx.writes db).Free
                (encoded.record oracle.newId tx.startedAt) :=
            free_record unused absent
          have enqueues :
              ∀ call : Call, task ∈ call.tasks →
                call.Enqueues platform
                  (encoded.record oracle.newId tx.startedAt) :=
            fun _ member =>
              ⟨task, member, payloadHash, encoded, tx.startedAt,
                hashed, bound, rfl⟩
          rcases enqueuing.insert (enqueues call requested) free
            unclashed with ⟨extended, freeLater⟩
          refine ⟨?_, FreeAll _, extended.stable_freeAll, freeLater, ?_⟩
          · intro write member res disturbed
            rw [List.mem_singleton] at member
            subst write
            exact List.mem_append_right _ disturbed
          · exact decided _ _ _ _ _
              (.inserted _ (enqueues (.create task) (by simp [Call.tasks])))
              extended extended.stable_freeAll

end InsertTask

/-! ## The two ways to enqueue -/

section Methods

variable (platform : Platform) {pruned : Prop}

theorem enqueuing_start (call : Call) (now : Time) :
    Enqueuing platform call [] { startedAt := now } :=
  ⟨rfl, by simp, by simp, List.Pairwise.nil⟩

theorem Enqueuing.lawful
    {platform : Platform} {call : Call}
    (enqueuing : Enqueuing platform call rows tx) (free : FreeAll rows db) :
    Lawful platform db call tx.writes := by
  rw [enqueuing.written]
  exact .enqueue call rows enqueuing.enqueues free enqueuing.apart

theorem Verdict.free
    {platform : Platform} {returned : TaskRow} {later : List TaskRecord}
    {known : Database → Prop} {result : Except StoreError Bool}
    (verdict : Verdict platform pruned task rows later known returned result)
    (held : known db) :
    FreeAll later db := by
  cases verdict with
  | invalid => exact held
  | inserted => exact held
  | replayed => exact held.1
  | conflict => exact held.1
  | lost => exact held

theorem createEach_meets
    {call : Call} (tasks : List TaskRow)
    (requested : ∀ task ∈ tasks, task ∈ call.tasks)
    (enqueuing : Enqueuing platform call rows tx)
    (results : List (TaskRow × Except StoreError Bool))
    {next : List (TaskRow × Except StoreError Bool) → StoreProgram Response}
    (finished :
      ∀ results rows tx flag, Enqueuing platform call rows tx →
        (openContract platform pruned).Meets call (next results) (some tx)
          (FreeAll rows) [] flag) :
    (openContract platform pruned).Meets call
      (createEach platform tasks results next) (some tx) (FreeAll rows)
      [] flag := by
  induction tasks generalizing rows tx flag results with
  | nil => exact finished results rows tx flag enqueuing
  | cons task rest induction =>
      have remaining : ∀ later ∈ rest, later ∈ call.tasks :=
        fun later member =>
          requested later (List.mem_cons_of_mem task member)
      rw [createEach, createTx]
      apply meets_insertTask enqueuing (requested task (by simp))
      · intro result tx enqueuing
        exact induction remaining enqueuing _
      · intro later known returned result tx verdict enqueuing _
        exact (induction remaining enqueuing _).mono
          fun _ held => verdict.free held

theorem callerTx_meets (tasks : List TaskRow)
    (commits : List (TaskRow × Except StoreError Bool) → Bool) :
    (openContract platform pruned).Meets (.callerTx tasks commits)
      (callerTx platform tasks commits) none (fun _ => True) []
      false := by
  apply meets_openTx fun _ => rfl
  intro now
  have started := enqueuing_start platform (.callerTx tasks commits) now
  have requested :
      ∀ task ∈ tasks, task ∈ (Call.callerTx tasks commits).tasks :=
    fun _ member => member
  refine (createEach_meets platform tasks requested started [] ?_).mono ?_
  · intro results rows tx flag enqueuing
    by_cases commit : commits results = true
    · rw [if_pos commit]
      refine ⟨⟨fun _ => True, (openContract platform pruned).stable_true [],
        fun _ _ => True.intro, fun _ _ _ => True.intro⟩, ?_⟩
      intro _
      exact ⟨fun _ db free => enqueuing.lawful free, fun _ => True,
        (openContract platform pruned).stable_true [], fun _ _ => True.intro,
        fun _ _ => True.intro⟩
    · rw [if_neg commit]
      exact fun _ _ => True.intro
  · intro db _ row member
    cases member

/-- `Create` commits what its verdict says. -/
theorem create_commit
    {returned : TaskRow} {later : List TaskRecord} {known : Database → Prop}
    {created : Bool}
    (verdict :
      Verdict platform pruned task [] later known returned (.ok created))
    (enqueuing : Enqueuing platform (.create task) later tx) (held : known db)
    (kept : ¬ pruned) :
    EnsuredCreate platform task (publish tx.writes [])
      ((postgres platform).applyAll tx.writes db)
      (.created returned (.ok created)) := by
  rw [enqueuing.written]
  cases verdict with
  | inserted row enqueues =>
      refine ⟨row, rfl, enqueues, rfl, row, ?_, rfl⟩
      have stored :
          ((postgres platform).applyAll [.insertTask row] db).view
            row.id = _ :=
        view_insertions held enqueuing.apart (List.mem_singleton.mpr rfl)
      exact congrArg TaskView.row stored
  | replayed row requests keyed same =>
      rcases held.2 with uncommitted | stored
      · cases uncommitted
      · exact ⟨rfl, row, stored kept, rfl, requests, keyed, same⟩

theorem create_meets (task : TaskRow) :
    (openContract platform pruned).Meets (.create task) (create platform task)
      none (fun _ => True) [] false := by
  apply meets_openTx fun _ => rfl
  intro now
  have started := enqueuing_start platform (.create task) now
  refine (meets_insertTask started (by simp [Call.tasks]) ?_ ?_).mono ?_
  · intro result tx enqueuing
    cases result with
    | error error => exact meets_giveUp rfl _ _
    | ok created =>
        refine ⟨⟨fun _ => True, (openContract platform pruned).stable_true [],
          fun _ _ => True.intro, fun _ => meets_giveUp rfl _ _⟩, ?_⟩
        intro _
        exact ⟨fun _ db free => enqueuing.lawful free, fun _ => True,
          (openContract platform pruned).stable_true [],
          fun _ _ => True.intro, fun _ _ => nofun⟩
  · intro later known returned result tx verdict enqueuing _
    cases result with
    | error error =>
        cases verdict with
        | invalid undecoded =>
            exact fun _ _ _ _ => ⟨rfl, Or.inl undecoded⟩
        | conflict row payloadHash requests keyed hashed different =>
            intro db held _ kept
            rcases held.2 with uncommitted | stored
            · cases uncommitted
            · exact ⟨rfl, row, payloadHash, stored kept, requests, keyed,
                hashed, different⟩
        | lost unfit => exact fun _ _ _ kept => ⟨rfl, Or.inr (unfit kept)⟩
    | ok created =>
        refine ⟨⟨fun _ => True, (openContract platform pruned).stable_true [],
          fun _ _ => True.intro, fun _ => meets_giveUp rfl _ _⟩, ?_⟩
        intro _
        refine ⟨fun _ db held => enqueuing.lawful (verdict.free held),
          (openContract platform pruned).Ensures (.create task)
            (publish tx.writes []) false (.created returned (.ok created)),
          (openContract platform pruned).stable_ensures _ _ _ _ _, ?_, ?_⟩
        · intro db held _ kept
          exact create_commit platform verdict enqueuing held kept
        · exact fun _ held => held
  · intro db _ row member
    cases member

/-- Every method of the store keeps the contract. -/
theorem Call.meets (call : Call) :
    (openContract platform pruned).Meets call (call.program platform) none
      (fun _ => True) [] false := by
  cases call with
  | create task => exact create_meets platform task
  | callerTx tasks commits => exact callerTx_meets platform tasks commits
  | cancel id => exact cancel_meets platform id
  | claim workerID => exact claim_meets platform workerID
  | heartbeat taskID workerID =>
      exact heartbeat_meets platform taskID workerID
  | markCompleted taskID workerID durationMs =>
      exact markCompleted_meets platform taskID workerID durationMs
  | markPending task workerID lastError nextRunAt =>
      exact markPending_meets platform task workerID lastError nextRunAt
  | markDead taskID workerID lastError reason =>
      exact markDead_meets platform taskID workerID lastError reason
  | retryDead taskID => exact retryDead_meets platform taskID
  | requeueStaleRunning threshold reaperID =>
      exact requeueStaleRunning_meets platform threshold reaperID

end Methods

end Dhara.Store
