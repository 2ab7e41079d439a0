import Dhara.Client
import Dhara.Store.EnqueueRefinement

/-!
# What an enqueueing call tells its caller

`CreateTx`, `InsertTx` and `EnqueueTx` work in the transaction of their
caller.  A result without an error says that the transaction is usable and
contains the task, and that the call has inserted it if it is not reported as
a duplicate.  This is true exactly when the `INSERT` is answered without a
database error, because `insertTask` only looks for `ErrNoRows` afterwards.
-/

namespace Dhara

open Dhara.Store Dhara.Transaction

/-- A connection of the caller. -/
abbrev StoreLink := Link Database Write Resource Time

/-- What a call without an error reports. -/
structure Receipt where
  id : TaskId
  created : Bool

/-- The report of `CreateTx`. -/
def storeReceipt (task : TaskRow) :
    Except StoreError Bool → Option Receipt
  | .error _ => none
  | .ok created => some ⟨task.id, created⟩

/-- The report of `InsertTx` and `EnqueueTx`. -/
def clientReceipt :
    Except ClientError EnqueueResult → Option Receipt
  | .error _ => none
  | .ok result => some ⟨result.task.id, !result.duplicate⟩

/--
The report is true: the transaction is usable and contains the task, and a
created task was inserted by this call.
-/
structure Truthful (platform : Platform) (before after : StoreLink)
    (type : GoString) (key : Option GoString) (receipt : Receipt) :
    Prop where
  contained :
    ∃ tx row,
      after.tx = some tx ∧ tx.failed = false ∧
        ((postgres platform).applyAll tx.writes after.db).find
          receipt.id = some row ∧
        row.type.bytes = type ∧
        row.idempotencyKey.map Text.bytes = key
  inserted :
    receipt.created = true →
      ∃ opened tx row,
        before.tx = some opened ∧ after.tx = some tx ∧
          tx.writes = opened.writes ++ [.insertTask row] ∧
          row.id = receipt.id

/-- The columns store the type and the key without cutting off spaces. -/
def Uncut (task : TaskRow) : Prop :=
  (∀ text : Text, text.bytes = task.type →
    varchar 100 text = .ok text) ∧
    ∀ key, task.idempotencyKey = some key →
      ∀ text : Text, text.bytes = key → varchar 255 text = .ok text

/--
The `INSERT` of the call raises no database error.  It returns no row on a
conflict, and a row that it returns has the requested type and key.
-/
def InsertAccepted (platform : Platform) (task : TaskRow)
    (answer : Answer Fault Resource Oracle Time) (link : StoreLink) :
    Prop :=
  ∀ payloadHash, hashPayload platform task.payload = some payloadHash →
    ∃ reply,
      ((postgres platform).execTx answer
          (.insertTask (task.insertArgs payloadHash)) link).1 =
        .ok reply ∧
        (reply = none ∨ Uncut task)

section Truthfulness

variable {platform : Platform} {task : TaskRow}

/-- Uncut columns are stored as requested. -/
theorem uncut_iff
    {payloadHash : GoString} {encoded : EncodedTask} {id : TaskId}
    {now : Time}
    (bound : (task.insertArgs payloadHash).encode platform = .ok encoded) :
    Uncut task ↔ task.Requests (encoded.record id now) := by
  rcases InsertArgs.encode_columns bound with
    ⟨⟨text, typed, fitted⟩, keyed, _⟩
  change toText task.type = .ok text at typed
  change encodeKey task.idempotencyKey = .ok encoded.idempotencyKey
    at keyed
  have sameType := toText_eq_ok_iff.mp typed
  constructor
  · rintro ⟨uncutType, uncutKey⟩
    rw [uncutType text sameType] at fitted
    cases fitted
    refine ⟨sameType, ?_⟩
    change encoded.idempotencyKey.map Text.bytes = task.idempotencyKey
    cases present : task.idempotencyKey with
    | none =>
        rw [present] at keyed
        have absent : encoded.idempotencyKey = none :=
          (Except.ok.inj keyed).symm
        rw [absent]
        rfl
    | some key =>
        rw [present] at keyed
        rcases encodeKey_some keyed with
          ⟨keyText, column, keyTyped, keyFitted, stored⟩
        have sameKey := toText_eq_ok_iff.mp keyTyped
        rw [uncutKey key present keyText sameKey] at keyFitted
        cases keyFitted
        rw [stored, ← sameKey]
        rfl
  · rintro ⟨requestedType, requestedKey⟩
    change encoded.type.bytes = task.type at requestedType
    change encoded.idempotencyKey.map Text.bytes = task.idempotencyKey
      at requestedKey
    constructor
    · intro other same
      have equal : other = text := Text.ext (same.trans sameType.symm)
      have stored : encoded.type = text :=
        Text.ext (requestedType.trans sameType.symm)
      rw [equal, fitted, stored]
    · intro key present other same
      rw [present] at keyed requestedKey
      rcases encodeKey_some keyed with
        ⟨keyText, column, keyTyped, keyFitted, stored⟩
      rw [stored] at requestedKey
      have sameKey := toText_eq_ok_iff.mp keyTyped
      have columnKey : column.bytes = key := Option.some.inj requestedKey
      have equal : other = keyText := Text.ext (same.trans sameKey.symm)
      have kept : column = keyText := Text.ext (columnKey.trans sameKey.symm)
      rw [equal, keyFitted, kept]

/-! ## One call of `CreateTx` -/

section Calls

variable {Result : Type}
    {finish : TaskRow → Except StoreError Bool → Result}
    {read : Result → Option Receipt}

variable (platform task finish) in
/-- `CreateTx`, with its results put together by the caller. -/
def created (answers : Nat → Answer Fault Resource Oracle Time)
    (link : StoreLink) :
    Outcome Database Write Resource Time Counter Result :=
  (postgres platform).run
    (createTx platform task fun row result =>
      .done (finish row result)) answers link

variable (platform task read) in
/-- Whatever the call reports is true. -/
def Honest (link : StoreLink)
    (outcome : Outcome Database Write Resource Time Counter Result) :
    Prop :=
  ∀ receipt, read outcome.result = some receipt →
    Truthful platform link outcome.link task.type task.idempotencyKey receipt

section

variable
    (reads : ∀ row result, read (finish row result) = storeReceipt row result)

include reads

/-- A call that returns an error reports nothing. -/
theorem honest_error
    {link : StoreLink}
    {outcome : Outcome Database Write Resource Time Counter Result}
    {row : TaskRow} {error : StoreError}
    (failed : outcome.result = finish row (.error error)) :
    Honest platform task read link outcome := by
  intro receipt reported
  rw [failed, reads] at reported
  cases reported

/-- The replay of an existing task is reported truthfully. -/
theorem replayTask_honest
    (payloadHash : GoString)
    (answers : Nat → Answer Fault Resource Oracle Time)
    (link : StoreLink) (db : Database) (tx : Tx Write Resource Time)
    (alive : tx.failed = false) :
    Honest platform task read link
      ((postgres platform).run
        (replayTask task payloadHash fun row result =>
          .done (finish row result)) answers ⟨db, some tx⟩) := by
  unfold replayTask
  cases present : task.idempotencyKey with
  | none => exact honest_error reads rfl
  | some key =>
      simp only [getByTypeAndIdempotencyKey, Engine.run]
      rcases (postgres platform).execTx_cases (answers 0)
          (.getByTypeAndIdempotencyKey task.type key) db tx with
        ⟨fault, failed, replied⟩ | ⟨_, _, effect, evaluated, replied⟩
      · rw [replied]
        exact honest_error reads rfl
      · rw [replied]
        change eval platform tx.startedAt (answers 0).others
          (answers 0).oracle
          (.getByTypeAndIdempotencyKey task.type key) _ = _ at evaluated
        simp only [eval, bind_eq_ok_iff, map_eq_ok_iff] at evaluated
        rcases evaluated with ⟨type, typed, text, keyTyped, equal⟩
        subst effect
        cases found :
            ((postgres platform).applyAll tx.writes db).findKey type text with
        | none => exact honest_error reads rfl
        | some row =>
            by_cases same : (scanHashed row).payloadHash = payloadHash
            · simp only [if_pos same]
              intro receipt reported
              change read (finish (scanHashed row) (.ok false)) = _
                at reported
              rw [reads] at reported
              cases reported
              have requests :=
                requests_of_findKey present typed keyTyped found
              have member := (Database.findKey_eq_some_iff.mp found).1
              constructor
              · refine ⟨_, row, rfl, alive, ?_, requests⟩
                rw [List.append_nil]
                exact Database.find_of_mem member
              · intro fresh
                cases fresh
            · simp only [if_neg same]
              exact honest_error reads rfl

/-- A call whose `INSERT` fails reports a task it has not inserted. -/
theorem failed_insert_dishonest
    {link after : StoreLink} {row : TaskRow}
    (silent :
      ∀ opened tx, link.tx = some opened → after.tx = some tx →
        tx.writes = opened.writes)
    {outcome : Outcome Database Write Resource Time Counter Result}
    (returned : outcome.result = finish row (.ok true))
    (ended : outcome.link = after) :
    ¬ Honest platform task read link outcome := by
  intro honest
  have reported : read outcome.result = some ⟨row.id, true⟩ := by
    rw [returned, reads]
    rfl
  rcases (honest _ reported).inserted rfl with
    ⟨opened, tx, inserted, before, later, grown, _⟩
  rw [ended] at later
  rw [silent opened tx before later] at grown
  simp at grown

/-- A call that inserts a row is honest exactly when the row is uncut. -/
theorem inserted_honest_iff
    {payloadHash : GoString} {encoded : EncodedTask}
    (bound : (task.insertArgs payloadHash).encode platform = .ok encoded)
    {db : Database} {tx : Tx Write Resource Time} {id : TaskId}
    (alive : tx.failed = false)
    (unused :
      encoded.conflicts ((postgres platform).applyAll tx.writes db) = false)
    (absent : ((postgres platform).applyAll tx.writes db).find id = none)
    {now : Time} {locks : List Resource}
    {outcome : Outcome Database Write Resource Time Counter Result}
    (returned :
      outcome.result =
        finish (scanInserted task (encoded.record id now)) (.ok true))
    (ended :
      outcome.link =
        ⟨db,
          some
            { tx with
              writes := tx.writes ++ [.insertTask (encoded.record id now)]
              locks := locks }⟩) :
    Honest platform task read ⟨db, some tx⟩ outcome ↔ Uncut task := by
  have stored :
      ((postgres platform).applyAll
          (tx.writes ++ [.insertTask (encoded.record id now)])
          db).find id = some (encoded.record id now) := by
    rw [Engine.applyAll_append]
    exact congrArg TaskView.row
      (Write.view_insertTask (free_record unused absent))
  rw [uncut_iff bound]
  constructor
  · intro honest
    have reported : read outcome.result = some ⟨id, true⟩ := by
      rw [returned, reads]
      rfl
    rcases (honest _ reported).contained with
      ⟨later, row, opened, _, found, requests⟩
    rw [ended] at opened found
    cases opened
    rw [stored] at found
    cases found
    exact requests
  · intro requests receipt reported
    rw [returned, reads] at reported
    cases reported
    rw [ended]
    exact
      ⟨⟨_, encoded.record id now, rfl, alive, stored, requests⟩,
        fun _ => ⟨tx, _, encoded.record id now, rfl, rfl, rfl, rfl⟩⟩

/-- `CreateTx` is honest exactly when its `INSERT` is accepted. -/
theorem created_honest_iff
    (answers : Nat → Answer Fault Resource Oracle Time)
    (link : StoreLink) :
    Honest platform task read link
        (created platform task finish answers link) ↔
      InsertAccepted platform task (answers 0) link := by
  unfold created createTx insertTask InsertAccepted
  cases hashed : hashPayload platform task.payload with
  | none =>
      constructor
      · intro _ payloadHash impossible
        cases impossible
      · intro _
        exact honest_error reads rfl
  | some payloadHash =>
      rcases link with ⟨db, opened⟩
      simp only [Engine.run, Option.some.injEq, forall_eq']
      cases opened with
      | none =>
          apply iff_of_false
          · apply failed_insert_dishonest reads _ rfl rfl
            intro before after first
            cases first
          · rintro ⟨reply, replied, _⟩
            cases replied
      | some tx =>
          rcases (postgres platform).execTx_cases (answers 0)
              (.insertTask (task.insertArgs payloadHash)) db tx with
            ⟨fault, failed, replied⟩ | ⟨alive, _, effect, evaluated, replied⟩
          · simp only [replied]
            apply iff_of_false
            · apply failed_insert_dishonest reads _ rfl rfl
              intro before after first second
              cases first
              cases second
              rfl
            · rintro ⟨reply, impossible, _⟩
              cases impossible
          · simp only [replied]
            rcases evalInsert_cases evaluated with
              ⟨encoded, bound, ⟨_, equal⟩ | ⟨unused, absent, equal⟩⟩
            · subst effect
              apply iff_of_true
              · exact replayTask_honest reads payloadHash _ _ _ _ alive
              · exact ⟨none, rfl, Or.inl rfl⟩
            · subst effect
              rw [inserted_honest_iff reads bound alive unused absent rfl rfl]
              constructor
              · intro uncut
                exact ⟨_, rfl, Or.inr uncut⟩
              · rintro ⟨reply, same, none | uncut⟩
                · cases same
                  cases none
                · exact uncut

end

end Calls

end Truthfulness

/-! ## The three entry points -/

theorem clientReceipt_enqueueResult
    (row : TaskRow) (result : Except StoreError Bool) :
    clientReceipt (enqueueResult row result) = storeReceipt row result := by
  cases result with
  | error error => rfl
  | ok created =>
      rw [enqueueResult, clientReceipt, Bool.not_not]
      rfl

/-- `InsertTx` is honest if its parameters are invalid or accepted. -/
theorem insertTx_honest_iff
    (platform : Platform) (now : Time) (params : InsertParams)
    (answers : Nat → Answer Fault Resource Oracle Time)
    (link : StoreLink) :
    Honest platform (params.normalize now).toStoreTask clientReceipt
        link
        ((postgres platform).run (insertTx platform now params .done)
          answers link) ↔
      ((params.normalize now).validate now = .ok () →
        InsertAccepted platform (params.normalize now).toStoreTask
          (answers 0) link) := by
  unfold insertTx
  cases validated : (params.normalize now).validate now with
  | error message =>
      constructor
      · intro _ impossible
        cases impossible
      · intro _ receipt reported
        cases reported
  | ok accepted =>
      simp only [true_implies]
      exact created_honest_iff clientReceipt_enqueueResult answers link

/--
In every state of the caller's transaction, what `CreateTx`, `InsertTx` and
`EnqueueTx` report without an error is true if and only if the `INSERT`, when
the call comes to it, is answered without a database error and does not cut
off the requested type or key.
-/
theorem enqueue_truthful_iff (platform : Platform) :
    (∀ (task : TaskRow)
      (answers : Nat → Answer Fault Resource Oracle Time)
      (link : StoreLink),
      Honest platform task
          (fun reply : TaskRow × Except StoreError Bool =>
            storeReceipt reply.1 reply.2) link
          ((postgres platform).run
            (createTx platform task fun row result =>
              .done (row, result)) answers link) ↔
        InsertAccepted platform task (answers 0) link) ∧
      (∀ (now : Time) (params : InsertParams)
        (answers : Nat → Answer Fault Resource Oracle Time)
        (link : StoreLink),
        Honest platform (params.normalize now).toStoreTask
            clientReceipt link
            ((postgres platform).run
              (insertTx platform now params .done) answers link) ↔
          ((params.normalize now).validate now = .ok () →
            InsertAccepted platform (params.normalize now).toStoreTask
              (answers 0) link)) ∧
      ∀ (now : Time) (taskType : GoString)
        (payload : Option (Option GoString))
        (options : List EnqueueOption)
        (answers : Nat → Answer Fault Resource Oracle Time)
        (link : StoreLink),
        match buildInsertParams taskType payload options with
        | .error error =>
            ((postgres platform).run
              (enqueueTx platform now taskType payload options .done)
              answers link).result = .error error
        | .ok params =>
            Honest platform (params.normalize now).toStoreTask
                clientReceipt link
                ((postgres platform).run
                  (enqueueTx platform now taskType payload options
                    .done) answers link) ↔
              ((params.normalize now).validate now = .ok () →
                InsertAccepted platform
                  (params.normalize now).toStoreTask (answers 0)
                  link) := by
  refine ⟨?_, insertTx_honest_iff platform, ?_⟩
  · intro task answers link
    exact created_honest_iff (fun _ _ => rfl) answers link
  · intro now taskType payload options answers link
    cases built : buildInsertParams taskType payload options with
    | error error => simp only [enqueueTx, built, Engine.run]
    | ok params =>
        simp only [enqueueTx, built]
        exact insertTx_honest_iff platform now params answers link

/--
A server that rejects the payload as `JSONB`, as PostgreSQL does for a string
with a NUL character.
-/
def rejectingPlatform : Platform :=
  { echoPlatform with jsonb := fun _ => none }

/-- `InsertTx` of a valid task in a fresh transaction. -/
def lostInsert :
    Outcome Database Write Resource Time Counter
      (Except ClientError EnqueueResult) :=
  (postgres rejectingPlatform).run
    (insertTx rejectingPlatform 0 { type := ascii "email" } .done)
    (fun _ => ⟨none, fun _ => false, ⟨0, 7, 0⟩, 0⟩)
    ⟨.empty, some { startedAt := 0 }⟩

/--
The call reports a new task without an error, but its transaction is aborted
and contains nothing.
-/
theorem lostInsert_reports_created :
    ∃ result tx,
      lostInsert.result = .ok result ∧ result.duplicate = false ∧
        lostInsert.link.tx = some tx ∧ tx.failed = true ∧
        tx.writes.length = 0 ∧
        ¬ Honest rejectingPlatform { type := ascii "email" }
          clientReceipt ⟨.empty, some { startedAt := 0 }⟩
          lostInsert := by
  have reported :
      (lostInsert.result.toOption.map fun result =>
        result.duplicate) = some false := by
    decide +kernel
  have aborted :
      (lostInsert.link.tx.map fun tx =>
        (tx.failed, tx.writes.length)) = some (true, 0) := by
    decide +kernel
  rcases Option.map_eq_some_iff.mp aborted with ⟨tx, opened, equal⟩
  cases returned : lostInsert.result with
  | error error =>
      rw [returned] at reported
      cases reported
  | ok result =>
      rw [returned] at reported
      have fresh : result.duplicate = false := Option.some.inj reported
      have failed : tx.failed = true := congrArg Prod.fst equal
      refine ⟨result, tx, rfl, fresh, opened, failed,
        congrArg Prod.snd equal, ?_⟩
      intro honest
      have receipt :
          clientReceipt lostInsert.result =
            some ⟨result.task.id, !result.duplicate⟩ := by
        rw [returned]
        rfl
      rcases (honest _ receipt).contained with
        ⟨later, row, current, usable, _⟩
      rw [opened] at current
      cases current
      rw [failed] at usable
      cases usable

end Dhara
