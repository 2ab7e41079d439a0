import Dhara.Client
import Dhara.Store.Canonical
import Dhara.Store.Creation

/-!
# Accepted parameters and the schema

`Validate` checks the parameters of an insertion in Go, and PostgreSQL checks
the columns of `tasks` once more.  The lengths and the integer ranges that
`Validate` accepts fit the columns.  What it does not look at is the text of
the type and of the key, and what `JSONB` makes of the payload; accepted
parameters satisfy the schema exactly if these are in order.
-/

namespace Dhara

open Dhara.Store Dhara.Transaction

/-- The checks of PostgreSQL that `Validate` does not make. -/
structure Admissible (params : NormalParams) : Prop where
  type : isText params.type = true
  key : ∀ key, params.idempotencyKey = some key → isText key = true
  payload : JsonText.storable params.payload = true
  runAt : IsTimestamp (sentTime params.runAt)

/-- The `INSERT` of the parameters satisfies the constraints of `tasks`. -/
def FitsSchema (platform : Platform) (params : NormalParams)
    (payloadHash : GoString) : Prop :=
  ∃ encoded,
    (params.toStoreTask.insertArgs payloadHash).encode platform = .ok encoded

/-- The insertion succeeded or met an idempotency conflict. -/
def Undisturbed : Response → Bool
  | .created _ (.ok _) => true
  | .created _ (.error .taskConflict) => true
  | _ => false

/-! ## Columns -/

section Columns

variable {platform : Platform} {params : NormalParams} {now : Time}

/-- What `Validate` has checked. -/
structure Validated (params : NormalParams) : Prop where
  typed : params.type ≠ []
  type : params.type.length ≤ 100
  priority : 0 ≤ params.priority ∧ params.priority ≤ 100
  maxRetries : 0 ≤ params.maxRetries ∧ params.maxRetries ≤ 20
  key : ∀ key, params.idempotencyKey = some key → key.length ≤ 255

theorem validated_of_validate
    (valid : params.validate now = .ok ()) : Validated params := by
  unfold NormalParams.validate at valid
  split_ifs at valid with typed type priority maxRetries key
  push Not at type priority maxRetries
  refine ⟨typed, type, priority, maxRetries, ?_⟩
  intro text present
  simpa [present] using key

theorem Validated.fits (valid : Validated params) :
    params.toStoreTask.Fits :=
  ⟨valid.type, valid.key⟩

theorem int4_of_small {value : Int} (small : 0 ≤ value ∧ value ≤ 100) :
    int4 value = .ok value := by
  unfold int4 maxInt4
  exact if_pos ⟨by omega, by omega⟩

theorem Validated.int4_maxRetries (valid : Validated params) :
    int4 params.maxRetries = .ok params.maxRetries := by
  have retries := valid.maxRetries
  exact int4_of_small ⟨retries.1, by omega⟩

theorem encodeKey_of_isText {key : Option GoString}
    (valid : ∀ text, key = some text → isText text = true)
    (short : ∀ text, key = some text → text.length ≤ 255) :
    ∃ stored, encodeKey key = .ok stored := by
  cases key with
  | none => exact ⟨none, rfl⟩
  | some key =>
      have text := toText_of_isText (valid key rfl)
      have fitted :
          varchar 255 ⟨key, valid key rfl⟩ = .ok ⟨key, valid key rfl⟩ :=
        varchar_of_length (short key rfl)
      exact ⟨_, by simp only [encodeKey, text, Except.bind, fitted,
        Except.map]; rfl⟩

/-- What can be hashed is stored as `JSONB` if it can be represented. -/
theorem hashed_jsonb
    (documented : platform.Documented)
    {payload payloadHash : GoString}
    (hashed : hashPayload platform payload = some payloadHash) :
    (platform.jsonb payload).isSome = JsonText.storable payload := by
  apply documented.jsonb
  rcases Option.map_eq_some_iff.mp hashed with ⟨bytes, written, _⟩
  rcases Option.bind_eq_some_iff.mp written with ⟨json, read, _⟩
  rw [← documented.unmarshal, read]
  rfl

/-- Validated parameters satisfy the schema exactly if they are admissible. -/
theorem Validated.fitsSchema_iff
    (valid : Validated params) (documented : platform.Documented)
    {payloadHash : GoString}
    (hashed : hashPayload platform params.payload = some payloadHash) :
    FitsSchema platform params payloadHash ↔ Admissible params := by
  have represented := hashed_jsonb documented hashed
  constructor
  · rintro ⟨encoded, bound⟩
    rcases InsertArgs.encode_columns bound with
      ⟨⟨text, typed, _⟩, keyed, _, stored⟩
    refine ⟨isText_of_toText typed, ?_, ?_, ?_⟩
    · intro key present
      change encodeKey params.idempotencyKey = _ at keyed
      rw [present] at keyed
      rcases encodeKey_some keyed with ⟨_, _, keyTyped, _⟩
      exact isText_of_toText keyTyped
    · change platform.jsonb params.payload = _ at stored
      rw [← represented, stored]
      rfl
    · simp only [InsertArgs.encode, bind, bind_eq_ok_iff] at bound
      rcases bound with
        ⟨_, _, _, _, _, _, _, _, _, _, _, _, runAt, timed, _⟩
      exact (timestamptz_eq_ok_iff.mp timed).1
  · intro admissible
    have typed := toText_of_isText admissible.type
    have fitted :
        varchar 100 ⟨params.type, admissible.type⟩ =
          .ok ⟨params.type, admissible.type⟩ :=
      varchar_of_length valid.type
    rcases encodeKey_of_isText admissible.key valid.key with
      ⟨key, keyed⟩
    rcases Option.isSome_iff_exists.mp
        (represented.trans admissible.payload) with ⟨payload, stored⟩
    have timed : timestamptz params.runAt = .ok (sentTime params.runAt) :=
      if_pos admissible.runAt
    have retries := valid.int4_maxRetries
    have encoded :
        (params.toStoreTask.insertArgs payloadHash).encode platform =
          .ok
            { type := ⟨params.type, admissible.type⟩
              payload
              payloadHash
              idempotencyKey := key
              priority := params.priority
              maxRetries := params.maxRetries
              runAt := sentTime params.runAt } := by
      simp only [InsertArgs.encode, TaskRow.insertArgs,
        NormalParams.toStoreTask, int4_of_small valid.priority, retries,
        typed, fitted, keyed, toJsonb, stored, timed, bind, Except.bind,
        if_neg valid.typed]
    exact ⟨_, encoded⟩

end Columns

/-! ## Executions -/

section Executions

variable {platform : Platform} {params : NormalParams}
  {payloadHash : GoString} {answers : Answers} {db : Database}
  {encoded : EncodedTask}

/-- An error of the conversion is one of the server. -/
def ServerSide {Value : Type} (value : Except Fault Value) : Prop :=
  ∀ fault, value = .error fault → fault.driverSide = false

theorem ServerSide.ok {Value : Type} (value : Value) :
    ServerSide (.ok value) := by
  intro fault equal
  cases equal

theorem ServerSide.bind {First Second : Type}
    {value : Except Fault First} {next : First → Except Fault Second}
    (first : ServerSide value)
    (rest : ∀ result, ServerSide (next result)) :
    ServerSide (value.bind next) := by
  cases value with
  | error fault =>
      intro other equal
      cases equal
      exact first fault rfl
  | ok result => exact rest result

theorem serverSide_toText (value : GoString) :
    ServerSide (toText value) := by
  intro fault equal
  unfold toText at equal
  split_ifs at equal
  cases equal
  rfl

theorem serverSide_varchar (limit : Nat) (value : Text) :
    ServerSide (varchar limit value) := by
  intro fault equal
  unfold varchar at equal
  split_ifs at equal
  · exact serverSide_toText _ fault equal
  · cases equal
    rfl

theorem serverSide_encodeKey (key : Option GoString) :
    ServerSide (encodeKey key) := by
  cases key with
  | none => exact .ok none
  | some key =>
      apply (serverSide_toText key).bind
      intro text fault equal
      cases fitted : varchar 255 text with
      | error refused =>
          rw [fitted] at equal
          cases equal
          exact serverSide_varchar 255 text fault fitted
      | ok column =>
          rw [fitted] at equal
          cases equal

theorem serverSide_toJsonb (payload : GoString) :
    ServerSide (toJsonb platform payload) := by
  intro fault equal
  unfold toJsonb at equal
  split at equal
  · cases equal
  · cases equal
    rfl

theorem serverSide_timestamptz (value : Time) :
    ServerSide (timestamptz value) := by
  intro fault equal
  unfold timestamptz at equal
  split_ifs at equal
  cases equal
  rfl

/-- Validated parameters are refused by the server, not by the driver. -/
theorem Validated.serverSide
    (valid : Validated params) (payloadHash : GoString) :
    ServerSide
      ((params.toStoreTask.insertArgs payloadHash).encode platform) := by
  have retries := valid.int4_maxRetries
  simp only [InsertArgs.encode, TaskRow.insertArgs,
    NormalParams.toStoreTask, int4_of_small valid.priority, retries,
    bind]
  apply (serverSide_toText _).bind
  intro text
  apply (serverSide_varchar _ _).bind
  intro type
  apply (serverSide_encodeKey _).bind
  intro key
  apply (serverSide_toJsonb _).bind
  intro payload
  apply (serverSide_timestamptz _).bind
  intro runAt
  split_ifs
  · intro fault equal
    cases equal
    rfl
  · exact .ok _

/-- A refused `INSERT` makes the commit of `Create` fail. -/
theorem create_refused
    (quiet : ∀ position, (answers position).fault = none)
    (hashed : hashPayload platform params.payload = some payloadHash)
    {fault : Fault} (server : fault.driverSide = false)
    (refused :
      (params.toStoreTask.insertArgs payloadHash).encode platform =
        .error fault) :
    Undisturbed
      (execute platform ⟨.create params.toStoreTask, answers⟩
        db).result = false := by
  have payload :
      hashPayload platform params.toStoreTask.payload =
        some payloadHash := hashed
  have evaluated :
      (postgres platform).eval (answers 0).clock (answers 1).others
          (answers 1).oracle
          (.insertTask (params.toStoreTask.insertArgs payloadHash)) db =
        .error fault := by
    change evalInsert platform _ _ _ _ = _
    rw [evalInsert, refused]
    rfl
  have aborts : (postgres platform).driverSide fault = false := server
  simp only [execute, Call.program, Store.create, openTx, createTx,
    insertTask, payload, Engine.run, beginTx, quiet, Engine.execTx,
    Engine.runStmt, Engine.applyAll_nil, evaluated, aborts, commitTx,
    Engine.commitTx, Outcome.after, Bool.false_eq_true, if_false]
  rfl

/-- An undisturbed `Create` without a conflict inserts its row. -/
theorem create_inserts
    (quiet : ∀ position, (answers position).fault = none)
    (fresh : db.find (answers 1).oracle.newId = none)
    (hashed : hashPayload platform params.payload = some payloadHash)
    (bound :
      (params.toStoreTask.insertArgs payloadHash).encode platform =
        .ok encoded)
    (unused : encoded.conflicts db = false) :
    (execute platform ⟨.create params.toStoreTask, answers⟩ db).result =
        .created
          (scanInserted params.toStoreTask
            (encoded.record (answers 1).oracle.newId (answers 0).clock))
          (.ok true) ∧
      (execute platform ⟨.create params.toStoreTask, answers⟩
          db).link.db =
        (postgres platform).applyAll
          [.insertTask
            (encoded.record (answers 1).oracle.newId (answers 0).clock)]
          db := by
  have payload :
      hashPayload platform params.toStoreTask.payload =
        some payloadHash := hashed
  have evaluated :
      (postgres platform).eval (answers 0).clock (answers 1).others
          (answers 1).oracle
          (.insertTask (params.toStoreTask.insertArgs payloadHash)) db =
        .ok
          { reply :=
              some (encoded.record (answers 1).oracle.newId (answers 0).clock)
            writes :=
              [.insertTask
                (encoded.record (answers 1).oracle.newId (answers 0).clock)]
            locks :=
              reserved (answers 1).oracle.newId encoded.type
                encoded.idempotencyKey } := by
    change evalInsert platform _ _ _ _ = _
    simp [evalInsert, bound, Except.bind, unused, fresh]
  simp only [execute, Call.program, Store.create, openTx, createTx,
    insertTask, payload, Engine.run, beginTx, quiet, Engine.execTx,
    Engine.runStmt, Engine.applyAll_nil, evaluated, commitTx,
    Engine.commitTx, Outcome.after, Bool.false_eq_true, if_false]
  exact ⟨True.intro, rfl⟩

/-- An admissible insertion succeeds or meets an idempotency conflict. -/
theorem create_undisturbed
    (quiet : ∀ position, (answers position).fault = none)
    (fresh : db.find (answers 1).oracle.newId = none)
    (hashed : hashPayload platform params.payload = some payloadHash)
    (valid : Validated params)
    (bound :
      (params.toStoreTask.insertArgs payloadHash).encode platform =
        .ok encoded) :
    Undisturbed
      (execute platform ⟨.create params.toStoreTask, answers⟩
        db).result = true := by
  cases conflict : encoded.conflicts db with
  | true =>
      rcases Holds.of_conflicts valid.fits bound conflict with ⟨row, holds⟩
      have payload :
          hashPayload platform params.toStoreTask.payload =
            some payloadHash := hashed
      have accepted :
          ∀ hash,
            hashPayload platform params.toStoreTask.payload = some hash →
              ∃ encoded,
                (params.toStoreTask.insertArgs hash).encode platform =
                  .ok encoded := by
        intro hash same
        rw [payload] at same
        cases same
        exact ⟨encoded, bound⟩
      rw [execute_create_held quiet holds valid.fits accepted, payload]
      dsimp only
      split_ifs <;> rfl
  | false =>
      rw [(create_inserts quiet fresh hashed bound conflict).1]
      rfl

/--
Accepted parameters whose payload can be hashed satisfy the constraints of
`tasks` exactly if the type and the key are valid text, `JSONB` can represent
the payload and the time is a timestamp.  In the same case, and in no other,
an undisturbed `Create` succeeds or reports an idempotency conflict.
-/
theorem accepted_insert_fits_schema_iff_admissible
    {platform : Platform} (documented : platform.Documented)
    {params : InsertParams} {now : Time} {payloadHash : GoString}
    (accepted : (params.normalize now).validate now = .ok ())
    (hashed :
      hashPayload platform (params.normalize now).payload =
        some payloadHash) :
    (FitsSchema platform (params.normalize now) payloadHash ↔
        Admissible (params.normalize now)) ∧
      ∀ (answers : Answers) (db : Database),
        (∀ position, (answers position).fault = none) →
          db.find (answers 1).oracle.newId = none →
            (Undisturbed
                (execute platform
                  ⟨.create (params.normalize now).toStoreTask, answers⟩
                  db).result = true ↔
              Admissible (params.normalize now)) := by
  have valid := validated_of_validate accepted
  have fits := valid.fitsSchema_iff documented hashed
  refine ⟨fits, ?_⟩
  intro answers db quiet fresh
  rw [← fits]
  constructor
  · intro undisturbed
    cases bound :
        ((params.normalize now).toStoreTask.insertArgs
          payloadHash).encode platform with
    | ok encoded => exact ⟨encoded, bound⟩
    | error fault =>
        have server := valid.serverSide payloadHash fault bound
        have disturbed :
            Undisturbed
              (execute platform
                ⟨.create (params.normalize now).toStoreTask, answers⟩
                db).result = false :=
          create_refused quiet hashed server bound
        rw [undisturbed] at disturbed
        cases disturbed
  · rintro ⟨encoded, bound⟩
    exact create_undisturbed quiet fresh hashed valid bound

/-- A task type that consists of a NUL byte. -/
def nulType : InsertParams :=
  { type := [0] }

/-- The type is accepted, but no column can store it. -/
theorem nulType_accepted_and_refused :
    (nulType.normalize 0).validate 0 = .ok () ∧
      (hashPayload plainPlatform (nulType.normalize 0).payload).isSome =
        true ∧
      ∀ payloadHash,
        ¬ FitsSchema plainPlatform (nulType.normalize 0) payloadHash := by
  refine ⟨by decide +kernel, by decide +kernel, ?_⟩
  rintro payloadHash ⟨encoded, bound⟩
  cases bound

theorem plainType_fits_schema :
    FitsSchema plainPlatform
      (({ type := ascii "email" } : InsertParams).normalize 0)
      (ascii "\x7b\x7d") := by
  have accepted :
      (({ type := ascii "email" } : InsertParams).normalize 0).validate
        0 = .ok () := by
    decide +kernel
  have hashed :
      hashPayload plainPlatform
          (({ type := ascii "email" } : InsertParams).normalize
            0).payload = some (ascii "\x7b\x7d") := by
    decide +kernel
  apply (accepted_insert_fits_schema_iff_admissible
    plainPlatform_documented accepted hashed).1.mpr
  constructor
  · decide +kernel
  · intro key absent
    cases absent
  · decide +kernel
  · decide +kernel

end Executions

end Dhara
