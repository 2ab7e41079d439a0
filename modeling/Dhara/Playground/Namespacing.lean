import Dhara.Playground.Confidentiality
import Dhara.Store.Idempotency

/-!
# The keys of a session

The idempotency key of a task of the playground begins with its session.  A
session is written as a UUID, which has a fixed length and no colon, so the
text a visitor chooses for the rest of the key cannot imitate another session
or the key of a task without a chosen one.

The store looks up tasks by type and key.  A request of one session therefore
never meets a task of another one, whatever the other sessions do meanwhile.
-/

namespace Dhara.Playground.Http

open Dhara.Environment (trimSpace)
open Dhara.JsonText (hexLetter)
open Dhara.Store Dhara.Transaction

variable {task : TaskRow}

/-! ## Keys -/

@[simp]
theorem length_uuidString (id : TaskId) : (uuidString id).length = 36 := by
  simp [uuidString, hexDigits, ascii]

theorem colon_not_mem_uuidString (id : TaskId) : 58 ∉ uuidString id := by
  have digits : ∀ digit < 16, hexLetter digit ≠ 58 := by
    decide
  intro member
  rcases mem_uuidString member with dash | ⟨digit, small, equal⟩
  · cases dash
  · exact digits digit small equal

section Keys

variable {runtime : Runtime} {session other : TaskId}

/-- A key determines its session and the rest of the key. -/
theorem sessionKey_inj {suffix suffix' : GoString} :
    sessionKey (uuidString session) suffix =
        sessionKey (uuidString other) suffix' ↔
      uuidString session = uuidString other ∧ suffix = suffix' := by
  constructor
  · intro equal
    simp only [sessionKey, List.append_assoc, List.append_cancel_left_eq]
      at equal
    rcases List.append_inj equal (by simp) with ⟨same, rest⟩
    exact ⟨same, List.append_cancel_left rest⟩
  · rintro ⟨same, rest⟩
    rw [same, rest]

/-- A key belongs to the session it was built for, and to no other one. -/
theorem keyBelongsToSession_sessionKey (suffix : GoString) :
    keyBelongsToSession
        (some (sessionKey (uuidString session) suffix))
        (uuidString other) = true ↔
      uuidString session = uuidString other := by
  simp only [keyBelongsToSession, uuidString_ne_nil, ne_eq,
    not_false_eq_true, true_and, decide_eq_true_eq]
  constructor
  · rintro ⟨rest, equal⟩
    change sessionKey (uuidString other) rest = _ at equal
    exact (sessionKey_inj.mp equal).1.symm
  · intro same
    rw [← same]
    exact List.prefix_append _ _

theorem customKey_eq_ok {key full : GoString}
    (accepted : customKey (uuidString session) key = .ok full) :
    full =
      sessionKey (uuidString session) (ascii "custom:" ++ trimSpace key) := by
  simp only [customKey] at accepted
  split_ifs at accepted
  exact (Except.ok.inj accepted).symm

theorem custom_ne_uuidString (id : TaskId) (key : GoString) :
    ascii "custom:" ++ key ≠ uuidString id := by
  intro equal
  apply colon_not_mem_uuidString id
  rw [← equal]
  simp [ascii]

/-- The key belongs to the session, and to no other one. -/
def NamesOnly (session : TaskId) (key : Option GoString) : Prop :=
  ∀ other,
    keyBelongsToSession key (uuidString other) = true ↔
      uuidString session = uuidString other

theorem createKey_namesOnly {uuid key : GoString}
    {chosen : Option GoString}
    (accepted : createKey (uuidString session) uuid chosen = .ok key) :
    NamesOnly session (some key) := by
  intro other
  cases chosen with
  | none =>
      cases accepted
      exact keyBelongsToSession_sessionKey uuid
  | some chosen =>
      rw [customKey_eq_ok accepted]
      exact keyBelongsToSession_sessionKey _

end Keys

/-! ## Requests -/

section Requests

variable
    {platform : Platform} {runtime : Runtime} {config : Config}
    {session : TaskId} {input : CreateTaskInput} {now clock : Time}
    {nonce uuid : GoString} {plan : Plan} {position : Nat}
    {params : InsertParams}

/-- The insertion of `CreateTask` has a key of the session. -/
theorem createTask_namesOnly
    (planned :
      createTask runtime config (uuidString session) input now nonce =
        .ok plan)
    (inserts : plan.insertion position clock uuid = .ok params) :
    NamesOnly session params.idempotencyKey := by
  simp only [createTask] at planned
  split at planned
  · cases planned
  · split at planned
    · cases planned
    · split at planned
      · cases planned
      · split at planned
        · cases planned
        · rename_i key accepted
          cases planned
          cases inserts
          exact createKey_namesOnly accepted

/-- The row belongs to the session, and to no other one. -/
def OwnRow (session : TaskId) (row : TaskRecord) : Prop :=
  NamesOnly session (row.idempotencyKey.map Text.bytes)

theorem NamesOnly.ownRow {row : TaskRecord}
    (named : NamesOnly session task.idempotencyKey)
    (requests : task.Requests row) : OwnRow session row := by
  rw [OwnRow, requests.2]
  exact named

/--
A call of `Insert` under a schedule has met only tasks of the session.  The
task it returns has a key of the session; a duplicate, and a task it has
conflicted with, was stored with such a key at some moment.  Without a
database error the returned task is stored with such a key from then on.
-/
structure MeetsOwn (platform : Platform) (session : TaskId)
    (start : Database) (schedule : List StoreLabel)
    (state : StoreConfig) (caller : StoreSession) (task : TaskRow)
    (result : Except ClientError EnqueueResult) : Prop where
  returned :
    ∀ enqueued, result = .ok enqueued →
      NamesOnly session enqueued.task.idempotencyKey
  stored :
    ∀ enqueued, result = .ok enqueued → caller.faulted = false →
      ∃ row, state.db.Keeps row ∧ row.id = enqueued.task.id ∧
        OwnRow session row
  replayed :
    ∀ enqueued, result = .ok enqueued → enqueued.duplicate = true →
      ∃ db row,
        (postgres platform).Visits (Call.program platform)
            { db := start } schedule db ∧
          row ∈ db.tasks.rows ∧ row.id = enqueued.task.id ∧
          OwnRow session row
  conflicting :
    result = .error (.store .taskConflict) →
      ∃ db row,
        (postgres platform).Visits (Call.program platform)
            { db := start } schedule db ∧
          row ∈ db.tasks.rows ∧ OwnRow session row ∧
          hashPayload platform task.payload ≠ some row.payloadHash

/-- A task of the session meets only tasks of the session. -/
theorem create_meetsOwn
    (fits : task.Fits) (named : NamesOnly session task.idempotencyKey)
    {start : Database} {schedule : List StoreLabel} {state : StoreConfig}
    (followed : interleave platform start schedule = some state) {index : Nat}
    {caller : StoreSession} (found : state.sessions[index]? = some caller)
    (called : caller.call = .create task) {returned : TaskRow}
    {result : Except StoreError Bool}
    (finished : caller.program = some (.done (.created returned result))) :
    MeetsOwn platform session start schedule state caller task
      (enqueueResult returned result) := by
  have obeys :=
    Engine.follow_obeys (createWatch_sound _ task)
      (fun _ visited => visited) (create_obeys _ task) followed found
      called
  have good := obeys.program _ finished
  have promised := (interleave_ok followed).ensures found finished
  rw [called] at promised
  constructor
  · intro enqueued equal
    cases result with
    | error error => cases equal
    | ok created =>
        cases equal
        cases created with
        | true =>
            change NamesOnly session returned.idempotencyKey
            rw [show returned.idempotencyKey = _ from good]
            exact named
        | false =>
            rcases good with ⟨_, row, _, _, requests, equal⟩
            rw [equal]
            exact named.ownRow requests
  · intro enqueued equal quiet
    cases result with
    | error error => cases equal
    | ok created =>
        cases equal
        cases created with
        | true =>
            rcases promised quiet not_false with
              ⟨row, _, enqueues, sameId, keeps⟩
            exact ⟨row, keeps, sameId.symm,
              named.ownRow (create_columns fits enqueues).1⟩
        | false =>
            rcases promised quiet not_false with
              ⟨_, row, keeps, sameId, requests, _⟩
            exact ⟨row, keeps, sameId.symm, named.ownRow requests⟩
  · intro enqueued equal duplicate
    cases result with
    | error error => cases equal
    | ok created =>
        cases equal
        cases created with
        | true => cases duplicate
        | false =>
            rcases good with ⟨db, row, visited, stored, requests, equal⟩
            subst returned
            exact ⟨db, row, visited, stored, rfl, named.ownRow requests⟩
  · intro equal
    cases result with
    | ok created => cases equal
    | error error =>
        cases equal
        rcases good with ⟨db, row, visited, stored, requests, different⟩
        exact ⟨db, row, visited, stored, named.ownRow requests, different⟩

end Requests

/-! ## The namespaces -/

/-- The namespaces of the sessions are exact. -/
structure Namespaced (platform : Platform) (runtime : Runtime) :
    Prop where
  canonical :
    ∀ parsers header session,
      sessionFromRequest parsers header = .ok session →
        ∃ id, session = uuidString id
  custom :
    ∀ session other key key' full full',
      customKey (uuidString session) key = .ok full →
      customKey (uuidString other) key' = .ok full' →
        (full = full' ↔
          uuidString session = uuidString other ∧
            trimSpace key = trimSpace key')
  custom_ne_owned :
    ∀ session other key full nonce,
      customKey (uuidString session) key = .ok full →
        full ≠ ownedKey (uuidString other) (uuidString nonce)
  custom_named :
    ∀ session key full,
      customKey (uuidString session) key = .ok full →
        NamesOnly session (some full)
  owned_named :
    ∀ session nonce,
      NamesOnly session
        (some (ownedKey (uuidString session) (uuidString nonce)))
  selected :
    ∀ session status row,
      recentAccepts (uuidString session) status row =
        (keyBelongsToSession (row.idempotencyKey.map Text.bytes)
            (uuidString session) &&
          decide (status = [] ∨ statusText row.status = status))
  apart :
    ∀ config session input now nonce plan position clock uuid params,
      createTask runtime config (uuidString session) input now
          (uuidString nonce) = .ok plan →
      plan.insertion position clock uuid = .ok params →
      (params.normalize clock).validate clock = .ok () →
      ∀ start schedule state,
        interleave platform start schedule = some state →
        ∀ (index : Nat) caller,
          state.sessions[index]? = some caller →
          caller.call = .create (params.normalize clock).toStoreTask →
          ∀ returned result,
            caller.program =
                some (.done (.created returned result)) →
              MeetsOwn platform session start schedule state caller
                (params.normalize clock).toStoreTask
                (enqueueResult returned result)

/--
Session namespacing is exact, and requests of different sessions never meet.
-/
theorem sessions_namespaced (platform : Platform) (runtime : Runtime) :
    Namespaced platform runtime where
  canonical := by
    intro parsers header session accepted
    simp only [sessionFromRequest] at accepted
    split_ifs at accepted
    split at accepted
    · cases accepted
    · cases accepted
      exact ⟨_, rfl⟩
  custom := by
    intro session other key key' full full' accepted accepted'
    rw [customKey_eq_ok accepted, customKey_eq_ok accepted',
      sessionKey_inj, List.append_cancel_left_eq]
  custom_ne_owned := by
    intro session other key full nonce accepted equal
    rw [customKey_eq_ok accepted, ownedKey] at equal
    exact custom_ne_uuidString _ _ (sessionKey_inj.mp equal).2
  custom_named := by
    intro session key full accepted
    exact createKey_namesOnly
      (show createKey _ [] (some key) = .ok full from accepted)
  owned_named := by
    intro session nonce other
    exact keyBelongsToSession_sessionKey _
  selected := by
    intro session status row
    exact recentAccepts_uuidString session status row
  apart := by
    intro config session input now nonce plan position clock uuid params
      planned inserts valid start schedule state followed index caller
      found called returned result finished
    exact create_meetsOwn (validate_fits valid)
      (createTask_namesOnly planned inserts) followed found called
      finished

/-! ## A run -/

/-- A request with the key `k`. -/
def chosenKey (payload : String) : CreateTaskInput where
  type := typeEcho
  payload := ascii payload
  idempotencyKey := some (ascii "k")

/-- The insertion of this request. -/
def chosenParams (session : TaskId) (payload : String) :
    InsertParams where
  type := typeEcho
  payload := some (ascii payload)
  idempotencyKey := some (sessionKey (uuidString session) (ascii "custom:k"))

/-- The task of this request. -/
def chosenTask (session : TaskId) (payload : String) : TaskRow :=
  ((chosenParams session payload).normalize 0).toStoreTask

/-- Two sessions use one key, and the first one uses it again. -/
def sharedKeySchedule : List StoreLabel :=
  let send (index : Nat) (newId : TaskId) : StoreLabel :=
    .advance index (calm newId 0 0)
  [.spawn (.create (chosenTask 1 "\x7b\x7d")),
    .spawn (.create (chosenTask 2 "\x7b\x7d")),
    .spawn (.create (chosenTask 1 "\x7b\"n\":1\x7d")),
    send 0 7, send 1 8, send 0 7, send 1 8, send 0 7, send 1 8,
    send 0 7, send 1 8, send 2 9, send 2 9, send 2 9]

/-- The call creates this task. -/
def isCreate (task : TaskRow) : Call → Bool
  | .create created => created = task
  | _ => false

theorem isCreate_iff {call : Call} :
    isCreate task call = true ↔ call = .create task := by
  cases call <;> simp [isCreate]

/-- Both sessions get a task, and the first one conflicts with its own. -/
theorem sharedKey_kept_apart :
    ∃ state caller,
      interleave echoPlatform .empty sharedKeySchedule = some state ∧
        state.sessions.map (createOutcome TaskRow.idempotencyKey) =
          [some ((chosenParams 1 "").idempotencyKey, .ok true),
            some ((chosenParams 2 "").idempotencyKey, .ok true),
            some ((chosenParams 1 "").idempotencyKey, .error .taskConflict)] ∧
        state.sessions[2]? = some caller ∧
        MeetsOwn echoPlatform 1 .empty sharedKeySchedule state caller
          (chosenTask 1 "\x7b\"n\":1\x7d")
          (.error (.store .taskConflict)) := by
  have outcome :
      (interleave echoPlatform .empty sharedKeySchedule).any (fun state =>
        decide
            (state.sessions.map (createOutcome TaskRow.idempotencyKey) =
              [some ((chosenParams 1 "").idempotencyKey, .ok true),
                some ((chosenParams 2 "").idempotencyKey, .ok true),
                some ((chosenParams 1 "").idempotencyKey,
                  .error .taskConflict)]) &&
          state.sessions[2]?.any fun caller =>
            isCreate (chosenTask 1 "\x7b\"n\":1\x7d") caller.call) =
        true := by
    decide +kernel
  rcases (Option.any_eq_true _ _).mp outcome with
    ⟨state, followed, checked⟩
  rw [Bool.and_eq_true, decide_eq_true_eq, Option.any_eq_true] at checked
  rcases checked with ⟨outcomes, caller, found, created⟩
  have third := congrArg (fun all => all[2]?) outcomes
  simp only [List.getElem?_map, found, Option.map_some] at third
  rcases createOutcome_eq_some (Option.some.inj third) with
    ⟨returned, finished⟩
  refine ⟨state, caller, followed, outcomes, found, ?_⟩
  exact (sessions_namespaced echoPlatform plainRuntime).apart {} 1
    (chosenKey "\x7b\"n\":1\x7d") 0 9 _ 0 0 []
    (chosenParams 1 "\x7b\"n\":1\x7d") rfl rfl rfl .empty
    sharedKeySchedule state followed 2 caller found
    (isCreate_iff.mp created) returned (.error .taskConflict) finished

end Dhara.Playground.Http
