import Dhara.Client
import Dhara.Environment.Parsers
import Dhara.JsonText.Decoder
import Dhara.Store.Runs

/-!
# The playground service

The playground enqueues, retries and cancels tasks for the sessions of its
visitors.  The idempotency key of a task names the session it belongs to.
This module has the checks a request passes before it reaches the queue, and
the insertions each kind of request makes.

The functions that depend on the Unicode tables, and the texts of durations,
are a parameter.
-/

namespace Dhara.Playground

open Dhara.Environment (atoi trimSpace)
open Dhara.JsonText (Tree decode)
open Dhara.Store

/-- The functions of `strings`, `strconv` and `time`. -/
structure Runtime where
  toLower : GoString → GoString
  toUpper : GoString → GoString
  quote : GoString → GoString
  duration : Time → GoString

/-- The standard library, on texts that are in the right case. -/
def plainRuntime : Runtime where
  toLower := id
  toUpper := id
  quote := id
  duration := fun _ => []

/-- `Config`, as far as the service reads it. -/
structure Config where
  maxBatch : Int := 50
  maxPayloadBytes : Int := 4096
  maxPending : Int := 500
  retention : Time := 3600000000

/-- The errors of the service. -/
inductive ServiceError where
  | queueFull
  | badRequest (message : GoString)
  | sessionRequired
  | notOwned
  | taskNotFound
  | client (error : ClientError)
  | wrapped (context : String) (fault : Fault)
deriving DecidableEq

/-! ## Sessions -/

def keyPrefix : GoString := ascii "demo:"

def sessionKey (session suffix : GoString) : GoString :=
  keyPrefix ++ session ++ ascii ":" ++ suffix

def keyBelongsToSession (key : Option GoString) (session : GoString) :
    Bool :=
  match key with
  | none => false
  | some key =>
      session ≠ [] ∧ (keyPrefix ++ session ++ ascii ":") <+: key

def ownedKey (session uuid : GoString) : GoString :=
  sessionKey session uuid

def customKey (session key : GoString) : Except GoString GoString :=
  let key := trimSpace key
  if key = [] then
    .error (ascii "idempotency_key must not be empty")
  else
    let full := sessionKey session (ascii "custom:" ++ key)
    if 255 < full.length then
      .error
        (ascii
          ("idempotency_key must be 255 characters or fewer " ++
            "after playground namespacing"))
    else
      .ok full

def requireOwned (taskKey : Option GoString) (session : GoString) :
    Except ServiceError Unit :=
  if keyBelongsToSession taskKey session then .ok ()
  else .error .notOwned

/-! ## Payloads -/

def typeEcho : GoString := ascii "echo"

def typeSendEmail : GoString := ascii "send_email"

def typeAlwaysFail : GoString := ascii "always_fail"

def typeSlowTask : GoString := ascii "slow_task"

def typeRealisticWork : GoString := ascii "realistic_work"

def typeFlaky : GoString := ascii "playground_flaky"

def allowedTaskTypes : List GoString :=
  [typeEcho, typeSendEmail, typeAlwaysFail, typeSlowTask,
    typeRealisticWork, typeFlaky]

def isAllowedType (taskType : GoString) : Bool :=
  allowedTaskTypes.contains taskType

def hour : Time := 60 * minute

/-- A key of an object, as `encoding/json` compares it with a field. -/
def foldName : GoString → GoString
  | [] => []
  | 0xC5 :: 0xBF :: rest => 115 :: foldName rest
  | 0xE2 :: 0x84 :: 0xAA :: rest => 107 :: foldName rest
  | byte :: rest =>
      (if 65 ≤ byte ∧ byte ≤ 90 then byte + 32 else byte) :: foldName rest

/-- What an `UnmarshalTypeError` calls a value. -/
def treeKind : Tree → GoString
  | .null => ascii "null"
  | .bool _ => ascii "bool"
  | .number _ => ascii "number"
  | .string _ => ascii "string"
  | .array _ => ascii "array"
  | .object _ => ascii "object"

/-- The type of a field.  A `null` leaves the field as it is. -/
structure FieldType (Value : Type) where
  name : GoString
  zero : Value
  read : Tree → Except GoString (Option Value)

def stringType : FieldType GoString where
  name := ascii "string"
  zero := []
  read
    | .null => .ok none
    | .string value => .ok (some value)
    | tree => .error (treeKind tree)

def int64Type : FieldType Int where
  name := ascii "int64"
  zero := 0
  read
    | .null => .ok none
    | .number token =>
        match atoi token with
        | none => .error (ascii "number " ++ token)
        | some value => .ok (some value)
    | tree => .error (treeKind tree)

section Unmarshal

variable {Value : Type} (type : FieldType Value) (fields : List String)

/-- One member of an object is stored in the field it names. -/
def storeMember (values : String → Value) (member : GoString × Tree) :
    Except GoString (String → Value) :=
  match fields.find? fun field => foldName member.1 = ascii field with
  | none => .ok values
  | some field =>
      match type.read member.2 with
      | .error kind =>
          .error
            (ascii "json: cannot unmarshal " ++ kind ++
              ascii (" into Go struct field ." ++ field ++ " of type ") ++
              type.name)
      | .ok none => .ok values
      | .ok (some value) =>
          .ok fun name => if name = field then value else values name

/-- `json.Unmarshal` of an object into a struct with fields of one type. -/
def unmarshalFields (raw : GoString) :
    Except GoString (String → Value) :=
  match decode raw with
  | some (.object members) =>
      members.foldlM (storeMember type fields) fun _ => type.zero
  | _ => .ok fun _ => type.zero

end Unmarshal

section Payloads

variable (runtime : Runtime)

/-- The check of `normalizePayload` that depends on the type. -/
def checkFields (taskType raw : GoString) (now : Time) :
    Except GoString Unit :=
  if taskType = typeEcho then
    match unmarshalFields stringType ["message"] raw with
    | .error cause => .error (ascii "invalid echo payload: " ++ cause)
    | .ok values =>
        if 1000 < (values "message").length then
          .error (ascii "echo message must be 1000 characters or fewer")
        else
          .ok ()
  else if taskType = typeSendEmail then
    match unmarshalFields stringType ["to", "subject"] raw with
    | .error cause =>
        .error (ascii "invalid send_email payload: " ++ cause)
    | .ok values =>
        if 320 < (values "to").length ∨
            200 < (values "subject").length then
          .error (ascii "send_email to/subject are too long")
        else
          .ok ()
  else if taskType = typeFlaky then
    match unmarshalFields int64Type ["succeed_at"] raw with
    | .error cause =>
        .error (ascii "invalid playground_flaky payload: " ++ cause)
    | .ok values =>
        if values "succeed_at" ≤ 0 then
          .error
            (ascii
              ("playground_flaky payload requires a positive " ++
                "succeed_at"))
        else if 1000 * values "succeed_at" < now - hour ∨
            now + hour < 1000 * values "succeed_at" then
          .error
            (ascii
              ("playground_flaky succeed_at must be within one hour " ++
                "of now"))
        else
          .ok ()
  else if [typeAlwaysFail, typeSlowTask, typeRealisticWork].contains
      taskType then
    .ok ()
  else
    .error
      (ascii "task type " ++ runtime.quote taskType ++
        ascii " is not allowed")

/-- `normalizePayload`. -/
def normalizePayload (taskType raw : GoString) (now : Time)
    (maxBytes : Int) : Except GoString GoString :=
  let raw := if raw = [] then ascii "\x7b\x7d" else raw
  if maxBytes < raw.length then
    .error
      (ascii "payload must not exceed " ++ itoa maxBytes ++ ascii " bytes")
  else if (decode raw).isNone then
    .error (ascii "payload must be valid JSON")
  else if (trimSpace raw).head? ≠ some 123 then
    .error (ascii "payload must be a JSON object")
  else
    (checkFields runtime taskType raw now).map fun () => raw

end Payloads

/-- `validateCount`. -/
def validateCount (count default limit : Int) : Except GoString Int :=
  if count = 0 then
    .ok default
  else if count < 1 ∨ limit < count then
    .error (ascii "count must be between 1 and " ++ itoa limit)
  else
    .ok count

/-! ## Requests -/

/-- `CreateTaskInput`. -/
structure CreateTaskInput where
  type : GoString
  payload : GoString := []
  idempotencyKey : Option GoString := none
  priority : Option Int := none
  maxRetries : Option Int := none
  runAt : Option Time := none

/-- The requests that change the queue, with the session of the visitor. -/
inductive Request where
  | createTask (session : GoString) (input : CreateTaskInput)
  | enqueueBurst (session : GoString) (size : Int)
  | enqueueFlaky (session : GoString) (count : Int) (mode : GoString)
      (succeedAfterMS : Int)
  | enqueueSlow (session : GoString) (count : Int)
  | retryOwned (session : GoString) (id : TaskId)
  | cancelOwned (session : GoString) (id : TaskId)

/--
The insertions of a request: how many, the name of the scenario, and the
parameters of each one, from the clock and a fresh identifier.
-/
structure Plan where
  count : Nat
  scenario : Option GoString
  insertion : Nat → Time → GoString → Except ServiceError InsertParams

section Plans

variable (runtime : Runtime) (config : Config)

/-- The parameters that the method `insert` of the service builds. -/
def insertion (session taskType payload : GoString) (maxRetries : Int)
    (now : Time) (uuid : GoString) : Except ServiceError InsertParams :=
  match normalizePayload runtime taskType payload now
      config.maxPayloadBytes with
  | .error message => .error (.badRequest message)
  | .ok payload =>
      .ok
        { type := taskType
          payload := some payload
          idempotencyKey := some (ownedKey session uuid)
          priority := some 0
          maxRetries := some maxRetries }

/-- The key of `CreateTask`. -/
def createKey (session : GoString) (uuid : GoString) :
    Option GoString → Except GoString GoString
  | none => .ok (ownedKey session uuid)
  | some key => customKey session key

/-- `CreateTask`, up to the lock. -/
def createTask (session : GoString) (input : CreateTaskInput)
    (now : Time) (uuid : GoString) : Except ServiceError Plan :=
  if !isAllowedType input.type then
    .error
      (.badRequest
        (ascii "task type " ++ runtime.quote input.type ++
          ascii " is not allowed"))
  else
    match normalizePayload runtime input.type input.payload now
        config.maxPayloadBytes with
    | .error message => .error (.badRequest message)
    | .ok payload =>
        if input.runAt.any (now + config.retention < ·) then
          .error
            (.badRequest
              (ascii
                  "run_at must be within the playground retention window (" ++
                runtime.duration config.retention ++ ascii ")"))
        else
          match createKey session uuid input.idempotencyKey with
          | .error message => .error (.badRequest message)
          | .ok key =>
              .ok
                { count := 1
                  scenario := none
                  insertion := fun _ _ _ =>
                    .ok
                      { type := input.type
                        payload := some payload
                        idempotencyKey := some key
                        priority := input.priority
                        maxRetries := input.maxRetries
                        runAt := input.runAt } }

/-- The payload of the burst jobs. -/
def burstPayload (index : Nat) (size : Int) : GoString :=
  ascii "\x7b\"message\":\"burst job " ++ itoa (index + 1 : Nat) ++
    ascii " of " ++ itoa size ++ ascii "\"\x7d"

/-- `EnqueueBurst`, up to the lock. -/
def enqueueBurst (session : GoString) (size : Int) :
    Except ServiceError Plan :=
  match validateCount size 25 config.maxBatch with
  | .error message => .error (.badRequest message)
  | .ok size =>
      .ok
        { count := size.toNat
          scenario := some (ascii "burst")
          insertion := fun index now uuid =>
            insertion runtime config session typeEcho
              (burstPayload index size) defaultMaxRetries now uuid }

/-- One insertion of `EnqueueFlaky`. -/
def flakyInsertion (session mode : GoString) (succeedAfterMS : Int)
    (index : Nat) (now : Time) (uuid : GoString) :
    Except ServiceError InsertParams :=
  if mode = ascii "dead" then
    insertion runtime config session typeAlwaysFail
      (ascii "\x7b\"reason\":\"dead-letter demo " ++
        itoa (index + 1 : Nat) ++ ascii "\"\x7d") 3 now uuid
  else
    insertion runtime config session typeFlaky
      (ascii "\x7b\"succeed_at\":" ++
        itoa ((now + 1000 * succeedAfterMS) / 1000) ++ ascii "\x7d")
      8 now uuid

/-- `EnqueueFlaky`, up to the lock. -/
def enqueueFlaky (session : GoString) (count : Int) (mode : GoString)
    (succeedAfterMS : Int) : Except ServiceError Plan :=
  match validateCount count 3 10 with
  | .error message => .error (.badRequest message)
  | .ok count =>
      let trimmed := runtime.toLower (trimSpace mode)
      let mode := if trimmed = [] then ascii "recover" else trimmed
      let succeedAfter :=
        if succeedAfterMS = 0 then 6000 else succeedAfterMS
      if mode ≠ ascii "recover" ∧ mode ≠ ascii "dead" then
        .error (.badRequest (ascii "mode must be 'recover' or 'dead'"))
      else if succeedAfter < 1000 ∨ 30000 < succeedAfter then
        .error
          (.badRequest
            (ascii "succeed_after_ms must be between 1000 and 30000"))
      else
        .ok
          { count := count.toNat
            scenario := some (ascii "flaky")
            insertion :=
              flakyInsertion runtime config session mode succeedAfter }

/-- `EnqueueSlow`, up to the lock. -/
def enqueueSlow (session : GoString) (count : Int) :
    Except ServiceError Plan :=
  match validateCount count 1 3 with
  | .error message => .error (.badRequest message)
  | .ok count =>
      .ok
        { count := count.toNat
          scenario := some (ascii "slow")
          insertion := fun index now uuid =>
            insertion runtime config session typeSlowTask
              (ascii "\x7b\"reason\":\"handler timeout demo " ++
                itoa (index + 1 : Nat) ++ ascii "\"\x7d") 2 now uuid }

end Plans

end Dhara.Playground
