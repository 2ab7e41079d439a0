import Dhara.Types

/-!
# The client

`Client` validates the parameters of an insertion, hands them to the store,
and translates the rows of the store into tasks.
-/

namespace Dhara

open Dhara.Store

/-- The errors of a client. -/
inductive ClientError where
  | validation (message : String)
  | marshalPayload
  | store (error : StoreError)
deriving DecidableEq

/-- The result of an insertion, from what the store returns. -/
def enqueueResult (task : TaskRow) :
    Except StoreError Bool → Except ClientError EnqueueResult
  | .error error => .error (.store error)
  | .ok created => .ok { task := newTask task, duplicate := !created }

section Client

variable (platform : Platform) {Result : Type}

/-- `InsertTx` in the transaction of the caller. -/
def insertTx (now : Time) (params : InsertParams)
    (next : Except ClientError EnqueueResult → StoreProgram Result) :
    StoreProgram Result :=
  match (params.normalize now).validate now with
  | .error message => next (.error (.validation message))
  | .ok () =>
      createTx platform (params.normalize now).toStoreTask
        fun task result => next (enqueueResult task result)

/--
`buildInsertParams`.  A payload is nil, or it has an encoding, or
`json.Marshal` rejects it.
-/
def buildInsertParams (taskType : GoString)
    (payload : Option (Option GoString))
    (options : List EnqueueOption) : Except ClientError InsertParams :=
  match payload with
  | some none => .error .marshalPayload
  | some (some raw) =>
      .ok
        (options.foldl (fun params option => option params)
          { type := taskType, payload := some raw })
  | none =>
      .ok
        (options.foldl (fun params option => option params)
          { type := taskType })

/-- `EnqueueTx` in the transaction of the caller. -/
def enqueueTx (now : Time) (taskType : GoString)
    (payload : Option (Option GoString)) (options : List EnqueueOption)
    (next : Except ClientError EnqueueResult → StoreProgram Result) :
    StoreProgram Result :=
  match buildInsertParams taskType payload options with
  | .error error => next (.error error)
  | .ok params => insertTx platform now params next

end Client

/-- `CancelTask`, from what `Cancel` returns. -/
def cancelTask (result : Except StoreError TaskRow) :
    Except ClientError Task :=
  match result with
  | .error error => .error (.store error)
  | .ok task => .ok (newTask task)

/-- `RetryTask`, from what `RetryDead` returns. -/
def retryTask : Except StoreError TaskRow → Except ClientError Task
  | .error error => .error (.store error)
  | .ok task => .ok (newTask task)

end Dhara
