import Dhara.Client

/-!
# The task handler of the API server
-/

namespace Dhara.Server

open Dhara.Store

/-- The bodies of the replies. -/
inductive Body where
  | error (message : String)
  | rejected (message : String) (status : TaskStatus)
  | task (task : Task)
deriving DecidableEq

/-- A reply of the server. -/
structure HttpReply where
  status : Nat
  body : Body
deriving DecidableEq

/--
`handleDeleteTask`, from the parsed path value and what `CancelTask`
returns.
-/
def handleDeleteTask (id : Option TaskId)
    (canceled : TaskId → Except ClientError Task) : HttpReply :=
  match id with
  | none => ⟨400, .error "invalid task id"⟩
  | some id =>
      match canceled id with
      | .error (.store .taskNotFound) => ⟨404, .error "task not found"⟩
      | .error _ => ⟨500, .error "failed to cancel task"⟩
      | .ok task =>
          match task.status with
          | some .running =>
              ⟨409,
                .rejected
                  "task is currently running and cannot be canceled"
                  .running⟩
          | some .canceled => ⟨200, .task task⟩
          | some .completed => ⟨200, .task task⟩
          | some .dead => ⟨200, .task task⟩
          | _ => ⟨500, .error "unexpected task state"⟩

end Dhara.Server
