import Overture.Coordinator.Checkpoint

/-!
# Task records

The durable state of a task. A row of the table `task_records` and the record the store
returns for it have the same columns; they differ in the last checkpoint, which is JSON in
the table and decoded in the record.
-/

namespace Overture

inductive TaskStatus where
  | pending
  | dispatched
  | checkpointed
  | completed
  | failed
  | recovering
  | canceled
  | approvalRequired
deriving DecidableEq, Repr

namespace TaskStatus

def Terminal (s : TaskStatus) : Prop := s = completed ∨ s = failed ∨ s = canceled

instance (s : TaskStatus) : Decidable s.Terminal := inferInstanceAs (Decidable (_ ∨ _))

end TaskStatus

def byteLength (t : Text) : Nat := (t.map Char.utf8Size).sum

structure TaskFailureDetails where
  source : Text := []
  operation : Text := []
  statusCode : Nat := 0
  rejectionType : Text := []
  message : Text := []
  effectState : Text := []
  reconciliationRequired : Bool := false
  targetErrorCode : Text := []
  targetHost : Text := []
  targetResponseDigest : Text := []
deriving DecidableEq

def overtureTaskFailureDetails (operation rejectionType : String) (message : Text) : TaskFailureDetails where
  source := "overture"
  operation := operation.toList
  rejectionType := rejectionType.toList
  message := message

/-- Times are counted from some epoch; a nullable column is optional. -/
structure TaskRecordOf (γ : Type) where
  taskID : Uuid
  tenantID : Text
  status : TaskStatus
  (runtimeID runtimeEndpoint : Option Text)
  taskDefinition : Text
  lastCheckpoint : Option γ
  (executionEnvelope executionReceipt : Option Text)
  idempotencyKey : Text
  failureReason : Option Text
  failureDetails : Option TaskFailureDetails
  (deadlineAt dispatchedAt completedAt canceledAt : Option Nat)
  attemptCount : Nat
  hasIrreversibleEffect : Bool

abbrev TaskRow := TaskRecordOf Text

abbrev TaskRecord := TaskRecordOf CheckpointPayload

def taskAllowsRuntimeMutation : TaskStatus → Bool
  | .dispatched | .checkpointed | .recovering => true
  | _ => false

def taskAllowsDispatch : TaskStatus → Bool
  | .pending | .recovering => true
  | _ => false

def taskAllowsRecoveryRedispatch (status : TaskStatus) : Bool := status == .recovering

def taskAllowsCancellation : TaskStatus → Bool
  | .pending | .dispatched | .checkpointed | .recovering => true
  | _ => false

def taskAwaitingApproval (status : TaskStatus) : Bool := status == .approvalRequired

end Overture
