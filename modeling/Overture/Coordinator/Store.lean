import Overture.Coordinator.Database
import Overture.Coordinator.WalCodec

/-!
# The checkpoint store

The calls of `CheckpointStore` that write task records, as programs over the statements. A
deferred rollback is written out at each return it takes effect at; after a commit it does
nothing.
-/

namespace Overture

open Interleave

/-- `database` is an error of the driver, with the words put before it if there are any. -/
inductive StoreError where
  | transitionRejected
  | noRows
  | incompleteBoundAction
  | marshal (what : String)
  | database (during : String)
deriving DecidableEq

abbrev Result (α : Type) := Except StoreError α

abbrev Call (A : Interface) (L : Type) := Prog (sql A) L

variable {A : Interface} {L : Type}

def run (o : Op A) : Call A L o.Res := Prog.perform (I := sql A) o

def beginTx : Call A L Bool := run .begin

def commitTx : Call A L Bool := run .commit

def writeAux (table : AuxTable) : Call A L Bool := run (.write table)

def txWriteAux (table : AuxTable) : Call A L Bool := run (.txWrite table)

def rollbackWith {α : Type} (e : StoreError) : Call A L (Result α) := do
  run .rollback
  return .error e

def taskTransitionResult : Option (List TaskRow) → Result Unit
  | none => .error (.database "")
  | some [] => .error .transitionRejected
  | some (_ :: _) => .ok ()

def transition (u : TaskUpdate) : Call A L (Result Unit) := do
  let result ← run (.update u)
  return taskTransitionResult result

structure BoundActionRunIdentity where
  bindingID : Uuid
  contractHash : Text
  targetActionID : Uuid
  (targetVersionHash businessIdempotencyKey requestFingerprint : Text)

/-- A task to be created; `inputRefs` counts its encrypted inputs. -/
structure NewTask extends TaskColumns where
  boundAction : Option BoundActionRunIdentity
  inputRefs : Nat

def NewTask.columns (task : NewTask) (defBytes : Text) : TaskColumns :=
  { task.toTaskColumns with taskDefinition := defBytes }

/-- `json.Marshal` of a raw message. It also takes out white space and escapes a few characters, which the
column does not keep apart. -/
def marshalRaw (raw : Text) : Option Text := (Json.parse raw).map Json.Value.print

def BoundActionRunIdentity.complete (bound : BoundActionRunIdentity) : Bool :=
  bound.bindingID != Uuid.nil && bound.targetActionID != Uuid.nil &&
    !(Text.trimSpace bound.contractHash).isEmpty && !(Text.trimSpace bound.targetVersionHash).isEmpty &&
    !(Text.trimSpace bound.businessIdempotencyKey).isEmpty && !(Text.trimSpace bound.requestFingerprint).isEmpty

def insertBoundActionRun (task : NewTask) : Call A L (Result Unit) :=
  match task.boundAction with
  | none => return .ok ()
  | some bound =>
    if bound.complete then do
      let ok ← txWriteAux .boundActionRuns
      return if ok then .ok () else .error (.database "")
    else return .error .incompleteBoundAction

def insertExecutionInputRefs : Nat → Call A L Bool
  | 0 => return true
  | n + 1 => do
    if ← txWriteAux (.executionInputRefs (2 * n)) then
      if ← txWriteAux (.executionInputRefs (2 * n + 1)) then insertExecutionInputRefs n else return false
    else return false

def createTaskTx (task : NewTask) (defBytes : Text) : Call A L (Result Bool) := do
  if ← beginTx then
    match ← run (.txInsertTask (task.columns defBytes)) with
    | none => rollbackWith (.database "")
    | some false =>
      if ← commitTx then return .ok false else return .error (.database "")
    | some true =>
      if ← insertExecutionInputRefs task.inputRefs then
        match ← insertBoundActionRun task with
        | .error e => rollbackWith e
        | .ok () => if ← commitTx then return .ok true else return .error (.database "")
      else rollbackWith (.database "")
  else return .error (.database "")

def createTask (task : NewTask) : Call A L (Result Bool) :=
  match marshalRaw task.taskDefinition with
  | none => return .error (.marshal "task definition")
  | some defBytes =>
    if task.boundAction.isSome then createTaskTx { task with inputRefs := 0 } defBytes
    else do
      match ← run (.insertTask (task.columns defBytes)) with
      | none => return .error (.database "")
      | some inserted => return .ok inserted

def createTaskWithExecutionInputRefs (task : NewTask) : Call A L (Result Bool) :=
  if task.inputRefs = 0 then createTask task
  else
    match marshalRaw task.taskDefinition with
    | none => return .error (.marshal "task definition")
    | some defBytes => createTaskTx task defBytes

def markDispatched (taskID : Uuid) (runtimeID runtimeEndpoint : Text) : Call A L (Result Unit) :=
  transition (.markDispatched taskID runtimeID runtimeEndpoint)

def saveCheckpointTx (cp : CheckpointPayload) (cpBytes : Text) : Call A L (Result Unit) := do
  if ← beginTx then
    match ← run (.txLockCheckpoint cp.taskID) with
    | none => rollbackWith (.database "load current checkpoint")
    | some none => rollbackWith .transitionRejected
    | some (some current) =>
      match current.bind decodeCheckpointPayload with
      | some currentCheckpoint =>
        if taskCheckpointAdvances (some currentCheckpoint) (some cp) then storeCheckpoint
        else rollbackWith .transitionRejected
      | none => storeCheckpoint
  else return .error (.database "")
where
  storeCheckpoint : Call A L (Result Unit) := do
    match ← run (.txUpdate (.saveCheckpoint cp.taskID cpBytes)) with
    | none => rollbackWith (.database "update task record")
    | some [] => rollbackWith .transitionRejected
    | some (_ :: _) =>
      match ← run (.txInsertWal cp.taskID cp.watermark.toNat cpBytes) with
      | none => rollbackWith (.database "insert checkpoint")
      | some () => if ← commitTx then return .ok () else return .error (.database "")

def saveCheckpoint (cp : CheckpointPayload) : Call A L (Result Unit) :=
  if !taskCheckpointWatermarkConsistent (some cp) then return .error .transitionRejected
  else if !taskCheckpointEntriesBelongToTask (some cp) then return .error .transitionRejected
  else if !taskCheckpointEntriesHaveStableIDs (some cp) then return .error .transitionRejected
  else
    match marshalCheckpoint cp with
    | none => return .error (.marshal "checkpoint")
    | some cpBytes => saveCheckpointTx cp cpBytes

def markCompleted (taskID : Uuid) : Call A L (Result Unit) := transition (.markCompleted taskID)

def isTypedReconciliationFailure : Option TaskFailureDetails → Bool
  | none => false
  | some d =>
    d.reconciliationRequired && d.effectState == "unknown_effect_state" &&
      d.targetErrorCode == "idempotency_unresolved" && 400 ≤ d.statusCode && d.statusCode ≤ 599 &&
      byteLength d.targetResponseDigest == 64 && 1 ≤ byteLength (Text.trimSpace d.targetHost) &&
      byteLength (Text.trimSpace d.targetHost) ≤ 253 &&
      (Hex.decode d.targetResponseDigest).any fun decoded => decoded.length == 32

def markFailedRecord (taskID : Uuid) (reason : Text) (details : Option TaskFailureDetails) : Call A L (Result Unit) :=
  transition (.markFailed taskID reason details)

def ensureTaskFailedRecord (taskID : Uuid) (reason : Text) (details : Option TaskFailureDetails) :
    Call A L (Result Unit) := do
  match ← markFailedRecord taskID reason details with
  | .error .transitionRejected =>
    match ← run (.select (.byTaskID taskID)) with
    | some (r :: _) => return if r.status == .failed then .ok () else .error .transitionRejected
    | _ => return .error .transitionRejected
  | result => return result

def markFailedWithDetails (taskID : Uuid) (reason : Text) (details : Option TaskFailureDetails) :
    Call A L (Result Unit) :=
  if isTypedReconciliationFailure details then do
    if ← beginTx then
      match taskTransitionResult (← run (.txUpdate (.markFailed taskID reason details))) with
      | .error e => rollbackWith e
      | .ok () =>
        if ← txWriteAux .reconciliationEvents then
          if ← commitTx then return .ok () else ensureTaskFailedRecord taskID reason details
        else
          -- the table may be missing; the task has to fail all the same
          run .rollback
          markFailedRecord taskID reason details
    else markFailedRecord taskID reason details
  else markFailedRecord taskID reason details

def markFailed (taskID : Uuid) (reason : Text) : Call A L (Result Unit) := markFailedWithDetails taskID reason none

def markCanceled (taskID : Uuid) : Call A L (Result Unit) := transition (.markCanceled taskID)

def markRecovering (runtimeID : Text) : Call A L (Result (List Uuid)) := do
  match ← run (.update (.markRecovering runtimeID)) with
  | none => return .error (.database "")
  | some rows => return .ok (rows.map TaskRecordOf.taskID)

def markApprovalRequired (taskID : Uuid) (reason : Text) : Call A L (Result Unit) :=
  transition (.markApprovalRequired taskID reason)

def markApprovedDispatched (taskID : Uuid) (tenantID runtimeID runtimeEndpoint : Text) : Call A L (Result Unit) :=
  transition (.markApprovedDispatched taskID tenantID runtimeID runtimeEndpoint)

def markApprovalRejected (taskID : Uuid) (tenantID reason : Text) (details : Option TaskFailureDetails) :
    Call A L (Result Unit) :=
  transition (.markApprovalRejected taskID tenantID reason details)

def nullRawJSON (raw : Text) : Option Text := if raw.isEmpty then none else some raw

def saveExecutionArtifacts (taskID : Uuid) (executionEnvelope executionReceipt : Text) : Call A L (Result Unit) := do
  if ← beginTx then
    match ← run (.txUpdate (.saveExecutionArtifacts taskID (nullRawJSON executionEnvelope)
      (nullRawJSON executionReceipt))) with
    | none => rollbackWith (.database "")
    | some _ =>
      if ← txWriteAux .executionAudit then
        if ← commitTx then return .ok () else return .error (.database "")
      else rollbackWith (.database "")
  else return .error (.database "")

def reapEach : List Uuid → Call A L Unit
  | [] => return ()
  | taskID :: rest => do
    -- the source goes on to the next task when an update fails
    let _ ← run (.txUpdate (.reapExpiredDeadline taskID
      (some (overtureTaskFailureDetails "reaper" "deadline_exceeded"
        "task deadline exceeded before completion"))))
    reapEach rest

def reapExpiredDeadlines : Call A L Unit := do
  if ← beginTx then
    match ← run .txLockExpired with
    | none => run .rollback
    | some ids =>
      reapEach ids
      let _ ← commitTx
  else return ()

end Overture
