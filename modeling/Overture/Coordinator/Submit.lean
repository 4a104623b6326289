import Overture.Coordinator.Store
import Overture.Coordinator.Policy

/-!
# Submitting a task

The calls of the coordinator and what they ask of the world outside the two tables: the
runtime registry, the runtimes, the key store, the policy tables. Every answer is free.
`Submit` and `SubmitDemoSimulatedFailure` follow.
-/

namespace Overture

open Interleave

structure RuntimeInfo where
  (runtimeID endpoint : Text)

structure TaskSubmitRequest where
  taskID : Uuid
  (tenantID taskDefinition idempotencyKey : Text)
  deadlineAt : Option Nat
  preferredRuntimeID : Text
  boundAction : Option BoundActionRunIdentity

/-- A definition after normalisation, with its sensitive inputs replaced by references. -/
structure PreparedDefinition where
  (normalizedDefinition protectedDefinition : Text)
  inputRefs : Nat
  agentID : Text
  requiredCapabilities : List Text

structure TaskSubmitResult where
  checkpoint : Option CheckpointPayload
  (executionEnvelope executionReceipt : Text)
  stepReceipts : Nat
  (statusName statusReason failureReason : Text)
  failureDetails : Option TaskFailureDetails

inductive DispatchReply where
  | unreachable
  | serverError
  | rejected (reason : Text) (details : Option TaskFailureDetails)
  | undecodable
  | result (r : TaskSubmitResult)

structure RuntimeCallback where
  taskID : Uuid
  (tenantID runtimeID headerRuntimeID : Text)

inductive Ask where
  | newUuid
  | prepare (req : TaskSubmitRequest) (taskID : Uuid)
  | selectRuntime (tenantID preferredRuntimeID : Text)
  | boundActionRun (tenantID idempotencyKey : Text)
  | savePolicyDecision (recovery : Bool) (decision : ActionPolicyDecision)
  | buildPermissionEnvelope (taskID : Uuid)
  | hydratePermissionEnvelope (taskID : Uuid)
  | rehydrateInputs (taskID : Uuid) (definition : Text)
  | governance (definition : Text)
  | maxRecoveryAttempts
  | endpointRoutable (endpoint : Text)
  | governedDecisions (taskID : Uuid)
  | writeJournalPending (task : TaskRecord)
  | markJournalCommitted (tenantID : Text) (taskID : Uuid)
  | journalHasCommitted (tenantID : Text) (taskID : Uuid)
  | send (task : TaskRecord) (checkpoint : Option CheckpointPayload)
  | receive (taskID : Uuid)
  | verifyArtifacts (taskID : Uuid)
  | verifyStepReceipts (taskID : Uuid)
  | validateCallback (cb : RuntimeCallback)

def Ask.Answer : Ask → Type
  | newUuid => Uuid
  | prepare _ _ => Option PreparedDefinition
  | selectRuntime _ _ => Option RuntimeInfo
  | boundActionRun _ _ => Result BoundActionRunIdentity
  | buildPermissionEnvelope _ | verifyArtifacts _ | verifyStepReceipts _ => Option Text
  | rehydrateInputs _ _ => Except Text Text
  | governance _ => Text × List Text
  | maxRecoveryAttempts => Nat
  | receive _ => DispatchReply
  | writeJournalPending _ | markJournalCommitted _ _ | send _ _ => Unit
  | savePolicyDecision _ _ | hydratePermissionEnvelope _ | endpointRoutable _ | governedDecisions _
  | journalHasCommitted _ _ | validateCallback _ => Bool

def asks : Interface := ⟨Ask, Ask.Answer⟩

inductive CoordCall where
  | submit (req : TaskSubmitRequest)
  | submitDemoSimulatedFailure (req : TaskSubmitRequest) (failureReason : Text)
  | approveTask (taskID : Uuid) (tenantID : Text)
  | rejectTask (taskID : Uuid) (tenantID reason : Text)
  | cancelTask (taskID : Uuid) (tenantID : Text)
  | recoverRuntime (runtimeID : Text)
  | dispatchToRuntime (task : TaskRecord) (checkpoint : Option CheckpointPayload)
  | taskCheckpoint (cb : RuntimeCallback) (cp : CheckpointPayload)
  | taskComplete (cb : RuntimeCallback)
  | taskFailed (cb : RuntimeCallback) (reason : Text) (details : Option TaskFailureDetails)
  | reapExpiredDeadlines

inductive CoordError where
  | invalidSubmission
  | idempotencyConflict
  | idempotencyKeyInUse
  | noHealthyRuntime
  | policyDecisionNotPersisted
  | taskCapabilityDenied (reason : Text)
  | permissionDenied (reason : Text)
  | permissionNotPersisted
  | taskNotAwaitingApproval
  | noRuntimeForApproval
  | inputUnavailable (reason : Text)
  | taskTransitionRejected
  | callbackRejected
  | store (during : String) (e : StoreError)
deriving DecidableEq

abbrev Coord (α : Type) := Call asks CoordCall α

def ask (q : Ask) : Coord q.Answer := run (A := asks) (.ask q)

def savePolicyDecision (recovery : Bool) (decision : ActionPolicyDecision) : Coord Bool :=
  ask (.savePolicyDecision recovery decision)

def getTaskBy (q : TaskQuery) : Coord (Result TaskRecord) := do
  match ← run (.select q) with
  | none => return .error (.database "")
  | some [] => return .error .noRows
  | some (r :: _) => return .ok { r with lastCheckpoint := r.lastCheckpoint.bind (unmarshalCheckpoint 0) }

def newTaskID (req : TaskSubmitRequest) : Coord Uuid :=
  if req.taskID == Uuid.nil then ask .newUuid else return req.taskID

variable (req : TaskSubmitRequest)

def submissionKey (taskID : Uuid) : Text :=
  if req.idempotencyKey.isEmpty then taskID.toText else req.idempotencyKey

def submittedTask (taskID : Uuid) (prepared : PreparedDefinition) : NewTask where
  taskID := taskID
  tenantID := req.tenantID
  taskDefinition := prepared.protectedDefinition
  idempotencyKey := submissionKey req taskID
  deadlineAt := req.deadlineAt
  boundAction := req.boundAction
  inputRefs := prepared.inputRefs

def existingTask (tenantID key : Text) : Coord (Except CoordError TaskRecord) := do
  match ← getTaskBy (.byIdempotencyKey tenantID key) with
  | .ok existing => return .ok existing
  | .error .noRows => return .error .idempotencyKeyInUse
  | .error e => return .error (.store "lookup idempotent task" e)

/-- Marks the task failed, whatever comes of it, and returns the error. Where the message would be that of the
driver it is left empty. -/
def failSubmission (taskID : Uuid) (reason : Text) (operation rejectionType : String) (message : Text)
    (e : CoordError) : Coord (Except CoordError TaskRecord) := do
  let _ ← markFailedWithDetails taskID reason (some (overtureTaskFailureDetails operation rejectionType message))
  return .error e

def submissionPolicy (taskID : Uuid) (prepared : PreparedDefinition)
    (runtime : RuntimeInfo) : ActionPolicyDecision :=
  evaluateActionPolicy {
    tenantID := req.tenantID
    taskID := taskID
    runtimeID := runtime.runtimeID
    taskDefinition := prepared.protectedDefinition
    agentID := prepared.agentID
    requiredCaps := prepared.requiredCapabilities
    checkpoint := none
    recoveryAttempt := false }

def flagIrreversible (task : TaskRecord) : Coord Unit :=
  if task.hasIrreversibleEffect then do
    let _ ← run (.update (.flagIrreversible task.taskID))
    return ()
  else return ()

def launchSubmitted (task : TaskRecord) (prepared : PreparedDefinition) : Coord (Except CoordError TaskRecord) := do
  let _ ← writeAux .dispatchQueue
  flagIrreversible task
  match ← ask (.buildPermissionEnvelope task.taskID) with
  | some message =>
    failSubmission task.taskID "task capability policy denied" "submit" "capability_policy_denied" message
      (.permissionDenied message)
  | none =>
    if ← writeAux .permissionEnvelopes then
      Prog.spawn (.dispatchToRuntime { task with taskDefinition := prepared.normalizedDefinition } none)
      return .ok task
    else
      failSubmission task.taskID "task permission audit persistence failed" "submit"
        "permission_audit_persistence_failed" [] .permissionNotPersisted

def dispatchSubmitted (task : TaskRecord) (prepared : PreparedDefinition) (runtime : RuntimeInfo) :
    Coord (Except CoordError TaskRecord) := do
  match ← markDispatched task.taskID runtime.runtimeID runtime.endpoint with
  | .error e => return .error (.store "mark dispatched" e)
  | .ok () =>
    launchSubmitted {
      task with
      status := .dispatched
      runtimeID := some runtime.runtimeID
      runtimeEndpoint := some runtime.endpoint
      hasIrreversibleEffect := taskHasIrreversibleAction prepared.normalizedDefinition } prepared

def startSubmitted (taskID : Uuid) (prepared : PreparedDefinition) :
    Coord (Except CoordError TaskRecord) := do
  let task : TaskRecord := (submittedTask req taskID prepared).toTaskColumns.row
  match ← ask (.selectRuntime req.tenantID req.preferredRuntimeID) with
  | none =>
    failSubmission taskID "no healthy runtime available" "submit" "no_runtime_available"
      "no healthy runtime available" .noHealthyRuntime
  | some runtime =>
    let decision := submissionPolicy req taskID prepared runtime
    if ← savePolicyDecision false decision then
      let _ ← writeAux .latestPolicyDecision
      let _ ← writeAux .executionBoundaries
      match decision.decision with
      | .denied =>
        failSubmission taskID decision.policyReason "submit" "action_policy_denied" decision.policyReason
          (.taskCapabilityDenied decision.policyReason)
      | .approvalRequired =>
        let _ ← writeAux .approvalRequests
        match ← markApprovalRequired taskID decision.policyReason with
        | .error e => return .error (.store "mark approval required" e)
        | .ok () => return .ok { task with status := .approvalRequired, runtimeID := some runtime.runtimeID }
      | .allowed => dispatchSubmitted task prepared runtime
    else
      failSubmission taskID "action policy decision persistence failed" "submit"
        "policy_decision_persistence_failed" [] .policyDecisionNotPersisted

def repeatedSubmission (key : Text) : Coord (Except CoordError TaskRecord) := do
  match req.boundAction with
  | none => existingTask req.tenantID key
  | some bound =>
    match ← ask (.boundActionRun req.tenantID key) with
    | .error .noRows => return .error .idempotencyConflict
    | .error e => return .error (.store "lookup contract-bound idempotency" e)
    | .ok existing =>
      if existing.requestFingerprint == bound.requestFingerprint then existingTask req.tenantID key
      else return .error .idempotencyConflict

def submit (req : TaskSubmitRequest) : Coord (Except CoordError TaskRecord) := do
  let taskID ← newTaskID req
  match ← ask (.prepare req taskID) with
  | none => return .error .invalidSubmission
  | some prepared =>
    match ← createTaskWithExecutionInputRefs (submittedTask req taskID prepared) with
    | .error e => return .error (.store "create task record" e)
    | .ok false => repeatedSubmission req (submissionKey req taskID)
    | .ok true => startSubmitted req taskID prepared

def submitDemoSimulatedFailure (failureReason : Text) :
    Coord (Except CoordError TaskRecord) := do
  let taskID ← newTaskID req
  match ← ask (.prepare req taskID) with
  | none => return .error .invalidSubmission
  | some prepared =>
    match ← createTaskWithExecutionInputRefs (submittedTask req taskID prepared) with
    | .error e => return .error (.store "create task record" e)
    | .ok false => existingTask req.tenantID (submissionKey req taskID)
    | .ok true =>
      let trimmed := Text.trimSpace failureReason
      let reason := if trimmed.isEmpty then "demo simulated failure".toList else trimmed
      match ← markFailedWithDetails taskID reason
        (some (overtureTaskFailureDetails "submit" "demo_simulated_failure" reason)) with
      | .error e => return .error (.store "mark demo failure" e)
      | .ok () =>
        let task : TaskRecord := (submittedTask req taskID prepared).toTaskColumns.row
        return .ok { task with status := .failed, failureReason := some reason }

end Overture
