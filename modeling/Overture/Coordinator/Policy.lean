import Overture.Lib.Json.Decode
import Overture.Lib.Sha256
import Overture.Coordinator.Record

/-!
# The action policy

How a task definition is classified before it is dispatched or handed to another runtime.
A definition is JSON text; parts of the classification walk its graph, others look for a
substring of the lower-cased text.
-/

namespace Overture

open Json

inductive ActionDecision where
  | allowed
  | denied
  | approvalRequired
deriving DecidableEq, Repr

inductive ReplayClass where
  | retryable
  | nonRetryable
deriving DecidableEq, Repr

inductive CheckpointPortability where
  | sameRuntimeOnly
  | compatibleRuntime
  | anyRuntime
deriving DecidableEq, Repr

def graphNodes {σ : Type} (zero : σ) (node : Decoder σ) : Decoder (Slice σ) :=
  Decoder.struct [StructField.of "graph" id (fun _ x => x)
    (Decoder.struct [StructField.of "nodes" id (fun _ x => x) (Decoder.slice zero node)])]

def rawNodes (definition : Text) : Option (List Value) :=
  let out := unmarshal (graphNodes none Decoder.raw) definition Slice.empty
  if out.2 then some (out.1.toList.filterMap id) else none

def rawMembers (v : Value) : Option (Option (List (Text × Option Value))) :=
  let out := Decoder.map none Decoder.raw v none
  if out.2 then some out.1 else none

def nodeEffectClass (raw : Value) : Text :=
  match rawMembers raw with
  | none => []
  | some node =>
    match lookup node "effect_class" with
    | some (some v) =>
      let ec := Decoder.text v []
      if ec.2 then Text.toLower (Text.trimSpace ec.1) else []
    | _ => []

def containsIrreversibleActionToken (lower : Text) : Bool :=
  lower.contains "\"irreversible\":true" || lower.contains "\"db_write\"" ||
    lower.contains "\"database_write\"" || lower.contains "\"publish_velocity\"" ||
    lower.contains "\"navigate_to_pose\""

def nodeIrreversible (node : Value) : Bool :=
  let ec := nodeEffectClass node
  ec == "irreversible" || (ec.isEmpty && containsIrreversibleActionToken (Text.toLower node.print))

def taskHasIrreversibleAction (definition : Text) : Bool :=
  match rawNodes definition with
  | some (node :: rest) => (node :: rest).any nodeIrreversible
  | _ => containsIrreversibleActionToken (Text.toLower definition)

def irreversibleStepIndexes (definition : Text) : List Nat :=
  match rawNodes definition with
  | some nodes => (nodes.zipIdx.filter fun n => nodeIrreversible n.1).map Prod.snd
  | none => []

def recoveryForwardResumeSafe (taskID : Uuid) (definition : Text) (cp : Option CheckpointPayload) : Bool :=
  if !taskHasIrreversibleAction definition then true
  else
    match cp with
    | none => false
    | some p =>
      if !taskRecoveryCheckpointUsable taskID cp then false
      else
        let indexes := irreversibleStepIndexes definition
        if indexes.isEmpty then false
        else indexes.all fun idx => !(idx ≤ p.watermark.toNat)

def metadataField {σ : Type} (zero : σ) (d : Decoder σ) :
    Decoder (Option (List (Text × σ))) :=
  Decoder.struct [StructField.of "metadata" id (fun _ x => x) (Decoder.map zero d)]

def nodeMetadata {σ : Type} (zero : σ) (d : Decoder σ) (definition : Text) :
    Option (List (Option (List (Text × σ)))) :=
  let out := unmarshal (graphNodes none (metadataField zero d)) definition Slice.empty
  if out.2 then some out.1.toList else none

def taskRequiresHumanApproval (definition : Text) : Bool :=
  let lower := Text.toLower definition
  if lower.contains "\"approval\"" &&
      (lower.contains "\"required\":true" || lower.contains "\"human_approval\"") then true
  else
    match nodeMetadata none Decoder.raw definition with
    | none => false
    | some nodes =>
      nodes.any fun metadata =>
        match lookup metadata "approval_required" with
        | some (some raw) => Decoder.bool raw false == (true, true)
        | _ => false

structure BoundActionPolicy where
  present : Bool
  risk : Text
  replayClass : ReplayClass
  approvalRequired : Bool

def noBoundActionPolicy : BoundActionPolicy := ⟨false, [], .retryable, false⟩

def riskLevelRank (risk : Text) : Nat :=
  let r := Text.toLower (Text.trimSpace risk)
  if r == "low" then 1
  else if r == "medium" then 2
  else if r == "high" then 3
  else if r == "critical" then 4
  else 0

def anyText : Option Any → Text
  | some (.str s) => s
  | _ => []

def anyBool : Option Any → Bool
  | some (.bool b) => b
  | _ => false

def nodeBoundPolicy (metadata : Option (List (Text × Any))) : Option BoundActionPolicy :=
  let field (key : String) := lookup metadata key.toList
  if (Text.trimSpace (anyText (field "contract_hash"))).isEmpty ||
      (Text.trimSpace (anyText (field "contract_binding_id"))).isEmpty then none
  else
    let risk := anyText (field "contract_risk")
    some {
      present := true
      risk := if riskLevelRank risk == 0 then "low" else risk
      replayClass := if anyText (field "replay_class") == "non_retryable" then .nonRetryable else .retryable
      approvalRequired := anyBool (field "approval_required") }

def extractBoundActionPolicy (definition : Text) : BoundActionPolicy :=
  match nodeMetadata .null Decoder.any definition with
  | none => noBoundActionPolicy
  | some nodes => (nodes.findSome? nodeBoundPolicy).getD noBoundActionPolicy

structure ActionNode where
  kind : Text := []
  toolName : Text := []
  action : Text := []

structure ActionPayload where
  type : Text := []
  nodes : Slice ActionNode := Slice.empty

def actionNode : Decoder ActionNode :=
  Decoder.struct
    [StructField.of "kind" (·.kind) (fun s x => { s with kind := x }) Decoder.text,
      StructField.of "tool_name" (·.toolName) (fun s x => { s with toolName := x }) Decoder.text,
      StructField.of "action" (·.action) (fun s x => { s with action := x }) Decoder.text]

def actionPayload : Decoder ActionPayload :=
  Decoder.struct
    [StructField.of "type" (·.type) (fun s x => { s with type := x }) Decoder.text,
      StructField.of "graph" (·.nodes) (fun s x => { s with nodes := x })
        (Decoder.struct [StructField.of "nodes" id (fun _ x => x) (Decoder.slice {} actionNode)])]

def nodeAction (node : ActionNode) : Option Text :=
  if !node.toolName.isEmpty then some ("tool:" ++ node.toolName)
  else if !node.action.isEmpty then some (node.kind ++ ':' :: node.action)
  else none

def classifyTaskAction (definition : Text) : Text × Text :=
  let payload := (unmarshal actionPayload definition {}).1
  let trimmed := Text.trimSpace payload.type
  let taskType := if trimmed.isEmpty then "unknown".toList else trimmed
  let actions := payload.nodes.toList.filterMap nodeAction
  if actions.isEmpty then (taskType, taskType) else (taskType, [','].intercalate actions)

def digestRaw (raw : Text) : Text := Hex.encode (Sha256.sum256 (raw.flatMap String.utf8EncodeChar))

structure BoundaryDefaults where
  (allowedTools deniedTools : List Text)
  (networkScope fileScope apiScope resourceScope digest : Text)

def trimStart (start t : Text) : Text := if start.isPrefixOf t then t.drop start.length else t

def marshalTexts (ts : List Text) : Value :=
  if ts.isEmpty then .null else Value.array (ts.map fun t => .str (quote t))

def defaultExecutionBoundary (definition : Text) (caps : List Text) : BoundaryDefaults :=
  let tools := "tools.".toList
  let network := "network.".toList
  let filesystem := "filesystem.".toList
  let fromCaps := (caps.filter tools.isPrefixOf).map (trimStart tools)
  let action := (classifyTaskAction definition).2
  let allowedTools :=
    if !fromCaps.isEmpty then fromCaps
    else if action.contains "tool:".toList then (action.splitOn ',').map (trimStart "tool:".toList)
    else []
  let scope (start : Text) := if caps.any start.isPrefixOf then "policy_scoped".toList else "none".toList
  let networkScope := scope network
  let fileScope := scope filesystem
  let raw := Value.object
    [("allowed_tools".toList, marshalTexts allowedTools), ("api".toList, .str (quote "none".toList)),
      ("denied_tools".toList, marshalTexts []), ("filesystem".toList, .str (quote fileScope)),
      ("network".toList, .str (quote networkScope))]
  { allowedTools := allowedTools
    deniedTools := []
    networkScope := networkScope
    fileScope := fileScope
    apiScope := "none".toList
    resourceScope := "task".toList
    digest := digestRaw raw.print }

structure ActionPolicyInput where
  tenantID : Text
  taskID : Uuid
  (runtimeID taskDefinition agentID : Text)
  requiredCaps : List Text
  checkpoint : Option CheckpointPayload
  recoveryAttempt : Bool

structure ActionPolicyDecision where
  tenantID : Text
  taskID : Uuid
  (agentID runtimeID taskType actionName environmentLabel resourceScope riskLevel : Text)
  decision : ActionDecision
  replayClass : ReplayClass
  (irreversible humanGated : Bool)
  (policyVersion policyReason actionDigest boundaryDigest : Text)
  checkpointPortability : CheckpointPortability

def irreversibleDenial : Text :=
  "irreversible action already committed or checkpoint cannot prove safe forward-resume"

def evaluateActionPolicy (input : ActionPolicyInput) : ActionPolicyDecision :=
  let action := classifyTaskAction input.taskDefinition
  let irreversible := taskHasIrreversibleAction input.taskDefinition
  let humanGated := taskRequiresHumanApproval input.taskDefinition
  let bound := extractBoundActionPolicy input.taskDefinition
  let outcome := (ActionDecision.allowed, "allowed by built-in execution governance".toList)
  let forwardResumeSafe := input.recoveryAttempt &&
    recoveryForwardResumeSafe input.taskID input.taskDefinition input.checkpoint
  let replayClass := if irreversible then ReplayClass.nonRetryable else .retryable
  let risk := if irreversible then "high".toList else "low".toList
  let portability :=
    if irreversible && !forwardResumeSafe then CheckpointPortability.sameRuntimeOnly else .compatibleRuntime
  -- a bound contract can only make the policy stricter
  let policyVersion :=
    if bound.present then "execution-governance.contract-bound.v1".toList
    else "execution-governance.builtin.v1".toList
  let risk := if bound.present && riskLevelRank bound.risk > riskLevelRank risk then bound.risk else risk
  let replayClass :=
    if bound.present && bound.replayClass == .nonRetryable then .nonRetryable else replayClass
  let humanGated := humanGated || (bound.present && bound.approvalRequired)
  let outcome :=
    if bound.present then
      (outcome.1, "allowed by stricter bound-contract and execution governance policy".toList)
    else outcome
  let risk :=
    if humanGated && riskLevelRank "medium".toList > riskLevelRank risk then "medium".toList else risk
  let outcome :=
    if humanGated then (.approvalRequired, "human approval required before execution".toList) else outcome
  let outcome :=
    if input.recoveryAttempt && !taskRecoveryCheckpointUsable input.taskID input.checkpoint then
      (.denied, "recovery checkpoint is missing or invalid".toList)
    else outcome
  let outcome :=
    if input.recoveryAttempt && irreversible && !forwardResumeSafe then (.denied, irreversibleDenial)
    else outcome
  let boundary := defaultExecutionBoundary input.taskDefinition input.requiredCaps
  { tenantID := input.tenantID
    taskID := input.taskID
    agentID := input.agentID
    runtimeID := input.runtimeID
    taskType := action.1
    actionName := action.2
    environmentLabel := "tenant-runtime".toList
    resourceScope := boundary.resourceScope
    riskLevel := risk
    decision := outcome.1
    replayClass := replayClass
    irreversible := irreversible
    humanGated := humanGated
    policyVersion := policyVersion
    policyReason := outcome.2
    actionDigest := digestRaw input.taskDefinition
    boundaryDigest := boundary.digest
    checkpointPortability := portability }

def recoveryHandoffAllowed (task : Option TaskRecord) (checkpoint : Option CheckpointPayload)
    (targetRuntimeID : Text) (decision : ActionPolicyDecision) : Bool × Text :=
  match task with
  | none => (false, "task missing")
  | some task =>
    if decision.decision != .allowed then (false, decision.policyReason)
    else if decision.irreversible && !recoveryForwardResumeSafe task.taskID task.taskDefinition checkpoint then
      (false, irreversibleDenial)
    else
      match checkpoint with
      | none => (true, "no checkpoint; first safe redispatch")
      | some cp =>
        match decision.checkpointPortability with
        | .anyRuntime | .compatibleRuntime =>
          (true, "checkpoint portability allows compatible runtime handoff")
        | .sameRuntimeOnly =>
          if cp.resumeToken.runtimeID.isEmpty || cp.resumeToken.runtimeID == targetRuntimeID then
            (true, "same runtime checkpoint")
          else (false, "checkpoint is same-runtime-only")

end Overture
