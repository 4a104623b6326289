import Overture.Coordinator.ExecutionContext
import Overture.Coordinator.Policy

/-!
# What the audits read of the artifacts

The robotics audit and the audit of tools decode the same pair of envelope and receipt, each into a
struct of its own. An artifact that cannot be decoded is not audited.
-/

namespace Overture

open Json

structure AuditEnvelope where
  executionID : Text := []
  tenantID : Option Text := none
  model : Text := []
  policyDecisionID : Text := []
  policyDecisionHash : Text := []
  governedActionHash : Text := []
  routingDecision : Text := []
  requestHash : Text := []
  responseHash : Text := []
  signature : Text := []
  violation : Text := []
deriving DecidableEq

structure AuditReceipt where
  executionID : Text := []
  receiptHash : Text := []
  hash : Text := []
  signature : Text := []
  violationOccurred : Bool := false
deriving DecidableEq

namespace AuditEnvelope

def executionIDField : StructField AuditEnvelope :=
  .of "execution_id" (·.executionID) (fun e t => { e with executionID := t }) .text

def tenantPtrField : StructField AuditEnvelope :=
  .of "tenant_id" (·.tenantID) (fun e t => { e with tenantID := t }) Decoder.textPtr

def modelField : StructField AuditEnvelope := .of "model" (·.model) (fun e t => { e with model := t }) .text

def policyDecisionIDField : StructField AuditEnvelope :=
  .of "policy_decision_id" (·.policyDecisionID) (fun e t => { e with policyDecisionID := t }) .text

def policyDecisionHashField : StructField AuditEnvelope :=
  .of "policy_decision_hash" (·.policyDecisionHash) (fun e t => { e with policyDecisionHash := t }) .text

def governedActionHashField : StructField AuditEnvelope :=
  .of "governed_action_hash" (·.governedActionHash) (fun e t => { e with governedActionHash := t }) .text

def routingDecisionField : StructField AuditEnvelope :=
  .of "routing_decision" (·.routingDecision) (fun e t => { e with routingDecision := t }) .text

def requestHashField : StructField AuditEnvelope :=
  .of "request_hash" (·.requestHash) (fun e t => { e with requestHash := t }) .text

def responseHashField : StructField AuditEnvelope :=
  .of "response_hash" (·.responseHash) (fun e t => { e with responseHash := t }) .text

def signatureField : StructField AuditEnvelope :=
  .of "signature" (·.signature) (fun e t => { e with signature := t }) .text

def violationField : StructField AuditEnvelope :=
  .of "violation" (·.violation) (fun e t => { e with violation := t }) .text

def aiTool : Decoder AuditEnvelope := Decoder.struct
  [executionIDField, tenantPtrField, modelField, policyDecisionIDField, policyDecisionHashField,
    governedActionHashField, routingDecisionField, requestHashField, responseHashField, signatureField,
    violationField]

def robotics : Decoder AuditEnvelope := Decoder.struct
  [executionIDField, tenantPtrField, policyDecisionIDField, policyDecisionHashField, governedActionHashField,
    routingDecisionField, signatureField, violationField]

end AuditEnvelope

def auditReceiptDecoder : Decoder AuditReceipt := Decoder.struct
  [.of "execution_id" (·.executionID) (fun r t => { r with executionID := t }) .text,
    .of "receipt_hash" (·.receiptHash) (fun r t => { r with receiptHash := t }) .text,
    .of "hash" (·.hash) (fun r t => { r with hash := t }) .text,
    .of "signature" (·.signature) (fun r t => { r with signature := t }) .text,
    .of "violation_occurred" (·.violationOccurred) (fun r b => { r with violationOccurred := b }) .bool]

def decoded {σ : Type} (d : Decoder σ) (zero : σ) (raw : Text) : Option σ :=
  match unmarshal d raw zero with
  | (s, true) => some s
  | (_, false) => none

def AuditReceipt.anyHash (receipt : AuditReceipt) : Text :=
  if receipt.receiptHash = [] then receipt.hash else receipt.receiptHash

def aiToolRoutingDecisionAuditable (routingDecision : Text) : Bool :=
  "tool:".toList.isPrefixOf routingDecision || "runtime:tool:".toList.isPrefixOf routingDecision

def aiToolNameFromRoutingDecision (routingDecision : Text) : Text :=
  match ["tool:".toList, "runtime:tool:".toList].find? fun start => start.isPrefixOf routingDecision with
  | some start => Text.trimSpace (trimStart start routingDecision)
  | none => []

def capabilityFromToolName (toolName : Text) : Text :=
  let toolName := Text.trimSpace (Text.toLower toolName)
  if toolName = [] then []
  else if "tools.".toList.isPrefixOf toolName then toolName
  else "tools." ++ toolName

def AuditEnvelope.toolName (envelope : AuditEnvelope) : Text :=
  let toolName := aiToolNameFromRoutingDecision envelope.routingDecision
  if toolName = [] then envelope.model else toolName

structure AIToolRefs where
  (executionID tenantID envelopeID capability toolName toolActionHash routingDecision requestHash : Text)
  (responseHash receiptHash receiptSignature envelopeSignature : Text)
  violationOccurred : Bool
  violation : Text
deriving DecidableEq

def aiToolRefs (envelope : AuditEnvelope) (receipt : AuditReceipt) : AIToolRefs where
  executionID := envelope.executionID
  tenantID := envelope.tenantID.getD []
  envelopeID := envelope.policyDecisionID
  capability := capabilityFromToolName envelope.toolName
  toolName := envelope.toolName
  toolActionHash := envelope.governedActionHash
  routingDecision := envelope.routingDecision
  requestHash := envelope.requestHash
  responseHash := envelope.responseHash
  receiptHash := receipt.anyHash
  receiptSignature := receipt.signature
  envelopeSignature := envelope.signature
  violationOccurred := receipt.violationOccurred || envelope.violation != []
  violation := envelope.violation

def aiToolAuditRefs (executionEnvelope executionReceipt : Text) : Option AIToolRefs := do
  guard (executionEnvelope ≠ [])
  let envelope ← decoded AuditEnvelope.aiTool {} executionEnvelope
  guard (envelope.executionID ≠ [] ∧ aiToolRoutingDecisionAuditable envelope.routingDecision)
  let receipt ← if executionReceipt = [] then some {} else decoded auditReceiptDecoder {} executionReceipt
  guard (receipt.executionID = [] ∨ receipt.executionID = envelope.executionID)
  return aiToolRefs envelope receipt

end Overture
