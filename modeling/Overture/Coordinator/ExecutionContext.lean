import Overture.Coordinator.Lineage
import Overture.Lib.Json.Decoded
import Overture.Lib.OwnedTable
import Overture.Lib.Uuid

/-!
# Execution context and tenant isolation

The context of an execution is written from the artifacts of a runtime and the row of the task. Both ledgers have one
row for an execution, under an id that the runtime chooses. The upsert of the context compares tenants but takes the
tenant from the artifact first; that of the lineage does not compare them.
-/

namespace Overture

open Json Except OwnedTable

/-! ## Artifacts -/

def Decoder.textPtr : Decoder (Option Text)
  | .str raw, _ => (some (unquote raw), true)
  | .null, _ => (none, true)
  | _, old => (old, false)

structure ContextEnvelope where
  executionID : Text := []
  tenantID : Option Text := none
  runtimeID : Text := []
  provider : Text := []
  model : Text := []
  routingDecision : Text := []
  boundsApplied : Option (List (Text × Any)) := none
  policyDecisionID : Text := []
  policyDecisionHash : Text := []
  governedActionHash : Text := []
  violation : Text := []
  finishReason : Text := []

def contextEnvelopeDecoder : Decoder ContextEnvelope := Decoder.struct
  [.of "execution_id" (·.executionID) (fun e t => { e with executionID := t }) .text,
    .of "tenant_id" (·.tenantID) (fun e t => { e with tenantID := t }) Decoder.textPtr,
    .of "runtime_id" (·.runtimeID) (fun e t => { e with runtimeID := t }) .text,
    .of "provider" (·.provider) (fun e t => { e with provider := t }) .text,
    .of "model" (·.model) (fun e t => { e with model := t }) .text,
    .of "routing_decision" (·.routingDecision) (fun e t => { e with routingDecision := t }) .text,
    .of "bounds_applied" (·.boundsApplied) (fun e m => { e with boundsApplied := m }) (.map .null .any),
    .of "policy_decision_id" (·.policyDecisionID) (fun e t => { e with policyDecisionID := t }) .text,
    .of "policy_decision_hash" (·.policyDecisionHash) (fun e t => { e with policyDecisionHash := t }) .text,
    .of "governed_action_hash" (·.governedActionHash) (fun e t => { e with governedActionHash := t }) .text,
    .of "violation" (·.violation) (fun e t => { e with violation := t }) .text,
    .of "finish_reason" (·.finishReason) (fun e t => { e with finishReason := t }) .text]

structure ContextReceipt where
  executionID : Text := []
  receiptHash : Text := []
  hash : Text := []
  runtimeID : Text := []

def contextReceiptDecoder : Decoder ContextReceipt := Decoder.struct
  [.of "execution_id" (·.executionID) (fun r t => { r with executionID := t }) .text,
    .of "receipt_hash" (·.receiptHash) (fun r t => { r with receiptHash := t }) .text,
    .of "hash" (·.hash) (fun r t => { r with hash := t }) .text,
    .of "runtime_id" (·.runtimeID) (fun r t => { r with runtimeID := t }) .text]

def normalizedRoute (routeDecision : Text) : Text := Text.toLower (Text.trimSpace routeDecision)

def providerFromRouteDecision (routeDecision : Text) : Text :=
  let normalized := normalizedRoute routeDecision
  if "tool:".toList.isPrefixOf normalized || "runtime:tool:".toList.isPrefixOf normalized then "tool".toList
  else if "ros2:".toList.isPrefixOf normalized || "runtime:robotics:".toList.isPrefixOf normalized then
    "robotics"
  else if Text.contains normalized "openai" then "openai"
  else if Text.contains normalized "anthropic" then "anthropic"
  else if Text.contains normalized "runtime" then "runtime"
  else []

def executionPathFromRouteDecision (routeDecision : Text) (runtimeBacked : Bool) : Text :=
  let normalized := normalizedRoute routeDecision
  if "tool:".toList.isPrefixOf normalized || "runtime:tool:".toList.isPrefixOf normalized then
    "runtime_tool"
  else if "ros2:".toList.isPrefixOf normalized || "runtime:robotics:".toList.isPrefixOf normalized then
    "runtime_robotics"
  else if runtimeBacked || Text.contains normalized "runtime" then "runtime_task"
  else if normalized ≠ [] then "direct_provider"
  else []

def policySnapshot (e : ContextEnvelope) : Option Text :=
  let named (key : String) (t : Text) : List (Text × Any) := if t = [] then [] else [(key.toList, .str t)]
  let bounds := e.boundsApplied.getD []
  let entries :=
    (if bounds.isEmpty then [] else [("bounds_applied".toList, .obj (AnyMap.ofEntries bounds))]) ++
      named "policy_decision_id" e.policyDecisionID ++ named "policy_decision_hash" e.policyDecisionHash ++
      named "governed_action_hash" e.governedActionHash ++ named "violation" e.violation
  if entries.isEmpty then none else (Any.toValue (.obj (AnyMap.ofEntries entries))).map Value.print

structure ContextRefs where
  (executionID tenantID runtimeID provider routeDecision executionPath : Text)
  policySnapshot : Option Text
  (verificationStatus receiptHash : Text)

def contextReceiptOf (raw : Text) : Option ContextReceipt :=
  if raw = [] ∨ raw = "null" ∨ raw = "\x7b\x7d" then some {}
  else
    match unmarshal contextReceiptDecoder raw {} with
    | (receipt, true) => some receipt
    | (_, false) => none

def executionContextRefsFromArtifacts (envelopeRaw receiptRaw : Text) : Option ContextRefs :=
  if envelopeRaw = [] then none
  else
    match unmarshal contextEnvelopeDecoder envelopeRaw {} with
    | (_, false) => none
    | (envelope, true) =>
      if envelope.executionID = [] then none
      else
        match contextReceiptOf receiptRaw with
        | none => none
        | some receipt =>
          let own := Text.trimSpace envelope.runtimeID
          let other := Text.trimSpace receipt.runtimeID
          if other ≠ [] ∧ own ≠ [] ∧ other ≠ own then none
          else
            let receiptHash := firstNonEmpty [receipt.receiptHash, receipt.hash]
            some {
              executionID := firstNonEmpty [receipt.executionID, envelope.executionID]
              tenantID := envelope.tenantID.getD []
              runtimeID := firstNonEmpty [receipt.runtimeID, envelope.runtimeID]
              provider := firstNonEmpty
                [envelope.provider, providerFromRouteDecision envelope.routingDecision, envelope.model]
              routeDecision := envelope.routingDecision
              executionPath := executionPathFromRouteDecision envelope.routingDecision true
              policySnapshot := policySnapshot envelope
              verificationStatus := if (Text.trimSpace receiptHash).isEmpty then [] else "present"
              receiptHash }

structure ContextTaskSource where
  taskID : Uuid
  (tenantID runtimeID runtimeEndpoint proofStatus failureReason : Text)
  permissionRecorded : Bool
  capabilitySnapshot : Option Text
  createdAt : Int
  (dispatchedAt completedAt canceledAt : Option Int)

structure ContextEvent where
  timestamp : Text
  kind : String
  message : Text
deriving DecidableEq

/-- The layout `RFC3339` has no fraction of a second. -/
def eventAt (at' : Int) (kind : String) (message : Text) : ContextEvent :=
  ⟨Instant.format (at' / Instant.second * Instant.second), kind, message⟩

def taskExecutionEvents (source : ContextTaskSource) (refs : ContextRefs) : List ContextEvent :=
  let completed := source.completedAt.getD source.createdAt
  [eventAt source.createdAt "task_created" "Task accepted by Overture".toList] ++
    (match source.dispatchedAt with
    | none => []
    | some at' =>
      let message := "Task dispatched to runtime".toList
      [eventAt at' "task_dispatched" (if source.runtimeID = [] then message else message ++ ' ' :: source.runtimeID)]) ++
    (if refs.routeDecision = [] then []
    else [eventAt (source.dispatchedAt.getD source.createdAt) "route_decision"
      ("Runtime route decision recorded: ".toList ++ refs.routeDecision)]) ++
    (if !source.permissionRecorded then []
    else [eventAt source.createdAt "capability_envelope" "Capability permission envelope recorded".toList]) ++
    (if refs.receiptHash = [] then []
    else [eventAt completed "receipt_recorded" "Execution receipt recorded".toList]) ++
    (match source.completedAt with
    | none => []
    | some at' => [eventAt at' "task_completed" "Runtime reported task completion".toList]) ++
    (match source.canceledAt with
    | none => []
    | some at' => [eventAt at' "task_canceled" "Task was canceled".toList]) ++
    (if source.failureReason = [] then []
    else [eventAt completed "task_failed" ("Task failed: ".toList ++ source.failureReason)])

def ContextEvent.log (e : ContextEvent) : Text := e.timestamp ++ ' ' :: (e.kind.toList ++ ": " ++ e.message)

structure ContextRecord where
  (executionID tenantID : Text)
  taskID : Uuid
  (runtimeID runtimeLabel provider routeDecision executionPath : Text)
  (policySnapshot capabilitySnapshot : Option Text)
  events : List ContextEvent
  logs : List Text
  (verificationStatus receiptHash : Text)

def contextRecord (source : ContextTaskSource) (refs : ContextRefs) : ContextRecord :=
  let runtimeID := firstNonEmpty [refs.runtimeID, source.runtimeID]
  { executionID := refs.executionID
    tenantID := firstNonEmpty [refs.tenantID, source.tenantID]
    taskID := source.taskID
    runtimeID
    runtimeLabel := source.runtimeEndpoint
    provider := refs.provider
    routeDecision := refs.routeDecision
    executionPath := firstNonEmpty
      [refs.executionPath, executionPathFromRouteDecision refs.routeDecision (decide (runtimeID ≠ []))]
    policySnapshot := refs.policySnapshot
    capabilitySnapshot := source.capabilitySnapshot
    events := taskExecutionEvents source refs
    logs := (taskExecutionEvents source refs).map ContextEvent.log
    verificationStatus := firstNonEmpty [source.proofStatus, refs.verificationStatus]
    receiptHash := refs.receiptHash }

def buildTaskExecutionContextRecord (source : ContextTaskSource) (envelopeRaw receiptRaw : Text) :
    Option ContextRecord :=
  (executionContextRefsFromArtifacts envelopeRaw receiptRaw).map (contextRecord source)

structure ContextRow where
  (executionID tenantID : Text)
  taskID : Uuid
  (runtimeID runtimeLabel provider routeDecision executionPath policySnapshot : Option Text)
  capabilitySnapshot : Option Text
  events : List ContextEvent
  logs : List Text
  (verificationStatus receiptHash : Option Text)
  (createdAt updatedAt : Int)

def ContextRecord.row (r : ContextRecord) (now : Int) : ContextRow where
  executionID := r.executionID
  tenantID := Text.trimSpace r.tenantID
  taskID := r.taskID
  runtimeID := nullIfEmpty r.runtimeID
  runtimeLabel := nullIfEmpty r.runtimeLabel
  provider := nullIfEmpty r.provider
  routeDecision := nullIfEmpty r.routeDecision
  executionPath := nullIfEmpty r.executionPath
  policySnapshot := r.policySnapshot
  capabilitySnapshot := r.capabilitySnapshot
  events := r.events
  logs := r.logs
  verificationStatus := nullIfEmpty r.verificationStatus
  receiptHash := nullIfEmpty r.receiptHash
  createdAt := now
  updatedAt := now

def ContextRow.merge (old excluded : ContextRow) : ContextRow where
  executionID := old.executionID
  tenantID := excluded.tenantID
  taskID := excluded.taskID
  runtimeID := excluded.runtimeID.or old.runtimeID
  runtimeLabel := excluded.runtimeLabel.or old.runtimeLabel
  provider := excluded.provider.or old.provider
  routeDecision := excluded.routeDecision.or old.routeDecision
  executionPath := excluded.executionPath.or old.executionPath
  policySnapshot := excluded.policySnapshot.or old.policySnapshot
  capabilitySnapshot := excluded.capabilitySnapshot.or old.capabilitySnapshot
  events := if excluded.events.isEmpty then old.events else excluded.events
  logs := if excluded.logs.isEmpty then old.logs else excluded.logs
  verificationStatus := excluded.verificationStatus.or old.verificationStatus
  receiptHash := excluded.receiptHash.or old.receiptHash
  createdAt := old.createdAt
  updatedAt := excluded.updatedAt

abbrev ContextTable := Table ContextRow.executionID

def saveExecutionContext (record : Option ContextRecord) (now : Int) (t : ContextTable) :
    Except LedgerError ContextTable :=
  match record with
  | none => .ok t
  | some r =>
    if (Text.trimSpace r.executionID).isEmpty then .ok t
    else if (Text.trimSpace r.tenantID).isEmpty then .error .contextMissingTenant
    else
      match t.get? r.executionID with
      | none => .ok (t.put (r.row now))
      | some old =>
        if old.tenantID = (r.row now).tenantID then .ok (t.put (old.merge (r.row now)))
        else .error .contextTenantMismatch

/-! ## Calls on behalf of tasks -/

inductive LedgerCall where
  | lineage (raw : Text) (args : LineageArgs) (now : Int)
  | context (source : ContextTaskSource) (envelopeRaw receiptRaw : Text) (now : Int)

def LedgerCall.tenant : LedgerCall → Text
  | .lineage _ args _ => args.tenantID
  | .context source _ _ _ => source.tenantID

structure LedgerState where
  lineage : OwnedTable LineageRow.executionID Text
  context : OwnedTable ContextRow.executionID Text

namespace LedgerState

def empty : LedgerState := ⟨OwnedTable.empty, OwnedTable.empty⟩

def step (s : LedgerState) : LedgerCall → LedgerState
  | .lineage raw args now =>
    match buildExecutionLineageRecordFromReceipt raw args with
    | .ok record =>
      match saveExecutionLineage record now s.lineage.table with
      | .ok after => { s with lineage := s.lineage.track args.tenantID after }
      | .error _ => s
    | .error _ => s
  | .context source envelopeRaw receiptRaw now =>
    match saveExecutionContext (buildTaskExecutionContextRecord source envelopeRaw receiptRaw) now s.context.table with
    | .ok after => { s with context := s.context.track source.tenantID after }
    | .error _ => s

def Isolated (s : LedgerState) (call : LedgerCall) : Prop :=
  ∀ id tenant, tenant ≠ call.tenant →
    (s.lineage.owner id = some tenant → (s.step call).lineage.table.get? id = s.lineage.table.get? id) ∧
      (s.context.owner id = some tenant → (s.step call).context.table.get? id = s.context.table.get? id)

/-- The runtime keeps to the tenant of the task: the execution it reports a receipt for is not stored for
another tenant, and the envelope names no other tenant. -/
def KeepsToTenant (s : LedgerState) : LedgerCall → Prop
  | .lineage raw args _ =>
    ∀ receipt row, lineageReading raw = .ok (some receipt) →
      s.lineage.table.get? receipt.executionID = some row → row.tenantID = some args.tenantID
  | .context source envelopeRaw receiptRaw _ =>
    ∀ refs, executionContextRefsFromArtifacts envelopeRaw receiptRaw = some refs →
      Text.trimSpace (firstNonEmpty [refs.tenantID, source.tenantID]) = source.tenantID

inductive Reachable : LedgerState → Prop
  | empty : Reachable empty
  | step {s : LedgerState} (call : LedgerCall) : Reachable s → KeepsToTenant s call → Reachable (s.step call)

def lineageTenant (row : LineageRow) : Text := row.tenantID.getD []

def Faithful (s : LedgerState) : Prop :=
  s.lineage.Faithful lineageTenant ∧ s.context.Faithful ContextRow.tenantID

theorem saveExecutionLineage_cases {record : Option LineageRecord} {now : Int} {t after : LineageTable}
    (h : saveExecutionLineage record now t = .ok after) :
    after = t ∨ ∃ r row, record = some r ∧ after = t.put row ∧ row.executionID = r.executionID ∧
      row.tenantID = some r.tenantID := by
  unfold saveExecutionLineage at h
  cases record with
  | none =>
    cases h
    exact .inl rfl
  | some r =>
    dsimp only at h
    split at h
    · cases h
      exact .inl rfl
    split at h
    · cases h
    next htenant =>
    have hrow : (r.row now).tenantID = some r.tenantID := by
      have hne : r.tenantID ≠ [] := by
        intro hnil
        rw [hnil] at htenant
        exact htenant rfl
      exact if_neg hne
    split at h
    · cases h
      exact .inr ⟨r, r.row now, rfl, rfl, rfl, hrow⟩
    next old hget =>
    cases h
    have hkey : old.executionID = r.executionID := Table.key_of_get? hget
    refine .inr ⟨r, old.merge (r.row now), rfl, rfl, hkey, ?_⟩
    rw [LineageRow.merge, hrow]
    rfl

theorem saveExecutionContext_cases {record : Option ContextRecord} {now : Int} {t after : ContextTable}
    (h : saveExecutionContext record now t = .ok after) :
    after = t ∨ ∃ r row, record = some r ∧ after = t.put row ∧ row.executionID = r.executionID ∧
      row.tenantID = Text.trimSpace r.tenantID ∧
      ∀ old, t.get? row.executionID = some old → old.tenantID = Text.trimSpace r.tenantID := by
  unfold saveExecutionContext at h
  cases record with
  | none =>
    cases h
    exact .inl rfl
  | some r =>
    dsimp only at h
    split at h
    · cases h
      exact .inl rfl
    split at h
    · cases h
    split at h
    · next hget =>
      cases h
      refine .inr ⟨r, r.row now, rfl, rfl, rfl, rfl, ?_⟩
      intro old hold
      rw [show (r.row now).executionID = r.executionID from rfl, hget] at hold
      cases hold
    next old hget =>
    split at h
    · next htenant =>
      cases h
      have hold : old.executionID = r.executionID := Table.key_of_get? hget
      have hkey : (old.merge (r.row now)).executionID = r.executionID := hold
      refine .inr ⟨r, old.merge (r.row now), rfl, rfl, hkey, rfl, ?_⟩
      intro old' hold'
      rw [hkey, hget] at hold'
      cases hold'
      exact htenant
    · cases h

theorem step_cases (s : LedgerState) (call : LedgerCall) :
    s.step call = s ∨
      (∃ raw args now receipt row, call = .lineage raw args now ∧ lineageReading raw = .ok (some receipt) ∧
        row.executionID = receipt.executionID ∧ row.tenantID = some args.tenantID ∧
        s.step call = { s with lineage := s.lineage.track args.tenantID (s.lineage.table.put row) }) ∨
      ∃ source envelopeRaw receiptRaw now refs row, call = .context source envelopeRaw receiptRaw now ∧
        executionContextRefsFromArtifacts envelopeRaw receiptRaw = some refs ∧
        row.tenantID = Text.trimSpace (firstNonEmpty [refs.tenantID, source.tenantID]) ∧
        (∀ old, s.context.table.get? row.executionID = some old → old.tenantID = row.tenantID) ∧
        s.step call = { s with context := s.context.track source.tenantID (s.context.table.put row) } := by
  cases call with
  | lineage raw args now =>
    rw [step, build_eq]
    cases hreading : lineageReading raw with
    | error _ => exact .inl rfl
    | ok reading =>
      dsimp only [Except.map]
      cases hsave : saveExecutionLineage (reading.map (·.record args)) now s.lineage.table with
      | error _ => exact .inl rfl
      | ok after =>
        rcases saveExecutionLineage_cases hsave with rfl | ⟨r, row, hrecord, rfl, hkey, htenant⟩
        · dsimp only
          rw [OwnedTable.track_self]
          exact .inl rfl
        · obtain ⟨receipt, rfl, rfl⟩ := Option.map_eq_some_iff.mp hrecord
          exact .inr (.inl ⟨raw, args, now, receipt, row, rfl, hreading, hkey, htenant, rfl⟩)
  | context source envelopeRaw receiptRaw now =>
    rw [step]
    cases hsave : saveExecutionContext (buildTaskExecutionContextRecord source envelopeRaw receiptRaw) now
        s.context.table with
    | error _ => exact .inl rfl
    | ok after =>
      rcases saveExecutionContext_cases hsave with rfl | ⟨r, row, hrecord, rfl, hkey, htenant, hold⟩
      · dsimp only
        rw [OwnedTable.track_self]
        exact .inl rfl
      obtain ⟨refs, hrefs, rfl⟩ := Option.map_eq_some_iff.mp hrecord
      refine .inr (.inr ⟨source, envelopeRaw, receiptRaw, now, refs, row, rfl, hrefs, htenant, ?_, rfl⟩)
      intro old hget
      rw [hold old hget, htenant]

theorem own_lineage {s : LedgerState} {raw : Text} {args : LineageArgs} {now : Int} {receipt : LineageReceipt}
    {row : LineageRow} (hkeeps : KeepsToTenant s (.lineage raw args now))
    (hreading : lineageReading raw = .ok (some receipt)) (hkey : row.executionID = receipt.executionID) :
    ∀ old, s.lineage.table.get? row.executionID = some old → lineageTenant old = args.tenantID := by
  intro old hold
  rw [hkey] at hold
  rw [lineageTenant, hkeeps receipt old hreading hold]
  rfl

theorem Reachable.faithful {s : LedgerState} (h : Reachable s) : s.Faithful := by
  induction h with
  | empty => exact ⟨faithful_empty, faithful_empty⟩
  | @step s call _ hkeeps ih =>
    rcases s.step_cases call with hsame | ⟨raw, args, now, receipt, row, rfl, hreading, hkey, htenant, heq⟩ |
      ⟨source, envelopeRaw, receiptRaw, now, refs, row, rfl, hrefs, htenant, hold, heq⟩
    · rw [hsame]
      exact ih
    · rw [heq]
      refine ⟨ih.1.put ?_ (own_lineage hkeeps hreading hkey), ih.2⟩
      rw [lineageTenant, htenant]
      rfl
    rw [heq]
    have hcaller : row.tenantID = source.tenantID := htenant.trans (hkeeps refs hrefs)
    exact ⟨ih.1, ih.2.put hcaller fun old hget => (hold old hget).trans hcaller⟩

/-- In a run of calls that keep to the tenants of their tasks, no call touches a row of another tenant. -/
theorem isolated_of_keepsToTenant {s : LedgerState} {call : LedgerCall} (h : Reachable s)
    (hkeeps : KeepsToTenant s call) : s.Isolated call := by
  obtain ⟨hlineage, hcontext⟩ := h.faithful
  intro id tenant hne
  rcases s.step_cases call with hsame | ⟨raw, args, now, receipt, row, rfl, hreading, hkey, -, heq⟩ |
    ⟨source, envelopeRaw, receiptRaw, now, refs, row, rfl, hrefs, htenant, hold, heq⟩
  · rw [hsame]
    exact ⟨fun _ => rfl, fun _ => rfl⟩
  · rw [heq]
    refine ⟨fun howner => ?_, fun _ => rfl⟩
    exact hlineage.get?_put_of_ne (own_lineage hkeeps hreading hkey) howner hne
  rw [heq]
  refine ⟨fun _ => rfl, fun howner => ?_⟩
  have hcaller : row.tenantID = source.tenantID := htenant.trans (hkeeps refs hrefs)
  exact hcontext.get?_put_of_ne (fun old hget => (hold old hget).trans hcaller) howner hne

def sampleCall (tenant : String) : LedgerCall :=
  .lineage (sampleReceipt ["\"receipt_hash\":", "\"aa\","]) { sampleArgs with tenantID := tenant.toList } 0

def otherCall (tenant : String) : LedgerCall :=
  .lineage "\x7b\"execution_id\":\"e2\",\"hash\":\"bb\"\x7d" { sampleArgs with tenantID := tenant.toList } 0

theorem isolated_otherCall : (empty.step (sampleCall "tenant-a")).Isolated (otherCall "tenant-b") := by
  have hfresh : KeepsToTenant empty (sampleCall "tenant-a") := by
    intro receipt row _ hget
    cases hget
  apply isolated_of_keepsToTenant (.step _ .empty hfresh)
  intro receipt row hreading hget
  have hknown : lineageReading "\x7b\"execution_id\":\"e2\",\"hash\":\"bb\"\x7d" =
      .ok (some { executionID := "e2", hash := "bb" }) := by decide +kernel
  rw [hknown] at hreading
  cases hreading
  have hnone : (empty.step (sampleCall "tenant-a")).lineage.table.get? "e2" = none := by decide +kernel
  rw [hnone] at hget
  cases hget

/-- A verified receipt with the execution id of another tenant takes the row over. -/
theorem lineage_row_moved :
    verifyReceiptRaw echoScheme (echoScheme.publicKey ()) (sampleReceipt ["\"receipt_hash\":", "\"aa\","]) = .ok () ∧
      (empty.step (sampleCall "tenant-a")).lineage.owner "exec-1".toList = some "tenant-a".toList ∧
      (((empty.step (sampleCall "tenant-a")).step (sampleCall "tenant-b")).lineage.table.get? "exec-1".toList).map
        LineageRow.tenantID = some (some "tenant-b".toList) ∧
      ¬(empty.step (sampleCall "tenant-a")).Isolated (sampleCall "tenant-b") := by
  have howner : (empty.step (sampleCall "tenant-a")).lineage.owner "exec-1" = some "tenant-a" := by
    decide +kernel
  refine ⟨by decide +kernel, howner, by decide +kernel, ?_⟩
  intro h
  have hsame := (h "exec-1" "tenant-a" (by decide +kernel)).1 howner
  revert hsame
  decide +kernel

end LedgerState

end Overture
