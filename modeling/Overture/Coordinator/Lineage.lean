import Overture.Internal.Receipts
import Overture.Lib.Instant
import Overture.Lib.Json.Struct
import Overture.Lib.Table

/-!
# The execution ledger

A verified receipt is decoded once more, into a struct, and becomes a row of the table
`execution_lineage`, which has one row for an execution. The clock and `strings.ToUpper` are
parameters. A statement that the database refuses leaves the table as it is.
-/

namespace Overture

open Json

def firstNonEmpty : List Text → Text
  | [] => []
  | t :: rest => if (Text.trimSpace t).isEmpty then firstNonEmpty rest else t

structure LineageReceipt where
  executionID : Text := []
  transactionID : Text := []
  transactionHash : Text := []
  agentID : Text := []
  runtimeID : Text := []
  cpuTimeMs : Int := 0
  wallTimeMs : Int := 0
  memoryPeakMB : Int := 0
  fsBytesWritten : Int := 0
  toolCalls : Int := 0
  violationOccurred : Bool := false
  receiptHash : Text := []
  hash : Text := []
  previousHash : Text := []
  signature : Text := []
  timestampUTC : Text := []
  violation : Text := []
deriving DecidableEq

def lineageReceiptDecoder : Decoder LineageReceipt := Decoder.struct
  [.of "execution_id" (·.executionID) (fun r t => { r with executionID := t }) .text,
    .of "transaction_id" (·.transactionID) (fun r t => { r with transactionID := t }) .text,
    .of "transaction_hash" (·.transactionHash) (fun r t => { r with transactionHash := t }) .text,
    .of "agent_id" (·.agentID) (fun r t => { r with agentID := t }) .text,
    .of "runtime_id" (·.runtimeID) (fun r t => { r with runtimeID := t }) .text,
    .of "cpu_time_ms" (·.cpuTimeMs) (fun r n => { r with cpuTimeMs := n }) (.int 64),
    .of "wall_time_ms" (·.wallTimeMs) (fun r n => { r with wallTimeMs := n }) (.int 64),
    .of "memory_peak_mb" (·.memoryPeakMB) (fun r n => { r with memoryPeakMB := n }) (.int 64),
    .of "fs_bytes_written" (·.fsBytesWritten) (fun r n => { r with fsBytesWritten := n }) (.int 64),
    .of "tool_calls" (·.toolCalls) (fun r n => { r with toolCalls := n }) (.int 64),
    .of "violation_occurred" (·.violationOccurred) (fun r b => { r with violationOccurred := b }) .bool,
    .of "receipt_hash" (·.receiptHash) (fun r t => { r with receiptHash := t }) .text,
    .of "hash" (·.hash) (fun r t => { r with hash := t }) .text,
    .of "previous_hash" (·.previousHash) (fun r t => { r with previousHash := t }) .text,
    .of "signature" (·.signature) (fun r t => { r with signature := t }) .text,
    .of "timestamp_utc" (·.timestampUTC) (fun r t => { r with timestampUTC := t }) .text,
    .of "violation" (·.violation) (fun r t => { r with violation := t }) .text]

structure LineageRecord where
  (executionID transactionID transactionHash agentID : Text)
  (cpuTimeMs wallTimeMs memoryPeakMB fsBytesWritten toolCalls : Int)
  violationOccurred : Bool
  (receiptHash previousHash signature runtimeID tenantID : Text)
  timestampUTC : Int
  (status promptPreview : Text)
  violationDetails : Option Text
deriving DecidableEq

structure LineageArgs where
  (tenantID runtimeID status promptPreview : Text)
  /-- The reading of the clock, for a receipt without a time. -/
  now : Int
  toUpper : Text → Text

def normalizeExecutionLineageStatus (toUpper : Text → Text) (status : Text) (violationOccurred : Bool) : Text :=
  let normalized := toUpper (Text.trimSpace status)
  if violationOccurred ∧ normalized = "COMPLETED" then "VIOLATION"
  else if normalized ≠ [] then normalized
  else if violationOccurred then "VIOLATION"
  else "COMPLETED"

def receiptTimestamp (now : Int) (text : Text) : Int :=
  if (Text.trimSpace text).isEmpty then now else (Instant.parse text).getD now

def violationDetails (occurred : Bool) (violation : Text) : Option Text :=
  if occurred || !(Text.trimSpace violation).isEmpty then
    some (Value.object [("violation_type",
      .str (quote (firstNonEmpty [violation, "violation_recorded"])))]).print
  else none

def LineageReceipt.record (receipt : LineageReceipt) (args : LineageArgs) : LineageRecord where
  executionID := receipt.executionID
  transactionID := receipt.transactionID
  transactionHash := receipt.transactionHash
  agentID := firstNonEmpty [receipt.agentID, args.tenantID]
  cpuTimeMs := receipt.cpuTimeMs
  wallTimeMs := receipt.wallTimeMs
  memoryPeakMB := receipt.memoryPeakMB
  fsBytesWritten := receipt.fsBytesWritten
  toolCalls := receipt.toolCalls
  violationOccurred := receipt.violationOccurred
  receiptHash := firstNonEmpty [receipt.receiptHash, receipt.hash]
  previousHash := receipt.previousHash
  signature := receipt.signature
  runtimeID := firstNonEmpty [receipt.runtimeID, args.runtimeID]
  tenantID := args.tenantID
  timestampUTC := receiptTimestamp args.now receipt.timestampUTC
  status := normalizeExecutionLineageStatus args.toUpper args.status receipt.violationOccurred
  promptPreview := args.promptPreview
  violationDetails := violationDetails receipt.violationOccurred receipt.violation

/-- A receipt that cannot be decoded is an error; one without an execution or a hash gives no record. -/
def buildExecutionLineageRecordFromReceipt (raw : Text) (args : LineageArgs) :
    Except Unit (Option LineageRecord) :=
  if raw = [] ∨ raw = "null" ∨ raw = "\x7b\x7d" then .ok none
  else
    match unmarshal lineageReceiptDecoder raw {} with
    | (_, false) => .error ()
    | (receipt, true) =>
      if receipt.executionID = [] then .ok none
      else if firstNonEmpty [receipt.receiptHash, receipt.hash] = [] then .ok none
      else .ok (some (receipt.record args))

structure LineageRow where
  (executionID transactionID transactionHash agentID : Text)
  (cpuTimeMs wallTimeMs memoryPeakMB fsBytesWritten toolCalls : Int)
  violationOccurred : Bool
  (receiptHash previousHash signature : Text)
  (runtimeID tenantID : Option Text)
  timestampUTC : Int
  (status promptPreview violationDetails : Option Text)
  persistedAt : Int
deriving DecidableEq

def nullIfEmpty (t : Text) : Option Text := if t = [] then none else some t

def LineageRecord.row (r : LineageRecord) (now : Int) : LineageRow where
  executionID := r.executionID
  transactionID := r.transactionID
  transactionHash := r.transactionHash
  agentID := r.agentID
  cpuTimeMs := r.cpuTimeMs
  wallTimeMs := r.wallTimeMs
  memoryPeakMB := r.memoryPeakMB
  fsBytesWritten := r.fsBytesWritten
  toolCalls := r.toolCalls
  violationOccurred := r.violationOccurred
  receiptHash := r.receiptHash
  previousHash := r.previousHash
  signature := r.signature
  runtimeID := nullIfEmpty r.runtimeID
  tenantID := nullIfEmpty r.tenantID
  -- the zero time stands for the present
  timestampUTC := Instant.toMicros (if r.timestampUTC = 0 then now else r.timestampUTC)
  status := nullIfEmpty r.status
  promptPreview := nullIfEmpty r.promptPreview
  violationDetails := r.violationDetails
  persistedAt := now

/-- `ON CONFLICT (execution_id) DO UPDATE`: there is no condition on the tenant. -/
def LineageRow.merge (old excluded : LineageRow) : LineageRow where
  executionID := old.executionID
  transactionID := (nullIfEmpty excluded.transactionID).getD old.transactionID
  transactionHash := (nullIfEmpty excluded.transactionHash).getD old.transactionHash
  agentID := (nullIfEmpty excluded.agentID).getD old.agentID
  cpuTimeMs := excluded.cpuTimeMs
  wallTimeMs := excluded.wallTimeMs
  memoryPeakMB := excluded.memoryPeakMB
  fsBytesWritten := excluded.fsBytesWritten
  toolCalls := excluded.toolCalls
  violationOccurred := excluded.violationOccurred
  receiptHash := excluded.receiptHash
  previousHash := excluded.previousHash
  signature := excluded.signature
  runtimeID := excluded.runtimeID.or old.runtimeID
  tenantID := excluded.tenantID.or old.tenantID
  timestampUTC := excluded.timestampUTC
  status := excluded.status.or old.status
  promptPreview := excluded.promptPreview.or old.promptPreview
  violationDetails := excluded.violationDetails.or old.violationDetails
  persistedAt := excluded.persistedAt

abbrev LineageTable := Table LineageRow.executionID

inductive LedgerError where
  | lineageMissingTenant
  | contextMissingTenant
  | contextTenantMismatch
deriving DecidableEq

def LedgerError.message : LedgerError → String
  | .lineageMissingTenant => "execution lineage record missing tenant_id"
  | .contextMissingTenant => "execution context record missing tenant_id"
  | .contextTenantMismatch => "execution context tenant mismatch"

def saveExecutionLineage (record : Option LineageRecord) (now : Int) (t : LineageTable) :
    Except LedgerError LineageTable :=
  match record with
  | none => .ok t
  | some r =>
    if (Text.trimSpace r.executionID).isEmpty ∨ (Text.trimSpace r.receiptHash).isEmpty then .ok t
    else if (Text.trimSpace r.tenantID).isEmpty then .error .lineageMissingTenant
    else
      match t.get? r.executionID with
      | none => .ok (t.put (r.row now))
      | some old => .ok (t.put (old.merge (r.row now)))

def lineageReading (raw : Text) : Except Unit (Option LineageReceipt) :=
  if raw = [] ∨ raw = "null" ∨ raw = "\x7b\x7d" then .ok none
  else
    match unmarshal lineageReceiptDecoder raw {} with
    | (_, false) => .error ()
    | (receipt, true) =>
      if receipt.executionID = [] ∨ firstNonEmpty [receipt.receiptHash, receipt.hash] = [] then .ok none
      else .ok (some receipt)

theorem build_eq (raw : Text) (args : LineageArgs) :
    buildExecutionLineageRecordFromReceipt raw args = (lineageReading raw).map (Option.map (·.record args)) := by
  unfold buildExecutionLineageRecordFromReceipt lineageReading
  split
  · rfl
  split
  · rfl
  next receipt _ =>
  by_cases hid : receipt.executionID = []
  · rw [if_pos hid, if_pos (.inl hid)]
    rfl
  by_cases hhash : firstNonEmpty [receipt.receiptHash, receipt.hash] = []
  · rw [if_neg hid, if_pos hhash, if_pos (.inr hhash)]
    rfl
  · rw [if_neg hid, if_neg hhash, if_neg (not_or.mpr ⟨hid, hhash⟩)]
    rfl

structure SignedFields where
  (executionID transactionID transactionHash agentID runtimeID : Text)
  (cpuTimeMs wallTimeMs memoryPeakMB fsBytesWritten toolCalls : Int)
  violationOccurred : Bool
  (previousHash signature timestampUTC : Text)
deriving DecidableEq

def LineageReceipt.signedFields (r : LineageReceipt) : SignedFields where
  executionID := r.executionID
  transactionID := r.transactionID
  transactionHash := r.transactionHash
  agentID := r.agentID
  runtimeID := r.runtimeID
  cpuTimeMs := r.cpuTimeMs
  wallTimeMs := r.wallTimeMs
  memoryPeakMB := r.memoryPeakMB
  fsBytesWritten := r.fsBytesWritten
  toolCalls := r.toolCalls
  violationOccurred := r.violationOccurred
  previousHash := r.previousHash
  signature := r.signature
  timestampUTC := r.timestampUTC

def signedCounter (receipt : Receipt) (key : String) : Int :=
  (parseInt 64 (receiptFieldString receipt key.toList)).getD 0

def Receipt.signedFields (receipt : Receipt) : SignedFields where
  executionID := receiptFieldString receipt "execution_id"
  transactionID := receiptFieldString receipt "transaction_id"
  transactionHash := receiptFieldString receipt "transaction_hash"
  agentID := receiptFieldString receipt "agent_id"
  runtimeID := receiptFieldString receipt "runtime_id"
  cpuTimeMs := signedCounter receipt "cpu_time_ms"
  wallTimeMs := signedCounter receipt "wall_time_ms"
  memoryPeakMB := signedCounter receipt "memory_peak_mb"
  fsBytesWritten := signedCounter receipt "fs_bytes_written"
  toolCalls := signedCounter receipt "tool_calls"
  violationOccurred := receiptFieldString receipt "violation_occurred" = "true"
  previousHash := receiptFieldString receipt "previous_hash"
  signature := receipt.string "signature"
  timestampUTC := receiptFieldString receipt "timestamp_utc"

def SignedFields.kept (f : SignedFields) (args : LineageArgs) : SignedFields × Int :=
  ({ f with
    agentID := firstNonEmpty [f.agentID, args.tenantID]
    runtimeID := firstNonEmpty [f.runtimeID, args.runtimeID]
    timestampUTC := [] }, receiptTimestamp args.now f.timestampUTC)

def LineageReceipt.unsignedFields (r : LineageReceipt) : Text × Option Text :=
  (firstNonEmpty [r.receiptHash, r.hash], violationDetails r.violationOccurred r.violation)

theorem record_eq_iff (r r' : LineageReceipt) (args : LineageArgs) :
    r.record args = r'.record args ↔
      r.signedFields.kept args = r'.signedFields.kept args ∧ r.unsignedFields = r'.unsignedFields := by
  simp only [LineageReceipt.record, SignedFields.kept, LineageReceipt.signedFields, LineageReceipt.unsignedFields,
    LineageRecord.mk.injEq, SignedFields.mk.injEq, Prod.mk.injEq]
  constructor
  · rintro ⟨h1, h2, h3, h4, h5, h6, h7, h8, h9, h10, h11, h12, h13, h14, -, h15, -, -, h16⟩
    exact ⟨⟨⟨h1, h2, h3, h4, h14, h5, h6, h7, h8, h9, h10, h12, h13, trivial⟩, h15⟩, h11, h16⟩
  · rintro ⟨⟨⟨h1, h2, h3, h4, h14, h5, h6, h7, h8, h9, h10, h12, h13, -⟩, h15⟩, h11, h16⟩
    exact ⟨h1, h2, h3, h4, h5, h6, h7, h8, h9, h10, h11, h12, h13, h14, trivial, h15, by rw [h10], trivial, h16⟩

theorem Receipt.signedFields_congr {receipt receipt' : Receipt}
    (h : ∀ k ∈ receiptKeys, receiptFieldString receipt k.1 = receiptFieldString receipt' k.1)
    (hsignature : receipt.string "signature" = receipt'.string "signature") :
    receipt.signedFields = receipt'.signedFields := by
  simp only [receiptKeys, List.forall_mem_cons] at h
  obtain ⟨h1, h2, h3, h4, h5, h6, h7, h8, h9, h10, h11, h12, h13, -⟩ := h
  unfold Receipt.signedFields signedCounter
  rw [h1, h2, h3, h4, h5, h6, h7, h8, h9, h10, h11, h12, h13, hsignature]

/-- The ledger reads the two receipts alike: it refuses both or passes over both; or it finds one hash and
one violation in them, and reads the signed fields as they were signed, or at least as each other. -/
def ReadAlike (args : LineageArgs) (raw raw' : Text) : Prop :=
  match lineageReading raw, lineageReading raw' with
  | .error _, .error _ => True
  | .ok none, .ok none => True
  | .ok (some r), .ok (some r') =>
    r.unsignedFields = r'.unsignedFields ∧
      ((r.signedFields = (receiptOf raw).signedFields ∧ r'.signedFields = (receiptOf raw').signedFields) ∨
        r.signedFields.kept args = r'.signedFields.kept args)
  | _, _ => False

theorem digest_eq_of_verified {scheme : SignatureScheme} {publicKey : List UInt8} {receipt receipt' : Receipt}
    (hkey : publicKey ≠ []) (hverified : verifyReceipt scheme publicKey receipt = .ok ())
    (hverified' : verifyReceipt scheme publicKey receipt' = .ok ())
    (hsignature : receipt.string "signature" = receipt'.string "signature")
    (hbinds : ∀ signature, scheme.verify publicKey (receiptDigest receipt) signature = true →
      scheme.verify publicKey (receiptDigest receipt') signature = true →
        receiptDigest receipt = receiptDigest receipt') :
    receiptDigest receipt = receiptDigest receipt' := by
  obtain ⟨signature, -, hdecode, hverify, -⟩ := verifyReceipt_ok hkey hverified
  obtain ⟨signature', -, hdecode', hverify', -⟩ := verifyReceipt_ok hkey hverified'
  rw [hsignature, hdecode'] at hdecode
  obtain rfl := Option.some.inj hdecode
  exact hbinds signature' hverify hverify'

def sampleReceipt (unsigned : List String) : Text :=
  (["\x7b\"execution_id\":", "\"exec-1\",", "\"violation_occurred\"", ":true,"] ++ unsigned ++
    ["\"signature\":\"", "mYd2P37zQc9xlOzM", "nm4Py3Z9bAFDLEh/", "NKR7nKqXSvwAAAAA", "AAAAAAAAAAAAAAAA", "AAAAAAAAAAAAAAAA",
      "AAAAAA==\"\x7d"]).flatMap String.toList

def sampleArgs : LineageArgs where
  tenantID := "tenant-a"
  runtimeID := "runtime-1"
  status := "completed"
  promptPreview := []
  now := 0
  toUpper := List.map Char.toUpper

end Overture
