import Overture.Coordinator.Lineage

/-!
# Verifying a stored receipt again

A receipt that was verified when it came in is rebuilt from the columns of its row. The signed
bytes hold the texts of the fields, so that it verifies again only when every field, as it was
kept, is rendered as the text that was signed.
-/

namespace Overture

open Json Text Table

/-- The columns that the receipt is rebuilt from; the runtime may come from the context of the execution. -/
structure ReceiptVerifyRow where
  (executionID agentID runtimeID transactionID transactionHash : Text)
  (cpuTimeMs wallTimeMs memoryPeakMb fsBytesWritten toolCalls : Int)
  violationOccurred : Bool
  (storedHash previousHash storedSignature : Text)
  timestampUTC : Int

def fetchReceiptVerifyRow (row : LineageRow) (contextRuntime : Option Text) : ReceiptVerifyRow where
  executionID := row.executionID
  agentID := row.agentID
  runtimeID := ((row.runtimeID.bind nullIfEmpty).or (contextRuntime.bind nullIfEmpty)).getD []
  transactionID := row.transactionID
  transactionHash := row.transactionHash
  cpuTimeMs := row.cpuTimeMs
  wallTimeMs := row.wallTimeMs
  memoryPeakMb := row.memoryPeakMB
  fsBytesWritten := row.fsBytesWritten
  toolCalls := row.toolCalls
  violationOccurred := row.violationOccurred
  storedHash := row.receiptHash
  previousHash := row.previousHash
  storedSignature := row.signature
  timestampUTC := row.timestampUTC

def buildReceiptForVerification (row : ReceiptVerifyRow) : Receipt :=
  let text (t : Text) : ReceiptValue := .decoded (.str t)
  let present (key : String) (t : Text) : List (Text × ReceiptValue) := if t = [] then [] else [(key.toList, text t)]
  let fields : List (Text × ReceiptValue) :=
    [("execution_id".toList, text row.executionID), ("agent_id".toList, text row.agentID),
      ("cpu_time_ms", .int64 row.cpuTimeMs), ("wall_time_ms", .int64 row.wallTimeMs),
      ("memory_peak_mb", .int64 row.memoryPeakMb), ("fs_bytes_written", .int64 row.fsBytesWritten),
      ("tool_calls", .int64 row.toolCalls),
      ("violation_occurred", .decoded (.bool row.violationOccurred)),
      ("timestamp_utc", text (Instant.format row.timestampUTC)),
      ("previous_hash", text row.previousHash), ("hash", text row.storedHash),
      ("signature", text row.storedSignature)] ++
    present "runtime_id" row.runtimeID ++ present "transaction_id" row.transactionID ++
      present "transaction_hash" row.transactionHash
  fun key => fields.lookup key

def orOld (t : Text) (old : Option Text) : Text := (nullIfEmpty t).getD (old.getD [])

def keptTexts (r : LineageReceipt) (args : LineageArgs) (now : Int) (old : Option LineageRow)
    (contextRuntime : Option Text) : List (Text × Text) :=
  let timestamp := receiptTimestamp args.now r.timestampUTC
  let runtime := (nullIfEmpty (firstNonEmpty [r.runtimeID, args.runtimeID])).or (old.bind (·.runtimeID))
  [("agent_id", orOld (firstNonEmpty [r.agentID, args.tenantID]) (old.map (·.agentID))),
    ("cpu_time_ms", intLiteral r.cpuTimeMs), ("execution_id", r.executionID),
    ("fs_bytes_written", intLiteral r.fsBytesWritten), ("memory_peak_mb", intLiteral r.memoryPeakMB),
    ("previous_hash", r.previousHash),
    ("runtime_id", ((runtime.bind nullIfEmpty).or (contextRuntime.bind nullIfEmpty)).getD []),
    ("timestamp_utc", Instant.format (Instant.toMicros (if timestamp = 0 then now else timestamp))),
    ("tool_calls", intLiteral r.toolCalls),
    ("transaction_hash", orOld r.transactionHash (old.map (·.transactionHash))),
    ("transaction_id", orOld r.transactionID (old.map (·.transactionID))),
    ("violation_occurred", if r.violationOccurred then "true" else "false"),
    ("wall_time_ms", intLiteral r.wallTimeMs)]

def storedRow (record : LineageRecord) (now : Int) (old : Option LineageRow) : LineageRow :=
  match old with
  | none => record.row now
  | some old => old.merge (record.row now)

theorem saveExecutionLineage_row {record : LineageRecord} {now : Int} {t after : LineageTable}
    (hid : (trimSpace record.executionID).isEmpty = false)
    (hhash : (trimSpace record.receiptHash).isEmpty = false)
    (h : saveExecutionLineage (some record) now t = .ok after) :
    after.get? record.executionID = some (storedRow record now (t.get? record.executionID)) := by
  unfold saveExecutionLineage at h
  dsimp only at h
  rw [if_neg (by simp [hid, hhash])] at h
  split at h
  · cases h
  split at h
  · next hget =>
    cases h
    have hkey : (record.row now).executionID = record.executionID := rfl
    rw [get?_put, if_pos hkey, hget]
    rfl
  next old hget =>
  cases h
  have hkey : (old.merge (record.row now)).executionID = record.executionID :=
    (key_of_get? hget : old.executionID = record.executionID)
  rw [get?_put, if_pos hkey, hget]
  rfl

def ReceiptVerifyRow.texts (row : ReceiptVerifyRow) : List (Text × Text) :=
  [("agent_id", row.agentID), ("cpu_time_ms", intLiteral row.cpuTimeMs),
    ("execution_id", row.executionID), ("fs_bytes_written", intLiteral row.fsBytesWritten),
    ("memory_peak_mb", intLiteral row.memoryPeakMb), ("previous_hash", row.previousHash),
    ("runtime_id", row.runtimeID), ("timestamp_utc", Instant.format row.timestampUTC),
    ("tool_calls", intLiteral row.toolCalls), ("transaction_hash", row.transactionHash),
    ("transaction_id", row.transactionID),
    ("violation_occurred", if row.violationOccurred then "true" else "false"),
    ("wall_time_ms", intLiteral row.wallTimeMs)]

theorem texts_storedRow (r : LineageReceipt) (args : LineageArgs) (now : Int) {old : Option LineageRow}
    (hold : ∀ row, old = some row → row.executionID = r.executionID) (contextRuntime : Option Text) :
    (fetchReceiptVerifyRow (storedRow (r.record args) now old) contextRuntime).texts =
      keptTexts r args now old contextRuntime := by
  have horOld (t : Text) : orOld t none = t := by
    rw [orOld, nullIfEmpty]
    split_ifs with h
    · exact h.symm
    · rfl
  cases old with
  | none =>
    unfold keptTexts
    rw [Option.map_none, Option.map_none, Option.map_none, horOld, horOld, horOld, Option.bind_none, Option.or_none]
    rfl
  | some row =>
    unfold keptTexts
    rw [← hold row rfl]
    rfl

theorem receiptFieldString_build (row : ReceiptVerifyRow) :
    ∀ e ∈ row.texts, receiptFieldString (buildReceiptForVerification row) e.1 = e.2 := by
  simp only [ReceiptVerifyRow.texts, List.forall_mem_cons]
  obtain ⟨_, _, runtime, transaction, hash, _, _, _, _, _, violation, _, _, _, _⟩ := row
  refine ⟨rfl, rfl, rfl, rfl, rfl, rfl, ?_, rfl, rfl, ?_, ?_, ?_, rfl, by simp⟩
  · cases runtime <;> cases transaction <;> cases hash <;> rfl
  · cases runtime <;> cases transaction <;> cases hash <;> rfl
  · cases runtime <;> cases transaction <;> cases hash <;> rfl
  · cases violation <;> rfl

def textOf (texts : List (Text × Text)) (key : Text) : Text := (texts.lookup key).getD []

theorem textOf_texts (row : ReceiptVerifyRow) :
    ∀ k ∈ receiptKeys, textOf row.texts k.1 = receiptFieldString (buildReceiptForVerification row) k.1 := by
  have h := receiptFieldString_build row
  simp only [ReceiptVerifyRow.texts, List.forall_mem_cons] at h
  simp only [receiptKeys, List.forall_mem_cons]
  obtain ⟨h1, h2, h3, h4, h5, h6, h7, h8, h9, h10, h11, h12, h13, -⟩ := h
  exact ⟨h1.symm, h2.symm, h3.symm, h4.symm, h5.symm, h6.symm, h7.symm, h8.symm, h9.symm, h10.symm, h11.symm,
    h12.symm, h13.symm, by simp⟩

theorem receiptDigest_build (row : ReceiptVerifyRow) :
    receiptDigest (buildReceiptForVerification row) = Sha256.sum256 (canonicalFieldBytes (textOf row.texts)) := by
  rw [receiptDigest, canonicalReceiptBytes, ← canonicalFieldBytes_eq_iff.mpr (textOf_texts row)]

def SignedAsKept (scheme : SignatureScheme) (publicKey : List UInt8) (r : LineageReceipt)
    (texts : List (Text × Text)) : Prop :=
  r.signature ≠ [] ∧ firstNonEmpty [r.receiptHash, r.hash] ≠ [] ∧
    Hex.encode (Sha256.sum256 (canonicalFieldBytes (textOf texts))) = firstNonEmpty [r.receiptHash, r.hash] ∧
    ∃ signature, Base64.decode false true r.signature = some signature ∧
      scheme.verify publicKey (Sha256.sum256 (canonicalFieldBytes (textOf texts))) signature = true

/-- The receipt survives its storage: the ledger keeps its hash and signature, and every signed field with
the text that was signed. -/
def Survives (receipt : Receipt) (r : LineageReceipt) (texts : List (Text × Text)) : Prop :=
  r.signature = receipt.string "signature" ∧
    firstNonEmpty [r.receiptHash, r.hash] = receipt.string "hash" ∧
    ∀ k ∈ receiptKeys, textOf texts k.1 = receiptFieldString receipt k.1

variable {scheme : SignatureScheme} {publicKey : List UInt8}

theorem verified_iff_signedAsKept {publicKeyHex : Text}
    (hkey : Hex.decode (trimSpace publicKeyHex) = some publicKey) (hlength : publicKey.length = 32)
    (r : LineageReceipt) (args : LineageArgs) (now : Int) (old : Option LineageRow)
    (hold : ∀ row, old = some row → row.executionID = r.executionID) (contextRuntime : Option Text) :
    (verifyReceiptCryptographic scheme (buildReceiptForVerification
      (fetchReceiptVerifyRow (storedRow (r.record args) now old) contextRuntime)) publicKeyHex).verified = true ↔
      SignedAsKept scheme publicKey r (keptTexts r args now old contextRuntime) := by
  rw [verifyReceiptCryptographic_verified hkey hlength, receiptDigest_build, texts_storedRow r args now hold]
  have hhash : (buildReceiptForVerification
      (fetchReceiptVerifyRow (storedRow (r.record args) now old) contextRuntime)).string "hash" =
        firstNonEmpty [r.receiptHash, r.hash] := by cases old <;> rfl
  have hsignature : (buildReceiptForVerification
      (fetchReceiptVerifyRow (storedRow (r.record args) now old) contextRuntime)).string "signature" =
        r.signature := by cases old <;> rfl
  rw [hhash, hsignature, SignedAsKept]
  tauto

theorem signedAsKept_of_survives {receipt : Receipt}
    {r : LineageReceipt} {texts : List (Text × Text)} (hkey : publicKey ≠ [])
    (hverified : verifyReceipt scheme publicKey receipt = .ok ()) (hhash : receipt.string "hash" ≠ [])
    (h : Survives receipt r texts) : SignedAsKept scheme publicKey r texts := by
  obtain ⟨signature, hne, hdecode, hverify, hdigest⟩ := verifyReceipt_ok hkey hverified
  obtain ⟨hsignature, hkept, hfields⟩ := h
  have hbytes : canonicalFieldBytes (textOf texts) = canonicalReceiptBytes receipt :=
    canonicalFieldBytes_eq_iff.mpr hfields
  rw [SignedAsKept, hsignature, hkept, hbytes]
  exact ⟨hne, hhash, (hdigest hhash).symm, signature, hdecode, hverify⟩

theorem survives_of_signedAsKept {receipt : Receipt}
    {r : LineageReceipt} {texts : List (Text × Text)} (hkey : publicKey ≠ [])
    (hverified : verifyReceipt scheme publicKey receipt = .ok ()) (hhash : receipt.string "hash" ≠ [])
    (hbinds : ∀ signature, scheme.verify publicKey (receiptDigest receipt) signature = true →
      scheme.verify publicKey (Sha256.sum256 (canonicalFieldBytes (textOf texts))) signature = true →
        receiptDigest receipt = Sha256.sum256 (canonicalFieldBytes (textOf texts)))
    (hcollision : receiptDigest receipt = Sha256.sum256 (canonicalFieldBytes (textOf texts)) →
      canonicalReceiptBytes receipt = canonicalFieldBytes (textOf texts))
    (hsignature : r.signature = receipt.string "signature") (h : SignedAsKept scheme publicKey r texts) :
    Survives receipt r texts := by
  obtain ⟨signature, -, hdecode, hverify, hdigest⟩ := verifyReceipt_ok hkey hverified
  obtain ⟨-, -, hkept, signature', hdecode', hverify'⟩ := h
  rw [hsignature, hdecode] at hdecode'
  cases hdecode'
  have hsame := hbinds signature hverify hverify'
  refine ⟨hsignature, ?_, ?_⟩
  · rw [← hkept, ← hsame, hdigest hhash]
  · exact canonicalFieldBytes_eq_iff.mp (hcollision hsame).symm

structure TimedReceipt where
  (timestamp hash signature : List String)

namespace TimedReceipt

def text (t : TimedReceipt) : Text :=
  (["\x7b\"execution_id\":", "\"exec-1\",", "\"agent_id\":\"agent\",", "\"runtime_id\":\"rt\",", "\"cpu_time_ms\":5,",
      "\"wall_time_ms\":7,", "\"memory_peak_mb\":64,", "\"fs_bytes_written\":0,", "\"tool_calls\":1,",
      "\"violation_occurred\"", ":false,", "\"timestamp_utc\":\""] ++ t.timestamp ++ ["\",\"hash\":\""] ++ t.hash ++
    ["\",\"signature\":\""] ++ t.signature ++ ["\"\x7d"]).flatMap String.toList

def fields (t : TimedReceipt) : LineageReceipt where
  executionID := "exec-1"
  agentID := "agent"
  runtimeID := "rt"
  cpuTimeMs := 5
  wallTimeMs := 7
  memoryPeakMB := 64
  toolCalls := 1
  hash := t.hash.flatMap String.toList
  signature := t.signature.flatMap String.toList
  timestampUTC := t.timestamp.flatMap String.toList

def map (t : TimedReceipt) : AnyMap :=
  let num (n : Nat) : Any := .num ((Float64.ofRatio false n 1).getD ⟨false, 0, 0⟩)
  let str (pieces : List String) : Any := .str (pieces.flatMap String.toList)
  AnyMap.cons "agent_id" (str ["agent"]) <| .cons "cpu_time_ms" (num 5) <|
    .cons "execution_id" (str ["exec-1"]) <| .cons "fs_bytes_written" (num 0) <|
    .cons "hash" (str t.hash) <| .cons "memory_peak_mb" (num 64) <|
    .cons "runtime_id" (str ["rt"]) <| .cons "signature" (str t.signature) <|
    .cons "timestamp_utc" (str t.timestamp) <| .cons "tool_calls" (num 1) <|
    .cons "violation_occurred" (.bool false) <| .cons "wall_time_ms" (num 7) .nil

def record (t : TimedReceipt) : LineageRecord := t.fields.record sampleArgs

def precise : TimedReceipt where
  timestamp := ["2024-05-01T10:00:00", ".123456789Z"]
  hash := ["4e8c6ad0d861a53d", "86a5d12fe3819c20", "2092759d5955c2b5", "70489ffe722282d2"]
  signature := ["Toxq0NhhpT2GpdEv", "44GcICCSdZ1ZVcK1", "cEif/nIigtI", "AAAAAAAAAAAAAAAA", "AAAAAAAAAAAAAAAA",
    "AAAAAAAAAAA=="]

def plain : TimedReceipt where
  timestamp := ["2024-05-01T10:00:00", ".5Z"]
  hash := ["5328ba87a783912a", "3f46497710057cf4", "17a42788a62b9bda", "20bf1a444de7e4d0"]
  signature := ["Uyi6h6eDkSo/Rkl3", "EAV89BekJ4imK5va", "IL8aRE3n5NA", "AAAAAAAAAAAAAAAA", "AAAAAAAAAAAAAAAA",
    "AAAAAAAAAAA=="]

end TimedReceipt

def echoKeyHex : Text := Hex.encode (echoScheme.publicKey ())

theorem save_empty {record : LineageRecord} (hid : (trimSpace record.executionID).isEmpty = false)
    (hhash : (trimSpace record.receiptHash).isEmpty = false)
    (htenant : (trimSpace record.tenantID).isEmpty = false) (now : Int) :
    saveExecutionLineage (some record) now empty = .ok (empty.put (record.row now)) := by
  have hnone : (empty : LineageTable).get? record.executionID = none := rfl
  simp [saveExecutionLineage, hid, hhash, htenant, hnone]

theorem first_row {record : LineageRecord} (hid : (trimSpace record.executionID).isEmpty = false)
    (hhash : (trimSpace record.receiptHash).isEmpty = false)
    (htenant : (trimSpace record.tenantID).isEmpty = false) (now : Int) :
    ((empty : LineageTable).put (record.row now)).get? record.executionID = some (storedRow record now none) :=
  saveExecutionLineage_row hid hhash (save_empty hid hhash htenant now)

end Overture
