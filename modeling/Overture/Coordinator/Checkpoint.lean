import Overture.Lib.Json.Any
import Overture.Lib.Uuid
import Overture.Lib.Time

/-!
# Checkpoints and their write-ahead-log entries

The payload a runtime pushes at a checkpoint, and the tests the coordinator makes on it
before it stores the payload or hands it to another runtime. Pointers to payloads are
optional values, the nil pointer being none.
-/

namespace Overture

structure ResumeToken where
  lastCommittedStep : UInt32
  (checkpointDigest runtimeID : Text)

structure WalEntry where
  (entryID taskID : Uuid)
  stepIndex : UInt32
  stepType : Json.Any
  (status inputDigest : Text)
  outputDigest : Option Text
  timestampMs : UInt64
  runtimeID : Text
  signature : Option Text

/-- The metadata is a raw message, empty when there is none. -/
structure CheckpointPayload where
  taskID : Uuid
  resumeToken : ResumeToken
  walEntries : List WalEntry
  metadata : Text
  capturedAt : Time

def CheckpointPayload.watermark (cp : CheckpointPayload) : UInt32 := cp.resumeToken.lastCommittedStep

def normalizeWalStatus (status : Text) : Text := Text.toLower (Text.trimSpace status)

def WalEntry.committed (e : WalEntry) : Bool := normalizeWalStatus e.status == "committed"

def taskCheckpointAdvances (current next : Option CheckpointPayload) : Bool :=
  match next, current with
  | none, _ => false
  | some _, none => true
  | some next, some current => next.watermark > current.watermark

def maxStepWithin (watermark : UInt32) : UInt32 → List WalEntry → Option UInt32
  | maxStep, [] => some maxStep
  | maxStep, e :: rest =>
    if e.stepIndex > watermark then none
    else maxStepWithin watermark (if e.stepIndex > maxStep then e.stepIndex else maxStep) rest

def taskCheckpointWatermarkConsistent (cp : Option CheckpointPayload) : Bool :=
  match cp with
  | none => false
  | some cp =>
    if cp.walEntries.isEmpty then cp.watermark == 0
    else maxStepWithin cp.watermark 0 cp.walEntries == some cp.watermark

def taskCheckpointEntriesBelongToTask (cp : Option CheckpointPayload) : Bool :=
  match cp with
  | none => false
  | some cp => cp.taskID != Uuid.nil && cp.walEntries.all fun e => e.taskID == cp.taskID

def taskCheckpointEntriesHaveStableIDs (cp : Option CheckpointPayload) : Bool :=
  match cp with
  | none => false
  | some cp => cp.walEntries.all fun e => e.entryID != Uuid.nil

def taskRecoveryCheckpointUsable (taskID : Uuid) (cp : Option CheckpointPayload) : Bool :=
  match cp with
  | none => false
  | some p =>
    taskID != Uuid.nil && p.taskID == taskID && taskCheckpointWatermarkConsistent cp &&
      taskCheckpointEntriesBelongToTask cp && taskCheckpointEntriesHaveStableIDs cp

theorem taskCheckpointAdvances_iff {current next : CheckpointPayload} :
    taskCheckpointAdvances (some current) (some next) = true ↔ current.watermark < next.watermark := by
  simp [taskCheckpointAdvances]

end Overture
