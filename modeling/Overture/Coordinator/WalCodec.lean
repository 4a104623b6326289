import Overture.Lib.Json.Decode
import Overture.Coordinator.Checkpoint

/-!
# The JSON codec of checkpoints

`WalEntry` has its own codec: a digest that is 32 hexadecimal bytes is written in base64, a
status under the name the runtime uses for it, and the reader takes several spellings of
both. A raw message is the subtree of the document it was cut from.
-/

namespace Overture

open Json

/-! ## Writing -/

def marshalText (t : Text) : Value := .str (quote t)

def marshalUint (n : Nat) : Value := .num (Nat.toDigits 10 n)

def marshalBytes (bytes : List UInt8) : Value := marshalText (Base64.encode bytes)

def marshalHexByteArrayField (value : Text) (expectedLen : Nat) : Value :=
  let trimmed := Text.trimSpace value
  if trimmed.isEmpty then marshalText trimmed
  else
    match Hex.decode trimmed with
    | some decoded =>
      if expectedLen > 0 && decoded.length != expectedLen then marshalText trimmed
      else marshalBytes decoded
    | none => marshalText trimmed

def marshalBinaryArrayField (value : Text) : Value :=
  match Base64.decode false true value with
  | some decoded => marshalBytes decoded
  | none => marshalText value

def marshalWalStatusField (status : Text) : Text :=
  let s := normalizeWalStatus status
  if s == "intent" then "Intent"
  else if s == "executing" then "Executing"
  else if s == "committed" || s == "completed" then "Committed"
  else if s == "failed" then "Failed"
  else status

def omitEmpty (key : String) (v : Option Value) : List (Text × Value) :=
  match v with
  | some v => [(key.toList, v)]
  | none => []

/-- `WalEntry.MarshalJSON`: none when the step type has no JSON form. -/
def marshalWalEntry (e : WalEntry) : Option Value :=
  e.stepType.toValue.map fun stepType =>
    Value.object
      ([("entry_id".toList, marshalText e.entryID.toText), ("task_id".toList, marshalText e.taskID.toText),
        ("step_index".toList, marshalUint e.stepIndex.toNat), ("step_type".toList, stepType),
        ("status".toList, marshalText (marshalWalStatusField e.status)),
        ("input_digest".toList, marshalHexByteArrayField e.inputDigest 32)] ++
      omitEmpty "output_digest" (e.outputDigest.map fun d => marshalHexByteArrayField d 32) ++
      [("timestamp_ms".toList, marshalUint e.timestampMs.toNat), ("runtime_id".toList, marshalText e.runtimeID)] ++
      omitEmpty "signature" (e.signature.map marshalBinaryArrayField))

def marshalWalEntries : List WalEntry → Option (List Value)
  | [] => some []
  | e :: rest =>
    match marshalWalEntry e, marshalWalEntries rest with
    | some v, some vs => some (v :: vs)
    | _, _ => none

def marshalResumeToken (token : ResumeToken) : Value :=
  Value.object
    [("last_committed_step", marshalUint token.lastCommittedStep.toNat),
      ("checkpoint_digest", marshalText token.checkpointDigest),
      ("runtime_id", marshalText token.runtimeID)]

/-- Metadata that is no document cannot be written. Its white space is kept here; the columns it is stored
in have none. -/
def marshalMetadata (raw : Text) : Option (Option Value) :=
  if raw.isEmpty then some none else (parse raw).map some

def marshalCheckpointPayload (cp : CheckpointPayload) : Option Value :=
  match marshalWalEntries cp.walEntries, marshalMetadata cp.metadata with
  | some entries, some metadata =>
    some (Value.object
      ([("task_id".toList, marshalText cp.taskID.toText), ("resume_token".toList, marshalResumeToken cp.resumeToken),
        ("wal_entries", Value.array entries)] ++ omitEmpty "metadata" metadata ++
      [("captured_at".toList, .str cp.capturedAt.print)]))
  | _, _ => none

/-! ## Reading -/

/-- The bytes of a JSON array of numbers, as `encoding/json` reads them into a byte slice. -/
def unmarshalByteArray (v : Value) : Option (List UInt8) :=
  let out := Decoder.slice 0 (Decoder.uint 8) v Slice.empty
  if out.2 then some (out.1.toList.map UInt8.ofNat) else none

def decodeBase64ByteArrayField (value : Text) (expectedLen : Nat) : Option (List UInt8) :=
  let trimmed := Text.trimSpace value
  if trimmed.isEmpty then none
  else
    let fits (decoded : List UInt8) := expectedLen == 0 || decoded.length == expectedLen
    [(false, true), (false, false), (true, true), (true, false)].findSome? fun enc =>
      (Base64.decode enc.1 enc.2 trimmed).filter fits

def unmarshalHexText (value : Text) (expectedLen : Nat) : Text :=
  if value.isEmpty then []
  else if (Hex.decode value).any fun decoded => expectedLen == 0 || decoded.length == expectedLen then
    Text.toLower value
  else
    match decodeBase64ByteArrayField value expectedLen with
    | some decoded => Hex.encode decoded
    | none => Text.toLower value

def unmarshalHexByteArrayField (data : Option Value) (expectedLen : Nat) : Option Text :=
  match data with
  | none => some []
  | some .null => some []
  | some (.str raw) => some (unmarshalHexText (unquote raw) expectedLen)
  | some v =>
    match unmarshalByteArray v with
    | some raw => if expectedLen > 0 && raw.length != expectedLen then none else some (Hex.encode raw)
    | none => none

def unmarshalOptionalHexByteArrayField (data : Option Value) (expectedLen : Nat) : Option (Option Text) :=
  match data with
  | none => some none
  | some .null => some none
  | some v => (unmarshalHexByteArrayField (some v) expectedLen).map some

def unmarshalOptionalBinaryArrayField (data : Option Value) : Option (Option Text) :=
  match data with
  | none => some none
  | some .null => some none
  | some (.str raw) => some (some (unquote raw))
  | some v => (unmarshalByteArray v).map fun raw => some (Base64.encode raw)

def objectKeys : Value → List Text
  | .obj members => members.toList.map fun m => unquote m.1
  | _ => []

/-- An object stands for one of its keys, whichever the map yields first; `pick` says which. -/
def unmarshalWalStatusField (pick : Nat) (data : Option Value) : Text :=
  match data with
  | some (.str raw) => normalizeWalStatus (unquote raw)
  | some v =>
    match (objectKeys v)[pick % (objectKeys v).length]? with
    | some key => normalizeWalStatus key
    | none => []
  | none => []

def decodeUuid : Decoder Uuid
  | .str raw, old =>
    match Uuid.parse (unquote raw) with
    | some u => (u, true)
    | none => (old, false)
  | .null, old => (old, true)
  | _, old => (old, false)

/-- `Time.UnmarshalJSON` reads the inside of the string as it is written. -/
def decodeTime : Decoder Time
  | .str raw, old =>
    match Time.parse raw with
    | some t => (t, true)
    | none => (old, false)
  | .null, old => (old, true)
  | _, old => (old, false)

structure WalEntryJSON where
  entryID : Uuid := Uuid.nil
  taskID : Uuid := Uuid.nil
  stepIndex : Nat := 0
  stepType : Any := .null
  status : Option Value := none
  inputDigest : Option Value := none
  outputDigest : Option Value := none
  timestampMs : Nat := 0
  runtimeID : Text := []
  signature : Option Value := none

def walEntryFields : List (StructField WalEntryJSON) :=
  [StructField.of "entry_id" (·.entryID) (fun s x => { s with entryID := x }) decodeUuid,
    StructField.of "task_id" (·.taskID) (fun s x => { s with taskID := x }) decodeUuid,
    StructField.of "step_index" (·.stepIndex) (fun s x => { s with stepIndex := x }) (Decoder.uint 32),
    StructField.of "step_type" (·.stepType) (fun s x => { s with stepType := x }) Decoder.any,
    StructField.of "status" (·.status) (fun s x => { s with status := x }) Decoder.raw,
    StructField.of "input_digest" (·.inputDigest) (fun s x => { s with inputDigest := x }) Decoder.raw,
    StructField.of "output_digest" (·.outputDigest) (fun s x => { s with outputDigest := x }) Decoder.raw,
    StructField.of "timestamp_ms" (·.timestampMs) (fun s x => { s with timestampMs := x }) (Decoder.uint 64),
    StructField.of "runtime_id" (·.runtimeID) (fun s x => { s with runtimeID := x }) Decoder.text,
    StructField.of "signature" (·.signature) (fun s x => { s with signature := x }) Decoder.raw]

def WalEntryJSON.toWalEntry (pick : Nat) (decoded : WalEntryJSON) : Option WalEntry :=
  match unmarshalHexByteArrayField decoded.inputDigest 32,
    unmarshalOptionalHexByteArrayField decoded.outputDigest 32,
    unmarshalOptionalBinaryArrayField decoded.signature with
  | some inputDigest, some outputDigest, some signature =>
    some {
      entryID := decoded.entryID
      taskID := decoded.taskID
      stepIndex := UInt32.ofNat decoded.stepIndex
      stepType := decoded.stepType
      status := unmarshalWalStatusField pick decoded.status
      inputDigest := inputDigest
      outputDigest := outputDigest
      timestampMs := UInt64.ofNat decoded.timestampMs
      runtimeID := decoded.runtimeID
      signature := signature }
  | _, _, _ => none

def unmarshalWalEntry (pick : Nat) (v : Value) : Option WalEntry :=
  let out := Decoder.struct walEntryFields v {}
  if out.2 then out.1.toWalEntry pick else none

def zeroWalEntry : WalEntry := ⟨Uuid.nil, Uuid.nil, 0, .null, [], [], none, 0, [], none⟩

def zeroResumeToken : ResumeToken := ⟨0, [], []⟩

def decodeWalEntry (pick : Nat) : Decoder WalEntry := fun v old =>
  match unmarshalWalEntry pick v with
  | some e => (e, true)
  | none => (old, false)

def resumeTokenFields : List (StructField ResumeToken) :=
  [StructField.of "last_committed_step" (·.lastCommittedStep.toNat)
      (fun s x => { s with lastCommittedStep := UInt32.ofNat x }) (Decoder.uint 32),
    StructField.of "checkpoint_digest" (·.checkpointDigest) (fun s x => { s with checkpointDigest := x }) Decoder.text,
    StructField.of "runtime_id" (·.runtimeID) (fun s x => { s with runtimeID := x }) Decoder.text]

structure CheckpointPayloadJSON where
  taskID : Uuid := Uuid.nil
  resumeToken : ResumeToken := zeroResumeToken
  walEntries : Slice WalEntry := Slice.empty
  metadata : Option Value := none
  capturedAt : Time := Time.zero

def checkpointFields (pick : Nat) : List (StructField CheckpointPayloadJSON) :=
  [StructField.of "task_id" (·.taskID) (fun s x => { s with taskID := x }) decodeUuid,
    StructField.of "resume_token" (·.resumeToken) (fun s x => { s with resumeToken := x })
      (Decoder.struct resumeTokenFields),
    StructField.of "wal_entries" (·.walEntries) (fun s x => { s with walEntries := x })
      (Decoder.slice zeroWalEntry (decodeWalEntry pick)),
    StructField.of "metadata" (·.metadata) (fun s x => { s with metadata := x }) Decoder.raw,
    StructField.of "captured_at" (·.capturedAt) (fun s x => { s with capturedAt := x }) decodeTime]

def CheckpointPayloadJSON.toPayload (decoded : CheckpointPayloadJSON) : CheckpointPayload where
  taskID := decoded.taskID
  resumeToken := decoded.resumeToken
  walEntries := decoded.walEntries.toList
  metadata := (decoded.metadata.map Value.print).getD []
  capturedAt := decoded.capturedAt

def unmarshalCheckpointPayload (pick : Nat) (v : Value) : Option CheckpointPayload :=
  let out := Decoder.struct (checkpointFields pick) v {}
  if out.2 then some out.1.toPayload else none

def marshalCheckpoint (cp : CheckpointPayload) : Option Text := (marshalCheckpointPayload cp).map Value.print

def unmarshalCheckpoint (pick : Nat) (t : Text) : Option CheckpointPayload :=
  (parse t).bind (unmarshalCheckpointPayload pick)

/-- Reading a stored checkpoint. The status of a stored entry is a string, so nothing is picked. -/
def decodeCheckpointPayload (cpBytes : Text) : Option CheckpointPayload :=
  if cpBytes.isEmpty then none else unmarshalCheckpoint 0 cpBytes

def walEntriesEquivalent (a b : WalEntry) : Bool :=
  match marshalWalEntry a, marshalWalEntry b with
  | some x, some y => x.print == y.print
  | _, _ => false

end Overture
