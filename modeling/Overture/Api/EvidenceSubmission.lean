import Overture.Api.EvidenceEvents

/-!
# Submitted evidence

The envelope of a batch of events: strict decoding, the bounds on its parts, and the identity
of the batch, which commits to the bytes that were submitted.
-/

namespace Overture

open Json
open Except (ensure need exists_of_bind_ok ok_of_bind_ok)

def evidenceMaxBodyBytes : Nat := 1048576

def evidenceMaxEvents : Nat := 500

def evidenceMaxEventBytes : Nat := 64 * 1024

def evidenceMaxKeyPEMBytes : Nat := 4096

def evidenceMaxDepth : Nat := 64

structure ContractValidationError where
  status : Nat
  code : String
  detail : Text

def invalidBody (detail : String) : ContractValidationError := ⟨400, "invalid_body", detail.toList⟩

def validationFailed (detail : String) : ContractValidationError := ⟨422, "validation_failed", detail.toList⟩

structure EvidenceSubmission where
  (keyID publicKeyPEM : Text)
  firstPrev : Option Text
  events : List EvidenceEvent
  contentHash : Text

mutual

def jsonDepth (depth : Nat) : Doc Text → Nat
  | .obj fields =>
    if depth > evidenceMaxDepth then depth
    else ((mapEntries (fieldDepths (depth + 1) fields)).map Prod.snd).foldl max (depth + 1)
  | .arr items => if depth > evidenceMaxDepth then depth else (itemDepths (depth + 1) items).foldl max (depth + 1)
  | _ => depth

def itemDepths (depth : Nat) : Docs Text → List Nat
  | .nil => []
  | .cons d rest => jsonDepth depth d :: itemDepths depth rest

def fieldDepths (depth : Nat) : DocMap Text → List (Text × Nat)
  | .nil => []
  | .cons key d rest => (key, jsonDepth depth d) :: fieldDepths depth rest

end

def evidenceContentHash (keyID : Text) (eventByteHashes : List Text) : Text :=
  CanonicalJson.sha256Hex (Utf8.encode
    ("igris-evidence-batch:v1:" ++ keyID ++ ":" ++ List.intercalate "," eventByteHashes))

def unexpectedField (allowed : List Text) (fields : DocMap Text) : Option Text :=
  (fields.toList.map Prod.fst).find? fun key => !allowed.contains key

def refuseField (prose : String) : Option Text → Except ContractValidationError Unit
  | none => .ok ()
  | some key => .error ⟨422, "validation_failed", prose.toList ++ key⟩

def submittedFirstPrev (segment : DocMap Text) : Except ContractValidationError (Option Text) :=
  match segment.get? "first_previous_event_hash" with
  | none | some .null => .ok none
  | some (.str value) =>
    if contractHashPattern value = true then .ok (some value)
    else .error (validationFailed "first_previous_event_hash must be null or 64 lowercase hex chars")
  | some _ => .error (validationFailed "first_previous_event_hash must be null or a string")

/-- The predecessor an event names when anything but a string counts as none. -/
def claimedPrevious (event : EvidenceEvent) : Option Text := event.text? previousKey

def readSubmittedEvent (firstPrev : Option Text) (index : Nat) (raw : Doc Text) :
    Except ContractValidationError (EvidenceEvent × Text) := do
  let event ← need (validationFailed "events entries must be objects")
    (match raw with | .obj fields => some fields | _ => none)
  refuseField "events must not carry "
    (["tenant_id".toList, "execution_provenance".toList].find? fun key => (event.get? key).isSome)
  ensure (validationFailed "event nesting exceeds maximum depth") (decide (jsonDepth 0 (.obj event) ≤ evidenceMaxDepth))
  let encoded ← need (validationFailed "an event exceeds the per-event size limit")
    ((CanonicalJson.encode (some event)).filter fun bytes => decide (bytes.length ≤ evidenceMaxEventBytes))
  ensure (validationFailed "every event must carry a 64-hex event_hash")
    ((event.text? "event_hash".toList).any contractHashPattern)
  ensure (validationFailed "first_previous_event_hash must equal events[0].previous_event_hash")
    (index != 0 || claimedPrevious event == firstPrev)
  return (event, CanonicalJson.sha256Hex encoded)

def readSubmittedEvents (firstPrev : Option Text) :
    Nat → List (Doc Text) → Except ContractValidationError (List (EvidenceEvent × Text))
  | _, [] => .ok []
  | index, raw :: rest => do
    let event ← readSubmittedEvent firstPrev index raw
    let events ← readSubmittedEvents firstPrev (index + 1) rest
    return event :: events

def readSubmission (fields : DocMap Text) : Except ContractValidationError EvidenceSubmission := do
  refuseField "unexpected request field: "
    (unexpectedField ["key_id", "public_key_pem", "journal_segment"] fields)
  let keyID := (fields.text? "key_id").getD []
  ensure (validationFailed "key_id must match ed25519:<16 hex>") (evidenceKeyIDPattern keyID)
  let publicKeyPEM := (fields.text? "public_key_pem").getD []
  ensure (validationFailed "public_key_pem must be a PEM string of at most 4096 bytes")
    (!publicKeyPEM.isEmpty && decide ((Utf8.encode publicKeyPEM).length ≤ evidenceMaxKeyPEMBytes))
  let segment ← need (invalidBody "journal_segment must be a JSON object")
    (match fields.get? "journal_segment" with | some (.obj segment) => some segment | _ => none)
  refuseField "unexpected journal_segment field: "
    (unexpectedField ["first_previous_event_hash", "events"] segment)
  let firstPrev ← submittedFirstPrev segment
  let eventsRaw ← need (validationFailed "journal_segment.events must be a non-empty array")
    (match segment.get? "events" with | some (.arr items) => some items.toList | _ => none)
  ensure (validationFailed "journal_segment.events must be a non-empty array") (!eventsRaw.isEmpty)
  ensure (validationFailed "journal_segment.events exceeds 500 entries") (decide (eventsRaw.length ≤ evidenceMaxEvents))
  let events ← readSubmittedEvents firstPrev 0 eventsRaw
  return {
    keyID, publicKeyPEM, firstPrev
    events := events.map Prod.fst
    contentHash := evidenceContentHash keyID (events.map Prod.snd) }

def decodeEvidenceSubmission (body : List UInt8) : Except ContractValidationError EvidenceSubmission := do
  let request ← need (invalidBody "request must be a JSON object") (CanonicalJson.decodeObjectPreserving body)
  readSubmission (request.getD .nil)

theorem length_readSubmittedEvents {firstPrev : Option Text} {index : Nat} {raws : List (Doc Text)}
    {events : List (EvidenceEvent × Text)} (h : readSubmittedEvents firstPrev index raws = .ok events) :
    events.length = raws.length := by
  induction raws generalizing index events with
  | nil =>
    obtain rfl := Except.ok.inj h
    rfl
  | cons raw raws ih =>
    rw [readSubmittedEvents] at h
    obtain ⟨event, -, h⟩ := exists_of_bind_ok h
    obtain ⟨rest, hrest, h⟩ := exists_of_bind_ok h
    obtain rfl := Except.ok.inj h
    rw [List.length_cons, List.length_cons, ih hrest]

theorem events_ne_nil {body : List UInt8} {sub : EvidenceSubmission} (h : decodeEvidenceSubmission body = .ok sub) :
    sub.events ≠ [] := by
  rw [decodeEvidenceSubmission] at h
  obtain ⟨request, -, h⟩ := exists_of_bind_ok h
  rw [readSubmission] at h
  obtain ⟨-, h⟩ := ok_of_bind_ok h
  obtain ⟨-, h⟩ := ok_of_bind_ok h
  obtain ⟨-, h⟩ := ok_of_bind_ok h
  obtain ⟨segment, -, h⟩ := exists_of_bind_ok h
  obtain ⟨-, h⟩ := ok_of_bind_ok h
  obtain ⟨firstPrev, -, h⟩ := exists_of_bind_ok h
  obtain ⟨eventsRaw, -, h⟩ := exists_of_bind_ok h
  obtain ⟨hnonempty, h⟩ := ok_of_bind_ok h
  obtain ⟨-, h⟩ := ok_of_bind_ok h
  obtain ⟨events, hevents, h⟩ := exists_of_bind_ok h
  obtain rfl := Except.ok.inj h
  have hlength := length_readSubmittedEvents hevents
  have hraws := Except.ensure_eq_ok.mp hnonempty
  intro hnil
  obtain rfl : events = [] := List.map_eq_nil_iff.mp hnil
  obtain rfl : eventsRaw = [] := List.length_eq_zero_iff.mp hlength.symm
  cases hraws

end Overture
