import Overture.Lib.Instant
import Overture.Lib.Signature
import Overture.Internal.CanonicalJson

/-!
# Events of the embedded SDK

What the server reads from one signed event: the fields it requires and their shapes, the hash
it recomputes over the event without `event_hash` and `signature`, and the check of the
signature over that digest.
-/

namespace Overture

open Json
open Except (ensure need exists_of_bind_ok ok_of_bind_ok need_eq_ok)

abbrev EvidenceEvent := DocMap Text

def isLowerHex (c : Char) : Bool := c.isDigit || (decide ('a' ≤ c) && decide (c ≤ 'f'))

def contractHashPattern (t : Text) : Bool := t.length == 64 && t.all isLowerHex

def isNameRune (c : Char) : Bool := c.isAlphanum || c == '_' || c == '.' || c == ':' || c == '-'

def contractActionNamePattern : Text → Bool
  | [] => false
  | c :: rest => c.isAlpha && decide (rest.length ≤ 127) && rest.all isNameRune

def contractIdempotencyKeyPattern (t : Text) : Bool :=
  decide (1 ≤ t.length) && decide (t.length ≤ 128) && t.all isNameRune

def evidenceKeyPrefix : Text := "ed25519:"

def evidenceKeyIDPattern (t : Text) : Bool :=
  t.take 8 == evidenceKeyPrefix && t.length == 24 && (t.drop 8).all isLowerHex

inductive EvidenceIssueCode where
  | unknownSchema
  | unknownEventType
  | missingFields
  | invalidField
  | invalidTimestamp
  | chainBreak
  | hashMismatch
  | unknownKey
  | badSignature
  | unknownDecisionReference
  | invalidTransition
deriving DecidableEq

def EvidenceIssueCode.toText : EvidenceIssueCode → Text
  | .unknownSchema => "unknown_schema"
  | .unknownEventType => "unknown_event_type"
  | .missingFields => "missing_fields"
  | .invalidField => "invalid_field"
  | .invalidTimestamp => "invalid_timestamp"
  | .chainBreak => "chain_break"
  | .hashMismatch => "hash_mismatch"
  | .unknownKey => "unknown_key"
  | .badSignature => "bad_signature"
  | .unknownDecisionReference => "unknown_decision_reference"
  | .invalidTransition => "invalid_transition"

structure EvidenceIssue where
  index : Nat
  code : EvidenceIssueCode
deriving DecidableEq

inductive EvidenceEventType where
  | decision
  | outcome
deriving DecidableEq

def EvidenceEventType.ofText (t : Text) : Option EvidenceEventType :=
  if t = "decision" then some .decision else if t = "outcome" then some .outcome else none

def evidenceEventSchemaVersion : Text := "1"

def evidenceMaxEventIDChars : Nat := 128

def evidenceSharedRequiredFields : List Text :=
  ["schema_version", "event_type", "event_id", "action_id", "action_name",
    "contract_hash", "timestamp_utc", "key_id", "event_hash", "signature"]

def evidenceDecisionRequiredFields : List Text :=
  ["decision", "risk", "approval_mode", "redacted_input_summary", "input_hash"]

def evidenceOutcomeRequiredFields : List Text := ["status", "decision_event_id"]

def EvidenceEventType.requiredFields : EvidenceEventType → List Text
  | .decision => evidenceSharedRequiredFields ++ evidenceDecisionRequiredFields
  | .outcome => evidenceSharedRequiredFields ++ evidenceOutcomeRequiredFields

def previousKey : Text := "previous_event_hash"

/-- The predecessor an event names; null and an absent member name none. -/
def EvidenceEvent.previous (event : EvidenceEvent) : Except EvidenceIssueCode (Option Text) :=
  match event.get? previousKey with
  | none | some .null => .ok none
  | some (.str prev) => .ok (some prev)
  | some _ => .error .invalidField

structure EventFields where
  eventType : EvidenceEventType
  (submittedHash signature eventID actionName contractHash eventKeyID : Text)
  previousHash : Option Text
  timestamp : Int

def readEventFields (event : EvidenceEvent) : Except EvidenceIssueCode EventFields := do
  ensure .unknownSchema (event.text? "schema_version" == some evidenceEventSchemaVersion)
  let eventType ← need .unknownEventType ((event.text? "event_type").bind EvidenceEventType.ofText)
  ensure .missingFields (eventType.requiredFields.all (fun field => (event.get? field).isSome) &&
    (event.get? previousKey).isSome)
  let submittedHash ← need .invalidField (event.text? "event_hash")
  ensure .invalidField (contractHashPattern submittedHash)
  let signature ← need .invalidField (event.text? "signature")
  let eventID ← need .invalidField (event.text? "event_id")
  let actionName ← need .invalidField (event.text? "action_name")
  let contractHash ← need .invalidField (event.text? "contract_hash")
  let eventKeyID ← need .invalidField (event.text? "key_id")
  let timestampText ← need .invalidField (event.text? "timestamp_utc")
  ensure .invalidField (!eventID.isEmpty && decide ((Utf8.encode eventID).length ≤ evidenceMaxEventIDChars))
  ensure .invalidField (contractActionNamePattern actionName && contractHashPattern contractHash)
  let previousHash ← event.previous
  let timestamp ← need .invalidTimestamp (Instant.parse timestampText)
  return { eventType, submittedHash, signature, eventID, actionName, contractHash, eventKeyID, previousHash, timestamp }

structure FieldsOf (event : EvidenceEvent) (f : EventFields) : Prop where
  eventType : (event.text? "event_type").bind EvidenceEventType.ofText = some f.eventType
  submittedHash : event.text? "event_hash" = some f.submittedHash
  hexHash : contractHashPattern f.submittedHash = true
  eventID : event.text? "event_id" = some f.eventID
  previous : event.previous = .ok f.previousHash

theorem fieldsOf_read {event : EvidenceEvent} {f : EventFields} (h : readEventFields event = .ok f) :
    FieldsOf event f := by
  rw [readEventFields] at h
  obtain ⟨-, h⟩ := ok_of_bind_ok h
  obtain ⟨eventType, htype, h⟩ := exists_of_bind_ok h
  obtain ⟨-, h⟩ := ok_of_bind_ok h
  obtain ⟨submittedHash, hhash, h⟩ := exists_of_bind_ok h
  obtain ⟨hhex, h⟩ := ok_of_bind_ok h
  obtain ⟨signature, -, h⟩ := exists_of_bind_ok h
  obtain ⟨eventID, hid, h⟩ := exists_of_bind_ok h
  obtain ⟨actionName, -, h⟩ := exists_of_bind_ok h
  obtain ⟨contractHash, -, h⟩ := exists_of_bind_ok h
  obtain ⟨eventKeyID, -, h⟩ := exists_of_bind_ok h
  obtain ⟨timestampText, -, h⟩ := exists_of_bind_ok h
  obtain ⟨-, h⟩ := ok_of_bind_ok h
  obtain ⟨-, h⟩ := ok_of_bind_ok h
  obtain ⟨previousHash, hprev, h⟩ := exists_of_bind_ok h
  obtain ⟨timestamp, -, h⟩ := exists_of_bind_ok h
  obtain rfl := Except.ok.inj h
  exact ⟨need_eq_ok.mp htype, need_eq_ok.mp hhash, Except.ensure_eq_ok.mp hhex,
    need_eq_ok.mp hid, hprev⟩

def unsignedBytes (event : EvidenceEvent) : Option (List UInt8) :=
  CanonicalJson.encode (some (event.without ["event_hash", "signature"]))

def signatureIssues (scheme : SignatureScheme) (pub : List UInt8) (expectedKeyID : Text) (f : EventFields)
    (digest : List UInt8) : List EvidenceIssueCode :=
  if f.eventKeyID ≠ expectedKeyID then [.unknownKey]
  else
    match Base64.decode false true f.signature with
    | none => [.badSignature]
    | some rawSig => if scheme.verify pub digest rawSig = true then [] else [.badSignature]

theorem previous_of_unsignedBytes {event event' : EvidenceEvent} {bytes : List UInt8}
    (h : unsignedBytes event = some bytes) (h' : unsignedBytes event' = some bytes) {prev prev' : Option Text}
    (hprev : event.previous = .ok prev) (hprev' : event'.previous = .ok prev') : prev = prev' := by
  have hkey : previousKey ∉ ["event_hash".toList, "signature".toList] := by decide
  have hget := CanonicalJson.get?_of_encode h h' previousKey
  rw [DocMap.get?_without hkey, DocMap.get?_without hkey] at hget
  rw [EvidenceEvent.previous.eq_def] at hprev hprev'
  -- a string, null and an absent member are told apart by what is written
  cases hd : event.get? previousKey with
  | none =>
    cases hd' : event'.get? previousKey with
    | none => simp_all
    | some d' => simp_all
  | some d =>
    cases hd' : event'.get? previousKey with
    | none => simp_all
    | some d' =>
      rw [hd, hd', Option.map_some, Option.map_some, Option.some_inj] at hget
      rw [hd] at hprev
      rw [hd'] at hprev'
      cases d with
      | null => cases d' <;> simp_all [Doc.write]
      | str s =>
        cases d' with
        | str t =>
          have htext := flatMap_spell_inj spells_escapeLines (Value.str.inj hget)
          simp_all
        | _ => simp_all [Doc.write]
      | _ => simp_all

end Overture
