import Overture.Lib.HashChain
import Overture.Lib.Json.Members
import Overture.Lib.Sha256
import Overture.Lib.Signature
import Overture.Sdk.Canonical

/-!
# The journal of the SDK

A journal is a file of JSON lines. Every event names the hash of the event before it and is signed over the digest of
its canonical payload. What `json.loads` makes of a line is a document here; a dictionary is given by its assignments.
A line with a number that is not finite is no document.
-/

namespace Json

variable {ν : Type}

mutual

def Doc.numbers (number : Text → Option ν) : Doc Text → Option (Doc ν)
  | .null => some .null
  | .bool b => some (.bool b)
  | .num lit => (number lit).map .num
  | .str s => some (.str s)
  | .arr items => (items.numbers number).map .arr
  | .obj fields => (fields.numbers number).map .obj

def Docs.numbers (number : Text → Option ν) : Docs Text → Option (Docs ν)
  | .nil => some .nil
  | .cons d rest =>
    match d.numbers number, rest.numbers number with
    | some d, some rest => some (.cons d rest)
    | _, _ => none

def DocMap.numbers (number : Text → Option ν) : DocMap Text → Option (DocMap ν)
  | .nil => some .nil
  | .cons key d rest =>
    match d.numbers number, rest.numbers number with
    | some d, some rest => some (.cons key d rest)
    | _, _ => none

end

end Json

namespace Overture.Journal

open Json

abbrev Event := DocMap PyNumber

def decimal (digits : Text) : Nat := digits.foldl (fun n c => 10 * n + (c.toNat - 48)) 0

def PyNumber.ofLiteral (lit : Text) : Option PyNumber :=
  if lit.any fun c => c == '.' || c == 'e' || c == 'E' then
    match h : Float64.parse lit with
    | some x => some (.float ⟨x, Float64.parse_normal h⟩)
    | none => none
  else
    match lit with
    | '-' :: digits => some (.int (-(decimal digits)))
    | digits => some (.int (decimal digits))

def loads (line : List UInt8) : Option (Doc PyNumber) :=
  ((Utf8.decode line).bind parse).bind fun v => v.doc.numbers PyNumber.ofLiteral

def isSpaceByte (b : UInt8) : Bool := b == 32 || (9 ≤ b && b ≤ 13)

def strip (line : List UInt8) : List UInt8 :=
  ((line.dropWhile isSpaceByte).reverse.dropWhile isSpaceByte).reverse

/-! ## Events -/

def eventHashKey : Text := "event_hash"

def signatureKey : Text := "signature"

def previousKey : Text := "previous_event_hash"

def unsignedPayload (event : Event) : Event := event.without [eventHashKey, signatureKey]

def payloadBytes (payload : Event) : List UInt8 := canonicalJsonBytes (.obj payload)

def eventDigest (payload : Event) : List UInt8 := Sha256.sum256 (payloadBytes payload)

def finalizeEvent (payload : Event) (sign : List UInt8 → Text) : Event :=
  (payload.set eventHashKey (.str (Hex.encode (eventDigest payload)))).set signatureKey (.str (sign (eventDigest payload)))

def keyIdFor (publicKey : List UInt8) : Text :=
  "ed25519:" ++ (Hex.encode (Sha256.sum256 publicKey)).take 16

/-- `base64.b64decode` with `validate=True`: padding past the last group is ignored. -/
def b64decode (t : Text) : Option (List UInt8) :=
  let data := t.takeWhile (· != '=')
  let padding := t.dropWhile (· != '=')
  if !(padding.all (· == '=') && padding.length ≤ 2) then none
  else if data.length % 4 == 2 && padding.length < 2 then none
  else if data.length % 4 == 3 && padding.length < 1 then none
  else Base64.decodeQuanta false false data

/-- `str` of a member. The text of a list or a dictionary has brackets, which no signature has. -/
def signatureText : Doc PyNumber → Option Text
  | .null => some "None"
  | .bool b => some (if b then "True" else "False")
  | .num n => some n.text
  | .str s => some s
  | .arr _ | .obj _ => none

def signatureOf (event : Event) : Option (List UInt8) :=
  (event.get? signatureKey).bind fun d => (signatureText d).bind b64decode

/-! ## Verification -/

inductive IssueCode where
  | malformedJson
  | malformedEvent
  | unknownSchema
  | unknownEventType
  | missingFields
  | chainBreak
  | hashMismatch
  | unknownKey
  | badSignature
deriving DecidableEq

def IssueCode.toText : IssueCode → String
  | .malformedJson => "malformed_json"
  | .malformedEvent => "malformed_event"
  | .unknownSchema => "unknown_schema"
  | .unknownEventType => "unknown_event_type"
  | .missingFields => "missing_fields"
  | .chainBreak => "chain_break"
  | .hashMismatch => "hash_mismatch"
  | .unknownKey => "unknown_key"
  | .badSignature => "bad_signature"

structure VerificationIssue where
  lineNumber : Nat
  code : IssueCode
deriving DecidableEq

def sharedRequiredFields : List String :=
  ["schema_version", "event_type", "event_id", "action_id", "action_name", "contract_hash", "timestamp_utc", "key_id",
    "event_hash", "signature"]

def decisionRequiredFields : List String :=
  ["decision", "risk", "approval_mode", "redacted_input_summary", "input_hash"]

def outcomeRequiredFields : List String := ["status", "decision_event_id"]

/-- A list and a dictionary cannot be looked up in a set: Python raises an exception. -/
def hashable : Option (Doc PyNumber) → Bool
  | some (.arr _) | some (.obj _) => false
  | _ => true

def namesPrevious (event : Event) (expected : Option Text) : Bool :=
  match event.get? previousKey, expected with
  | some .null, none => true
  | some (.str s), some hash => s == hash
  | _, _ => false

def isText (event : Event) (key : Text) (value : Text) : Bool := event.text? key == some value

def requiredFields (event : Event) : List String :=
  sharedRequiredFields ++
    (if isText event "event_type" "decision" then decisionRequiredFields else outcomeRequiredFields) ++
    ["previous_event_hash"]

section

variable (scheme : SignatureScheme) (publicKey : List UInt8)

def payloadIssues (event : Event) (lineNumber : Nat) (expectedPrevious : Option Text) : List VerificationIssue :=
  let digest := eventDigest (unsignedPayload event)
  (if namesPrevious event expectedPrevious then [] else [⟨lineNumber, .chainBreak⟩]) ++
    (if isText event eventHashKey (Hex.encode digest) then [] else [⟨lineNumber, .hashMismatch⟩]) ++
    (if !isText event "key_id" (keyIdFor publicKey) then [⟨lineNumber, .unknownKey⟩]
    else if (signatureOf event).any (scheme.verify publicKey digest) then []
    else [⟨lineNumber, .badSignature⟩])

def verifyEvent (event : Event) (lineNumber : Nat) (expectedPrevious : Option Text) : Option (List VerificationIssue) :=
  if !hashable (event.get? "schema_version") then none
  else if !isText event "schema_version" "1" then some [⟨lineNumber, .unknownSchema⟩]
  else if !hashable (event.get? "event_type") then none
  else if !(isText event "event_type" "decision" || isText event "event_type" "outcome") then
    some [⟨lineNumber, .unknownEventType⟩]
  else
    if (requiredFields event).any fun field => (event.get? field.toList).isNone then
      some [⟨lineNumber, .missingFields⟩]
    else some (payloadIssues scheme publicKey event lineNumber expectedPrevious)

structure JournalSnapshot where
  events : List Event
  eventsVerified : Nat
  issues : List VerificationIssue

def JournalSnapshot.valid (s : JournalSnapshot) : Bool := s.issues.isEmpty

def loadLines : Nat → Option Text → List (List UInt8) → Option JournalSnapshot
  | _, _, [] => some ⟨[], 0, []⟩
  | lineNumber, previousHash, rawLine :: rest =>
    if strip rawLine = [] then loadLines (lineNumber + 1) previousHash rest
    else
      match loads (strip rawLine) with
      | none => some ⟨[], 0, [⟨lineNumber, .malformedJson⟩]⟩
      | some (.obj event) =>
        match verifyEvent scheme publicKey event lineNumber previousHash,
            loadLines (lineNumber + 1) (event.text? eventHashKey) rest with
        | some issues, some s =>
          some ⟨event :: s.events, (if issues.isEmpty then 1 else 0) + s.eventsVerified, issues ++ s.issues⟩
        | _, _ => none
      | some _ => some ⟨[], 0, [⟨lineNumber, .malformedEvent⟩]⟩

def loadJournalSnapshot (raw : List UInt8) : Option JournalSnapshot :=
  loadLines scheme publicKey 1 none (raw.splitOn 10)

end

end Overture.Journal
