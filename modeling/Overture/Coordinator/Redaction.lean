import Overture.Lib.Json.Compact
import Overture.Lib.Sha256
import Overture.Coordinator.Record

/-!
# Classification of task inputs

Which keys and strings of a task definition count as sensitive, and the definition that is
kept when no key is there to encrypt with.
-/

namespace Overture

open Json

def inputRedactionPolicyVersion : Text := "overture-input-redaction-v1"

def maxSafeInputStringLength : Nat := 512

def normalizeInputKey (key : Text) : Text :=
  (Text.toLower (Text.trimSpace key)).map fun c => if c == '-' then '_' else c

def sensitiveInputKeyPatterns : List String :=
  ["authorization", "cookie", "set_cookie", "set-cookie", "token", "secret", "password", "api_key", "apikey",
    "access_key", "refresh_token", "private_key", "credential", "body", "raw_body", "response_body", "request_body",
    "payload", "content", "file_content", "file_contents", "full_text", "file_path", "absolute_path",
    "full_absolute_path"]

def safeInputMetadataKeys : List String :=
  ["content_redacted", "content_digest", "content_digest_sha256", "content_bytes", "content_type", "input_redacted",
    "input_digest_sha256", "input_bytes", "input_content_type", "encrypted_input_ref", "encrypted_input_ref_id",
    "purpose", "key_version", "created_at", "expires_at", "safe_summary", "sensitive_fields_redacted",
    "redaction_policy_version"]

def inputKeySensitive (normalized : Text) : Bool :=
  sensitiveInputKeyPatterns.any fun pattern => Text.contains normalized (normalizeInputKey pattern.toList)

def inputKeySafe (normalized : Text) : Bool := safeInputMetadataKeys.any fun key => normalized == key.toList

def headerAllowed (normalized : Text) : Bool :=
  ["content_type", "content_length", "etag", "last_modified", "cache_control", "x_request_id",
    "x_correlation_id"].any fun key => normalized == key.toList

def looksLikePrivatePath (value : Text) : Bool :=
  let trimmed := Text.trimSpace value
  "/".toList.isPrefixOf trimmed || "~/".toList.isPrefixOf trimmed || "\\\\".toList.isPrefixOf trimmed ||
    match trimmed with
    -- the source indexes bytes, so the letter before the colon is a rune of one byte
    | drive :: ':' :: slash :: _ => drive.toNat < 128 && (slash == '\\' || slash == '/')
    | _ => false

def valueToInputString : Any → Text
  | .str s => s
  | v => (v.toValue.map Value.print).getD []

/-- One marker after the other is replaced from left to right; what follows it stays. -/
def redactInlineInputAuth : Text → Text
  | 'B' :: 'e' :: 'a' :: 'r' :: 'e' :: 'r' :: ' ' :: rest => "[redacted-auth] " ++ redactInlineInputAuth rest
  | 'B' :: 'a' :: 's' :: 'i' :: 'c' :: ' ' :: rest => "[redacted-auth] " ++ redactInlineInputAuth rest
  | c :: rest => c :: redactInlineInputAuth rest
  | [] => []

def sha256InputBytes (value : Text) : Text := Hex.encode (Sha256.sum256 (value.flatMap String.utf8EncodeChar))

example : looksLikePrivatePath "C:/x".toList = true := by decide +kernel

example : redactInlineInputAuth "use Bearer abc" = "use [redacted-auth] abc" := by decide +kernel

structure ParsedURL where
  (scheme host hostname escapedPath rawQuery : Text)
  hasUser : Bool

/-- `url.Parse`, of which only this much is used: a scheme starts with a letter and a colon follows it. -/
structure URLParser where
  parse : Text → Option ParsedURL
  scheme_head : ∀ {t : Text} {parsed : ParsedURL}, parse t = some parsed → parsed.scheme ≠ [] →
    (∃ c rest, t = c :: rest ∧ c.isAlpha = true) ∧ ':' ∈ t

def safeURLContainsSensitiveMaterial (url : URLParser) (raw : Text) : Bool :=
  match url.parse (Text.trimSpace raw) with
  | none => false
  | some parsed => !parsed.scheme.isEmpty && !parsed.host.isEmpty && (!parsed.rawQuery.isEmpty || parsed.hasUser)

/-! ## The test for inputs that need encryption -/

mutual

def containsSensitiveInput (url : URLParser) : Any → Bool
  | .obj fields => containsSensitiveFields url fields
  | .arr items => containsSensitiveItems url items
  | .str s => looksLikePrivatePath s || byteLength s > maxSafeInputStringLength
  | _ => false

def containsSensitiveItems (url : URLParser) : Anys → Bool
  | .nil => false
  | .cons v rest => containsSensitiveInput url v || containsSensitiveItems url rest

def containsSensitiveFields (url : URLParser) : AnyMap → Bool
  | .nil => false
  | .cons key child rest =>
    inputKeySensitive (normalizeInputKey key) ||
      (normalizeInputKey key == "path" && looksLikePrivatePath (valueToInputString child)) ||
      (normalizeInputKey key == "url" && safeURLContainsSensitiveMaterial url (valueToInputString child)) ||
      containsSensitiveInput url child || containsSensitiveFields url rest

end

/-! ## The definition kept without encryption

The results are documents, since `json.Marshal` is applied to them and they hold lengths, which
are integers. None stands for a number that cannot be written. -/

def textValue (t : Text) : Value := .str (quote t)

def natValue (n : Nat) : Value := .num (Nat.toDigits 10 n)

def textsValue (ts : List Text) : Value := Value.array (ts.map textValue)

def envelopeFields (raw reason : Text) : List (Text × Value) :=
  [("input_bytes", natValue (byteLength raw)),
    ("input_digest_sha256", textValue (sha256InputBytes raw)), ("input_redacted", .bool true),
    ("redaction_policy_version", textValue inputRedactionPolicyVersion),
    ("safe_summary", textValue reason), ("sensitive_fields_redacted", textsValue [reason])]

def inputRedactedEnvelope (value : Any) (reason : Text) : Value :=
  Value.object (envelopeFields (valueToInputString value) reason)

def safePathEnvelope (path : Text) : Value :=
  let trimmed := Text.trimSpace path
  Value.object (mapEntries (envelopeFields trimmed "private_path".toList ++
    [("safe_path_digest".toList, textValue (sha256InputBytes trimmed))]))

def safeURLForPersistence (url : URLParser) (raw : Text) : Value :=
  let trimmed := Text.trimSpace raw
  if trimmed.isEmpty then textValue []
  else
    match url.parse trimmed with
    | none => textValue (redactInlineInputAuth trimmed)
    | some parsed =>
      if parsed.scheme.isEmpty || parsed.host.isEmpty then textValue (redactInlineInputAuth trimmed)
      else
        let resp :=
          [("safe_url".toList, textValue (parsed.scheme ++ "://".toList ++ parsed.host ++ parsed.escapedPath)),
            ("safe_host".toList, textValue parsed.hostname),
            ("redaction_policy_version".toList, textValue inputRedactionPolicyVersion)]
        let redacted :=
          if !parsed.rawQuery.isEmpty || parsed.hasUser then
            [("input_redacted".toList, .bool true),
              ("input_digest_sha256".toList, textValue (sha256InputBytes trimmed)),
              ("input_bytes".toList, natValue (byteLength trimmed)),
              ("sensitive_fields_redacted".toList, textsValue ["url_query_or_credentials".toList])]
          else []
        Value.object (mapEntries (resp ++ redacted))

/-! ## Headers

A Go map is visited in an order that is not fixed. It shows in the header metadata only, where a
header named like the list of redacted names takes the place of the list: a sensitive header that
comes after it makes the type assertion on the list panic. -/

/-- `panicked` is a run-time panic, `tooLong` a string longer than Go has integers for. -/
inductive ProtectError where
  | invalidJSON
  | keyMissing
  | invalidRefMetadata
  | nonceFailed
  | tooLong
  | unwritable
  | panicked
deriving DecidableEq

structure IterationOrder where
  visit : List Nat → Nat → List Nat
  perm : ∀ path n, (visit path n).Perm (List.range n)

/-- The members one after the other, as they are written. -/
def IterationOrder.inPlace : IterationOrder := ⟨fun _ n => List.range n, fun _ _ => .refl _⟩

def IterationOrder.apply {α : Type} (order : IterationOrder) (path : List Nat) (l : List α) : List α :=
  (order.visit path l.length).filterMap fun i => l[i]?

theorem IterationOrder.apply_perm {α : Type} (order : IterationOrder) (path : List Nat) (l : List α) :
    (order.apply path l).Perm l := by
  have hrange : (List.range l.length).filterMap (fun i => l[i]?) = l := by
    induction l with
    | nil => rfl
    | cons a l ih => simpa [List.range_succ_eq_map, List.filterMap_map, Function.comp_def] using ih
  have hperm := (order.perm path l.length).filterMap fun i => l[i]?
  rwa [hrange] at hperm

structure HeaderMap where
  redacted : Option (List Text)
  fields : List (Text × Value)

namespace HeaderMap

def start (version : Text) : HeaderMap :=
  ⟨some [], [("input_redacted", .bool true), ("redaction_policy_version", textValue version)]⟩

def assign (out : HeaderMap) (key : Text) (v : Value) : HeaderMap :=
  ⟨if key = "sensitive_fields_redacted" then none else out.redacted, out.fields ++ [(key, v)]⟩

def append (out : HeaderMap) (key : Text) : Except ProtectError HeaderMap :=
  match out.redacted with
  | some names => .ok ⟨some (names ++ [key]), out.fields⟩
  | none => .error .panicked

def toValue (out : HeaderMap) : Value :=
  match out.redacted with
  | some names => Value.object (mapEntries (("sensitive_fields_redacted", textsValue names) :: out.fields))
  | none => Value.object (mapEntries out.fields)

def step (out : HeaderMap) (header : Text × Value) : Except ProtectError HeaderMap :=
  if inputKeySensitive (normalizeInputKey header.1) then (out.assign header.1 header.2).append header.1
  else .ok (out.assign header.1 header.2)

end HeaderMap

def collectHeaders (version : Text) (headers : List (Text × Value)) : Except ProtectError Value :=
  (headers.foldlM HeaderMap.step (HeaderMap.start version)).map HeaderMap.toValue

def writeAny (v : Any) : Except ProtectError Value :=
  match v.toValue with
  | some w => .ok w
  | none => .error .unwritable

def sanitizeString (s : Text) : Value :=
  if looksLikePrivatePath s then safePathEnvelope s
  else if byteLength s > maxSafeInputStringLength then inputRedactedEnvelope (.str s) "large_string"
  else textValue (redactInlineInputAuth s)

mutual

def sanitizeInputValue (url : URLParser) (order : IterationOrder) (path : List Nat) : Any → Except ProtectError Value
  | .obj fields => (sanitizeFields url order path 0 fields).map Value.object
  | .arr items => (sanitizeItems url order path 0 items).map Value.array
  | .str s => .ok (sanitizeString s)
  | v => writeAny v

def sanitizeItems (url : URLParser) (order : IterationOrder) (path : List Nat) (i : Nat) :
    Anys → Except ProtectError (List Value)
  | .nil => .ok []
  | .cons v rest => do
    let w ← sanitizeInputValue url order (path ++ [i]) v
    let ws ← sanitizeItems url order path (i + 1) rest
    return w :: ws

def sanitizeFields (url : URLParser) (order : IterationOrder) (path : List Nat) (i : Nat) :
    AnyMap → Except ProtectError (List (Text × Value))
  | .nil => .ok []
  | .cons key child rest => do
    let normalized := normalizeInputKey key
    let w ←
      (if inputKeySafe normalized then sanitizeInputValue url order (path ++ [i]) child
        else if inputKeySensitive normalized then pure (inputRedactedEnvelope child "sensitive_input")
        else if normalized == "path" && looksLikePrivatePath (valueToInputString child) then
          pure (safePathEnvelope (valueToInputString child))
        else if normalized == "url" then pure (safeURLForPersistence url (valueToInputString child))
        else if normalized == "headers" then
          match child with
          | .obj headers => do
            let kept ← sanitizeHeaders url order (path ++ [i]) 0 headers
            collectHeaders inputRedactionPolicyVersion (order.apply (path ++ [i]) kept)
          | child => pure (inputRedactedEnvelope child "headers")
        else sanitizeInputValue url order (path ++ [i]) child : Except ProtectError Value)
    let ws ← sanitizeFields url order path (i + 1) rest
    return (key, w) :: ws

def sanitizeHeaders (url : URLParser) (order : IterationOrder) (path : List Nat) (i : Nat) :
    AnyMap → Except ProtectError (List (Text × Value))
  | .nil => .ok []
  | .cons key child rest => do
    let normalized := normalizeInputKey key
    let w ←
      (if inputKeySensitive normalized then pure (inputRedactedEnvelope child "sensitive_header")
        else if headerAllowed normalized then sanitizeInputValue url order (path ++ [i]) child
        else pure (inputRedactedEnvelope child "non_allowlisted_header") : Except ProtectError Value)
    let ws ← sanitizeHeaders url order path (i + 1) rest
    return (key, w) :: ws

end

def inputRedactedJSON (reason raw : Text) : Text :=
  (Value.object
    [("input_bytes", natValue (byteLength raw)),
      ("input_digest_sha256", textValue (sha256InputBytes raw)), ("input_redacted", .bool true),
      ("redaction_policy_version", textValue inputRedactionPolicyVersion),
      ("safe_summary", textValue reason),
      ("sensitive_fields_redacted", textsValue ["task_definition"])]).print

def sanitizeTaskDefinitionForPersistence (url : URLParser) (order : IterationOrder) (raw : Text) :
    Except ProtectError Text :=
  if raw.isEmpty then .ok raw
  else
    match (parse raw).bind Value.toAny with
    | none => .ok (inputRedactedJSON "invalid_json" raw)
    | some v =>
      match sanitizeInputValue url order [] v with
      | .ok w => .ok w.print
      | .error .unwritable => .ok (inputRedactedJSON "redaction_failed" raw)
      | .error e => .error e

end Overture
