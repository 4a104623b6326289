import Overture.Coordinator.Redaction

/-!
# Encrypted input references

With a key, the sensitive inputs of a definition are replaced by references to encrypted
values, and put back before the definition is sent to a runtime again. Random values are a
function of the place they are drawn for, so that a run with any order of visits has one.
-/

namespace Overture

open Json

def inputReferenceRedactionPolicyVersion : Text := "input-reference-redaction-v1"

/-- An AEAD cipher decrypts what it encrypted under the same nonce and associated data. -/
structure InputCipher (N C : Type) where
  keyVersion : Text
  encrypt : N → Text → Text → C
  decrypt : N → C → Text → Option Text
  decrypt_encrypt : ∀ nonce plaintext aad, decrypt nonce (encrypt nonce plaintext aad) aad = some plaintext

structure InputKeyring (N C : Type) where
  ciphers : Text → Option (InputCipher N C)
  active : InputCipher N C
  ciphers_active : ciphers active.keyVersion = some active
  trimmed : Text.trimSpace active.keyVersion = active.keyVersion
  nonempty : active.keyVersion ≠ []

variable {N C : Type}

def InputKeyring.forVersion (keyring : InputKeyring N C) (keyVersion : Text) : Option (InputCipher N C) :=
  let keyVersion := Text.trimSpace keyVersion
  if keyVersion.isEmpty then none else keyring.ciphers keyVersion

theorem InputKeyring.forVersion_active (keyring : InputKeyring N C) :
    keyring.forVersion keyring.active.keyVersion = some keyring.active := by
  have hne : keyring.active.keyVersion.isEmpty = false := by simpa using keyring.nonempty
  simp [forVersion, keyring.trimmed, hne, keyring.ciphers_active]

structure InputRef (N C : Type) where
  id : Uuid
  tenantID : Text
  taskID : Uuid
  purpose : Text
  ciphertext : C
  nonce : N
  (aad digest : Text)
  plaintextBytes : Nat
  (contentType keyVersion : Text)

structure Draws (N : Type) where
  newID : List Nat → Uuid
  nonce : List Nat → Option N
  order : IterationOrder

structure ProtectionState (N C : Type) where
  tenantID : Text
  taskID : Uuid
  cipher : InputCipher N C
  url : URLParser
  draws : Draws N

def executionInputAssociatedData (tenantID : Text) (taskID refID : Uuid) (purpose keyVersion : Text) : Text :=
  (Value.object
    [("tenant_id", textValue tenantID), ("task_id", textValue taskID.toText),
      ("input_ref_id", textValue refID.toText), ("purpose", textValue purpose),
      ("key_version", textValue keyVersion)]).print

def purposeForSensitiveInputKey (key : Text) : Text :=
  let among (keys : List String) := keys.any fun k => normalizeInputKey key == k.toList
  if among ["body", "raw_body", "request_body", "payload", "content", "file_content", "file_contents",
      "full_text"] then "execution_payload"
  else if among ["path", "file_path", "absolute_path", "full_absolute_path", "private_path"] then
    "private_path"
  else if among ["url"] then "signed_url"
  else if among ["headers", "authorization", "cookie", "set_cookie", "set-cookie", "token", "secret", "password",
      "api_key", "apikey", "private_key", "credential"] then "sensitive_header"
  else "sensitive_input"

def encryptedInputRefMetadata (ref : InputRef N C) (summary : Text) : Value :=
  Value.object
    [("encrypted_input_ref", .bool true), ("encrypted_input_ref_id", textValue ref.id.toText),
      ("input_bytes", natValue ref.plaintextBytes), ("input_content_type", textValue ref.contentType),
      ("input_digest_sha256", textValue ref.digest), ("input_redacted", .bool true),
      ("key_version", textValue ref.keyVersion), ("purpose", textValue ref.purpose),
      ("redaction_policy_version", textValue inputReferenceRedactionPolicyVersion),
      ("safe_summary", textValue summary), ("sensitive_fields_redacted", textsValue [ref.purpose])]

def inputRefMetadata (fields : AnyMap) : Option (Uuid × Text) :=
  let field (key : String) := (fields.get? key.toList).getD .null
  match fields.get? "encrypted_input_ref" with
  | some (.bool true) =>
    match Uuid.parse (valueToInputString (field "encrypted_input_ref_id")) with
    | none => none
    | some refID =>
      let purpose := Text.trimSpace (valueToInputString (field "purpose"))
      if purpose.isEmpty then none else some (refID, purpose)
  | _ => none

namespace ProtectionState

variable (s : ProtectionState N C)

def buildRef (path : List Nat) (value : Any) (purpose : Text) : Except ProtectError (InputRef N C) :=
  let refID := s.draws.newID path
  let plaintext := valueToInputString value
  let aad := executionInputAssociatedData s.tenantID s.taskID refID purpose s.cipher.keyVersion
  if 2 ^ 63 ≤ byteLength plaintext then .error .tooLong
  else
    match s.draws.nonce path with
    | none => .error .nonceFailed
    | some nonce =>
      .ok {
        id := refID
        tenantID := s.tenantID
        taskID := s.taskID
        purpose := purpose
        ciphertext := s.cipher.encrypt nonce plaintext aad
        nonce := nonce
        aad := aad
        digest := sha256InputBytes plaintext
        plaintextBytes := byteLength plaintext
        contentType := []
        keyVersion := s.cipher.keyVersion }

end ProtectionState

inductive Treatment where
  | keep
  | headers
  | replace (purpose summary : Text)
  | descend
deriving DecidableEq

def refSummary (what : String) : Text := (what ++ " redacted; encrypted input ref available for authorized recovery").toList

def fieldTreatment (url : URLParser) (key : Text) (child : Any) : Treatment :=
  let normalized := normalizeInputKey key
  if inputKeySafe normalized then .keep
  else if normalized == "headers" then .headers
  else if normalized == "url" && safeURLContainsSensitiveMaterial url (valueToInputString child) then
    .replace "signed_url" (refSummary "signed URL")
  else if inputKeySensitive normalized then
    .replace (purposeForSensitiveInputKey normalized) (refSummary "sensitive input")
  else if normalized == "path" && looksLikePrivatePath (valueToInputString child) then
    .replace "private_path" (refSummary "private path")
  else .descend

def stringTreatment (parentKey value : Text) : Treatment :=
  if looksLikePrivatePath value then .replace "private_path" (refSummary "private path")
  else if byteLength value > maxSafeInputStringLength || inputKeySensitive parentKey then
    .replace (purposeForSensitiveInputKey parentKey) (refSummary "sensitive string")
  else .descend

def headerTreatment (key : Text) : Treatment :=
  if inputKeySensitive (normalizeInputKey key) then
    .replace "sensitive_header" (refSummary "sensitive header")
  else if headerAllowed (normalizeInputKey key) then .keep
  else .replace "sensitive_header" (refSummary "non-allowlisted header")

namespace ProtectionState

variable (s : ProtectionState N C)

abbrev Protected (N C α : Type) := α × List (InputRef N C)

def replace (path : List Nat) (value : Any) (purpose summary : Text) : Except ProtectError (Protected N C Value) := do
  let ref ← s.buildRef path value purpose
  return (encryptedInputRefMetadata ref summary, [ref])

def keep (value : Any) : Except ProtectError (Protected N C Value) := do
  let w ← writeAny value
  return (w, [])

def protectHeaderValues (path : List Nat) (i : Nat) : AnyMap → Except ProtectError (Protected N C (List (Text × Value)))
  | .nil => .ok ([], [])
  | .cons key child rest => do
    let (w, refs) ←
      (match headerTreatment key with
        | .replace purpose summary => s.replace (path ++ [i]) child purpose summary
        | _ => keep child : Except ProtectError (Protected N C Value))
    let (ws, more) ← protectHeaderValues path (i + 1) rest
    return ((key, w) :: ws, refs ++ more)

def protectHeaders (path : List Nat) : Any → Except ProtectError (Protected N C Value)
  | .obj headers => do
    let (kept, refs) ← s.protectHeaderValues path 0 headers
    let w ← collectHeaders inputReferenceRedactionPolicyVersion (s.draws.order.apply path kept)
    return (w, refs)
  | value => s.replace path value "sensitive_header" (refSummary "headers")

mutual

def protect (path : List Nat) (parentKey : Text) : Any → Except ProtectError (Protected N C Value)
  | .obj fields =>
    match inputRefMetadata fields with
    | some (refID, purpose) =>
      if refID = Uuid.nil || (Text.trimSpace purpose).isEmpty then .error .invalidRefMetadata
      else keep (.obj fields)
    | none => do
      let (ms, refs) ← protectFields path 0 fields
      return (Value.object ms, refs)
  | .arr items => do
    let (ws, refs) ← protectItems path parentKey 0 items
    return (Value.array ws, refs)
  | .str value =>
    match stringTreatment parentKey value with
    | .replace purpose summary => s.replace path (.str value) purpose summary
    | _ => .ok (textValue (redactInlineInputAuth value), [])
  | value => keep value

def protectItems (path : List Nat) (parentKey : Text) (i : Nat) : Anys → Except ProtectError (Protected N C (List Value))
  | .nil => .ok ([], [])
  | .cons v rest => do
    let (w, refs) ← protect (path ++ [i]) parentKey v
    let (ws, more) ← protectItems path parentKey (i + 1) rest
    return (w :: ws, refs ++ more)

def protectFields (path : List Nat) (i : Nat) : AnyMap → Except ProtectError (Protected N C (List (Text × Value)))
  | .nil => .ok ([], [])
  | .cons key child rest => do
    let (w, refs) ←
      (match fieldTreatment s.url key child with
        | .keep => keep child
        | .headers => s.protectHeaders (path ++ [i]) child
        | .replace purpose summary => s.replace (path ++ [i]) child purpose summary
        | .descend => protect (path ++ [i]) (normalizeInputKey key) child : Except ProtectError (Protected N C Value))
    let (ws, more) ← protectFields path (i + 1) rest
    return ((key, w) :: ws, refs ++ more)

end

end ProtectionState

def protectTaskDefinitionInputs (cipher : Option (InputCipher N C)) (url : URLParser) (draws : Draws N)
    (raw tenantID : Text) (taskID : Uuid) : Except ProtectError (ProtectionState.Protected N C Text) :=
  if raw.isEmpty then .ok (raw, [])
  else
    match (parse raw).bind Value.toAny with
    | none => .error .invalidJSON
    | some value =>
      match cipher with
      | none =>
        if containsSensitiveInput url value then .error .keyMissing
        else (sanitizeTaskDefinitionForPersistence url draws.order raw).map fun definition => (definition, [])
      | some cipher => do
        let (w, refs) ← ProtectionState.protect ⟨tenantID, taskID, cipher, url, draws⟩ [] [] value
        return (w.print, refs)

def jsonValuesEqual (a b : Text) : Bool :=
  match (parse a).bind Value.toAny, (parse b).bind Value.toAny with
  | some v, some w => decide (v = w)
  | _, _ => false

mutual

def rehydrateInputRefValue (resolver : Uuid → Text → Option Text) : Any → Option Any
  | .obj fields =>
    match inputRefMetadata fields with
    | some (refID, purpose) => (resolver refID purpose).map .str
    | none => (rehydrateFields resolver fields).map .obj
  | .arr items => (rehydrateItems resolver items).map .arr
  | v => some v

def rehydrateItems (resolver : Uuid → Text → Option Text) : Anys → Option Anys
  | .nil => some .nil
  | .cons v rest =>
    match rehydrateInputRefValue resolver v, rehydrateItems resolver rest with
    | some w, some ws => some (.cons w ws)
    | _, _ => none

def rehydrateFields (resolver : Uuid → Text → Option Text) : AnyMap → Option AnyMap
  | .nil => some .nil
  | .cons key v rest =>
    match rehydrateInputRefValue resolver v, rehydrateFields resolver rest with
    | some w, some ws => some (.cons key w ws)
    | _, _ => none

end

def rehydrateTaskDefinitionInputRefs (resolver : Uuid → Text → Option Text) (raw : Text) : Option Text :=
  if raw.isEmpty then some raw
  else
    match (parse raw).bind Value.toAny with
    | none => none
    | some value => ((rehydrateInputRefValue resolver value).bind Any.toValue).map Value.print

def loadExecutionInputRef (refs : List (InputRef N C)) (tenantID : Text) (taskID refID : Uuid) (purpose : Text) :
    Option (InputRef N C) :=
  refs.find? fun ref =>
    ref.id == refID && ref.tenantID == tenantID && ref.taskID == taskID && ref.purpose == purpose

def decryptExecutionInputRef (keyring : InputKeyring N C) (refs : List (InputRef N C)) (tenantID : Text)
    (taskID refID : Uuid) (purpose : Text) : Option Text :=
  match loadExecutionInputRef refs tenantID taskID refID purpose with
  | none => none
  | some ref =>
    match keyring.forVersion ref.keyVersion with
    | none => none
    | some cipher =>
      let expectedAAD := executionInputAssociatedData tenantID taskID refID purpose ref.keyVersion
      if !jsonValuesEqual expectedAAD ref.aad then none
      else
        match cipher.decrypt ref.nonce ref.ciphertext expectedAAD with
        | none => none
        | some plaintext =>
          if sha256InputBytes plaintext = ref.digest ∧ byteLength plaintext = ref.plaintextBytes then some plaintext
          else none

end Overture
