import Overture.Coordinator.Keyless

/-!
# Redaction of what the API returns

`sanitizeResponseValue` drops two keys of a decoded document, puts an envelope with a digest in the place of what a
sensitive key holds, and rewrites URLs, private paths, headers, long strings and inline authorization. Its result is
decoded again when it was stored, so lengths stand in it as the numbers they are read back as.
-/

namespace Overture

open Json

def responseRedactionPolicyVersion : Text := "api-response-redaction-v1"

def maxSafeResponseStringLength : Nat := 512

def sensitiveResponseKeyPatterns : List String :=
  ["authorization", "cookie", "set_cookie", "set-cookie", "token", "secret", "password", "api_key", "apikey",
    "access_key", "refresh_token", "private_key", "credential", "ciphertext", "nonce", "body", "raw_body",
    "response_body", "request_body", "content", "file_content", "file_contents", "full_text", "file_path",
    "absolute_path", "full_absolute_path"]

def safeResponseRedactionMetadataKeys : List String :=
  ["content_redacted", "content_digest", "content_digest_sha256", "content_bytes", "content_type", "input_redacted",
    "input_digest_sha256", "input_bytes", "input_content_type", "encrypted_input_ref", "encrypted_input_ref_id",
    "purpose", "key_version", "created_at", "expires_at", "safe_summary", "sensitive_fields_redacted",
    "redaction_policy_version", "local_auth_secret_env"]

def underscored (t : Text) : Text := t.map fun c => if c == '-' then '_' else c

def normalizeResponseKey (key : Text) : Text := underscored (Text.toLower key)

def responseKeyDropped (normalized : Text) : Bool :=
  normalized == "ciphertext" || normalized == "nonce"

def responseKeySensitive (key : Text) : Bool :=
  let normalized := normalizeResponseKey key
  !(safeResponseRedactionMetadataKeys.any fun safe => normalized == safe.toList) &&
    sensitiveResponseKeyPatterns.any fun pattern => Text.contains normalized (underscored pattern.toList)

def looksLikePrivateResponsePath (value : Text) : Bool := looksLikePrivatePath value

def valueToString (v : Any) : Text := valueToInputString v

def redactInlineAuth (value : Text) : Text := redactInlineInputAuth value

def sha256HexString (value : Text) : Text := sha256InputBytes value

example : responseKeySensitive "X-Api-Key" = true := by decide +kernel

example : responseKeySensitive "local-auth-secret-env" = false := by decide +kernel

/-! ## Envelopes -/

def redactedMap (reason digest : Text) (bytes : Nat) : AnyMap :=
  AnyMap.ofList
    [("content_bytes", numberOf bytes), ("content_digest_sha256", .str digest),
      ("reason", .str reason), ("redacted", .bool true),
      ("redaction_policy_version", .str responseRedactionPolicyVersion)]

def inputRedactedMap (reason digest : Text) (bytes : Nat) : AnyMap :=
  AnyMap.ofList
    [("input_bytes", numberOf bytes), ("input_digest_sha256", .str digest),
      ("input_redacted", .bool true),
      ("redaction_policy_version", .str responseRedactionPolicyVersion),
      ("safe_summary", .str reason), ("sensitive_fields_redacted", textsOf [reason])]

def redactedText (reason t : Text) : Any := .obj (redactedMap reason (sha256HexString t) (byteLength t))

def inputRedactedText (reason t : Text) : Any := .obj (inputRedactedMap reason (sha256HexString t) (byteLength t))

def safeResponsePathEnvelope (path : Text) : Any :=
  let trimmed := Text.trimSpace path
  .obj ((inputRedactedMap "private_path" (sha256HexString trimmed) (byteLength trimmed)).insertNew
    "safe_path_digest" (.str (sha256HexString trimmed)))

def absoluteURL (url : URLParser) (t : Text) : Option ParsedURL :=
  (url.parse t).filter fun parsed => !parsed.scheme.isEmpty && !parsed.host.isEmpty

def safeResponseURL (url : URLParser) (raw : Text) : Any :=
  let trimmed := Text.trimSpace raw
  if trimmed.isEmpty then .str []
  else
    match absoluteURL url trimmed with
    | none => .str (redactInlineAuth trimmed)
    | some parsed =>
      let resp :=
        [("safe_url".toList, Any.str (parsed.scheme ++ "://".toList ++ parsed.host ++ parsed.escapedPath)),
          ("safe_host".toList, .str parsed.hostname),
          ("redaction_policy_version".toList, .str responseRedactionPolicyVersion)]
      let redacted :=
        if !parsed.rawQuery.isEmpty || parsed.hasUser then
          [("input_redacted".toList, .bool true), ("input_digest_sha256".toList, .str (sha256HexString trimmed)),
            ("input_bytes".toList, numberOf (byteLength trimmed)),
            ("sensitive_fields_redacted".toList, textsOf ["url_query_or_credentials".toList])]
        else []
      .obj (AnyMap.ofEntries (resp ++ redacted))

/-! ## Headers

As in task inputs, a header that is named like the list of redacted names takes the place of the
list, and a sensitive header that comes after it makes the type assertion on the list panic. -/

structure ResponseHeaders where
  redacted : Option (List Text)
  fields : List (Text × Any)

namespace ResponseHeaders

def start : ResponseHeaders :=
  ⟨some [], [("input_redacted", .bool true),
    ("redaction_policy_version", .str responseRedactionPolicyVersion)]⟩

def assign (out : ResponseHeaders) (key : Text) (v : Any) : ResponseHeaders :=
  ⟨if key = "sensitive_fields_redacted" then none else out.redacted, out.fields ++ [(key, v)]⟩

def step (out : ResponseHeaders) (header : Text × Any) : Option ResponseHeaders :=
  let assigned := out.assign header.1 header.2
  if responseKeySensitive header.1 then
    assigned.redacted.map fun names => ⟨some (names ++ [header.1]), assigned.fields⟩
  else some assigned

def toAny (out : ResponseHeaders) : Any :=
  match out.redacted with
  | some names => .obj (AnyMap.ofEntries (("sensitive_fields_redacted", textsOf names) :: out.fields))
  | none => .obj (AnyMap.ofEntries out.fields)

end ResponseHeaders

def collectResponseHeaders (headers : List (Text × Any)) : Option Any :=
  (headers.foldlM ResponseHeaders.step .start).map ResponseHeaders.toAny

def headersRedacted (headers : AnyMap) : Bool := headers.get? "input_redacted" == some (.bool true)

def sanitizeResponseString (s : Text) : Any :=
  if byteLength s > maxSafeResponseStringLength then redactedText "large_string" s
  else .str (redactInlineAuth s)

mutual

/-- None stands for a run-time panic. -/
def sanitizeResponseValue (url : URLParser) (order : IterationOrder) (path : List Nat) : Any → Option Any
  | .obj fields => (sanitizeResponseFields url order path 0 fields).map Any.obj
  | .arr items => (sanitizeResponseItems url order path 0 items).map Any.arr
  | .str s => some (sanitizeResponseString s)
  | v => some v

def sanitizeResponseItems (url : URLParser) (order : IterationOrder) (path : List Nat) (i : Nat) :
    Anys → Option Anys
  | .nil => some .nil
  | .cons v rest => do
    let w ← sanitizeResponseValue url order (path ++ [i]) v
    let ws ← sanitizeResponseItems url order path (i + 1) rest
    return .cons w ws

def sanitizeResponseFields (url : URLParser) (order : IterationOrder) (path : List Nat) (i : Nat) :
    AnyMap → Option AnyMap
  | .nil => some .nil
  | .cons key child rest => do
    let normalized := normalizeResponseKey key
    let kept ← sanitizeResponseFields url order path (i + 1) rest
    if responseKeyDropped normalized then return kept
    else
      let w ←
        (if responseKeySensitive key then pure (redactedText "sensitive_key" (valueToString child))
          else if normalized == "path" && looksLikePrivateResponsePath (valueToString child) then
            pure (safeResponsePathEnvelope (valueToString child))
          else if normalized == "url" then pure (safeResponseURL url (valueToString child))
          else if normalized == "headers" then
            match child with
            | .obj headers =>
              if headersRedacted headers then
                (sanitizeResponseFields url order (path ++ [i]) 0 headers).map Any.obj
              else do
                let seen ← sanitizeResponseHeaders url order (path ++ [i]) 0 headers
                collectResponseHeaders (order.apply (path ++ [i]) seen)
            | child => pure (inputRedactedText "headers" (valueToString child))
          else sanitizeResponseValue url order (path ++ [i]) child : Option Any)
      return .cons key w kept

def sanitizeResponseHeaders (url : URLParser) (order : IterationOrder) (path : List Nat) (i : Nat) :
    AnyMap → Option (List (Text × Any))
  | .nil => some []
  | .cons key child rest => do
    let w ←
      (if responseKeySensitive key then pure (inputRedactedText "sensitive_header" (valueToString child))
        else if headerAllowed (normalizeResponseKey key) then sanitizeResponseValue url order (path ++ [i]) child
        else pure (inputRedactedText "non_allowlisted_header" (valueToString child)) : Option Any)
    let ws ← sanitizeResponseHeaders url order path (i + 1) rest
    return (key, w) :: ws

end

def sanitizeActionTargetURL (url : URLParser) (target : Text) : Text :=
  match safeResponseURL url target with
  | .obj fields =>
    match fields.get? "safe_url" with
    | some (.str value) => value
    | _ => []
  | .str value => value
  | _ => []

/-- The result of the sanitizer on a map is a map, so the other branch of the source is never taken. -/
def sanitizeActionMetadata (url : URLParser) (order : IterationOrder) (metadata : AnyMap) : Option AnyMap :=
  sanitizeResponseFields url order [] 0 metadata

def redactedHeaders : Any → Bool
  | .obj headers => headersRedacted headers
  | _ => false

mutual

def plainValue (url : URLParser) : Any → Bool
  | .obj fields => plainFields url fields
  | .arr items => plainItems url items
  | .str s => !hasInlineAuth s && byteLength s ≤ maxSafeResponseStringLength
  | _ => true

def plainItems (url : URLParser) : Anys → Bool
  | .nil => true
  | .cons v rest => plainValue url v && plainItems url rest

def plainFields (url : URLParser) : AnyMap → Bool
  | .nil => true
  | .cons key child rest =>
    let normalized := normalizeResponseKey key
    !responseKeyDropped normalized && !responseKeySensitive key &&
      !(normalized == "path" && looksLikePrivateResponsePath (valueToString child)) &&
      (if normalized == "url" then keepsURL url child
        else (normalized != "headers" || redactedHeaders child) && plainValue url child) &&
      plainFields url rest

end

theorem redactInlineAuth_of_plain {s : Text} (h : hasInlineAuth s = false) : redactInlineAuth s = s :=
  (redactInlineInputAuth_eq_self_iff s).mpr (by simp [h])

theorem safeResponseURL_of_keeps {url : URLParser} {v : Any} (h : keepsURL url v = true) :
    safeResponseURL url (valueToString v) = v := by
  cases v with
  | str s =>
    simp only [keepsURL, Bool.and_eq_true, decide_eq_true_eq, Bool.not_eq_true'] at h
    obtain ⟨⟨htrim, hplain⟩, hhost⟩ := h
    have hrelative : absoluteURL url s = none := by
      rw [absoluteURL]
      rw [namesHost] at hhost
      cases hparse : url.parse s with
      | none => rfl
      | some parsed =>
        rw [hparse] at hhost
        simpa [Option.filter] using hhost
    change safeResponseURL url s = .str s
    simp only [safeResponseURL, htrim, hrelative, redactInlineAuth_of_plain hplain]
    split_ifs with hempty
    · rw [List.isEmpty_iff.mp hempty]
    · rfl
  | _ => cases h

section Kept

variable (url : URLParser) (order : IterationOrder)

mutual

theorem sanitizeResponseValue_of_plain (v : Any) (h : plainValue url v = true) (path : List Nat) :
    sanitizeResponseValue url order path v = some v := by
  cases v with
  | obj fields =>
    rw [plainValue] at h
    rw [sanitizeResponseValue, sanitizeResponseFields_of_plain fields h path 0]
    rfl
  | arr items =>
    rw [plainValue] at h
    rw [sanitizeResponseValue, sanitizeResponseItems_of_plain items h path 0]
    rfl
  | str s =>
    rw [plainValue, Bool.and_eq_true, decide_eq_true_eq, Bool.not_eq_true'] at h
    rw [sanitizeResponseValue, sanitizeResponseString, if_neg (by omega), redactInlineAuth_of_plain h.1]
  | null => rfl
  | bool b => rfl
  | num x => rfl

theorem sanitizeResponseItems_of_plain (items : Anys) (h : plainItems url items = true) (path : List Nat) (i : Nat) :
    sanitizeResponseItems url order path i items = some items := by
  cases items with
  | nil => rfl
  | cons v rest =>
    rw [plainItems, Bool.and_eq_true] at h
    rw [sanitizeResponseItems, sanitizeResponseValue_of_plain v h.1, sanitizeResponseItems_of_plain rest h.2]
    rfl

theorem sanitizeResponseFields_of_plain (fields : AnyMap) (h : plainFields url fields = true) (path : List Nat)
    (i : Nat) : sanitizeResponseFields url order path i fields = some fields := by
  cases fields with
  | nil => rfl
  | cons key child rest =>
    rw [plainFields.eq_def] at h
    simp only [Bool.and_eq_true, Bool.not_eq_true'] at h
    obtain ⟨⟨⟨⟨hdropped, hsensitive⟩, hpath⟩, hchild⟩, hrest⟩ := h
    rw [sanitizeResponseFields.eq_def]
    dsimp only
    rw [sanitizeResponseFields_of_plain rest hrest, hdropped, hsensitive, hpath]
    simp only [Bool.false_eq_true, if_false]
    by_cases hurl : (normalizeResponseKey key == "url") = true
    · rw [if_pos hurl] at hchild
      rw [if_pos hurl, safeResponseURL_of_keeps hchild]
      rfl
    rw [if_neg hurl, Bool.and_eq_true] at hchild
    obtain ⟨hheaders, hplain⟩ := hchild
    rw [if_neg hurl]
    have hvalue := sanitizeResponseValue_of_plain child hplain (path ++ [i])
    split
    · next hname =>
      -- only headers that were redacted before are plain
      cases child with
      | obj headers =>
        rw [bne, hname] at hheaders
        have hredacted : headersRedacted headers = true := hheaders
        rw [sanitizeResponseValue] at hvalue
        dsimp only
        rw [if_pos hredacted, hvalue]
        rfl
      | _ =>
        rw [bne, hname] at hheaders
        cases hheaders
    · rw [hvalue]
      rfl

end

end Kept

end Overture
