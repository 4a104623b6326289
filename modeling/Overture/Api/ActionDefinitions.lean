import Overture.Api.ResponseRedaction

/-!
# Action definitions

The registry of actions. POST and PATCH pass through one normalisation: a PATCH reads the stored row through the
sanitizers of responses, overlays what the request mentions, applies the defaults of the preset and writes the row
back. A text field is mentioned when it is not blank, the others when they are present.
-/

namespace Overture

open Json Except

structure FallbackPolicy where
  enabled : Bool
  (primaryTarget secondaryTarget : Text)
  allowedTargets : List Text
  requiresReplaySafe : Bool
  maxAttempts : Int
deriving DecidableEq

structure ActionDefinition where
  (name displayName description targetType targetURL method policyPreset replayClass : Text)
  (approvalRequired irreversible : Bool)
  secretRefs : List Text
  targetMetadata : AnyMap
  fallbackPolicy : FallbackPolicy
deriving DecidableEq

structure ActionDefinitionRequest where
  name : Text := []
  displayName : Text := []
  description : Text := []
  targetType : Text := []
  targetURL : Text := []
  method : Text := []
  policyPreset : Text := []
  replayClass : Text := []
  approvalRequired : Option Bool := none
  irreversible : Option Bool := none
  secretRefs : Option (List Text) := none
  targetMetadata : Option AnyMap := none
  fallbackPolicy : Option FallbackPolicy := none

inductive ActionError where
  | invalid (message : Text)
  | panicked
deriving DecidableEq

/-- The parser of URLs, the order maps are visited in, `strings.ToUpper`, and the check of the addresses a host
resolves to, which may fail with a text. -/
structure ActionEnv where
  url : URLParser
  order : IterationOrder
  toUpper : Text → Text
  validateResolvedAddresses : Text → Bool → Option Text

def canonicalActionTargetType (targetType : Text) : Text :=
  let t := Text.trimSpace targetType
  if t = "api" then "hosted_api" else t

def oneOf (values : List String) (t : Text) : Bool := values.any fun value => t == value.toList

def validActionTargetType (t : Text) : Bool :=
  oneOf ["hosted_api", "webhook", "local_runtime", "hybrid_fallback", "mock_demo"] t

def isCanonicalFallbackSurface (t : Text) : Bool := oneOf ["hosted_api", "webhook", "local_runtime", "mock_demo"] t

def validActionMethod (t : Text) : Bool := oneOf ["GET", "POST", "PUT", "PATCH", "DELETE"] t

def validPolicyPreset (t : Text) : Bool := oneOf ["Safe automation", "Human-gated", "Non-replayable", "Read-only"] t

def validReplayClass (t : Text) : Bool := oneOf ["retryable", "non_retryable", "read_only"] t

def normalizeActionName (name : Text) : Text :=
  (Text.toLower (Text.trimSpace name)).map fun c => if c == '-' || c == ' ' then '_' else c

/-- The pattern `^[a-z][a-z0-9_.]{1,63}$`. -/
def validActionName : Text → Bool
  | [] => false
  | c :: rest =>
    c.isLower && rest.all (fun c => c.isLower || c.isDigit || c == '_' || c == '.') && 1 ≤ rest.length &&
      rest.length ≤ 63

structure PolicyFlags where
  replayClass : Text
  (approvalRequired irreversible : Bool)
deriving DecidableEq

def applyPolicyPresetDefaults (preset : Text) (flags : PolicyFlags) : PolicyFlags :=
  if preset = "Human-gated" then
    { flags with replayClass := "non_retryable", approvalRequired := true }
  else if preset = "Non-replayable" then
    { flags with replayClass := "non_retryable", irreversible := true }
  else if preset = "Read-only" then
    { flags with replayClass := "read_only", approvalRequired := false }
  else { flags with replayClass := "retryable", approvalRequired := false }

def looksLikeRawActionSecret (value : Text) : Bool :=
  let lower := Text.toLower (Text.trimSpace value)
  !lower.isEmpty &&
    (["bearer", "basic", "password", "authorization", "cookie", "private_key", "-----begin", "://"].any
        (fun part => Text.contains lower part.toList) ||
      ["sk-", "sk_", "rk-", "rk_", "pk-", "pk_", "xoxb-", "xoxp-", "ghp_", "github_pat_", "ya29."].any
        (fun start => start.toList.isPrefixOf lower) ||
      (value.count '.' == 2 && "eyJ".toList.isPrefixOf value))

def sanitizeActionSecretRef (ref : Text) : Option Text :=
  let trimmed := Text.trimSpace ref
  if trimmed.isEmpty then none
  else if looksLikeRawActionSecret trimmed then some ("redacted:" ++ sha256HexString trimmed)
  else some trimmed

def sanitizeActionSecretRefs (refs : List Text) : List Text := refs.filterMap sanitizeActionSecretRef

def safeReferenceRune (c : Char) : Bool :=
  c.isLower || c.isUpper || c.isDigit || c == '_' || c == '-' || c == '.' || c == '/' || c == ':' || c == '@'

def validateActionSecretRef (ref : Text) : Except ActionError Unit := do
  let trimmed := Text.trimSpace ref
  ensure (.invalid "secret_refs cannot contain empty values") !trimmed.isEmpty
  ensure (.invalid "secret_refs must contain references, not secret values")
    (decide (byteLength trimmed ≤ 160))
  ensure (.invalid "secret_refs must contain safe reference identifiers only")
    (trimmed.all safeReferenceRune)
  ensure (.invalid "secret_refs must contain references, not secret values")
    !looksLikeRawActionSecret trimmed

inductive ActionTargetURLClass where
  | loopbackHTTP
  | externalHTTPS
deriving DecidableEq

def isLoopbackHostname (host : Text) : Bool :=
  oneOf ["127.0.0.1", "localhost", "::1"] (Text.toLower (Text.trimSpace host))

def parseActionTargetURL (url : URLParser) (raw : Text) : Except Text (Text × ActionTargetURLClass) := do
  let trimmed := Text.trimSpace raw
  ensure "target URL is required" !trimmed.isEmpty
  let parsed ← need "invalid target URL" (url.parse trimmed)
  ensure "target URL must not embed credentials" !parsed.hasUser
  let scheme := Text.toLower parsed.scheme
  let host := Text.toLower (Text.trimSpace parsed.hostname)
  ensure "target URL host is required" !host.isEmpty
  if scheme = "http" then
    ensure "http targets are limited to loopback hosts (127.0.0.1, localhost, ::1)"
      (isLoopbackHostname host)
    return (host, .loopbackHTTP)
  else if scheme = "https" then
    ensure
      ("https targets must not use loopback hosts; " ++ "use http://127.0.0.1 for local development")
      !isLoopbackHostname host
    return (host, .externalHTTPS)
  else throw ("unsupported target URL scheme \"" ++ scheme ++ "\"")

variable (env : ActionEnv)

def validateActionTargetURL (raw : Text) : Except Text Unit := do
  let (host, cls) ← parseActionTargetURL env.url raw
  match env.validateResolvedAddresses host (cls == .loopbackHTTP) with
  | none => return ()
  | some problem => throw problem

def requiresTargetURL (targetType : Text) : Bool := oneOf ["webhook", "hosted_api"] targetType

def checkTargetURL (targetType targetURL : Text) : Except ActionError Unit :=
  if requiresTargetURL targetType then do
    ensure (.invalid ("target_url is required for " ++ targetType ++ " targets"))
      !(Text.trimSpace targetURL).isEmpty
    match validateActionTargetURL env targetURL with
    | .ok _ => return ()
    | .error problem => throw (.invalid ("unsafe_target_url: " ++ problem))
  else .ok ()

def canonicalFallbackPolicy (fp : FallbackPolicy) : FallbackPolicy :=
  { fp with
    primaryTarget := canonicalActionTargetType fp.primaryTarget
    secondaryTarget := canonicalActionTargetType fp.secondaryTarget
    allowedTargets := fp.allowedTargets.map canonicalActionTargetType }

def validateFallbackPolicy (d : ActionDefinition) : Except ActionError Unit := do
  let fp := d.fallbackPolicy
  if d.targetType = "hybrid_fallback" then
    ensure (.invalid "target_type hybrid_fallback requires fallback_policy.enabled = true") fp.enabled
    ensure
      (.invalid "hybrid_fallback requires both fallback_policy.primary_target and secondary_target")
      (!fp.primaryTarget.isEmpty && !fp.secondaryTarget.isEmpty)
    ensure (.invalid "hybrid_fallback primary_target and secondary_target must differ")
      (fp.primaryTarget != fp.secondaryTarget)
    ensure (.invalid "fallback_policy.primary_target must be a canonical execution surface")
      (isCanonicalFallbackSurface fp.primaryTarget)
    ensure (.invalid "fallback_policy.secondary_target must be a canonical execution surface")
      (isCanonicalFallbackSurface fp.secondaryTarget)
    ensure (.invalid "fallback_policy.max_attempts must be >= 0") (decide (0 ≤ fp.maxAttempts))
  if fp.enabled && !fp.requiresReplaySafe then
    ensure
      (.invalid "irreversible actions cannot enable fallback without requires_replay_safe=true")
      !d.irreversible
    ensure
      (.invalid "non_retryable replay_class cannot enable fallback without requires_replay_safe=true")
      (d.replayClass != "non_retryable")

def given (t : Text) : Bool := !(Text.trimSpace t).isEmpty

def noFallback : FallbackPolicy := ⟨false, [], [], [], false, 0⟩

def newActionDefinition : ActionDefinition where
  name := []
  displayName := []
  description := []
  targetType := "mock_demo"
  targetURL := []
  method := "POST"
  policyPreset := "Safe automation"
  replayClass := "retryable"
  approvalRequired := false
  irreversible := false
  secretRefs := []
  targetMetadata := .nil
  fallbackPolicy := noFallback

def requestedSecretRefs (current : List Text) : Option (List Text) → Except ActionError (List Text)
  | none => .ok current
  | some refs => do
    refs.forM validateActionSecretRef
    return sanitizeActionSecretRefs refs

def requestedMetadata (current : AnyMap) : Option AnyMap → Except ActionError AnyMap
  | none => .ok current
  | some metadata => need .panicked (sanitizeActionMetadata env.url env.order metadata)

def normalizeActionDefinitionRequest (req : ActionDefinitionRequest)
    (current : Option ActionDefinition) : Except ActionError ActionDefinition := do
  let base := current.getD newActionDefinition
  let name := if given req.name || current.isNone then normalizeActionName req.name else base.name
  ensure (.invalid "name must match ^[a-z][a-z0-9_.]\x7b1,63\x7d$") (validActionName name)
  let displayName :=
    if given req.displayName || current.isNone then Text.trimSpace req.displayName else base.displayName
  let displayName := if displayName.isEmpty then name else displayName
  let description :=
    if given req.description || current.isNone then Text.trimSpace req.description else base.description
  let targetType := canonicalActionTargetType (if given req.targetType then req.targetType else base.targetType)
  ensure
    (.invalid ("target_type must be one of hosted_api, webhook, " ++
      "local_runtime, hybrid_fallback, or mock_demo"))
    (validActionTargetType targetType)
  let targetURL :=
    if given req.targetURL || current.isNone then sanitizeActionTargetURL env.url req.targetURL else base.targetURL
  checkTargetURL env targetType targetURL
  let method := if given req.method then env.toUpper (Text.trimSpace req.method) else base.method
  let method := if method.isEmpty then "POST".toList else method
  ensure (.invalid "method must be GET, POST, PUT, PATCH, or DELETE") (validActionMethod method)
  let policyPreset :=
    if given req.policyPreset || current.isNone then Text.trimSpace req.policyPreset else base.policyPreset
  ensure (.invalid "unsupported policy_preset") (validPolicyPreset policyPreset)
  let flags := applyPolicyPresetDefaults policyPreset ⟨base.replayClass, base.approvalRequired, base.irreversible⟩
  let replayClass := if given req.replayClass then Text.trimSpace req.replayClass else flags.replayClass
  ensure (.invalid "replay_class must be retryable, non_retryable, or read_only")
    (validReplayClass replayClass)
  let secretRefs ← requestedSecretRefs base.secretRefs req.secretRefs
  let targetMetadata ← requestedMetadata env base.targetMetadata req.targetMetadata
  let d : ActionDefinition :=
    { name, displayName, description, targetType, targetURL, method, policyPreset, replayClass
      approvalRequired := req.approvalRequired.getD flags.approvalRequired
      irreversible := req.irreversible.getD flags.irreversible
      secretRefs, targetMetadata
      fallbackPolicy := (req.fallbackPolicy.map canonicalFallbackPolicy).getD base.fallbackPolicy }
  validateFallbackPolicy d
  return d

def scanActionDefinition (row : ActionDefinition) : Except ActionError ActionDefinition := do
  let metadata ← need .panicked (sanitizeActionMetadata env.url env.order row.targetMetadata)
  return { row with
    secretRefs := sanitizeActionSecretRefs row.secretRefs
    targetType := canonicalActionTargetType row.targetType
    targetURL := sanitizeActionTargetURL env.url row.targetURL
    targetMetadata := metadata
    fallbackPolicy := canonicalFallbackPolicy row.fallbackPolicy }

def handleActionCreate (req : ActionDefinitionRequest) : Except ActionError ActionDefinition :=
  normalizeActionDefinitionRequest env req none

def patchedRow (req : ActionDefinitionRequest) (row : ActionDefinition) :
    Except ActionError ActionDefinition := do
  let current ← scanActionDefinition env row
  normalizeActionDefinitionRequest env req (some current)

/-- The row after a PATCH; `written` tells whether the statement goes through, which it does not when the new
name is taken or the row is archived meanwhile. -/
def handleActionPatch (written : Bool) (req : ActionDefinitionRequest) (row : ActionDefinition) :
    ActionDefinition :=
  match patchedRow env req row with
  | .ok d => if written then d else row
  | .error _ => row

/-- The fields of a normalized definition, in terms of the request and the row it overlays, with the checks passed. -/
structure Overlays (env : ActionEnv) (req : ActionDefinitionRequest) (isNew : Bool) (base d : ActionDefinition) :
    Prop where
  name : d.name = if given req.name || isNew then normalizeActionName req.name else base.name
  validName : validActionName d.name = true
  displayName : d.displayName =
    let displayName := if given req.displayName || isNew then Text.trimSpace req.displayName else base.displayName
    if displayName.isEmpty then d.name else displayName
  description : d.description =
    if given req.description || isNew then Text.trimSpace req.description else base.description
  targetType : d.targetType =
    canonicalActionTargetType (if given req.targetType then req.targetType else base.targetType)
  validTargetType : validActionTargetType d.targetType = true
  targetURL : d.targetURL =
    if given req.targetURL || isNew then sanitizeActionTargetURL env.url req.targetURL else base.targetURL
  checkedURL : checkTargetURL env d.targetType d.targetURL = .ok ()
  method : d.method =
    let method := if given req.method then env.toUpper (Text.trimSpace req.method) else base.method
    if method.isEmpty then "POST".toList else method
  validMethod : validActionMethod d.method = true
  policyPreset : d.policyPreset =
    if given req.policyPreset || isNew then Text.trimSpace req.policyPreset else base.policyPreset
  validPreset : validPolicyPreset d.policyPreset = true
  replayClass : d.replayClass =
    if given req.replayClass then Text.trimSpace req.replayClass
    else (applyPolicyPresetDefaults d.policyPreset
      ⟨base.replayClass, base.approvalRequired, base.irreversible⟩).replayClass
  validReplayClass : validReplayClass d.replayClass = true
  approvalRequired : d.approvalRequired = req.approvalRequired.getD (applyPolicyPresetDefaults d.policyPreset
    ⟨base.replayClass, base.approvalRequired, base.irreversible⟩).approvalRequired
  irreversible : d.irreversible = req.irreversible.getD (applyPolicyPresetDefaults d.policyPreset
    ⟨base.replayClass, base.approvalRequired, base.irreversible⟩).irreversible
  secretRefs : requestedSecretRefs base.secretRefs req.secretRefs = .ok d.secretRefs
  targetMetadata : requestedMetadata env base.targetMetadata req.targetMetadata = .ok d.targetMetadata
  fallbackPolicy : d.fallbackPolicy = (req.fallbackPolicy.map canonicalFallbackPolicy).getD base.fallbackPolicy
  validFallback : validateFallbackPolicy d = .ok ()

theorem normalizeActionDefinitionRequest_eq_ok {env : ActionEnv} {req : ActionDefinitionRequest}
    {current : Option ActionDefinition} {d : ActionDefinition} :
    normalizeActionDefinitionRequest env req current = .ok d ↔
      Overlays env req current.isNone (current.getD newActionDefinition) d := by
  unfold normalizeActionDefinitionRequest
  constructor
  · intro h
    obtain ⟨hname, h⟩ := ok_of_bind_ok h
    obtain ⟨htype, h⟩ := ok_of_bind_ok h
    obtain ⟨hurl, h⟩ := ok_of_bind_ok h
    obtain ⟨hmethod, h⟩ := ok_of_bind_ok h
    obtain ⟨hpreset, h⟩ := ok_of_bind_ok h
    obtain ⟨hreplay, h⟩ := ok_of_bind_ok h
    obtain ⟨refs, hrefs, h⟩ := exists_of_bind_ok h
    obtain ⟨metadata, hmetadata, h⟩ := exists_of_bind_ok h
    obtain ⟨hfallback, h⟩ := ok_of_bind_ok h
    cases h
    rw [ensure_eq_ok] at hname htype hmethod hpreset hreplay
    exact ⟨rfl, hname, rfl, rfl, rfl, htype, rfl, hurl, rfl, hmethod, rfl, hpreset, rfl, hreplay, rfl, rfl, hrefs,
      hmetadata, rfl, hfallback⟩
  intro h
  have hdisplayName := h.displayName
  have hmethod := h.method
  dsimp only at hdisplayName hmethod ⊢
  rw [← h.name, ← hdisplayName, ← h.description, ← h.targetType, ← h.targetURL, ← hmethod, ← h.policyPreset,
    ← h.replayClass, ← h.approvalRequired, ← h.irreversible, ← h.fallbackPolicy, h.secretRefs, h.targetMetadata]
  refine bind_ok (ensure_eq_ok.mpr h.validName) ?_
  refine bind_ok (ensure_eq_ok.mpr h.validTargetType) ?_
  refine bind_ok h.checkedURL ?_
  refine bind_ok (ensure_eq_ok.mpr h.validMethod) ?_
  refine bind_ok (ensure_eq_ok.mpr h.validPreset) ?_
  refine bind_ok (ensure_eq_ok.mpr h.validReplayClass) ?_
  exact bind_ok h.validFallback rfl

end Overture
