import Overture.Internal.RuntimeSelector
import Overture.Lib.Delimited
import Overture.Lib.Except
import Overture.Lib.Sha256
import Overture.Lib.Signature
import Overture.Lib.Utf8

/-!
# Signed requests of a runtime

A runtime signs every control request. The signed text joins the fields with colons after a tag for the kind of
request; a heartbeat is also accepted in two older forms, which leave out what it reports about local commands. So one
signature may stand for different requests.
-/

namespace Overture.RuntimeRequest

open Delimited Except List

structure RawMessage where
  text : Text
  trimmed : Text.trimSpace text = text

def RawMessage.given (raw : RawMessage) : Bool := !raw.text.isEmpty && raw.text != "null"

structure Register where
  (machineID hostname platform runtimeVersion endpoint publicKeyEd25519 : Text)
  timestampUnixMs : Int
  signature : Text

structure Heartbeat where
  machineID : Text
  btState : RawMessage
  (localCommandSpoolDepth localCommandClearGeneration : Nat)
  localCommandStatuses : RawMessage
  timestampUnixMs : Int
  signature : Text

structure CommandFetch where
  machineID : Text
  timestampUnixMs : Int
  signature : Text

structure CommandAck where
  machineID : Text
  deliveryKeys : List Text
  expectedClearGeneration : Nat
  timestampUnixMs : Int
  signature : Text

inductive Request where
  | register (req : Register)
  | heartbeat (req : Heartbeat)
  | commands (req : CommandFetch)
  | ack (req : CommandAck)
  | deregister (req : Heartbeat)

def Request.signature : Request → Text
  | .register req => req.signature
  | .heartbeat req => req.signature
  | .commands req => req.signature
  | .ack req => req.signature
  | .deregister req => req.signature

/-! ## Signed texts -/

/-- `json.Compact` on a value: white space outside of strings is dropped. -/
def squeeze : Bool → Text → Text
  | _, [] => []
  | false, c :: rest =>
    if Json.isGap c then squeeze false rest
    else c :: squeeze (c == '\x22') rest
  | true, '\x5c' :: c :: rest => '\x5c' :: c :: squeeze true rest
  | true, c :: rest => c :: squeeze (c != '\x22') rest

def RawMessage.content (raw : RawMessage) : Text :=
  if (Json.parse raw.text).isSome then squeeze false raw.text else Text.trimSpace raw.text

def hashText (t : Text) : Text := Hex.encode (Sha256.sum256 (Utf8.encode t))

def runtimeBtStateHash (raw : RawMessage) : Text :=
  if (Text.trimSpace raw.text).isEmpty || Text.trimSpace raw.text == "null" then []
  else hashText raw.content

inductive Tag where
  | register
  | heartbeatV3
  | heartbeatV2
  | heartbeatV1
  | commands
  | ack
  | deregister
deriving DecidableEq

def Tag.text : Tag → Text
  | register => "runtime_register.v1"
  | heartbeatV3 => "runtime_heartbeat.v3"
  | heartbeatV2 => "runtime_heartbeat.v2"
  | heartbeatV1 => "runtime_heartbeat.v1"
  | commands => "runtime_commands.v1"
  | ack => "runtime_commands_ack.v1"
  | deregister => "runtime_deregister.v1"

structure Signed where
  tag : Tag
  body : Text
deriving DecidableEq

def Signed.message (s : Signed) : Text := s.tag.text ++ ':' :: s.body

def number (n : Int) : Text := Json.intLiteral n

def Register.signed (req : Register) : Signed where
  tag := .register
  body := req.machineID ++ ':' :: (req.hostname ++ ':' :: (req.platform ++ ':' :: (req.runtimeVersion ++ ':' ::
    (req.publicKeyEd25519 ++ ':' :: (req.endpoint ++ ':' :: number req.timestampUnixMs)))))

def Heartbeat.signedFor (tag : Tag) (req : Heartbeat) : Signed where
  tag := tag
  body := (req.machineID ++ ':' :: number req.timestampUnixMs) ++ ':' :: runtimeBtStateHash req.btState

def Heartbeat.signedV2 (req : Heartbeat) : Signed where
  tag := .heartbeatV2
  body := (((req.machineID ++ ':' :: number req.timestampUnixMs) ++ ':' :: runtimeBtStateHash req.btState) ++
    ':' :: number req.localCommandSpoolDepth) ++ ':' :: number req.localCommandClearGeneration

def Heartbeat.signedV3 (req : Heartbeat) : Signed where
  tag := .heartbeatV3
  body := ((((req.machineID ++ ':' :: number req.timestampUnixMs) ++ ':' :: runtimeBtStateHash req.btState) ++
    ':' :: number req.localCommandSpoolDepth) ++ ':' :: number req.localCommandClearGeneration) ++
      ':' :: hashText req.localCommandStatuses.text

def CommandFetch.signed (req : CommandFetch) : Signed where
  tag := .commands
  body := req.machineID ++ ':' :: number req.timestampUnixMs

def CommandAck.sortedKeys (req : CommandAck) : List Text := req.deliveryKeys.insertionSort fun a b => a ≤ b

def CommandAck.signed (req : CommandAck) : Signed where
  tag := .ack
  body := (req.machineID ++ ':' :: (number req.timestampUnixMs ++ ':' :: join ',' req.sortedKeys)) ++
    ':' :: number req.expectedClearGeneration

def Request.candidates : Request → List Signed
  | .register req => [req.signed]
  | .heartbeat req =>
    (if req.localCommandStatuses.given then [req.signedV3] else []) ++
      [req.signedV2, req.signedFor .heartbeatV1]
  | .commands req => [req.signed]
  | .ack req => [req.signed]
  | .deregister req => [req.signedFor .deregister]

def verifyRuntimeSignatureMessage (scheme : SignatureScheme) (publicKeyHex signatureBase64 message : Text) :
    Except Text Unit :=
  match Hex.decode (Text.trimSpace publicKeyHex) with
  | none => .error "runtime public key is not valid hex"
  | some key =>
    if key.length ≠ 32 then .error "runtime public key has invalid length"
    else
      match Base64.decode false true (Text.trimSpace signatureBase64) with
      | none => .error "runtime signature is not valid base64"
      | some signature =>
        if scheme.verify key (Utf8.encode message) signature then .ok ()
        else .error "runtime signature verification failed"

def verifyCandidates (scheme : SignatureScheme) (publicKeyHex signatureBase64 : Text) : List Signed → Except Text Unit
  | [] => .ok ()
  | [s] => verifyRuntimeSignatureMessage scheme publicKeyHex signatureBase64 s.message
  | s :: rest =>
    match verifyRuntimeSignatureMessage scheme publicKeyHex signatureBase64 s.message with
    | .ok () => .ok ()
    | .error _ => verifyCandidates scheme publicKeyHex signatureBase64 rest

/-! ## Handlers -/

inductive Refusal where
  | missingFields
  | notRegistered
  | runtimeUnverified
  | signatureInvalid (message : Text)
  | invalidRuntimeEndpoint
  | publicKeyMismatch
deriving DecidableEq

/-- What a handler persists or acts on. The delivery keys have no order. -/
inductive Action where
  | register (machineID hostname platform runtimeVersion publicKey endpoint : Text) (timestampUnixMs : Int)
  | heartbeat (machineID : Text) (btState : Option Text) (spoolDepth clearGeneration : Nat) (statuses : Option Text)
    (timestampUnixMs : Int)
  | commands (machineID : Text) (timestampUnixMs : Int)
  | ack (machineID : Text) (deliveryKeys : List Text) (expectedClearGeneration : Nat) (timestampUnixMs : Int)
  | deregister (machineID : Text) (timestampUnixMs : Int)
deriving DecidableEq

/-- The service at the time of a request: its clock, in nanoseconds, and the public keys of the tenant's
machines. -/
structure Service where
  now : Int
  publicKeyForMachine : Text → Option Text

def timestampWindow : Int := 300 * Instant.second

def Service.validateRuntimeTimestamp (service : Service) (timestampUnixMs : Int) : Except Text Unit :=
  let requestTime := timestampUnixMs * 1000000
  if requestTime < service.now - timestampWindow ∨ service.now + timestampWindow < requestTime then
    .error "runtime request timestamp is outside the accepted window"
  else .ok ()

def Service.runtimeKey (service : Service) : Request → Text
  | .register req => req.publicKeyEd25519
  | .heartbeat req => (service.publicKeyForMachine req.machineID).getD []
  | .commands req => (service.publicKeyForMachine req.machineID).getD []
  | .ack req => (service.publicKeyForMachine req.machineID).getD []
  | .deregister req => (service.publicKeyForMachine req.machineID).getD []

section Handlers

variable (scheme : SignatureScheme) (urls : Selector.URLs) (service : Service)

def authenticate (timestampUnixMs : Int) (request : Request) : Except Refusal Unit := do
  (service.validateRuntimeTimestamp timestampUnixMs).mapError .signatureInvalid
  (verifyCandidates scheme (service.runtimeKey request) request.signature request.candidates).mapError
    .signatureInvalid

def authenticateMachine (machineID : Text) (timestampUnixMs : Int) (request : Request) : Except Refusal Unit := do
  ensure .missingFields (!machineID.isEmpty)
  ensure .missingFields (timestampUnixMs != 0 && !request.signature.isEmpty)
  let publicKey ← need .notRegistered (service.publicKeyForMachine machineID)
  ensure .runtimeUnverified (!(Text.trimSpace publicKey).isEmpty)
  authenticate scheme service timestampUnixMs request

def RawMessage.nullable (raw : RawMessage) (value : Text) : Option Text := if raw.given then some value else none

def Heartbeat.action (req : Heartbeat) : Action :=
  .heartbeat req.machineID (req.btState.nullable req.btState.content) req.localCommandSpoolDepth
    req.localCommandClearGeneration (req.localCommandStatuses.nullable req.localCommandStatuses.text)
    req.timestampUnixMs

def Register.action (req : Register) (endpoint : Text) : Action :=
  .register req.machineID req.hostname req.platform req.runtimeVersion req.publicKeyEd25519 endpoint
    req.timestampUnixMs

def handle : Request → Except Refusal Action
  | .register req => do
    ensure .missingFields (!req.machineID.isEmpty && !req.hostname.isEmpty && !req.runtimeVersion.isEmpty)
    ensure .missingFields
      (!req.publicKeyEd25519.isEmpty && req.timestampUnixMs != 0 && !req.signature.isEmpty)
    authenticate scheme service req.timestampUnixMs (.register req)
    let endpoint ← need .invalidRuntimeEndpoint (Selector.normalizeHTTPRuntimeEndpoint urls req.endpoint)
    -- a machine that is known keeps its key
    ensure .publicKeyMismatch
      ((service.publicKeyForMachine req.machineID).all fun key => key.isEmpty || key == req.publicKeyEd25519)
    return req.action endpoint
  | .heartbeat req => do
    authenticateMachine scheme service req.machineID req.timestampUnixMs (.heartbeat req)
    return req.action
  | .commands req => do
    authenticateMachine scheme service req.machineID req.timestampUnixMs (.commands req)
    return .commands req.machineID req.timestampUnixMs
  | .ack req => do
    authenticateMachine scheme service req.machineID req.timestampUnixMs (.ack req)
    return .ack req.machineID req.sortedKeys req.expectedClearGeneration req.timestampUnixMs
  | .deregister req => do
    authenticateMachine scheme service req.machineID req.timestampUnixMs (.deregister req)
    return .deregister req.machineID req.timestampUnixMs

end Handlers

def Verifies (scheme : SignatureScheme) (publicKeyHex signatureBase64 : Text) (s : Signed) : Prop :=
  verifyRuntimeSignatureMessage scheme publicKeyHex signatureBase64 s.message = .ok ()

theorem verifies_iff {scheme : SignatureScheme} {publicKeyHex signatureBase64 : Text} {s : Signed} :
    Verifies scheme publicKeyHex signatureBase64 s ↔ ∃ key signature,
      Hex.decode (Text.trimSpace publicKeyHex) = some key ∧ key.length = 32 ∧
      Base64.decode false true (Text.trimSpace signatureBase64) = some signature ∧
      scheme.verify key (Utf8.encode s.message) signature = true := by
  rw [Verifies, verifyRuntimeSignatureMessage]
  constructor
  · intro h
    split at h
    · cases h
    next key hkey =>
    split at h
    · cases h
    next hlength =>
    split at h
    · cases h
    next signature hsignature =>
    split at h
    · next hverify => exact ⟨key, signature, hkey, by simpa using hlength, hsignature, hverify⟩
    · cases h
  · rintro ⟨key, signature, hkey, hlength, hsignature, hverify⟩
    simp [hkey, hlength, hsignature, hverify]

theorem verifies_of_verifyCandidates {scheme : SignatureScheme} {publicKeyHex signatureBase64 : Text}
    {candidates : List Signed} (hne : candidates ≠ [])
    (h : verifyCandidates scheme publicKeyHex signatureBase64 candidates = .ok ()) :
    ∃ s ∈ candidates, Verifies scheme publicKeyHex signatureBase64 s := by
  induction candidates with
  | nil => exact absurd rfl hne
  | cons s rest ih =>
    cases rest with
    | nil => exact ⟨s, mem_cons_self, h⟩
    | cons next rest =>
      rw [verifyCandidates] at h
      split at h
      · next hok => exact ⟨s, mem_cons_self, hok⟩
      · obtain ⟨s', hmem, hverifies⟩ := ih (by simp) h
        exact ⟨s', mem_cons_of_mem _ hmem, hverifies⟩
      · simp

theorem candidates_ne_nil (request : Request) : request.candidates ≠ [] := by
  cases request <;> simp [Request.candidates]

def Request.action (urls : Selector.URLs) : Request → Option Action
  | .register req => (Selector.normalizeHTTPRuntimeEndpoint urls req.endpoint).map req.action
  | .heartbeat req => some req.action
  | .commands req => some (.commands req.machineID req.timestampUnixMs)
  | .ack req => some (.ack req.machineID req.sortedKeys req.expectedClearGeneration req.timestampUnixMs)
  | .deregister req => some (.deregister req.machineID req.timestampUnixMs)

section Accepted

variable {scheme : SignatureScheme} {urls : Selector.URLs} {service : Service}

theorem verifies_of_authenticate {timestampUnixMs : Int} {request : Request}
    (h : authenticate scheme service timestampUnixMs request = .ok ()) :
    ∃ s ∈ request.candidates, Verifies scheme (service.runtimeKey request) request.signature s := by
  obtain ⟨-, hverify⟩ := ok_of_bind_ok h
  apply verifies_of_verifyCandidates (candidates_ne_nil request)
  cases hcandidates : verifyCandidates scheme (service.runtimeKey request) request.signature request.candidates with
  | ok _ => rfl
  | error err =>
    rw [hcandidates] at hverify
    cases hverify

theorem verifies_of_authenticateMachine {machineID : Text} {timestampUnixMs : Int} {request : Request}
    (h : authenticateMachine scheme service machineID timestampUnixMs request = .ok ()) :
    ∃ s ∈ request.candidates, Verifies scheme (service.runtimeKey request) request.signature s := by
  obtain ⟨-, h⟩ := ok_of_bind_ok h
  obtain ⟨-, h⟩ := ok_of_bind_ok h
  obtain ⟨publicKey, -, h⟩ := exists_of_bind_ok h
  obtain ⟨-, h⟩ := ok_of_bind_ok h
  exact verifies_of_authenticate h

theorem accepted_of_handle {request : Request} {action : Action}
    (h : handle scheme urls service request = .ok action) :
    request.action urls = some action ∧
      ∃ s ∈ request.candidates, Verifies scheme (service.runtimeKey request) request.signature s := by
  cases request with
  | register req =>
    obtain ⟨-, h⟩ := ok_of_bind_ok h
    obtain ⟨-, h⟩ := ok_of_bind_ok h
    obtain ⟨hauth, h⟩ := ok_of_bind_ok h
    obtain ⟨endpoint, hendpoint, h⟩ := exists_of_bind_ok h
    obtain ⟨-, h⟩ := ok_of_bind_ok h
    refine ⟨?_, verifies_of_authenticate hauth⟩
    rw [Request.action, need_eq_ok.mp hendpoint, Option.map_some, ok.inj h]
  | _ =>
    obtain ⟨hauth, h⟩ := ok_of_bind_ok h
    exact ⟨congrArg some (ok.inj h), verifies_of_authenticateMachine hauth⟩

end Accepted

/-! ## Signed texts that agree -/

theorem Tag.colon_notMem (tag : Tag) : ':' ∉ tag.text := by
  cases tag <;> decide

theorem Tag.text_inj {tag tag' : Tag} (h : tag.text = tag'.text) : tag = tag' := by
  cases tag <;> cases tag' <;> first | rfl | (revert h; decide)

variable {s : Signed} {a b : Text} {texts : List Text} {req req' : Heartbeat}

theorem Signed.message_inj {s' : Signed} (h : s.message = s'.message) : s = s' := by
  obtain ⟨htext, hbody⟩ := cut_first h (Tag.colon_notMem s.tag) (Tag.colon_notMem s'.tag)
  have htag := Tag.text_inj htext
  cases s
  cases s'
  simp_all

theorem number_cut {m n : Int} (h : a ++ ':' :: number m = b ++ ':' :: number n) : a = b ∧ m = n := by
  obtain ⟨hab, hmn⟩ := cut_last h (colon_notMem_intLiteral m) (colon_notMem_intLiteral n)
  exact ⟨hab, intLiteral_inj hmn⟩

theorem count_cut {m n : Nat} (h : a ++ ':' :: number m = b ++ ':' :: number n) : a = b ∧ m = n := by
  obtain ⟨hab, hmn⟩ := number_cut h
  exact ⟨hab, by exact_mod_cast hmn⟩

def Distinguishes (texts : List Text) : Prop :=
  ∀ t ∈ texts, ∀ u ∈ texts, Sha256.sum256 (Utf8.encode t) = Sha256.sum256 (Utf8.encode u) → t = u

theorem hashText_cut (hsha : Distinguishes texts) {t u : Text} (ht : t ∈ texts) (hu : u ∈ texts)
    (h : a ++ ':' :: hashText t = b ++ ':' :: hashText u) : a = b ∧ t = u := by
  obtain ⟨hab, hhash⟩ := cut_last h (colon_notMem_hex _) (colon_notMem_hex _)
  refine ⟨hab, hsha t ht u hu ?_⟩
  have hdecode := congrArg Hex.decode hhash
  rw [hashText, hashText, Hex.decode_encode, Hex.decode_encode] at hdecode
  exact Option.some.inj hdecode

theorem runtimeBtStateHash_eq (raw : RawMessage) :
    runtimeBtStateHash raw = if raw.given then hashText raw.content else [] := by
  rw [runtimeBtStateHash, raw.trimmed, RawMessage.given]
  cases hempty : raw.text.isEmpty <;> cases hnull : raw.text == "null" <;> simp_all

theorem colon_notMem_btStateHash (raw : RawMessage) : ':' ∉ runtimeBtStateHash raw := by
  rw [runtimeBtStateHash_eq]
  split
  · exact colon_notMem_hex _
  · simp

theorem btStateHash_cut (hsha : Distinguishes texts) {raw raw' : RawMessage}
    (ht : raw.content ∈ texts) (hu : raw'.content ∈ texts)
    (h : a ++ ':' :: runtimeBtStateHash raw = b ++ ':' :: runtimeBtStateHash raw') :
    a = b ∧ raw.nullable raw.content = raw'.nullable raw'.content := by
  obtain ⟨hab, hhash⟩ := cut_last h (colon_notMem_btStateHash raw) (colon_notMem_btStateHash raw')
  refine ⟨hab, ?_⟩
  have hlength : ∀ t : Text, hashText t ≠ [] := by
    intro t hnil
    have hzero := congrArg length hnil
    simp [hashText] at hzero
  rw [runtimeBtStateHash_eq, runtimeBtStateHash_eq] at hhash
  rw [RawMessage.nullable, RawMessage.nullable]
  split at hhash <;> split at hhash
  · next hgiven hgiven' =>
    have hsame := hashText_cut hsha ht hu (show [] ++ ':' :: hashText raw.content = [] ++ ':' :: hashText raw'.content
      by rw [hhash])
    rw [if_pos hgiven, if_pos hgiven', hsame.2]
  · exact absurd hhash (hlength _)
  · exact absurd hhash.symm (hlength _)
  · next hnot hnot' => rw [if_neg hnot, if_neg hnot']

def SameCuts : Request → Request → Prop
  | .register req, .register req' =>
    req.machineID.length = req'.machineID.length ∧ req.hostname.length = req'.hostname.length ∧
      req.platform.length = req'.platform.length ∧ req.runtimeVersion.length = req'.runtimeVersion.length ∧
      req.publicKeyEd25519.length = req'.publicKeyEd25519.length
  | .ack req, .ack req' =>
    req.machineID.length = req'.machineID.length ∧
      req.sortedKeys.map length = req'.sortedKeys.map length
  | _, _ => True

theorem Register.eq_of_signed {req req' : Register} (h : req.signed = req'.signed)
    (hcuts : SameCuts (.register req) (.register req')) :
    req.endpoint = req'.endpoint ∧ req.action = req'.action := by
  obtain ⟨hmachine, hhost, hplatform, hversion, hkey⟩ := hcuts
  have hbody := congrArg Signed.body h
  simp only [Register.signed] at hbody
  obtain ⟨hmachine, hbody⟩ := cut_length hbody hmachine
  obtain ⟨hhost, hbody⟩ := cut_length hbody hhost
  obtain ⟨hplatform, hbody⟩ := cut_length hbody hplatform
  obtain ⟨hversion, hbody⟩ := cut_length hbody hversion
  obtain ⟨hkey, hbody⟩ := cut_length hbody hkey
  obtain ⟨hendpoint, htime⟩ := number_cut hbody
  refine ⟨hendpoint, funext fun endpoint => ?_⟩
  simp only [Register.action, hmachine, hhost, hplatform, hversion, hkey, htime]

theorem CommandAck.eq_of_signed {req req' : CommandAck} (h : req.signed = req'.signed)
    (hcuts : SameCuts (.ack req) (.ack req')) :
    req.machineID = req'.machineID ∧ req.sortedKeys = req'.sortedKeys ∧
      req.expectedClearGeneration = req'.expectedClearGeneration ∧ req.timestampUnixMs = req'.timestampUnixMs := by
  have hbody := congrArg Signed.body h
  simp only [CommandAck.signed] at hbody
  obtain ⟨hbody, hgeneration⟩ := count_cut hbody
  obtain ⟨hmachine, hbody⟩ := cut_length hbody hcuts.1
  obtain ⟨htime, hkeys⟩ := cut_first hbody (colon_notMem_intLiteral _) (colon_notMem_intLiteral _)
  exact ⟨hmachine, join_inj hkeys hcuts.2, hgeneration, intLiteral_inj htime⟩

theorem CommandFetch.eq_of_signed {req req' : CommandFetch} (h : req.signed = req'.signed) :
    req.machineID = req'.machineID ∧ req.timestampUnixMs = req'.timestampUnixMs :=
  number_cut (congrArg Signed.body h)

theorem Heartbeat.eq_of_signedFor {tag : Tag} (h : req.signedFor tag = req'.signedFor tag) :
    req.machineID = req'.machineID ∧ req.timestampUnixMs = req'.timestampUnixMs := by
  have hbody := congrArg Signed.body h
  simp only [Heartbeat.signedFor] at hbody
  exact number_cut (cut_last hbody (colon_notMem_btStateHash _) (colon_notMem_btStateHash _)).1

def Request.hashed : Request → List Text
  | .heartbeat req => [req.btState.content, req.localCommandStatuses.text]
  | _ => []

def Heartbeat.Agrees (req req' : Heartbeat) : Prop :=
  req.machineID = req'.machineID ∧ req.timestampUnixMs = req'.timestampUnixMs ∧
    req.btState.nullable req.btState.content = req'.btState.nullable req'.btState.content

theorem Heartbeat.agrees_of_body (hsha : Distinguishes texts)
    (ht : req.btState.content ∈ texts) (hu : req'.btState.content ∈ texts)
    (h : (req.machineID ++ ':' :: number req.timestampUnixMs) ++ ':' :: runtimeBtStateHash req.btState =
      (req'.machineID ++ ':' :: number req'.timestampUnixMs) ++ ':' :: runtimeBtStateHash req'.btState) :
    req.Agrees req' := by
  obtain ⟨hbody, hbt⟩ := btStateHash_cut hsha ht hu h
  obtain ⟨hmachine, htime⟩ := number_cut hbody
  exact ⟨hmachine, htime, hbt⟩

theorem Heartbeat.action_congr (hagrees : req.Agrees req')
    (hdepth : req.localCommandSpoolDepth = req'.localCommandSpoolDepth)
    (hgeneration : req.localCommandClearGeneration = req'.localCommandClearGeneration)
    (hstatuses : req.localCommandStatuses.nullable req.localCommandStatuses.text =
      req'.localCommandStatuses.nullable req'.localCommandStatuses.text) : req.action = req'.action := by
  obtain ⟨hmachine, htime, hstate⟩ := hagrees
  rw [Heartbeat.action, Heartbeat.action, hmachine, htime, hstate, hdepth, hgeneration, hstatuses]

theorem RawMessage.nullable_of_not_given {raw : RawMessage} {value : Text} (h : raw.given = false) :
    raw.nullable value = none := by
  rw [RawMessage.nullable, h]
  rfl

def Heartbeat.ReportedIn (req : Heartbeat) : Tag → Prop
  | .heartbeatV3 => True
  | .heartbeatV2 => req.localCommandStatuses.given = false
  | _ => req.localCommandStatuses.given = false ∧ req.localCommandSpoolDepth = 0 ∧ req.localCommandClearGeneration = 0

theorem Heartbeat.mem_candidates (h : s ∈ (Request.heartbeat req).candidates) :
    (req.localCommandStatuses.given = true ∧ s = req.signedV3) ∨ s = req.signedV2 ∨
      s = req.signedFor .heartbeatV1 := by
  simp only [Request.candidates, mem_append, mem_cons, not_mem_nil, or_false] at h
  rcases h with hv3 | hv2 | hv1
  · split at hv3
    · next hgiven => exact .inl ⟨hgiven, mem_singleton.mp hv3⟩
    · simp at hv3
  · exact .inr (.inl hv2)
  · exact .inr (.inr hv1)

theorem Heartbeat.eq_of_tag (h : s ∈ (Request.heartbeat req).candidates) :
    (s.tag = .heartbeatV3 → req.localCommandStatuses.given = true ∧ s = req.signedV3) ∧
      (s.tag = .heartbeatV2 → s = req.signedV2) ∧ (s.tag = .heartbeatV1 → s = req.signedFor .heartbeatV1) := by
  rcases mem_candidates h with ⟨hgiven, rfl⟩ | rfl | rfl
  · exact ⟨fun _ => ⟨hgiven, rfl⟩, nofun, nofun⟩
  · exact ⟨nofun, fun _ => rfl, nofun⟩
  · exact ⟨nofun, nofun, fun _ => rfl⟩

theorem Heartbeat.action_eq (hsha : Distinguishes texts)
    (htexts : ∀ t ∈ (Request.heartbeat req).hashed ++ (Request.heartbeat req').hashed, t ∈ texts)
    (h : s ∈ (Request.heartbeat req).candidates) (h' : s ∈ (Request.heartbeat req').candidates)
    (hreported : req.ReportedIn s.tag) (hreported' : req'.ReportedIn s.tag) : req.action = req'.action := by
  have hbt : req.btState.content ∈ texts := htexts _ (by simp [Request.hashed])
  have hbt' : req'.btState.content ∈ texts := htexts _ (by simp [Request.hashed])
  have hstatuses : req.localCommandStatuses.text ∈ texts := htexts _ (by simp [Request.hashed])
  have hstatuses' : req'.localCommandStatuses.text ∈ texts := htexts _ (by simp [Request.hashed])
  -- the tag of the common text fixes the form of both requests
  obtain ⟨hv3, hv2, hv1⟩ := eq_of_tag h'
  rcases mem_candidates h with ⟨hgiven, rfl⟩ | rfl | rfl
  · obtain ⟨hgiven', hsame⟩ := hv3 rfl
    have hbody := congrArg Signed.body hsame
    simp only [Heartbeat.signedV3] at hbody
    obtain ⟨hbody, htext⟩ := hashText_cut hsha hstatuses hstatuses' hbody
    obtain ⟨hbody, hgeneration⟩ := count_cut hbody
    obtain ⟨hbody, hdepth⟩ := count_cut hbody
    refine action_congr (agrees_of_body hsha hbt hbt' hbody) hdepth hgeneration ?_
    rw [RawMessage.nullable, RawMessage.nullable, hgiven, hgiven', htext]
  · have hbody := congrArg Signed.body (hv2 rfl)
    simp only [Heartbeat.signedV2] at hbody
    obtain ⟨hbody, hgeneration⟩ := count_cut hbody
    obtain ⟨hbody, hdepth⟩ := count_cut hbody
    refine action_congr (agrees_of_body hsha hbt hbt' hbody) hdepth hgeneration ?_
    rw [RawMessage.nullable_of_not_given hreported, RawMessage.nullable_of_not_given hreported']
  obtain ⟨hnone, hdepth, hgeneration⟩ : req.localCommandStatuses.given = false ∧ _ ∧ _ := hreported
  obtain ⟨hnone', hdepth', hgeneration'⟩ : req'.localCommandStatuses.given = false ∧ _ ∧ _ := hreported'
  refine action_congr (agrees_of_body hsha hbt hbt' (congrArg Signed.body (hv1 rfl))) (hdepth.trans hdepth'.symm)
    (hgeneration.trans hgeneration'.symm) ?_
  rw [RawMessage.nullable_of_not_given hnone, RawMessage.nullable_of_not_given hnone']

inductive Kind where
  | register
  | heartbeat
  | commands
  | ack
  | deregister

def Tag.kind : Tag → Kind
  | register => .register
  | heartbeatV3 => .heartbeat
  | heartbeatV2 => .heartbeat
  | heartbeatV1 => .heartbeat
  | commands => .commands
  | ack => .ack
  | deregister => .deregister

def Request.kind : Request → Kind
  | .register _ => .register
  | .heartbeat _ => .heartbeat
  | .commands _ => .commands
  | .ack _ => .ack
  | .deregister _ => .deregister

theorem kind_of_mem_candidates {request : Request} (h : s ∈ request.candidates) :
    s.tag.kind = request.kind := by
  cases request with
  | heartbeat req =>
    rcases Heartbeat.mem_candidates h with ⟨-, rfl⟩ | rfl | rfl
    · rfl
    · rfl
    · rfl
  | _ =>
    rw [mem_singleton.mp h]
    rfl

/-- Requests with a common signed text that reports all do the same exactly when they are cut alike. -/
theorem action_eq_iff {urls : Selector.URLs} {r₁ r₂ : Request} {a₁ a₂ : Action} (haction₁ : r₁.action urls = some a₁)
    (haction₂ : r₂.action urls = some a₂) (hsha : Distinguishes (r₁.hashed ++ r₂.hashed))
    (hs₁ : s ∈ r₁.candidates) (hs₂ : s ∈ r₂.candidates)
    (hreported₁ : ∀ req, r₁ = .heartbeat req → req.ReportedIn s.tag)
    (hreported₂ : ∀ req, r₂ = .heartbeat req → req.ReportedIn s.tag) : a₁ = a₂ ↔ SameCuts r₁ r₂ := by
  have hkind : r₁.kind = r₂.kind := (kind_of_mem_candidates hs₁).symm.trans (kind_of_mem_candidates hs₂)
  have hsingle : ∀ {t u : Signed}, s ∈ [t] → s ∈ [u] → t = u := fun ht hu =>
    (mem_singleton.mp ht).symm.trans (mem_singleton.mp hu)
  cases r₁ <;> cases r₂ <;> try cases hkind
  case register.register req req' =>
    constructor
    · rintro rfl
      obtain ⟨endpoint, -, h₁⟩ := Option.map_eq_some_iff.mp haction₁
      obtain ⟨endpoint', -, h₂⟩ := Option.map_eq_some_iff.mp haction₂
      have hfields := h₁.trans h₂.symm
      simp only [Register.action, Action.register.injEq] at hfields
      obtain ⟨hmachine, hhost, hplatform, hversion, hkey, -, -⟩ := hfields
      exact ⟨by rw [hmachine], by rw [hhost], by rw [hplatform], by rw [hversion], by rw [hkey]⟩
    · intro hcuts
      obtain ⟨hendpoint, hfields⟩ := Register.eq_of_signed (hsingle hs₁ hs₂) hcuts
      rw [Request.action, hendpoint, hfields] at haction₁
      exact Option.some.inj (haction₁.symm.trans haction₂)
  case heartbeat.heartbeat req req' =>
    refine iff_of_true ?_ trivial
    have hfields := Heartbeat.action_eq hsha (fun _ ht => ht) hs₁ hs₂ (hreported₁ req rfl) (hreported₂ req' rfl)
    rw [Request.action, hfields] at haction₁
    exact Option.some.inj (haction₁.symm.trans haction₂)
  case commands.commands req req' =>
    refine iff_of_true ?_ trivial
    obtain ⟨hmachine, htime⟩ := CommandFetch.eq_of_signed (hsingle hs₁ hs₂)
    rw [Request.action, hmachine, htime] at haction₁
    exact Option.some.inj (haction₁.symm.trans haction₂)
  case ack.ack req req' =>
    constructor
    · rintro rfl
      have hfields := Option.some.inj (haction₁.trans haction₂.symm)
      simp only [Action.ack.injEq] at hfields
      exact ⟨by rw [hfields.1], by rw [hfields.2.1]⟩
    intro hcuts
    obtain ⟨hmachine, hkeys, hgeneration, htime⟩ := CommandAck.eq_of_signed (hsingle hs₁ hs₂) hcuts
    rw [Request.action, hmachine, hkeys, hgeneration, htime] at haction₁
    exact Option.some.inj (haction₁.symm.trans haction₂)
  case deregister.deregister req req' =>
    refine iff_of_true ?_ trivial
    obtain ⟨hmachine, htime⟩ := Heartbeat.eq_of_signedFor (hsingle hs₁ hs₂)
    rw [Request.action, hmachine, htime] at haction₁
    exact Option.some.inj (haction₁.symm.trans haction₂)

/-! ## One signature, one request -/

section OneSignature

variable (scheme : SignatureScheme) (service : Service)

def NothingUnsigned : Request → Prop
  | .heartbeat req => ∃ s ∈ (Request.heartbeat req).candidates,
      Verifies scheme (service.runtimeKey (.heartbeat req)) req.signature s ∧ req.ReportedIn s.tag
  | _ => True

/-- A heartbeat that reports statuses is signed in the third form, one that reports a depth or a generation in
the second. -/
def SignedInFull : Request → Prop
  | .heartbeat req =>
    if req.localCommandStatuses.given then
      Verifies scheme (service.runtimeKey (.heartbeat req)) req.signature req.signedV3
    else req.localCommandSpoolDepth ≠ 0 ∨ req.localCommandClearGeneration ≠ 0 →
      Verifies scheme (service.runtimeKey (.heartbeat req)) req.signature req.signedV2
  | _ => True

variable {scheme} {service}

theorem nothingUnsigned_iff {request : Request}
    (haccepted : ∃ s ∈ request.candidates, Verifies scheme (service.runtimeKey request) request.signature s) :
    NothingUnsigned scheme service request ↔ SignedInFull scheme service request := by
  cases request with
  | heartbeat req =>
    constructor
    · rintro ⟨s, hmem, hverifies, hreported⟩
      rw [SignedInFull]
      rcases Heartbeat.mem_candidates hmem with ⟨hgiven, rfl⟩ | rfl | rfl
      · rw [if_pos hgiven]
        exact hverifies
      · have hnone : req.localCommandStatuses.given = false := hreported
        rw [hnone]
        exact fun _ => hverifies
      obtain ⟨hnone, hdepth, hgeneration⟩ : req.localCommandStatuses.given = false ∧ _ ∧ _ := hreported
      rw [hnone]
      rintro (hne | hne)
      · exact absurd hdepth hne
      · exact absurd hgeneration hne
    intro hfull
    rw [SignedInFull] at hfull
    split at hfull
    · next hgiven => exact ⟨req.signedV3, by simp [Request.candidates, hgiven], hfull, trivial⟩
    next hnot =>
    have hnone : req.localCommandStatuses.given = false := by simpa using hnot
    by_cases hreports : req.localCommandSpoolDepth ≠ 0 ∨ req.localCommandClearGeneration ≠ 0
    · exact ⟨req.signedV2, by simp [Request.candidates], hfull hreports, hnone⟩
    have hzero : req.localCommandSpoolDepth = 0 ∧ req.localCommandClearGeneration = 0 := by omega
    obtain ⟨s, hmem, hverifies⟩ := haccepted
    refine ⟨s, hmem, hverifies, ?_⟩
    rcases Heartbeat.mem_candidates hmem with ⟨-, rfl⟩ | rfl | rfl
    · trivial
    · exact hnone
    · exact ⟨hnone, hzero⟩
  | _ => exact Iff.rfl

def Binds (scheme : SignatureScheme) (texts : List Signed) : Prop :=
  ∀ key signature, ∀ s ∈ texts, ∀ s' ∈ texts, scheme.verify key (Utf8.encode s.message) signature = true →
    scheme.verify key (Utf8.encode s'.message) signature = true → s.message = s'.message

theorem eq_of_verifies {texts : List Signed} (hbinds : Binds scheme texts) {key key' signature signature' : Text}
    (hkey : Hex.decode (Text.trimSpace key) = Hex.decode (Text.trimSpace key'))
    (hsignature : Base64.decode false true (Text.trimSpace signature) =
      Base64.decode false true (Text.trimSpace signature'))
    {s s' : Signed} (hs : s ∈ texts) (hs' : s' ∈ texts) (h : Verifies scheme key signature s)
    (h' : Verifies scheme key' signature' s') : s = s' := by
  obtain ⟨k, sig, hk, -, hsig, hverify⟩ := verifies_iff.mp h
  obtain ⟨k', sig', hk', -, hsig', hverify'⟩ := verifies_iff.mp h'
  obtain rfl : k = k' := Option.some.inj (hk.symm.trans (hkey.trans hk'))
  obtain rfl : sig = sig' := Option.some.inj (hsig.symm.trans (hsignature.trans hsig'))
  exact Signed.message_inj (hbinds k sig s hs s' hs' hverify hverify')

/-- Two requests accepted under one key with one signature do the same, and no heartbeat reports anything unsigned,
exactly when their fields are cut in the same places and heartbeats are signed in full. -/
theorem one_signature_one_action_iff {urls : Selector.URLs} {service₁ service₂ : Service} {r₁ r₂ : Request}
    {a₁ a₂ : Action} (h₁ : handle scheme urls service₁ r₁ = .ok a₁) (h₂ : handle scheme urls service₂ r₂ = .ok a₂)
    (hkey : Hex.decode (Text.trimSpace (service₁.runtimeKey r₁)) =
      Hex.decode (Text.trimSpace (service₂.runtimeKey r₂)))
    (hsignature : Base64.decode false true (Text.trimSpace r₁.signature) =
      Base64.decode false true (Text.trimSpace r₂.signature))
    (hbinds : Binds scheme (r₁.candidates ++ r₂.candidates)) (hsha : Distinguishes (r₁.hashed ++ r₂.hashed)) :
    (a₁ = a₂ ∧ NothingUnsigned scheme service₁ r₁ ∧ NothingUnsigned scheme service₂ r₂) ↔
      (SameCuts r₁ r₂ ∧ SignedInFull scheme service₁ r₁ ∧ SignedInFull scheme service₂ r₂) := by
  obtain ⟨haction₁, hverified₁⟩ := accepted_of_handle h₁
  obtain ⟨haction₂, hverified₂⟩ := accepted_of_handle h₂
  rw [← nothingUnsigned_iff hverified₁, ← nothingUnsigned_iff hverified₂]
  have hunique : ∀ s ∈ r₁.candidates, ∀ s' ∈ r₂.candidates,
      Verifies scheme (service₁.runtimeKey r₁) r₁.signature s →
      Verifies scheme (service₂.runtimeKey r₂) r₂.signature s' → s = s' := by
    intro s hs s' hs'
    exact eq_of_verifies hbinds hkey hsignature (mem_append_left _ hs) (mem_append_right _ hs')
  apply and_congr_left
  rintro ⟨hsigned₁, hsigned₂⟩
  obtain ⟨s, hs₁, hverifies₁⟩ := hverified₁
  obtain ⟨s', hs₂, hverifies₂⟩ := hverified₂
  obtain rfl := hunique s hs₁ s' hs₂ hverifies₁ hverifies₂
  refine action_eq_iff haction₁ haction₂ hsha hs₁ hs₂ ?_ ?_
  · rintro req rfl
    obtain ⟨t, ht, hverifies, hreported⟩ := hsigned₁
    rwa [← hunique t ht s hs₂ hverifies hverifies₂]
  rintro req rfl
  obtain ⟨t, ht, hverifies, hreported⟩ := hsigned₂
  rwa [hunique s hs₁ t ht hverifies₁ hverifies]

end OneSignature

def sampleService : Service := ⟨5000000, fun _ => some (replicate 64 '0')⟩

def sampleSignature (s : Signed) : Text := Base64.encode (echoScheme.sign () (Utf8.encode s.message))

def sampleAck (signedKeys keys : List Text) : Request :=
  .ack ⟨"dev", keys, 3, 5, sampleSignature (CommandAck.signed ⟨"dev", signedKeys, 3, 5, []⟩)⟩

theorem permuted_keys_one_action :
    ∃ a₁ a₂,
      handle echoScheme Selector.hostURLs sampleService
        (sampleAck ["a".toList, "b".toList] ["a".toList, "b".toList]) = .ok a₁ ∧
      handle echoScheme Selector.hostURLs sampleService
        (sampleAck ["a".toList, "b".toList] ["b".toList, "a".toList]) = .ok a₂ ∧ a₁ = a₂ := by
  have h₁ : handle echoScheme Selector.hostURLs sampleService
      (sampleAck ["a", "b"] ["a", "b"]) =
        .ok (.ack "dev" ["a", "b"] 3 5) := by decide +kernel
  have h₂ : handle echoScheme Selector.hostURLs sampleService
      (sampleAck ["a", "b"] ["b", "a"]) =
        .ok (.ack "dev" ["a", "b"] 3 5) := by decide +kernel
  have hcandidates : (sampleAck ["a", "b"] ["b", "a"]).candidates =
      (sampleAck ["a", "b"] ["a", "b"]).candidates := by decide +kernel
  refine ⟨_, _, h₁, h₂, ((one_signature_one_action_iff h₁ h₂ rfl rfl ?_ ?_).mpr
    ⟨⟨rfl, by decide +kernel⟩, trivial, trivial⟩).1⟩
  · rw [hcandidates]
    intro key signature s hs s' hs' _ _
    simp only [sampleAck, Request.candidates, mem_append, mem_singleton, or_self] at hs hs'
    rw [hs, hs']
  · intro t ht
    simp [sampleAck, Request.hashed] at ht

def oldHeartbeat (depth : Nat) : Heartbeat where
  machineID := "dev"
  btState := ⟨[], rfl⟩
  localCommandSpoolDepth := depth
  localCommandClearGeneration := 0
  localCommandStatuses := ⟨[], rfl⟩
  timestampUnixMs := 5
  signature := sampleSignature ⟨.heartbeatV1, "dev:5:"⟩

theorem one_signature_many_requests :
    (handle echoScheme Selector.hostURLs sampleService (.heartbeat (oldHeartbeat 0)) =
        .ok (.heartbeat "dev".toList none 0 0 none 5) ∧
      handle echoScheme Selector.hostURLs sampleService (.heartbeat (oldHeartbeat 7)) =
        .ok (.heartbeat "dev".toList none 7 0 none 5) ∧
      (oldHeartbeat 0).signature = (oldHeartbeat 7).signature) ∧
    (handle echoScheme Selector.hostURLs sampleService (sampleAck ["a,b".toList] ["a,b".toList]) =
        .ok (.ack "dev".toList ["a,b".toList] 3 5) ∧
      handle echoScheme Selector.hostURLs sampleService (sampleAck ["a,b".toList] ["a".toList, "b".toList]) =
        .ok (.ack "dev".toList ["a".toList, "b".toList] 3 5)) := by
  refine ⟨⟨by decide +kernel, by decide +kernel, rfl⟩, by decide +kernel, by decide +kernel⟩

end Overture.RuntimeRequest
