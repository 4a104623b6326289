import Overture.Lib.Except
import Overture.Lib.Json.Integer
import Overture.Lib.Sha256
import Overture.Lib.Signature
import Overture.Lib.Table
import Overture.Lib.Utf8

/-!
# Robotics policies and their signing keys

A tenant's admin writes policies and signing keys by commands that are signed with one of the
tenant's active keys. Only the first key is created without a signature, and it is a draft.
Keys and policies move through one lifecycle; each command writes the status it stands for.
-/

namespace Overture.Robotics

open Except

inductive LifecycleStatus where
  | draft
  | active
  | expired
  | revoked
deriving DecidableEq

structure SigningKey where
  (tenantID keyVersion signerIdentity publicKeyEd25519 : Text)
  status : LifecycleStatus
  notBefore : Int
  expiresAt : Option Int
  createdBy : Text
  revokedBy : Option Text
deriving DecidableEq

def SigningKey.id (k : SigningKey) : Text × Text := (k.tenantID, k.keyVersion)

inductive RobotMode where
  | supervised
  | active
  | disabled
deriving DecidableEq

structure Policy where
  (tenantID policyVersion : Text)
  status : LifecycleStatus
  (permit runtimePermitted : Bool)
  robotMode : RobotMode
  allowedRuntimes : List Text
  active : Bool
  (expiresAt activatedAt expiredAt revokedAt : Option Int)
  (createdBy updatedBy : Text)
  revokedBy : Option Text
deriving DecidableEq

def Policy.id (p : Policy) : Text × Text := (p.tenantID, p.policyVersion)

structure CommandNonce where
  (tenantID keyVersion action nonce commandHash commandSignature actorID signerIdentity : Text)
  (signedAt expiresAt : Int)
deriving DecidableEq

def CommandNonce.id (n : CommandNonce) : Text × Text × Text × Text := (n.tenantID, n.keyVersion, n.action, n.nonce)

structure State where
  now : Int
  keys : Table SigningKey.id
  policies : Table Policy.id
  nonces : Table CommandNonce.id

structure SigningKeyRequest where
  (keyVersion signerIdentity publicKeyEd25519 : Text)
  (notBefore expiresAt : Option Int)

structure PolicyRequest where
  policyVersion : Text
  (permit runtimePermitted : Bool)
  robotMode : Text
  allowedRuntimes : List Text
  expiresAt : Option Int

structure Command where
  (actorID email : Text)
  admin : Bool
  (method path : Text)
  body : List UInt8
  (signer keyVersion signature signedAt nonce : Text)

inductive Route where
  | createSigningKey
  | activateSigningKey (version : Text)
  | revokeSigningKey (version : Text)
  | expireSigningKey (version : Text)
  | createDraft
  | updateDraft (version : Text)
  | updateAllowList (version : Text)
  | activate (version : Text)
  | expire (version : Text)
  | revoke (version : Text)

/-- What the handlers take from their surroundings for good: the signature scheme, `strings.ToUpper` and the
parsers of bodies. -/
structure Server where
  scheme : SignatureScheme
  toUpper : Text → Text
  signingKeyRequest : List UInt8 → Option SigningKeyRequest
  policyRequest : List UInt8 → Option PolicyRequest
  allowListRequest : List UInt8 → Option (List Text)

/-- What they take for one request: the server's clock and the statements the database fails at. -/
structure Turn where
  clock : Int
  existsFails : Bool := false
  lookupFails : Bool := false
  nonceFails : Bool := false
  readFails : Bool := false
  writeFails : Bool := false
  auditFails : Bool := false
  commitFails : Bool := false

structure Reply where
  code : Nat
  error : String
  signerKeyVersion : Option Text
deriving DecidableEq

def Reply.Accepted (r : Reply) : Prop := 200 ≤ r.code ∧ r.code < 300

instance (r : Reply) : Decidable r.Accepted := inferInstanceAs (Decidable (_ ∧ _))

/-! ## Signatures -/

def usable (now : Int) (k : SigningKey) : Bool :=
  k.status == .active && k.notBefore ≤ now && k.expiresAt.all fun e => decide (now < e)

def roboticsPolicyTenantHasActiveSigningKey (s : State) (tenantID : Text) : Bool :=
  s.keys.rows.any fun k => k.tenantID == tenantID && usable s.now k

def commandMaxClockSkew : Int := 300000000000

def decodeRoboticsPolicySignature (value : Text) : Option (List UInt8) :=
  match Base64.decode false true value with
  | some bytes => if bytes.length = 64 then some bytes else hexSignature value
  | none => hexSignature value
where
  /-- A hexadecimal text of another length is passed on as no signature at all, which is never verified. -/
  hexSignature (value : Text) : Option (List UInt8) :=
    (Hex.decode value).map fun bytes => if bytes.length = 64 then bytes else []

section Handlers

variable (server : Server) (turn : Turn)

def canonicalRoboticsPolicyCommand (cmd : Command) (keyVersion signedAt nonce action : Text) :
    List UInt8 :=
  Utf8.encode (List.intercalate "\n"
    [server.toUpper (Text.trimSpace cmd.method), Text.trimSpace cmd.path, keyVersion, signedAt, nonce, action,
      Hex.encode (Sha256.sum256 cmd.body)])

/-- The errors of authentication and of the signature. -/
inductive Refusal where
  | unauthenticated
  | adminRequired
  | signatureRequired
  | invalidTimestamp
  | signatureExpired
  | invalidSignerKey
  | invalidSignature
  | signerIdentityMismatch
  | commandReplay
  | databaseError

def Refusal.code : Refusal → Nat
  | .unauthenticated => 401
  | .adminRequired => 403
  | .signatureRequired => 401
  | .invalidTimestamp => 400
  | .signatureExpired => 401
  | .invalidSignerKey => 403
  | .invalidSignature => 403
  | .signerIdentityMismatch => 403
  | .commandReplay => 409
  | .databaseError => 500

def Refusal.error : Refusal → String
  | .unauthenticated => "unauthenticated"
  | .adminRequired => "admin_required"
  | .signatureRequired => "policy_signature_required"
  | .invalidTimestamp => "invalid_policy_signature_timestamp"
  | .signatureExpired => "policy_signature_expired"
  | .invalidSignerKey => "invalid_policy_signer_key"
  | .invalidSignature => "invalid_policy_signature"
  | .signerIdentityMismatch => "policy_signer_identity_mismatch"
  | .commandReplay => "policy_command_replay"
  | .databaseError => "db_error"

def Refusal.reply (r : Refusal) : Reply := ⟨r.code, r.error, none⟩

theorem Refusal.not_accepted (r : Refusal) : ¬ r.reply.Accepted := by
  cases r <;> decide

def roboticsPolicyActorFromContext (cmd : Command) : Except Refusal Text := do
  ensure .unauthenticated !cmd.actorID.isEmpty
  ensure .adminRequired cmd.admin
  let signer := Text.trimSpace cmd.signer
  let signer := if signer.isEmpty then Text.trimSpace cmd.email else signer
  return if signer.isEmpty then cmd.actorID else signer

def verifyRoboticsPolicyCommandSignature (s : State) (cmd : Command) (action : Text) :
    Except Refusal (State × Text) := do
  let keyVersion := Text.trimSpace cmd.keyVersion
  let signatureValue := Text.trimSpace cmd.signature
  let signedAtValue := Text.trimSpace cmd.signedAt
  let nonce := Text.trimSpace cmd.nonce
  ensure .signatureRequired
    (!keyVersion.isEmpty && !signatureValue.isEmpty && !signedAtValue.isEmpty && !nonce.isEmpty)
  let signedAtMs ← need .invalidTimestamp (Json.parseInt 64 signedAtValue)
  let signedAt := signedAtMs * 1000000
  ensure .signatureExpired
    (decide (turn.clock - commandMaxClockSkew ≤ signedAt ∧ signedAt ≤ turn.clock + commandMaxClockSkew))
  ensure .databaseError !turn.lookupFails
  let key ← need .invalidSignerKey
    ((s.keys.get? (cmd.actorID, keyVersion)).filter (usable s.now))
  let publicKey ← need .invalidSignerKey (Hex.decode (Text.trimSpace key.publicKeyEd25519))
  ensure .invalidSignerKey (publicKey.length == 32)
  let signature ← need .invalidSignature (decodeRoboticsPolicySignature signatureValue)
  let sum := Sha256.sum256 (canonicalRoboticsPolicyCommand server cmd keyVersion signedAtValue nonce action)
  ensure .invalidSignature (signature.length == 64 && server.scheme.verify publicKey sum signature)
  ensure .signerIdentityMismatch
    ((Text.trimSpace cmd.signer).isEmpty || Text.trimSpace cmd.signer == key.signerIdentity)
  ensure .databaseError !turn.nonceFails
  ensure .commandReplay (s.nonces.get? (cmd.actorID, keyVersion, action, nonce)).isNone
  let consumed : CommandNonce :=
    { tenantID := cmd.actorID, keyVersion, action, nonce, commandHash := Hex.encode sum
      commandSignature := signatureValue, actorID := cmd.actorID, signerIdentity := key.signerIdentity
      signedAt, expiresAt := signedAt + commandMaxClockSkew }
  return ({ s with nonces := s.nonces.put consumed }, key.signerIdentity)

/-- A handler that requires a signature: `write` is what it does afterwards, as the signer. -/
def signedWrite (s : State) (cmd : Command) (action : String)
    (write : Text → State → State × Nat × String) : State × Reply :=
  match roboticsPolicyActorFromContext cmd with
  | .error refusal => (s, refusal.reply)
  | .ok _ =>
    match verifyRoboticsPolicyCommandSignature server turn s cmd action.toList with
    | .error refusal => (s, refusal.reply)
    | .ok (s', identity) =>
      let (s'', code, problem) := write identity s'
      (s'', ⟨code, problem, some (Text.trimSpace cmd.keyVersion)⟩)

def audited (code : Nat) (s : State) : State × Nat × String :=
  if turn.auditFails then (s, 500, "db_error") else (s, code, "")

def insertSigningKey (cmd : Command) (identity : Text) (s : State) :
    State × Nat × String :=
  match server.signingKeyRequest cmd.body with
  | none => (s, 400, "invalid_body")
  | some req =>
    let keyVersion := Text.trimSpace req.keyVersion
    let publicKey := Text.trimSpace req.publicKeyEd25519
    if keyVersion.isEmpty || publicKey.isEmpty then (s, 400, "invalid_signing_key")
    else if !(Hex.decode publicKey).any (fun bytes => bytes.length == 32) then (s, 400, "invalid_public_key")
    else if turn.writeFails || (s.keys.get? (cmd.actorID, keyVersion)).isSome then (s, 500, "db_error")
    else
      audited turn 201 { s with
        keys := s.keys.put
          { tenantID := cmd.actorID, keyVersion
            signerIdentity :=
              if (Text.trimSpace req.signerIdentity).isEmpty then identity else Text.trimSpace req.signerIdentity
            publicKeyEd25519 := publicKey, status := .draft, notBefore := req.notBefore.getD s.now
            expiresAt := req.expiresAt, createdBy := cmd.actorID, revokedBy := none } }

def createRoboticsPolicySigningKey (s : State) (cmd : Command) : State × Reply :=
  match roboticsPolicyActorFromContext cmd with
  | .error refusal => (s, refusal.reply)
  | .ok identity =>
    if turn.existsFails then (s, Refusal.databaseError.reply)
    else if roboticsPolicyTenantHasActiveSigningKey s cmd.actorID then
      signedWrite server turn s cmd "signing_key_create" (insertSigningKey server turn cmd)
    else
      let (s', code, problem) := insertSigningKey server turn cmd identity s
      (s', ⟨code, problem, none⟩)

def updateSigningKey (cmd : Command) (status : LifecycleStatus) (version : Text) (s : State) :
    State × Nat × String :=
  let keyVersion := Text.trimSpace version
  if keyVersion.isEmpty then (s, 400, "invalid_key_version")
  else if turn.readFails then (s, 500, "db_error")
  else
    match s.keys.get? (cmd.actorID, keyVersion) with
    | none => (s, 404, "signing_key_not_found")
    | some key =>
      if turn.writeFails then (s, 500, "db_error")
      else
        audited turn 200 { s with
          keys := s.keys.put { key with
            status
            revokedBy := if status = .revoked then some cmd.actorID else key.revokedBy } }

/-! ## Policies -/

def normalizePolicyVersion (value : Text) : Text :=
  if (Text.trimSpace value).isEmpty then "robotics-policy.v1" else Text.trimSpace value

def normalizeRobotMode (value : Text) : RobotMode :=
  let value := Text.toLower (Text.trimSpace value)
  if value = "supervised" then .supervised
  else if value = "active" then .active
  else .disabled

def normalizeAllowedRuntimes (runtimes : List Text) : List Text :=
  runtimes.foldl (fun seen r =>
    let r := Text.trimSpace r
    if r.isEmpty || seen.contains r then seen else seen ++ [r]) []

def upsertDraftRoboticsPolicy (tenantID : Text) (req : PolicyRequest) (code : Nat) (s : State) :
    State × Nat × String :=
  if turn.writeFails then (s, 500, "db_error")
  else
    let policyVersion := normalizePolicyVersion req.policyVersion
    let drafted : Policy :=
      match s.policies.get? (tenantID, policyVersion) with
      | some p =>
        { p with
          status := .draft, permit := req.permit, runtimePermitted := req.runtimePermitted
          robotMode := normalizeRobotMode req.robotMode
          allowedRuntimes := normalizeAllowedRuntimes req.allowedRuntimes, active := false
          expiresAt := req.expiresAt, updatedBy := tenantID }
      | none =>
        { tenantID, policyVersion, status := .draft, permit := req.permit, runtimePermitted := req.runtimePermitted
          robotMode := normalizeRobotMode req.robotMode
          allowedRuntimes := normalizeAllowedRuntimes req.allowedRuntimes, active := false
          expiresAt := req.expiresAt, activatedAt := none, expiredAt := none, revokedAt := none
          createdBy := tenantID, updatedBy := tenantID, revokedBy := none }
    audited turn code { s with policies := s.policies.put drafted }

def draftPolicy (cmd : Command) (version : Option Text) (code : Nat) (s : State) :
    State × Nat × String :=
  match server.policyRequest cmd.body with
  | none => (s, 400, "invalid_body")
  | some req =>
    upsertDraftRoboticsPolicy turn cmd.actorID
      { req with policyVersion := version.getD req.policyVersion } code s

def updatePolicy (cmd : Command) (version : Text) (f : Policy → Policy) (s : State) :
    State × Nat × String :=
  if turn.writeFails then (s, 500, "db_error")
  else
    match s.policies.get? (cmd.actorID, normalizePolicyVersion version) with
    | none => (s, 404, "policy_not_found")
    | some p => audited turn 200 { s with policies := s.policies.put (f p) }

def updateAllowList (cmd : Command) (version : Text) (s : State) :
    State × Nat × String :=
  match server.allowListRequest cmd.body with
  | none => (s, 400, "invalid_body")
  | some runtimes =>
    updatePolicy turn cmd version
      (fun p => { p with allowedRuntimes := normalizeAllowedRuntimes runtimes, updatedBy := cmd.actorID }) s

def deactivated (actorID : Text) (p : Policy) : Policy :=
  if p.tenantID = actorID ∧ p.active = true then
    { p with active := false, status := if p.status = .active then .draft else p.status, updatedBy := actorID }
  else p

theorem deactivated_id (actorID : Text) (p : Policy) : (deactivated actorID p).id = p.id := by
  unfold deactivated
  split_ifs <;> rfl

def activated (now : Int) (actorID : Text) (p : Policy) : Policy :=
  { p with
    status := .active, active := true, activatedAt := some now, expiredAt := none, revokedAt := none
    revokedBy := none, updatedBy := actorID }

def activatePolicy (cmd : Command) (version : Text) (s : State) : State × Nat × String :=
  if turn.writeFails then (s, 500, "db_error")
  else
    let policies := s.policies.alter (deactivated cmd.actorID) (deactivated_id cmd.actorID)
    match policies.get? (cmd.actorID, normalizePolicyVersion version) with
    | none => (s, 404, "policy_not_found")
    | some p =>
      if turn.auditFails || turn.commitFails then (s, 500, "db_error")
      else ({ s with policies := policies.put (activated s.now cmd.actorID p) }, 200, "")

def expired (now : Int) (actorID : Text) (p : Policy) : Policy :=
  { p with status := .expired, active := false, expiredAt := some now, updatedBy := actorID }

def revoked (now : Int) (actorID : Text) (p : Policy) : Policy :=
  { p with
    status := .revoked, active := false, revokedAt := some now, updatedBy := actorID, revokedBy := some actorID }

def handle (cmd : Command) (s : State) : Route → State × Reply
  | .createSigningKey => createRoboticsPolicySigningKey server turn s cmd
  | .activateSigningKey version =>
    signedWrite server turn s cmd "signing_key_activate" fun _ => updateSigningKey turn cmd .active version
  | .revokeSigningKey version =>
    signedWrite server turn s cmd "signing_key_revoke" fun _ => updateSigningKey turn cmd .revoked version
  | .expireSigningKey version =>
    signedWrite server turn s cmd "signing_key_expire" fun _ => updateSigningKey turn cmd .expired version
  | .createDraft => signedWrite server turn s cmd "draft" fun _ => draftPolicy server turn cmd none 201
  | .updateDraft version => signedWrite server turn s cmd "update" fun _ => draftPolicy server turn cmd (some version) 200
  | .updateAllowList version => signedWrite server turn s cmd "allow_list" fun _ => updateAllowList server turn cmd version
  | .activate version => signedWrite server turn s cmd "activate" fun _ => activatePolicy turn cmd version
  | .expire version =>
    signedWrite server turn s cmd "expire" fun _ s => updatePolicy turn cmd version (expired s.now cmd.actorID) s
  | .revoke version =>
    signedWrite server turn s cmd "revoke" fun _ s => updatePolicy turn cmd version (revoked s.now cmd.actorID) s

inductive Event where
  | request (turn : Turn) (cmd : Command) (route : Route)
  | wait (duration : Nat)
  | cleanup

def Event.apply (s : State) : Event → State
  | .request turn cmd route => (handle server turn cmd s route).1
  | .wait duration => { s with now := s.now + duration }
  | .cleanup => { s with nonces := s.nonces.keep fun n => !decide (n.expiresAt < s.now) }

def run (s : State) (events : List Event) : State := events.foldl (Event.apply server) s

end Handlers

structure SameRows (s s' : State) : Prop where
  keys : s'.keys = s.keys
  policies : s'.policies = s.policies

variable {server : Server} {s : State} {tenantID : Text}

theorem verify_spec {turn : Turn} {s' : State} {cmd : Command} {action identity : Text}
    (h : verifyRoboticsPolicyCommandSignature server turn s cmd action = .ok (s', identity)) :
    SameRows s s' ∧ ∃ key, s.keys.get? (cmd.actorID, Text.trimSpace cmd.keyVersion) = some key ∧
      usable s.now key = true := by
  unfold verifyRoboticsPolicyCommandSignature at h
  obtain ⟨-, h⟩ := ok_of_bind_ok h
  obtain ⟨_, -, h⟩ := exists_of_bind_ok h
  obtain ⟨-, h⟩ := ok_of_bind_ok h
  obtain ⟨-, h⟩ := ok_of_bind_ok h
  obtain ⟨key, hkey, h⟩ := exists_of_bind_ok h
  obtain ⟨_, -, h⟩ := exists_of_bind_ok h
  obtain ⟨-, h⟩ := ok_of_bind_ok h
  obtain ⟨_, -, h⟩ := exists_of_bind_ok h
  obtain ⟨-, h⟩ := ok_of_bind_ok h
  obtain ⟨-, h⟩ := ok_of_bind_ok h
  obtain ⟨-, h⟩ := ok_of_bind_ok h
  obtain ⟨-, h⟩ := ok_of_bind_ok h
  cases h
  rw [need_eq_ok, Option.filter_eq_some_iff] at hkey
  exact ⟨⟨rfl, rfl⟩, key, hkey⟩

/-- A handler that requires a signature refuses without a trace, or the command was signed with a usable key of
the tenant. -/
theorem signedWrite_cases (server : Server) (turn : Turn) (s : State) (cmd : Command) (action : String)
    (write : Text → State → State × Nat × String) :
    (∃ refusal : Refusal, signedWrite server turn s cmd action write = (s, refusal.reply)) ∨
      ∃ s' identity key, SameRows s s' ∧
        s.keys.get? (cmd.actorID, Text.trimSpace cmd.keyVersion) = some key ∧ usable s.now key = true ∧
        signedWrite server turn s cmd action write =
          ((write identity s').1,
            ⟨(write identity s').2.1, (write identity s').2.2, some (Text.trimSpace cmd.keyVersion)⟩) := by
  rw [signedWrite]
  cases roboticsPolicyActorFromContext cmd with
  | error refusal => exact .inl ⟨refusal, rfl⟩
  | ok _ =>
    cases hverify : verifyRoboticsPolicyCommandSignature server turn s cmd action.toList with
    | error refusal => exact .inl ⟨refusal, rfl⟩
    | ok outcome =>
      obtain ⟨s', identity⟩ := outcome
      obtain ⟨hsame, key, hkey, husable⟩ := verify_spec hverify
      exact .inr ⟨s', identity, key, hsame, hkey, husable, rfl⟩

theorem audited_fst (turn : Turn) (code : Nat) (s : State) : (audited turn code s).1 = s := by
  unfold audited
  split_ifs <;> rfl

theorem insertSigningKey_cases (server : Server) (turn : Turn) (cmd : Command) (identity : Text) (s : State) :
    (insertSigningKey server turn cmd identity s).1 = s ∨
      ∃ key, (insertSigningKey server turn cmd identity s).1 = { s with keys := s.keys.put key } ∧
        key.status = .draft ∧ s.keys.get? key.id = none := by
  rw [insertSigningKey]
  cases server.signingKeyRequest cmd.body with
  | none => exact .inl rfl
  | some req =>
    dsimp only
    split
    · exact .inl rfl
    split
    · exact .inl rfl
    split
    · exact .inl rfl
    next htaken =>
    rw [audited_fst]
    rw [Bool.or_eq_true, not_or] at htaken
    have hfree : s.keys.get? (cmd.actorID, Text.trimSpace req.keyVersion) = none := by simpa using htaken.2
    exact .inr ⟨_, rfl, rfl, hfree⟩

theorem updateSigningKey_cases (turn : Turn) (cmd : Command) (status : LifecycleStatus) (version : Text) (s : State) :
    (updateSigningKey turn cmd status version s).1 = s ∧ ¬ (updateSigningKey turn cmd status version s).2.1 < 300 ∨
      ∃ key key', s.keys.get? (cmd.actorID, Text.trimSpace version) = some key ∧
        (updateSigningKey turn cmd status version s).1 = { s with keys := s.keys.put key' } ∧
        key'.status = status ∧ key'.id = key.id := by
  rw [updateSigningKey]
  split
  · exact .inl ⟨rfl, by simp⟩
  split
  · exact .inl ⟨rfl, by simp⟩
  · cases hkey : s.keys.get? (cmd.actorID, Text.trimSpace version) with
    | none => exact .inl ⟨rfl, by simp⟩
    | some key =>
      dsimp only
      split
      · exact .inl ⟨rfl, by simp⟩
      rw [audited_fst]
      exact .inr ⟨key, _, rfl, rfl, rfl, rfl⟩

/-! ## Bootstrapping -/

def Event.By (tenantID : Text) : Event → Prop
  | .request _ cmd _ => cmd.actorID = tenantID
  | .wait _ => True
  | .cleanup => True

def Hopeful (tenantID : Text) (s : State) : Prop :=
  ∃ k ∈ s.keys.rows, k.tenantID = tenantID ∧ k.status = .active ∧
    ∃ t ≥ s.now, k.notBefore ≤ t ∧ ∀ e, k.expiresAt = some e → t < e

theorem usable_iff {now : Int} {k : SigningKey} :
    usable now k = true ↔ k.status = .active ∧ k.notBefore ≤ now ∧ ∀ e, k.expiresAt = some e → now < e := by
  rw [usable, Bool.and_eq_true, Bool.and_eq_true, beq_iff_eq, decide_eq_true_eq, and_assoc]
  cases k.expiresAt <;> simp

theorem hopeful_of_usable {k : SigningKey} (hk : k ∈ s.keys.rows) (h : usable s.now k = true) :
    Hopeful k.tenantID s := by
  obtain ⟨hactive, hbefore, hexpires⟩ := usable_iff.mp h
  exact ⟨k, hk, rfl, hactive, s.now, le_rfl, hbefore, hexpires⟩

theorem hopeful_of_hasActive (h : roboticsPolicyTenantHasActiveSigningKey s tenantID = true) : Hopeful tenantID s := by
  rw [roboticsPolicyTenantHasActiveSigningKey, List.any_eq_true] at h
  obtain ⟨k, hk, h⟩ := h
  rw [Bool.and_eq_true, beq_iff_eq] at h
  obtain ⟨rfl, husable⟩ := h
  exact hopeful_of_usable hk husable

theorem not_hopeful_signedWrite {turn : Turn} {cmd : Command} {action : String}
    {write : Text → State → State × Nat × String} (h : ¬ Hopeful cmd.actorID s) :
    ¬ Hopeful cmd.actorID (signedWrite server turn s cmd action write).1 := by
  obtain ⟨refusal, hrefused⟩ | ⟨s', identity, key, -, hkey, husable, -⟩ :=
    signedWrite_cases server turn s cmd action write
  · rwa [hrefused]
  have htenant : key.tenantID = cmd.actorID := congrArg Prod.fst (Table.key_of_get? hkey)
  exact absurd (htenant ▸ hopeful_of_usable (Table.mem_of_get? hkey) husable) h

theorem not_hopeful_put_draft {key : SigningKey} (hdraft : key.status = .draft)
    (h : ¬ Hopeful tenantID s) : ¬ Hopeful tenantID { s with keys := s.keys.put key } := by
  rintro ⟨k, hk, htenant, hactive, htime⟩
  have hget := Table.get?_of_mem hk
  rw [Table.get?_put] at hget
  split_ifs at hget with hid
  · rw [← Option.some_inj.mp hget, hdraft] at hactive
    cases hactive
  · exact h ⟨k, Table.mem_of_get? hget, htenant, hactive, htime⟩

theorem not_hopeful_apply (server : Server) {e : Event} (hby : e.By tenantID)
    (h : ¬ Hopeful tenantID s) : ¬ Hopeful tenantID (e.apply server s) := by
  cases e with
  | request turn cmd route =>
    obtain rfl : cmd.actorID = tenantID := hby
    cases route with
    | createSigningKey =>
      change ¬ Hopeful _ (createRoboticsPolicySigningKey server turn s cmd).1
      rw [createRoboticsPolicySigningKey]
      cases roboticsPolicyActorFromContext cmd with
      | error e => exact h
      | ok identity =>
        dsimp only
        split
        · exact h
        split
        · next hactive => exact absurd (hopeful_of_hasActive hactive) h
        obtain hsame | ⟨key, hput, hdraft, -⟩ := insertSigningKey_cases server turn cmd identity s
        · rwa [hsame]
        rw [hput]
        exact not_hopeful_put_draft hdraft h
    | _ => exact not_hopeful_signedWrite h
  | wait duration =>
    rintro ⟨k, hk, htenant, hactive, t, ht, htime⟩
    have hlater : s.now + duration ≤ t := ht
    exact h ⟨k, hk, htenant, hactive, t, by omega, htime⟩
  | cleanup => exact h

theorem not_hopeful_run {events : List Event}
    (hby : ∀ e ∈ events, e.By tenantID) (h : ¬ Hopeful tenantID s) : ¬ Hopeful tenantID (run server s events) := by
  induction events generalizing s with
  | nil => exact h
  | cons e rest ih =>
    have hstep := not_hopeful_apply server (hby e (by simp)) h
    exact ih (fun e' he' => hby e' (by simp [he'])) hstep

def CanActivate (server : Server) (tenantID : Text) (s : State) : Prop :=
  ∃ events : List Event, (∀ e ∈ events, e.By tenantID) ∧
    roboticsPolicyTenantHasActiveSigningKey (run server s events) tenantID = true

theorem not_canActivate (h : ¬ Hopeful tenantID s) :
    ¬ CanActivate server tenantID s := by
  rintro ⟨events, hby, hactive⟩
  exact not_hopeful_run hby h (hopeful_of_hasActive hactive)

/-- Some key can be made active exactly if one is active already and its time is not over. -/
theorem canActivate_iff (server : Server) (tenantID : Text) (s : State) :
    CanActivate server tenantID s ↔ Hopeful tenantID s := by
  constructor
  · contrapose!
    exact not_canActivate
  rintro ⟨k, hk, htenant, hactive, t, ht, hbefore, hexpires⟩
  refine ⟨[.wait (t - s.now).toNat], by simp [Event.By], ?_⟩
  have hnow : s.now + (t - s.now).toNat = t := by omega
  have husable : usable t k = true := usable_iff.mpr ⟨hactive, hbefore, hexpires⟩
  rw [roboticsPolicyTenantHasActiveSigningKey, List.any_eq_true]
  refine ⟨k, hk, ?_⟩
  rw [htenant, beq_self_eq_true, Bool.true_and]
  change usable (s.now + (t - s.now).toNat) k = true
  rwa [hnow]

def noKeys : State := ⟨0, .empty, .empty, .empty⟩

def echoServer : Server where
  scheme := echoScheme
  toUpper := List.map Char.toUpper
  signingKeyRequest _ := none
  policyRequest _ := none
  allowListRequest _ := none

theorem no_key_can_be_activated : ¬ CanActivate echoServer "acme".toList noKeys := by
  apply not_canActivate
  rintro ⟨k, hk, -⟩
  cases hk

end Overture.Robotics
