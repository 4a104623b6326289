import Overture.Api.RoboticsPolicy

/-!
# Revoked keys and policies

Every command writes its status whatever the status was before, so a revocation lasts exactly as
long as nobody drafts, activates or expires the revoked version again. In a run that respects
revocations no command is accepted under a revoked key, and no revoked policy is active.
-/

namespace Overture.Robotics

open Table

def RevokedPolicy (p : Policy) : Prop := p.status = .revoked ∧ p.active = false

structure KeepsRevoked (s s' : State) : Prop where
  keys : ∀ {id key}, s.keys.get? id = some key → key.status = .revoked →
    ∃ key', s'.keys.get? id = some key' ∧ key'.status = .revoked
  policies : ∀ {id p}, s.policies.get? id = some p → RevokedPolicy p →
    ∃ p', s'.policies.get? id = some p' ∧ RevokedPolicy p'

variable {s : State} {server : Server} {turn : Turn} {cmd : Command} {version : Text}

theorem SameRows.keepsRevoked {s' : State} (h : SameRows s s') : KeepsRevoked s s' where
  keys hkey hrevoked := ⟨_, h.keys ▸ hkey, hrevoked⟩
  policies hp hrevoked := ⟨_, h.policies ▸ hp, hrevoked⟩

theorem KeepsRevoked.refl (s : State) : KeepsRevoked s s := SameRows.keepsRevoked ⟨rfl, rfl⟩

theorem KeepsRevoked.trans {s₁ s₂ s₃ : State} (h₁ : KeepsRevoked s₁ s₂) (h₂ : KeepsRevoked s₂ s₃) :
    KeepsRevoked s₁ s₃ where
  keys hkey hrevoked := by
    obtain ⟨key', hkey', hrevoked'⟩ := h₁.keys hkey hrevoked
    exact h₂.keys hkey' hrevoked'
  policies hp hrevoked := by
    obtain ⟨p', hp', hrevoked'⟩ := h₁.policies hp hrevoked
    exact h₂.policies hp' hrevoked'

theorem keepsRevoked_putKey {key : SigningKey}
    (h : ∀ old, s.keys.get? key.id = some old → old.status = .revoked → key.status = .revoked) :
    KeepsRevoked s { s with keys := s.keys.put key } where
  keys {id old} hold hrevoked := by
    simp only [get?_put]
    split_ifs with hid
    · subst hid
      exact ⟨key, rfl, h old hold hrevoked⟩
    · exact ⟨old, hold, hrevoked⟩
  policies hp hrevoked := ⟨_, hp, hrevoked⟩

theorem keepsRevoked_putPolicy {policies : Table Policy.id} {p : Policy}
    (hkept : ∀ {id old}, s.policies.get? id = some old → RevokedPolicy old →
      ∃ old', policies.get? id = some old' ∧ RevokedPolicy old')
    (h : ∀ old, s.policies.get? p.id = some old → RevokedPolicy old → RevokedPolicy p) :
    KeepsRevoked s { s with policies := policies.put p } where
  keys hkey hrevoked := ⟨_, hkey, hrevoked⟩
  policies {id old} hold hrevoked := by
    simp only [get?_put]
    split_ifs with hid
    · subst hid
      exact ⟨p, rfl, h old hold hrevoked⟩
    · exact hkept hold hrevoked

def Respects (server : Server) (s : State) : Event → Prop
  | .request _ cmd route =>
    let keyStays (version : Text) : Prop := ∀ key, s.keys.get? (cmd.actorID, Text.trimSpace version) = some key →
      key.status ≠ .revoked
    let policyStays (version : Text) : Prop :=
      ∀ p, s.policies.get? (cmd.actorID, normalizePolicyVersion version) = some p → p.status ≠ .revoked
    match route with
    | .activateSigningKey version => keyStays version
    | .expireSigningKey version => keyStays version
    | .createDraft => ∀ req, server.policyRequest cmd.body = some req → policyStays req.policyVersion
    | .updateDraft version => policyStays version
    | .activate version => policyStays version
    | .expire version => policyStays version
    | _ => True
  | .wait _ => True
  | .cleanup => True

theorem keepsRevoked_signedWrite {action : String}
    {write : Text → State → State × Nat × String}
    (h : ∀ identity s', SameRows s s' → KeepsRevoked s' (write identity s').1) :
    KeepsRevoked s (signedWrite server turn s cmd action write).1 := by
  obtain ⟨refusal, hrefused⟩ | ⟨s', identity, key, hsame, -, -, hrun⟩ :=
    signedWrite_cases server turn s cmd action write
  · rw [hrefused]
    exact .refl s
  · rw [hrun]
    exact hsame.keepsRevoked.trans (h identity s' hsame)

theorem keepsRevoked_insertSigningKey (server : Server) (turn : Turn) (cmd : Command) (identity : Text) (s : State) :
    KeepsRevoked s (insertSigningKey server turn cmd identity s).1 := by
  obtain hsame | ⟨key, hput, -, hfree⟩ := insertSigningKey_cases server turn cmd identity s
  · rw [hsame]
    exact .refl s
  rw [hput]
  apply keepsRevoked_putKey
  intro old hold
  exact absurd (hfree.symm.trans hold) (by simp)

theorem keepsRevoked_updateSigningKey {status : LifecycleStatus}
    (h : status = .revoked ∨
      ∀ key, s.keys.get? (cmd.actorID, Text.trimSpace version) = some key → key.status ≠ .revoked) :
    KeepsRevoked s (updateSigningKey turn cmd status version s).1 := by
  obtain ⟨hsame, -⟩ | ⟨key, key', hkey, hput, hstatus, hid⟩ := updateSigningKey_cases turn cmd status version s
  · rw [hsame]
    exact .refl s
  rw [hput]
  apply keepsRevoked_putKey
  intro old hold hrevoked
  have hkeyID : key.id = (cmd.actorID, Text.trimSpace version) := key_of_get? hkey
  rw [hid, hkeyID] at hold
  obtain rfl | hstays := h
  · exact hstatus
  · exact absurd hrevoked (hstays old hold)

theorem keepsRevoked_upsert {tenantID : Text} {req : PolicyRequest} {code : Nat}
    (h : ∀ p, s.policies.get? (tenantID, normalizePolicyVersion req.policyVersion) = some p → p.status ≠ .revoked) :
    KeepsRevoked s (upsertDraftRoboticsPolicy turn tenantID req code s).1 := by
  rw [upsertDraftRoboticsPolicy]
  split
  · exact .refl s
  dsimp only
  rw [audited_fst]
  apply keepsRevoked_putPolicy fun hold hrevoked => ⟨_, hold, hrevoked⟩
  intro old hold hrevoked
  refine absurd hrevoked.1 (h old ?_)
  split at hold
  · next p hp =>
    have hid : p.id = (tenantID, normalizePolicyVersion req.policyVersion) := key_of_get? hp
    rw [← hid]
    exact hold
  · exact hold

theorem keepsRevoked_draftPolicy {version : Option Text} {code : Nat}
    (h : ∀ req, server.policyRequest cmd.body = some req → ∀ p,
      s.policies.get? (cmd.actorID, normalizePolicyVersion (version.getD req.policyVersion)) = some p →
      p.status ≠ .revoked) :
    KeepsRevoked s (draftPolicy server turn cmd version code s).1 := by
  rw [draftPolicy]
  cases hreq : server.policyRequest cmd.body with
  | none => exact .refl s
  | some req => exact keepsRevoked_upsert (h req hreq)

theorem keepsRevoked_updatePolicy {f : Policy → Policy}
    (hid : ∀ p, (f p).id = p.id)
    (h : ∀ p, s.policies.get? (cmd.actorID, normalizePolicyVersion version) = some p → RevokedPolicy p →
      RevokedPolicy (f p)) :
    KeepsRevoked s (updatePolicy turn cmd version f s).1 := by
  rw [updatePolicy]
  split
  · exact .refl s
  · cases hp : s.policies.get? (cmd.actorID, normalizePolicyVersion version) with
    | none => exact .refl s
    | some p =>
      dsimp only
      rw [audited_fst]
      apply keepsRevoked_putPolicy fun hold hrevoked => ⟨_, hold, hrevoked⟩
      intro old hold hrevoked
      have hpID : p.id = (cmd.actorID, normalizePolicyVersion version) := key_of_get? hp
      rw [hid, hpID, hp, Option.some_inj] at hold
      subst hold
      exact h p hp hrevoked

theorem RevokedPolicy.deactivated {actorID : Text} {p : Policy} (h : RevokedPolicy p) :
    RevokedPolicy (deactivated actorID p) := by
  rw [Robotics.deactivated, if_neg (by simp [h.2])]
  exact h

theorem keepsRevoked_activatePolicy
    (h : ∀ p, s.policies.get? (cmd.actorID, normalizePolicyVersion version) = some p → p.status ≠ .revoked) :
    KeepsRevoked s (activatePolicy turn cmd version s).1 := by
  rw [activatePolicy]
  split
  · exact .refl s
  dsimp only
  cases hp : (s.policies.alter (deactivated cmd.actorID) (deactivated_id cmd.actorID)).get?
      (cmd.actorID, normalizePolicyVersion version) with
  | none => exact .refl s
  | some p =>
    dsimp only
    split
    · exact .refl s
    have hpID : p.id = (cmd.actorID, normalizePolicyVersion version) := key_of_get? hp
    apply keepsRevoked_putPolicy
    · intro id old hold hrevoked
      rw [get?_alter, hold]
      exact ⟨_, rfl, hrevoked.deactivated⟩
    intro old hold hrevoked
    rw [show (activated s.now cmd.actorID p).id = p.id from rfl, hpID] at hold
    exact absurd hrevoked.1 (h old hold)

theorem keepsRevoked_apply {e : Event} (h : Respects server s e) :
    KeepsRevoked s (e.apply server s) := by
  cases e with
  | request turn cmd route =>
    cases route with
    | createSigningKey =>
      change KeepsRevoked s (createRoboticsPolicySigningKey server turn s cmd).1
      rw [createRoboticsPolicySigningKey]
      cases roboticsPolicyActorFromContext cmd with
      | error e => exact .refl s
      | ok identity =>
        dsimp only
        split
        · exact .refl s
        split
        · exact keepsRevoked_signedWrite fun identity s' _ => keepsRevoked_insertSigningKey _ _ _ _ _
        · exact keepsRevoked_insertSigningKey server turn cmd identity s
    | activateSigningKey version | expireSigningKey version =>
      exact keepsRevoked_signedWrite fun _ s' hsame =>
        keepsRevoked_updateSigningKey (.inr fun key hkey => h key (hsame.keys ▸ hkey))
    | revokeSigningKey version =>
      exact keepsRevoked_signedWrite fun _ s' _ => keepsRevoked_updateSigningKey (.inl rfl)
    | createDraft =>
      exact keepsRevoked_signedWrite fun _ s' hsame =>
        keepsRevoked_draftPolicy fun req hreq p hp => h req hreq p (hsame.policies ▸ hp)
    | updateDraft version =>
      exact keepsRevoked_signedWrite fun _ s' hsame =>
        keepsRevoked_draftPolicy fun req _ p hp => h p (hsame.policies ▸ hp)
    | updateAllowList version =>
      refine keepsRevoked_signedWrite fun _ s' _ => ?_
      change KeepsRevoked s' (Robotics.updateAllowList server turn cmd version s').1
      rw [Robotics.updateAllowList]
      cases server.allowListRequest cmd.body with
      | none => exact .refl s'
      | some runtimes => exact keepsRevoked_updatePolicy (fun _ => rfl) fun p _ hrevoked => hrevoked
    | activate version =>
      exact keepsRevoked_signedWrite fun _ s' hsame =>
        keepsRevoked_activatePolicy fun p hp => h p (hsame.policies ▸ hp)
    | expire version =>
      exact keepsRevoked_signedWrite fun _ s' hsame =>
        keepsRevoked_updatePolicy (fun _ => rfl) fun p hp hrevoked =>
          absurd hrevoked.1 (h p (hsame.policies ▸ hp))
    | revoke version =>
      exact keepsRevoked_signedWrite fun _ s' _ => keepsRevoked_updatePolicy (fun _ => rfl) fun p _ _ => ⟨rfl, rfl⟩
  | wait duration | cleanup => exact SameRows.keepsRevoked ⟨rfl, rfl⟩

inductive RespectfulRun (server : Server) : State → State → Prop where
  | done (s : State) : RespectfulRun server s s
  | step {s s' : State} (e : Event) (h : Respects server s e) (hrest : RespectfulRun server (e.apply server s) s') :
    RespectfulRun server s s'

theorem RespectfulRun.keepsRevoked {s' : State} (h : RespectfulRun server s s') :
    KeepsRevoked s s' := by
  induction h with
  | done s => exact .refl s
  | step e he _ ih => exact (keepsRevoked_apply he).trans ih

theorem signed_of_accepted {action : String}
    {write : Text → State → State × Nat × String} (h : (signedWrite server turn s cmd action write).2.Accepted) :
    ∃ s' identity, SameRows s s' ∧ (signedWrite server turn s cmd action write).1 = (write identity s').1 ∧
      (write identity s').2.1 < 300 := by
  obtain ⟨refusal, hrefused⟩ | ⟨s', identity, key, hsame, -, -, hrun⟩ :=
    signedWrite_cases server turn s cmd action write
  · rw [hrefused] at h
    exact absurd h refusal.not_accepted
  · rw [hrun] at h ⊢
    exact ⟨s', identity, hsame, rfl, h.2⟩

theorem key_revoked_of_accepted (h : (handle server turn cmd s (.revokeSigningKey version)).2.Accepted) :
    ∃ key, (handle server turn cmd s (.revokeSigningKey version)).1.keys.get?
      (cmd.actorID, Text.trimSpace version) = some key ∧ key.status = .revoked := by
  rw [handle] at h ⊢
  obtain ⟨s', identity, -, hwrite, hcode⟩ := signed_of_accepted h
  rw [hwrite]
  obtain ⟨-, hrefused⟩ | ⟨key, key', hkey, hput, hstatus, hid⟩ := updateSigningKey_cases turn cmd .revoked version s'
  · exact absurd hcode hrefused
  have hkeyID : key'.id = (cmd.actorID, Text.trimSpace version) := hid.trans (key_of_get? hkey)
  refine ⟨key', ?_, hstatus⟩
  rw [hput]
  simp only [get?_put, hkeyID, if_true]

theorem policy_revoked_of_accepted (h : (handle server turn cmd s (.revoke version)).2.Accepted) :
    ∃ p, (handle server turn cmd s (.revoke version)).1.policies.get?
      (cmd.actorID, normalizePolicyVersion version) = some p ∧ RevokedPolicy p := by
  rw [handle] at h ⊢
  obtain ⟨s', identity, -, hwrite, hcode⟩ := signed_of_accepted h
  rw [hwrite]
  rw [updatePolicy] at hcode ⊢
  split at hcode
  · simp at hcode
  next hwrites =>
  rw [if_neg hwrites]
  cases hp : s'.policies.get? (cmd.actorID, normalizePolicyVersion version) with
  | none =>
    rw [hp] at hcode
    simp at hcode
  | some p =>
    have hpID : p.id = (cmd.actorID, normalizePolicyVersion version) := key_of_get? hp
    refine ⟨revoked s'.now cmd.actorID p, ?_, rfl, rfl⟩
    dsimp only
    rw [audited_fst]
    simp only [get?_put, show (revoked s'.now cmd.actorID p).id = p.id from rfl, hpID, if_true]

theorem usable_of_signer {route : Route}
    (h : (handle server turn cmd s route).2.signerKeyVersion = some version) :
    ∃ key, s.keys.get? (cmd.actorID, version) = some key ∧ key.status = .active := by
  have hsigned {action : String} {write : Text → State → State × Nat × String}
      (h : (signedWrite server turn s cmd action write).2.signerKeyVersion = some version) :
      ∃ key, s.keys.get? (cmd.actorID, version) = some key ∧ key.status = .active := by
    obtain ⟨refusal, hrefused⟩ | ⟨s', identity, key, -, hkey, husable, hrun⟩ :=
      signedWrite_cases server turn s cmd action write
    · rw [hrefused] at h
      cases h
    rw [hrun] at h
    rw [← Option.some_inj.mp h]
    exact ⟨key, hkey, (usable_iff.mp husable).1⟩
  cases route with
  | createSigningKey =>
    change (createRoboticsPolicySigningKey server turn s cmd).2.signerKeyVersion = some version at h
    rw [createRoboticsPolicySigningKey] at h
    cases hactor : roboticsPolicyActorFromContext cmd with
    | error refusal =>
      rw [hactor] at h
      cases h
    | ok identity =>
      rw [hactor] at h
      dsimp only at h
      split at h
      · cases h
      split at h
      · exact hsigned h
      · cases h
  | _ => exact hsigned h

/-- In runs that respect revocations, no command is verified under a revoked key and no revoked policy is active. -/
theorem revocations_are_permanent (server : Server) :
    (∀ (turn : Turn) (cmd : Command) (s s' : State) (version : Text),
      (handle server turn cmd s (.revokeSigningKey version)).2.Accepted →
      RespectfulRun server (handle server turn cmd s (.revokeSigningKey version)).1 s' →
      ∀ (turn' : Turn) (cmd' : Command) (route : Route), cmd'.actorID = cmd.actorID →
        (handle server turn' cmd' s' route).2.signerKeyVersion ≠ some (Text.trimSpace version)) ∧
    (∀ (turn : Turn) (cmd : Command) (s s' : State) (version : Text),
      (handle server turn cmd s (.revoke version)).2.Accepted →
      RespectfulRun server (handle server turn cmd s (.revoke version)).1 s' →
      ∀ p, s'.policies.get? (cmd.actorID, normalizePolicyVersion version) = some p →
        p.status ≠ .active ∧ p.active = false) := by
  constructor
  · intro turn cmd s s' version haccepted hrun turn' cmd' route hactor hsigner
    obtain ⟨key, hkey, hrevoked⟩ := key_revoked_of_accepted haccepted
    obtain ⟨key', hkey', hrevoked'⟩ := hrun.keepsRevoked.keys hkey hrevoked
    obtain ⟨signer, hget, hactive⟩ := usable_of_signer hsigner
    rw [hactor, hkey', Option.some_inj] at hget
    subst hget
    rw [hrevoked'] at hactive
    cases hactive
  intro turn cmd s s' version haccepted hrun p hp
  obtain ⟨q, hq, hrevoked⟩ := policy_revoked_of_accepted haccepted
  obtain ⟨q', hq', hrevoked'⟩ := hrun.keepsRevoked.policies hq hrevoked
  rw [hp, Option.some_inj] at hq'
  subst hq'
  exact ⟨by simp [hrevoked'.1], hrevoked'.2⟩

def onTime : Turn := { clock := 0 }

def unsignedCommand (keyVersion path : String) : Command where
  actorID := "acme"
  email := []
  admin := true
  method := "POST"
  path := path.toList
  body := []
  signer := []
  keyVersion := keyVersion.toList
  signature := []
  signedAt := "0"
  nonce := "n"

def signedCommand (keyVersion path action : String) : Command :=
  let cmd := unsignedCommand keyVersion path
  let sum := Sha256.sum256
    (canonicalRoboticsPolicyCommand echoServer cmd keyVersion.toList "0" "n" action.toList)
  { cmd with signature := Base64.encode (echoScheme.sign () sum) }

def activeKey (keyVersion : String) : SigningKey where
  tenantID := "acme"
  keyVersion := keyVersion.toList
  signerIdentity := "admin"
  publicKeyEd25519 := Hex.encode (echoScheme.publicKey ())
  status := .active
  notBefore := 0
  expiresAt := none
  createdBy := "acme"
  revokedBy := none

def activePolicy : Policy where
  tenantID := "acme"
  policyVersion := "v1"
  status := .active
  permit := true
  runtimePermitted := true
  robotMode := .supervised
  allowedRuntimes := []
  active := true
  expiresAt := none
  activatedAt := some 0
  expiredAt := none
  revokedAt := none
  createdBy := "acme"
  updatedBy := "acme"
  revokedBy := none

def twoKeys : State :=
  ⟨0, (Table.empty.put (activeKey "k1")).put (activeKey "k2"), Table.empty.put activePolicy, .empty⟩

def revokeSecond : Command := signedCommand "k1" "/k2/revoke" "signing_key_revoke"

def activateSecond : Command := signedCommand "k1" "/k2/activate" "signing_key_activate"

def expireFirst : Command := signedCommand "k2" "/k1/expire" "signing_key_expire"

def revokePolicy : Command := signedCommand "k1" "/v1/revoke" "revoke"

def reactivatePolicy : Command := signedCommand "k1" "/v1/activate" "activate"

def keyRevoked : State × Reply := handle echoServer onTime revokeSecond twoKeys (.revokeSigningKey "k2")

def keyReactivated : State × Reply :=
  handle echoServer onTime activateSecond keyRevoked.1 (.activateSigningKey "k2")

def firstExpired (s : State) : State × Reply := handle echoServer onTime expireFirst s (.expireSigningKey "k1")

def policyRevoked : State × Reply := handle echoServer onTime revokePolicy twoKeys (.revoke "v1")

def policyReactivated : State × Reply :=
  handle echoServer onTime reactivatePolicy policyRevoked.1 (.activate "v1")

/-- The revoked key signs again once it is activated, and the revoked policy is active again. -/
theorem revocations_lifted :
    keyRevoked.2.Accepted ∧ keyReactivated.2.Accepted ∧ (firstExpired keyReactivated.1).2.Accepted ∧
      (firstExpired keyReactivated.1).2.signerKeyVersion = some "k2".toList ∧
      policyRevoked.2.Accepted ∧ policyReactivated.2.Accepted ∧
      (policyReactivated.1.policies.get? ("acme".toList, "v1".toList)).map (fun p => p.active) = some true := by
  decide +kernel

/-- Right after its revocation the second key signs nothing. -/
theorem second_key_refused : (firstExpired keyRevoked.1).2.signerKeyVersion ≠ some (Text.trimSpace "k2".toList) := by
  have haccepted : keyRevoked.2.Accepted := by decide +kernel
  have hactor : expireFirst.actorID = revokeSecond.actorID := by decide +kernel
  unfold keyRevoked at haccepted
  unfold firstExpired keyRevoked
  exact (revocations_are_permanent echoServer).1 onTime revokeSecond twoKeys
    (handle echoServer onTime revokeSecond twoKeys (.revokeSigningKey "k2")).1 "k2" haccepted (.done _)
    onTime expireFirst (.expireSigningKey "k1") hactor

end Overture.Robotics
