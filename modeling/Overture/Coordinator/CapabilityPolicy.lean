import Overture.Coordinator.Policy

/-!
# The capability policy of a tenant

A policy denies and allows capabilities by lists of patterns, and allows some families of capabilities by switches.
The lists may stand under three keys each, as arrays of texts or as one text with commas.
-/

namespace Overture.CapabilityPolicy

open Json

abbrev Policy := Option (List (Text × Any))

def normalized (t : Text) : Text := Text.trimSpace (Text.toLower t)

def textItems : Anys → List Text
  | .nil => []
  | .cons (.str s) rest => s :: textItems rest
  | .cons _ rest => textItems rest

def stringListFromPolicy (policy : Policy) (keys : List String) : List Text :=
  keys.flatMap fun key =>
    match lookup policy key.toList with
    | some (.arr items) => (textItems items).map normalized
    | some (.str s) => (s.splitOn ',').map normalized
    | _ => []

def boolPolicy (policy : Policy) (keys : List String) : Bool :=
  (keys.findSome? fun key =>
    match lookup policy key.toList with
    | some (.bool b) => some b
    | _ => none).getD false

def patternMatches (capability pattern : Text) : Bool :=
  !pattern.isEmpty && (pattern == capability || pattern == ['*'] ||
    (".*".toList.isSuffixOf pattern && pattern.dropLast.isPrefixOf capability))

def capabilityMatchesAny (capability : Text) (patterns : List Text) : Bool :=
  patterns.any (patternMatches capability)

def denyKeys : List String := ["denied_capabilities", "deny", "deny_capabilities"]

def allowKeys : List String := ["allowed_capabilities", "allow", "allow_capabilities"]

def inFamily (capability : Text) (name : String) : Bool :=
  capability == name.toList || (name.toList ++ ['.']).isPrefixOf capability

def switchDecision (capability : Text) (policy : Policy) : Bool × String :=
  if inFamily capability "network.http" then
    (boolPolicy policy ["allow_http"], "capability mapped to allow_http")
  else if inFamily capability "network.api" then
    (boolPolicy policy ["allow_external_api"], "capability mapped to allow_external_api")
  else if inFamily capability "filesystem.write" then
    (boolPolicy policy ["allow_fs_write", "allow_filesystem_write"], "capability mapped to filesystem write policy")
  else if inFamily capability "filesystem.read" then
    (boolPolicy policy ["allow_filesystem", "allow_fs_read"], "capability mapped to filesystem read policy")
  else if inFamily capability "tools.shell" then
    (boolPolicy policy ["allow_shell"], "capability mapped to allow_shell")
  else (false, "capability is not allow-listed")

def capabilityPermittedByPolicy (capability : Text) (policy : Policy) : Bool × String :=
  if capabilityMatchesAny capability (stringListFromPolicy policy denyKeys) then
    (false, "capability explicitly denied")
  else if capabilityMatchesAny capability (stringListFromPolicy policy allowKeys) then
    (true, "capability explicitly allowed")
  else switchDecision capability policy

/-! ## The evaluation of a task -/

structure CapabilityDecision where
  capability : Text
  permit : Bool
  reason : String
  policyVersion : Text

structure Evaluation where
  policyVersion : Text
  permit : Bool
  reason : String
  decisions : List CapabilityDecision

structure SettingsRow where
  tenantID : Text
  active : Bool
  status : Text
  expiresAt : Option Int
  updatedAt : Int
  policy : Text

structure Database where
  now : Int
  settings : List SettingsRow
  /-- The column `capabilities_policy` of the row of a tenant. -/
  tenantPolicy : Text → Option Text

def Database.current (db : Database) (tenantID : Text) (row : SettingsRow) : Bool :=
  row.tenantID == tenantID && row.active && row.status == "active" &&
    row.expiresAt.all fun t => decide (db.now < t)

/-- The `COALESCE` of the query. -/
def Database.policyText (db : Database) (tenantID : Text) : Text :=
  match ((db.settings.filter (db.current tenantID)).insertionSort fun a b => a.updatedAt ≥ b.updatedAt).head? with
  | some row => row.policy
  | none => (db.tenantPolicy tenantID).getD "\x7b\x7d"

def policyVersionFromCapabilityPolicy (raw : Text) (policy : Policy) : Text :=
  let named := ["policy_version", "version", "policy_hash"].findSome? fun key =>
    match lookup policy key.toList with
    | some (.str s) => if (Text.trimSpace s).isEmpty then none else some (Text.trimSpace s)
    | _ => none
  named.getD ("capabilities-policy:" ++
    Hex.encode ((Sha256.sum256 (raw.flatMap String.utf8EncodeChar)).take 8))

def capabilityDecisions (required : List Text) (policyVersion : Text) (permit : Bool) (reason : String) :
    List CapabilityDecision :=
  required.map fun capability => ⟨capability, permit, reason, policyVersion⟩

def missingVersion : Text := "capabilities-policy.missing"

def defaultDeny (required : List Text) (reason : String) : Evaluation :=
  ⟨missingVersion, false, reason, capabilityDecisions required missingVersion false reason⟩

/-- The query fails, or there is no database. -/
inductive Access where
  | none
  | fails
  | reads (db : Database)

def evaluateTaskCapabilityPolicy (access : Access) (tenantID : Text) (required : List Text) : Evaluation :=
  if required.isEmpty then ⟨missingVersion, true, "no capabilities requested", []⟩
  else
    match access with
    | .none => defaultDeny required "default deny: no active capability policy"
    | .fails => defaultDeny required "default deny: capability policy lookup failed"
    | .reads db =>
      let raw := db.policyText tenantID
      match unmarshal (Decoder.map .null Decoder.any) raw none with
      | (_, false) => defaultDeny required "default deny: capability policy is invalid"
      | (policy, true) =>
        let policyVersion := policyVersionFromCapabilityPolicy raw policy
        let decisions : List CapabilityDecision := required.map fun capability =>
          let outcome := capabilityPermittedByPolicy capability policy
          ⟨capability, outcome.1, outcome.2, policyVersion⟩
        let allPermit := decisions.all CapabilityDecision.permit
        ⟨policyVersion, allPermit,
          if allPermit then "capability policy permitted"
          else "capability policy denied one or more required capabilities", decisions⟩

/-! ## The laws of a policy -/

def Permitted (capability : Text) (policy : Policy) : Prop := (capabilityPermittedByPolicy capability policy).1 = true

def denyList (policy : Policy) : List Text := stringListFromPolicy policy denyKeys

def allowList (policy : Policy) : List Text := stringListFromPolicy policy allowKeys

def Covers (pattern capability : Text) : Prop :=
  pattern ≠ [] ∧ (pattern = capability ∨ pattern = ['*'] ∨
    ∃ family, pattern = family ++ ".*" ∧ family ++ ['.'] <+: capability)

def SameBut (keys : List String) (policy policy' : Policy) : Prop :=
  ∀ key, (∀ k ∈ keys, key ≠ k.toList) → lookup policy' key = lookup policy key

/-- Each decision is about its capability, in the order asked for, and the whole is permitted if each is. -/
structure Evaluates (required : List Text) (e : Evaluation) : Prop where
  each : e.decisions.map CapabilityDecision.capability = required
  whole : e.permit = true ↔ ∀ d ∈ e.decisions, d.permit = true

variable {capability : Text} {policy policy' : Policy} {keys : List String}

theorem patternMatches_iff {pattern : Text} :
    patternMatches capability pattern = true ↔ Covers pattern capability := by
  rw [patternMatches, Covers, Bool.and_eq_true, Bool.or_eq_true, Bool.or_eq_true, Bool.and_eq_true, or_assoc]
  refine and_congr (by cases pattern <;> simp) (or_congr beq_iff_eq (or_congr beq_iff_eq ?_))
  rw [List.isSuffixOf_iff_suffix, List.isPrefixOf_iff_prefix]
  constructor
  · rintro ⟨⟨family, rfl⟩, hbegin⟩
    refine ⟨family, rfl, ?_⟩
    have hdrop : (family ++ ".*").dropLast = family ++ ['.'] := by
      rw [List.dropLast_append_of_ne_nil (by decide)]
      rfl
    rwa [hdrop] at hbegin
  · rintro ⟨family, rfl, hbegin⟩
    refine ⟨⟨family, rfl⟩, ?_⟩
    rw [List.dropLast_append_of_ne_nil (by decide)]
    exact hbegin

theorem capabilityMatchesAny_iff {patterns : List Text} :
    capabilityMatchesAny capability patterns = true ↔ ∃ pattern ∈ patterns, Covers pattern capability := by
  simp only [capabilityMatchesAny, List.any_eq_true, patternMatches_iff]

theorem permitted_iff :
    Permitted capability policy ↔ (¬ ∃ pattern ∈ denyList policy, Covers pattern capability) ∧
      ((∃ pattern ∈ allowList policy, Covers pattern capability) ∨ (switchDecision capability policy).1 = true) := by
  rw [Permitted, capabilityPermittedByPolicy]
  simp only [denyList, allowList, ← capabilityMatchesAny_iff]
  split
  · next hdenied => exact iff_of_false (by simp) fun h => h.1 hdenied
  next hdenied =>
  split
  · next hallowed => exact iff_of_true rfl ⟨hdenied, .inl hallowed⟩
  next hallowed =>
  constructor
  · intro h
    exact ⟨hdenied, .inr h⟩
  · rintro ⟨-, h⟩
    exact h.resolve_left hallowed

theorem stringList_congr
    (h : ∀ k ∈ keys, lookup policy' k.toList = lookup policy k.toList) :
    stringListFromPolicy policy' keys = stringListFromPolicy policy keys := by
  rw [stringListFromPolicy, stringListFromPolicy]
  refine List.flatMap_congr fun k hk => ?_
  rw [h k hk]

theorem boolPolicy_congr
    (h : ∀ k ∈ keys, lookup policy' k.toList = lookup policy k.toList) :
    boolPolicy policy' keys = boolPolicy policy keys := by
  induction keys with
  | nil => rfl
  | cons k keys ih =>
    have hrest := ih fun k' hk' => h k' (List.mem_cons_of_mem _ hk')
    have hfirst := h k List.mem_cons_self
    simp only [boolPolicy, List.findSome?_cons, hfirst] at hrest ⊢
    split
    · rfl
    · exact hrest

def switchKeys : List String :=
  ["allow_http", "allow_external_api", "allow_fs_write", "allow_filesystem_write", "allow_filesystem",
    "allow_fs_read", "allow_shell"]

theorem switchDecision_congr
    (h : ∀ k ∈ switchKeys, lookup policy' k.toList = lookup policy k.toList) :
    switchDecision capability policy' = switchDecision capability policy := by
  have hswitch (keys : List String) (hkeys : keys ⊆ switchKeys) :
      boolPolicy policy' keys = boolPolicy policy keys :=
    boolPolicy_congr fun k hk => h k (hkeys hk)
  simp only [switchDecision, hswitch _ (by decide : ["allow_http"] ⊆ switchKeys),
    hswitch _ (by decide : ["allow_external_api"] ⊆ switchKeys),
    hswitch _ (by decide : ["allow_fs_write", "allow_filesystem_write"] ⊆ switchKeys),
    hswitch _ (by decide : ["allow_filesystem", "allow_fs_read"] ⊆ switchKeys),
    hswitch _ (by decide : ["allow_shell"] ⊆ switchKeys)]

theorem SameBut.lookup_eq {others : List String} (h : SameBut keys policy policy')
    (hapart : ∀ o ∈ others, ∀ k ∈ keys, o.toList ≠ k.toList) :
    ∀ o ∈ others, lookup policy' o.toList = lookup policy o.toList := fun o ho => h o.toList (hapart o ho)

theorem evaluates (access : Access) (tenantID : Text) (required : List Text) :
    Evaluates required (evaluateTaskCapabilityPolicy access tenantID required) := by
  have hdeny (reason : String) (hsome : required ≠ []) : Evaluates required (defaultDeny required reason) := by
    refine ⟨by simp [defaultDeny, capabilityDecisions, Function.comp_def], ?_⟩
    refine iff_of_false (by simp [defaultDeny]) fun hall => ?_
    obtain ⟨c, hc⟩ := List.exists_mem_of_ne_nil required hsome
    have hpermit := hall _ (List.mem_map_of_mem hc)
    cases hpermit
  unfold evaluateTaskCapabilityPolicy
  split
  · next hnone =>
    obtain rfl := List.isEmpty_iff.mp hnone
    exact ⟨rfl, by simp⟩
  next hsome =>
  have hsome : required ≠ [] := fun hnil => hsome (List.isEmpty_iff.mpr hnil)
  split
  · exact hdeny _ hsome
  · exact hdeny _ hsome
  dsimp only
  split
  · exact hdeny _ hsome
  · exact ⟨by simp [Function.comp_def], by simp⟩

/-- A denied capability is not permitted, more denials permit no more and more allowances permit no less, and the
evaluation decides each required capability. -/
theorem capability_policy_laws :
    (∀ policy capability, (∃ pattern ∈ denyList policy, Covers pattern capability) → ¬ Permitted capability policy) ∧
    (∀ policy policy' capability, SameBut denyKeys policy policy' → denyList policy ⊆ denyList policy' →
      Permitted capability policy' → Permitted capability policy) ∧
    (∀ policy policy' capability, SameBut allowKeys policy policy' → allowList policy ⊆ allowList policy' →
      Permitted capability policy → Permitted capability policy') ∧
    ∀ access tenantID required, Evaluates required (evaluateTaskCapabilityPolicy access tenantID required) := by
  refine ⟨?_, ?_, ?_, evaluates⟩
  · intro policy capability hdenied hpermitted
    exact (permitted_iff.mp hpermitted).1 hdenied
  · intro policy policy' capability hsame hmore hpermitted
    obtain ⟨hdeny, hallow⟩ := permitted_iff.mp hpermitted
    have hallows : allowList policy' = allowList policy := stringList_congr (hsame.lookup_eq (by decide))
    have hswitch : switchDecision capability policy' = switchDecision capability policy :=
      switchDecision_congr (hsame.lookup_eq (by decide))
    rw [hallows, hswitch] at hallow
    refine permitted_iff.mpr ⟨?_, hallow⟩
    rintro ⟨pattern, hmem, hcovers⟩
    exact hdeny ⟨pattern, hmore hmem, hcovers⟩
  intro policy policy' capability hsame hmore hpermitted
  obtain ⟨hdeny, hallow⟩ := permitted_iff.mp hpermitted
  have hdenies : denyList policy' = denyList policy := stringList_congr (hsame.lookup_eq (by decide))
  have hswitch : switchDecision capability policy' = switchDecision capability policy :=
    switchDecision_congr (hsame.lookup_eq (by decide))
  refine permitted_iff.mpr ⟨hdenies ▸ hdeny, ?_⟩
  rw [hswitch]
  refine hallow.imp ?_ id
  rintro ⟨pattern, hmem, hcovers⟩
  exact ⟨pattern, hmore hmem, hcovers⟩

/-- A pattern denies the family, whatever else the policy allows. -/
theorem denied_family_refused :
    ¬ Permitted "network.http.get".toList
      (some [("deny".toList, .str "Network.*, tools.shell".toList), ("allow".toList, .str "*".toList)]) :=
  capability_policy_laws.1 _ _ ⟨"network.*", by decide +kernel, by decide, .inr (.inr
    ⟨"network", rfl, by decide⟩)⟩

/-- The parent of the capability is denied by name, and the switch of its family permits it. -/
theorem denied_parent_permits :
    ¬ ∀ policy capability, (∃ entry ∈ denyList policy, entry = capability ∨ entry ++ ['.'] <+: capability) →
      ¬ Permitted capability policy := by
  intro h
  refine h (some [("deny".toList, .arr (.cons (.str "network.http".toList) .nil)), ("allow_http".toList, .bool true)])
    "network.http.get".toList ⟨"network.http".toList, by decide +kernel, .inr (by decide)⟩ ?_
  rw [Permitted]
  decide +kernel

end Overture.CapabilityPolicy
