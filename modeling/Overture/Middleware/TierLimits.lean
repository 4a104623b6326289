import Overture.Lib.Text

/-!
# Limits of a tier

The enforcer counts the requests of a tenant and month, and checks the providers of the tenant and the features of its
tier. A check that denies a request returns what writing its response returned, which is no error, so the next handler
runs all the same.
-/

namespace Overture.TierLimits

open List

inductive Feature
  | slaEnforcement | policyVersioning | auditLogs | advancedGovernance | sso
  | realTimeAnalytics | costForecasting | semanticRouting
  | speculativeExecution | councilMode | thompsonSampling
  | cognitiveAdvisor | cognitiveAutoApply
  | cryptographicSigning | signedExecutionEnvelopes
deriving DecidableEq

/-- A limit of `-1` is none. -/
structure TierPolicy where
  (maxRequestsPerMonth maxProviders : Int)
  features : Feature → Bool

/-- `policyOf` is the tier of a tenant in the database with its policy; `none` for a tier without one. -/
structure TierEnforcer where
  enabled : Bool
  redisKeyPrefix : Text
  policyOf : Text → Option TierPolicy

/-- A request in a month, with the number of active providers that the database counts for its tenant. -/
structure Request where
  tenant : Option Text
  (month method path : Text)
  providerCount : Nat

structure Response where
  status : Nat
  code : Text
deriving DecidableEq

structure Check where
  response : Option Response
  err : Bool

def Check.pass : Check := ⟨none, false⟩

/-- The body is a map of texts and numbers, so writing it returns no error. -/
def Check.json (status : Nat) (code : Text) : Check := ⟨some ⟨status, code⟩, false⟩

abbrev Counters := Text → Nat

section

variable (te : TierEnforcer) (policy : TierPolicy)

def getRequestCounterKey (tenant month : Text) : Text :=
  te.redisKeyPrefix ++ tenant ++ ':' :: month ++ ":request_count"

def enforceRequestLimits (tenant : Text) (r : Request) (counters : Counters) : Check × Counters :=
  if policy.maxRequestsPerMonth = -1 then (.pass, counters)
  else
    let key := getRequestCounterKey te tenant r.month
    let current := counters key + 1
    (if policy.maxRequestsPerMonth < current then .json 429 "TIER_LIMIT_EXCEEDED" else .pass,
      Function.update counters key current)

def isProviderEndpoint (path : Text) : Bool := "/v1/providers".toList.isPrefixOf path

def enforceProviderLimits (r : Request) : Check :=
  if policy.maxProviders = -1 then .pass
  else if r.method ≠ "POST" then .pass
  else if policy.maxProviders ≤ r.providerCount then .json 403 "PROVIDER_LIMIT_EXCEEDED"
  else .pass

def featureMap : List (Text × Option Feature) :=
  [("/v1/sla", some .slaEnforcement), ("/v1/policies", some .policyVersioning),
    ("/v1/audit", some .auditLogs), ("/v1/governance", some .advancedGovernance),
    ("/v1/sso", some .sso), ("/v1/analytics", some .realTimeAnalytics),
    ("/v1/forecasting", some .costForecasting), ("/v1/semantic", some .semanticRouting),
    ("/v1/speculative", some .speculativeExecution), ("/v1/council", some .councilMode),
    ("/v1/thompson", some .thompsonSampling), ("/v1/cognitive/proposals", some .cognitiveAdvisor),
    ("/v1/cognitive/config", some .cognitiveAutoApply), ("/v1/crypto", some .cryptographicSigning),
    ("/v1/signed", some .signedExecutionEnvelopes), ("/v1/emergency", none),
    ("/v1/escapevector", none)]

-- No path starts with two of the texts, so the order in which the map is read does not matter.
example : ∀ a ∈ featureMap, ∀ b ∈ featureMap, a.1.isPrefixOf b.1 = true → a = b := by decide +kernel

def getRequiredFeature (path : Text) : Option Feature :=
  (featureMap.find? fun entry => entry.1.isPrefixOf path).bind (·.2)

def enforceFeatureFlags (r : Request) : Check :=
  match getRequiredFeature r.path with
  | none => .pass
  | some feature => if policy.features feature = true then .pass else .json 403 "FEATURE_NOT_AVAILABLE"

structure Outcome where
  request : Request
  written : List Response
  next : Bool

def enforceChecks (r : Request) : List Check → Outcome
  | [] => ⟨r, [], true⟩
  | check :: checks =>
    if check.err = true then ⟨r, check.response.toList, false⟩
    else
      let rest := enforceChecks r checks
      ⟨r, check.response.toList ++ rest.written, rest.next⟩

def enforce (r : Request) (counters : Counters) : Outcome × Counters :=
  if te.enabled = false then (⟨r, [], true⟩, counters)
  else
    match r.tenant with
    | none => (⟨r, [], true⟩, counters)
    | some tenant =>
      match te.policyOf tenant with
      | none => (⟨r, [⟨500, "INVALID_TIER"⟩], false⟩, counters)
      | some policy =>
        let (limits, counters) := enforceRequestLimits te policy tenant r counters
        let providers := if isProviderEndpoint r.path = true then enforceProviderLimits policy r else .pass
        (enforceChecks r [limits, providers, enforceFeatureFlags policy r], counters)

def run : List Request → Counters → List Outcome
  | [], _ => []
  | r :: rs, counters => (enforce te r counters).1 :: run rs (enforce te r counters).2

def ranFor (tenant month : Text) (o : Outcome) : Bool :=
  o.next && o.request.tenant == some tenant && o.request.month == month

def Denying (written : List Response) : Prop :=
  ∃ response ∈ written, response.code = "PROVIDER_LIMIT_EXCEEDED" ∨
    response.code = "FEATURE_NOT_AVAILABLE"

/-- The next handler runs within the limit of each tenant and month, and not after the response of another check. -/
def LimitsHold (outcomes : List Outcome) : Prop :=
  (∀ tenant month policy, te.policyOf tenant = some policy → policy.maxRequestsPerMonth ≠ -1 →
    outcomes.countP (ranFor tenant month) ≤ policy.maxRequestsPerMonth.toNat) ∧
  ∀ o ∈ outcomes, o.next = true → ¬Denying o.written

def Refused (r : Request) : Prop :=
  (isProviderEndpoint r.path = true ∧ policy.maxProviders ≠ -1 ∧ r.method = "POST" ∧
    policy.maxProviders ≤ r.providerCount) ∨
  ∃ feature, getRequiredFeature r.path = some feature ∧ policy.features feature = false

def Admitted (r : Request) : Prop :=
  ∀ tenant policy, te.enabled = true → r.tenant = some tenant → te.policyOf tenant = some policy → ¬Refused policy r

/-- No tenant sends more requests in a month than its limit, and no request that is checked is refused. -/
def WithinLimits (rs : List Request) : Prop :=
  (∀ tenant month policy, te.policyOf tenant = some policy → policy.maxRequestsPerMonth ≠ -1 →
    rs.countP (fun r => r.tenant == some tenant && r.month == month) ≤ policy.maxRequestsPerMonth.toNat) ∧
  ∀ r ∈ rs, Admitted te r

theorem not_denying_pass : ¬Denying Check.pass.response.toList := by
  rintro ⟨response, hmem, -⟩
  cases hmem

theorem enforceRequestLimits_spec (tenant : Text) (r : Request) (counters : Counters) :
    (enforceRequestLimits te policy tenant r counters).1.err = false ∧
      ¬Denying (enforceRequestLimits te policy tenant r counters).1.response.toList := by
  unfold enforceRequestLimits
  split
  · exact ⟨rfl, not_denying_pass⟩
  dsimp only
  split
  · refine ⟨rfl, ?_⟩
    rintro ⟨response, hmem, hcode⟩
    rw [mem_singleton.mp hmem] at hcode
    revert hcode
    decide
  · exact ⟨rfl, not_denying_pass⟩

theorem enforceProviderLimits_spec (r : Request) :
    (enforceProviderLimits policy r).err = false ∧
      (Denying (enforceProviderLimits policy r).response.toList ↔
        policy.maxProviders ≠ -1 ∧ r.method = "POST" ∧ policy.maxProviders ≤ r.providerCount) := by
  unfold enforceProviderLimits
  split
  · exact ⟨rfl, iff_of_false not_denying_pass (by tauto)⟩
  split
  · exact ⟨rfl, iff_of_false not_denying_pass (by tauto)⟩
  split
  · exact ⟨rfl, iff_of_true ⟨_, mem_singleton_self _, .inl rfl⟩ (by tauto)⟩
  · exact ⟨rfl, iff_of_false not_denying_pass (by tauto)⟩

theorem enforceFeatureFlags_spec (r : Request) :
    (enforceFeatureFlags policy r).err = false ∧
      (Denying (enforceFeatureFlags policy r).response.toList ↔
        ∃ feature, getRequiredFeature r.path = some feature ∧ policy.features feature = false) := by
  unfold enforceFeatureFlags
  split
  · rename_i hnone
    refine ⟨rfl, iff_of_false not_denying_pass ?_⟩
    rintro ⟨feature, hsome, -⟩
    cases hnone.symm.trans hsome
  rename_i feature hfeature
  split
  · rename_i hhas
    refine ⟨rfl, iff_of_false not_denying_pass ?_⟩
    rintro ⟨feature', hsome, hlacks⟩
    cases hfeature.symm.trans hsome
    exact Bool.false_ne_true (hlacks.symm.trans hhas)
  · rename_i hlacks
    exact ⟨rfl, iff_of_true ⟨_, mem_singleton_self _, .inr rfl⟩ ⟨feature, hfeature, by simpa using hlacks⟩⟩

variable {te policy}

theorem denying_append (front rest : List Response) : Denying (front ++ rest) ↔ Denying front ∨ Denying rest := by
  simp only [Denying, mem_append, or_and_right, exists_or]

variable {r : Request} {tenant : Text}

theorem enforceChecks_eq {checks : List Check} (h : ∀ check ∈ checks, check.err = false) :
    enforceChecks r checks = ⟨r, checks.flatMap (·.response.toList), true⟩ := by
  induction checks with
  | nil => rfl
  | cons check checks ih =>
    rw [forall_mem_cons] at h
    rw [enforceChecks, h.1, if_neg Bool.false_ne_true, ih h.2, flatMap_cons]

theorem enforce_checked (counters : Counters) (henabled : te.enabled = true)
    (htenant : r.tenant = some tenant) (hpolicy : te.policyOf tenant = some policy) :
    ∃ written, (enforce te r counters).1 = ⟨r, written, true⟩ ∧ (Denying written ↔ Refused policy r) := by
  obtain ⟨hlimits, hquiet⟩ := enforceRequestLimits_spec te policy tenant r counters
  obtain ⟨hproviders, hdeny⟩ := enforceProviderLimits_spec policy r
  obtain ⟨hfeatures, hlack⟩ := enforceFeatureFlags_spec policy r
  have henforce : (enforce te r counters).1 = enforceChecks r [(enforceRequestLimits te policy tenant r counters).1,
      if isProviderEndpoint r.path = true then enforceProviderLimits policy r else .pass,
      enforceFeatureFlags policy r] := by
    simp only [enforce, henabled, htenant, hpolicy]
    rfl
  rw [henforce, enforceChecks_eq]
  · refine ⟨_, rfl, ?_⟩
    simp only [flatMap_cons, flatMap_nil, append_nil, denying_append, hquiet, hlack, false_or, Refused]
    apply or_congr_left
    split
    · rename_i hpath
      simp only [hdeny, hpath, true_and]
    · rename_i hpath
      exact iff_of_false not_denying_pass fun h => hpath h.1
  simp only [forall_mem_cons, hlimits, hfeatures, true_and]
  refine ⟨?_, nofun⟩
  split
  · exact hproviders
  · rfl

theorem enforce_request (r : Request) (counters : Counters) : (enforce te r counters).1.request = r := by
  by_cases henabled : te.enabled = true
  · cases htenant : r.tenant with
    | none => simp only [enforce, henabled, htenant]; rfl
    | some tenant =>
      cases hpolicy : te.policyOf tenant with
      | none => simp only [enforce, henabled, htenant, hpolicy]; rfl
      | some policy =>
        obtain ⟨written, hout, -⟩ := enforce_checked counters henabled htenant hpolicy
        rw [hout]
  · simp only [enforce, Bool.not_eq_true _ ▸ henabled, if_true]

theorem enforce_next (counters : Counters) (htenant : r.tenant = some tenant)
    (hpolicy : te.policyOf tenant = some policy) : (enforce te r counters).1.next = true := by
  by_cases henabled : te.enabled = true
  · obtain ⟨written, hout, -⟩ := enforce_checked counters henabled htenant hpolicy
    rw [hout]
  · simp only [enforce, Bool.not_eq_true _ ▸ henabled, if_true]

theorem not_denying_iff_admitted (r : Request) (counters : Counters) :
    ((enforce te r counters).1.next = true → ¬Denying (enforce te r counters).1.written) ↔ Admitted te r := by
  have hempty : ¬Denying [] := not_denying_pass
  by_cases henabled : te.enabled = true
  · cases htenant : r.tenant with
    | none =>
      simp only [enforce, henabled, htenant, Admitted]
      exact iff_of_true (fun _ => hempty) nofun
    | some tenant =>
      cases hpolicy : te.policyOf tenant with
      | none =>
        simp only [enforce, henabled, htenant, hpolicy]
        refine iff_of_true nofun fun tenant' policy _ htenant' hpolicy' => ?_
        cases htenant.symm.trans htenant'
        cases hpolicy.symm.trans hpolicy'
      | some policy =>
        obtain ⟨written, hout, hiff⟩ := enforce_checked counters henabled htenant hpolicy
        rw [hout, hiff]
        constructor
        · rintro h tenant' policy' - htenant' hpolicy'
          cases htenant.symm.trans htenant'
          cases hpolicy.symm.trans hpolicy'
          exact h rfl
        · intro h _
          exact h tenant policy henabled htenant hpolicy
  · have hoff := Bool.not_eq_true _ ▸ henabled
    simp only [enforce, hoff, if_true]
    exact iff_of_true (fun _ => hempty) fun _ _ h => absurd h henabled

theorem countP_run (month : Text) (hpolicy : te.policyOf tenant = some policy) (rs : List Request)
    (counters : Counters) :
    (run te rs counters).countP (ranFor tenant month) =
      rs.countP fun r => r.tenant == some tenant && r.month == month := by
  induction rs generalizing counters with
  | nil => rfl
  | cons r rs ih =>
    have hran : ranFor tenant month (enforce te r counters).1 = (r.tenant == some tenant && r.month == month) := by
      rw [ranFor, enforce_request]
      by_cases htenant : r.tenant = some tenant
      · rw [enforce_next counters htenant hpolicy, Bool.true_and]
      · rw [beq_false_of_ne htenant, Bool.and_false]
    rw [run, countP_cons, countP_cons, ih, hran]

theorem run_quiet_iff (rs : List Request) (counters : Counters) :
    (∀ o ∈ run te rs counters, o.next = true → ¬Denying o.written) ↔ ∀ r ∈ rs, Admitted te r := by
  induction rs generalizing counters with
  | nil => exact iff_of_true nofun nofun
  | cons r rs ih => rw [run, forall_mem_cons, forall_mem_cons, not_denying_iff_admitted, ih]

/-- The limits hold over a run exactly if the requests of every tenant and month are within its limit and none of them
is refused: the enforcer turns nothing away. -/
theorem limitsHold_iff (te : TierEnforcer) (rs : List Request) (counters : Counters) :
    LimitsHold te (run te rs counters) ↔ WithinLimits te rs := by
  rw [LimitsHold, WithinLimits, run_quiet_iff]
  apply and_congr_left
  intro _
  constructor
  · intro h tenant month policy hpolicy hlimited
    rw [← countP_run month hpolicy rs counters]
    exact h tenant month policy hpolicy hlimited
  intro h tenant month policy hpolicy hlimited
  rw [countP_run month hpolicy rs counters]
  exact h tenant month policy hpolicy hlimited

end

def smallTier : TierEnforcer := ⟨true, "igris:ratelimit:", fun _ => some ⟨1, 1, fun _ => false⟩⟩

def auditRequest : Request := ⟨some "t", "2026-01", "GET", "/v1/audit", 0⟩

/-- The next handler runs for the second request of the month, and for a feature that the tier does not have. -/
theorem not_limitsHold : ¬LimitsHold smallTier (run smallTier [auditRequest, auditRequest] fun _ => 0) ∧
    (run smallTier [auditRequest] fun _ => 0).any (fun o => o.next && o.written.any (·.status == 403)) = true := by
  constructor
  · rintro ⟨h, -⟩
    have hcount := h "t".toList "2026-01".toList _ rfl (by decide)
    revert hcount
    decide +kernel
  · decide +kernel

end Overture.TierLimits
