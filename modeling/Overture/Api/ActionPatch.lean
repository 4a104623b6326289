import Overture.Api.ActionDefinitions

/-!
# What a PATCH leaves alone

A PATCH writes every column back. A field the request does not mention keeps its value if the sanitizers the row is
read through leave it, and if it is what the preset prescribes: each PATCH applies the defaults of the preset again,
over flags that were set on creation.
-/

namespace Overture

open Json Option Except ActionDefinitionRequest

inductive ActionField where
  | name
  | displayName
  | description
  | targetType
  | targetURL
  | method
  | policyPreset
  | replayClass
  | approvalRequired
  | irreversible
  | secretRefs
  | targetMetadata
  | fallbackPolicy

def ActionDefinitionRequest.mentions (req : ActionDefinitionRequest) : ActionField → Bool
  | .name => given req.name
  | .displayName => given req.displayName
  | .description => given req.description
  | .targetType => given req.targetType
  | .targetURL => given req.targetURL
  | .method => given req.method
  | .policyPreset => given req.policyPreset
  | .replayClass => given req.replayClass
  | .approvalRequired => req.approvalRequired.isSome
  | .irreversible => req.irreversible.isSome
  | .secretRefs => req.secretRefs.isSome
  | .targetMetadata => req.targetMetadata.isSome
  | .fallbackPolicy => req.fallbackPolicy.isSome

def SameField (d d' : ActionDefinition) : ActionField → Prop
  | .name => d'.name = d.name
  | .displayName => d'.displayName = d.displayName
  | .description => d'.description = d.description
  | .targetType => d'.targetType = d.targetType
  | .targetURL => d'.targetURL = d.targetURL
  | .method => d'.method = d.method
  | .policyPreset => d'.policyPreset = d.policyPreset
  | .replayClass => d'.replayClass = d.replayClass
  | .approvalRequired => d'.approvalRequired = d.approvalRequired
  | .irreversible => d'.irreversible = d.irreversible
  | .secretRefs => d'.secretRefs = d.secretRefs
  | .targetMetadata => d'.targetMetadata = d.targetMetadata
  | .fallbackPolicy => d'.fallbackPolicy = d.fallbackPolicy

theorem SameField.refl (d : ActionDefinition) (f : ActionField) : SameField d d f := by
  cases f <;> rfl

theorem SameField.trans {d₁ d₂ d₃ : ActionDefinition} {f : ActionField} (h₁ : SameField d₁ d₂ f)
    (h₂ : SameField d₂ d₃ f) : SameField d₁ d₃ f := by
  cases f <;> exact Eq.trans h₂ h₁

def canonicalTarget (t : Text) : Prop := Text.trimSpace t = t ∧ t ≠ "api"

/-- A URL without surrounding blanks that is its scheme, host and path, or names no host and no authorization. -/
def plainTargetURL (url : URLParser) (t : Text) : Prop :=
  Text.trimSpace t = t ∧
    match absoluteURL url t with
    | some parsed => t = parsed.scheme ++ "://" ++ parsed.host ++ parsed.escapedPath
    | none => hasInlineAuth t = false

def plainSecretRef (ref : Text) : Prop :=
  Text.trimSpace ref = ref ∧ ref ≠ [] ∧ looksLikeRawActionSecret ref = false

def patchedPreset (req : ActionDefinitionRequest) (row : ActionDefinition) : Text :=
  if given req.policyPreset then Text.trimSpace req.policyPreset else row.policyPreset

def presetReplayClass (preset : Text) : Text :=
  if preset = "Human-gated" ∨ preset = "Non-replayable" then "non_retryable"
  else if preset = "Read-only" then "read_only"
  else "retryable"

structure Undisturbed (env : ActionEnv) (req : ActionDefinitionRequest) (row : ActionDefinition) : Prop where
  displayName : given req.displayName = false → row.displayName ≠ []
  targetType : given req.targetType = false → canonicalTarget row.targetType
  targetURL : given req.targetURL = false → plainTargetURL env.url row.targetURL
  method : given req.method = false → row.method ≠ []
  replayClass : given req.replayClass = false → row.replayClass = presetReplayClass (patchedPreset req row)
  approvalRequired : req.approvalRequired = none → patchedPreset req row ≠ "Non-replayable" →
    row.approvalRequired = decide (patchedPreset req row = "Human-gated")
  irreversible : req.irreversible = none → patchedPreset req row = "Non-replayable" → row.irreversible = true
  secretRefs : req.secretRefs = none → ∀ ref ∈ row.secretRefs, plainSecretRef ref
  targetMetadata : req.targetMetadata = none → plainFields env.url row.targetMetadata = true
  fallbackPolicy : req.fallbackPolicy = none →
    canonicalTarget row.fallbackPolicy.primaryTarget ∧ canonicalTarget row.fallbackPolicy.secondaryTarget ∧
      ∀ t ∈ row.fallbackPolicy.allowedTargets, canonicalTarget t

variable {t : Text} {env : ActionEnv} {row : ActionDefinition}

theorem canonicalActionTargetType_of_canonical (h : canonicalTarget t) : canonicalActionTargetType t = t := by
  obtain ⟨htrim, hapi⟩ := h
  rw [canonicalActionTargetType, htrim, if_neg hapi]

theorem sanitizeActionTargetURL_of_absolute {url : URLParser} {parsed : ParsedURL}
    (h : absoluteURL url (Text.trimSpace t) = some parsed) (hne : (Text.trimSpace t).isEmpty = false) :
    sanitizeActionTargetURL url t = parsed.scheme ++ "://" ++ parsed.host ++ parsed.escapedPath := by
  rw [sanitizeActionTargetURL, safeResponseURL]
  simp only [hne, Bool.false_eq_true, if_false, h]
  cases (!parsed.rawQuery.isEmpty || parsed.hasUser) with
  | false => rfl
  | true => rfl

theorem sanitizeActionTargetURL_eq_self_iff {url : URLParser} (htrim : Text.trimSpace t = t) :
    sanitizeActionTargetURL url t = t ↔ plainTargetURL url t := by
  rw [plainTargetURL, and_iff_right htrim]
  cases hempty : t.isEmpty with
  | true =>
    obtain rfl := List.isEmpty_iff.mp hempty
    have hrelative : absoluteURL url [] = none := by
      rw [absoluteURL, filter_eq_none_iff]
      intro parsed hparsed
      have hscheme : parsed.scheme = [] := by
        by_contra hscheme
        obtain ⟨⟨c, rest, hcons, -⟩, -⟩ := url.scheme_head hparsed hscheme
        cases hcons
      simp [hscheme]
    rw [hrelative]
    exact iff_of_true rfl (by decide +kernel)
  | false =>
    cases habsolute : absoluteURL url t with
    | some parsed =>
      have hsafe := sanitizeActionTargetURL_of_absolute (t := t) (by rwa [htrim]) (by rwa [htrim])
      rw [hsafe]
      exact eq_comm
    | none =>
      rw [sanitizeActionTargetURL, safeResponseURL]
      simp only [htrim, hempty, habsolute, Bool.false_eq_true, if_false]
      rw [redactInlineAuth, redactInlineInputAuth_eq_self_iff, Bool.not_eq_true]

theorem sanitizeActionSecretRefs_of_plain {refs : List Text} (h : ∀ ref ∈ refs, plainSecretRef ref) :
    sanitizeActionSecretRefs refs = refs := by
  have hone : ∀ ref ∈ refs, sanitizeActionSecretRef ref = some ref := by
    intro ref href
    obtain ⟨htrim, hne, hraw⟩ := h ref href
    rw [sanitizeActionSecretRef]
    simp only [htrim, hraw, List.isEmpty_iff, hne, if_false, Bool.false_eq_true]
  rw [sanitizeActionSecretRefs, List.filterMap_congr hone, List.filterMap_some]

theorem canonicalFallbackPolicy_of_canonical {fp : FallbackPolicy} (hprimary : canonicalTarget fp.primaryTarget)
    (hsecondary : canonicalTarget fp.secondaryTarget) (hallowed : ∀ t ∈ fp.allowedTargets, canonicalTarget t) :
    canonicalFallbackPolicy fp = fp := by
  have hmap : fp.allowedTargets.map canonicalActionTargetType = fp.allowedTargets :=
    (List.map_congr_left fun t ht => canonicalActionTargetType_of_canonical (hallowed t ht)).trans (List.map_id _)
  rw [canonicalFallbackPolicy, canonicalActionTargetType_of_canonical hprimary,
    canonicalActionTargetType_of_canonical hsecondary, hmap]

theorem applyPolicyPresetDefaults_replayClass (preset : Text) (flags : PolicyFlags) :
    (applyPolicyPresetDefaults preset flags).replayClass = presetReplayClass preset := by
  unfold applyPolicyPresetDefaults presetReplayClass
  split_ifs <;> simp_all

theorem applyPolicyPresetDefaults_approvalRequired (preset : Text) (flags : PolicyFlags) :
    (applyPolicyPresetDefaults preset flags).approvalRequired =
      if preset = "Non-replayable" then flags.approvalRequired else decide (preset = "Human-gated") := by
  unfold applyPolicyPresetDefaults
  split_ifs with hgated hreplay <;> simp_all

theorem applyPolicyPresetDefaults_irreversible (preset : Text) (flags : PolicyFlags) :
    (applyPolicyPresetDefaults preset flags).irreversible =
      if preset = "Non-replayable" then true else flags.irreversible := by
  unfold applyPolicyPresetDefaults
  split_ifs with hgated hreplay <;> simp_all

structure ReadFrom (env : ActionEnv) (row current : ActionDefinition) : Prop where
  same : ∀ f : ActionField, f ∈ [.name, .displayName, .description, .method, .policyPreset, .replayClass,
    .approvalRequired, .irreversible] → SameField row current f
  targetType : current.targetType = canonicalActionTargetType row.targetType
  targetURL : current.targetURL = sanitizeActionTargetURL env.url row.targetURL
  secretRefs : current.secretRefs = sanitizeActionSecretRefs row.secretRefs
  targetMetadata : sanitizeActionMetadata env.url env.order row.targetMetadata = some current.targetMetadata
  fallbackPolicy : current.fallbackPolicy = canonicalFallbackPolicy row.fallbackPolicy

theorem readFrom_of_scan {current : ActionDefinition}
    (h : scanActionDefinition env row = .ok current) : ReadFrom env row current := by
  obtain ⟨metadata, hmetadata, h⟩ := exists_of_bind_ok h
  cases h
  refine ⟨?_, rfl, rfl, rfl, need_eq_ok.mp hmetadata, rfl⟩
  intro f hf
  cases f <;> first | rfl | simp at hf

theorem patchedRow_keeps {req : ActionDefinitionRequest} {d : ActionDefinition}
    (hrow : Undisturbed env req row) (h : patchedRow env req row = .ok d) (f : ActionField)
    (hf : req.mentions f = false) : SameField row d f := by
  obtain ⟨current, hscan, hnormal⟩ := exists_of_bind_ok h
  have hread := readFrom_of_scan hscan
  have hover := normalizeActionDefinitionRequest_eq_ok.mp hnormal
  simp only [isNone_some, getD_some] at hover
  have hpresetRow : current.policyPreset = row.policyPreset := hread.same .policyPreset (by simp)
  have hpreset : d.policyPreset = patchedPreset req row := by
    rw [hover.policyPreset, patchedPreset, hpresetRow, Bool.or_false]
  cases f with
  | name =>
    have hname : given req.name = false := hf
    exact hover.name.trans (by rw [hname]; exact hread.same .name (by simp))
  | displayName =>
    have hname : given req.displayName = false := hf
    have hcurrent : current.displayName = row.displayName := hread.same .displayName (by simp)
    have hne : row.displayName.isEmpty = false := by simpa using hrow.displayName hname
    have hover := hover.displayName
    simp only [hname, Bool.or_false, Bool.false_eq_true, if_false, hcurrent, hne] at hover
    exact hover
  | description =>
    have hname : given req.description = false := hf
    exact hover.description.trans (by rw [hname]; exact hread.same .description (by simp))
  | targetType =>
    have hname : given req.targetType = false := hf
    have hcanon := canonicalActionTargetType_of_canonical (hrow.targetType hname)
    change d.targetType = row.targetType
    rw [hover.targetType, hname, if_neg Bool.false_ne_true, hread.targetType, hcanon, hcanon]
  | targetURL =>
    have hname : given req.targetURL = false := hf
    change d.targetURL = row.targetURL
    rw [hover.targetURL, hname, Bool.or_false, if_neg Bool.false_ne_true, hread.targetURL]
    have hplain := hrow.targetURL hname
    exact (sanitizeActionTargetURL_eq_self_iff hplain.1).mpr hplain
  | method =>
    have hname : given req.method = false := hf
    have hcurrent : current.method = row.method := hread.same .method (by simp)
    have hne : row.method.isEmpty = false := by simpa using hrow.method hname
    have hover := hover.method
    simp only [hname, Bool.false_eq_true, if_false, hcurrent, hne] at hover
    exact hover
  | policyPreset =>
    have hname : given req.policyPreset = false := hf
    exact hover.policyPreset.trans (by rw [hname]; exact hpresetRow)
  | replayClass =>
    have hname : given req.replayClass = false := hf
    change d.replayClass = row.replayClass
    rw [hover.replayClass, hname, if_neg Bool.false_ne_true, applyPolicyPresetDefaults_replayClass, hpreset]
    exact (hrow.replayClass hname).symm
  | approvalRequired =>
    have hname : req.approvalRequired = none := by simpa [mentions] using hf
    have hcurrent : current.approvalRequired = row.approvalRequired := hread.same .approvalRequired (by simp)
    change d.approvalRequired = row.approvalRequired
    rw [hover.approvalRequired, hname, getD_none, applyPolicyPresetDefaults_approvalRequired, hpreset]
    split_ifs with hreplay
    · exact hcurrent
    · exact (hrow.approvalRequired hname hreplay).symm
  | irreversible =>
    have hname : req.irreversible = none := by simpa [mentions] using hf
    have hcurrent : current.irreversible = row.irreversible := hread.same .irreversible (by simp)
    change d.irreversible = row.irreversible
    rw [hover.irreversible, hname, getD_none, applyPolicyPresetDefaults_irreversible, hpreset]
    split_ifs with hreplay
    · exact (hrow.irreversible hname hreplay).symm
    · exact hcurrent
  | secretRefs =>
    have hname : req.secretRefs = none := by simpa [mentions] using hf
    have hover := hover.secretRefs
    rw [hname] at hover
    change d.secretRefs = row.secretRefs
    rw [← ok.inj hover, hread.secretRefs]
    exact sanitizeActionSecretRefs_of_plain (hrow.secretRefs hname)
  | targetMetadata =>
    have hname : req.targetMetadata = none := by simpa [mentions] using hf
    have hover := hover.targetMetadata
    rw [hname] at hover
    change d.targetMetadata = row.targetMetadata
    rw [← ok.inj hover]
    have hplain := sanitizeResponseFields_of_plain env.url env.order row.targetMetadata (hrow.targetMetadata hname) [] 0
    exact some_inj.mp (hread.targetMetadata.symm.trans hplain)
  | fallbackPolicy =>
    have hname : req.fallbackPolicy = none := by simpa [mentions] using hf
    obtain ⟨hprimary, hsecondary, hallowed⟩ := hrow.fallbackPolicy hname
    change d.fallbackPolicy = row.fallbackPolicy
    rw [hover.fallbackPolicy, hname, map_none, getD_none, hread.fallbackPolicy]
    exact canonicalFallbackPolicy_of_canonical hprimary hsecondary hallowed

theorem handleActionPatch_keeps {req : ActionDefinitionRequest}
    (written : Bool) (hrow : Undisturbed env req row) (f : ActionField) (hf : req.mentions f = false) :
    SameField row (handleActionPatch env written req row) f := by
  rw [handleActionPatch]
  cases hpatched : patchedRow env req row with
  | error e => exact SameField.refl row f
  | ok d =>
    cases written with
    | false => exact SameField.refl row f
    | true => exact patchedRow_keeps hrow hpatched f hf

inductive PatchRun (env : ActionEnv) : ActionDefinition → List ActionDefinitionRequest → ActionDefinition → Prop where
  | done (row : ActionDefinition) : PatchRun env row [] row
  | patch {row row' : ActionDefinition} {req : ActionDefinitionRequest} {reqs : List ActionDefinitionRequest}
    (written : Bool) (hrow : Undisturbed env req row)
    (hrest : PatchRun env (handleActionPatch env written req row) reqs row') : PatchRun env row (req :: reqs) row'

theorem unmentioned_fields_kept {env : ActionEnv} {row row' : ActionDefinition} {reqs : List ActionDefinitionRequest}
    (hrun : PatchRun env row reqs row') (f : ActionField) (hf : ∀ req ∈ reqs, req.mentions f = false) :
    SameField row row' f := by
  induction hrun with
  | done row => exact SameField.refl row f
  | patch written hrow hrest ih =>
    have hstep := handleActionPatch_keeps written hrow f (hf _ (by simp))
    exact hstep.trans (ih fun req hreq => hf req (by simp [hreq]))

def plainEnv : ActionEnv where
  url := httpsURLs
  order := .inPlace
  toUpper := List.map Char.toUpper
  validateResolvedAddresses _ _ := none

def gatedAction : ActionDefinition :=
  { newActionDefinition with
    name := "refund"
    displayName := "Refund"
    approvalRequired := true }

theorem gate_lifted_by_description :
    handleActionCreate plainEnv
        { name := "refund".toList, displayName := "Refund".toList, policyPreset := "Safe automation".toList
          approvalRequired := some true } = .ok gatedAction ∧
      gatedAction.approvalRequired = true ∧
      (handleActionPatch plainEnv true { description := "Refunds".toList } gatedAction).approvalRequired = false := by
  decide +kernel

theorem undisturbed_description :
    Undisturbed plainEnv { description := "Refunds" } { gatedAction with approvalRequired := false } where
  displayName _ := by decide +kernel
  targetType _ := by
    constructor
    · decide +kernel
    · decide +kernel
  targetURL _ := by
    constructor
    · decide +kernel
    change hasInlineAuth [] = false
    decide +kernel
  method _ := by decide +kernel
  replayClass _ := by decide +kernel
  approvalRequired _ _ := by decide +kernel
  irreversible _ h := absurd h (by decide +kernel)
  secretRefs _ := by simp [gatedAction, newActionDefinition]
  targetMetadata _ := by decide +kernel
  fallbackPolicy _ := by
    refine ⟨⟨by decide +kernel, by decide +kernel⟩, ⟨by decide +kernel, by decide +kernel⟩, ?_⟩
    simp [gatedAction, newActionDefinition, noFallback]

theorem description_alone_edited :
    SameField { gatedAction with approvalRequired := false }
      (handleActionPatch plainEnv true { description := "Refunds".toList } { gatedAction with approvalRequired := false })
      .replayClass :=
  unmentioned_fields_kept (.patch true undisturbed_description (.done _)) .replayClass (by decide +kernel)

end Overture
