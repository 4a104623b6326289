import Overture.Api.ActionPatch
import Overture.Lib.Table

/-!
# Action packs

A pack installs registered actions. Its entries are checked by rules of their own and written without the normalisation
POST applies. An entry gives the definition POST would create from it exactly if it is written out in full.
-/

namespace Overture

open Json Except List Text

/-! ## Manifests -/

structure ActionEntry where
  (name displayName description targetType targetURL policyPreset replayClass : Text)
  (approvalRequired irreversible : Option Bool)
  targetMetadata : AnyMap
  inputSchema : Option AnyMap
  idempotencyGuidance : Text
  exampleInput : Option AnyMap

structure PackManifest where
  (schemaVersion name displayName description : Text)
  actions : List ActionEntry

def packSchemaVersion : Text := "2026-06-14"

def forbiddenPackKeys : List String :=
  ["tenant_id", "task_definition", "task_type", "runtime_target", "execution_graph", "ciphertext", "nonce",
    "runtime_endpoint", "runtime_id", "key_material", "secret_refs", "secret_ref", "api_key", "password", "token",
    "credential", "credentials"]

mutual

def hasForbiddenKey : Any → Bool
  | .obj fields => fieldsForbidden fields
  | .arr items => itemsForbidden items
  | _ => false

def itemsForbidden : Anys → Bool
  | .nil => false
  | .cons v rest => hasForbiddenKey v || itemsForbidden rest

def fieldsForbidden : AnyMap → Bool
  | .nil => false
  | .cons key child rest =>
    oneOf forbiddenPackKeys (toLower (trimSpace key)) || hasForbiddenKey child || fieldsForbidden rest

end

def optionalText (key : String) (t : Text) : List (Text × Any) := if t.isEmpty then [] else [(key.toList, .str t)]

def optionalFlag (key : String) (flag : Option Bool) : List (Text × Any) :=
  flag.toList.map fun b => (key.toList, .bool b)

def mapOrNull : Option AnyMap → Any
  | some m => .obj m
  | none => .null

def entryMembers (e : ActionEntry) : List (Text × Any) :=
  [("name".toList, .str e.name)] ++ optionalText "display_name" e.displayName ++
    [("description".toList, .str e.description), ("target_type".toList, .str e.targetType)] ++
    optionalText "target_url" e.targetURL ++ [("policy_preset".toList, .str e.policyPreset)] ++
    optionalText "replay_class" e.replayClass ++ optionalFlag "approval_required" e.approvalRequired ++
    optionalFlag "irreversible" e.irreversible ++
    (if e.targetMetadata = .nil then [] else [("target_metadata".toList, .obj e.targetMetadata)]) ++
    [("input_schema".toList, mapOrNull e.inputSchema), ("idempotency_guidance".toList, .str e.idempotencyGuidance),
      ("example_input".toList, mapOrNull e.exampleInput)]

/-- `mustJSON`: a value that cannot be written gives the empty text. -/
def entryJSON (e : ActionEntry) : Text :=
  match (entryMembers e).mapM fun m => m.2.toValue.map fun v => (m.1, v) with
  | some members => (Value.object members).print
  | none => []

def looksLikeEmbeddedSecret (e : ActionEntry) : Bool :=
  let joined := toLower (entryJSON e)
  ["igris_", "sk-live", "sk-test", "apikey", "bearer ", "password=", "-----begin"].any
    fun marker => contains joined marker.toList

def rejectForbiddenKeys (pfx : Text) (e : ActionEntry) : Except Text Unit :=
  ensure (pfx ++ ": forbidden field") !((entryMembers e).any fun m => hasForbiddenKey m.2)

def checkEntryURL (pfx targetType targetURL : Text) : Except Text Unit :=
  if requiresTargetURL targetType && given targetURL then do
    ensure (pfx ++ ".target_url must be https:// for " ++ targetType)
      ("https://".toList.isPrefixOf (toLower (trimSpace targetURL)))
    ensure
      (pfx ++ ".target_url must not be loopback for " ++ targetType ++
        " (use http://127.0.0.1 for local dev packs)")
      (!contains (toLower targetURL) "://localhost" && !contains targetURL "127.0.0.1")
  else .ok ()

def validateActionEntry (e : ActionEntry) (index : Nat) : Except Text Unit := do
  let pfx := "actions[" ++ Nat.toDigits 10 index ++ "]"
  ensure (pfx ++ ".name must match ^[a-z][a-z0-9_.]\x7b1,63\x7d$")
    (validActionName (trimSpace e.name))
  ensure (pfx ++ ".description is required") (given e.description)
  let targetType := trimSpace e.targetType
  ensure
    (pfx ++ ".target_type must be one of mock_demo, " ++ "hosted_api, webhook, local_runtime")
    (isCanonicalFallbackSurface targetType)
  checkEntryURL pfx targetType e.targetURL
  ensure (pfx ++ ".policy_preset is unsupported") (validPolicyPreset (trimSpace e.policyPreset))
  ensure (pfx ++ ".replay_class is invalid")
    (e.replayClass.isEmpty || validReplayClass (trimSpace e.replayClass))
  ensure (pfx ++ ".input_schema is required") e.inputSchema.isSome
  ensure (pfx ++ ".idempotency_guidance is required") (given e.idempotencyGuidance)
  ensure (pfx ++ ".example_input is required") e.exampleInput.isSome
  rejectForbiddenKeys pfx e
  ensure (pfx ++ " must not contain secret values") !looksLikeEmbeddedSecret e

def validateEntries (seen : List Text) (index : Nat) : List ActionEntry → Except Text Unit
  | [] => .ok ()
  | e :: rest => do
    validateActionEntry e index
    ensure
      ("actions[" ++ Nat.toDigits 10 index ++ "]: duplicate name \"" ++ e.name ++ "\"")
      !seen.contains e.name
    validateEntries (e.name :: seen) (index + 1) rest

def validateManifest (m : PackManifest) : Except Text Unit := do
  ensure "schema_version must be \"2026-06-14\"" (trimSpace m.schemaVersion == packSchemaVersion)
  ensure "pack name is required" (given m.name)
  ensure "pack description is required" (given m.description)
  ensure "pack must include at least one action" !m.actions.isEmpty
  validateEntries [] 0 m.actions
  ensure "pack: forbidden field"
    !(m.actions.any fun e => (entryMembers e).any fun member => hasForbiddenKey member.2)

/-! ## Installation -/

def entryMetadata (e : ActionEntry) : AnyMap :=
  AnyMap.ofEntries (e.targetMetadata.toList ++ e.inputSchema.toList.map (fun m => ("input_schema".toList, .obj m)) ++
    optionalText "idempotency_guidance" e.idempotencyGuidance ++
    e.exampleInput.toList.map fun m => ("example_input".toList, .obj m))

structure ActionCreateRequest where
  (name displayName description targetType targetURL method policyPreset replayClass : Text)
  (approvalRequired irreversible : Option Bool)
  secretRefs : List Text
  targetMetadata : AnyMap

def entryToCreateRequest (e : ActionEntry) : ActionCreateRequest where
  name := e.name
  displayName := if (trimSpace e.displayName).isEmpty then e.name else trimSpace e.displayName
  description := e.description
  targetType := e.targetType
  targetURL := trimSpace e.targetURL
  method := "POST"
  policyPreset := e.policyPreset
  replayClass := e.replayClass
  approvalRequired := e.approvalRequired
  irreversible := e.irreversible
  secretRefs := []
  targetMetadata := entryMetadata e

structure ActionRow where
  tenantID : Text
  definition : ActionDefinition
deriving DecidableEq

def ActionRow.key (row : ActionRow) : Text × Text := (row.tenantID, row.definition.name)

abbrev ActionRows := Table ActionRow.key

def createdDefinition (req : ActionCreateRequest) : ActionDefinition where
  name := req.name
  displayName := req.displayName
  description := req.description
  targetType := req.targetType
  targetURL := req.targetURL
  method := req.method
  policyPreset := req.policyPreset
  replayClass := req.replayClass
  approvalRequired := req.approvalRequired.getD false
  irreversible := req.irreversible.getD false
  secretRefs := req.secretRefs
  targetMetadata := req.targetMetadata
  fallbackPolicy := noFallback

/-- Inserts one definition unless its name is taken; `fails` is an error of the database. -/
def createAction (fails : Bool) (tenantID : Text) (req : ActionCreateRequest) (rows : ActionRows) :
    Except Text (Bool × ActionRows) :=
  if !given tenantID then .error "database or tenant is not configured"
  else if fails then .error "database error"
  else if (rows.get? (tenantID, req.name)).isSome then .ok (false, rows)
  else .ok (true, rows.put ⟨tenantID, createdDefinition req⟩)

structure InstallResult where
  packName : Text
  (created skipped : List Text)

def installEntries (fails : Nat → Bool) (tenantID : Text) (index : Nat) (result : InstallResult) (rows : ActionRows) :
    List ActionEntry → InstallResult × Option Text × ActionRows
  | [] => (result, none, rows)
  | e :: rest =>
    match createAction (fails index) tenantID (entryToCreateRequest e) rows with
    | .error problem => (result, some ("install action \"" ++ e.name ++ "\": " ++ problem), rows)
    | .ok (true, rows') =>
      installEntries fails tenantID (index + 1) { result with created := result.created ++ [e.name] } rows' rest
    | .ok (false, rows') =>
      installEntries fails tenantID (index + 1) { result with skipped := result.skipped ++ [e.name] } rows' rest

def installPack (fails : Nat → Bool) (tenantID : Text) (pack : PackManifest) (rows : ActionRows) :
    InstallResult × Option Text × ActionRows :=
  match validateManifest pack with
  | .error problem => (⟨[], [], []⟩, some problem, rows)
  | .ok _ => installEntries fails tenantID 0 ⟨pack.name, [], []⟩ rows pack.actions

def postRequest (req : ActionCreateRequest) : ActionDefinitionRequest where
  name := req.name
  displayName := req.displayName
  description := req.description
  targetType := req.targetType
  targetURL := req.targetURL
  method := req.method
  policyPreset := req.policyPreset
  replayClass := req.replayClass
  approvalRequired := req.approvalRequired
  irreversible := req.irreversible
  secretRefs := some req.secretRefs
  targetMetadata := if req.targetMetadata = .nil then none else some req.targetMetadata

/-! ## Entries written out in full -/

structure WrittenOut (env : ActionEnv) (e : ActionEntry) : Prop where
  name : trimSpace e.name = e.name
  description : trimSpace e.description = e.description
  targetType : trimSpace e.targetType = e.targetType
  targetURL : plainTargetURL env.url (trimSpace e.targetURL)
  acceptedURL : checkTargetURL env e.targetType (trimSpace e.targetURL) = .ok ()
  policyPreset : trimSpace e.policyPreset = e.policyPreset
  replayClass : e.replayClass ≠ [] ∧ trimSpace e.replayClass = e.replayClass
  approvalRequired : e.approvalRequired = none → e.policyPreset ≠ "Human-gated"
  irreversible : e.irreversible = none → e.policyPreset ≠ "Non-replayable"
  targetMetadata : sanitizeActionMetadata env.url env.order (entryMetadata e) = some (entryMetadata e)

structure EntryChecked (e : ActionEntry) : Prop where
  name : validActionName (trimSpace e.name) = true
  targetType : isCanonicalFallbackSurface (trimSpace e.targetType) = true
  policyPreset : validPolicyPreset (trimSpace e.policyPreset) = true
  replayClass : e.replayClass = [] ∨ validReplayClass (trimSpace e.replayClass) = true
  inputSchema : e.inputSchema.isSome = true

variable {e : ActionEntry} {index : Nat} {t tenantID : Text} {env : ActionEnv} {fails : Nat → Bool}
  {rows : ActionRows} {row : ActionRow}

theorem entryChecked_of_validate (h : validateActionEntry e index = .ok ()) :
    EntryChecked e := by
  unfold validateActionEntry at h
  obtain ⟨hname, h⟩ := ok_of_bind_ok h
  obtain ⟨-, h⟩ := ok_of_bind_ok h
  obtain ⟨htype, h⟩ := ok_of_bind_ok h
  obtain ⟨-, h⟩ := ok_of_bind_ok h
  obtain ⟨hpreset, h⟩ := ok_of_bind_ok h
  obtain ⟨hreplay, h⟩ := ok_of_bind_ok h
  obtain ⟨hschema, h⟩ := ok_of_bind_ok h
  rw [ensure_eq_ok] at hname htype hpreset hreplay hschema
  rw [Bool.or_eq_true, List.isEmpty_iff] at hreplay
  exact ⟨hname, htype, hpreset, hreplay, hschema⟩

def nameRune (c : Char) : Bool := c.isLower || c.isDigit || c == '_' || c == '.'

theorem lowerRune_of_nameRune {c : Char} (h : nameRune c = true) :
    (if lowerRune c == '-' || lowerRune c == ' ' then '_' else lowerRune c) = c := by
  have hascii : ∀ n : Fin 128, nameRune (Char.ofNat n) = true →
      (if lowerRune (Char.ofNat n) == '-' || lowerRune (Char.ofNat n) == ' ' then '_'
        else lowerRune (Char.ofNat n)) = Char.ofNat n := by
    decide +kernel
  have hlt : c.toNat < 128 := by
    simp only [nameRune, Char.isLower, Char.isDigit, Bool.or_eq_true, Bool.and_eq_true, decide_eq_true_eq, beq_iff_eq,
      UInt32.le_iff_toNat_le, ge_iff_le] at h
    rcases h with ((⟨-, h⟩ | ⟨-, h⟩) | rfl) | rfl
    · exact lt_of_le_of_lt h (by decide)
    · exact lt_of_le_of_lt h (by decide)
    · decide
    · decide
  have hc := hascii ⟨c.toNat, hlt⟩
  simp only [Char.ofNat_toNat] at hc
  exact hc h

theorem all_nameRune_of_valid (h : validActionName t = true) : ∀ c ∈ t, nameRune c = true := by
  cases t with
  | nil => simp
  | cons c rest =>
    simp only [validActionName, Bool.and_eq_true, all_eq_true] at h
    obtain ⟨⟨⟨hc, hrest⟩, -⟩, -⟩ := h
    intro x hx
    rcases mem_cons.mp hx with rfl | hx
    · simp [nameRune, hc]
    · exact hrest x hx

theorem normalizeActionName_of_valid {name : Text} (h : validActionName (trimSpace name) = true) :
    normalizeActionName name = trimSpace name := by
  rw [normalizeActionName, toLower, map_map]
  refine (map_congr_left fun c hc => ?_).trans (map_id _)
  exact lowerRune_of_nameRune (all_nameRune_of_valid h c hc)

theorem entryMetadata_ne_nil (h : e.inputSchema.isSome = true) : entryMetadata e ≠ .nil := by
  obtain ⟨schema, hschema⟩ := Option.isSome_iff_exists.mp h
  have hnew (key : Text) (v : Any) (m : AnyMap) : m.insertNew key v ≠ .nil := by
    cases m with
    | nil => simp [AnyMap.insertNew]
    | cons k w rest =>
      rw [AnyMap.insertNew]
      split_ifs <;> simp
  rw [entryMetadata, hschema]
  cases e.targetMetadata with
  | nil | cons key v rest => exact hnew _ _ _

theorem given_presetReplayClass (preset : Text) : given (presetReplayClass preset) = true := by
  unfold presetReplayClass
  split_ifs <;> decide

theorem given_of_oneOf {values : List String} (hvalues : values.all (fun v => v != "") = true)
    (h : oneOf values (trimSpace t) = true) : given t = true := by
  rw [given, Bool.not_eq_true', isEmpty_eq_false_iff]
  intro hempty
  rw [hempty, oneOf, any_eq_true] at h
  obtain ⟨v, hv, hnil⟩ := h
  have hne := all_eq_true.mp hvalues v hv
  have hv : v = "" := String.toList_eq_nil_iff.mp (eq_of_beq hnil).symm
  simp [hv] at hne

theorem canonical_of_surface (h : isCanonicalFallbackSurface (trimSpace t) = true) :
    canonicalActionTargetType t = trimSpace t := by
  rw [canonicalActionTargetType]
  apply if_neg
  intro hapi
  rw [hapi] at h
  cases h

theorem valid_of_surface (h : isCanonicalFallbackSurface t = true) :
    validActionTargetType t = true ∧ t ≠ "hybrid_fallback" := by
  constructor
  · rw [isCanonicalFallbackSurface, oneOf, any_eq_true] at h
    obtain ⟨v, hv, hvalue⟩ := h
    exact any_eq_true.mpr ⟨v, by fin_cases hv <;> decide, hvalue⟩
  · rintro rfl
    cases h

theorem validateFallbackPolicy_of_none {d : ActionDefinition} (htype : d.targetType ≠ "hybrid_fallback")
    (hpolicy : d.fallbackPolicy = noFallback) : validateFallbackPolicy d = .ok () := by
  rw [validateFallbackPolicy, hpolicy, if_neg htype]
  rfl

theorem post_metadata (he : EntryChecked e) :
    (postRequest (entryToCreateRequest e)).targetMetadata = some (entryMetadata e) :=
  if_neg (entryMetadata_ne_nil he.inputSchema)

theorem given_targetType (he : EntryChecked e) : given e.targetType = true :=
  given_of_oneOf (by decide) he.targetType

theorem writtenOut_of_overlays (he : EntryChecked e)
    (h : Overlays env (postRequest (entryToCreateRequest e)) true newActionDefinition
      (createdDefinition (entryToCreateRequest e))) : WrittenOut env e := by
  have hname : e.name = normalizeActionName e.name := h.name.trans (if_pos (Bool.or_true _))
  have hdescription : e.description = trimSpace e.description :=
    h.description.trans (if_pos (Bool.or_true _))
  have htargetType : e.targetType = canonicalActionTargetType e.targetType :=
    h.targetType.trans (congrArg canonicalActionTargetType (if_pos (given_targetType he)))
  have htargetURL : trimSpace e.targetURL = sanitizeActionTargetURL env.url (trimSpace e.targetURL) :=
    h.targetURL.trans (if_pos (Bool.or_true _))
  have hpreset : e.policyPreset = trimSpace e.policyPreset :=
    h.policyPreset.trans (if_pos (Bool.or_true _))
  have hreplayClass : e.replayClass =
      if given e.replayClass then trimSpace e.replayClass else presetReplayClass e.policyPreset := by
    have hreplayClass := h.replayClass
    rwa [applyPolicyPresetDefaults_replayClass] at hreplayClass
  have hgiven : given e.replayClass = true := by
    by_contra hblank
    rw [if_neg hblank] at hreplayClass
    rw [hreplayClass] at hblank
    exact hblank (given_presetReplayClass _)
  rw [if_pos hgiven] at hreplayClass
  have hmeta := h.targetMetadata
  rw [post_metadata he] at hmeta
  exact {
    name := (normalizeActionName_of_valid he.name).symm.trans hname.symm
    description := hdescription.symm
    targetType := (canonical_of_surface he.targetType).symm.trans htargetType.symm
    targetURL := (sanitizeActionTargetURL_eq_self_iff (trimSpace_trimSpace _)).mp htargetURL.symm
    acceptedURL := h.checkedURL
    policyPreset := hpreset.symm
    replayClass := ⟨by rintro hnil; rw [hnil] at hgiven; exact absurd hgiven (by decide), hreplayClass.symm⟩
    approvalRequired := by
      intro hnone hgated
      have happroval : e.approvalRequired.getD false = e.approvalRequired.getD
          (applyPolicyPresetDefaults e.policyPreset _).approvalRequired := h.approvalRequired
      rw [applyPolicyPresetDefaults_approvalRequired, hnone, hgated] at happroval
      cases happroval
    irreversible := by
      intro hnone hpresetName
      have hirreversible : e.irreversible.getD false = e.irreversible.getD
          (applyPolicyPresetDefaults e.policyPreset _).irreversible := h.irreversible
      rw [applyPolicyPresetDefaults_irreversible, hnone, if_pos hpresetName] at hirreversible
      cases hirreversible
    targetMetadata := need_eq_ok.mp hmeta }

theorem overlays_of_writtenOut (hupper : env.toUpper "POST".toList = "POST".toList)
    (he : EntryChecked e) (h : WrittenOut env e) :
    Overlays env (postRequest (entryToCreateRequest e)) true newActionDefinition
      (createdDefinition (entryToCreateRequest e)) := by
  have hgiven : given e.replayClass = true := by
    rw [given, h.replayClass.2]
    simpa using h.replayClass.1
  have hname := (normalizeActionName_of_valid he.name).trans h.name
  have hvalid : validActionName e.name = true := by
    rw [← h.name]
    exact he.name
  have hsurface := valid_of_surface (h.targetType ▸ he.targetType)
  have hdisplay : trimSpace (entryToCreateRequest e).displayName = (entryToCreateRequest e).displayName ∧
      (entryToCreateRequest e).displayName.isEmpty = false := by
    rw [entryToCreateRequest]
    dsimp only
    split_ifs with hblank
    · refine ⟨h.name, ?_⟩
      cases hnil : e.name with
      | nil =>
        rw [hnil] at hvalid
        cases hvalid
      | cons c rest => rfl
    · exact ⟨trimSpace_trimSpace _, by simpa using hblank⟩
  exact {
    name := hname.symm.trans (if_pos (Bool.or_true _)).symm
    validName := hvalid
    displayName := by
      dsimp only
      rw [if_pos (Bool.or_true _)]
      change (entryToCreateRequest e).displayName = if (trimSpace (entryToCreateRequest e).displayName).isEmpty
        then _ else trimSpace (entryToCreateRequest e).displayName
      rw [hdisplay.1, hdisplay.2, if_neg Bool.false_ne_true]
    description := h.description.symm.trans (if_pos (Bool.or_true _)).symm
    targetType := ((canonical_of_surface he.targetType).trans h.targetType).symm.trans
      (congrArg canonicalActionTargetType (if_pos (given_targetType he))).symm
    validTargetType := hsurface.1
    targetURL := ((sanitizeActionTargetURL_eq_self_iff (trimSpace_trimSpace _)).mpr h.targetURL).symm.trans
      (if_pos (Bool.or_true _)).symm
    checkedURL := h.acceptedURL
    method := by
      have hpost : given (postRequest (entryToCreateRequest e)).method = true := by
        change given "POST" = true
        decide
      dsimp only
      rw [if_pos hpost]
      change "POST".toList = if (env.toUpper (trimSpace "POST")).isEmpty then "POST".toList
        else env.toUpper (trimSpace "POST")
      rw [show trimSpace "POST" = "POST".toList by decide, hupper]
      rfl
    validMethod := by
      change validActionMethod "POST" = true
      decide
    policyPreset := h.policyPreset.symm.trans (if_pos (Bool.or_true _)).symm
    validPreset := by
      change validPolicyPreset e.policyPreset = true
      rw [← h.policyPreset]
      exact he.policyPreset
    replayClass := h.replayClass.2.symm.trans (if_pos hgiven).symm
    validReplayClass := by
      change validReplayClass e.replayClass = true
      rw [← h.replayClass.2]
      exact he.replayClass.resolve_left h.replayClass.1
    approvalRequired := by
      change e.approvalRequired.getD false = e.approvalRequired.getD _
      rw [applyPolicyPresetDefaults_approvalRequired]
      cases happroval : e.approvalRequired with
      | some b => rfl
      | none =>
        have hgated : (createdDefinition (entryToCreateRequest e)).policyPreset ≠ "Human-gated".toList :=
          h.approvalRequired happroval
        rw [decide_eq_false hgated]
        exact (ite_self _).symm
    irreversible := by
      change e.irreversible.getD false = e.irreversible.getD _
      rw [applyPolicyPresetDefaults_irreversible]
      cases hirreversible : e.irreversible with
      | some b => rfl
      | none => exact (if_neg (h.irreversible hirreversible)).symm
    secretRefs := rfl
    targetMetadata := by
      rw [post_metadata he]
      exact need_eq_ok.mpr h.targetMetadata
    fallbackPolicy := rfl
    validFallback := validateFallbackPolicy_of_none hsurface.2 rfl }

theorem posted_iff_writtenOut (hupper : env.toUpper "POST" = "POST")
    (he : EntryChecked e) :
    handleActionCreate env (postRequest (entryToCreateRequest e)) = .ok (createdDefinition (entryToCreateRequest e)) ↔
      WrittenOut env e := by
  rw [handleActionCreate, normalizeActionDefinitionRequest_eq_ok]
  constructor
  · exact writtenOut_of_overlays he
  · exact overlays_of_writtenOut hupper he

theorem validateEntries_spec {seen : List Text} {es : List ActionEntry}
    (h : validateEntries seen index es = .ok ()) :
    (∀ e ∈ es, EntryChecked e) ∧ (es.map ActionEntry.name).Nodup ∧ ∀ e ∈ es, e.name ∉ seen := by
  induction es generalizing seen index with
  | nil => simp
  | cons e rest ih =>
    obtain ⟨he, h⟩ := ok_of_bind_ok h
    obtain ⟨hseen, h⟩ := ok_of_bind_ok h
    obtain ⟨hchecked, hnodup, hfresh⟩ := ih h
    rw [ensure_eq_ok] at hseen
    have hnew : e.name ∉ rest.map ActionEntry.name := by
      rw [mem_map]
      rintro ⟨e', he', hname⟩
      exact hfresh e' he' (by simp [hname])
    refine ⟨?_, nodup_cons.mpr ⟨hnew, hnodup⟩, ?_⟩
    · rintro e' (_ | ⟨_, he'⟩)
      · exact entryChecked_of_validate he
      · exact hchecked e' he'
    rintro e' (_ | ⟨_, he'⟩)
    · simpa using hseen
    · exact fun hmem => hfresh e' he' (mem_cons_of_mem _ hmem)

theorem createAction_cases {fails : Bool} {req : ActionCreateRequest} {rows' : ActionRows}
    {created : Bool} (h : createAction fails tenantID req rows = .ok (created, rows')) :
    rows' = rows ∨ rows.get? (tenantID, req.name) = none ∧ rows' = rows.put ⟨tenantID, createdDefinition req⟩ := by
  unfold createAction at h
  split_ifs at h with htenant hfails htaken
  · cases h
    exact .inl rfl
  · cases h
    exact .inr ⟨by simpa using htaken, rfl⟩

theorem installEntries_cons (fails : Nat → Bool) (tenantID : Text) (index : Nat) (result : InstallResult)
    (rows : ActionRows) (e : ActionEntry) (rest : List ActionEntry) :
    (installEntries fails tenantID index result rows (e :: rest)).2.2 = rows ∨
      ∃ created result' rows', createAction (fails index) tenantID (entryToCreateRequest e) rows = .ok (created, rows') ∧
        (installEntries fails tenantID index result rows (e :: rest)).2.2 =
          (installEntries fails tenantID (index + 1) result' rows' rest).2.2 := by
  rw [installEntries]
  cases hcreate : createAction (fails index) tenantID (entryToCreateRequest e) rows with
  | error problem => exact .inl rfl
  | ok outcome =>
    obtain ⟨created, rows'⟩ := outcome
    cases created with
    | true => exact .inr ⟨true, _, rows', rfl, rfl⟩
    | false => exact .inr ⟨false, _, rows', rfl, rfl⟩

theorem installEntries_keeps {key : Text × Text}
    (es : List ActionEntry) {result : InstallResult} (h : rows.get? key = some row) :
    (installEntries fails tenantID index result rows es).2.2.get? key = some row := by
  induction es generalizing index result rows with
  | nil => exact h
  | cons e rest ih =>
    obtain hsame | ⟨created, result', rows', hcreate, hrest⟩ :=
      installEntries_cons fails tenantID index result rows e rest
    · rwa [hsame]
    rw [hrest]
    apply ih
    obtain rfl | ⟨hfree, rfl⟩ := createAction_cases hcreate
    · exact h
    rw [Table.get?_put, if_neg]
    · exact h
    rintro rfl
    exact absurd (h.symm.trans hfree) (by simp)

theorem installEntries_row {name : Text} (es : List ActionEntry)
    {result : InstallResult} (hnone : rows.get? (tenantID, name) = none)
    (h : (installEntries fails tenantID index result rows es).2.2.get? (tenantID, name) = some row) :
    ∃ e ∈ es, e.name = name ∧ row = ⟨tenantID, createdDefinition (entryToCreateRequest e)⟩ := by
  induction es generalizing index result rows with
  | nil => exact absurd (hnone.symm.trans h) (by simp)
  | cons e rest ih =>
    obtain hsame | ⟨created, result', rows', hcreate, hrest⟩ :=
      installEntries_cons fails tenantID index result rows e rest
    · rw [hsame] at h
      exact absurd (hnone.symm.trans h) (by simp)
    rw [hrest] at h
    have hget : rows'.get? (tenantID, name) = none ∨
        e.name = name ∧ rows'.get? (tenantID, name) = some ⟨tenantID, createdDefinition (entryToCreateRequest e)⟩ := by
      obtain rfl | ⟨hfree, rfl⟩ := createAction_cases hcreate
      · exact .inl hnone
      rw [Table.get?_put]
      split_ifs with hkey
      · exact .inr ⟨(Prod.ext_iff.mp hkey).2, rfl⟩
      · exact .inl hnone
    obtain hget | ⟨hname, hget⟩ := hget
    · obtain ⟨e', he', hrow⟩ := ih hget h
      exact ⟨e', by simp [he'], hrow⟩
    · exact ⟨e, by simp, hname, Option.some_inj.mp (h.symm.trans (installEntries_keeps rest hget))⟩

structure Creates (fails : Nat → Bool) (tenantID : Text) (pack : PackManifest) (rows : ActionRows) (e : ActionEntry)
    (row : ActionRow) : Prop where
  entry : e ∈ pack.actions
  free : rows.get? (tenantID, e.name) = none
  written : (installPack fails tenantID pack rows).2.2.get? (tenantID, e.name) = some row

theorem Creates.spec {pack : PackManifest}
    (h : Creates fails tenantID pack rows e row) :
    EntryChecked e ∧ row = ⟨tenantID, createdDefinition (entryToCreateRequest e)⟩ := by
  have hwritten := h.written
  rw [installPack] at hwritten
  cases hvalid : validateManifest pack with
  | error problem =>
    rw [hvalid] at hwritten
    exact absurd (h.free.symm.trans hwritten) (by simp)
  | ok u =>
    rw [hvalid] at hwritten
    unfold validateManifest at hvalid
    obtain ⟨-, hvalid⟩ := ok_of_bind_ok hvalid
    obtain ⟨-, hvalid⟩ := ok_of_bind_ok hvalid
    obtain ⟨-, hvalid⟩ := ok_of_bind_ok hvalid
    obtain ⟨-, hvalid⟩ := ok_of_bind_ok hvalid
    obtain ⟨hentries, -⟩ := ok_of_bind_ok hvalid
    obtain ⟨hchecked, hnodup, -⟩ := validateEntries_spec hentries
    obtain ⟨e', he', hname, hrow⟩ := installEntries_row _ h.free hwritten
    obtain rfl : e' = e := inj_on_of_nodup_map hnodup he' h.entry hname
    exact ⟨hchecked e' he', hrow⟩

/-- POST gives the installed row for an entry exactly if the entry is written out in full. -/
theorem installed_as_posted_iff {env : ActionEnv} (hupper : env.toUpper "POST".toList = "POST".toList)
    {fails : Nat → Bool} {tenantID : Text} {pack : PackManifest} {rows : ActionRows} {e : ActionEntry}
    {row : ActionRow} (h : Creates fails tenantID pack rows e row) :
    handleActionCreate env (postRequest (entryToCreateRequest e)) = .ok row.definition ↔ WrittenOut env e := by
  obtain ⟨hchecked, rfl⟩ := h.spec
  exact posted_iff_writtenOut hupper hchecked

def refundEntry : ActionEntry where
  name := "refund"
  displayName := []
  description := "Refunds"
  targetType := "mock_demo"
  targetURL := []
  policyPreset := "Human-gated"
  replayClass := "non_retryable"
  approvalRequired := none
  irreversible := none
  targetMetadata := .nil
  inputSchema := some .nil
  idempotencyGuidance := "order"
  exampleInput := some .nil

def refundPack (e : ActionEntry) : PackManifest where
  schemaVersion := packSchemaVersion
  name := "refunds"
  displayName := []
  description := "Refunds"
  actions := [e]

/-- The preset asks for approval, the installed row does not. -/
theorem installed_without_gate :
    ((installPack (fun _ => false) "acme".toList (refundPack refundEntry) .empty).2.2.get?
        ("acme".toList, "refund".toList)).map (fun row => row.definition.approvalRequired) = some false ∧
      (handleActionCreate plainEnv (postRequest (entryToCreateRequest refundEntry))).map
        (fun d => d.approvalRequired) = .ok true := by
  decide +kernel

def explicitEntry : ActionEntry := { refundEntry with approvalRequired := some true }

theorem creates_explicitEntry :
    Creates (fun _ => false) "acme".toList (refundPack explicitEntry) .empty explicitEntry
      ⟨"acme".toList, createdDefinition (entryToCreateRequest explicitEntry)⟩ where
  entry := mem_singleton.mpr rfl
  free := rfl
  written := by decide +kernel

theorem writtenOut_explicitEntry : WrittenOut plainEnv explicitEntry where
  name := by decide +kernel
  description := by decide
  targetType := by decide +kernel
  targetURL := by
    constructor
    · decide +kernel
    change hasInlineAuth [] = false
    decide +kernel
  acceptedURL := by decide +kernel
  policyPreset := by decide
  replayClass := by decide
  approvalRequired h := absurd h (by decide +kernel)
  irreversible _ := by decide +kernel
  targetMetadata := by decide +kernel

theorem explicit_entry_as_posted :
    handleActionCreate plainEnv (postRequest (entryToCreateRequest explicitEntry)) =
      .ok (createdDefinition (entryToCreateRequest explicitEntry)) :=
  (installed_as_posted_iff (by decide +kernel) creates_explicitEntry).mpr writtenOut_explicitEntry

theorem createAction_retry {fails created : Bool} {req : ActionCreateRequest} {rows' : ActionRows}
    (h : createAction fails tenantID req rows = .ok (created, rows')) :
    createAction false tenantID req rows = .ok (created, rows') ∧ ∃ row, rows'.get? (tenantID, req.name) = some row ∧
      ∀ later : ActionRows, later.get? (tenantID, req.name) = some row →
        createAction false tenantID req later = .ok (false, later) := by
  unfold createAction at *
  split_ifs at h with htenant hfails htaken <;> cases h
  · obtain ⟨row, hrow⟩ := Option.isSome_iff_exists.mp htaken
    exact ⟨by simp [htenant, htaken], row, hrow, fun later hlater => by simp [htenant, hlater]⟩
  · exact ⟨by simp [htenant, htaken], _, by rw [Table.get?_put]; exact if_pos rfl,
      fun later hlater => by simp [htenant, hlater]⟩

theorem installEntries_rows (es : List ActionEntry) (r r' : InstallResult) (rows : ActionRows) (i j : Nat) :
    (installEntries (fun _ => false) tenantID i r rows es).2.2 =
      (installEntries (fun _ => false) tenantID j r' rows es).2.2 := by
  induction es generalizing i j r r' rows with
  | nil => rfl
  | cons e rest ih =>
    simp only [installEntries]
    split
    · rfl
    all_goals exact ih ..

theorem installEntries_resumes (es : List ActionEntry) (r₁ r₂ r₃ : InstallResult) (rows : ActionRows)
    (i j k : Nat) : (installEntries (fun _ => false) tenantID i r₁
        (installEntries fails tenantID j r₂ rows es).2.2 es).2.2 =
      (installEntries (fun _ => false) tenantID k r₃ rows es).2.2 := by
  induction es generalizing i j k r₁ r₂ r₃ rows with
  | nil => rfl
  | cons e rest ih =>
    obtain hsame | ⟨created, result', rows', hcreate, hrest⟩ := installEntries_cons fails tenantID j r₂ rows e rest
    · rw [hsame]
      exact installEntries_rows ..
    obtain ⟨hnever, row, hrow, hskip⟩ := createAction_retry hcreate
    rw [hrest, installEntries, installEntries, hnever, hskip _ (installEntries_keeps rest hrow)]
    cases created <;> exact ih ..

/-- Whatever made an installation break off, installing again leads to the rows of an installation without errors. -/
theorem installPack_resumes (fails : Nat → Bool) (tenantID : Text) (pack : PackManifest) (rows : ActionRows) :
    (installPack (fun _ => false) tenantID pack (installPack fails tenantID pack rows).2.2).2.2 =
      (installPack (fun _ => false) tenantID pack rows).2.2 := by
  unfold installPack
  cases validateManifest pack with
  | error problem => rfl
  | ok u => exact installEntries_resumes ..

end Overture
