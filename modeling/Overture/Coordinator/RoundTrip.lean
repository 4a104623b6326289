import Overture.Coordinator.Protected

/-!
# Putting protected inputs back

A reference is put back as a string, header metadata stays, and a marker that was redacted is
not restored. Protecting and putting back therefore returns the definition exactly for the
definitions below.
-/

namespace Overture

open Json List AnyMap Option ProtectionState

/-! ## Definitions that come back -/

mutual

def holdsNoRef : Any → Bool
  | .obj fields => (inputRefMetadata fields).isNone && fieldsHoldNoRef fields
  | .arr items => itemsHoldNoRef items
  | _ => true

def itemsHoldNoRef : Anys → Bool
  | .nil => true
  | .cons v rest => holdsNoRef v && itemsHoldNoRef rest

def fieldsHoldNoRef : AnyMap → Bool
  | .nil => true
  | .cons _ v rest => holdsNoRef v && fieldsHoldNoRef rest

end

def isText : Any → Bool
  | .str _ => true
  | _ => false

def hasInlineAuth (t : Text) : Bool := Text.contains t "Bearer " || Text.contains t "Basic "

def headerMetadataKeys : List Text :=
  ["input_redacted", "redaction_policy_version", "sensitive_fields_redacted"]

def headerValuesRoundTrip : AnyMap → Bool
  | .nil => true
  | .cons key child rest =>
    (match headerTreatment key with
      | .replace _ _ => isText child
      | _ => holdsNoRef child) && headerValuesRoundTrip rest

def headersRoundTrip : Any → Bool
  | .obj headers =>
    headerMetadataKeys.all (fun key => (headers.get? key).isSome) && headerValuesRoundTrip headers
  | value => isText value

mutual

def roundTrips (url : URLParser) (parentKey : Text) : Any → Bool
  | .obj fields => (inputRefMetadata fields).isNone && fieldsRoundTrip url fields
  | .arr items => itemsRoundTrip url parentKey items
  | .str t =>
    match stringTreatment parentKey t with
    | .replace _ _ => true
    | _ => !hasInlineAuth t
  | _ => true

def itemsRoundTrip (url : URLParser) (parentKey : Text) : Anys → Bool
  | .nil => true
  | .cons v rest => roundTrips url parentKey v && itemsRoundTrip url parentKey rest

def fieldsRoundTrip (url : URLParser) : AnyMap → Bool
  | .nil => true
  | .cons key child rest =>
    (match fieldTreatment url key child with
      | .keep => holdsNoRef child
      | .headers => headersRoundTrip child
      | .replace _ _ => isText child
      | .descend => roundTrips url (normalizeInputKey key) child) && fieldsRoundTrip url rest

end

/-! ## Nesting

The metadata of a reference nests twice, so that a definition can become too deep to be read. -/

def headerValuesDepth : AnyMap → Nat
  | .nil => 0
  | .cons key child rest =>
    max (match headerTreatment key with
      | .replace _ _ => 2
      | _ => child.depth) (headerValuesDepth rest)

def headersDepth : Any → Nat
  | .obj headers => max 1 (headerValuesDepth headers) + 1
  | _ => 2

mutual

def protectedDepth (url : URLParser) (parentKey : Text) : Any → Nat
  | .obj fields => (if (inputRefMetadata fields).isSome then fields.depth else fieldsProtectedDepth url fields) + 1
  | .arr items => itemsProtectedDepth url parentKey items + 1
  | .str t =>
    match stringTreatment parentKey t with
    | .replace _ _ => 2
    | _ => 0
  | _ => 0

def itemsProtectedDepth (url : URLParser) (parentKey : Text) : Anys → Nat
  | .nil => 0
  | .cons v rest => max (protectedDepth url parentKey v) (itemsProtectedDepth url parentKey rest)

def fieldsProtectedDepth (url : URLParser) : AnyMap → Nat
  | .nil => 0
  | .cons key child rest =>
    max (match fieldTreatment url key child with
      | .keep => child.depth
      | .headers => headersDepth child
      | .replace _ _ => 2
      | .descend => protectedDepth url (normalizeInputKey key) child) (fieldsProtectedDepth url rest)

end

theorem length_redactInlineInputAuth (t : Text) : t.length ≤ (redactInlineInputAuth t).length := by
  fun_induction redactInlineInputAuth t with
  | case1 rest ih => simp at ih ⊢; omega
  | case2 rest ih => simp at ih ⊢; omega
  | case3 c rest h1 h2 ih => simpa using ih
  | case4 => simp

theorem hasInlineAuth_iff (t : Text) :
    hasInlineAuth t = true ↔ "Bearer " <:+: t ∨ "Basic " <:+: t := by
  rw [hasInlineAuth, Bool.or_eq_true, Text.contains_iff, Text.contains_iff]

/-- Redacting keeps a text exactly when no marker stands in it: each replacement is longer than the marker. -/
theorem redactInlineInputAuth_eq_self_iff (t : Text) : redactInlineInputAuth t = t ↔ ¬hasInlineAuth t = true := by
  fun_induction redactInlineInputAuth t with
  | case1 rest ih | case2 rest ih =>
    refine iff_of_false ?_ (not_not.mpr ((hasInlineAuth_iff _).mpr ?_))
    · intro h
      have hlen := length_redactInlineInputAuth rest
      have hlen' := congrArg length h
      simp at hlen'
      omega
    · first | exact .inl ⟨[], rest, rfl⟩ | exact .inr ⟨[], rest, rfl⟩
  | case3 c rest h1 h2 ih =>
    have hbearer : ¬"Bearer " <+: c :: rest := by
      rintro ⟨tail, htail⟩
      obtain ⟨rfl, rfl⟩ := List.cons.inj htail.symm
      exact h1 tail rfl rfl
    have hbasic : ¬"Basic " <+: c :: rest := by
      rintro ⟨tail, htail⟩
      obtain ⟨rfl, rfl⟩ := List.cons.inj htail.symm
      exact h2 tail rfl rfl
    rw [List.cons.injEq, eq_self, true_and, ih, not_iff_not, hasInlineAuth_iff, hasInlineAuth_iff,
      infix_cons_iff, infix_cons_iff, or_iff_right hbearer, or_iff_right hbasic]
  | case4 => decide

/-! ## Values that are left alone -/

section Rehydrate

variable (resolver : Uuid → Text → Option Text)

theorem rehydrateItems_cons_iff {v w : Any} {items rest : Anys} :
    rehydrateItems resolver (.cons v items) = some (.cons w rest) ↔
      rehydrateInputRefValue resolver v = some w ∧ rehydrateItems resolver items = some rest := by
  rw [rehydrateItems]
  cases rehydrateInputRefValue resolver v <;> cases rehydrateItems resolver items <;> simp

theorem rehydrateFields_cons_iff {key : Text} {v w : Any} {fields rest : AnyMap} :
    rehydrateFields resolver (.cons key v fields) = some (.cons key w rest) ↔
      rehydrateInputRefValue resolver v = some w ∧ rehydrateFields resolver fields = some rest := by
  rw [rehydrateFields]
  cases rehydrateInputRefValue resolver v <;> cases rehydrateFields resolver fields <;> simp

theorem keys_rehydrateFields {m m' : AnyMap} (h : rehydrateFields resolver m = some m') :
    m'.toList.map Prod.fst = m.toList.map Prod.fst := by
  induction m generalizing m' with
  | nil =>
    cases h
    rfl
  | cons key v rest ih =>
    rw [rehydrateFields] at h
    split at h
    · next w ws hw hws =>
      cases h
      simp [AnyMap.toList, ih hws]
    · simp at h

theorem rehydrate_obj_iff {m m' : AnyMap} :
    rehydrateInputRefValue resolver (.obj m) = some (.obj m') ↔
      inputRefMetadata m = none ∧ rehydrateFields resolver m = some m' := by
  rw [rehydrateInputRefValue]
  cases inputRefMetadata m with
  | some ref => simp
  | none => simp

mutual

theorem rehydrate_self_iff (v : Any) : rehydrateInputRefValue resolver v = some v ↔ holdsNoRef v = true := by
  cases v with
  | obj fields =>
    rw [rehydrate_obj_iff, rehydrateFields_self_iff fields, holdsNoRef, Bool.and_eq_true, isNone_iff_eq_none]
  | arr items =>
    rw [rehydrateInputRefValue, holdsNoRef, ← rehydrateItems_self_iff items]
    simp
  | _ => simp [rehydrateInputRefValue, holdsNoRef]

theorem rehydrateItems_self_iff (items : Anys) :
    rehydrateItems resolver items = some items ↔ itemsHoldNoRef items = true := by
  cases items with
  | nil => simp [rehydrateItems, itemsHoldNoRef]
  | cons v rest =>
    rw [rehydrateItems_cons_iff, rehydrate_self_iff v, rehydrateItems_self_iff rest, itemsHoldNoRef,
      Bool.and_eq_true]

theorem rehydrateFields_self_iff (fields : AnyMap) :
    rehydrateFields resolver fields = some fields ↔ fieldsHoldNoRef fields = true := by
  cases fields with
  | nil => simp [rehydrateFields, fieldsHoldNoRef]
  | cons key v rest =>
    rw [rehydrateFields_cons_iff, rehydrate_self_iff v, rehydrateFields_self_iff rest, fieldsHoldNoRef,
      Bool.and_eq_true]

end

theorem above_rehydrateFields {key : Text} {m m' : AnyMap} (h : rehydrateFields resolver m = some m')
    (hm : m.Above key) : m'.Above key := by
  induction m generalizing m' with
  | nil =>
    cases h
    trivial
  | cons k v rest ih =>
    rw [rehydrateFields] at h
    split at h
    · next w ws hw hws =>
      cases h
      exact ⟨hm.1, ih hws hm.2⟩
    · simp at h

mutual

theorem rehydrate_canonical (v : Any) (hv : v.Canonical) {w : Any} (h : rehydrateInputRefValue resolver v = some w) :
    w.Canonical := by
  cases v with
  | obj fields =>
    rw [rehydrateInputRefValue] at h
    split at h
    · obtain ⟨t, -, rfl⟩ := map_eq_some_iff.mp h
      trivial
    · obtain ⟨m, hm, rfl⟩ := map_eq_some_iff.mp h
      exact rehydrateFields_canonical fields hv hm
  | arr items =>
    obtain ⟨as, has, rfl⟩ := map_eq_some_iff.mp h
    exact rehydrateItems_canonical items hv has
  | _ => exact some_inj.mp h ▸ hv

theorem rehydrateItems_canonical (items : Anys) (hi : items.Canonical) {as : Anys}
    (h : rehydrateItems resolver items = some as) : as.Canonical := by
  cases items with
  | nil =>
    cases h
    trivial
  | cons v rest =>
    rw [rehydrateItems] at h
    split at h
    · next w ws hw hws =>
      cases h
      exact ⟨rehydrate_canonical v hi.1 hw, rehydrateItems_canonical rest hi.2 hws⟩
    · simp at h

theorem rehydrateFields_canonical (fields : AnyMap) (hf : fields.Canonical) {m : AnyMap}
    (h : rehydrateFields resolver fields = some m) : m.Canonical := by
  cases fields with
  | nil =>
    cases h
    trivial
  | cons key v rest =>
    rw [rehydrateFields] at h
    split at h
    · next w ws hw hws =>
      cases h
      exact ⟨above_rehydrateFields resolver hws hf.1, rehydrate_canonical v hf.2.1 hw,
        rehydrateFields_canonical rest hf.2.2 hws⟩
    · simp at h

end

end Rehydrate

def refPurposes : List Text :=
  ["signed_url", "private_path", "execution_payload", "sensitive_header",
    "sensitive_input"]

theorem refPurposes_trimmed : ∀ purpose ∈ refPurposes, Text.trimSpace purpose = purpose ∧ purpose.isEmpty = false := by
  decide

theorem purposeForSensitiveInputKey_mem (key : Text) : purposeForSensitiveInputKey key ∈ refPurposes := by
  unfold purposeForSensitiveInputKey
  dsimp only
  split_ifs
  all_goals simp [refPurposes]

variable {key purpose summary : Text} {m headers : AnyMap}

theorem headerTreatment_purpose (h : headerTreatment key = .replace purpose summary) :
    purpose ∈ refPurposes := by
  unfold headerTreatment at h
  split_ifs at h <;> cases h <;> simp [refPurposes]

theorem stringTreatment_purpose {parentKey t : Text}
    (h : stringTreatment parentKey t = .replace purpose summary) : purpose ∈ refPurposes := by
  unfold stringTreatment at h
  split_ifs at h
  · cases h
    simp [refPurposes]
  · cases h
    exact purposeForSensitiveInputKey_mem parentKey

theorem fieldTreatment_purpose {url : URLParser} {child : Any}
    (h : fieldTreatment url key child = .replace purpose summary) : purpose ∈ refPurposes := by
  unfold fieldTreatment at h
  dsimp only at h
  split_ifs at h
  · cases h
    simp [refPurposes]
  · cases h
    exact purposeForSensitiveInputKey_mem _
  · cases h
    simp [refPurposes]

theorem inputRefMetadata_refMap (id : Uuid) (plaintext keyVersion summary : Text)
    (h : purpose ∈ refPurposes) :
    inputRefMetadata (refMap id plaintext keyVersion purpose summary) = some (id, purpose) := by
  obtain ⟨htrim, hne⟩ := refPurposes_trimmed purpose h
  have hflag : (refMap id plaintext keyVersion purpose summary).get? "encrypted_input_ref" =
      some (.bool true) := by rfl
  have hid : (refMap id plaintext keyVersion purpose summary).get? "encrypted_input_ref_id" =
      some (.str id.toText) := by rfl
  have hpurpose : (refMap id plaintext keyVersion purpose summary).get? "purpose" =
      some (.str purpose) := by rfl
  simp only [inputRefMetadata, hflag, hid, hpurpose, getD_some, valueToInputString, Uuid.parse_toText,
    htrim, hne, Bool.false_eq_true, if_false]

theorem inputRefMetadata_congr {m' : AnyMap}
    (hflag : m.get? "encrypted_input_ref" = m'.get? "encrypted_input_ref")
    (hid : m.get? "encrypted_input_ref_id" = m'.get? "encrypted_input_ref_id")
    (hpurpose : m.get? "purpose" = m'.get? "purpose") : inputRefMetadata m = inputRefMetadata m' := by
  simp only [inputRefMetadata, hflag, hid, hpurpose]

theorem inputRefMetadata_of_flag (h : m.get? "encrypted_input_ref" ≠ some (.bool true)) :
    inputRefMetadata m = none := by
  unfold inputRefMetadata
  split
  · next hflag => exact absurd hflag h
  · rfl

theorem get?_headerMetadata {version : Text} {names : List Text} (hh : headers.Canonical)
    (hkey : key ∉ headerMetadataKeys) :
    (headerMetadata version names headers).get? key = headers.get? key := by
  simp only [headerMetadataKeys, mem_cons, not_mem_nil, or_false, not_or] at hkey
  have hversion := canonical_insertNew "redaction_policy_version" (v := .str version) trivial hh
  have hredacted := canonical_insertNew "input_redacted" (v := .bool true) trivial hversion
  rw [headerMetadata, get?_insertNew hredacted, get?_insertNew hversion, get?_insertNew hh,
    if_neg (Ne.symm hkey.1), if_neg (Ne.symm hkey.2.1), if_neg (Ne.symm hkey.2.2)]
  simp only [or_none]

theorem isSome_get?_headerMetadata (version : Text) (names : List Text) (hh : headers.Canonical) :
    ∀ key ∈ headerMetadataKeys, ((headerMetadata version names headers).get? key).isSome = true := by
  have hversion := canonical_insertNew "redaction_policy_version" (v := .str version) trivial hh
  have hredacted := canonical_insertNew "input_redacted" (v := .bool true) trivial hversion
  intro key hkey
  rw [headerMetadata, get?_insertNew hredacted, get?_insertNew hversion, get?_insertNew hh]
  simp only [headerMetadataKeys, mem_cons, not_mem_nil, or_false] at hkey
  rcases hkey with rfl | rfl | rfl <;> simp

theorem headerMetadata_eq_self (version : Text) (names : List Text) (hh : headers.Canonical)
    (h : ∀ key ∈ headerMetadataKeys, (headers.get? key).isSome = true) :
    headerMetadata version names headers = headers := by
  have hstep (key : Text) (v : Any) (hkey : key ∈ headerMetadataKeys) : headers.insertNew key v = headers := by
    obtain ⟨w, hw⟩ := isSome_iff_exists.mp (h key hkey)
    exact insertNew_of_get? hh hw
  rw [headerMetadata, hstep _ _ (by simp [headerMetadataKeys]), hstep _ _ (by simp [headerMetadataKeys]),
    hstep _ _ (by simp [headerMetadataKeys])]

theorem isSome_get?_iff : (m.get? key).isSome = true ↔ key ∈ m.toList.map Prod.fst := by
  induction m with
  | nil => simp [AnyMap.get?, AnyMap.toList]
  | cons k v rest ih =>
    rw [AnyMap.get?, AnyMap.toList, map_cons, mem_cons, ← ih]
    split_ifs with hk
    · simp [hk]
    · simp [Ne.symm hk]

/-! ## Putting back what was protected -/

namespace ProtectionState

variable {N C : Type} (s : ProtectionState N C) (resolver : Uuid → Text → Option Text)

def Resolves (ps : List Place) : Prop :=
  ∀ place ∈ ps, resolver (s.draws.newID place.path) place.purpose = some (valueToInputString place.value)

variable {s resolver}

theorem Resolves.left {ps qs : List Place} (h : s.Resolves resolver (ps ++ qs)) : s.Resolves resolver ps :=
  fun place hplace => h place (mem_append_left _ hplace)

theorem Resolves.right {ps qs : List Place} (h : s.Resolves resolver (ps ++ qs)) : s.Resolves resolver qs :=
  fun place hplace => h place (mem_append_right _ hplace)

theorem rehydrate_refImage_iff {path : List Nat} {value : Any} {purpose : Text} (summary : Text)
    (hpurpose : purpose ∈ refPurposes) (h : s.Resolves resolver [⟨path, value, purpose⟩]) :
    rehydrateInputRefValue resolver (s.refImage path value purpose summary) = some value ↔ isText value = true := by
  have hres := h ⟨path, value, purpose⟩ (by simp)
  rw [refImage, rehydrateInputRefValue, inputRefMetadata_refMap _ _ _ _ hpurpose]
  dsimp only at hres ⊢
  rw [hres]
  cases value <;> simp [isText, valueToInputString]

theorem flag_replaced : headerTreatment "encrypted_input_ref" =
    .replace "sensitive_header" (refSummary "non-allowlisted header") := rfl

theorem names_replaced : headerTreatment "sensitive_fields_redacted" =
    .replace "sensitive_header" (refSummary "non-allowlisted header") := rfl

theorem get?_headerValuesImage {key purpose summary : Text} (htreat : headerTreatment key = .replace purpose summary)
    {path : List Nat} {i : Nat} {headers : AnyMap} {w : Any}
    (h : (s.headerValuesImage path i headers).get? key = some w) :
    ∃ place value, w = s.refImage place value purpose summary := by
  induction headers generalizing i with
  | nil => simp [headerValuesImage, get?] at h
  | cons k child rest ih =>
    rw [headerValuesImage, get?] at h
    split_ifs at h with hk
    · subst hk
      rw [htreat] at h
      exact ⟨path ++ [i], child, (some_inj.mp h).symm⟩
    · exact ih h

theorem rehydrate_headerValues_iff {path : List Nat} {i : Nat} {headers : AnyMap}
    (h : s.Resolves resolver (headerPlaces path i headers)) :
    rehydrateFields resolver (s.headerValuesImage path i headers) = some headers ↔
      headerValuesRoundTrip headers = true := by
  induction headers generalizing i with
  | nil => simp [headerValuesImage, rehydrateFields, headerValuesRoundTrip]
  | cons key child rest ih =>
    rw [headerPlaces] at h
    rw [headerValuesImage, rehydrateFields_cons_iff, ih h.right, headerValuesRoundTrip, Bool.and_eq_true]
    apply and_congr_left'
    have hfirst := h.left
    cases htreat : headerTreatment key with
    | replace purpose summary =>
      rw [htreat] at hfirst
      exact rehydrate_refImage_iff summary (headerTreatment_purpose htreat) hfirst
    | _ => exact rehydrate_self_iff resolver child

theorem rehydrate_headersImage_iff {path : List Nat} {value : Any} (hv : value.Canonical)
    (h : s.Resolves resolver (headersPlaces path value)) :
    rehydrateInputRefValue resolver (s.headersImage path value) = some value ↔ headersRoundTrip value = true := by
  cases value with
  | obj headers =>
    have hcanon := s.headerValuesImage_canonical hv path 0
    have hflag : (headerMetadata inputReferenceRedactionPolicyVersion (redactedNames s.draws.order path headers)
        (s.headerValuesImage path 0 headers)).get? "encrypted_input_ref" ≠ some (.bool true) := by
      rw [get?_headerMetadata hcanon (by decide)]
      intro hflag
      obtain ⟨place, child, hw⟩ := get?_headerValuesImage flag_replaced hflag
      cases hw
    rw [headersImage, rehydrate_obj_iff, and_iff_right (inputRefMetadata_of_flag hflag), headersRoundTrip,
      Bool.and_eq_true, List.all_eq_true]
    -- the metadata has its own entries, and keys do not change when references are put back
    have hkeys (key : Text) : ((s.headerValuesImage path 0 headers).get? key).isSome = (headers.get? key).isSome := by
      rw [Bool.eq_iff_iff, isSome_get?_iff, isSome_get?_iff, keys_headerValuesImage]
    constructor
    · intro hback
      have hall : ∀ key ∈ headerMetadataKeys, (headers.get? key).isSome = true := by
        intro key hkey
        rw [isSome_get?_iff, keys_rehydrateFields resolver hback, ← isSome_get?_iff]
        exact isSome_get?_headerMetadata _ _ hcanon key hkey
      refine ⟨hall, ?_⟩
      rw [headerMetadata_eq_self _ _ hcanon fun key hkey => (hkeys key).trans (hall key hkey)] at hback
      exact (rehydrate_headerValues_iff h).mp hback
    · rintro ⟨hall, hvalues⟩
      rw [headerMetadata_eq_self _ _ hcanon fun key hkey => (hkeys key).trans (hall key hkey)]
      exact (rehydrate_headerValues_iff h).mpr hvalues
  | _ => exact rehydrate_refImage_iff _ (by simp [refPurposes]) h

theorem get?_fieldsImage_of_safe {key : Text} (hsafe : inputKeySafe (normalizeInputKey key) = true) (path : List Nat)
    (i : Nat) (fields : AnyMap) : (s.fieldsImage path i fields).get? key = fields.get? key := by
  induction fields generalizing i with
  | nil => rfl
  | cons k child rest ih =>
    rw [fieldsImage, get?, get?, ih (i + 1)]
    split_ifs with hk
    · subst hk
      rw [show fieldTreatment s.url k child = .keep by simp [fieldTreatment, hsafe]]
    · rfl

theorem inputRefMetadata_fieldsImage (path : List Nat) (i : Nat) (fields : AnyMap) :
    inputRefMetadata (s.fieldsImage path i fields) = inputRefMetadata fields :=
  inputRefMetadata_congr (get?_fieldsImage_of_safe rfl path i fields)
    (get?_fieldsImage_of_safe rfl path i fields)
    (get?_fieldsImage_of_safe rfl path i fields)

mutual

theorem rehydrate_image_iff (v : Any) (hv : v.Canonical) {path : List Nat} {parentKey : Text}
    (h : s.Resolves resolver (places s.url path parentKey v)) :
    rehydrateInputRefValue resolver (s.image path parentKey v) = some v ↔ roundTrips s.url parentKey v = true := by
  cases v with
  | obj fields =>
    rw [places] at h
    rw [image, roundTrips, Bool.and_eq_true, isNone_iff_eq_none]
    split_ifs at h ⊢ with hmeta
    · obtain ⟨ref, href⟩ := isSome_iff_exists.mp hmeta
      rw [rehydrate_obj_iff, href]
      simp
    · have hnone : inputRefMetadata fields = none := by simpa using hmeta
      rw [rehydrate_obj_iff, inputRefMetadata_fieldsImage, rehydrate_fieldsImage_iff fields hv h]
  | arr items =>
    rw [places] at h
    rw [image, roundTrips, ← rehydrate_itemsImage_iff items hv h, rehydrateInputRefValue]
    simp
  | str t =>
    rw [places] at h
    rw [image, roundTrips]
    have hkept : rehydrateInputRefValue resolver (.str (redactInlineInputAuth t)) = some (.str t) ↔
        (!hasInlineAuth t) = true := by
      change some (Any.str (redactInlineInputAuth t)) = some (.str t) ↔ _
      rw [some_inj, Any.str.injEq, redactInlineInputAuth_eq_self_iff]
      simp
    cases htreat : stringTreatment parentKey t with
    | replace purpose summary =>
      rw [htreat] at h
      exact (rehydrate_refImage_iff summary (stringTreatment_purpose htreat) h).trans (by simp [isText])
    | keep => exact hkept
    | headers => exact hkept
    | descend => exact hkept
  | _ => simp [image, rehydrateInputRefValue, roundTrips]

theorem rehydrate_itemsImage_iff (items : Anys) (hi : items.Canonical) {path : List Nat} {parentKey : Text} {i : Nat}
    (h : s.Resolves resolver (itemPlaces s.url path parentKey i items)) :
    rehydrateItems resolver (s.itemsImage path parentKey i items) = some items ↔
      itemsRoundTrip s.url parentKey items = true := by
  cases items with
  | nil => simp [itemsImage, rehydrateItems, itemsRoundTrip]
  | cons v rest =>
    rw [itemPlaces] at h
    rw [itemsImage, rehydrateItems_cons_iff, rehydrate_image_iff v hi.1 h.left,
      rehydrate_itemsImage_iff rest hi.2 h.right, itemsRoundTrip, Bool.and_eq_true]

theorem rehydrate_fieldsImage_iff (fields : AnyMap) (hf : fields.Canonical) {path : List Nat} {i : Nat}
    (h : s.Resolves resolver (fieldPlaces s.url path i fields)) :
    rehydrateFields resolver (s.fieldsImage path i fields) = some fields ↔ fieldsRoundTrip s.url fields = true := by
  cases fields with
  | nil => simp [fieldsImage, rehydrateFields, fieldsRoundTrip]
  | cons key child rest =>
    rw [fieldPlaces] at h
    rw [fieldsImage, rehydrateFields_cons_iff, rehydrate_fieldsImage_iff rest hf.2.2 h.right, fieldsRoundTrip,
      Bool.and_eq_true]
    apply and_congr_left'
    have hfirst := h.left
    cases htreat : fieldTreatment s.url key child with
    | keep => exact rehydrate_self_iff resolver child
    | headers =>
      rw [htreat] at hfirst
      exact rehydrate_headersImage_iff hf.2.1 hfirst
    | replace purpose summary =>
      rw [htreat] at hfirst
      exact rehydrate_refImage_iff summary (fieldTreatment_purpose htreat) hfirst
    | descend =>
      rw [htreat] at hfirst
      exact rehydrate_image_iff child hf.2.1 hfirst

end

theorem depth_refImage (path : List Nat) (value : Any) (purpose summary : Text) :
    (s.refImage path value purpose summary).depth = 2 := by
  have hnumber : (numberOf (byteLength (valueToInputString value))).depth = 0 := by
    unfold numberOf
    cases Float64.parse (Nat.toDigits 10 (byteLength (valueToInputString value))) <;> rfl
  simp [refImage, refMap, refEntries, ofList, Any.depth, depth, hnumber, textsOf, Anys.depth]

theorem depth_headerValuesImage (path : List Nat) (i : Nat) (headers : AnyMap) :
    (s.headerValuesImage path i headers).depth = headerValuesDepth headers := by
  induction headers generalizing i with
  | nil => rfl
  | cons key child rest ih =>
    rw [headerValuesImage, depth, ih, headerValuesDepth]
    cases headerTreatment key with
    | replace purpose summary => simp only [depth_refImage]
    | keep => rfl
    | headers => rfl
    | descend => rfl

theorem depth_textsOf (ts : List Text) : (textsOf ts).depth = 1 := by
  induction ts with
  | nil => rfl
  | cons t ts ih => simpa [textsOf, Any.depth, Anys.depth] using ih

theorem depth_insertNew_scalar {key : Text} {v : Any} (hv : v.depth = 0) {m : AnyMap} (hm : m.Canonical) :
    (m.insertNew key v).depth = m.depth := by
  cases hget : m.get? key with
  | none => rw [depth_insertNew_of_none hget, hv, Nat.zero_max]
  | some w => rw [insertNew_of_get? hm hget]

theorem depth_headerMetadata {path : List Nat} {version : Text} {names : List Text} {headers : AnyMap}
    (hh : headers.Canonical) :
    (headerMetadata version names (s.headerValuesImage path 0 headers)).depth = max 1 (headerValuesDepth headers) := by
  have hcanon := s.headerValuesImage_canonical hh path 0
  have hversion := canonical_insertNew "redaction_policy_version" (v := .str version) trivial hcanon
  have hredacted := canonical_insertNew "input_redacted" (v := .bool true) trivial hversion
  have hbase : (((s.headerValuesImage path 0 headers).insertNew "redaction_policy_version"
      (.str version)).insertNew "input_redacted" (.bool true)).depth = headerValuesDepth headers := by
    rw [depth_insertNew_scalar rfl hversion, depth_insertNew_scalar rfl hcanon, depth_headerValuesImage]
  have hlist : (((s.headerValuesImage path 0 headers).insertNew "redaction_policy_version"
      (.str version)).insertNew "input_redacted" (.bool true)).get? "sensitive_fields_redacted" =
      (s.headerValuesImage path 0 headers).get? "sensitive_fields_redacted" := by
    rw [get?_insertNew hversion, get?_insertNew hcanon, if_neg (by decide), if_neg (by decide),
      or_none, or_none]
  rw [headerMetadata]
  cases hget : (s.headerValuesImage path 0 headers).get? "sensitive_fields_redacted" with
  | none => rw [depth_insertNew_of_none (hlist.trans hget), depth_textsOf, hbase]
  | some w =>
    obtain ⟨place, child, rfl⟩ := get?_headerValuesImage names_replaced hget
    have hdeep := depth_le_of_get? hget
    rw [depth_refImage, depth_headerValuesImage] at hdeep
    rw [insertNew_of_get? hredacted (hlist.trans hget), hbase]
    omega

theorem depth_headersImage {value : Any} (hv : value.Canonical) (path : List Nat) :
    (s.headersImage path value).depth = headersDepth value := by
  cases value with
  | obj headers => rw [headersImage, Any.depth, depth_headerMetadata hv, headersDepth]
  | _ => exact depth_refImage _ _ _ _

mutual

theorem depth_image (v : Any) (hv : v.Canonical) (path : List Nat) (parentKey : Text) :
    (s.image path parentKey v).depth = protectedDepth s.url parentKey v := by
  cases v with
  | obj fields =>
    rw [image, protectedDepth]
    split_ifs
    · rfl
    · rw [Any.depth, depth_fieldsImage fields hv]
  | arr items => rw [image, protectedDepth, Any.depth, depth_itemsImage items hv]
  | str t =>
    rw [image, protectedDepth]
    cases stringTreatment parentKey t with
    | replace purpose summary => exact depth_refImage _ _ _ _
    | keep => rfl
    | headers => rfl
    | descend => rfl
  | null => rfl
  | bool b => rfl
  | num x => rfl

theorem depth_itemsImage (items : Anys) (hi : items.Canonical) (path : List Nat) (parentKey : Text) (i : Nat) :
    (s.itemsImage path parentKey i items).depth = itemsProtectedDepth s.url parentKey items := by
  cases items with
  | nil => rfl
  | cons v rest =>
    rw [itemsImage, Anys.depth, itemsProtectedDepth, depth_image v hi.1, depth_itemsImage rest hi.2]

theorem depth_fieldsImage (fields : AnyMap) (hf : fields.Canonical) (path : List Nat) (i : Nat) :
    (s.fieldsImage path i fields).depth = fieldsProtectedDepth s.url fields := by
  cases fields with
  | nil => rfl
  | cons key child rest =>
    rw [fieldsImage, depth, fieldsProtectedDepth, depth_fieldsImage rest hf.2.2]
    congr 1
    cases fieldTreatment s.url key child with
    | keep => rfl
    | headers => exact depth_headersImage hf.2.1 _
    | replace purpose summary => exact depth_refImage _ _ _ _
    | descend => exact depth_image child hf.2.1 _ _

end

end ProtectionState

/-- No identifier is drawn twice for the places: `uuid.New` gives random identifiers. -/
def Draws.Distinct {N : Type} (draws : Draws N) (ps : List Place) : Prop :=
  (ps.map fun place => draws.newID place.path).Nodup

theorem exists_right_of_forall₂ {α β : Type} {R : α → β → Prop} {l : List α} {l' : List β} (h : List.Forall₂ R l l')
    {a : α} (ha : a ∈ l) : ∃ b ∈ l', R a b := by
  induction h with
  | nil => simp at ha
  | cons hab _ ih =>
    rcases mem_cons.mp ha with rfl | ha
    · exact ⟨_, by simp, hab⟩
    obtain ⟨b, hb, hR⟩ := ih ha
    exact ⟨b, by simp [hb], hR⟩

theorem exists_left_of_forall₂ {α β : Type} {R : α → β → Prop} {l : List α} {l' : List β} (h : List.Forall₂ R l l')
    {b : β} (hb : b ∈ l') : ∃ a ∈ l, R a b :=
  exists_right_of_forall₂ h.flip hb

theorem membersToMap_texts (ts : List (Text × Text)) :
    ∃ m, membersToMap (ts.map fun t => (t.1, textValue t.2)) = some m := by
  induction ts with
  | nil => exact ⟨.nil, rfl⟩
  | cons t ts ih =>
    obtain ⟨m, hm⟩ := ih
    exact ⟨m.insertNew t.1 (.str t.2), by simp [membersToMap, hm, (standsFor_textValue t.2).toAny_eq]⟩

theorem jsonValuesEqual_associatedData (tenantID : Text) (taskID refID : Uuid) (purpose keyVersion : Text) :
    jsonValuesEqual (executionInputAssociatedData tenantID taskID refID purpose keyVersion)
      (executionInputAssociatedData tenantID taskID refID purpose keyVersion) = true := by
  obtain ⟨m, hm⟩ := membersToMap_texts [("tenant_id", tenantID), ("task_id", taskID.toText),
    ("input_ref_id", refID.toText), ("purpose", purpose), ("key_version", keyVersion)]
  have hwf : (Value.object [("tenant_id", textValue tenantID), ("task_id", textValue taskID.toText),
      ("input_ref_id", textValue refID.toText), ("purpose", textValue purpose),
      ("key_version", textValue keyVersion)]).WF := by
    apply Value.object_wf
    intro e he
    simp only [mem_cons, not_mem_nil, or_false] at he
    rcases he with rfl | rfl | rfl | rfl | rfl <;> exact isRaw_quote _
  have hdecoded : (parse (executionInputAssociatedData tenantID taskID refID purpose keyVersion)).bind Value.toAny =
      some (.obj m) := by
    rw [executionInputAssociatedData, parse_print hwf (by change 1 ≤ 10000; decide), Option.bind_some, Value.object_toAny]
    exact congrArg (Option.map Any.obj) hm
  unfold jsonValuesEqual
  rw [hdecoded]
  simp

namespace ProtectionState

variable {N C : Type} {s : ProtectionState N C}

theorem decrypt_refAt {keyring : InputKeyring N C} (hcipher : s.cipher = keyring.active)
    {refs : List (InputRef N C)} {place : Place} {nonce : N}
    (hload : loadExecutionInputRef refs s.tenantID s.taskID (s.draws.newID place.path) place.purpose =
      some (s.refAt place.path place.value place.purpose nonce)) :
    decryptExecutionInputRef keyring refs s.tenantID s.taskID (s.draws.newID place.path) place.purpose =
      some (valueToInputString place.value) := by
  have hversion : keyring.forVersion s.cipher.keyVersion = some s.cipher := by
    rw [hcipher]
    exact keyring.forVersion_active
  have haad := jsonValuesEqual_associatedData s.tenantID s.taskID (s.draws.newID place.path) place.purpose
    s.cipher.keyVersion
  unfold decryptExecutionInputRef
  rw [hload]
  unfold refAt
  dsimp only
  rw [hversion]
  dsimp only
  rw [haad, s.cipher.decrypt_encrypt, if_neg (by decide)]
  dsimp only
  rw [if_pos ⟨rfl, rfl⟩]

theorem refAt_matches (s : ProtectionState N C) (place : Place) (nonce : N) :
    let ref := s.refAt place.path place.value place.purpose nonce
    (ref.id == s.draws.newID place.path && ref.tenantID == s.tenantID && ref.taskID == s.taskID &&
      ref.purpose == place.purpose) = true := by
  intro ref
  rw [Bool.and_eq_true, Bool.and_eq_true, Bool.and_eq_true]
  exact ⟨⟨⟨beq_self_eq_true _, beq_self_eq_true _⟩, beq_self_eq_true _⟩, beq_self_eq_true _⟩

theorem resolves_decrypt (keyring : InputKeyring N C) (hcipher : s.cipher = keyring.active)
    {refs : List (InputRef N C)} {ps : List Place} (hrefs : List.Forall₂ s.MadeFor refs ps)
    (hdistinct : s.draws.Distinct ps) :
    s.Resolves (decryptExecutionInputRef keyring refs s.tenantID s.taskID) ps := by
  intro place hplace
  obtain ⟨ref, href, nonce, rfl⟩ := exists_left_of_forall₂ hrefs hplace
  cases hload : loadExecutionInputRef refs s.tenantID s.taskID (s.draws.newID place.path) place.purpose with
  | none =>
    exact absurd (s.refAt_matches place nonce) (find?_eq_none.mp hload _ href)
  | some found =>
    have hmatch := find?_some hload
    obtain ⟨place', hplace', nonce', rfl⟩ := exists_right_of_forall₂ hrefs (mem_of_find?_eq_some hload)
    have hid : s.draws.newID place'.path = s.draws.newID place.path := by
      rw [Bool.and_eq_true, Bool.and_eq_true, Bool.and_eq_true] at hmatch
      exact eq_of_beq hmatch.1.1.1
    obtain rfl := inj_on_of_nodup_map hdistinct hplace' hplace hid
    exact decrypt_refAt hcipher hload

end ProtectionState

/-- The text the definition is rehydrated to, if it has one, is equal to the submitted definition as a value. -/
def ComesBack {N C : Type} (keyring : InputKeyring N C) (refs : List (InputRef N C)) (tenantID : Text)
    (taskID : Uuid) (raw definition : Text) : Prop :=
  ∃ out, rehydrateTaskDefinitionInputRefs (decryptExecutionInputRef keyring refs tenantID taskID) definition = some out ∧
    jsonValuesEqual out raw = true

theorem rehydrate_equal_iff {resolver : Uuid → Text → Option Text} {w : Value} {a v : Any} {raw : Text}
    (hw : w.StandsFor a) (hraw : (parse raw).bind Value.toAny = some v) :
    (∃ out, rehydrateTaskDefinitionInputRefs resolver w.print = some out ∧ jsonValuesEqual out raw = true) ↔
      rehydrateInputRefValue resolver a = some v ∧ a.depth ≤ maxNestingDepth := by
  obtain ⟨doc, hdoc, hdocAny⟩ := bind_eq_some_iff.mp hraw
  obtain ⟨hcanon, hread, hdepth⟩ := doc.toAny_spec hdocAny
  have hnonempty : w.print.isEmpty = false := by
    obtain ⟨c, l, hp, -⟩ := w.print_starts hw.wf
    rw [hp]
    rfl
  unfold rehydrateTaskDefinitionInputRefs
  rw [if_neg (by simp [hnonempty]), hw.unmarshal]
  split_ifs with hdeep
  · dsimp only
    rw [and_iff_left hdeep]
    constructor
    · rintro ⟨out, hout, hequal⟩
      obtain ⟨x, hx, rfl⟩ := map_eq_some_iff.mp hout
      obtain ⟨b, hb, hbx⟩ := bind_eq_some_iff.mp hx
      have hstand := b.standsFor (rehydrate_canonical resolver a hw.canonical hb) hbx
      rw [jsonValuesEqual, hstand.unmarshal, hraw] at hequal
      split_ifs at hequal
      have hbv : b = v := of_decide_eq_true hequal
      rw [hb, hbv]
    intro hback
    obtain ⟨x, hx, hxAny⟩ := unmarshal_marshal hcanon hread (hdepth.trans (parse_wf hdoc).2)
    refine ⟨x.print, by rw [hback, bind_some, hx]; rfl, ?_⟩
    rw [jsonValuesEqual, hxAny, hraw]
    exact decide_eq_true rfl
  · simp [hdeep]

def httpsURLs : URLParser where
  parse
    | 'h' :: 't' :: 't' :: 'p' :: 's' :: ':' :: '/' :: '/' :: rest =>
      let authority := rest.takeWhile fun c => c != '/' && c != '?'
      let host := if authority.contains '@' then (authority.dropWhile (· != '@')).drop 1 else authority
      let after := rest.drop authority.length
      some {
        scheme := "https"
        host := host
        hostname := host.takeWhile (· != ':')
        escapedPath := after.takeWhile (· != '?')
        rawQuery := (after.dropWhile (· != '?')).drop 1
        hasUser := authority.contains '@' }
    | t => some ⟨[], [], [], t, [], false⟩
  scheme_head := by
    intro t parsed h hscheme
    split at h
    · exact ⟨⟨_, _, rfl, by decide⟩, by simp⟩
    obtain rfl := Option.some_inj.mp h
    exact absurd rfl hscheme

def boxCipher : InputCipher Nat (Nat × Text × Text) where
  keyVersion := "v1"
  encrypt nonce plaintext aad := (nonce, aad, plaintext)
  decrypt nonce box aad := if box.1 = nonce ∧ box.2.1 = aad then some box.2.2 else none
  decrypt_encrypt := by simp

def boxKeyring : InputKeyring Nat (Nat × Text × Text) where
  ciphers version := if version = "v1" then some boxCipher else none
  active := boxCipher
  ciphers_active := if_pos rfl
  trimmed := by decide +kernel
  nonempty := by decide

def placeDraws : Draws Nat where
  newID path := Fin.ofNat (2 ^ 128) (path.foldl (fun n i => 64 * n + i + 1) 1)
  nonce path := some path.length
  order := .inPlace

end Overture
