import Overture.Coordinator.RoundTrip

/-!
# Definitions kept without a key

Without a usable keyring a definition is refused when it contains a sensitive input, and
otherwise sanitized and kept. The test for sensitive inputs, the sanitizer and the protector
each look at a definition in their own way.
-/

namespace Overture

open Json List Value Text AnyMap HeaderMap

def namesHost (url : URLParser) (t : Text) : Bool :=
  match url.parse t with
  | some parsed => !parsed.scheme.isEmpty && !parsed.host.isEmpty
  | none => false

def keepsURL (url : URLParser) : Any → Bool
  | .str t => decide (Text.trimSpace t = t) && !hasInlineAuth t && !namesHost url t
  | _ => false

def isOwnEnvelope (reason : Text) (value : Any) : Bool :=
  decide ((inputRedactedEnvelope value reason).toAny = some value)

mutual

def unchanged (url : URLParser) : Any → Bool
  | .obj fields => fieldsUnchanged url fields
  | .arr items => itemsUnchanged url items
  | .str t => !hasInlineAuth t
  | _ => true

def itemsUnchanged (url : URLParser) : Anys → Bool
  | .nil => true
  | .cons v rest => unchanged url v && itemsUnchanged url rest

def fieldsUnchanged (url : URLParser) : AnyMap → Bool
  | .nil => true
  | .cons key child rest =>
    (if normalizeInputKey key == "url" then keepsURL url child
      else if normalizeInputKey key == "headers" then
        match child with
        | .obj headers =>
          headerMetadataKeys.all (fun k => (headers.get? k).isSome) && headersUnchanged url headers
        | _ => false
      else unchanged url child) && fieldsUnchanged url rest

def headersUnchanged (url : URLParser) : AnyMap → Bool
  | .nil => true
  | .cons key child rest =>
    (if headerAllowed (normalizeInputKey key) then unchanged url child
      else isOwnEnvelope "non_allowlisted_header" child) && headersUnchanged url rest

end

theorem textValue_wf (t : Text) : (textValue t).WF := isRaw_quote t

theorem textsValue_wf (ts : List Text) : (textsValue ts).WF := (standsFor_textsValue ts).wf

theorem envelopeFields_wf (raw reason : Text) : ∀ e ∈ envelopeFields raw reason, e.2.WF := by
  intro e he
  simp only [envelopeFields, mem_cons, not_mem_nil, or_false] at he
  rcases he with rfl | rfl | rfl | rfl | rfl | rfl
  · exact isNumber_toDigits _
  · exact textValue_wf _
  · trivial
  · exact textValue_wf _
  · exact textValue_wf _
  · exact textsValue_wf [reason]

theorem inputRedactedEnvelope_wf (value : Any) (reason : Text) : (inputRedactedEnvelope value reason).WF :=
  object_wf (envelopeFields_wf _ reason)

theorem inputRedactedEnvelope_standsFor {value a : Any} {reason : Text}
    (h : (inputRedactedEnvelope value reason).toAny = some a) : (inputRedactedEnvelope value reason).StandsFor a := by
  cases hlen : Float64.parse (Nat.toDigits 10 (byteLength (valueToInputString value))) with
  | none =>
    rw [inputRedactedEnvelope, object_toAny, envelopeFields, membersToMap, natValue, toAny, hlen] at h
    simp at h
  | some x =>
    have hstand : (inputRedactedEnvelope value reason).StandsFor (.obj (ofList
        [("input_bytes", .num x),
          ("input_digest_sha256", .str (sha256InputBytes (valueToInputString value))),
          ("input_redacted", .bool true),
          ("redaction_policy_version", .str inputRedactionPolicyVersion),
          ("safe_summary", .str reason), ("sensitive_fields_redacted", textsOf [reason])])) := by
      apply standsFor_object
      · exact ⟨rfl, ⟨by simp [natValue, toAny, hlen], isNumber_toDigits _, rfl⟩, rfl, standsFor_textValue _,
          rfl, standsFor_bool true, rfl, standsFor_textValue _, rfl, standsFor_textValue _, rfl,
          standsFor_textsValue [reason], trivial⟩
      apply canonical_ofList
      · simp only [map_cons, map_nil]
        decide +kernel
      intro b hb
      simp only [map_cons, map_nil, mem_cons, not_mem_nil, or_false] at hb
      rcases hb with rfl | rfl | rfl | rfl | rfl | rfl
      all_goals first | exact textsOf_canonical _ | trivial
    have hsame := hstand.toAny_eq
    rw [h, Option.some_inj] at hsame
    exact hsame ▸ hstand

variable {t key : Text} {url : URLParser} {v : Any} {ms : List (Text × Value)} {m fields : AnyMap} {w : Value}
  {same : Bool}

theorem prefix_of_prefix_redact {p : Text} (hp : '[' ∉ p) (h : p <+: redactInlineInputAuth t) : p <+: t := by
  induction p generalizing t with
  | nil => exact nil_prefix
  | cons d p ih =>
    rw [mem_cons, not_or] at hp
    have hmarker (u : Text) : ¬ d :: p <+: '[' :: u := fun h => hp.1 (cons_prefix_cons.mp h).1.symm
    unfold redactInlineInputAuth at h
    split at h
    · exact absurd h (hmarker _)
    · exact absurd h (hmarker _)
    · obtain ⟨rfl, hrest⟩ := cons_prefix_cons.mp h
      exact cons_prefix_cons.mpr ⟨rfl, ih hp.2 hrest⟩
    · exact h

theorem infix_of_infix_append {tail u : Text} (hu : 'B' ∉ u) (h : 'B' :: tail <:+: u ++ t) :
    'B' :: tail <:+: t := by
  induction u with
  | nil => exact h
  | cons c u ih =>
    rw [mem_cons, not_or] at hu
    rcases infix_cons_iff.mp h with h | h
    · exact absurd (cons_prefix_cons.mp h).1 hu.1
    · exact ih hu.2 h

theorem not_infix_redact {tail : Text} (hm : tail = "earer " ∨ tail = "asic ") (t : Text) :
    ¬ 'B' :: tail <:+: redactInlineInputAuth t := by
  have hbracket : '[' ∉ tail := by rcases hm with rfl | rfl <;> decide
  fun_induction redactInlineInputAuth t with
  | case1 rest ih => exact fun h => ih (infix_of_infix_append (by decide) h)
  | case2 rest ih => exact fun h => ih (infix_of_infix_append (by decide) h)
  | case3 c rest h1 h2 ih =>
    intro h
    rcases infix_cons_iff.mp h with h | h
    · obtain ⟨rfl, htail⟩ := cons_prefix_cons.mp h
      obtain ⟨after, rfl⟩ := prefix_of_prefix_redact hbracket htail
      rcases hm with rfl | rfl
      · exact h1 after rfl rfl
      · exact h2 after rfl rfl
    · exact ih h
  | case4 => simp

theorem hasInlineAuth_redact (t : Text) : hasInlineAuth (redactInlineInputAuth t) = false := by
  rw [Bool.eq_false_iff, Ne, hasInlineAuth_iff, not_or]
  exact ⟨not_infix_redact (.inl rfl) t, not_infix_redact (.inr rfl) t⟩

/-- What a result of the sanitizer says about the value: it is read as the value exactly when it should be. -/
structure Sanitizes (w : Value) (v : Any) (same : Bool) : Prop where
  wf : w.WF
  standsFor : same = true → w.StandsFor v
  same_of_toAny : w.toAny = some v → same = true

theorem safeURLForPersistence_text {raw : Text} (h : namesHost url (trimSpace raw) = false) :
    safeURLForPersistence url raw = textValue (redactInlineInputAuth (trimSpace raw)) := by
  unfold safeURLForPersistence
  dsimp only
  unfold namesHost at h
  split_ifs with hempty
  · rw [isEmpty_iff.mp hempty]
    rfl
  split
  · rfl
  next parsed hparsed =>
  rw [hparsed] at h
  dsimp only at h
  rw [if_pos]
  rw [Bool.and_eq_false_iff, Bool.not_eq_false', Bool.not_eq_false'] at h
  rw [Bool.or_eq_true]
  exact h

theorem safeURLForPersistence_object {raw : Text} (h : namesHost url (trimSpace raw) = true) :
    ∃ ms, safeURLForPersistence url raw = object ms ∧ ∀ e ∈ ms, e.2.WF := by
  unfold namesHost at h
  split at h
  · next parsed hparsed =>
    rw [Bool.and_eq_true, Bool.not_eq_true', Bool.not_eq_true'] at h
    have hempty : ¬(trimSpace raw).isEmpty = true := by
      intro hempty
      obtain ⟨⟨c, rest, hcons, -⟩, -⟩ := url.scheme_head hparsed (by
        intro hscheme
        rw [hscheme] at h
        exact absurd h.1 (by decide))
      rw [hcons] at hempty
      simp at hempty
    unfold safeURLForPersistence
    dsimp only
    rw [if_neg hempty, hparsed]
    dsimp only
    rw [if_neg (by simp [h])]
    refine ⟨_, rfl, ?_⟩
    intro e he
    have hmem := mem_of_mem_mapEntries he
    rw [mem_append] at hmem
    rcases hmem with hmem | hmem
    · simp only [mem_cons, not_mem_nil, or_false] at hmem
      rcases hmem with rfl | rfl | rfl <;> exact textValue_wf _
    split_ifs at hmem
    · simp only [mem_cons, not_mem_nil, or_false] at hmem
      rcases hmem with rfl | rfl | rfl | rfl
      · trivial
      · exact textValue_wf _
      · exact isNumber_toDigits _
      · exact textsValue_wf ["url_query_or_credentials"]
    · simp at hmem
  · cases h

theorem namesHost_trimmed (h : namesHost url (trimSpace t) = true) :
    ':' ∈ t ∧ ∀ c rest, t = c :: rest → isSpace c = false → c.isAlpha = true := by
  unfold namesHost at h
  split at h
  · next parsed hparsed =>
    rw [Bool.and_eq_true, Bool.not_eq_true', Bool.not_eq_true'] at h
    obtain ⟨⟨d, rest, hcons, halpha⟩, hcolon⟩ := url.scheme_head hparsed (by
      intro hscheme
      rw [hscheme] at h
      exact absurd h.1 (by decide))
    refine ⟨(Text.trimSpace_infix t).subset hcolon, ?_⟩
    rintro c rest' rfl hc
    have hprefix := trimSpace_prefix (t := rest') hc
    rw [hcons] at hprefix
    rw [← (cons_prefix_cons.mp hprefix).1]
    exact halpha
  · cases h

theorem digit_spec {c : Char} (hc : c.isDigit = true) : isSpace c = false ∧ c.isAlpha = false := by
  have hrange : 48 ≤ c.toNat ∧ c.toNat ≤ 57 := by
    simp only [Char.isDigit, Bool.and_eq_true, decide_eq_true_eq, ge_iff_le, UInt32.le_iff_toNat_le] at hc
    exact hc
  constructor
  · simp only [isSpace]
    simp
    omega
  simp only [Char.isAlpha, Char.isUpper, Char.isLower, Bool.or_eq_false_iff, Bool.and_eq_false_iff,
    decide_eq_false_iff_not, ge_iff_le, UInt32.le_iff_toNat_le]
  have hval : c.val.toNat = c.toNat := rfl
  have hA : 'A'.val.toNat = 65 := rfl
  have ha : 'a'.val.toNat = 97 := rfl
  omega

/-- The text of a value that is no string is no URL: it has no colon or does not start with a letter. -/
theorem namesHost_of_not_text (hv : isText v = false) :
    namesHost url (trimSpace (valueToInputString v)) = false := by
  rw [Bool.eq_false_iff]
  intro h
  obtain ⟨hcolon, hhead⟩ := namesHost_trimmed h
  cases v with
  | null => exact absurd hcolon (by decide)
  | bool b => cases b <;> exact absurd hcolon (by decide)
  | num x =>
    cases hx : x.format with
    | none => simp [valueToInputString, Any.toValue, hx] at hcolon
    | some lit =>
      obtain ⟨⟨c, l, hlit, hc⟩, -⟩ := (Float64.format_spec hx).1
      have htext : valueToInputString (.num x) = c :: l := by
        simp [valueToInputString, Any.toValue, hx, print, hlit]
      rcases hc with rfl | hc
      · exact absurd (hhead '-' l htext (by decide)) (by decide)
      obtain ⟨hspace, halpha⟩ := digit_spec hc
      rw [hhead c l htext hspace] at halpha
      cases halpha
  | str t => cases hv
  | arr items =>
    cases hvs : items.toValues with
    | none => simp [valueToInputString, Any.toValue, hvs] at hcolon
    | some vs =>
      have htext : ∃ l, valueToInputString (.arr items) = '[' :: l := by
        cases vs <;> exact ⟨_, by simp [valueToInputString, Any.toValue, hvs, array, print]; rfl⟩
      obtain ⟨l, hl⟩ := htext
      exact absurd (hhead '[' l hl (by decide)) (by decide)
  | obj fields =>
    cases hms : fields.toMembers with
    | none => simp [valueToInputString, Any.toValue, hms] at hcolon
    | some ms =>
      obtain ⟨l, hl⟩ : ∃ l, valueToInputString (.obj fields) = '\x7b' :: l := by
        cases ms <;> exact ⟨_, by simp [valueToInputString, Any.toValue, hms, object, print]; rfl⟩
      exact absurd (hhead '\x7b' l hl (by decide)) (by decide)

theorem redact_trimmed_eq_iff (t : Text) :
    redactInlineInputAuth (trimSpace t) = t ↔ trimSpace t = t ∧ hasInlineAuth t = false := by
  constructor
  · intro h
    have hclean : hasInlineAuth t = false := by
      rw [← h]
      exact hasInlineAuth_redact _
    -- a marker in the trimmed text would also stand in the whole
    have htrimmed : ¬hasInlineAuth (trimSpace t) = true := by
      rw [Bool.eq_false_iff, Ne, hasInlineAuth_iff, not_or] at hclean
      rw [hasInlineAuth_iff, not_or]
      exact ⟨fun hin => hclean.1 (hin.trans (Text.trimSpace_infix t)),
        fun hin => hclean.2 (hin.trans (Text.trimSpace_infix t))⟩
    rw [(redactInlineInputAuth_eq_self_iff _).mpr htrimmed] at h
    exact ⟨h, hclean⟩
  · rintro ⟨htrim, hclean⟩
    rw [htrim]
    exact (redactInlineInputAuth_eq_self_iff t).mpr (by simp [hclean])

theorem safeURLForPersistence_sanitizes (url : URLParser) (v : Any) :
    Sanitizes (safeURLForPersistence url (valueToInputString v)) v (keepsURL url v) := by
  cases hhost : namesHost url (trimSpace (valueToInputString v)) with
  | true =>
    obtain ⟨ms, hms, hwf⟩ := safeURLForPersistence_object hhost
    have hkeeps : keepsURL url v = false := by
      cases v with
      | str t =>
        rw [keepsURL]
        by_cases htrim : trimSpace t = t
        · rw [valueToInputString, htrim] at hhost
          simp [hhost]
        · simp [htrim]
      | _ => rfl
    rw [hms, hkeeps]
    refine ⟨object_wf hwf, by simp, ?_⟩
    intro htoAny
    -- only a string names a host, and an object is not read as one
    cases v with
    | str t =>
      rw [object_toAny] at htoAny
      obtain ⟨m, -, hm⟩ := Option.map_eq_some_iff.mp htoAny
      cases hm
    | _ => rw [namesHost_of_not_text rfl] at hhost; cases hhost
  | false =>
    rw [safeURLForPersistence_text hhost]
    have hstand := standsFor_textValue (redactInlineInputAuth (trimSpace (valueToInputString v)))
    refine ⟨hstand.wf, ?_, ?_⟩
    · intro hkeeps
      cases v with
      | str t =>
        simp only [keepsURL, Bool.and_eq_true, decide_eq_true_eq, Bool.not_eq_true'] at hkeeps
        rw [valueToInputString, (redact_trimmed_eq_iff t).mpr hkeeps.1] at hstand ⊢
        exact hstand
      | _ => cases hkeeps
    intro htoAny
    rw [hstand.toAny_eq, Option.some_inj] at htoAny
    cases v with
    | str t =>
      obtain ⟨htrim, hclean⟩ := (redact_trimmed_eq_iff t).mp (Any.str.inj htoAny)
      rw [valueToInputString, htrim] at hhost
      simp [keepsURL, htrim, hclean, hhost]
    | _ => cases htoAny

/-! ## Headers without sensitive names -/

def headerBase (version : Text) : List (Text × Value) :=
  [("sensitive_fields_redacted", textsValue []), ("input_redacted", .bool true),
    ("redaction_policy_version", textValue version)]

theorem headerBase_keys (version : Text) : ((headerBase version).map Prod.fst).Perm headerMetadataKeys :=
  (List.perm_append_singleton "sensitive_fields_redacted".toList ["input_redacted", "redaction_policy_version"]).symm

theorem foldlM_step_plain {headers : List (Text × Value)} (h : ∀ e ∈ headers, isSensitiveHeader e.1 = false)
    (out : HeaderMap) : ∃ out', headers.foldlM step out = .ok out' := by
  induction headers generalizing out with
  | nil => exact ⟨out, rfl⟩
  | cons e headers ih =>
    have hplain : inputKeySensitive (normalizeInputKey e.1) = false := h e (by simp)
    obtain ⟨out', hout'⟩ := ih (fun x hx => h x (by simp [hx])) (out.assign e.1 e.2)
    refine ⟨out', ?_⟩
    rw [foldlM_cons, step, hplain]
    exact hout'

theorem collectHeaders_plain {version : Text} {headers : List (Text × Value)}
    (h : ∀ e ∈ headers, isSensitiveHeader e.1 = false) :
    collectHeaders version headers = .ok (object (mapEntries (headerBase version ++ headers))) := by
  obtain ⟨out, hout⟩ := foldlM_step_plain h (start version)
  obtain ⟨hfields, hred⟩ := foldlM_step hout
  have hnames : (headers.map Prod.fst).filter isSensitiveHeader = [] := by
    rw [filter_eq_nil_iff]
    intro key hkey
    obtain ⟨e, he, rfl⟩ := mem_map.mp hkey
    simp [h e he]
  unfold collectHeaders
  rw [hout]
  change Except.ok out.toValue = _
  congr 1
  rcases hred with ⟨hnone, hstart | hmem⟩ | ⟨names, hstart, hsome⟩
  · cases hstart
  · -- a header takes the place of the empty list
    rw [toValue, hnone, hfields]
    refine congrArg object (insertEntry_of_mem (mapEntries_ascending _) ?_).symm
    rw [mem_keys_mapEntries, map_append]
    exact mem_append_right _ hmem
  · cases hstart
    rw [toValue, hsome, hfields, hnames]
    rfl

structure SanitizesEntries (ms : List (Text × Value)) (fields : AnyMap) (same : Bool) : Prop where
  keys : ms.map Prod.fst = fields.toList.map Prod.fst
  wf : ∀ e ∈ ms, e.2.WF
  standFor : same = true → standForEntries ms fields
  same_of_toMap : membersToMap ms = some fields → same = true

theorem above_membersToMap (h : membersToMap ms = some m)
    (hkey : ∀ e ∈ ms, key < e.1) : m.Above key := by
  induction ms generalizing m with
  | nil =>
    cases h
    trivial
  | cons e ms ih =>
    rw [membersToMap] at h
    split at h
    · next a fields ha hfields =>
      cases h
      exact above_insertNew (ih hfields fun x hx => hkey x (by simp [hx])) (hkey e (by simp))
    · simp at h

theorem membersToMap_cons (hkey : ∀ e ∈ ms, key < e.1) (h : membersToMap ((key, w) :: ms) = some m) :
    ∃ a rest, m = .cons key a rest ∧ w.toAny = some a ∧ membersToMap ms = some rest := by
  rw [membersToMap] at h
  split at h
  · next a rest ha hrest =>
    cases h
    exact ⟨a, rest, insertNew_of_above (above_membersToMap hrest hkey), ha, hrest⟩
  · simp at h

theorem lt_of_keys
    (hkeys : ms.map Prod.fst = fields.toList.map Prod.fst) (habove : fields.Above key) : ∀ e ∈ ms, key < e.1 := by
  intro e he
  have hmem : e.1 ∈ fields.toList.map Prod.fst := hkeys ▸ mem_map_of_mem he
  obtain ⟨x, hx, hxe⟩ := mem_map.mp hmem
  rw [← hxe]
  exact lt_of_mem_above habove hx

theorem SanitizesEntries.cons {rest : AnyMap}
    {first : Bool} (hw : Sanitizes w v first) (hms : SanitizesEntries ms rest same) (habove : rest.Above key) :
    SanitizesEntries ((key, w) :: ms) (.cons key v rest) (first && same) where
  keys := by simp [toList, hms.keys]
  wf := by
    intro e he
    rcases mem_cons.mp he with rfl | he
    · exact hw.wf
    · exact hms.wf e he
  standFor := by
    intro h
    rw [Bool.and_eq_true] at h
    exact ⟨rfl, hw.standsFor h.1, hms.standFor h.2⟩
  same_of_toMap := by
    intro h
    obtain ⟨a, rest', heq, ha, hrest⟩ := membersToMap_cons (lt_of_keys hms.keys habove) h
    cases heq
    rw [hw.same_of_toAny ha, hms.same_of_toMap hrest]
    rfl

theorem SanitizesEntries.object
    (h : SanitizesEntries ms fields same) (hf : fields.Canonical) : Sanitizes (object ms) (.obj fields) same where
  wf := object_wf h.wf
  standsFor hsame := standsFor_object (h.standFor hsame) hf
  same_of_toAny htoAny := by
    rw [object_toAny] at htoAny
    obtain ⟨m, hm, heq⟩ := Option.map_eq_some_iff.mp htoAny
    exact h.same_of_toMap (Any.obj.inj heq ▸ hm)

theorem keys_membersToMap (hms : Ascending ms)
    (h : membersToMap ms = some m) : m.toList.map Prod.fst = ms.map Prod.fst := by
  induction ms generalizing m with
  | nil =>
    cases h
    rfl
  | cons e ms ih =>
    obtain ⟨hhead, htail⟩ := pairwise_cons.mp hms
    obtain ⟨a, rest, rfl, -, hrest⟩ := membersToMap_cons hhead h
    simp [toList, ih htail hrest]

theorem SanitizesEntries.ascending (h : SanitizesEntries ms fields same) (hf : fields.Canonical) : Ascending ms := by
  have hkeys : (ms.map Prod.fst).Pairwise (· < ·) := by
    rw [h.keys]
    exact pairwise_map.mpr (ascending_toList hf)
  exact pairwise_map.mp hkeys

theorem SanitizesEntries.headers {kept : List (Text × Value)} {headers : AnyMap}
    (h : SanitizesEntries kept headers same) (hh : headers.Canonical) (version : Text) (order : IterationOrder)
    (path : List Nat) :
    Sanitizes (Value.object (mapEntries (headerBase version ++ order.apply path kept))) (.obj headers)
      (headerMetadataKeys.all (fun k => (headers.get? k).isSome) && same) := by
  have hperm := order.apply_perm path kept
  have hwritten (hall : ∀ key ∈ headerMetadataKeys, (headers.get? key).isSome = true) :
      mapEntries (headerBase version ++ order.apply path kept) = kept := by
    rw [mapEntries_append_of_covered, mapEntries_of_perm (h.ascending hh) hperm]
    intro key hkey
    have hmem : key ∈ headerMetadataKeys := (headerBase_keys version).mem_iff.mp hkey
    rw [(hperm.map Prod.fst).mem_iff, h.keys, ← isSome_get?_iff]
    exact hall key hmem
  have hkept := h.object hh
  refine ⟨?_, ?_, ?_⟩
  · apply Value.object_wf
    intro e he
    rcases mem_append.mp (mem_of_mem_mapEntries he) with he | he
    · simp only [headerBase, mem_cons, not_mem_nil, or_false] at he
      rcases he with rfl | rfl | rfl
      · exact textsValue_wf []
      · trivial
      · exact textValue_wf _
    · exact h.wf e (hperm.subset he)
  · intro hsame
    rw [Bool.and_eq_true, all_eq_true] at hsame
    rw [hwritten hsame.1]
    exact hkept.standsFor hsame.2
  intro htoAny
  have hall : ∀ key ∈ headerMetadataKeys, (headers.get? key).isSome = true := by
    intro key hkey
    rw [Value.object_toAny] at htoAny
    obtain ⟨m, hm, heq⟩ := Option.map_eq_some_iff.mp htoAny
    obtain rfl := Any.obj.inj heq
    rw [isSome_get?_iff, keys_membersToMap (mapEntries_ascending _) hm, mem_keys_mapEntries, map_append]
    exact mem_append_left _ ((headerBase_keys version).mem_iff.mpr hkey)
  rw [hwritten hall] at htoAny
  rw [Bool.and_eq_true, all_eq_true]
  exact ⟨hall, hkept.same_of_toAny htoAny⟩

/-! ## The sanitizer -/

structure SanitizesItems (ws : List Value) (items : Anys) (same : Bool) : Prop where
  wf : ∀ w ∈ ws, w.WF
  standFor : same = true → standForItems ws items
  same_of_toAnys : valuesToAnys ws = some items → same = true

theorem SanitizesItems.cons {ws : List Value} {rest : Anys} {first : Bool}
    (hw : Sanitizes w v first) (hws : SanitizesItems ws rest same) :
    SanitizesItems (w :: ws) (.cons v rest) (first && same) where
  wf := by
    intro x hx
    rcases mem_cons.mp hx with rfl | hx
    · exact hw.wf
    · exact hws.wf x hx
  standFor := by
    intro h
    rw [Bool.and_eq_true] at h
    exact ⟨hw.standsFor h.1, hws.standFor h.2⟩
  same_of_toAnys := by
    intro h
    rw [valuesToAnys] at h
    split at h
    · next a as ha has =>
      cases h
      rw [hw.same_of_toAny ha, hws.same_of_toAnys has]
      rfl
    · simp at h

theorem SanitizesItems.array {ws : List Value} {items : Anys} (h : SanitizesItems ws items same) :
    Sanitizes (array ws) (.arr items) same where
  wf := array_wf h.wf
  standsFor hsame := standsFor_array (h.standFor hsame)
  same_of_toAny htoAny := by
    rw [array_toAny] at htoAny
    obtain ⟨as, has, heq⟩ := Option.map_eq_some_iff.mp htoAny
    exact h.same_of_toAnys (Any.arr.inj heq ▸ has)

theorem sanitizeString_sanitizes (h : containsSensitiveInput url (.str t) = false) :
    Sanitizes (sanitizeString t) (.str t) (!hasInlineAuth t) := by
  rw [containsSensitiveInput, Bool.or_eq_false_iff, decide_eq_false_iff_not] at h
  have hstand := standsFor_textValue (redactInlineInputAuth t)
  rw [sanitizeString, h.1, if_neg Bool.false_ne_true, if_neg h.2]
  refine ⟨hstand.wf, ?_, ?_⟩
  · intro hclean
    rwa [(redactInlineInputAuth_eq_self_iff t).mpr (by simpa using hclean)] at hstand ⊢
  intro htoAny
  rw [hstand.toAny_eq, Option.some_inj, Any.str.injEq, redactInlineInputAuth_eq_self_iff] at htoAny
  simpa using htoAny

theorem writeAny_sanitizes (hc : v.Canonical) (hr : v.Readable) :
    ∃ w, writeAny v = .ok w ∧ Sanitizes w v true := by
  obtain ⟨w, hw⟩ := v.toValue_isSome hr
  have hstand := v.standsFor hc hw
  exact ⟨w, by rw [writeAny, hw], hstand.wf, fun _ => hstand, fun _ => rfl⟩

theorem envelope_sanitizes {reason : Text} (hv : ∀ fields, v ≠ .obj fields) :
    Sanitizes (inputRedactedEnvelope v reason) v false := by
  refine ⟨inputRedactedEnvelope_wf v reason, by simp, ?_⟩
  intro htoAny
  rw [inputRedactedEnvelope, object_toAny] at htoAny
  obtain ⟨m, -, heq⟩ := Option.map_eq_some_iff.mp htoAny
  exact absurd heq.symm (hv m)

theorem ownEnvelope_sanitizes (v : Any) (reason : Text) :
    Sanitizes (inputRedactedEnvelope v reason) v (isOwnEnvelope reason v) := by
  refine ⟨inputRedactedEnvelope_wf v reason, ?_, ?_⟩
  · intro hsame
    exact inputRedactedEnvelope_standsFor (of_decide_eq_true hsame)
  · intro htoAny
    exact decide_eq_true htoAny

theorem plain_of_containsSensitiveFields
    (h : containsSensitiveFields url fields = false) : ∀ key ∈ fields.toList.map Prod.fst, isSensitiveHeader key = false := by
  induction fields with
  | nil => simp [toList]
  | cons key child rest ih =>
    simp only [containsSensitiveFields, Bool.or_eq_false_iff] at h
    intro k hk
    rcases mem_cons.mp hk with rfl | hk
    · exact h.1.1.1.1
    · exact ih h.2 k hk

section Sanitizer

variable (url : URLParser) (order : IterationOrder)

mutual

theorem sanitizeInputValue_sanitizes (v : Any) (hc : v.Canonical) (hr : v.Readable)
    (hs : containsSensitiveInput url v = false) (path : List Nat) :
    ∃ w, sanitizeInputValue url order path v = .ok w ∧ Sanitizes w v (unchanged url v) := by
  cases v with
  | obj fields =>
    rw [containsSensitiveInput] at hs
    obtain ⟨ms, hms, hspec⟩ := sanitizeFields_sanitizes fields hc hr hs path 0
    refine ⟨object ms, by rw [sanitizeInputValue, hms]; rfl, ?_⟩
    rw [unchanged]
    exact hspec.object hc
  | arr items =>
    rw [containsSensitiveInput] at hs
    obtain ⟨ws, hws, hspec⟩ := sanitizeItems_sanitizes items hc hr hs path 0
    refine ⟨array ws, by rw [sanitizeInputValue, hws]; rfl, ?_⟩
    rw [unchanged]
    exact hspec.array
  | str t =>
    rw [unchanged]
    exact ⟨_, rfl, sanitizeString_sanitizes hs⟩
  | _ => exact writeAny_sanitizes hc hr

theorem sanitizeItems_sanitizes (items : Anys) (hc : items.Canonical) (hr : items.Readable)
    (hs : containsSensitiveItems url items = false) (path : List Nat) (i : Nat) :
    ∃ ws, sanitizeItems url order path i items = .ok ws ∧ SanitizesItems ws items (itemsUnchanged url items) := by
  cases items with
  | nil => exact ⟨[], rfl, by simp, fun _ => trivial, fun _ => rfl⟩
  | cons v rest =>
    rw [containsSensitiveItems, Bool.or_eq_false_iff] at hs
    obtain ⟨w, hw, hspec⟩ := sanitizeInputValue_sanitizes v hc.1 hr.1 hs.1 (path ++ [i])
    obtain ⟨ws, hws, hrest⟩ := sanitizeItems_sanitizes rest hc.2 hr.2 hs.2 path (i + 1)
    refine ⟨w :: ws, by rw [sanitizeItems, hw, hws]; rfl, ?_⟩
    rw [itemsUnchanged]
    exact SanitizesItems.cons hspec hrest

theorem sanitizeFields_sanitizes (fields : AnyMap) (hc : fields.Canonical) (hr : fields.Readable)
    (hs : containsSensitiveFields url fields = false) (path : List Nat) (i : Nat) :
    ∃ ms, sanitizeFields url order path i fields = .ok ms ∧ SanitizesEntries ms fields (fieldsUnchanged url fields) := by
  cases fields with
  | nil => exact ⟨[], rfl, rfl, by simp, fun _ => trivial, fun _ => rfl⟩
  | cons key child rest =>
    simp only [containsSensitiveFields, Bool.or_eq_false_iff] at hs
    obtain ⟨⟨⟨⟨hkey, hpath⟩, -⟩, hchild⟩, hrest⟩ := hs
    obtain ⟨ms, hms, hspec⟩ := sanitizeFields_sanitizes rest hc.2.2 hr.2 hrest path (i + 1)
    obtain ⟨w, hw, hwspec⟩ := sanitizeInputValue_sanitizes child hc.2.1 hr.1 hchild (path ++ [i])
    rw [sanitizeFields.eq_def, fieldsUnchanged.eq_def]
    dsimp only
    rw [hms, hkey, hpath]
    generalize normalizeInputKey key = normalized
    by_cases hurl : normalized = "url"
    · subst hurl
      rw [if_neg (by decide +kernel), if_neg Bool.false_ne_true, if_neg Bool.false_ne_true, if_pos (by simp), if_pos (by simp)]
      exact ⟨_, rfl, SanitizesEntries.cons (safeURLForPersistence_sanitizes url child) hspec hc.1⟩
    by_cases hheaders : normalized = "headers"
    · subst hheaders
      rw [if_neg (by decide +kernel), if_neg Bool.false_ne_true, if_neg Bool.false_ne_true, if_neg (by decide +kernel),
        if_pos (by simp), if_neg (by decide +kernel), if_pos (by simp)]
      cases child with
      | obj headers =>
        rw [containsSensitiveInput] at hchild
        obtain ⟨kept, hkept, hkeptSpec⟩ := sanitizeHeaders_sanitizes headers hc.2.1 hr.1 hchild (path ++ [i]) 0
        have hplain : ∀ e ∈ order.apply (path ++ [i]) kept, isSensitiveHeader e.1 = false := by
          intro e he
          apply plain_of_containsSensitiveFields hchild
          rw [← hkeptSpec.keys]
          exact mem_map_of_mem ((order.apply_perm _ kept).subset he)
        dsimp only
        rw [hkept]
        refine ⟨_, ?_, SanitizesEntries.cons (hkeptSpec.headers hc.2.1 inputRedactionPolicyVersion order (path ++ [i])) hspec hc.1⟩
        change (collectHeaders _ _ >>= fun w => _) = _
        rw [collectHeaders_plain hplain]
        rfl
      | _ => exact ⟨_, rfl, SanitizesEntries.cons (envelope_sanitizes (by simp)) hspec hc.1⟩
    have hurl' : ¬(normalized == "url") = true := by simpa using hurl
    have hheaders' : ¬(normalized == "headers") = true := by simpa using hheaders
    rw [if_neg hurl', if_neg hheaders', if_neg Bool.false_ne_true, if_neg Bool.false_ne_true, if_neg hurl',
      if_neg hheaders', ite_self, hw]
    exact ⟨_, rfl, SanitizesEntries.cons hwspec hspec hc.1⟩

theorem sanitizeHeaders_sanitizes (headers : AnyMap) (hc : headers.Canonical) (hr : headers.Readable)
    (hs : containsSensitiveFields url headers = false) (path : List Nat) (i : Nat) :
    ∃ ms, sanitizeHeaders url order path i headers = .ok ms ∧
      SanitizesEntries ms headers (headersUnchanged url headers) := by
  cases headers with
  | nil => exact ⟨[], rfl, rfl, by simp, fun _ => trivial, fun _ => rfl⟩
  | cons key child rest =>
    simp only [containsSensitiveFields, Bool.or_eq_false_iff] at hs
    obtain ⟨⟨⟨⟨hkey, -⟩, -⟩, hchild⟩, hrest⟩ := hs
    obtain ⟨ms, hms, hspec⟩ := sanitizeHeaders_sanitizes rest hc.2.2 hr.2 hrest path (i + 1)
    obtain ⟨w, hw, hwspec⟩ := sanitizeInputValue_sanitizes child hc.2.1 hr.1 hchild (path ++ [i])
    rw [sanitizeHeaders, headersUnchanged, hms, hkey, if_neg Bool.false_ne_true]
    split_ifs
    · rw [hw]
      exact ⟨_, rfl, SanitizesEntries.cons hwspec hspec hc.1⟩
    · exact ⟨_, rfl, SanitizesEntries.cons (ownEnvelope_sanitizes child _) hspec hc.1⟩

end

end Sanitizer

/-- A definition is kept only if the protector would replace nothing in it and it stays the same value; a
definition in which something would be replaced is refused. -/
def RefusedOrKept (N C : Type) (url : URLParser) (draws : Draws N) (raw tenantID : Text) (taskID : Uuid) (v : Any) :
    Prop :=
  (∀ definition refs,
    protectTaskDefinitionInputs (none : Option (InputCipher N C)) url draws raw tenantID taskID =
      .ok (definition, refs) → places url [] [] v = [] ∧ jsonValuesEqual definition raw = true) ∧
  (places url [] [] v ≠ [] →
    ∃ e, protectTaskDefinitionInputs (none : Option (InputCipher N C)) url draws raw tenantID taskID = .error e)

theorem protect_keyless (N C : Type) (url : URLParser) (draws : Draws N) {raw : Text} {v : Any}
    (hraw : (parse raw).bind toAny = some v) (tenantID : Text) (taskID : Uuid) :
    protectTaskDefinitionInputs (none : Option (InputCipher N C)) url draws raw tenantID taskID =
      if containsSensitiveInput url v then .error .keyMissing
      else (sanitizeTaskDefinitionForPersistence url draws.order raw).map fun definition => (definition, []) := by
  have hne : ¬raw.isEmpty = true := by
    intro hempty
    rw [isEmpty_iff.mp hempty] at hraw
    simp [parse, parseValue] at hraw
  unfold protectTaskDefinitionInputs
  rw [if_neg hne, hraw]

theorem jsonValuesEqual_sanitized_iff {w : Value} {v : Any} {same : Bool} {raw : Text} (hw : Sanitizes w v same)
    (hraw : (parse raw).bind toAny = some v) (hd : v.depth ≤ maxNestingDepth) :
    jsonValuesEqual w.print raw = true ↔ same = true := by
  constructor
  · intro h
    rw [jsonValuesEqual, parse_print_eq hw.wf, hraw] at h
    split_ifs at h
    · rw [Option.bind_some] at h
      cases htoAny : w.toAny with
      | none => simp [htoAny] at h
      | some a =>
        rw [htoAny] at h
        have hav : a = v := of_decide_eq_true h
        exact hw.same_of_toAny (hav ▸ htoAny)
    · cases h
  · intro hsame
    rw [jsonValuesEqual, (hw.standsFor hsame).unmarshal, if_pos hd, hraw]
    exact decide_eq_true rfl

end Overture
