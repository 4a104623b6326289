import Overture.Lib.Json.Decoded
import Overture.Coordinator.InputRefs
import Overture.Lib.Except

/-!
# What a protected definition is read as

The persisted definition is a text. It stands for the value below, in which every input that
is replaced has become the metadata of its reference; results about persisted definitions are
about that value.
-/

namespace Overture

open Json AnyMap List HeaderMap Except

def numberOf (n : Nat) : Any := ((Float64.parse (Nat.toDigits 10 n)).map Any.num).getD .null

def textsOf (ts : List Text) : Any := .arr (ts.foldr (fun t as => .cons (.str t) as) .nil)

theorem standsFor_bool (b : Bool) : (Value.bool b).StandsFor (.bool b) := ⟨rfl, trivial, rfl⟩

theorem standsFor_textValue (t : Text) : (textValue t).StandsFor (.str t) :=
  ⟨by simp [textValue, Value.toAny, unquote_quote], isRaw_quote t, rfl⟩

theorem standsFor_natValue {n : Nat} (hn : n < 2 ^ 63) : (natValue n).StandsFor (numberOf n) := by
  obtain ⟨x, hx⟩ := Option.isSome_iff_exists.mp (Float64.parse_toDigits_isSome hn)
  have hnum : numberOf n = .num x := by simp [numberOf, hx]
  exact ⟨by simp [natValue, Value.toAny, hx, hnum], isNumber_toDigits n, by rw [hnum]; rfl⟩

theorem standsFor_textsValue (ts : List Text) : (textsValue ts).StandsFor (textsOf ts) := by
  apply standsFor_array
  induction ts with
  | nil => trivial
  | cons t ts ih => exact ⟨standsFor_textValue t, ih⟩

def refEntries (id : Uuid) (plaintext keyVersion purpose summary : Text) : List (Text × Any) :=
  [("encrypted_input_ref", .bool true), ("encrypted_input_ref_id", .str id.toText),
    ("input_bytes", numberOf (byteLength plaintext)), ("input_content_type", .str []),
    ("input_digest_sha256", .str (sha256InputBytes plaintext)), ("input_redacted", .bool true),
    ("key_version", .str keyVersion), ("purpose", .str purpose),
    ("redaction_policy_version", .str inputReferenceRedactionPolicyVersion),
    ("safe_summary", .str summary), ("sensitive_fields_redacted", textsOf [purpose])]

def refMap (id : Uuid) (plaintext keyVersion purpose summary : Text) : AnyMap :=
  ofList (refEntries id plaintext keyVersion purpose summary)

theorem numberOf_canonical (n : Nat) : (numberOf n).Canonical := by
  unfold numberOf
  cases Float64.parse (Nat.toDigits 10 n) <;> trivial

theorem textsOf_canonical (ts : List Text) : (textsOf ts).Canonical := (standsFor_textsValue ts).canonical

theorem refMap_canonical (id : Uuid) (plaintext keyVersion purpose summary : Text) :
    (refMap id plaintext keyVersion purpose summary).Canonical := by
  apply canonical_ofList
  · simp only [refEntries, map_cons, map_nil]
    decide +kernel
  intro a ha
  simp only [refEntries, map_cons, map_nil, mem_cons, not_mem_nil, or_false] at ha
  rcases ha with rfl | rfl | rfl | rfl | rfl | rfl | rfl | rfl | rfl | rfl | rfl
  all_goals first | exact numberOf_canonical _ | exact textsOf_canonical _ | trivial

def isSensitiveHeader (key : Text) : Bool := inputKeySensitive (normalizeInputKey key)

def headerMetadata (version : Text) (names : List Text) (headers : AnyMap) : AnyMap :=
  ((headers.insertNew "redaction_policy_version" (.str version)).insertNew
    "input_redacted" (.bool true)).insertNew "sensitive_fields_redacted" (textsOf names)

theorem headerMetadata_canonical (version : Text) (names : List Text) {headers : AnyMap} (h : headers.Canonical) :
    (headerMetadata version names headers).Canonical :=
  canonical_insertNew _ (textsOf_canonical names)
    (canonical_insertNew _ trivial (canonical_insertNew _ trivial h))

theorem IterationOrder.map_apply {α β : Type} (order : IterationOrder) (path : List Nat) (f : α → β) (l : List α) :
    (order.apply path l).map f = order.apply path (l.map f) := by
  simp [IterationOrder.apply, map_filterMap]

/-- What one turn of the loop does: the list of names is lost, or stays lost, or grows by a sensitive name. -/
theorem HeaderMap.step_spec {out out' : HeaderMap} {header : Text × Value} (h : out.step header = .ok out') :
    out'.fields = out.fields ++ [header] ∧
      ((out'.redacted = none ∧ (out.redacted = none ∨ header.1 = "sensitive_fields_redacted")) ∨
        ∃ names, out.redacted = some names ∧
          out'.redacted = some (names ++ [header.1].filter isSensitiveHeader)) := by
  unfold step append assign at h
  generalize "sensitive_fields_redacted" = listKey at h ⊢
  rw [← isSensitiveHeader] at h
  split at h
  · next hsens =>
    dsimp only at h
    split at h
    · next names hnames =>
      cases h
      split at hnames
      · simp at hnames
      · exact ⟨rfl, .inr ⟨names, hnames, by simp [hsens]⟩⟩
    · simp at h
  next hsens =>
  cases h
  refine ⟨rfl, ?_⟩
  dsimp only
  split
  · next hkey => exact .inl ⟨rfl, .inr hkey⟩
  · cases hred : out.redacted with
    | none => exact .inl ⟨rfl, .inl rfl⟩
    | some names => exact .inr ⟨names, rfl, by simp [hsens]⟩

theorem HeaderMap.foldlM_step {headers : List (Text × Value)} {out out' : HeaderMap}
    (h : headers.foldlM HeaderMap.step out = .ok out') :
    out'.fields = out.fields ++ headers ∧
      ((out'.redacted = none ∧ (out.redacted = none ∨ "sensitive_fields_redacted".toList ∈ headers.map Prod.fst)) ∨
        ∃ names, out.redacted = some names ∧
          out'.redacted = some (names ++ (headers.map Prod.fst).filter isSensitiveHeader)) := by
  induction headers generalizing out with
  | nil =>
    obtain rfl : out = out' := by simpa [pure, Except.pure] using h
    cases hred : out.redacted with
    | none => exact ⟨by simp, .inl ⟨rfl, .inl rfl⟩⟩
    | some names => exact ⟨by simp, .inr ⟨names, rfl, by simp⟩⟩
  | cons header headers ih =>
    rw [List.foldlM_cons] at h
    cases hstep : out.step header with
    | error e => simp [hstep, bind, Except.bind] at h
    | ok mid =>
      obtain ⟨hfields, hred⟩ := ih (by simpa [hstep, bind, Except.bind] using h)
      obtain ⟨hfields', hred'⟩ := HeaderMap.step_spec hstep
      refine ⟨by rw [hfields, hfields']; simp, ?_⟩
      rcases hred with ⟨hnone, hmid | hmem⟩ | ⟨names, hmid, hout⟩
      · rcases hred' with ⟨-, hlost | hkey⟩ | ⟨names', -, hsome⟩
        · exact .inl ⟨hnone, .inl hlost⟩
        · exact .inl ⟨hnone, .inr (by simp [hkey])⟩
        · simp [hmid] at hsome
      · exact .inl ⟨hnone, .inr (List.mem_cons_of_mem _ hmem)⟩
      rcases hred' with ⟨hlost, -⟩ | ⟨names', hout', hmid'⟩
      · simp [hlost] at hmid
      refine .inr ⟨names', hout', ?_⟩
      obtain rfl : names' ++ [header.1].filter isSensitiveHeader = names := by simpa [hmid'] using hmid
      rw [hout, List.append_assoc, ← List.filter_append]
      rfl

theorem IterationOrder.forall₂_apply {α β : Type} {R : α → β → Prop} (order : IterationOrder) (path : List Nat)
    {l : List α} {l' : List β} (h : List.Forall₂ R l l') : List.Forall₂ R (order.apply path l) (order.apply path l') := by
  unfold IterationOrder.apply
  rw [h.length_eq]
  induction order.visit path l'.length with
  | nil => exact .nil
  | cons i rest ih =>
    rw [filterMap_cons, filterMap_cons]
    rcases lt_or_ge i l.length with hi | hi
    · have hi' : i < l'.length := h.length_eq ▸ hi
      rw [getElem?_eq_getElem hi, getElem?_eq_getElem hi']
      exact .cons (h.get hi hi') ih
    have hi' : l'.length ≤ i := h.length_eq ▸ hi
    rw [getElem?_eq_none hi, getElem?_eq_none hi']
    exact ih

def redactedNames (order : IterationOrder) (path : List Nat) (headers : AnyMap) : List Text :=
  (order.apply path (headers.toList.map Prod.fst)).filter isSensitiveHeader

theorem collectHeaders_standsFor {version : Text} {order : IterationOrder} {path : List Nat}
    {kept : List (Text × Value)} {headers : AnyMap} {w : Value} (hkept : standForEntries kept headers)
    (hh : headers.Canonical) (h : collectHeaders version (order.apply path kept) = .ok w) :
    w.StandsFor (.obj (headerMetadata version (redactedNames order path headers) headers)) := by
  have hentries := order.forall₂_apply path hkept.forall₂
  have hperm : AnyMap.ofEntries (order.apply path headers.toList) = headers :=
    AnyMap.ofEntries_perm hh (order.apply_perm path headers.toList)
  have hkeys : (order.apply path kept).map Prod.fst = order.apply path (headers.toList.map Prod.fst) := by
    rw [order.map_apply, hkept.keys]
  -- the entries before those of the headers
  have hversion := hentries.cons (a := ("redaction_policy_version".toList, textValue version))
    (b := ("redaction_policy_version".toList, .str version)) ⟨rfl, standsFor_textValue version⟩
  have hbase := hversion.cons (a := ("input_redacted".toList, .bool true))
    (b := ("input_redacted".toList, .bool true)) ⟨rfl, standsFor_bool true⟩
  have hcanon' := AnyMap.canonical_insertNew "redaction_policy_version".toList (v := .str version) trivial hh
  have hcanon := AnyMap.canonical_insertNew "input_redacted".toList (v := .bool true) trivial hcanon'
  unfold collectHeaders at h
  cases hfold : (order.apply path kept).foldlM HeaderMap.step (HeaderMap.start version) with
  | error e => simp [hfold, Except.map] at h
  | ok out =>
    obtain rfl : out.toValue = w := by simpa [hfold, Except.map] using h
    obtain ⟨hfields, hred⟩ := HeaderMap.foldlM_step hfold
    rcases hred with ⟨hnone, hstart | hmem⟩ | ⟨names, hstart, hout⟩
    · simp [HeaderMap.start] at hstart
    · -- a header took the place of the list
      obtain ⟨v, hv⟩ : ∃ v, headers.get? "sensitive_fields_redacted".toList = some v := by
        rw [hkeys] at hmem
        obtain ⟨e, he, hkey⟩ := List.mem_map.mp ((order.apply_perm path _).subset hmem)
        exact ⟨e.2, (AnyMap.get?_eq_some_iff hh).mpr (hkey ▸ he)⟩
      have hsame : headerMetadata version (redactedNames order path headers) headers =
          (headers.insertNew "redaction_policy_version".toList (.str version)).insertNew
            "input_redacted".toList (.bool true) := by
        apply AnyMap.insertNew_of_get? (w := v) hcanon
        rw [AnyMap.get?_insertNew hcanon', AnyMap.get?_insertNew hh, hv]
        rfl
      rw [HeaderMap.toValue, hnone, hfields, hsame]
      have hstand := standForEntries_mapEntries hbase
      rw [AnyMap.ofEntries, List.foldr_cons, List.foldr_cons, ← AnyMap.ofEntries, hperm] at hstand
      exact standsFor_object hstand hcanon
    cases hstart
    rw [List.nil_append, hkeys] at hout
    rw [HeaderMap.toValue, hout, hfields]
    have hstand := standForEntries_mapEntries (hbase.cons
      (a := ("sensitive_fields_redacted".toList, textsValue (redactedNames order path headers)))
      (b := ("sensitive_fields_redacted".toList, textsOf (redactedNames order path headers)))
      ⟨rfl, standsFor_textsValue _⟩)
    rw [AnyMap.ofEntries, List.foldr_cons, List.foldr_cons, List.foldr_cons, ← AnyMap.ofEntries, hperm] at hstand
    exact standsFor_object hstand (headerMetadata_canonical version _ hh)

structure Place where
  path : List Nat
  value : Any
  purpose : Text

def headerPlaces (path : List Nat) (i : Nat) : AnyMap → List Place
  | .nil => []
  | .cons key child rest =>
    (match headerTreatment key with
      | .replace purpose _ => [⟨path ++ [i], child, purpose⟩]
      | _ => []) ++ headerPlaces path (i + 1) rest

def headersPlaces (path : List Nat) : Any → List Place
  | .obj headers => headerPlaces path 0 headers
  | value => [⟨path, value, "sensitive_header"⟩]

mutual

def places (url : URLParser) (path : List Nat) (parentKey : Text) : Any → List Place
  | .obj fields => if (inputRefMetadata fields).isSome then [] else fieldPlaces url path 0 fields
  | .arr items => itemPlaces url path parentKey 0 items
  | .str value =>
    match stringTreatment parentKey value with
    | .replace purpose _ => [⟨path, .str value, purpose⟩]
    | _ => []
  | _ => []

def itemPlaces (url : URLParser) (path : List Nat) (parentKey : Text) (i : Nat) : Anys → List Place
  | .nil => []
  | .cons v rest => places url (path ++ [i]) parentKey v ++ itemPlaces url path parentKey (i + 1) rest

def fieldPlaces (url : URLParser) (path : List Nat) (i : Nat) : AnyMap → List Place
  | .nil => []
  | .cons key child rest =>
    (match fieldTreatment url key child with
      | .keep => []
      | .headers => headersPlaces (path ++ [i]) child
      | .replace purpose _ => [⟨path ++ [i], child, purpose⟩]
      | .descend => places url (path ++ [i]) (normalizeInputKey key) child) ++
    fieldPlaces url path (i + 1) rest

end

namespace ProtectionState

variable {N C : Type} (s : ProtectionState N C)

def refImage (path : List Nat) (value : Any) (purpose summary : Text) : Any :=
  .obj (refMap (s.draws.newID path) (valueToInputString value) s.cipher.keyVersion purpose summary)

def headerValuesImage (path : List Nat) (i : Nat) : AnyMap → AnyMap
  | .nil => .nil
  | .cons key child rest =>
    .cons key
      (match headerTreatment key with
        | .replace purpose summary => s.refImage (path ++ [i]) child purpose summary
        | _ => child)
      (headerValuesImage path (i + 1) rest)

def headersImage (path : List Nat) : Any → Any
  | .obj headers =>
    .obj (headerMetadata inputReferenceRedactionPolicyVersion (redactedNames s.draws.order path headers)
      (s.headerValuesImage path 0 headers))
  | value => s.refImage path value "sensitive_header" (refSummary "headers")

mutual

def image (path : List Nat) (parentKey : Text) : Any → Any
  | .obj fields => if (inputRefMetadata fields).isSome then .obj fields else .obj (fieldsImage path 0 fields)
  | .arr items => .arr (itemsImage path parentKey 0 items)
  | .str value =>
    match stringTreatment parentKey value with
    | .replace purpose summary => s.refImage path (.str value) purpose summary
    | _ => .str (redactInlineInputAuth value)
  | value => value

def itemsImage (path : List Nat) (parentKey : Text) (i : Nat) : Anys → Anys
  | .nil => .nil
  | .cons v rest => .cons (image (path ++ [i]) parentKey v) (itemsImage path parentKey (i + 1) rest)

def fieldsImage (path : List Nat) (i : Nat) : AnyMap → AnyMap
  | .nil => .nil
  | .cons key child rest =>
    .cons key
      (match fieldTreatment s.url key child with
        | .keep => child
        | .headers => s.headersImage (path ++ [i]) child
        | .replace purpose summary => s.refImage (path ++ [i]) child purpose summary
        | .descend => image (path ++ [i]) (normalizeInputKey key) child)
      (fieldsImage path (i + 1) rest)

end

def refAt (path : List Nat) (value : Any) (purpose : Text) (nonce : N) : InputRef N C where
  id := s.draws.newID path
  tenantID := s.tenantID
  taskID := s.taskID
  purpose := purpose
  ciphertext :=
    s.cipher.encrypt nonce (valueToInputString value)
      (executionInputAssociatedData s.tenantID s.taskID (s.draws.newID path) purpose s.cipher.keyVersion)
  nonce := nonce
  aad := executionInputAssociatedData s.tenantID s.taskID (s.draws.newID path) purpose s.cipher.keyVersion
  digest := sha256InputBytes (valueToInputString value)
  plaintextBytes := byteLength (valueToInputString value)
  contentType := []
  keyVersion := s.cipher.keyVersion

variable {path : List Nat} {value : Any} {purpose summary : Text} {w : Value} {refs : List (InputRef N C)}
  {r : Value × List (InputRef N C)} {headers : AnyMap}

theorem replace_spec (h : s.replace path value purpose summary = .ok (w, refs)) :
    byteLength (valueToInputString value) < 2 ^ 63 ∧
      ∃ nonce, refs = [s.refAt path value purpose nonce] ∧
        w = encryptedInputRefMetadata (s.refAt path value purpose nonce) summary := by
  unfold replace buildRef at h
  dsimp only at h
  split at h
  · simp [bind, Except.bind] at h
  next hlen =>
  split at h
  · simp [bind, Except.bind] at h
  next nonce hnonce =>
  obtain ⟨rfl, rfl⟩ : encryptedInputRefMetadata (s.refAt path value purpose nonce) summary = w ∧
      [s.refAt path value purpose nonce] = refs := by
    simpa [refAt, bind, Except.bind, pure, Except.pure] using h
  exact ⟨not_le.mp hlen, nonce, rfl, rfl⟩

theorem replace_standsFor (h : s.replace path value purpose summary = .ok (w, refs)) :
    w.StandsFor (s.refImage path value purpose summary) := by
  obtain ⟨hlen, nonce, -, rfl⟩ := s.replace_spec h
  refine standsFor_object ?_ (refMap_canonical _ _ _ _ _)
  exact ⟨rfl, standsFor_bool true, rfl, standsFor_textValue _, rfl, standsFor_natValue hlen, rfl,
    standsFor_textValue _, rfl, standsFor_textValue _, rfl, standsFor_bool true, rfl, standsFor_textValue _,
    rfl, standsFor_textValue _, rfl, standsFor_textValue _, rfl, standsFor_textValue _, rfl,
    standsFor_textsValue [purpose], trivial⟩

theorem keep_standsFor (hv : value.Canonical)
    (h : keep value = .ok (w, refs)) : w.StandsFor value ∧ refs = [] := by
  unfold keep writeAny at h
  cases hw : value.toValue with
  | none => simp [hw, bind, Except.bind] at h
  | some x =>
    obtain ⟨rfl, rfl⟩ : x = w ∧ [] = refs := by simpa [hw, bind, Except.bind, pure, Except.pure] using h
    exact ⟨value.standsFor hv hw, rfl⟩

def MadeFor (ref : InputRef N C) (place : Place) : Prop :=
  ∃ nonce, ref = s.refAt place.path place.value place.purpose nonce

structure Returns (result : Value × List (InputRef N C)) (a : Any) (ps : List Place) : Prop where
  standsFor : result.1.StandsFor a
  refs : List.Forall₂ s.MadeFor result.2 ps

theorem replace_returns (h : s.replace path value purpose summary = .ok r) :
    s.Returns r (s.refImage path value purpose summary) [⟨path, value, purpose⟩] := by
  obtain ⟨-, nonce, hrefs, -⟩ := s.replace_spec h
  refine ⟨s.replace_standsFor h, ?_⟩
  rw [hrefs]
  exact .cons ⟨nonce, rfl⟩ .nil

theorem keep_returns (hv : value.Canonical)
    (h : keep value = .ok r) : s.Returns r value [] := by
  obtain ⟨hstand, hrefs⟩ := keep_standsFor hv h
  exact ⟨hstand, hrefs ▸ .nil⟩

theorem keys_headerValuesImage (path : List Nat) (i : Nat) (headers : AnyMap) :
    (s.headerValuesImage path i headers).toList.map Prod.fst = headers.toList.map Prod.fst := by
  induction headers generalizing i with
  | nil => rfl
  | cons key child rest ih => simp [headerValuesImage, toList, ih]

theorem above_headerValuesImage {key : Text} (h : headers.Above key) (path : List Nat) (i : Nat) :
    (s.headerValuesImage path i headers).Above key := by
  induction headers generalizing i with
  | nil => trivial
  | cons k child rest ih => exact ⟨h.1, ih h.2 (i + 1)⟩

theorem refImage_canonical (path : List Nat) (value : Any) (purpose summary : Text) :
    (s.refImage path value purpose summary).Canonical :=
  refMap_canonical _ _ _ _ _

theorem headerValuesImage_canonical (h : headers.Canonical) (path : List Nat) (i : Nat) :
    (s.headerValuesImage path i headers).Canonical := by
  induction headers generalizing i with
  | nil => trivial
  | cons key child rest ih =>
    refine ⟨s.above_headerValuesImage h.1 path (i + 1), ?_, ih h.2.2 (i + 1)⟩
    cases headerTreatment key with
    | replace purpose summary => exact s.refImage_canonical _ _ _ _
    | keep => exact h.2.1
    | headers => exact h.2.1
    | descend => exact h.2.1

theorem above_fieldsImage {key : Text} {fields : AnyMap} (h : fields.Above key) (path : List Nat) (i : Nat) :
    (s.fieldsImage path i fields).Above key := by
  induction fields generalizing i with
  | nil => trivial
  | cons k child rest ih =>
    rw [fieldsImage]
    exact ⟨h.1, ih h.2 (i + 1)⟩

theorem protectHeaderValues_returns (hh : headers.Canonical) {i : Nat}
    {kept : List (Text × Value)}
    (h : s.protectHeaderValues path i headers = .ok (kept, refs)) :
    standForEntries kept (s.headerValuesImage path i headers) ∧
      List.Forall₂ s.MadeFor refs (headerPlaces path i headers) := by
  induction headers generalizing i kept refs with
  | nil =>
    cases h
    exact ⟨trivial, .nil⟩
  | cons key child rest ih =>
    obtain ⟨-, hchild, hrest⟩ := hh
    rw [protectHeaderValues] at h
    obtain ⟨⟨w, first⟩, hfirst, h⟩ := exists_of_bind_ok h
    obtain ⟨⟨ws, more⟩, hmore, h⟩ := exists_of_bind_ok h
    cases h
    obtain ⟨hws, hrefs⟩ := ih hrest hmore
    rw [headerValuesImage, headerPlaces]
    have hreturns : s.Returns (w, first)
        (match headerTreatment key with
          | .replace purpose summary => s.refImage (path ++ [i]) child purpose summary
          | _ => child)
        (match headerTreatment key with
          | .replace purpose _ => [⟨path ++ [i], child, purpose⟩]
          | _ => []) := by
      cases htreat : headerTreatment key with
      | replace purpose summary =>
        rw [htreat] at hfirst
        exact s.replace_returns hfirst
      | _ =>
        rw [htreat] at hfirst
        exact s.keep_returns hchild hfirst
    exact ⟨⟨rfl, hreturns.standsFor, hws⟩, rel_append hreturns.refs hrefs⟩

theorem redactedNames_headerValuesImage (path : List Nat) (headers : AnyMap) :
    redactedNames s.draws.order path (s.headerValuesImage path 0 headers) =
      redactedNames s.draws.order path headers := by
  rw [redactedNames, redactedNames, keys_headerValuesImage]

theorem protectHeaders_returns (hv : value.Canonical)
    (h : s.protectHeaders path value = .ok r) :
    s.Returns r (s.headersImage path value) (headersPlaces path value) := by
  cases value with
  | obj headers =>
    rw [protectHeaders] at h
    obtain ⟨⟨kept, refs⟩, hkept, h⟩ := exists_of_bind_ok h
    obtain ⟨w, hw, h⟩ := exists_of_bind_ok h
    cases h
    obtain ⟨hstand, hrefs⟩ := s.protectHeaderValues_returns hv hkept
    refine ⟨?_, hrefs⟩
    have hmeta := collectHeaders_standsFor hstand (s.headerValuesImage_canonical hv path 0) hw
    rwa [redactedNames_headerValuesImage] at hmeta
  | _ => exact s.replace_returns h

mutual

theorem protect_returns (v : Any) (hv : v.Canonical) {path : List Nat} {parentKey : Text}
    {r : Value × List (InputRef N C)} (h : s.protect path parentKey v = .ok r) :
    s.Returns r (s.image path parentKey v) (places s.url path parentKey v) := by
  cases v with
  | obj fields =>
    rw [protect] at h
    rw [image, places]
    split at h
    · next refID purpose hmeta =>
      rw [hmeta, Option.isSome_some, if_pos rfl, if_pos rfl]
      split at h
      · simp at h
      · exact s.keep_returns hv h
    next hmeta =>
    rw [hmeta, Option.isSome_none, if_neg Bool.false_ne_true, if_neg Bool.false_ne_true]
    obtain ⟨⟨ms, refs⟩, hms, h⟩ := exists_of_bind_ok h
    cases h
    obtain ⟨hstand, hcanon, hrefs⟩ := protectFields_returns fields hv hms
    exact ⟨standsFor_object hstand hcanon, hrefs⟩
  | arr items =>
    rw [protect] at h
    rw [image, places]
    obtain ⟨⟨ws, refs⟩, hws, h⟩ := exists_of_bind_ok h
    cases h
    obtain ⟨hstand, hrefs⟩ := protectItems_returns items hv hws
    exact ⟨standsFor_array hstand, hrefs⟩
  | str t =>
    rw [protect] at h
    rw [image, places]
    cases htreat : stringTreatment parentKey t with
    | replace purpose summary =>
      rw [htreat] at h
      exact s.replace_returns h
    | _ =>
      rw [htreat] at h
      cases h
      exact ⟨standsFor_textValue _, .nil⟩
  | _ => exact s.keep_returns hv h

theorem protectItems_returns (items : Anys) (hi : items.Canonical) {path : List Nat} {parentKey : Text} {i : Nat}
    {ws : List Value} {refs : List (InputRef N C)} (h : s.protectItems path parentKey i items = .ok (ws, refs)) :
    standForItems ws (s.itemsImage path parentKey i items) ∧
      List.Forall₂ s.MadeFor refs (itemPlaces s.url path parentKey i items) := by
  cases items with
  | nil =>
    cases h
    exact ⟨trivial, .nil⟩
  | cons v rest =>
    rw [protectItems] at h
    obtain ⟨⟨w, first⟩, hfirst, h⟩ := exists_of_bind_ok h
    obtain ⟨⟨ws', more⟩, hmore, h⟩ := exists_of_bind_ok h
    cases h
    have hv := protect_returns v hi.1 hfirst
    obtain ⟨hws, hrefs⟩ := protectItems_returns rest hi.2 hmore
    rw [itemsImage, itemPlaces]
    exact ⟨⟨hv.standsFor, hws⟩, rel_append hv.refs hrefs⟩

theorem protectFields_returns (fields : AnyMap) (hf : fields.Canonical) {path : List Nat} {i : Nat}
    {ms : List (Text × Value)} {refs : List (InputRef N C)} (h : s.protectFields path i fields = .ok (ms, refs)) :
    standForEntries ms (s.fieldsImage path i fields) ∧ (s.fieldsImage path i fields).Canonical ∧
      List.Forall₂ s.MadeFor refs (fieldPlaces s.url path i fields) := by
  cases fields with
  | nil =>
    cases h
    exact ⟨trivial, trivial, .nil⟩
  | cons key child rest =>
    obtain ⟨habove, hchild, hrest⟩ := hf
    rw [protectFields] at h
    obtain ⟨⟨w, first⟩, hfirst, h⟩ := exists_of_bind_ok h
    obtain ⟨⟨ws, more⟩, hmore, h⟩ := exists_of_bind_ok h
    cases h
    obtain ⟨hws, hcanon, hrefs⟩ := protectFields_returns rest hrest hmore
    rw [fieldsImage, fieldPlaces]
    have hreturns : s.Returns (w, first)
        (match fieldTreatment s.url key child with
          | .keep => child
          | .headers => s.headersImage (path ++ [i]) child
          | .replace purpose summary => s.refImage (path ++ [i]) child purpose summary
          | .descend => s.image (path ++ [i]) (normalizeInputKey key) child)
        (match fieldTreatment s.url key child with
          | .keep => []
          | .headers => headersPlaces (path ++ [i]) child
          | .replace purpose _ => [⟨path ++ [i], child, purpose⟩]
          | .descend => places s.url (path ++ [i]) (normalizeInputKey key) child) := by
      cases htreat : fieldTreatment s.url key child with
      | keep =>
        rw [htreat] at hfirst
        exact s.keep_returns hchild hfirst
      | headers =>
        rw [htreat] at hfirst
        exact s.protectHeaders_returns hchild hfirst
      | replace purpose summary =>
        rw [htreat] at hfirst
        exact s.replace_returns hfirst
      | descend =>
        rw [htreat] at hfirst
        exact protect_returns child hchild hfirst
    exact ⟨⟨rfl, hreturns.standsFor, hws⟩,
      ⟨s.above_fieldsImage habove path (i + 1), hreturns.standsFor.canonical, hcanon⟩,
      rel_append hreturns.refs hrefs⟩

end

end ProtectionState

theorem protect_of_protectTaskDefinitionInputs {N C : Type} {cipher : InputCipher N C} {url : URLParser}
    {draws : Draws N} {raw tenantID definition : Text} {taskID : Uuid} {refs : List (InputRef N C)} {v : Any}
    (hraw : (parse raw).bind Value.toAny = some v)
    (h : protectTaskDefinitionInputs (some cipher) url draws raw tenantID taskID = .ok (definition, refs)) :
    ∃ w, ProtectionState.protect ⟨tenantID, taskID, cipher, url, draws⟩ [] [] v = .ok (w, refs) ∧
      w.print = definition := by
  have hne : ¬raw.isEmpty = true := by
    intro hempty
    rw [List.isEmpty_iff.mp hempty] at hraw
    simp [parse, parseValue] at hraw
  unfold protectTaskDefinitionInputs at h
  rw [if_neg hne, hraw] at h
  dsimp only at h
  obtain ⟨⟨w, refs'⟩, hprotect, h⟩ := exists_of_bind_ok h
  cases h
  exact ⟨w, hprotect, rfl⟩

end Overture
