import Overture.Api.ResponseHeaders

/-!
# Which secrets a redacted response tells

Two documents are followed side by side: for every kind of member, the values kept for it agree up to digests and
lengths if and only if their difference is a hidden one. What was decoded is redacted to a value that can be written,
so this holds of the messages as well.
-/

namespace Overture.ResponseSecrecy

open Json AnyMap Option List

theorem obj_of_differs {fields : AnyMap} {v' : Any} (h : Differs (.obj fields) v') :
    ∃ fields', v' = .obj fields' ∧ DiffersFields fields fields' := by
  cases v' with
  | obj fields' => exact ⟨fields', rfl, by rwa [Differs] at h⟩
  | _ => simp [Differs] at h

theorem obj_of_differs_obj {v : Any} {fields' : AnyMap} (h : Differs v (.obj fields')) : ∃ fields, v = .obj fields := by
  cases v with
  | obj fields => exact ⟨fields, rfl⟩
  | _ => simp [Differs] at h

theorem headersRedacted_of_differs {headers : AnyMap} : ∀ {headers' : AnyMap}, DiffersFields headers headers' →
    headersRedacted headers = headersRedacted headers' := by
  induction headers using entries_induction with
  | nil =>
    intro headers' h
    cases headers' with
    | nil => rfl
    | cons key' v' rest' => simp [DiffersFields] at h
  | cons key v rest ih =>
    intro headers' h
    cases headers' with
    | nil => simp [DiffersFields] at h
    | cons key' v' rest' =>
      rw [DiffersFields] at h
      obtain ⟨rfl, hvalue, hrest⟩ := h
      have hnext := ih hrest
      rw [headersRedacted, headersRedacted] at hnext
      rw [headersRedacted, headersRedacted, get?, get?]
      split
      · next hkey =>
        subst hkey
        -- the key is not a sensitive one
        have hsensitive : responseKeySensitive "input_redacted" = false := by decide +kernel
        have hurl : normalizeResponseKey "input_redacted" ≠ "url" := by decide +kernel
        rcases hvalue with hvalue | hvalue | hvalue
        · rw [hsensitive] at hvalue
          cases hvalue
        · exact absurd hvalue.1 hurl
        have hiff : v = .bool true ↔ v' = .bool true := by
          cases v <;> cases v' <;> simp_all [Differs]
        rw [Bool.eq_iff_iff, beq_iff_eq, beq_iff_eq, some.injEq, some.injEq]
        exact hiff
      · exact hnext

theorem not_private_of_brace {c : Char} (hc : c ≠ ':') (t : Text) :
    looksLikePrivateResponsePath ('\x7b' :: c :: t) = false := by
  have hprefix : Text.trimSpace ('\x7b' :: c :: t) <+: '\x7b' :: c :: t := Text.trimSpace_prefix (by decide)
  rw [looksLikePrivateResponsePath, looksLikePrivatePath.eq_def]
  dsimp only
  generalize Text.trimSpace ('\x7b' :: c :: t) = trimmed at hprefix ⊢
  cases trimmed with
  | nil => rfl
  | cons a rest =>
    obtain ⟨rfl, hrest⟩ := List.cons_prefix_cons.mp hprefix
    cases rest with
    | nil => rfl
    | cons b rest =>
      obtain ⟨rfl, -⟩ := List.cons_prefix_cons.mp hrest
      split
      · next heq =>
        simp only [List.cons.injEq] at heq
        exact absurd heq.2.1 hc
      · rfl

theorem not_private_obj (fields : AnyMap) : looksLikePrivateResponsePath (valueToString (.obj fields)) = false := by
  rw [valueToString, valueToInputString, Any.toValue]
  · cases fields.toMembers with
    | none => decide +kernel
    | some ms =>
      change looksLikePrivateResponsePath (Value.object ms).print = false
      have hprint : ∃ c t, (Value.object ms).print = '\x7b' :: c :: t ∧ c ≠ ':' := by
        cases ms with
        | nil => exact ⟨_, _, rfl, by decide⟩
        | cons m rest =>
          cases rest with
          | nil | cons m' rest => exact ⟨_, _, rfl, by decide⟩
      obtain ⟨c, t, hprint, hc⟩ := hprint
      rw [hprint]
      exact not_private_of_brace hc t
  · intro s
    exact Any.noConfusion

theorem shade_envelope_ne {url : URLParser} {order : IterationOrder} {path : List Nat} {child w : Any} (t : Text)
    (hobj : ∀ fields, child ≠ .obj fields) (h : sanitizeResponseValue url order path child = some w) :
    shade (safeResponsePathEnvelope t) ≠ shade w := by
  cases child with
  | obj fields => exact absurd rfl (hobj fields)
  | arr items =>
    obtain ⟨ws, -, rfl⟩ := map_eq_some_iff.mp h
    exact nofun
  | str s =>
    cases h
    rw [sanitizeResponseString]
    split
    · exact nofun
    · exact nofun
  | _ => cases h; intro heq; cases heq

/-! ## Which differences are told -/

section Told

variable (url : URLParser) (order : IterationOrder)

def ValueSpec (v : Any) : Prop :=
  ∀ {v' : Any} {path : List Nat} {w w' : Any}, Differs v v' → sanitizeResponseValue url order path v = some w →
    sanitizeResponseValue url order path v' = some w' → (shade w = shade w' ↔ Hidden url v v')

def HeadersSpec (headers : AnyMap) : Prop :=
  ∀ {headers' : AnyMap} {path : List Nat} {i : Nat} {seen seen' : List (Text × Any)}, DiffersFields headers headers' →
    sanitizeResponseHeaders url order path i headers = some seen →
    sanitizeResponseHeaders url order path i headers' = some seen' →
    (seen.map shadeEntry = seen'.map shadeEntry ↔ HiddenHeaders url headers headers')

theorem keys_of_differs {fields : AnyMap} : ∀ {fields' : AnyMap}, DiffersFields fields fields' →
    fields.toList.map Prod.fst = fields'.toList.map Prod.fst := by
  induction fields using AnyMap.entries_induction with
  | nil =>
    intro fields' h
    cases fields' with
    | nil => rfl
    | cons key' v' rest' => simp [DiffersFields] at h
  | cons key v rest ih =>
    intro fields' h
    cases fields' with
    | nil => simp [DiffersFields] at h
    | cons key' v' rest' =>
      rw [DiffersFields] at h
      rw [AnyMap.toList, AnyMap.toList, map_cons, map_cons, ih h.2.2, h.1]

variable {url order}

variable {path : List Nat} {w w' child child' : Any} {key : Text}

theorem kept_headers_iff {headers headers' : AnyMap} (hcanonical : headers.Canonical)
    (hheaders : HeadersSpec url order headers) (hdiffers : DiffersFields headers headers')
    (h : ((sanitizeResponseHeaders url order path 0 headers).bind fun seen =>
      collectResponseHeaders (order.apply path seen)) = some w)
    (h' : ((sanitizeResponseHeaders url order path 0 headers').bind fun seen =>
      collectResponseHeaders (order.apply path seen)) = some w') :
    shade w = shade w' ↔ HiddenHeaders url headers headers' := by
  obtain ⟨seen, hseen, h⟩ := bind_eq_some_iff.mp h
  obtain ⟨seen', hseen', h'⟩ := bind_eq_some_iff.mp h'
  have hkeys := keys_of_headers url order hseen
  have hascending : Ascending seen := by
    have hpairwise := pairwise_map.mpr (ascending_toList hcanonical)
    rw [← hkeys] at hpairwise
    exact pairwise_map.mp hpairwise
  rw [← hheaders hdiffers hseen hseen']
  apply shade_collect_iff hascending _ h h'
  rw [hkeys, keys_of_headers url order hseen', keys_of_differs hdiffers]

theorem kept_path_iff (hvalue : ValueSpec url order child)
    (hname : normalizeResponseKey key = "path".toList) (hsensitive : ¬responseKeySensitive key = true)
    (hdiffers : Differs child child') (h : keptValue url order path key child = some w)
    (h' : keptValue url order path key child' = some w') :
    shade w = shade w' ↔
      if looksLikePrivateResponsePath (valueToString child) = true ∨
          looksLikePrivateResponsePath (valueToString child') = true then
        looksLikePrivateResponsePath (valueToString child) = true ∧
          looksLikePrivateResponsePath (valueToString child') = true
      else Hidden url child child' := by
  have hkept (c : Any) : keptValue url order path key c =
      if looksLikePrivateResponsePath (valueToString c) = true then some (safeResponsePathEnvelope (valueToString c))
      else sanitizeResponseValue url order path c := by
    have hurl : ("path".toList == "url".toList) = false := by decide
    have hheaders : ("path".toList == "headers".toList) = false := by decide
    rw [keptValue.eq_def, if_neg hsensitive, hname, hurl, hheaders, beq_self_eq_true, Bool.true_and,
      if_neg Bool.false_ne_true, if_neg Bool.false_ne_true]
  rw [hkept] at h h'
  by_cases hp : looksLikePrivateResponsePath (valueToString child) = true
  · rw [if_pos hp] at h
    by_cases hp' : looksLikePrivateResponsePath (valueToString child') = true
    · rw [if_pos hp'] at h'
      cases h
      cases h'
      rw [if_pos (.inl hp)]
      exact iff_of_true (shade_safeResponsePathEnvelope _ _) ⟨hp, hp'⟩
    rw [if_neg hp'] at h'
    rw [if_pos (.inl hp)]
    cases h
    refine iff_of_false (shade_envelope_ne _ ?_ h') fun hboth => hp' hboth.2
    rintro fields' rfl
    obtain ⟨fields, rfl⟩ := obj_of_differs_obj hdiffers
    rw [not_private_obj] at hp
    cases hp
  rw [if_neg hp] at h
  by_cases hp' : looksLikePrivateResponsePath (valueToString child') = true
  · rw [if_pos hp'] at h'
    rw [if_pos (.inr hp')]
    cases h'
    refine iff_of_false (fun heq => shade_envelope_ne _ ?_ h heq.symm) fun hboth => hp hboth.1
    rintro fields rfl
    obtain ⟨fields', rfl, -⟩ := obj_of_differs hdiffers
    rw [not_private_obj] at hp'
    cases hp'
  · rw [if_neg hp'] at h'
    rw [if_neg (not_or_intro hp hp')]
    exact hvalue hdiffers h h'

theorem kept_iff (hcanonical : child.Canonical)
    (hvalue : ValueSpec url order child) (hheaders : ∀ headers, child = .obj headers → HeadersSpec url order headers)
    (hdiffers : responseKeySensitive key = true ∨ (normalizeResponseKey key = "url" ∧ SameURL child child') ∨
      Differs child child')
    (h : keptValue url order path key child = some w) (h' : keptValue url order path key child' = some w') :
    shade w = shade w' ↔ responseKeySensitive key = true ∨ KeptHidden url key child child' := by
  by_cases hsensitive : responseKeySensitive key = true
  · rw [keptValue.eq_def, if_pos hsensitive] at h h'
    cases h
    cases h'
    exact iff_of_true (shade_redactedText _ _ _) (.inl hsensitive)
  rw [or_iff_right hsensitive, KeptHidden.eq_def]
  by_cases hpath : normalizeResponseKey key = "path"
  · have hurl : normalizeResponseKey key ≠ "url" := by rw [hpath]; decide
    have hnotHeaders : normalizeResponseKey key ≠ "headers" := by rw [hpath]; decide
    have hvalues : Differs child child' := (hdiffers.resolve_left hsensitive).resolve_left fun hd => hurl hd.1
    rw [kept_path_iff hvalue hpath hsensitive hvalues h h', if_neg hurl, if_neg hnotHeaders]
    simp only [hpath, true_and]
  rw [if_neg fun hd => hpath hd.1]
  have hpath' : (normalizeResponseKey key == "path") = false := beq_false_of_ne hpath
  rw [keptValue.eq_def, if_neg hsensitive, hpath', Bool.false_and, if_neg Bool.false_ne_true] at h h'
  by_cases hurl : normalizeResponseKey key = "url"
  · rw [if_pos (beq_iff_eq.mpr hurl)] at h h'
    cases h
    cases h'
    rw [if_pos hurl]
    exact shade_url_iff
  have hvalues : Differs child child' := (hdiffers.resolve_left hsensitive).resolve_left fun hd => hurl hd.1
  rw [if_neg (mt beq_iff_eq.mp hurl)] at h h'
  rw [if_neg hurl]
  by_cases hname : normalizeResponseKey key = "headers"
  · rw [if_pos (beq_iff_eq.mpr hname)] at h h'
    rw [if_pos hname]
    cases child with
    | obj headers =>
      obtain ⟨headers', rfl, hfields⟩ := obj_of_differs hvalues
      dsimp only at h h' ⊢
      rw [← headersRedacted_of_differs hfields] at h'
      by_cases hredacted : headersRedacted headers = true
      · rw [if_pos hredacted] at h h' ⊢
        have hiff := hvalue hvalues h h'
        rwa [Hidden] at hiff
      · rw [if_neg hredacted] at h h' ⊢
        exact kept_headers_iff hcanonical (hheaders headers rfl) hfields h h'
    | _ =>
      cases child' with
      | obj headers' =>
        obtain ⟨headers, hobj⟩ := obj_of_differs_obj hvalues
        cases hobj
      | _ =>
        cases h
        cases h'
        exact iff_of_true (shade_inputRedactedText _ _ _) trivial
  · rw [if_neg (mt beq_iff_eq.mp hname)] at h h'
    rw [if_neg hname]
    exact hvalue hvalues h h'

theorem not_volatile_of_allowed (h : headerAllowed (normalizeResponseKey key) = true) :
    isVolatile key = false := by
  rw [Bool.eq_false_iff]
  intro hvolatile
  rw [isVolatile, contains_iff_mem] at hvolatile
  revert h
  simp only [volatileKeys, mem_cons, not_mem_nil, or_false] at hvolatile
  rcases hvolatile with rfl | rfl | rfl | rfl | rfl <;> decide +kernel

theorem header_iff (hvalue : ValueSpec url order child)
    (hdiffers : responseKeySensitive key = true ∨ (normalizeResponseKey key = "url" ∧ SameURL child child') ∨
      Differs child child')
    (h : (if responseKeySensitive key then some (inputRedactedText "sensitive_header" (valueToString child))
      else if headerAllowed (normalizeResponseKey key) then sanitizeResponseValue url order path child
      else some (inputRedactedText "non_allowlisted_header" (valueToString child))) = some w)
    (h' : (if responseKeySensitive key then some (inputRedactedText "sensitive_header" (valueToString child'))
      else if headerAllowed (normalizeResponseKey key) then sanitizeResponseValue url order path child'
      else some (inputRedactedText "non_allowlisted_header" (valueToString child'))) = some w') :
    shadeEntry (key, w) = shadeEntry (key, w') ↔
      responseKeySensitive key = true ∨ headerAllowed (normalizeResponseKey key) = false ∨ Hidden url child child' := by
  by_cases hsensitive : responseKeySensitive key = true
  · rw [if_pos hsensitive] at h h'
    cases h
    cases h'
    refine iff_of_true ?_ (.inl hsensitive)
    rw [shadeEntry, shadeEntry, shade_inputRedactedText]
  rw [if_neg hsensitive] at h h'
  by_cases hallowed : headerAllowed (normalizeResponseKey key) = true
  · rw [if_pos hallowed] at h h'
    have hurl : normalizeResponseKey key ≠ "url" := by
      intro hurl
      rw [hurl] at hallowed
      revert hallowed
      decide +kernel
    have hvalues : Differs child child' := (hdiffers.resolve_left hsensitive).resolve_left fun hd => hurl hd.1
    rw [or_iff_right hsensitive, or_iff_right (by simp [hallowed]), ← hvalue hvalues h h', shadeEntry, shadeEntry,
      not_volatile_of_allowed hallowed, if_neg Bool.false_ne_true, if_neg Bool.false_ne_true, Prod.mk.injEq]
    exact and_iff_right rfl
  rw [if_neg hallowed] at h h'
  cases h
  cases h'
  refine iff_of_true ?_ (.inr (.inl (Bool.not_eq_true _ ▸ hallowed)))
  rw [shadeEntry, shadeEntry, shade_inputRedactedText]

theorem leaf_spec {v : Any} (hkept : ∀ path, sanitizeResponseValue url order path v = some v)
    (hsame : ∀ {v' : Any}, Differs v v' → v' = v) (hhidden : Hidden url v v) : ValueSpec url order v := by
  intro v' path w w' hdiffers h h'
  obtain rfl := hsame hdiffers
  rw [hkept] at h h'
  cases h
  cases h'
  exact iff_of_true rfl hhidden

variable (url order)

mutual

theorem value_spec (v : Any) (hcanonical : v.Canonical) :
    ValueSpec url order v ∧ ∀ headers, v = .obj headers → HeadersSpec url order headers := by
  cases v with
  | obj fields =>
    constructor
    · intro v' path w w' hdiffers h h'
      obtain ⟨fields', rfl, hfields⟩ := obj_of_differs hdiffers
      obtain ⟨k, hk, rfl⟩ := map_eq_some_iff.mp h
      obtain ⟨k', hk', rfl⟩ := map_eq_some_iff.mp h'
      rw [Hidden, shade, shade, Any.obj.injEq]
      exact fields_spec fields hcanonical hfields hk hk'
    · rintro headers ⟨⟩
      exact headers_spec fields hcanonical
  | arr items =>
    refine ⟨?_, nofun⟩
    intro v' path w w' hdiffers h h'
    cases v' with
    | arr items' =>
      rw [Differs] at hdiffers
      obtain ⟨k, hk, rfl⟩ := map_eq_some_iff.mp h
      obtain ⟨k', hk', rfl⟩ := map_eq_some_iff.mp h'
      rw [Hidden, shade, shade, Any.arr.injEq]
      exact items_spec items hcanonical hdiffers hk hk'
    | _ => simp [Differs] at hdiffers
  | str s =>
    refine ⟨?_, nofun⟩
    intro v' path w w' hdiffers h h'
    cases v' with
    | str s' =>
      cases h
      cases h'
      rw [Hidden]
      exact shade_string_iff
    | _ => simp [Differs] at hdiffers
  | _ =>
    refine ⟨leaf_spec (fun _ => rfl) (fun {v'} hd => ?_) (by simp [Hidden]), nofun⟩
    cases v' <;> simp_all [Differs]

theorem items_spec (items : Anys) (hcanonical : items.Canonical) {items' : Anys} {path : List Nat} {i : Nat}
    {ws ws' : Anys} (hdiffers : DiffersItems items items') (h : sanitizeResponseItems url order path i items = some ws)
    (h' : sanitizeResponseItems url order path i items' = some ws') :
    shadeItems ws = shadeItems ws' ↔ HiddenItems url items items' := by
  cases items with
  | nil =>
    cases items' with
    | nil =>
      cases h
      cases h'
      exact iff_of_true rfl (by simp [HiddenItems])
    | cons v' rest' => simp [DiffersItems] at hdiffers
  | cons v rest =>
    cases items' with
    | nil => simp [DiffersItems] at hdiffers
    | cons v' rest' =>
      rw [DiffersItems] at hdiffers
      obtain ⟨w, hw, h⟩ := bind_eq_some_iff.mp h
      obtain ⟨ws, hws, h⟩ := bind_eq_some_iff.mp h
      obtain ⟨w', hw', h'⟩ := bind_eq_some_iff.mp h'
      obtain ⟨ws', hws', h'⟩ := bind_eq_some_iff.mp h'
      cases h
      cases h'
      rw [HiddenItems, shadeItems, shadeItems, Anys.cons.injEq, (value_spec v hcanonical.1).1 hdiffers.1 hw hw',
        items_spec rest hcanonical.2 hdiffers.2 hws hws']

theorem fields_spec (fields : AnyMap) (hcanonical : fields.Canonical) {fields' : AnyMap} {path : List Nat} {i : Nat}
    {k k' : AnyMap} (hdiffers : DiffersFields fields fields')
    (h : sanitizeResponseFields url order path i fields = some k)
    (h' : sanitizeResponseFields url order path i fields' = some k') :
    shadeFields k = shadeFields k' ↔ HiddenFields url fields fields' := by
  cases fields with
  | nil =>
    cases fields' with
    | nil =>
      cases h
      cases h'
      exact iff_of_true rfl (by simp [HiddenFields])
    | cons key' v' rest' => simp [DiffersFields] at hdiffers
  | cons key v rest =>
    cases fields' with
    | nil => simp [DiffersFields] at hdiffers
    | cons key' v' rest' =>
      rw [DiffersFields] at hdiffers
      obtain ⟨rfl, hvalues, hrest⟩ := hdiffers
      rw [sanitizeResponseFields_cons] at h h'
      obtain ⟨kept, hkept, h⟩ := bind_eq_some_iff.mp h
      obtain ⟨kept', hkept', h'⟩ := bind_eq_some_iff.mp h'
      have ih := fields_spec rest hcanonical.2.2 hrest hkept hkept'
      have hvalue := value_spec v hcanonical.2.1
      rw [hiddenFields_cons, ← ih]
      by_cases hdropped : responseKeyDropped (normalizeResponseKey key) = true
      · rw [if_pos hdropped] at h h'
        cases h
        cases h'
        exact (and_iff_right (.inl (sensitive_of_dropped hdropped))).symm
      rw [if_neg hdropped] at h h'
      obtain ⟨w, hw, rfl⟩ := map_eq_some_iff.mp h
      obtain ⟨w', hw', rfl⟩ := map_eq_some_iff.mp h'
      rw [shadeFields, shadeFields, AnyMap.cons.injEq, and_iff_right rfl]
      refine and_congr_left fun _ => ?_
      by_cases hvolatile : isVolatile key = true
      · rw [if_pos hvolatile, if_pos hvolatile]
        exact iff_of_true rfl (.inr (.inl hvolatile))
      · rw [if_neg hvolatile, if_neg hvolatile, or_iff_right hvolatile]
        exact kept_iff hcanonical.2.1 hvalue.1 hvalue.2 hvalues hw hw'

theorem headers_spec (headers : AnyMap) (hcanonical : headers.Canonical) : HeadersSpec url order headers := by
  intro headers' path i seen seen' hdiffers h h'
  cases headers with
  | nil =>
    cases headers' with
    | nil =>
      cases h
      cases h'
      exact iff_of_true rfl (by simp [HiddenHeaders])
    | cons key' v' rest' => simp [DiffersFields] at hdiffers
  | cons key v rest =>
    cases headers' with
    | nil => simp [DiffersFields] at hdiffers
    | cons key' v' rest' =>
      rw [DiffersFields] at hdiffers
      obtain ⟨rfl, hvalues, hrest⟩ := hdiffers
      rw [sanitizeResponseHeaders_cons] at h h'
      obtain ⟨w, hw, h⟩ := Option.bind_eq_some_iff.mp h
      obtain ⟨w', hw', h'⟩ := Option.bind_eq_some_iff.mp h'
      obtain ⟨ws, hws, rfl⟩ := Option.map_eq_some_iff.mp h
      obtain ⟨ws', hws', rfl⟩ := Option.map_eq_some_iff.mp h'
      rw [HiddenHeaders, List.map_cons, List.map_cons, List.cons.injEq,
        header_iff (value_spec v hcanonical.2.1).1 hvalues hw hw', headers_spec rest hcanonical.2.2 hrest hws hws']

end

end Told

/-! ## What is redacted can be written -/

section Readable

theorem numberOf_readable (n : Nat) : (numberOf n).Readable := by
  rw [numberOf]
  cases hparse : Float64.parse (Nat.toDigits 10 n) with
  | none => trivial
  | some x => exact Float64.parse_normal hparse

theorem textsOf_readable (ts : List Text) : (textsOf ts).Readable := by
  rw [textsOf]
  change Anys.Readable _
  induction ts with
  | nil => trivial
  | cons t ts ih => exact ⟨trivial, ih⟩

theorem redactedText_readable (reason t : Text) : (redactedText reason t).Readable :=
  ⟨numberOf_readable _, trivial, trivial, trivial, trivial, trivial⟩

theorem inputRedactedText_readable (reason t : Text) : (inputRedactedText reason t).Readable :=
  ⟨numberOf_readable _, trivial, trivial, trivial, trivial, textsOf_readable _, trivial⟩

theorem safeResponsePathEnvelope_readable (t : Text) : (safeResponsePathEnvelope t).Readable := by
  refine readable_insertNew (v := .str _) trivial ?_
  exact ⟨numberOf_readable _, trivial, trivial, trivial, trivial, textsOf_readable _, trivial⟩

theorem safeResponseURL_readable (url : URLParser) (t : Text) : (safeResponseURL url t).Readable := by
  rw [safeResponseURL_eq]
  cases absoluteURL url (Text.trimSpace t) with
  | none => trivial
  | some u =>
    dsimp only
    rw [urlMembers]
    split
    · exact ⟨numberOf_readable _, trivial, trivial, trivial, trivial, trivial, textsOf_readable _, trivial⟩
    · exact ⟨trivial, trivial, trivial, trivial⟩

theorem ofEntries_readable {l : List (Text × Any)} (h : ∀ e ∈ l, e.2.Readable) : (AnyMap.ofEntries l).Readable := by
  induction l with
  | nil => trivial
  | cons e l ih =>
    exact readable_insertNew (h e mem_cons_self) (ih fun e he => h e (mem_cons_of_mem _ he))

theorem collect_readable {headers : List (Text × Any)} {w : Any} (hheaders : ∀ e ∈ headers, e.2.Readable)
    (h : collectResponseHeaders headers = some w) : w.Readable := by
  obtain ⟨r, hr, rfl⟩ := map_eq_some_iff.mp h
  obtain ⟨-, hfields, -⟩ := fold_keys headers rfl rfl hr hr
  have hall : ∀ e ∈ r.fields, e.2.Readable := by
    intro e he
    rw [hfields, mem_append] at he
    rcases he with he | he
    · rw [ResponseHeaders.start, mem_cons, mem_singleton] at he
      rcases he with rfl | rfl <;> trivial
    · exact hheaders e he
  rw [ResponseHeaders.toAny]
  cases r.redacted with
  | none => exact ofEntries_readable hall
  | some names =>
    apply ofEntries_readable
    intro e he
    rcases mem_cons.mp he with rfl | he
    · exact textsOf_readable names
    · exact hall e he

variable {url : URLParser} {order : IterationOrder}

theorem kept_readable {child w : Any} {path : List Nat} {key : Text}
    (hvalue : ∀ {path : List Nat} {w : Any}, sanitizeResponseValue url order path child = some w → w.Readable)
    (hheaders : ∀ headers, child = .obj headers → ∀ {path : List Nat} {i : Nat} {seen : List (Text × Any)},
      sanitizeResponseHeaders url order path i headers = some seen → ∀ e ∈ seen, e.2.Readable)
    (h : keptValue url order path key child = some w) : w.Readable := by
  unfold keptValue at h
  split at h
  · cases h
    exact redactedText_readable _ _
  split at h
  · cases h
    exact safeResponsePathEnvelope_readable _
  split at h
  · cases h
    exact safeResponseURL_readable url _
  split at h
  · split at h
    · split at h
      · exact hvalue h
      · obtain ⟨seen, hseen, h⟩ := bind_eq_some_iff.mp h
        apply collect_readable _ h
        intro e he
        exact hheaders _ rfl hseen e ((order.apply_perm path seen).mem_iff.mp he)
    · cases h
      exact inputRedactedText_readable _ _
  · exact hvalue h

variable (url order)

mutual

theorem value_readable (v : Any) (hv : v.Readable) :
    (∀ {path : List Nat} {w : Any}, sanitizeResponseValue url order path v = some w → w.Readable) ∧
      ∀ headers, v = .obj headers → ∀ {path : List Nat} {i : Nat} {seen : List (Text × Any)},
        sanitizeResponseHeaders url order path i headers = some seen → ∀ e ∈ seen, e.2.Readable := by
  cases v with
  | obj fields =>
    constructor
    · intro path w h
      obtain ⟨k, hk, rfl⟩ := map_eq_some_iff.mp h
      exact fields_readable fields hv hk
    · rintro headers ⟨⟩ path i seen h
      exact headers_readable fields hv h
  | arr items =>
    refine ⟨?_, nofun⟩
    intro path w h
    obtain ⟨k, hk, rfl⟩ := map_eq_some_iff.mp h
    exact items_readable items hv hk
  | str s =>
    refine ⟨?_, nofun⟩
    intro path w h
    cases h
    rw [sanitizeResponseString]
    split
    · exact redactedText_readable _ _
    · trivial
  | _ => exact ⟨fun h => by cases h; exact hv, nofun⟩

theorem items_readable (items : Anys) (hitems : items.Readable) {path : List Nat} {i : Nat} {ws : Anys}
    (h : sanitizeResponseItems url order path i items = some ws) : ws.Readable := by
  cases items with
  | nil =>
    cases h
    trivial
  | cons v rest =>
    obtain ⟨w, hw, h⟩ := bind_eq_some_iff.mp h
    obtain ⟨ws, hws, h⟩ := bind_eq_some_iff.mp h
    cases h
    exact ⟨(value_readable v hitems.1).1 hw, items_readable rest hitems.2 hws⟩

theorem fields_readable (fields : AnyMap) (hfields : fields.Readable) {path : List Nat} {i : Nat} {k : AnyMap}
    (h : sanitizeResponseFields url order path i fields = some k) : k.Readable := by
  cases fields with
  | nil =>
    cases h
    trivial
  | cons key v rest =>
    rw [sanitizeResponseFields_cons] at h
    obtain ⟨kept, hkept, h⟩ := bind_eq_some_iff.mp h
    have hrest := fields_readable rest hfields.2 hkept
    have hvalue := value_readable v hfields.1
    split at h
    · cases h
      exact hrest
    · obtain ⟨w, hw, rfl⟩ := map_eq_some_iff.mp h
      exact ⟨kept_readable hvalue.1 hvalue.2 hw, hrest⟩

theorem headers_readable (headers : AnyMap) (hheaders : headers.Readable) {path : List Nat} {i : Nat}
    {seen : List (Text × Any)} (h : sanitizeResponseHeaders url order path i headers = some seen) :
    ∀ e ∈ seen, e.2.Readable := by
  cases headers with
  | nil =>
    cases h
    exact nofun
  | cons key v rest =>
    rw [sanitizeResponseHeaders_cons] at h
    obtain ⟨w, hw, h⟩ := bind_eq_some_iff.mp h
    obtain ⟨ws, hws, rfl⟩ := map_eq_some_iff.mp h
    have hvalue := value_readable v hheaders.1
    intro e he
    rcases mem_cons.mp he with rfl | he
    · split at hw
      · cases hw
        exact inputRedactedText_readable _ _
      · split at hw
        · exact hvalue.1 hw
        · cases hw
          exact inputRedactedText_readable _ _
    · exact headers_readable rest hheaders.2 hws e he

end

end Readable

inductive ResponseMessage where
  | same (raw : Text)
  | written (v : Any)

def sanitizeJSONRawMessage (url : URLParser) (order : IterationOrder) (raw : Text) : Option ResponseMessage :=
  if raw.isEmpty then some (.same raw)
  else
    match (parse raw).bind Value.toAny with
    | none => some (.written (redactedText "invalid_json" raw))
    | some value =>
      (sanitizeResponseValue url order [] value).map fun w =>
        if w.toValue.isSome then .written w else .written (redactedText "redaction_failed" raw)

theorem sanitizeJSONRawMessage_of_decodes {url : URLParser} {order : IterationOrder} {raw : Text} {v : Any}
    (h : (parse raw).bind Value.toAny = some v) :
    sanitizeJSONRawMessage url order raw = (sanitizeResponseValue url order [] v).map .written := by
  have hempty : ¬raw.isEmpty = true := by
    intro hempty
    rw [isEmpty_iff.mp hempty] at h
    cases h
  obtain ⟨value, -, hvalue⟩ := bind_eq_some_iff.mp h
  have hreadable := (value.toAny_spec hvalue).2.1
  unfold sanitizeJSONRawMessage
  rw [if_neg hempty, h]
  dsimp only
  cases hw : sanitizeResponseValue url order [] v with
  | none => rfl
  | some w =>
    obtain ⟨x, hx⟩ := w.toValue_isSome ((value_readable url order v hreadable).1 hw)
    simp only [map_some, hx, isSome_some, if_true]

/-- Two messages that differ in secrets are redacted to values that differ in digests and lengths only, if no
difference is told and no list of redacted headers is overwritten before it is used. -/
theorem response_secrecy_iff (url : URLParser) (order : IterationOrder) {raw raw' : Text} {v v' : Any}
    (hraw : (parse raw).bind Value.toAny = some v) (hraw' : (parse raw').bind Value.toAny = some v')
    (hdiffers : Differs v v') :
    (∃ w w', sanitizeJSONRawMessage url order raw = some (.written w) ∧
      sanitizeJSONRawMessage url order raw' = some (.written w') ∧ shade w = shade w') ↔
      returnsValue order [] v = true ∧ returnsValue order [] v' = true ∧ Hidden url v v' := by
  obtain ⟨value, -, hvalue⟩ := bind_eq_some_iff.mp hraw
  have hcanonical := (value.toAny_spec hvalue).1
  rw [sanitizeJSONRawMessage_of_decodes hraw, sanitizeJSONRawMessage_of_decodes hraw', ← isSome_value url order v,
    ← isSome_value url order v']
  constructor
  · rintro ⟨w, w', hw, hw', heq⟩
    obtain ⟨x, hx, hxw⟩ := map_eq_some_iff.mp hw
    obtain ⟨x', hx', hxw'⟩ := map_eq_some_iff.mp hw'
    cases hxw
    cases hxw'
    exact ⟨by rw [hx]; rfl, by rw [hx']; rfl, ((value_spec url order v hcanonical).1 hdiffers hx hx').mp heq⟩
  rintro ⟨hsome, hsome', hhidden⟩
  obtain ⟨w, hw⟩ := isSome_iff_exists.mp hsome
  obtain ⟨w', hw'⟩ := isSome_iff_exists.mp hsome'
  refine ⟨w, w', by rw [hw]; rfl, by rw [hw']; rfl, ?_⟩
  exact ((value_spec url order v hcanonical).1 hdiffers hw hw').mpr hhidden

/-- The password is told by its digest and its length only. -/
theorem password_not_told : ∃ w w',
    sanitizeJSONRawMessage httpsURLs placeDraws.order "\x7b\"password\":\"a\"\x7d".toList = some (.written w) ∧
      sanitizeJSONRawMessage httpsURLs placeDraws.order "\x7b\"password\":\"bb\"\x7d".toList = some (.written w') ∧
      shade w = shade w' := by
  have hsensitive : responseKeySensitive "password" = true := by decide +kernel
  have hdecodes : (parse "\x7b\"password\":\"a\"\x7d").bind Value.toAny =
      some (.obj (.cons "password" (.str "a") .nil)) := by decide +kernel
  have hdecodes' : (parse "\x7b\"password\":\"bb\"\x7d").bind Value.toAny =
      some (.obj (.cons "password" (.str "bb") .nil)) := by decide +kernel
  apply (response_secrecy_iff httpsURLs placeDraws.order hdecodes hdecodes' _).mpr
  · refine ⟨by decide +kernel, by decide +kernel, ?_⟩
    rw [Hidden, hiddenFields_cons]
    exact ⟨.inl hsensitive, by simp [HiddenFields]⟩
  · rw [Differs, DiffersFields]
    exact ⟨rfl, .inl hsensitive, by simp [DiffersFields]⟩

/-- The credential behind a marker is told: the marker is replaced and the credential is kept. -/
theorem credential_told : ∃ v v',
    (parse "\x7b\"note\":\"Bearer a\"\x7d".toList).bind Value.toAny = some v ∧
      (parse "\x7b\"note\":\"Bearer b\"\x7d".toList).bind Value.toAny = some v' ∧ Differs v v' ∧
      ¬∃ w w', sanitizeJSONRawMessage httpsURLs placeDraws.order "\x7b\"note\":\"Bearer a\"\x7d".toList =
          some (.written w) ∧
        sanitizeJSONRawMessage httpsURLs placeDraws.order "\x7b\"note\":\"Bearer b\"\x7d".toList =
          some (.written w') ∧ shade w = shade w' := by
  have hdecodes : (parse "\x7b\"note\":\"Bearer a\"\x7d").bind Value.toAny =
      some (.obj (.cons "note" (.str "Bearer a") .nil)) := by decide +kernel
  have hdecodes' : (parse "\x7b\"note\":\"Bearer b\"\x7d").bind Value.toAny =
      some (.obj (.cons "note" (.str "Bearer b") .nil)) := by decide +kernel
  have hkept : sanitizeResponseValue httpsURLs placeDraws.order []
      (.obj (.cons "note" (.str "Bearer a") .nil)) =
      some (.obj (.cons "note" (.str "[redacted-auth] a") .nil)) := by decide +kernel
  have hkept' : sanitizeResponseValue httpsURLs placeDraws.order []
      (.obj (.cons "note" (.str "Bearer b") .nil)) =
      some (.obj (.cons "note" (.str "[redacted-auth] b") .nil)) := by decide +kernel
  refine ⟨_, _, hdecodes, hdecodes', ?_, ?_⟩
  · rw [Differs, DiffersFields, Differs]
    exact ⟨rfl, .inr (.inr (by decide)), by simp [DiffersFields]⟩
  rintro ⟨w, w', hw, hw', heq⟩
  rw [sanitizeJSONRawMessage_of_decodes hdecodes, hkept] at hw
  rw [sanitizeJSONRawMessage_of_decodes hdecodes', hkept'] at hw'
  cases hw
  cases hw'
  revert heq
  decide +kernel

end Overture.ResponseSecrecy
