import Overture.Api.ResponseRedaction

/-!
# What a redacted response tells

Two documents that differ only in what must not be told (values under sensitive keys, queries and user information of
URLs, credentials behind an inline marker) should be redacted to documents that differ only in digests and lengths. The
redactor keeps the credential behind a marker, so they are not always; here is for which documents they are.
-/

namespace Overture.ResponseSecrecy

open Json AnyMap

def volatileKeys : List Text :=
  ["content_digest_sha256", "content_bytes", "input_digest_sha256", "input_bytes",
    "safe_path_digest"]

def isVolatile (key : Text) : Bool := volatileKeys.contains key

mutual

def shade : Any → Any
  | .obj fields => .obj (shadeFields fields)
  | .arr items => .arr (shadeItems items)
  | v => v

def shadeItems : Anys → Anys
  | .nil => .nil
  | .cons v rest => .cons (shade v) (shadeItems rest)

def shadeFields : AnyMap → AnyMap
  | .nil => .nil
  | .cons key v rest => .cons key (if isVolatile key then .null else shade v) (shadeFields rest)

end

/-- The text with every credential behind an inline marker left out, up to the next blank. -/
def maskAuth : Bool → Text → Text
  | _, [] => []
  | true, c :: rest => if Text.isSpace c then c :: maskAuth false rest else maskAuth true rest
  | false, 'B' :: 'e' :: 'a' :: 'r' :: 'e' :: 'r' :: ' ' :: rest => "Bearer " ++ maskAuth true rest
  | false, 'B' :: 'a' :: 's' :: 'i' :: 'c' :: ' ' :: rest => "Basic " ++ maskAuth true rest
  | false, c :: rest => c :: maskAuth false rest

def withoutUser (authority : Text) : Text := (authority.reverse.takeWhile (· != '@')).reverse

def maskURL (t : Text) : Text :=
  let front := (t.takeWhile (· != '#')).takeWhile (· != '?')
  let fragment := t.dropWhile (· != '#')
  let scheme := front.takeWhile (· != '/')
  match front.dropWhile (· != '/') with
  | '/' :: '/' :: rest =>
    scheme ++ "//" ++ withoutUser (rest.takeWhile (· != '/')) ++ rest.dropWhile (· != '/') ++ fragment
  | _ => front ++ fragment

def SameURL (v v' : Any) : Prop := ∃ s s', v = .str s ∧ v' = .str s' ∧ maskURL s = maskURL s'

mutual

def Differs : Any → Any → Prop
  | .obj fields, .obj fields' => DiffersFields fields fields'
  | .arr items, .arr items' => DiffersItems items items'
  | .str s, .str s' => maskAuth false s = maskAuth false s'
  | v, v' => v = v'

def DiffersItems : Anys → Anys → Prop
  | .nil, .nil => True
  | .cons v rest, .cons v' rest' => Differs v v' ∧ DiffersItems rest rest'
  | _, _ => False

def DiffersFields : AnyMap → AnyMap → Prop
  | .nil, .nil => True
  | .cons key v rest, .cons key' v' rest' => key = key' ∧
    (responseKeySensitive key = true ∨ (normalizeResponseKey key = "url" ∧ SameURL v v') ∨ Differs v v') ∧
    DiffersFields rest rest'
  | _, _ => False

end

/-- No sensitive header is visited after one that is named like the list of redacted names. -/
def orderly : List Text → Bool
  | [] => true
  | key :: rest =>
    (key != "sensitive_fields_redacted" || rest.all fun k => !responseKeySensitive k) && orderly rest

mutual

def returnsValue (order : IterationOrder) (path : List Nat) : Any → Bool
  | .obj fields => returnsFields order path 0 fields
  | .arr items => returnsItems order path 0 items
  | _ => true

def returnsItems (order : IterationOrder) (path : List Nat) (i : Nat) : Anys → Bool
  | .nil => true
  | .cons v rest => returnsValue order (path ++ [i]) v && returnsItems order path (i + 1) rest

def returnsFields (order : IterationOrder) (path : List Nat) (i : Nat) : AnyMap → Bool
  | .nil => true
  | .cons key child rest =>
    returnsFields order path (i + 1) rest &&
      (responseKeySensitive key ||
        (normalizeResponseKey key == "path" && looksLikePrivateResponsePath (valueToString child)) ||
        normalizeResponseKey key == "url" ||
        (if normalizeResponseKey key == "headers" then
          match child with
          | .obj headers =>
            if headersRedacted headers then returnsFields order (path ++ [i]) 0 headers
            else returnsHeaders order (path ++ [i]) 0 headers &&
              orderly (order.apply (path ++ [i]) (headers.toList.map Prod.fst))
          | _ => true
        else returnsValue order (path ++ [i]) child))

def returnsHeaders (order : IterationOrder) (path : List Nat) (i : Nat) : AnyMap → Bool
  | .nil => true
  | .cons key child rest =>
    (responseKeySensitive key || !headerAllowed (normalizeResponseKey key) ||
      returnsValue order (path ++ [i]) child) && returnsHeaders order path (i + 1) rest

end

/-- Both texts are replaced by an envelope, or they are the same once their markers are replaced. -/
def StringHidden (s s' : Text) : Prop :=
  (maxSafeResponseStringLength < byteLength s ∧ maxSafeResponseStringLength < byteLength s') ∨
    (byteLength s ≤ maxSafeResponseStringLength ∧ byteLength s' ≤ maxSafeResponseStringLength ∧
      redactInlineAuth s = redactInlineAuth s')

/-- Both are absolute, with one scheme, host and path, and both have a query or user information or neither has; or
neither is absolute and they are the same once their markers are replaced. -/
def URLHidden (url : URLParser) (t t' : Text) : Prop :=
  match absoluteURL url (Text.trimSpace t), absoluteURL url (Text.trimSpace t') with
  | some u, some u' =>
    u.scheme ++ "://" ++ u.host ++ u.escapedPath = u'.scheme ++ "://" ++ u'.host ++ u'.escapedPath ∧
      u.hostname = u'.hostname ∧ (!u.rawQuery.isEmpty || u.hasUser) = (!u'.rawQuery.isEmpty || u'.hasUser)
  | none, none => redactInlineAuth (Text.trimSpace t) = redactInlineAuth (Text.trimSpace t')
  | _, _ => False

mutual

def Hidden (url : URLParser) : Any → Any → Prop
  | .obj fields, .obj fields' => HiddenFields url fields fields'
  | .arr items, .arr items' => HiddenItems url items items'
  | .str s, .str s' => StringHidden s s'
  | _, _ => True

def HiddenItems (url : URLParser) : Anys → Anys → Prop
  | .cons v rest, .cons v' rest' => Hidden url v v' ∧ HiddenItems url rest rest'
  | _, _ => True

def HiddenFields (url : URLParser) : AnyMap → AnyMap → Prop
  | .cons key v rest, .cons _ v' rest' =>
    (responseKeySensitive key = true ∨ isVolatile key = true ∨
      if normalizeResponseKey key = "path" ∧ (looksLikePrivateResponsePath (valueToString v) = true ∨
          looksLikePrivateResponsePath (valueToString v') = true) then
        looksLikePrivateResponsePath (valueToString v) = true ∧ looksLikePrivateResponsePath (valueToString v') = true
      else if normalizeResponseKey key = "url" then URLHidden url (valueToString v) (valueToString v')
      else if normalizeResponseKey key = "headers" then
        match v, v' with
        | .obj headers, .obj headers' =>
          if headersRedacted headers = true then HiddenFields url headers headers'
          else HiddenHeaders url headers headers'
        | _, _ => True
      else Hidden url v v') ∧
    HiddenFields url rest rest'
  | _, _ => True

def HiddenHeaders (url : URLParser) : AnyMap → AnyMap → Prop
  | .cons key v rest, .cons _ v' rest' =>
    (responseKeySensitive key = true ∨ headerAllowed (normalizeResponseKey key) = false ∨ Hidden url v v') ∧
      HiddenHeaders url rest rest'
  | _, _ => True

end

def KeptHidden (url : URLParser) (key : Text) (v v' : Any) : Prop :=
  if normalizeResponseKey key = "path" ∧ (looksLikePrivateResponsePath (valueToString v) = true ∨
      looksLikePrivateResponsePath (valueToString v') = true) then
    looksLikePrivateResponsePath (valueToString v) = true ∧ looksLikePrivateResponsePath (valueToString v') = true
  else if normalizeResponseKey key = "url" then URLHidden url (valueToString v) (valueToString v')
  else if normalizeResponseKey key = "headers" then
    match v, v' with
    | .obj headers, .obj headers' =>
      if headersRedacted headers = true then HiddenFields url headers headers' else HiddenHeaders url headers headers'
    | _, _ => True
  else Hidden url v v'

theorem hiddenFields_cons {url : URLParser} {key key' : Text} {v v' : Any} {rest rest' : AnyMap} :
    HiddenFields url (.cons key v rest) (.cons key' v' rest') ↔
      (responseKeySensitive key = true ∨ isVolatile key = true ∨ KeptHidden url key v v') ∧
        HiddenFields url rest rest' := by
  rw [HiddenFields.eq_def]
  rfl

def shadeEntry (e : Text × Any) : Text × Any := (e.1, if isVolatile e.1 then .null else shade e.2)

theorem shadeFields_insertNew (key : Text) (v : Any) (m : AnyMap) :
    shadeFields (m.insertNew key v) = (shadeFields m).insertNew key (if isVolatile key then .null else shade v) := by
  induction m using entries_induction with
  | nil => rfl
  | cons k w rest ih =>
    rw [insertNew, shadeFields, insertNew]
    split
    · rfl
    split
    · rfl
    · rw [shadeFields, ih]

theorem shadeFields_ofList (l : List (Text × Any)) :
    shadeFields (AnyMap.ofList l) = AnyMap.ofList (l.map shadeEntry) := by
  induction l with
  | nil => rfl
  | cons e l ih =>
    rw [ofList, shadeFields, ih]
    rfl

theorem shadeEntry_of_volatile {key : Text} (h : isVolatile key = true) (v v' : Any) :
    shadeEntry (key, v) = shadeEntry (key, v') := by
  rw [shadeEntry, shadeEntry]
  dsimp only
  rw [if_pos h, if_pos h]

theorem shade_redactedText (reason t t' : Text) : shade (redactedText reason t) = shade (redactedText reason t') := by
  have hbytes : isVolatile "content_bytes" = true := by decide
  have hdigest : isVolatile "content_digest_sha256" = true := by decide
  rw [redactedText, redactedText, redactedMap, redactedMap, shade, shade, shadeFields_ofList, shadeFields_ofList]
  refine congrArg (fun l => Any.obj (ofList l)) ?_
  exact congrArg₂ List.cons (shadeEntry_of_volatile hbytes _ _)
    (congrArg₂ List.cons (shadeEntry_of_volatile hdigest _ _) rfl)

theorem shadeFields_inputRedactedMap (reason digest digest' : Text) (bytes bytes' : Nat) :
    shadeFields (inputRedactedMap reason digest bytes) = shadeFields (inputRedactedMap reason digest' bytes') := by
  have hbytes : isVolatile "input_bytes" = true := by decide
  have hdigest : isVolatile "input_digest_sha256" = true := by decide
  rw [inputRedactedMap, inputRedactedMap, shadeFields_ofList, shadeFields_ofList]
  refine congrArg ofList ?_
  exact congrArg₂ List.cons (shadeEntry_of_volatile hbytes _ _)
    (congrArg₂ List.cons (shadeEntry_of_volatile hdigest _ _) rfl)

theorem shade_inputRedactedText (reason t t' : Text) :
    shade (inputRedactedText reason t) = shade (inputRedactedText reason t') := by
  rw [inputRedactedText, inputRedactedText, shade, shade, shadeFields_inputRedactedMap]

theorem shade_safeResponsePathEnvelope (t t' : Text) :
    shade (safeResponsePathEnvelope t) = shade (safeResponsePathEnvelope t') := by
  have hdigest : isVolatile "safe_path_digest" = true := by decide
  rw [safeResponsePathEnvelope, safeResponsePathEnvelope, shade, shade, shadeFields_insertNew, shadeFields_insertNew,
    if_pos hdigest, if_pos hdigest, shadeFields_inputRedactedMap]

theorem shade_string_iff {s s' : Text} :
    shade (sanitizeResponseString s) = shade (sanitizeResponseString s') ↔ StringHidden s s' := by
  rw [StringHidden, sanitizeResponseString, sanitizeResponseString]
  by_cases hs : byteLength s > maxSafeResponseStringLength
  · by_cases hs' : byteLength s' > maxSafeResponseStringLength
    · rw [if_pos hs, if_pos hs']
      exact iff_of_true (shade_redactedText _ s s') (.inl ⟨hs, hs'⟩)
    · rw [if_pos hs, if_neg hs']
      refine iff_of_false (nofun) ?_
      rintro (⟨-, h⟩ | ⟨h, -⟩)
      · exact hs' h
      · omega
  by_cases hs' : byteLength s' > maxSafeResponseStringLength
  · rw [if_neg hs, if_pos hs']
    refine iff_of_false (nofun) ?_
    rintro (⟨h, -⟩ | ⟨-, h, -⟩)
    · exact hs h
    · omega
  · rw [if_neg hs, if_neg hs']
    have hlengths : byteLength s ≤ maxSafeResponseStringLength ∧ byteLength s' ≤ maxSafeResponseStringLength := by
      omega
    simp only [shade, Any.str.injEq, not_lt.mpr hlengths.1, false_and, false_or, hlengths.1, hlengths.2, true_and]

def urlMembers (u : ParsedURL) (trimmed : Text) : AnyMap :=
  if !u.rawQuery.isEmpty || u.hasUser then
    AnyMap.ofList
      [("input_bytes", numberOf (byteLength trimmed)),
        ("input_digest_sha256", .str (sha256HexString trimmed)),
        ("input_redacted", .bool true), ("redaction_policy_version", .str responseRedactionPolicyVersion),
        ("safe_host", .str u.hostname),
        ("safe_url", .str (u.scheme ++ "://" ++ u.host ++ u.escapedPath)),
        ("sensitive_fields_redacted", textsOf ["url_query_or_credentials"])]
  else
    AnyMap.ofList
      [("redaction_policy_version", .str responseRedactionPolicyVersion), ("safe_host", .str u.hostname),
        ("safe_url", .str (u.scheme ++ "://" ++ u.host ++ u.escapedPath))]

theorem absoluteURL_nil (url : URLParser) : absoluteURL url [] = none := by
  rw [absoluteURL]
  cases hparse : url.parse [] with
  | none => rfl
  | some u =>
    rw [Option.filter_some, if_neg]
    intro hset
    have hscheme : u.scheme ≠ [] := by
      rintro hnil
      simp [hnil] at hset
    obtain ⟨⟨c, rest, hcons, -⟩, -⟩ := url.scheme_head hparse hscheme
    cases hcons

theorem safeResponseURL_eq (url : URLParser) (t : Text) : safeResponseURL url t =
    match absoluteURL url (Text.trimSpace t) with
    | some u => .obj (urlMembers u (Text.trimSpace t))
    | none => .str (redactInlineAuth (Text.trimSpace t)) := by
  rw [safeResponseURL.eq_def]
  dsimp only
  by_cases hempty : Text.trimSpace t = []
  · rw [hempty, absoluteURL_nil]
    rfl
  rw [if_neg (by simpa using hempty)]
  cases absoluteURL url (Text.trimSpace t) with
  | none => rfl
  | some u =>
    dsimp only
    rw [urlMembers]
    split
    · rfl
    · rfl

def toldURL (redacted : Bool) (host address : Text) : Any :=
  let rest (last : AnyMap) : AnyMap :=
    .cons "redaction_policy_version" (.str responseRedactionPolicyVersion)
      (.cons "safe_host" (.str host) (.cons "safe_url" (.str address) last))
  if redacted then
    .obj (.cons "input_bytes" .null (.cons "input_digest_sha256" .null
      (.cons "input_redacted" (.bool true)
        (rest (.cons "sensitive_fields_redacted" (textsOf ["url_query_or_credentials"]) .nil)))))
  else .obj (rest .nil)

theorem shade_urlMembers (u : ParsedURL) (trimmed : Text) : shade (.obj (urlMembers u trimmed)) =
    toldURL (!u.rawQuery.isEmpty || u.hasUser) u.hostname (u.scheme ++ "://" ++ u.host ++ u.escapedPath) := by
  rw [urlMembers, toldURL]
  split <;> rfl

theorem toldURL_inj {redacted redacted' : Bool} {host host' address address' : Text} :
    toldURL redacted host address = toldURL redacted' host' address' ↔
      address = address' ∧ host = host' ∧ redacted = redacted' := by
  have hkeys : "input_bytes".toList ≠ "redaction_policy_version".toList := by decide
  cases redacted <;> cases redacted'
  · simp only [toldURL, Bool.false_eq_true, if_false, Any.obj.injEq, cons.injEq, Any.str.injEq, true_and,
      and_true]
    exact and_comm
  · simp only [toldURL, Bool.false_eq_true, if_false, if_true, Any.obj.injEq, cons.injEq, hkeys.symm, false_and,
      and_false]
  · simp only [toldURL, Bool.false_eq_true, if_false, if_true, Any.obj.injEq, cons.injEq, hkeys, and_false,
      reduceCtorEq]
  · simp only [toldURL, if_true, Any.obj.injEq, cons.injEq, Any.str.injEq, true_and, and_true]
    exact and_comm

theorem shade_url_iff {url : URLParser} {t t' : Text} :
    shade (safeResponseURL url t) = shade (safeResponseURL url t') ↔ URLHidden url t t' := by
  rw [safeResponseURL_eq, safeResponseURL_eq, URLHidden]
  cases absoluteURL url (Text.trimSpace t) with
  | none =>
    cases absoluteURL url (Text.trimSpace t') with
    | none => simp [shade]
    | some u' => exact iff_of_false (nofun) id
  | some u =>
    cases absoluteURL url (Text.trimSpace t') with
    | none => exact iff_of_false (nofun) id
    | some u' =>
      dsimp only
      rw [shade_urlMembers, shade_urlMembers]
      exact toldURL_inj

end Overture.ResponseSecrecy
