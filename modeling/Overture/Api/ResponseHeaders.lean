import Overture.Api.ResponseSecrecy
import Overture.Lib.Json.Members

/-!
# Headers of a redacted response

Headers are collected in the order the map is visited in, the list of redacted names among them. The list depends on
the names only, so a response tells a header exactly if the value kept for it does. A header named like the list takes
its place, and the redactor does not return if a sensitive header comes after it.
-/

namespace Overture.ResponseSecrecy

open Json AnyMap List ResponseHeaders Option

theorem shadeFields_ofEntries (l : List (Text × Any)) :
    shadeFields (ofEntries l) = ofEntries (l.map shadeEntry) := by
  induction l with
  | nil => rfl
  | cons e l ih =>
    change shadeFields ((ofEntries l).insertNew e.1 e.2) = _
    rw [shadeFields_insertNew, ih]
    rfl

theorem shade_textsOf (ts : List Text) : shade (textsOf ts) = textsOf ts := by
  rw [textsOf, shade]
  congr 1
  induction ts with
  | nil => rfl
  | cons t ts ih =>
    rw [foldr_cons, shadeItems, ih]
    rfl

def shadeHeaders (out : ResponseHeaders) : ResponseHeaders := ⟨out.redacted, out.fields.map shadeEntry⟩

variable (headers : List (Text × Any)) (out : ResponseHeaders)

theorem shade_toAny : shade out.toAny = (shadeHeaders out).toAny := by
  rw [toAny, toAny, shadeHeaders]
  cases out.redacted with
  | none =>
    dsimp only
    rw [shade, shadeFields_ofEntries]
  | some names =>
    dsimp only
    rw [shade, shadeFields_ofEntries, map_cons]
    have hnames : shadeEntry ("sensitive_fields_redacted".toList, textsOf names) =
        ("sensitive_fields_redacted".toList, textsOf names) := by
      have hkey : isVolatile "sensitive_fields_redacted".toList = false := by decide
      rw [shadeEntry, hkey, if_neg Bool.false_ne_true, shade_textsOf]
    rw [hnames]

theorem step_shade (e : Text × Any) :
    (shadeHeaders out).step (shadeEntry e) = (out.step e).map shadeHeaders := by
  rw [step, step]
  have hassign : (shadeHeaders out).assign (shadeEntry e).1 (shadeEntry e).2 = shadeHeaders (out.assign e.1 e.2) := by
    rw [assign, assign, shadeHeaders, shadeHeaders, map_append]
    rfl
  rw [hassign]
  by_cases hsensitive : responseKeySensitive e.1 = true
  · rw [if_pos hsensitive, if_pos (show responseKeySensitive (shadeEntry e).1 = true from hsensitive)]
    cases hredacted : (out.assign e.1 e.2).redacted with
    | none => simp [shadeHeaders, hredacted]
    | some names => simp [shadeHeaders, hredacted, shadeEntry]
  · rw [if_neg hsensitive, if_neg (show ¬responseKeySensitive (shadeEntry e).1 = true from hsensitive)]
    rfl

theorem collect_shade :
    (collectResponseHeaders headers).map shade = collectResponseHeaders (headers.map shadeEntry) := by
  have hfold : ∀ out : ResponseHeaders, (headers.map shadeEntry).foldlM ResponseHeaders.step (shadeHeaders out) =
      (headers.foldlM ResponseHeaders.step out).map shadeHeaders := by
    induction headers with
    | nil => intro out; rfl
    | cons e headers ih =>
      intro out
      rw [List.map_cons, List.foldlM_cons, List.foldlM_cons, step_shade]
      cases out.step e with
      | none => rfl
      | some out' => exact ih out'
  have hstart : shadeHeaders .start = .start := rfl
  rw [collectResponseHeaders, collectResponseHeaders, ← hstart, hfold, Option.map_map, Option.map_map]
  congr 1
  funext out
  exact shade_toAny out

theorem apply_map {α β : Type} (order : IterationOrder) (path : List Nat) (f : α → β) (l : List α) :
    order.apply path (l.map f) = (order.apply path l).map f := by
  rw [IterationOrder.apply, IterationOrder.apply, length_map, map_filterMap]
  congr 1
  funext i
  rw [getElem?_map]

theorem step_isSome (e : Text × Any) :
    (out.step e).isSome = (!responseKeySensitive e.1 || out.redacted.isSome) := by
  have hlist : responseKeySensitive "sensitive_fields_redacted" = false := by decide +kernel
  rw [step]
  by_cases hsensitive : responseKeySensitive e.1 = true
  · have hkey : e.1 ≠ "sensitive_fields_redacted" := by
      intro hkey
      rw [hkey, hlist] at hsensitive
      cases hsensitive
    rw [if_pos hsensitive, isSome_map, assign, if_neg hkey, hsensitive]
    rfl
  · rw [if_neg hsensitive]
    rw [Bool.not_eq_true] at hsensitive
    rw [hsensitive]
    rfl

theorem redacted_step {out out' : ResponseHeaders} {e : Text × Any} (h : out.step e = some out') :
    out'.redacted.isSome = (e.1 != "sensitive_fields_redacted" && out.redacted.isSome) := by
  rw [step] at h
  have hassigned : (out.assign e.1 e.2).redacted.isSome =
      (e.1 != "sensitive_fields_redacted" && out.redacted.isSome) := by
    rw [assign]
    by_cases hkey : e.1 = "sensitive_fields_redacted"
    · simp [hkey]
    · rw [if_neg hkey, bne_iff_ne.mpr hkey, Bool.true_and]
  rw [← hassigned]
  split at h
  · obtain ⟨names, hnames, rfl⟩ := map_eq_some_iff.mp h
    rw [hnames]
    rfl
  · cases h
    rfl

theorem fold_isSome : ∀ out : ResponseHeaders,
    (headers.foldlM step out).isSome =
      ((out.redacted.isSome || (headers.map Prod.fst).all fun k => !responseKeySensitive k) &&
        orderly (headers.map Prod.fst)) := by
  induction headers with
  | nil => intro out; simp [orderly]
  | cons e headers ih =>
    intro out
    rw [foldlM_cons, map_cons, all_cons, orderly]
    have hsome := step_isSome out e
    cases hstep : out.step e with
    | none =>
      rw [hstep, isSome_none, eq_comm, Bool.or_eq_false_iff] at hsome
      rw [hsome.1, hsome.2]
      rfl
    | some out' =>
      rw [hstep, isSome_some] at hsome
      have hredacted := redacted_step hstep
      have hlist : e.1 = "sensitive_fields_redacted" → responseKeySensitive e.1 = false := by
        rintro hkey
        rw [hkey]
        decide +kernel
      change (headers.foldlM step out').isSome = _
      rw [ih, hredacted]
      by_cases hkey : e.1 = "sensitive_fields_redacted"
      · rw [hlist hkey, bne, beq_iff_eq.mpr hkey]
        cases out.redacted.isSome <;> cases (headers.map Prod.fst).all fun k => !responseKeySensitive k <;> rfl
      rw [bne_iff_ne.mpr hkey]
      revert hsome
      cases out.redacted.isSome <;> cases responseKeySensitive e.1 <;> simp

theorem collect_isSome :
    (collectResponseHeaders headers).isSome = orderly (headers.map Prod.fst) := by
  rw [collectResponseHeaders, isSome_map, fold_isSome]
  rfl

theorem fold_keys : ∀ {headers' : List (Text × Any)} {out out' r r' : ResponseHeaders},
    headers.map Prod.fst = headers'.map Prod.fst → out.redacted = out'.redacted →
    headers.foldlM step out = some r → headers'.foldlM step out' = some r' →
    r.redacted = r'.redacted ∧ r.fields = out.fields ++ headers ∧ r'.fields = out'.fields ++ headers' := by
  induction headers with
  | nil =>
    intro headers' out out' r r' hkeys hout h h'
    obtain rfl : headers' = [] := by simpa using hkeys.symm
    cases h
    cases h'
    exact ⟨hout, by simp, by simp⟩
  | cons e headers ih =>
    intro headers' out out' r r' hkeys hout h h'
    cases headers' with
    | nil => cases hkeys
    | cons e' headers' =>
      rw [map_cons, map_cons, List.cons.injEq] at hkeys
      rw [foldlM_cons] at h h'
      obtain ⟨next, hnext, h⟩ := Option.bind_eq_some_iff.mp h
      obtain ⟨next', hnext', h'⟩ := Option.bind_eq_some_iff.mp h'
      have hassign : (out.assign e.1 e.2).redacted = (out'.assign e'.1 e'.2).redacted := by
        rw [assign, assign, hkeys.1, hout]
      have hstep : next.redacted = next'.redacted ∧ next.fields = out.fields ++ [e] ∧
          next'.fields = out'.fields ++ [e'] := by
        rw [step] at hnext hnext'
        rw [hkeys.1] at hnext
        split at hnext
        · next hsensitive =>
          rw [if_pos hsensitive] at hnext'
          rw [← hkeys.1] at hnext
          rw [← hassign] at hnext'
          obtain ⟨names, hnames, rfl⟩ := Option.map_eq_some_iff.mp hnext
          rw [hnames] at hnext'
          cases hnext'
          exact ⟨by rw [hkeys.1], rfl, rfl⟩
        next hsensitive =>
        rw [if_neg hsensitive] at hnext'
        rw [← hkeys.1] at hnext
        cases hnext
        cases hnext'
        exact ⟨hassign, rfl, rfl⟩
      obtain ⟨hredacted, hfields, hfields'⟩ := ih hkeys.2 hstep.1 h h'
      rw [hstep.2.1, append_assoc] at hfields
      rw [hstep.2.2, append_assoc] at hfields'
      exact ⟨hredacted, hfields, hfields'⟩

theorem ofList_inj {l l' : List (Text × Any)} (h : ofList l = ofList l') : l = l' := by
  induction l generalizing l' with
  | nil =>
    cases l' with
    | nil => rfl
    | cons e l' => cases h
  | cons e l ih =>
    cases l' with
    | nil => cases h
    | cons e' l' =>
      rw [ofList, ofList, AnyMap.cons.injEq] at h
      rw [ih h.2.2, Prod.ext h.1 h.2.1]

theorem mapEntries_of_ofEntries {front l l' : List (Text × Any)} (hkeys : l.map Prod.fst = l'.map Prod.fst)
    (h : ofEntries (front ++ l) = ofEntries (front ++ l')) : mapEntries l = mapEntries l' := by
  rw [ofEntries_eq, ofEntries_eq] at h
  apply mapEntries_ext
  intro key
  have hassigned := assigned_congr (ofList_inj h) key
  rw [assigned_append, assigned_append] at hassigned
  by_cases hmem : key ∈ l.map Prod.fst
  · obtain ⟨x, hx⟩ := ne_none_iff_exists'.mp (mt assigned_eq_none_iff.mp (not_not_intro hmem))
    obtain ⟨x', hx'⟩ := ne_none_iff_exists'.mp (mt assigned_eq_none_iff.mp (not_not_intro (hkeys ▸ hmem)))
    rw [hx, hx'] at hassigned ⊢
    exact hassigned
  · rw [assigned_eq_none_iff.mpr hmem, assigned_eq_none_iff.mpr (hkeys ▸ hmem)]

theorem collect_inj {headers headers' : List (Text × Any)} {v : Any}
    (hkeys : headers.map Prod.fst = headers'.map Prod.fst) (h : collectResponseHeaders headers = some v)
    (h' : collectResponseHeaders headers' = some v) :
    mapEntries headers = mapEntries headers' := by
  rw [collectResponseHeaders] at h h'
  obtain ⟨r, hr, htext⟩ := map_eq_some_iff.mp h
  obtain ⟨r', hr', htext'⟩ := map_eq_some_iff.mp h'
  obtain ⟨hredacted, hfields, hfields'⟩ := fold_keys headers hkeys rfl hr hr'
  rw [← htext', toAny, toAny, ← hredacted, hfields, hfields'] at htext
  cases hnames : r.redacted with
  | none =>
    rw [hnames] at htext
    exact mapEntries_of_ofEntries hkeys (Any.obj.inj htext)
  | some names =>
    rw [hnames] at htext
    dsimp only at htext
    rw [← cons_append, ← cons_append] at htext
    exact mapEntries_of_ofEntries hkeys (Any.obj.inj htext)

theorem shade_collect_iff {order : IterationOrder} {path : List Nat} {headers headers' : List (Text × Any)} {w w' : Any}
    (hascending : Ascending headers) (hkeys : headers.map Prod.fst = headers'.map Prod.fst)
    (h : collectResponseHeaders (order.apply path headers) = some w)
    (h' : collectResponseHeaders (order.apply path headers') = some w') :
    shade w = shade w' ↔ headers.map shadeEntry = headers'.map shadeEntry := by
  have hshade := collect_shade (order.apply path headers)
  have hshade' := collect_shade (order.apply path headers')
  rw [h, Option.map_some, ← apply_map] at hshade
  rw [h', Option.map_some, ← apply_map] at hshade'
  have hfst (l : List (Text × Any)) : (l.map shadeEntry).map Prod.fst = l.map Prod.fst := by
    rw [List.map_map]
    rfl
  have hsorted {l : List (Text × Any)} (hl : (l.map Prod.fst).Pairwise (· < ·)) : Ascending (l.map shadeEntry) := by
    rw [Ascending, ← List.pairwise_map (f := Prod.fst) (R := (· < ·)), hfst]
    exact hl
  have hpairwise : (headers.map Prod.fst).Pairwise (· < ·) := List.pairwise_map.mpr hascending
  constructor
  · intro heq
    rw [← heq] at hshade'
    have hentries := collect_inj (by rw [apply_map, apply_map, List.map_map, List.map_map, ← apply_map, ← apply_map,
      ← List.map_map, ← List.map_map, hfst, hfst, hkeys]) hshade.symm hshade'.symm
    rwa [mapEntries_of_perm (hsorted hpairwise) (order.apply_perm _ _),
      mapEntries_of_perm (hsorted (hkeys ▸ hpairwise)) (order.apply_perm _ _)] at hentries
  · intro heq
    rw [heq, ← hshade'] at hshade
    exact Option.some.inj hshade

section Kept

variable (url : URLParser) (order : IterationOrder)

def keptValue (path : List Nat) (key : Text) (child : Any) : Option Any :=
  if responseKeySensitive key then some (redactedText "sensitive_key" (valueToString child))
  else if normalizeResponseKey key == "path" && looksLikePrivateResponsePath (valueToString child) then
    some (safeResponsePathEnvelope (valueToString child))
  else if normalizeResponseKey key == "url" then some (safeResponseURL url (valueToString child))
  else if normalizeResponseKey key == "headers" then
    match child with
    | .obj headers =>
      if headersRedacted headers then (sanitizeResponseFields url order path 0 headers).map Any.obj
      else (sanitizeResponseHeaders url order path 0 headers).bind fun seen =>
        collectResponseHeaders (order.apply path seen)
    | child => some (inputRedactedText "headers" (valueToString child))
  else sanitizeResponseValue url order path child

theorem sensitive_of_dropped {key : Text} (h : responseKeyDropped (normalizeResponseKey key) = true) :
    responseKeySensitive key = true := by
  rw [responseKeyDropped, Bool.or_eq_true, beq_iff_eq, beq_iff_eq] at h
  rw [responseKeySensitive.eq_def]
  dsimp only
  rcases h with h | h <;> rw [h] <;> decide +kernel

theorem sanitizeResponseFields_cons (path : List Nat) (i : Nat) (key : Text) (child : Any) (rest : AnyMap) :
    sanitizeResponseFields url order path i (.cons key child rest) =
      (sanitizeResponseFields url order path (i + 1) rest).bind fun kept =>
        if responseKeyDropped (normalizeResponseKey key) then some kept
        else (keptValue url order (path ++ [i]) key child).map fun w => .cons key w kept := by
  rw [sanitizeResponseFields.eq_def]
  dsimp only
  cases sanitizeResponseFields url order path (i + 1) rest with
  | none => rfl
  | some kept =>
    change (if _ then _ else _) = (if _ then _ else _)
    split
    · rfl
    rw [map_eq_bind]
    rfl

theorem sanitizeResponseHeaders_cons (path : List Nat) (i : Nat) (key : Text) (child : Any) (rest : AnyMap) :
    sanitizeResponseHeaders url order path i (.cons key child rest) =
      (if responseKeySensitive key then some (inputRedactedText "sensitive_header" (valueToString child))
        else if headerAllowed (normalizeResponseKey key) then sanitizeResponseValue url order (path ++ [i]) child
        else some (inputRedactedText "non_allowlisted_header" (valueToString child))).bind fun w =>
      (sanitizeResponseHeaders url order path (i + 1) rest).map fun ws => (key, w) :: ws := by
  rw [sanitizeResponseHeaders.eq_def]
  dsimp only
  simp only [map_eq_bind]
  rfl

theorem isSome_fields_cons (path : List Nat) (i : Nat) (key : Text) (child : Any) (rest : AnyMap) :
    (sanitizeResponseFields url order path i (.cons key child rest)).isSome =
      ((sanitizeResponseFields url order path (i + 1) rest).isSome &&
        (keptValue url order (path ++ [i]) key child).isSome) := by
  rw [sanitizeResponseFields_cons]
  cases sanitizeResponseFields url order path (i + 1) rest with
  | none => rfl
  | some kept =>
    rw [bind_some, isSome_some, Bool.true_and]
    by_cases hdropped : responseKeyDropped (normalizeResponseKey key) = true
    · rw [if_pos hdropped, keptValue.eq_def, if_pos (sensitive_of_dropped hdropped)]
      rfl
    · rw [if_neg hdropped, isSome_map]

theorem keys_of_headers {headers : AnyMap} : ∀ {path : List Nat} {i : Nat} {seen : List (Text × Any)},
    sanitizeResponseHeaders url order path i headers = some seen → seen.map Prod.fst = headers.toList.map Prod.fst := by
  induction headers using entries_induction with
  | nil =>
    intro path i seen h
    cases h
    rfl
  | cons key child rest ih =>
    intro path i seen h
    rw [sanitizeResponseHeaders_cons] at h
    obtain ⟨w, -, h⟩ := bind_eq_some_iff.mp h
    obtain ⟨ws, hws, rfl⟩ := map_eq_some_iff.mp h
    rw [map_cons, ih hws]
    rfl

mutual

theorem isSome_value (v : Any) (path : List Nat) :
    (sanitizeResponseValue url order path v).isSome = returnsValue order path v := by
  cases v with
  | obj fields => rw [sanitizeResponseValue, returnsValue, isSome_map, isSome_fields fields]
  | arr items => rw [sanitizeResponseValue, returnsValue, isSome_map, isSome_items items]
  | null => rfl
  | bool b => rfl
  | num x => rfl
  | str s => rfl

theorem isSome_items (items : Anys) (path : List Nat) (i : Nat) :
    (sanitizeResponseItems url order path i items).isSome = returnsItems order path i items := by
  cases items with
  | nil => rfl
  | cons v rest =>
    rw [sanitizeResponseItems, returnsItems, ← isSome_value v, ← isSome_items rest]
    cases sanitizeResponseValue url order (path ++ [i]) v with
    | none => rfl
    | some w => cases sanitizeResponseItems url order path (i + 1) rest <;> rfl

theorem isSome_fields (fields : AnyMap) (path : List Nat) (i : Nat) :
    (sanitizeResponseFields url order path i fields).isSome = returnsFields order path i fields := by
  cases fields with
  | nil => rfl
  | cons key child rest =>
    rw [isSome_fields_cons, returnsFields.eq_def, isSome_fields rest]
    dsimp only
    congr 1
    rw [keptValue.eq_def]
    by_cases hsensitive : responseKeySensitive key = true
    · rw [if_pos hsensitive, hsensitive]
      rfl
    rw [if_neg hsensitive]
    rw [Bool.not_eq_true] at hsensitive
    rw [hsensitive, Bool.false_or]
    by_cases hpath : (normalizeResponseKey key == "path" &&
        looksLikePrivateResponsePath (valueToString child)) = true
    · rw [if_pos hpath, hpath]
      rfl
    rw [if_neg hpath]
    rw [Bool.not_eq_true] at hpath
    rw [hpath, Bool.false_or]
    by_cases hurl : (normalizeResponseKey key == "url") = true
    · rw [if_pos hurl, hurl]
      rfl
    rw [if_neg hurl]
    rw [Bool.not_eq_true] at hurl
    rw [hurl, Bool.false_or]
    by_cases hheaders : (normalizeResponseKey key == "headers") = true
    · rw [if_pos hheaders, if_pos hheaders]
      cases child with
      | obj headers =>
        dsimp only
        by_cases hredacted : headersRedacted headers = true
        · rw [if_pos hredacted, if_pos hredacted, isSome_map, isSome_fields headers]
        rw [if_neg hredacted, if_neg hredacted, ← isSome_headers headers]
        cases hseen : sanitizeResponseHeaders url order (path ++ [i]) 0 headers with
        | none => rfl
        | some seen =>
          rw [bind_some, collect_isSome, ← apply_map, keys_of_headers url order hseen]
          rfl
      | _ => rfl
    · rw [if_neg hheaders, if_neg hheaders, isSome_value child]

theorem isSome_headers (headers : AnyMap) (path : List Nat) (i : Nat) :
    (sanitizeResponseHeaders url order path i headers).isSome = returnsHeaders order path i headers := by
  cases headers with
  | nil => rfl
  | cons key child rest =>
    rw [sanitizeResponseHeaders_cons, returnsHeaders, ← isSome_headers rest, ← isSome_value child]
    by_cases hsensitive : responseKeySensitive key = true
    · rw [if_pos hsensitive, hsensitive, bind_some, isSome_map]
      rfl
    rw [if_neg hsensitive]
    rw [Bool.not_eq_true] at hsensitive
    rw [hsensitive, Bool.false_or]
    by_cases hallowed : headerAllowed (normalizeResponseKey key) = true
    · rw [if_pos hallowed, hallowed]
      cases sanitizeResponseValue url order (path ++ [i]) child with
      | none => rfl
      | some w => rw [bind_some, isSome_map]; rfl
    rw [if_neg hallowed, bind_some, isSome_map]
    rw [Bool.not_eq_true] at hallowed
    rw [hallowed]
    rfl

end

end Kept

end Overture.ResponseSecrecy
