import Overture.Lib.Encoding
import Overture.Lib.Except
import Overture.Lib.Sha256
import Overture.Lib.Table
import Overture.Lib.Utf8

/-!
# The keys of encrypted inputs

The keys are configured as one key with a version, or as a list of versions and keys of which one is active. The list
separates entries by commas and versions from keys by colons; a single key may have a version with either, as the
default version has.
-/

namespace Overture.InputKeyrings

open List Base64 Except Table

open Text (trimSpace)

def defaultExecutionInputRefKeyVersion : Text := "env:v1"

/-- The cipher of a key is determined by the key. -/
structure ExecutionInputCipher where
  keyVersion : Text
  key : List UInt8

def ExecutionInputCipher.keyFingerprint (c : ExecutionInputCipher) : Text := Hex.encode (Sha256.sum256 c.key)

abbrev Ciphers := Table ExecutionInputCipher.keyVersion

structure ExecutionInputKeyring where
  activeKeyVersion : Text
  ciphers : Ciphers

def single (c : ExecutionInputCipher) : Ciphers := Table.empty.put c

def errExecutionInputRefKeyMissing : Text := "execution input ref encryption key missing"

def errExecutionInputKeyringConfig (detail : Text) : Text :=
  "execution input ref keyring config invalid: " ++ detail

/-- The standard and the URL alphabet, each with padding and without. -/
def base64Decoders : List (Text → Option (List UInt8)) :=
  [decode false true, decode false false, decode true true, decode true false]

def firstKey (decoders : List (Text → Option (List UInt8))) (rawKey : Text) : Option (List UInt8) :=
  decoders.findSome? fun decode => (decode rawKey).filter (·.length = 32)

def decodeExecutionInputKey (rawKey : Text) : Except Text (List UInt8) :=
  let rawKey := trimSpace rawKey
  if rawKey = [] then .error errExecutionInputRefKeyMissing
  else
    match firstKey (base64Decoders ++ [Hex.decode]) rawKey with
    | some key => .ok key
    | none =>
      if (Utf8.encode rawKey).length = 32 then .ok (Utf8.encode rawKey)
      else .error "execution input ref key must decode to 32 bytes"

def decodeExecutionInputKeyringKey (rawKey : Text) : Except Text (List UInt8) :=
  let rawKey := trimSpace rawKey
  if rawKey = [] then .error errExecutionInputRefKeyMissing
  else
    match firstKey base64Decoders rawKey with
    | some key => .ok key
    | none => .error "execution input ref keyring key must decode from base64 to 32 bytes"

def versionOrDefault (keyVersion : Text) : Text :=
  if trimSpace keyVersion = [] then defaultExecutionInputRefKeyVersion else trimSpace keyVersion

def newExecutionInputCipherFromKeyBytes (key : List UInt8) (keyVersion : Text) : Except Text ExecutionInputCipher :=
  if key.length ≠ 32 then .error "execution input ref key must decode to 32 bytes"
  else .ok ⟨versionOrDefault keyVersion, key⟩

def newExecutionInputCipher (rawKey keyVersion : Text) : Except Text ExecutionInputCipher := do
  newExecutionInputCipherFromKeyBytes (← decodeExecutionInputKey rawKey) keyVersion

def entryVersion (entry : Text) : Text := trimSpace ((trimSpace entry).takeWhile (· ≠ ':'))

def addEntry (ciphers : Ciphers) (entry : Text) : Except Text Ciphers :=
  let version := entryVersion entry
  let rest := (trimSpace entry).dropWhile (· ≠ ':')
  let keyPart := trimSpace rest.tail
  if trimSpace entry = [] then .error (errExecutionInputKeyringConfig "empty keyring entry")
  else if rest = [] ∨ version = [] ∨ keyPart = [] then
    .error (errExecutionInputKeyringConfig "malformed keyring entry")
  else if ciphers.get? version ≠ none then .error (errExecutionInputKeyringConfig "duplicate key version")
  else
    match decodeExecutionInputKeyringKey keyPart >>= (newExecutionInputCipherFromKeyBytes · version) with
    | .error _ => .error (errExecutionInputKeyringConfig ("invalid key for version " ++ version))
    | .ok cipher => .ok (ciphers.put cipher)

def addEntries : List Text → Ciphers → Except Text Ciphers
  | [], ciphers => .ok ciphers
  | entry :: entries, ciphers => addEntry ciphers entry >>= addEntries entries

def parseExecutionInputKeyring (raw activeVersionRaw : Text) : Except Text ExecutionInputKeyring :=
  let activeVersion := trimSpace activeVersionRaw
  if activeVersion = [] then .error (errExecutionInputKeyringConfig "active key version is empty")
  else do
    let ciphers ← addEntries (raw.splitOn ',') .empty
    if ciphers.rows = [] then .error (errExecutionInputKeyringConfig "keyring is empty")
    else if ciphers.get? activeVersion = none then
      .error (errExecutionInputKeyringConfig "active key version not present in keyring")
    else .ok ⟨activeVersion, ciphers⟩

def ensureLegacyKeyConsistent (ring : ExecutionInputKeyring) (legacyKeyRaw legacyVersionRaw : Text) :
    Except Text Unit :=
  match newExecutionInputCipher legacyKeyRaw legacyVersionRaw with
  | .error _ => .error (errExecutionInputKeyringConfig "legacy single key invalid")
  | .ok legacy =>
    match ring.ciphers.get? legacy.keyVersion with
    | none => .error (errExecutionInputKeyringConfig "legacy single key version not present in keyring")
    | some existing =>
      if existing.keyFingerprint ≠ legacy.keyFingerprint then
        .error (errExecutionInputKeyringConfig "legacy single key disagrees with keyring entry")
      else .ok ()

structure KeyConfig where
  (keyringRaw activeVersionRaw legacyKeyRaw legacyVersionRaw : Text)

def buildExecutionInputKeyring (config : KeyConfig) : Except Text ExecutionInputKeyring :=
  let keyringRaw := trimSpace config.keyringRaw
  let legacyKeyRaw := trimSpace config.legacyKeyRaw
  if keyringRaw ≠ [] then do
    let ring ← parseExecutionInputKeyring keyringRaw config.activeVersionRaw
    if legacyKeyRaw ≠ [] then ensureLegacyKeyConsistent ring legacyKeyRaw config.legacyVersionRaw
    return ring
  else if legacyKeyRaw ≠ [] then do
    let cipher ← newExecutionInputCipher legacyKeyRaw config.legacyVersionRaw
    let active := trimSpace config.activeVersionRaw
    if active ≠ [] ∧ active ≠ cipher.keyVersion then
      .error (errExecutionInputKeyringConfig "active key version does not match configured single key version")
    else .ok ⟨cipher.keyVersion, single cipher⟩
  else .error errExecutionInputRefKeyMissing

def ExecutionInputKeyring.active (ring : ExecutionInputKeyring) : Option ExecutionInputCipher :=
  ring.ciphers.get? ring.activeKeyVersion

def ExecutionInputKeyring.forVersion (ring : ExecutionInputKeyring) (keyVersion : Text) : Option ExecutionInputCipher :=
  let keyVersion := trimSpace keyVersion
  if keyVersion = [] then none else ring.ciphers.get? keyVersion

/-- There is a list with the keys of the ring and with any new key as the active one. -/
def Rotates (ring : ExecutionInputKeyring) : Prop :=
  ∀ newKey : List UInt8, newKey.length = 32 → ∃ config ring', trimSpace config.keyringRaw ≠ [] ∧
    buildExecutionInputKeyring config = .ok ring' ∧
    (∀ c ∈ ring.ciphers.rows, ring'.forVersion c.keyVersion = some c) ∧
    ∃ version, ring'.active = some ⟨version, newKey⟩ ∧ ring.forVersion version = none

def KeyConfig.listed (config : KeyConfig) : List Text :=
  if trimSpace config.keyringRaw ≠ [] then ((trimSpace config.keyringRaw).splitOn ',').map entryVersion
  else [versionOrDefault config.legacyVersionRaw]

def FailsClosed (config : KeyConfig) (ring : ExecutionInputKeyring) : Prop :=
  ∀ stored, trimSpace stored ∉ config.listed → ring.forVersion stored = none

def Separable (version : Text) : Prop := version ≠ [] ∧ ',' ∉ version ∧ ':' ∉ version

variable {config : KeyConfig} {ring : ExecutionInputKeyring} {ciphers ciphers' : Ciphers} {c : ExecutionInputCipher}
  {version newVersion entry : Text} {key newKey : List UInt8}

theorem get?_single (c : ExecutionInputCipher) (version : Text) :
    (single c).get? version = if c.keyVersion = version then some c else none := get?_put c .empty version

theorem notMem_of_mem_splitOn {sep : Char} {part : Text} (t : Text) (h : part ∈ t.splitOn sep) : sep ∉ part := by
  by_cases hsep : sep ∈ t
  · -- cut at the first separator
    obtain ⟨front, rest, ht, hfront⟩ := eq_append_cons_of_mem hsep
    have hshorter : rest.length < t.length := by
      rw [ht, length_append, length_cons]
      omega
    rw [ht, splitOn_append_cons_self_of_not_mem hfront] at h
    rcases mem_cons.mp h with rfl | h
    · exact hfront
    · exact notMem_of_mem_splitOn rest h
  · rw [splitOn_eq_singleton hsep, mem_singleton] at h
    rwa [h]
termination_by t.length

theorem notMem_entryVersion (h : ',' ∉ entry) : ',' ∉ entryVersion entry ∧ ':' ∉ entryVersion entry := by
  constructor
  · intro hmem
    have htaken := (Text.trimSpace_infix _).subset hmem
    exact h ((Text.trimSpace_infix _).subset ((List.takeWhile_prefix _).subset htaken))
  intro hmem
  have htaken := mem_takeWhile_imp ((Text.trimSpace_infix _).subset hmem)
  simp at htaken

theorem versionOrDefault_of_trimmed (htrim : trimSpace version = version) (hne : version ≠ []) :
    versionOrDefault version = version := by
  rw [versionOrDefault, htrim, if_neg hne]

theorem addEntry_spec (h : addEntry ciphers entry = .ok ciphers') :
    ∃ key, ciphers' = ciphers.put ⟨entryVersion entry, key⟩ := by
  unfold addEntry at h
  dsimp only at h
  split_ifs at h with hempty hmalformed hduplicate
  rw [not_or, not_or] at hmalformed
  cases hcipher : decodeExecutionInputKeyringKey (trimSpace ((trimSpace entry).dropWhile (· ≠ ':')).tail) >>=
      (newExecutionInputCipherFromKeyBytes · (entryVersion entry)) with
  | error e =>
    rw [hcipher] at h
    cases h
  | ok cipher =>
    rw [hcipher] at h
    obtain ⟨key, -, hnew⟩ := exists_of_bind_ok hcipher
    unfold newExecutionInputCipherFromKeyBytes at hnew
    split_ifs at hnew
    have htrim : trimSpace (entryVersion entry) = entryVersion entry := Text.trimSpace_trimSpace _
    rw [versionOrDefault_of_trimmed htrim hmalformed.2.1] at hnew
    cases hnew
    cases h
    exact ⟨key, rfl⟩

theorem addEntries_versions {entries : List Text} (h : addEntries entries ciphers = .ok ciphers')
    (hget : ciphers'.get? version = some c) : ciphers.get? version = some c ∨ version ∈ entries.map entryVersion := by
  induction entries generalizing ciphers with
  | nil =>
    cases h
    exact .inl hget
  | cons entry entries ih =>
    obtain ⟨next, hnext, h⟩ := exists_of_bind_ok h
    obtain ⟨key, rfl⟩ := addEntry_spec hnext
    rcases ih h with hget | hmem
    · rw [get?_put] at hget
      split at hget
      · rename_i hversion
        exact .inr (hversion ▸ mem_cons_self)
      · exact .inl hget
    · exact .inr (mem_cons_of_mem _ hmem)

theorem buildExecutionInputKeyring_cases (h : buildExecutionInputKeyring config = .ok ring) :
    (trimSpace config.keyringRaw ≠ [] ∧
      addEntries ((trimSpace config.keyringRaw).splitOn ',') .empty = .ok ring.ciphers) ∨
    (trimSpace config.keyringRaw = [] ∧ ∃ key, key.length = 32 ∧
      ring.ciphers = single ⟨versionOrDefault config.legacyVersionRaw, key⟩) := by
  unfold buildExecutionInputKeyring at h
  by_cases hkeys : trimSpace config.keyringRaw ≠ []
  · simp only [if_pos hkeys] at h
    obtain ⟨ring', hparse, h⟩ := exists_of_bind_ok h
    have hring : ring' = ring := by
      split at h
      · obtain ⟨_, -, h⟩ := exists_of_bind_ok h
        cases h
        rfl
      · cases h
        rfl
    unfold parseExecutionInputKeyring at hparse
    dsimp only at hparse
    split_ifs at hparse
    obtain ⟨ciphers, hciphers, hparse⟩ := exists_of_bind_ok hparse
    split_ifs at hparse
    cases hparse
    exact .inl ⟨hkeys, hring ▸ hciphers⟩
  simp only [if_neg hkeys] at h
  split_ifs at h
  obtain ⟨cipher, hcipher, h⟩ := exists_of_bind_ok h
  obtain ⟨key, -, hnew⟩ := exists_of_bind_ok hcipher
  unfold newExecutionInputCipherFromKeyBytes at hnew
  split_ifs at h hnew with _ hlength
  cases hnew
  cases h
  exact .inr ⟨not_not.mp hkeys, key, not_not.mp hlength, rfl⟩

theorem listed_of_get? (h : buildExecutionInputKeyring config = .ok ring)
    (hget : ring.ciphers.get? version = some c) : version ∈ config.listed := by
  unfold KeyConfig.listed
  rcases buildExecutionInputKeyring_cases h with ⟨hkeys, hciphers⟩ | ⟨hkeys, key, -, hciphers⟩
  · rw [if_pos hkeys]
    exact (addEntries_versions hciphers hget).resolve_left nofun
  rw [if_neg (not_not.mpr hkeys), mem_singleton]
  rw [hciphers, get?_single] at hget
  split at hget
  · rename_i hversion
    exact hversion.symm
  · cases hget

theorem failsClosed (h : buildExecutionInputKeyring config = .ok ring) : FailsClosed config ring := by
  intro stored hstored
  unfold ExecutionInputKeyring.forVersion
  dsimp only
  split
  · rfl
  by_contra hsome
  obtain ⟨c, hget⟩ := Option.ne_none_iff_exists'.mp hsome
  exact hstored (listed_of_get? h hget)

theorem isSpace_of_trimmed {c : Char} {rest : Text} (h : trimSpace (c :: rest) = c :: rest) :
    Text.isSpace c = false := by
  by_contra hspace
  have hdrop : trimSpace (c :: rest) = trimSpace rest := by
    rw [trimSpace, trimSpace, dropWhile_cons_of_pos (by simpa using hspace)]
  have hle := (Text.trimSpace_infix rest).length_le
  rw [← hdrop, h, length_cons] at hle
  omega

def listEntry (version : Text) (key : List UInt8) : Text := version ++ ':' :: encode key

theorem clean_base64 (key : List UInt8) : ∀ c ∈ encode key, Text.isSpace c = false ∧ c ≠ ',' := by
  intro c hc
  have hchars : ∀ n < 64, char n ≠ ',' := by decide
  rcases mem_encode hc with rfl | ⟨n, hn, rfl⟩
  · decide
  · exact ⟨isSpace_char hn, hchars n hn⟩

theorem trimSpace_base64_end {c : Char} (t : Text) (hc : Text.isSpace c = false)
    (hkey : encode key ≠ []) : trimSpace (c :: (t ++ encode key)) = c :: (t ++ encode key) := by
  obtain ⟨front, last, hlast⟩ := (eq_nil_or_concat (encode key)).resolve_left hkey
  have hclean := (clean_base64 key last (by simp [hlast])).1
  rw [hlast, concat_eq_append, ← append_assoc, Text.trimSpace_between hc hclean]

theorem trimSpace_listEntry (htrim : trimSpace version = version) (hne : version ≠ [])
    (hkey : encode key ≠ []) : trimSpace (listEntry version key) = listEntry version key := by
  obtain ⟨c, rest, rfl⟩ := exists_cons_of_ne_nil hne
  have h := trimSpace_base64_end (rest ++ [':']) (isSpace_of_trimmed htrim) hkey
  rw [append_assoc] at h
  exact h

theorem decodeExecutionInputKeyringKey_base64 (hkey : key.length = 32) :
    decodeExecutionInputKeyringKey (encode key) = .ok key ∧ encode key ≠ [] := by
  have hdecode := decode_encode key
  have hne : encode key ≠ [] := by
    intro hnil
    rw [hnil] at hdecode
    cases hdecode
    cases hkey
  have hfirst : firstKey base64Decoders (encode key) = some key := by
    rw [firstKey, base64Decoders, findSome?_cons, hdecode, Option.filter_some, if_pos (by simpa using hkey)]
  unfold decodeExecutionInputKeyringKey
  simp only [Text.trimSpace_of_clean fun c hc => (clean_base64 key c hc).1, if_neg hne, hfirst]
  exact ⟨trivial, hne⟩

theorem entryVersion_listEntry (htrim : trimSpace version = version) (hversion : Separable version)
    (hkey : encode key ≠ []) :
    entryVersion (listEntry version key) = version ∧
      (trimSpace (listEntry version key)).dropWhile (· ≠ ':') = ':' :: encode key := by
  have hcolon : ∀ c ∈ version, decide (c ≠ ':') = true := fun c hc => by
    simpa using fun heq : c = ':' => hversion.2.2 (heq ▸ hc)
  rw [entryVersion, trimSpace_listEntry htrim hversion.1 hkey, listEntry, takeWhile_append_of_pos hcolon,
    dropWhile_append_of_pos hcolon]
  simp [htrim]

theorem addEntry_listEntry (htrim : trimSpace version = version) (hversion : Separable version)
    (hkey : key.length = 32) (hnew : ciphers.get? version = none) :
    addEntry ciphers (listEntry version key) = .ok (ciphers.put ⟨version, key⟩) := by
  obtain ⟨hdecode, hne⟩ := decodeExecutionInputKeyringKey_base64 hkey
  obtain ⟨hentry, hrest⟩ := entryVersion_listEntry htrim hversion hne
  have hclean := Text.trimSpace_of_clean fun c hc => (clean_base64 key c hc).1
  unfold addEntry
  simp only [hentry, hrest, tail_cons, hclean, hnew, ne_eq, not_true_eq_false, if_false]
  rw [if_neg, if_neg, hdecode]
  · unfold newExecutionInputCipherFromKeyBytes
    simp [hkey, versionOrDefault_of_trimmed htrim hversion.1, bind, Except.bind]
  · simp [hversion.1, hne]
  · rw [trimSpace_listEntry htrim hversion.1 hne, listEntry]
    simp

def rotated (version newVersion : Text) (key newKey : List UInt8) : KeyConfig :=
  ⟨listEntry version key ++ ',' :: listEntry newVersion newKey, newVersion, [], []⟩

theorem build_rotated (htrim : trimSpace version = version) (htrim' : trimSpace newVersion = newVersion)
    (hversion : Separable version) (hversion' : Separable newVersion) (hne : newVersion ≠ version)
    (hkey : key.length = 32) (hkey' : newKey.length = 32) :
    trimSpace (rotated version newVersion key newKey).keyringRaw ≠ [] ∧
      buildExecutionInputKeyring (rotated version newVersion key newKey) =
        .ok ⟨newVersion, (single ⟨version, key⟩).put ⟨newVersion, newKey⟩⟩ := by
  have hcomma : ∀ {v k}, Separable v → ',' ∉ listEntry v k := by
    intro v k hv hmem
    rcases mem_append.mp hmem with hmem | hmem
    · exact hv.2.1 hmem
    · exact (clean_base64 k ',' ((mem_cons.mp hmem).resolve_left (by decide))).2 rfl
  have hsplit : (listEntry version key ++ ',' :: listEntry newVersion newKey).splitOn ',' =
      [listEntry version key, listEntry newVersion newKey] := by
    rw [splitOn_append_cons_self, splitOn_eq_singleton (hcomma hversion),
      splitOn_eq_singleton (hcomma hversion')]
    rfl
  have hraw : trimSpace (listEntry version key ++ ',' :: listEntry newVersion newKey) =
      listEntry version key ++ ',' :: listEntry newVersion newKey := by
    obtain ⟨c, rest, rfl⟩ := exists_cons_of_ne_nil hversion.1
    have h := trimSpace_base64_end (rest ++ ':' :: encode key ++ ',' :: newVersion ++ [':'])
      (isSpace_of_trimmed htrim) (decodeExecutionInputKeyringKey_base64 hkey').2
    simpa [listEntry] using h
  have hget : (single ⟨version, key⟩).get? newVersion = none := by
    rw [get?_single, if_neg hne.symm]
  have hfirst : addEntry .empty (listEntry version key) = .ok (single ⟨version, key⟩) :=
    addEntry_listEntry htrim hversion hkey rfl
  have hparse : parseExecutionInputKeyring (listEntry version key ++ ',' :: listEntry newVersion newKey) newVersion =
      .ok ⟨newVersion, (single ⟨version, key⟩).put ⟨newVersion, newKey⟩⟩ := by
    unfold parseExecutionInputKeyring
    simp only [htrim', if_neg hversion'.1, hsplit, addEntries, hfirst, bind, Except.bind,
      addEntry_listEntry htrim' hversion' hkey' hget]
    rw [if_neg, if_neg]
    · rw [get?_put, if_pos rfl]
      exact Option.some_ne_none _
    intro hrows
    have hmem := mem_of_get? ((get?_put (⟨newVersion, newKey⟩ : ExecutionInputCipher)
      (single ⟨version, key⟩) newVersion).trans (if_pos rfl))
    rw [hrows] at hmem
    cases hmem
  have hne : listEntry version key ++ ',' :: listEntry newVersion newKey ≠ [] := by simp
  unfold buildExecutionInputKeyring rotated
  simp only [hraw, hparse, if_pos hne]
  exact ⟨hne, rfl⟩

theorem exists_newVersion (version : Text) :
    ∃ newVersion, newVersion ≠ version ∧ trimSpace newVersion = newVersion ∧ Separable newVersion := by
  by_cases h : version = "new"
  · exact ⟨"newer", by rw [h]; decide, by decide, by decide, by decide, by decide⟩
  · exact ⟨"new", fun heq => h heq.symm, by decide, by decide, by decide, by decide⟩

theorem forVersion_of_trimmed (ring : ExecutionInputKeyring) (htrim : trimSpace version = version)
    (hne : version ≠ []) : ring.forVersion version = ring.ciphers.get? version := by
  unfold ExecutionInputKeyring.forVersion
  simp only [htrim, if_neg hne]

theorem separable_of_list (h : buildExecutionInputKeyring config = .ok ring)
    (hkeys : trimSpace config.keyringRaw ≠ []) (hget : ring.forVersion version = some c) :
    Separable (trimSpace version) := by
  unfold ExecutionInputKeyring.forVersion at hget
  dsimp only at hget
  split at hget
  · cases hget
  rename_i hne
  have hlisted := listed_of_get? h hget
  rw [KeyConfig.listed, if_pos hkeys] at hlisted
  obtain ⟨entry, hentry, hversion⟩ := mem_map.mp hlisted
  exact ⟨hne, hversion ▸ notMem_entryVersion (notMem_of_mem_splitOn _ hentry)⟩

/-- What a single key configures can be rotated to any new key, and no version that is not listed has a key, if and
only if the single key has a version and the version has no comma and no colon. -/
theorem rotates_iff (config : KeyConfig) (ring : ExecutionInputKeyring) (hsingle : trimSpace config.keyringRaw = [])
    (h : buildExecutionInputKeyring config = .ok ring) :
    (Rotates ring ∧ ∀ config' ring', buildExecutionInputKeyring config' = .ok ring' → FailsClosed config' ring') ↔
      Separable (trimSpace config.legacyVersionRaw) := by
  obtain ⟨key, hkey, hciphers⟩ : ∃ key : List UInt8, key.length = 32 ∧
      ring.ciphers = single ⟨versionOrDefault config.legacyVersionRaw, key⟩ := by
    rcases buildExecutionInputKeyring_cases h with ⟨hkeys, -⟩ | ⟨-, h⟩
    · exact (hkeys hsingle).elim
    · exact h
  have hget := fun version => congrArg (·.get? version) hciphers
  simp only [get?_single] at hget
  constructor
  · rintro ⟨hrotates, -⟩
    obtain ⟨config', ring', hkeys, hbuild, hold, -⟩ := hrotates key hkey
    have hmem := mem_of_get? ((hget _).trans (if_pos rfl))
    have hversion := separable_of_list hbuild hkeys (hold _ hmem)
    dsimp only [versionOrDefault] at hversion
    split at hversion
    · exact absurd hversion.2.2 (by decide)
    · rwa [Text.trimSpace_trimSpace] at hversion
  intro hversion
  refine ⟨?_, fun _ _ => failsClosed⟩
  intro newKey hnew
  obtain ⟨newVersion, hne, htrim', hversion'⟩ := exists_newVersion (versionOrDefault config.legacyVersionRaw)
  have hname : versionOrDefault config.legacyVersionRaw = trimSpace config.legacyVersionRaw := if_neg hversion.1
  rw [hname] at hne hget hciphers
  have htrim := Text.trimSpace_trimSpace config.legacyVersionRaw
  obtain ⟨hkeys, hbuild⟩ := build_rotated htrim htrim' hversion hversion' hne hkey hnew
  refine ⟨_, _, hkeys, hbuild, ?_, newVersion, ?_, ?_⟩
  · intro c hc
    have hc := (hget c.keyVersion).symm.trans (get?_of_mem hc)
    split at hc
    · cases hc
      rw [forVersion_of_trimmed _ htrim hversion.1, get?_put, if_neg hne, get?_single, if_pos rfl]
    · cases hc
  · exact (get?_put _ _ _).trans (if_pos rfl)
  · rw [forVersion_of_trimmed _ htrim' hversion'.1, hget, if_neg hne.symm]

def longKey : Text := replicate 64 'a'

theorem rotates_production : ∃ ring, buildExecutionInputKeyring ⟨[], [], longKey, "prod-1".toList⟩ = .ok ring ∧
    Rotates ring := by
  refine ⟨_, rfl, ?_⟩
  exact ((rotates_iff ⟨[], [], longKey, "prod-1"⟩ _ (by decide) rfl).mpr ⟨by decide, by decide, by decide⟩).1

/-- A single key without a version cannot be listed. -/
theorem not_rotates_default : ∃ ring, buildExecutionInputKeyring ⟨[], [], longKey, []⟩ = .ok ring ∧ ¬Rotates ring := by
  refine ⟨_, rfl, ?_⟩
  intro h
  obtain ⟨config, ring, hkeys, hbuild, hold, -⟩ := h (replicate 32 0) (by decide)
  have hversion := separable_of_list hbuild hkeys (hold _ (mem_singleton_self _))
  exact absurd hversion.2.2 (by decide)

end Overture.InputKeyrings
