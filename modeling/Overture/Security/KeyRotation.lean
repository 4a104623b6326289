import Overture.Security.KeyVault

/-!
# Rotating the master key

A rotation reads the active keys, seals each again under a new master key and stores it at once, and keeps the new
master key only if every key went through. The former one is held for a grace period. Every call of the database and of
the random source may fail, and an update may be made although an error is reported.
-/

namespace Overture.KeyRotation

open Option List Table

open KeyVault (Sealed EncryptedKey KeyTable)

abbrev MasterKey := List UInt8

/-- AES in Galois counter mode. Opening stops the call on a nonce of the wrong size, and `some none` is an error. -/
structure Cipher where
  encryptWithKey : MasterKey → List UInt8 → Text → Sealed
  decryptWithKey : MasterKey → Sealed → Option (Option Text)
  decrypt_encrypt : ∀ key iv plaintext, decryptWithKey key (encryptWithKey key iv plaintext) = some (some plaintext)

inductive RotationError
  | generate
  | query
  | scan
  | count (reencrypted keys : Nat)

inductive Update
  | done
  | failed
  /-- The row was changed and the answer was lost. -/
  | lost
deriving DecidableEq

/-- What one rotation meets: the query or a scan of it may fail, and the iteration may break off, with the rows after
that not delivered. -/
structure Circumstances where
  newKey : Option MasterKey
  newKeyID : Text
  startedAt : Nat
  listing : Option RotationError
  delivered : Text → Bool
  newIV : Text → Option (List UInt8)
  update : Text → Update

structure KeyRotationManager where
  currentKey : MasterKey
  previousKey : Option MasterKey
  (currentKeyID previousKeyID : Text)
  (rotationStarted gracePeriod : Nat)

abbrev Outcome := KeyRotationManager × KeyTable × Except RotationError (MasterKey × Text)

section

variable (cipher : Cipher) (c : Circumstances)

/-- What is stored for a row and whether the row counts as re-encrypted. -/
def reencryptKey (old new : MasterKey) (k : EncryptedKey) : Option (Option Sealed × Bool) :=
  match cipher.decryptWithKey old k.secret with
  | none => none
  | some none => some (none, false)
  | some (some plaintext) =>
    match c.newIV k.id with
    | none => some (none, false)
    | some iv =>
      match c.update k.id with
      | .done => some (some (cipher.encryptWithKey new iv plaintext), true)
      | .failed => some (none, false)
      | .lost => some (some (cipher.encryptWithKey new iv plaintext), false)

def updated (id : Text) (secret : Option Sealed) (k : EncryptedKey) : EncryptedKey :=
  match secret with
  | none => k
  | some secret => if k.id = id then { k with secret := secret, keyVersion := k.keyVersion + 1 } else k

theorem updated_id (id : Text) (secret : Option Sealed) (k : EncryptedKey) : (updated id secret k).id = k.id := by
  unfold updated
  split
  · rfl
  · split <;> rfl

def store (id : Text) (rows : KeyTable) (secret : Option Sealed) : KeyTable :=
  rows.alter (updated id secret) (updated_id id secret)

def reencryptKeys (old new : MasterKey) : List EncryptedKey → KeyTable → Nat → Option (KeyTable × Nat)
  | [], rows, reencrypted => some (rows, reencrypted)
  | k :: ks, rows, reencrypted =>
    (reencryptKey cipher c old new k).bind fun result =>
      reencryptKeys old new ks (store k.id rows result.1) (if result.2 = true then reencrypted + 1 else reencrypted)

def Listed (k : EncryptedKey) : Bool := k.isActive && c.delivered k.id

/-- `none` where opening stops the call. -/
def reencryptAllKeys (old new : MasterKey) (rows : KeyTable) : Option (KeyTable × Except RotationError Unit) :=
  match c.listing with
  | some e => some (rows, .error e)
  | none =>
    let keys := rows.rows.filter (Listed c)
    (reencryptKeys cipher c old new keys rows 0).map fun result =>
      (result.1, if result.2 = keys.length then .ok () else .error (.count result.2 keys.length))

variable (krm : KeyRotationManager)

/-- The new key is returned in hexadecimal digits; saving the state of the rotation has no effect on the manager. -/
def rotateMasterKey (rows : KeyTable) : Option Outcome :=
  match c.newKey with
  | none => some (krm, rows, .error .generate)
  | some newKey =>
    (reencryptAllKeys cipher c krm.currentKey newKey rows).map fun result =>
      match result.2 with
      | .error e => (krm, result.1, .error e)
      | .ok () =>
        ({ krm with
            previousKey := some krm.currentKey
            previousKeyID := krm.currentKeyID
            currentKey := newKey
            currentKeyID := c.newKeyID
            rotationStarted := c.startedAt }, result.1, .ok (newKey, c.newKeyID))

def cleanupPreviousKey (now : Nat) (krm : KeyRotationManager) : KeyRotationManager :=
  if krm.previousKey = none then krm
  else if now - krm.rotationStarted < krm.gracePeriod then krm
  else { krm with previousKey := none, previousKeyID := [] }

def KeyRotationManager.keys (krm : KeyRotationManager) : List MasterKey := krm.currentKey :: krm.previousKey.toList

def returnedKey : Except RotationError (MasterKey × Text) → List MasterKey
  | .ok (key, _) => [key]
  | .error _ => []

def plaintext (keys : List MasterKey) (k : EncryptedKey) : Option Text :=
  keys.findSome? fun key => (cipher.decryptWithKey key k.secret).join

/-- Every row that was readable is readable to the same text with one of the keys. -/
def Readable (before : List MasterKey) (rows : KeyTable) (after : List MasterKey) (rows' : KeyTable) : Prop :=
  ∀ k ∈ rows.rows, ∀ text, plaintext cipher before k = some text →
    ∃ k', rows'.get? k.id = some k' ∧ ∃ key ∈ after, cipher.decryptWithKey key k'.secret = some (some text)

def RotationKeeps (rows : KeyTable) (out : Outcome) : Prop :=
  Readable cipher krm.keys rows (out.1.keys ++ returnedKey out.2.2) out.2.1 ∧
    ∀ now, Readable cipher krm.keys rows ((cleanupPreviousKey now out.1).keys ++ returnedKey out.2.2) out.2.1

def GoesThrough (k : EncryptedKey) : Prop :=
  (cipher.decryptWithKey krm.currentKey k.secret).join ≠ none ∧ c.newIV k.id ≠ none ∧ c.update k.id = .done

def Completes (rows : KeyTable) : Prop :=
  c.newKey ≠ none ∧ c.listing = none ∧
    ∀ k ∈ rows.rows, Listed c k = true → GoesThrough cipher c krm k

def Untouched (k : EncryptedKey) : Prop :=
  c.newKey = none ∨ c.listing ≠ none ∨ Listed c k = false ∨
    (cipher.decryptWithKey krm.currentKey k.secret).join = none ∨ c.newIV k.id = none ∨ c.update k.id = .failed

/-- A rotation that completes has every readable row on its list; in one that does not, every readable row opens under
the current key and is left as it was. -/
def RotationSafe (rows : KeyTable) : Prop :=
  ∀ k ∈ rows.rows, plaintext cipher krm.keys k ≠ none →
    (Completes cipher c krm rows → Listed c k = true) ∧
    (¬Completes cipher c krm rows →
      (cipher.decryptWithKey krm.currentKey k.secret).join ≠ none ∧ Untouched cipher c krm k)

/-- The new key opens no row that is stored, and the current key opens none that is sealed under the new one. -/
def FreshKey (rows : KeyTable) : Prop :=
  ∀ newKey, c.newKey = some newKey → ∀ k ∈ rows.rows,
    (cipher.decryptWithKey newKey k.secret).join = none ∧
    ∀ iv text, c.newIV k.id = some iv → cipher.decryptWithKey krm.currentKey k.secret = some (some text) →
      (cipher.decryptWithKey krm.currentKey (cipher.encryptWithKey newKey iv text)).join = none

variable {cipher c}

variable {k : EncryptedKey} {krm : KeyRotationManager} {new newKey : MasterKey} {rows rows' : KeyTable} {n : Nat}
  {text : Text}

theorem updated_of_ne {id : Text} {secret : Option Sealed} (h : k.id ≠ id) :
    updated id secret k = k := by
  unfold updated
  split
  · rfl
  · rw [if_neg h]

theorem reencryptKey_counts_iff :
    (∃ secret, reencryptKey cipher c krm.currentKey new k = some (secret, true)) ↔ GoesThrough cipher c krm k := by
  unfold reencryptKey GoesThrough
  rcases cipher.decryptWithKey krm.currentKey k.secret with _ | _ | text
  · simp
  · simp
  · cases c.newIV k.id with
    | none => simp
    | some iv => cases hupdate : c.update k.id <;> simp

theorem reencryptKey_stores
    {result : Option Sealed × Bool} (h : reencryptKey cipher c krm.currentKey new k = some result) :
    (result.1 = none ∧ ((cipher.decryptWithKey krm.currentKey k.secret).join = none ∨ c.newIV k.id = none ∨
      c.update k.id = .failed)) ∨
    ∃ iv text, c.newIV k.id = some iv ∧ cipher.decryptWithKey krm.currentKey k.secret = some (some text) ∧
      c.update k.id ≠ .failed ∧ result.1 = some (cipher.encryptWithKey new iv text) := by
  unfold reencryptKey at h
  rcases hopened : cipher.decryptWithKey krm.currentKey k.secret with _ | _ | text
  · rw [hopened] at h
    cases h
  · rw [hopened] at h
    cases h
    exact .inl ⟨rfl, .inl rfl⟩
  rw [hopened] at h
  cases hiv : c.newIV k.id with
  | none =>
    rw [hiv] at h
    cases h
    exact .inl ⟨rfl, .inr (.inl rfl)⟩
  | some iv =>
    rw [hiv] at h
    cases hupdate : c.update k.id <;> rw [hupdate] at h <;> cases h
    · exact .inr ⟨iv, text, rfl, rfl, nofun, rfl⟩
    · exact .inl ⟨rfl, .inr (.inr rfl)⟩
    · exact .inr ⟨iv, text, rfl, rfl, nofun, rfl⟩

theorem reencryptKeys_rows {old : MasterKey} {ks : List EncryptedKey} {n' : Nat}
    (h : reencryptKeys cipher c old new ks rows n = some (rows', n')) (hnodup : (ks.map EncryptedKey.id).Nodup) :
    (∀ id ∉ ks.map EncryptedKey.id, rows'.get? id = rows.get? id) ∧
    ∀ k ∈ ks, ∃ result, reencryptKey cipher c old new k = some result ∧
      rows'.get? k.id = (rows.get? k.id).map (updated k.id result.1) := by
  induction ks generalizing rows n with
  | nil =>
    cases h
    exact ⟨fun _ _ => rfl, nofun⟩
  | cons k ks ih =>
    obtain ⟨result, hresult, h⟩ := bind_eq_some_iff.mp h
    rw [map_cons, nodup_cons] at hnodup
    obtain ⟨hothers, heach⟩ := ih h hnodup.2
    -- The update of the first row leaves the other ones as they are.
    have hframe : ∀ id, k.id ≠ id → (store k.id rows result.1).get? id = rows.get? id := by
      intro id hne
      rw [store, get?_alter]
      cases hget : rows.get? id with
      | none => rfl
      | some j =>
        rw [map_some, updated_of_ne]
        rw [key_of_get? hget]
        exact hne.symm
    constructor
    · intro id hid
      rw [map_cons, mem_cons, not_or] at hid
      rw [hothers id hid.2, hframe id fun h => hid.1 h.symm]
    intro j hj
    rcases mem_cons.mp hj with rfl | hj
    · refine ⟨result, hresult, ?_⟩
      rw [hothers j.id hnodup.1, store, get?_alter]
    obtain ⟨result', hresult', hget⟩ := heach j hj
    refine ⟨result', hresult', ?_⟩
    rw [hget, hframe]
    intro hid
    exact hnodup.1 (hid ▸ mem_map_of_mem hj)

theorem reencryptKeys_count {old : MasterKey} {ks : List EncryptedKey} {n' : Nat}
    (h : reencryptKeys cipher c old new ks rows n = some (rows', n')) :
    n' ≤ n + ks.length ∧
      (n' = n + ks.length ↔ ∀ k ∈ ks, ∃ secret, reencryptKey cipher c old new k = some (secret, true)) := by
  induction ks generalizing rows n with
  | nil =>
    cases h
    exact ⟨le_rfl, fun _ => nofun, fun _ => rfl⟩
  | cons k ks ih =>
    obtain ⟨⟨secret, counted⟩, hresult, h⟩ := bind_eq_some_iff.mp h
    obtain ⟨hle, hiff⟩ := ih h
    rw [forall_mem_cons, hresult, length_cons, ← hiff]
    cases counted with
    | true =>
      rw [if_pos rfl] at hle ⊢
      refine ⟨by omega, fun h => ⟨⟨secret, rfl⟩, by omega⟩, fun h => by omega⟩
    | false =>
      rw [if_neg Bool.false_ne_true] at hle ⊢
      refine ⟨by omega, fun h => by omega, ?_⟩
      rintro ⟨⟨secret', hcounted⟩, -⟩
      cases hcounted

theorem keys_cleanup (krm : KeyRotationManager) :
    (cleanupPreviousKey (krm.rotationStarted + krm.gracePeriod) krm).keys = [krm.currentKey] := by
  unfold cleanupPreviousKey
  split
  · rename_i hnone
    rw [KeyRotationManager.keys, hnone, toList_none]
  · rw [if_neg (by omega)]
    rfl

theorem currentKey_mem_cleanup (now : Nat) (krm : KeyRotationManager) :
    krm.currentKey ∈ (cleanupPreviousKey now krm).keys := by
  unfold cleanupPreviousKey
  split
  · exact mem_cons_self
  · split <;> exact mem_cons_self

/-- Only the current key counts: the previous one is dropped by a clean-up, and a key that is returned is the current
one. -/
theorem rotationKeeps_iff_current {out : Outcome}
    (hreturned : ∀ key ∈ returnedKey out.2.2, key = out.1.currentKey) :
    RotationKeeps cipher krm rows out ↔ Readable cipher krm.keys rows [out.1.currentKey] out.2.1 := by
  constructor
  · rintro ⟨-, hcleanup⟩ k hk text htext
    obtain ⟨k', hget, key, hkey, hopens⟩ := hcleanup _ k hk text htext
    refine ⟨k', hget, key, ?_, hopens⟩
    rw [keys_cleanup] at hkey
    rcases mem_append.mp hkey with hkey | hkey
    · exact hkey
    · exact mem_singleton.mpr (hreturned key hkey)
  intro h
  have hmore : ∀ keys, out.1.currentKey ∈ keys → Readable cipher krm.keys rows keys out.2.1 := by
    intro keys hmem k hk text htext
    obtain ⟨k', hget, key, hkey, hopens⟩ := h k hk text htext
    exact ⟨k', hget, key, mem_singleton.mp hkey ▸ hmem, hopens⟩
  refine ⟨hmore _ (mem_append_left _ mem_cons_self), fun now => hmore _ ?_⟩
  exact mem_append_left _ (currentKey_mem_cleanup now _)

theorem plaintext_of_current
    (h : cipher.decryptWithKey krm.currentKey k.secret = some (some text)) :
    plaintext cipher krm.keys k = some text := by
  rw [plaintext, KeyRotationManager.keys, findSome?_cons, h]
  rfl

/-- The row is as it was, or it is sealed again under the new key. -/
def RowAfter (cipher : Cipher) (c : Circumstances) (krm : KeyRotationManager) (rows' : KeyTable) (k : EncryptedKey) :
    Prop :=
  (Untouched cipher c krm k ∧ rows'.get? k.id = some k) ∨
  (¬Untouched cipher c krm k ∧ ∃ newKey iv text k', c.newKey = some newKey ∧ c.newIV k.id = some iv ∧
    cipher.decryptWithKey krm.currentKey k.secret = some (some text) ∧ rows'.get? k.id = some k' ∧
    k'.secret = cipher.encryptWithKey newKey iv text)

theorem rowAfter_of_loop (hnew : c.newKey = some newKey) (hlisting : c.listing = none)
    (h : reencryptKeys cipher c krm.currentKey newKey (rows.rows.filter (Listed c)) rows 0 = some (rows', n))
    (hk : k ∈ rows.rows) : RowAfter cipher c krm rows' k := by
  obtain ⟨hothers, heach⟩ := reencryptKeys_rows h (rows.nodup.sublist (filter_sublist.map _))
  cases hlisted : Listed c k with
  | false =>
    refine .inl ⟨.inr (.inr (.inl hlisted)), ?_⟩
    rw [hothers, get?_of_mem hk]
    intro hmem
    obtain ⟨j, hj, hid⟩ := mem_map.mp hmem
    rw [mem_filter] at hj
    have hsame : some j = some k := by rw [← get?_of_mem hj.1, hid, get?_of_mem hk]
    rw [some.inj hsame, hlisted] at hj
    exact Bool.false_ne_true hj.2
  | true =>
    obtain ⟨result, hresult, hget⟩ := heach k (mem_filter.mpr ⟨hk, hlisted⟩)
    rw [get?_of_mem hk, map_some] at hget
    rcases reencryptKey_stores hresult with ⟨hnone, huntouched⟩ | ⟨iv, text, hiv, htext, hupdate, hstored⟩
    · rw [hnone] at hget
      exact .inl ⟨.inr (.inr (.inr huntouched)), hget⟩
    refine .inr ⟨?_, newKey, iv, text, _, hnew, hiv, htext, hget, ?_⟩
    · simp [Untouched, hnew, hlisting, hlisted, htext, hiv, hupdate]
    · simp only [updated, hstored, if_true]

theorem completes_iff_count
    (hnew : c.newKey = some newKey) (hlisting : c.listing = none)
    (h : reencryptKeys cipher c krm.currentKey newKey (rows.rows.filter (Listed c)) rows 0 = some (rows', n)) :
    n = (rows.rows.filter (Listed c)).length ↔ Completes cipher c krm rows := by
  have hcount := (reencryptKeys_count h).2
  rw [Nat.zero_add] at hcount
  rw [hcount]
  constructor
  · intro hall
    refine ⟨hnew ▸ some_ne_none _, hlisting, fun k hk hlisted => ?_⟩
    exact reencryptKey_counts_iff.mp (hall k (mem_filter.mpr ⟨hk, hlisted⟩))
  rintro ⟨-, -, hall⟩ k hk
  rw [mem_filter] at hk
  exact reencryptKey_counts_iff.mpr (hall k hk.1 hk.2)

theorem rotateMasterKey_cases {out : Outcome}
    (h : rotateMasterKey cipher c krm rows = some out) :
    ((Completes cipher c krm rows ∧ c.newKey = some out.1.currentKey ∧ returnedKey out.2.2 = [out.1.currentKey]) ∨
      (¬Completes cipher c krm rows ∧ out.1 = krm ∧ returnedKey out.2.2 = [])) ∧
    ∀ k ∈ rows.rows, RowAfter cipher c krm out.2.1 k := by
  unfold rotateMasterKey at h
  cases hnew : c.newKey with
  | none =>
    rw [hnew] at h
    cases h
    exact ⟨.inr ⟨fun h => h.1 hnew, rfl, rfl⟩, fun k hk => .inl ⟨.inl hnew, get?_of_mem hk⟩⟩
  | some newKey =>
    rw [hnew] at h
    obtain ⟨result, hresult, rfl⟩ := map_eq_some_iff.mp h
    unfold reencryptAllKeys at hresult
    cases hlisting : c.listing with
    | some e =>
      rw [hlisting] at hresult
      cases hresult
      have hsome : c.listing ≠ none := hlisting ▸ some_ne_none e
      exact ⟨.inr ⟨fun h => hsome h.2.1, rfl, rfl⟩, fun k hk => .inl ⟨.inr (.inl hsome), get?_of_mem hk⟩⟩
    | none =>
    rw [hlisting] at hresult
    obtain ⟨⟨rows', n⟩, hloop, rfl⟩ := map_eq_some_iff.mp hresult
    have hcompletes := completes_iff_count hnew hlisting hloop
    have hrows : ∀ k ∈ rows.rows, RowAfter cipher c krm rows' k := fun k hk =>
      rowAfter_of_loop hnew hlisting hloop hk
    by_cases hn : n = (rows.rows.filter (Listed c)).length
    · simp only [if_pos hn]
      exact ⟨.inl ⟨hcompletes.mp hn, trivial, rfl⟩, hrows⟩
    · simp only [if_neg hn]
      exact ⟨.inr ⟨fun h => hn (hcompletes.mpr h), trivial, rfl⟩, hrows⟩

theorem opens_new_iff_listed (hfresh : FreshKey cipher c krm rows) (hnew : c.newKey = some newKey)
    (hcompletes : Completes cipher c krm rows) (hk : k ∈ rows.rows) (hrow : RowAfter cipher c krm rows' k)
    (htext : plaintext cipher krm.keys k = some text) :
    (∃ k', rows'.get? k.id = some k' ∧ ∃ key ∈ [newKey], cipher.decryptWithKey key k'.secret = some (some text)) ↔
      Listed c k = true := by
  rcases hrow with ⟨huntouched, hget⟩ | ⟨hchanged, newKey', iv, text', k', hnew', -, htext', hget, hsecret⟩
  · constructor
    · rintro ⟨k', hget', key, hkey, hopens⟩
      cases hget.symm.trans hget'
      have hnone := (hfresh newKey hnew k hk).1
      rw [← mem_singleton.mp hkey, hopens] at hnone
      cases hnone
    · intro hlisted
      obtain ⟨hopens, hiv, hdone⟩ := hcompletes.2.2 k hk hlisted
      simp [Untouched, hcompletes.1, hcompletes.2.1, hlisted, hopens, hiv, hdone] at huntouched
  constructor
  · intro
    by_contra hunlisted
    exact hchanged (.inr (.inr (.inl (Bool.not_eq_true _ ▸ hunlisted))))
  · intro
    cases hnew.symm.trans hnew'
    cases (plaintext_of_current htext').symm.trans htext
    exact ⟨k', hget, newKey, mem_singleton_self _, by rw [hsecret, cipher.decrypt_encrypt]⟩

theorem opens_current_iff_untouched
    (hfresh : FreshKey cipher c krm rows) (hk : k ∈ rows.rows) (hrow : RowAfter cipher c krm rows' k)
    (htext : plaintext cipher krm.keys k = some text) :
    (∃ k', rows'.get? k.id = some k' ∧
        ∃ key ∈ [krm.currentKey], cipher.decryptWithKey key k'.secret = some (some text)) ↔
      (cipher.decryptWithKey krm.currentKey k.secret).join ≠ none ∧ Untouched cipher c krm k := by
  rcases hrow with ⟨huntouched, hget⟩ | ⟨hchanged, newKey, iv, text', k', hnew, hiv, htext', hget, hsecret⟩
  · constructor
    · rintro ⟨k', hget', key, hkey, hopens⟩
      cases hget.symm.trans hget'
      rw [mem_singleton.mp hkey] at hopens
      exact ⟨by simp [hopens], huntouched⟩
    · rintro ⟨hopens, -⟩
      obtain ⟨text', htext'⟩ := ne_none_iff_exists'.mp hopens
      have hplain := join_eq_some_iff.mp htext'
      cases (plaintext_of_current hplain).symm.trans htext
      exact ⟨k, hget, krm.currentKey, mem_singleton_self _, hplain⟩
  constructor
  · rintro ⟨k'', hget', key, hkey, hopens⟩
    cases hget.symm.trans hget'
    have hnone := (hfresh newKey hnew k hk).2 iv text' hiv htext'
    rw [← hsecret, ← mem_singleton.mp hkey, hopens] at hnone
    cases hnone
  · rintro ⟨-, huntouched⟩
    exact (hchanged huntouched).elim

/-- Every row that was readable stays readable, with the keys that are held and after a clean-up, if and only if the
rotation completes with every such row on its list, or leaves every such row as it was, under the current key. -/
theorem rotationKeeps_iff (cipher : Cipher) (c : Circumstances) (krm : KeyRotationManager) (rows : KeyTable)
    (out : Outcome) (hfresh : FreshKey cipher c krm rows) (h : rotateMasterKey cipher c krm rows = some out) :
    RotationKeeps cipher krm rows out ↔ RotationSafe cipher c krm rows := by
  obtain ⟨⟨hcompletes, hnew, hreturned⟩ | ⟨hcompletes, hkrm, hreturned⟩, hrows⟩ := rotateMasterKey_cases h
  · rw [rotationKeeps_iff_current (by simp [hreturned])]
    constructor
    · intro hreadable k hk hplain
      obtain ⟨text, htext⟩ := ne_none_iff_exists'.mp hplain
      have hiff := opens_new_iff_listed hfresh hnew hcompletes hk (hrows k hk) htext
      exact ⟨fun _ => hiff.mp (hreadable k hk text htext), fun hnot => (hnot hcompletes).elim⟩
    intro hsafe k hk text htext
    have hiff := opens_new_iff_listed hfresh hnew hcompletes hk (hrows k hk) htext
    exact hiff.mpr ((hsafe k hk (htext ▸ some_ne_none _)).1 hcompletes)
  rw [rotationKeeps_iff_current (by simp [hreturned]), hkrm]
  constructor
  · intro hreadable k hk hplain
    obtain ⟨text, htext⟩ := ne_none_iff_exists'.mp hplain
    have hiff := opens_current_iff_untouched hfresh hk (hrows k hk) htext
    exact ⟨fun hdone => (hcompletes hdone).elim, fun _ => hiff.mp (hreadable k hk text htext)⟩
  intro hsafe k hk text htext
  have hiff := opens_current_iff_untouched hfresh hk (hrows k hk) htext
  exact hiff.mpr ((hsafe k hk (htext ▸ some_ne_none _)).2 hcompletes)

end

def taggedCipher : Cipher where
  encryptWithKey key iv plaintext := ⟨plaintext, Hex.encode iv, Hex.encode key⟩
  decryptWithKey key sealed := some (if sealed.tag = Hex.encode key then some sealed.encryptedKey else none)
  decrypt_encrypt key iv plaintext := by simp only [if_true]

def storedKey (id : Text) : EncryptedKey :=
  { id, tenantID := [], provider := [], keyName := [], secret := taggedCipher.encryptWithKey [1] [] "secret"
    keyVersion := 1, isActive := true, isValid := none, lastValidated := none, createdAt := 0, createdBy := [] }

def storedKeys : KeyTable := ⟨[storedKey "a", storedKey "b"], by decide⟩

def manager : KeyRotationManager := ⟨[1], none, "key_1", [], 0, 7⟩

def meeting (b : Update) : Circumstances :=
  ⟨some [2], "key_2", 10, none, fun _ => true, fun _ => some [0],
    fun id => if id = "b" then b else .done⟩

theorem freshKey_meeting (b : Update) : FreshKey taggedCipher (meeting b) manager storedKeys := by
  intro newKey hnew k hk
  cases hnew
  have htags : Hex.encode [2] ≠ Hex.encode [1] := by decide
  constructor
  · simp only [storedKeys, mem_cons, not_mem_nil, or_false] at hk
    rcases hk with rfl | rfl <;> decide
  intro iv text _ _
  change (some (if Hex.encode [2] = Hex.encode [1] then some text else none)).join = none
  rw [if_neg htags]
  rfl

theorem rotationKeeps_done : ∃ out, rotateMasterKey taggedCipher (meeting .done) manager storedKeys = some out ∧
    (RotationKeeps taggedCipher manager storedKeys out ↔
      RotationSafe taggedCipher (meeting .done) manager storedKeys) :=
  ⟨_, rfl, rotationKeeps_iff _ _ _ _ _ (freshKey_meeting .done) rfl⟩

/-- The second update fails, and the first row is sealed under a key that nobody has. -/
theorem not_rotationKeeps_failed : FreshKey taggedCipher (meeting .failed) manager storedKeys ∧
    ∃ out, rotateMasterKey taggedCipher (meeting .failed) manager storedKeys = some out ∧
      ¬RotationKeeps taggedCipher manager storedKeys out := by
  refine ⟨freshKey_meeting .failed, _, rfl, ?_⟩
  rintro ⟨h, -⟩
  obtain ⟨k', hget, key, hkey, hopens⟩ := h (storedKey "a") List.mem_cons_self "secret" (by decide)
  cases hget
  cases mem_singleton.mp hkey
  revert hopens
  decide

end Overture.KeyRotation
