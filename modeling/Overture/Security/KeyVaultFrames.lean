import Overture.Security.KeyVault

/-!
# Changes of the key vault

In memory the addresses of two tenants, or of two providers of a tenant, are told apart when tenants and providers have
no colon. A change of the keys of one tenant and provider then leaves the others as they were, and what may be their
active key.
-/

namespace Overture.KeyVault

open List Table

variable {cfg : Config}

variable {t p t' p' : Text} {s s' : Vault} {k : EncryptedKey}

theorem mapKeyOf_inj {n n' : Text} (h : mapKeyOf t p n = mapKeyOf t' p' n') (ht : ':' ∉ t) (hp : ':' ∉ p)
    (ht' : ':' ∉ t') (hp' : ':' ∉ p') : t = t' ∧ p = p' ∧ n = n' := by
  obtain ⟨htenant, hrest⟩ := Delimited.cut_first h ht ht'
  obtain ⟨hprovider, hname⟩ := Delimited.cut_first hrest hp hp'
  exact ⟨htenant, hprovider, hname⟩

theorem addressFront_iff {mapKey : Text} :
    (addressFront t p).isPrefixOf mapKey = true ↔ ∃ n, mapKey = mapKeyOf t p n := by
  rw [ isPrefixOf_iff_prefix]
  constructor <;> rintro ⟨n, rfl⟩ <;> exact ⟨n, by simp [addressFront, mapKeyOf]⟩

def Addressed (memory : Table MemoryEntry.mapKey) : Prop :=
  ∀ e ∈ memory.rows, e.mapKey = mapKeyOf e.key.tenantID e.key.provider e.key.keyName ∧
    ':' ∉ e.key.tenantID ∧ ':' ∉ e.key.provider

theorem owned_of_address {memory : Table MemoryEntry.mapKey} (h : Addressed memory) {e : MemoryEntry}
    (he : e ∈ memory.rows) {n : Text} (ht : ':' ∉ t) (hp : ':' ∉ p) (hkey : e.mapKey = mapKeyOf t p n) :
    Owned t p e.key := by
  obtain ⟨haddress, htenant, hprovider⟩ := h e he
  obtain ⟨rfl, rfl, -⟩ := mapKeyOf_inj (haddress.symm.trans hkey) htenant hprovider ht hp
  exact ⟨rfl, rfl⟩

structure Framed (t p : Text) (s s' : Vault) : Prop where
  memory : ∀ mapKey, (∀ n, mapKey ≠ mapKeyOf t p n) → s'.memory.get? mapKey = s.memory.get? mapKey
  rows : ∀ k, ¬Owned t p k → (k ∈ s'.rows.rows ↔ k ∈ s.rows.rows)

theorem Framed.refl (t p : Text) (s : Vault) : Framed t p s s := ⟨fun _ _ => rfl, fun _ _ => Iff.rfl⟩

theorem mem_candidatesDB : k ∈ candidatesDB s t p ↔
    k ∈ s.rows.rows ∧ Owned t p k ∧ k.isActive = true ∧
      ∀ other ∈ s.rows.rows, Owned t p other → other.isActive = true → other.createdAt ≤ k.createdAt := by
  simp only [candidatesDB, mem_filter, Bool.and_eq_true, decide_eq_true_eq, all_eq_true, and_imp, and_assoc]

theorem candidatesDB_framed (h : Framed t p s s') (hne : ¬(t' = t ∧ p' = p))
    : k ∈ candidatesDB s' t' p' ↔ k ∈ candidatesDB s t' p' := by
  have hsame : ∀ k, Owned t' p' k → (k ∈ s'.rows.rows ↔ k ∈ s.rows.rows) := by
    rintro k ⟨rfl, rfl⟩
    exact h.rows k hne
  rw [mem_candidatesDB, mem_candidatesDB]
  constructor
  · rintro ⟨hmem, howned, hactive, hlast⟩
    exact ⟨(hsame k howned).mp hmem, howned, hactive,
      fun other hother ho => hlast other ((hsame other ho).mpr hother) ho⟩
  rintro ⟨hmem, howned, hactive, hlast⟩
  exact ⟨(hsame k howned).mpr hmem, howned, hactive,
    fun other hother ho => hlast other ((hsame other ho).mp hother) ho⟩

theorem candidatesMemory_framed (h : Framed t p s s') (hne : ¬(t' = t ∧ p' = p))
    (ht : ':' ∉ t) (hp : ':' ∉ p) (ht' : ':' ∉ t') (hp' : ':' ∉ p') {e : MemoryEntry} :
    e ∈ candidatesMemory s' t' p' ↔ e ∈ candidatesMemory s t' p' := by
  have hsame : ∀ n, s'.memory.get? (mapKeyOf t' p' n) = s.memory.get? (mapKeyOf t' p' n) := by
    intro n
    apply h.memory
    intro n' heq
    obtain ⟨rfl, rfl, -⟩ := mapKeyOf_inj heq ht' hp' ht hp
    exact hne ⟨rfl, rfl⟩
  simp only [candidatesMemory, hsame]
  split
  · rfl
  simp only [mem_filter, Bool.and_eq_true, addressFront_iff]
  constructor
  · rintro ⟨hmem, ⟨n, hn⟩, hactive⟩
    have hget := hsame n
    rw [← hn, get?_of_mem hmem] at hget
    exact ⟨mem_of_get? hget.symm, ⟨n, hn⟩, hactive⟩
  rintro ⟨hmem, ⟨n, hn⟩, hactive⟩
  have hget := hsame n
  rw [← hn, get?_of_mem hmem] at hget
  exact ⟨mem_of_get? hget, ⟨n, hn⟩, hactive⟩

theorem candidates_framed (h : Framed t p s s') (hne : ¬(t' = t ∧ p' = p))
    (hplain : Plain cfg t p) (hplain' : Plain cfg t' p') :
    k ∈ candidates cfg s' t' p' ↔ k ∈ candidates cfg s t' p' := by
  rw [candidates, candidates]
  split
  · exact candidatesDB_framed h hne
  next henabled =>
  rw [Bool.not_eq_true] at henabled
  simp only [mem_map, candidatesMemory_framed h hne hplain.1 (hplain.2 henabled) hplain'.1 (hplain'.2 henabled)]

theorem stored_framed (h : Framed t p s s') (hplain : Plain cfg t p)
    (hs : Addressed s.memory) (hs' : Addressed s'.memory) (hk : ¬Owned t p k) :
    k ∈ stored cfg s' ↔ k ∈ stored cfg s := by
  rw [stored, stored]
  split
  · exact h.rows k hk
  next henabled =>
  rw [Bool.not_eq_true] at henabled
  have hother {memory : Table MemoryEntry.mapKey} (hm : Addressed memory) {e : MemoryEntry} (he : e ∈ memory.rows)
      (hke : e.key = k) (n : Text) : e.mapKey ≠ mapKeyOf t p n := by
    intro hkey
    exact hk (hke ▸ owned_of_address hm he hplain.1 (hplain.2 henabled) hkey)
  simp only [mem_map]
  constructor
  · rintro ⟨e, he, hke⟩
    have hget := h.memory e.mapKey (hother hs' he hke)
    rw [get?_of_mem he] at hget
    exact ⟨e, mem_of_get? hget.symm, hke⟩
  rintro ⟨e, he, hke⟩
  have hget := h.memory e.mapKey (hother hs he hke)
  rw [get?_of_mem he] at hget
  exact ⟨e, mem_of_get? hget, hke⟩

structure Local (t p : Text) (s : Vault) (o : Outcome) : Prop where
  framed : Framed t p s o.vault
  addressed : Addressed o.vault.memory
  cache : o.vault.cache = s.cache
  answers : o.vault.answers = s.answers
  now : o.vault.now = s.now
  read : ∀ k ∈ o.read, Owned t p k

theorem mem_of_pick {α : Type} {n : Nat} {l : List α} {a : α} (h : pick n l = some a) : a ∈ l :=
  mem_of_getElem? h

section Changes

variable {t p : Text} {s : Vault}

variable {rows : KeyTable} {read : List EncryptedKey} {reply : Reply}

theorem mem_map_of_change {k₀ : EncryptedKey} (hmem : k₀ ∈ s.rows.rows) (howned : Owned t p k₀)
    {change : EncryptedKey → EncryptedKey}
    (hrows : rows.rows = s.rows.rows.map fun k => if k.id = k₀.id then change k else k)
    (hchange : ∀ k, (change k).tenantID = k.tenantID ∧ (change k).provider = k.provider) (k : EncryptedKey)
    (hk : ¬Owned t p k) : k ∈ rows.rows ↔ k ∈ s.rows.rows := by
  have honly : ∀ k' ∈ s.rows.rows, k'.id = k₀.id → k' = k₀ := fun k' hk' hid =>
    inj_on_of_nodup_map s.rows.nodup hk' hmem hid
  rw [hrows, mem_map]
  constructor
  · rintro ⟨k', hk', rfl⟩
    split at hk
    · next hid =>
      obtain rfl := honly k' hk' hid
      obtain ⟨htenant, hprovider⟩ := hchange k'
      exact absurd ⟨htenant.trans howned.1, hprovider.trans howned.2⟩ hk
    next hid =>
    rw [if_neg hid]
    exact hk'
  · intro hk'
    refine ⟨k, hk', if_neg fun hid => hk ?_⟩
    rw [honly k hk' hid]
    exact howned

theorem local_fail (hs : Addressed s.memory) (hread : ∀ k ∈ read, Owned t p k) :
    Local t p s (fail s read) := ⟨.refl t p s, hs, rfl, rfl, rfl, hread⟩

theorem local_rows (hs : Addressed s.memory)
    (hrows : ∀ k, ¬Owned t p k → (k ∈ rows.rows ↔ k ∈ s.rows.rows))
    (hread : ∀ k ∈ read, Owned t p k) : Local t p s ⟨{ s with rows }, reply, read⟩ :=
  ⟨⟨fun _ _ => rfl, hrows⟩, hs, rfl, rfl, rfl, hread⟩

theorem local_unanswered (hs : Addressed s.memory)
    (hrows : ∀ k, ¬Owned t p k → (k ∈ rows.rows ↔ k ∈ s.rows.rows)) (effective : Bool)
    (hread : ∀ k ∈ read, Owned t p k) :
    Local t p s (fail (if effective = true then { s with rows } else s) read) := by
  split
  · exact local_rows hs hrows hread
  · exact local_fail hs hread

theorem callProcedure_local (hs : Addressed s.memory)
    {procedure : KeyArgs → KeyTable → Option (KeyTable × Text)} (h : WritesFor procedure) (c : Chance)
    (args : KeyArgs) : Local args.tenantID args.provider s (callProcedure procedure c args s) := by
  rw [callProcedure]
  cases hcall : procedure args s.rows with
  | none => exact local_fail hs (by simp)
  | some result =>
    obtain ⟨rows, id⟩ := result
    obtain ⟨hrows, hid⟩ := h args s.rows rows id hcall
    dsimp only
    split
    · cases hget : rows.get? id with
      | none => exact local_rows hs hrows (by simp)
      | some k => exact local_rows hs hrows (by simpa using hid k hget)
    · exact local_unanswered hs hrows c.effective (by simp)

theorem put_local (hs : Addressed s.memory) (ht : ':' ∉ t) (hp : ':' ∉ p) {key : EncryptedKey} {n : Text}
    (hkey : Owned t p key) (hname : key.keyName = n)
    (hread : ∀ k ∈ read, Owned t p k) :
    Local t p s ⟨{ s with memory := s.memory.put ⟨mapKeyOf t p n, key⟩ }, reply, read⟩ := by
  refine ⟨⟨?_, fun _ _ => Iff.rfl⟩, ?_, rfl, rfl, rfl, hread⟩
  · intro mapKey hother
    rw [get?_put, if_neg (Ne.symm (hother n))]
  intro e he
  have hget := get?_of_mem he
  rw [get?_put] at hget
  split at hget
  · cases hget
    obtain ⟨rfl, rfl⟩ := hkey
    exact ⟨by rw [hname], ht, hp⟩
  · exact hs e (mem_of_get? hget)

theorem changeAt_local (hs : Addressed s.memory) (n : Text) {change : EncryptedKey → EncryptedKey}
    (hchange : ∀ k, (change k).tenantID = k.tenantID ∧ (change k).provider = k.provider ∧
      (change k).keyName = k.keyName) (hread : ∀ k ∈ read, Owned t p k) :
    Local t p s ⟨{ s with memory := changeAt (mapKeyOf t p n) change s.memory }, reply, read⟩ := by
  refine ⟨⟨?_, fun _ _ => Iff.rfl⟩, ?_, rfl, rfl, rfl, hread⟩
  · intro mapKey hother
    rw [changeAt, get?_alter]
    cases hget : s.memory.get? mapKey with
    | none => rfl
    | some e =>
      have hkey := key_of_get? hget
      rw [Option.map_some, if_neg]
      rw [hkey]
      exact hother n
  intro e he
  obtain ⟨e', he', rfl⟩ := mem_map.mp he
  obtain ⟨haddress, htenant, hprovider⟩ := hs e' he'
  split
  · obtain ⟨h₁, h₂, h₃⟩ := hchange e'.key
    dsimp only
    rw [h₁, h₂, h₃]
    exact ⟨haddress, htenant, hprovider⟩
  · exact ⟨haddress, htenant, hprovider⟩

theorem owned_of_get? (hs : Addressed s.memory) (ht : ':' ∉ t) (hp : ':' ∉ p) {n : Text} {e : MemoryEntry}
    (h : s.memory.get? (mapKeyOf t p n) = some e) : Owned t p e.key :=
  owned_of_address hs (mem_of_get? h) ht hp (key_of_get? h)

variable (hs : Addressed s.memory) (hplain : Plain cfg t p) (hprocs : cfg.procs.Lawful)

include hs hplain hprocs

theorem storeKey_local (c : Chance) (keyName plainKey createdBy : Text) :
    Local t p s (storeKey cfg c t p keyName plainKey createdBy s) := by
  rw [storeKey]
  dsimp only
  split
  · exact callProcedure_local hs hprocs.store c ⟨t, p, keyName, _, createdBy⟩
  next henabled =>
  rw [Bool.not_eq_true] at henabled
  apply put_local hs hplain.1 (hplain.2 henabled)
  · exact ⟨rfl, rfl⟩
  · rfl
  · simp [Owned]

theorem rotateKey_local (c : Chance) (keyName plainKey rotatedBy : Text) :
    Local t p s (rotateKey cfg c t p keyName plainKey rotatedBy s) := by
  rw [rotateKey]
  dsimp only
  split
  · exact callProcedure_local hs hprocs.rotate c ⟨t, p, keyName, _, rotatedBy⟩
  next henabled =>
  rw [Bool.not_eq_true] at henabled
  cases hget : s.memory.get? (mapKeyOf t p keyName) with
  | none => exact local_fail hs (by simp)
  | some old =>
    have hold := owned_of_get? hs hplain.1 (hplain.2 henabled) hget
    apply put_local hs hplain.1 (hplain.2 henabled)
    · exact ⟨rfl, rfl⟩
    · rfl
    · simpa [Owned] using hold

theorem expireKey_local (c : Chance) (keyName expiredBy : Text) :
    Local t p s (expireKey cfg c t p keyName expiredBy s) := by
  rw [expireKey]
  split
  · cases hpick : pick c.pick (s.rows.rows.filter fun k =>
        decide (Owned t p k) && k.keyName == keyName && k.isActive) with
    | none => exact local_fail hs (by simp)
    | some k =>
      have hk := mem_of_pick hpick
      simp only [mem_filter, Bool.and_eq_true, decide_eq_true_eq] at hk
      obtain ⟨hmem, ⟨howned, -⟩, -⟩ := hk
      have hread : ∀ k' ∈ [k], Owned t p k' := by simpa using howned
      dsimp only
      cases hexpire : cfg.procs.expireTenantKey k.id expiredBy s.rows with
      | none => exact local_fail hs hread
      | some rows =>
        obtain ⟨change, hchange, hrows⟩ := hprocs.expire _ _ _ _ hexpire
        have hothers := mem_map_of_change hmem howned hrows hchange
        dsimp only
        split
        · exact local_rows hs hothers hread
        · exact local_unanswered hs hothers c.effective hread
  next henabled =>
  rw [Bool.not_eq_true] at henabled
  cases hget : s.memory.get? (mapKeyOf t p keyName) with
  | none => exact local_fail hs (by simp)
  | some e =>
    have howned := owned_of_get? hs hplain.1 (hplain.2 henabled) hget
    have hkey : e.mapKey = mapKeyOf t p keyName := key_of_get? hget
    dsimp only
    rw [hkey]
    apply changeAt_local hs keyName
    · exact fun _ => ⟨rfl, rfl, rfl⟩
    · simpa using howned

omit hplain hprocs in
theorem deleteKey_local (c : Chance) : Local t p s (deleteKey cfg c t p s) := by
  rw [deleteKey]
  split
  · have hothers : ∀ k, ¬Owned t p k →
        (k ∈ (s.rows.keep fun k => !decide (Owned t p k)).rows ↔ k ∈ s.rows.rows) := by
      intro k hk
      simp [keep, hk]
    dsimp only
    split
    · exact local_rows hs hothers (by simp)
    · exact local_unanswered hs hothers c.effective (by simp)
  refine ⟨⟨?_, fun _ _ => Iff.rfl⟩, ?_, rfl, rfl, rfl, by simp⟩
  · intro mapKey hother
    apply Option.ext
    intro e
    rw [get?_keep]
    refine and_iff_left_of_imp fun hget => ?_
    rw [Bool.not_eq_true', ← Bool.not_eq_true, addressFront_iff, key_of_get? hget]
    rintro ⟨n, hn⟩
    exact hother n hn
  · intro e he
    exact hs e (mem_filter.mp he).1

end Changes

end Overture.KeyVault
