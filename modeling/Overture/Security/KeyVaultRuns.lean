import Overture.Security.KeyVaultFrames

/-!
# Runs of the key vault

In every state that careful operations lead to, what is remembered about a tenant and provider was said of the active
key: a change of the keys waits until nothing is remembered, and an answer of the provider is about the one key that
may be active.
-/

namespace Overture.KeyVault

open List Table Option

variable {cfg : Config}

def SameKey (change : EncryptedKey → EncryptedKey) : Prop :=
  ∀ k, ∃ valid validated, change k = { k with isValid := valid, lastValidated := validated }

variable {s : Vault} {change : EncryptedKey → EncryptedKey}

theorem candidatesDB_map {rows : KeyTable} (h : SameKey change)
    (hrows : rows.rows = s.rows.rows.map change) (t p : Text) :
    candidatesDB { s with rows } t p = (candidatesDB s t p).map change := by
  have hactive : (rows.rows.filter fun k => decide (Owned t p k) && k.isActive) =
      (s.rows.rows.filter fun k => decide (Owned t p k) && k.isActive).map change := by
    rw [hrows, List.filter_map]
    congr 1
    apply List.filter_congr
    intro k _
    obtain ⟨valid, validated, heq⟩ := h k
    rw [Function.comp_apply, heq]
    rfl
  have hcreated : ∀ k, (change k).createdAt = k.createdAt := by
    intro k
    obtain ⟨valid, validated, heq⟩ := h k
    rw [heq]
  rw [candidatesDB, candidatesDB, hactive, List.filter_map]
  congr 1
  apply List.filter_congr
  intro k _
  simp [hcreated, List.all_map]

theorem candidatesMemory_changeAt (h : SameKey change)
    (mapKey t p : Text) : candidatesMemory { s with memory := changeAt mapKey change s.memory } t p =
      (candidatesMemory s t p).map fun e => if e.mapKey = mapKey then { e with key := change e.key } else e := by
  have hactive : ∀ e : MemoryEntry,
      (if e.mapKey = mapKey then { e with key := change e.key } else e).key.isActive = e.key.isActive := by
    intro e
    split
    · obtain ⟨valid, validated, heq⟩ := h e.key
      rw [heq]
    · rfl
  have haddress : ∀ e : MemoryEntry,
      (if e.mapKey = mapKey then { e with key := change e.key } else e).mapKey = e.mapKey := by
    intro e
    split <;> rfl
  have hnamed : ∀ names : List Text,
      (names.findSome? fun n => ((changeAt mapKey change s.memory).get? (mapKeyOf t p n)).filter
        fun e => e.key.isActive) =
      (names.findSome? fun n => (s.memory.get? (mapKeyOf t p n)).filter fun e => e.key.isActive).map
        fun e => if e.mapKey = mapKey then { e with key := change e.key } else e := by
    intro names
    induction names with
    | nil => rfl
    | cons n names ih =>
      rw [List.findSome?_cons, List.findSome?_cons, ih, changeAt, Table.get?_alter]
      cases s.memory.get? (mapKeyOf t p n) with
      | none => rfl
      | some e =>
        rw [Option.map_some, Option.filter_some, Option.filter_some, hactive]
        cases e.key.isActive <;> rfl
  rw [candidatesMemory, candidatesMemory, hnamed]
  cases (["default".toList, "primary".toList, "main".toList].findSome? fun n =>
      (s.memory.get? (mapKeyOf t p n)).filter fun e => e.key.isActive) with
  | some e => rfl
  | none =>
    simp only [Option.map_none]
    rw [changeAt, Table.alter, List.filter_map]
    congr 1
    apply List.filter_congr
    intro e _
    simp [hactive, haddress]

theorem owned_of_candidate {t p : Text} {k : EncryptedKey} (hs : Addressed s.memory)
    (hplain : Plain cfg t p) (h : k ∈ candidates cfg s t p) :
    Owned t p k ∧ (cfg.enabled = true → k ∈ s.rows.rows) := by
  rw [candidates] at h
  split at h
  · obtain ⟨hmem, howned, -⟩ := mem_candidatesDB.mp h
    exact ⟨howned, fun _ => hmem⟩
  next henabled =>
  refine ⟨?_, fun htrue => absurd htrue henabled⟩
  rw [Bool.not_eq_true] at henabled
  have hp := hplain.2 henabled
  obtain ⟨e, he, rfl⟩ := mem_map.mp h
  rw [candidatesMemory] at he
  split at he
  · next e' hnamed =>
    obtain rfl := mem_singleton.mp he
    obtain ⟨n, -, hget⟩ := exists_of_findSome?_eq_some hnamed
    exact owned_of_get? hs hplain.1 hp (filter_eq_some_iff.mp hget).1
  obtain ⟨hmem, hfront⟩ := mem_filter.mp he
  obtain ⟨n, hn⟩ := addressFront_iff.mp (Bool.and_eq_true_iff.mp hfront).1
  exact owned_of_address hs hmem hplain.1 hp hn

def SameSecret (k k' : EncryptedKey) : Prop := k'.id = k.id ∧ k'.secret = k.secret

theorem sameSecret_of_change (h : SameKey change) (k : EncryptedKey) :
    SameSecret k (change k) := by
  obtain ⟨valid, validated, heq⟩ := h k
  rw [heq]
  exact ⟨rfl, rfl⟩

theorem forall₂_map_self {α : Type} {r : α → α → Prop} {f : α → α} (h : ∀ a, r a (f a)) (l : List α) :
    List.Forall₂ r l (l.map f) := by
  induction l with
  | nil => exact .nil
  | cons a l ih => exact .cons (h a) ih

section Validation

variable {t p : Text} {s : Vault} {k : EncryptedKey}

theorem candidates_markValidated (hprocs : cfg.procs.Lawful) (c : Chance) (k : EncryptedKey) (isValid : Bool)
    (err : Option Text) (s : Vault) (t p : Text) :
    List.Forall₂ SameSecret (candidates cfg s t p) (candidates cfg (markValidated cfg c k isValid err s) t p) := by
  have hrefl : List.Forall₂ SameSecret (candidates cfg s t p) (candidates cfg s t p) :=
    List.forall₂_same.mpr fun _ _ => ⟨rfl, rfl⟩
  rw [markValidated]
  split
  · next henabled =>
    cases hmark : cfg.procs.markKeyValidated k.id isValid err s.rows with
    | none => exact hrefl
    | some rows =>
      obtain ⟨valid, validated, hrows⟩ := hprocs.mark _ _ _ _ _ hmark
      dsimp only
      split
      · have hsame : SameKey fun k' => if k'.id = k.id then { k' with isValid := valid, lastValidated := validated }
            else k' := by
          intro k'
          dsimp only
          split
          · exact ⟨_, _, rfl⟩
          · exact ⟨k'.isValid, k'.lastValidated, rfl⟩
        rw [candidates, candidates, if_pos henabled, if_pos henabled, candidatesDB_map hsame hrows]
        exact forall₂_map_self (sameSecret_of_change hsame) _
      · exact hrefl
  next henabled =>
  have hsame : SameKey fun k' => { k' with isValid := some isValid, lastValidated := some s.now } :=
    fun k' => ⟨_, _, rfl⟩
  rw [candidates, candidates, if_neg henabled, if_neg henabled]
  dsimp only
  rw [candidatesMemory_changeAt hsame, List.map_map, List.forall₂_map_left_iff, List.forall₂_map_right_iff]
  refine List.forall₂_same.mpr fun e _ => ?_
  dsimp only [Function.comp_apply]
  split
  · exact sameSecret_of_change hsame e.key
  · exact ⟨rfl, rfl⟩

theorem markValidated_local (hprocs : cfg.procs.Lawful) (hs : Addressed s.memory) (howned : Owned t p k)
    (hmem : cfg.enabled = true → k ∈ s.rows.rows) (c : Chance) (isValid : Bool) (err : Option Text) (reply : Reply) :
    Local t p s ⟨markValidated cfg c k isValid err s, reply, [k]⟩ := by
  have hread : ∀ k' ∈ [k], Owned t p k' := by simpa using howned
  rw [markValidated]
  split
  · next henabled =>
    cases hmark : cfg.procs.markKeyValidated k.id isValid err s.rows with
    | none => exact ⟨.refl t p s, hs, rfl, rfl, rfl, hread⟩
    | some rows =>
      obtain ⟨valid, validated, hrows⟩ := hprocs.mark _ _ _ _ _ hmark
      dsimp only
      split
      · exact local_rows hs (mem_map_of_change (hmem henabled) howned hrows fun _ => ⟨rfl, rfl⟩) hread
      · exact ⟨.refl t p s, hs, rfl, rfl, rfl, hread⟩
  dsimp only
  rw [howned.1, howned.2]
  apply changeAt_local hs k.keyName
  · exact fun _ => ⟨rfl, rfl, rfl⟩
  · exact hread

end Validation

/-- What is remembered for a tenant and provider, while it counts, was said of every key that may be theirs now. -/
def AnswersFor (cfg : Config) (s : Vault) (t p : Text) (isValid : Bool) : Prop :=
  ∀ k ∈ candidates cfg s t p, ⟨k.id, k.secret, isValid⟩ ∈ s.answers

structure Sound (cfg : Config) (s : Vault) : Prop where
  addressed : Addressed s.memory
  cached : ∀ e ∈ s.cache.rows, ∃ t p, e.cacheKey = cacheKeyOf t p ∧ Plain cfg t p ∧
    (s.now < e.cachedAt + hour → AnswersFor cfg s t p e.isValid)

theorem sound_start : Sound cfg {} :=
  ⟨fun _ he => (not_mem_nil he).elim, fun _ he => (not_mem_nil he).elim⟩

variable {s : Vault} {t p : Text}

theorem cachedValidity_eq_some {isValid : Bool} (h : cachedValidity s t p = some isValid) :
    ∃ e ∈ s.cache.rows, e.cacheKey = cacheKeyOf t p ∧ s.now < e.cachedAt + hour ∧ e.isValid = isValid := by
  obtain ⟨e, he, rfl⟩ := map_eq_some_iff.mp h
  obtain ⟨hget, hyoung⟩ := filter_eq_some_iff.mp he
  exact ⟨e, mem_of_get? hget, key_of_get? hget, of_decide_eq_true hyoung, rfl⟩

theorem old_of_cachedValidity (h : cachedValidity s t p = none) {e : ValidationCacheEntry} (he : e ∈ s.cache.rows)
    (hkey : e.cacheKey = cacheKeyOf t p) : e.cachedAt + hour ≤ s.now := by
  by_contra hyoung
  have hget : s.cache.get? (cacheKeyOf t p) = some e := hkey ▸ get?_of_mem he
  rw [cachedValidity, hget, filter_some, if_pos (decide_eq_true (by omega))] at h
  cases h

theorem same_of_cacheKey {t' p' : Text} (h : cacheKeyOf t' p' = cacheKeyOf t p) (hplain : Plain cfg t p)
    (hplain' : Plain cfg t' p') : t' = t ∧ p' = p := Delimited.cut_first h hplain'.1 hplain.1

theorem sound_of_local (hs : Sound cfg s) (hplain : Plain cfg t p) (hforgotten : cachedValidity s t p = none)
    {o : Outcome} (h : Local t p s o) : Sound cfg o.vault := by
  refine ⟨h.addressed, ?_⟩
  rw [h.cache, h.now]
  intro e he
  obtain ⟨t', p', hkey, hplain', hfresh⟩ := hs.cached e he
  refine ⟨t', p', hkey, hplain', fun hyoung => ?_⟩
  by_cases hsame : t' = t ∧ p' = p
  · obtain ⟨rfl, rfl⟩ := hsame
    have hold := old_of_cachedValidity hforgotten he hkey
    omega
  intro k hk
  rw [h.answers]
  exact hfresh hyoung k ((candidates_framed h.framed hsame hplain hplain').mp hk)

theorem isolated_of_local (hs : Sound cfg s) (hplain : Plain cfg t p) {o : Outcome} (h : Local t p s o) {op : Op}
    (hop : ∀ k, Concerns op k ↔ Owned t p k) : Isolated cfg op s o := by
  constructor
  · intro k hk
    exact stored_framed h.framed hplain hs.addressed h.addressed ((hop k).not.mp hk)
  · intro k hk
    exact (hop k).mpr (h.read k hk)

theorem cachedValidity_later (h : cachedValidity s t p = none) (time : Nat) :
    cachedValidity { s with now := s.now + time } t p = none := by
  cases hlater : cachedValidity { s with now := s.now + time } t p with
  | none => rfl
  | some isValid =>
    obtain ⟨e, he, hkey, hyoung, -⟩ := cachedValidity_eq_some hlater
    have hold := old_of_cachedValidity h he hkey
    dsimp only at hyoung
    omega

theorem sound_later (hs : Sound cfg s) (time : Nat) : Sound cfg { s with now := s.now + time } := by
  refine ⟨hs.addressed, fun e he => ?_⟩
  obtain ⟨t', p', hkey, hplain, hfresh⟩ := hs.cached e he
  refine ⟨t', p', hkey, hplain, fun hyoung => hfresh ?_⟩
  dsimp only at hyoung
  omega

theorem exists_pick {α : Type} {l : List α} (h : l ≠ []) : ∃ n a, pick n l = some a := by
  cases l with
  | nil => exact absurd rfl h
  | cons a l => exact ⟨0, a, by simp [pick]⟩

theorem current_of_answersFor {o : Outcome} {isValid : Bool} (hreply : o.reply = .validity isValid)
    (hsome : candidates cfg o.vault t p ≠ []) (h : AnswersFor cfg o.vault t p isValid) :
    Current cfg (.validate t p) o := by
  rintro t' p' isValid' hop hreply'
  cases hop
  obtain rfl := Reply.validity.inj (hreply.symm.trans hreply')
  exact ⟨exists_pick hsome, fun n k hk => h k (mem_of_pick hk)⟩

theorem current_of_failed {o : Outcome} {op : Op} (h : o.reply = .failed) : Current cfg op o := by
  intro t p isValid _ hreply
  rw [h] at hreply
  cases hreply

theorem exists_of_forall₂ {α : Type} {r : α → α → Prop} {l l' : List α} (h : List.Forall₂ r l l') {b : α}
    (hb : b ∈ l') : ∃ a ∈ l, r a b := by
  induction h with
  | nil => cases hb
  | cons hab _ ih =>
    rcases mem_cons.mp hb with rfl | hb
    · exact ⟨_, mem_cons_self, hab⟩
    obtain ⟨a, ha, hr⟩ := ih hb
    exact ⟨a, mem_cons_of_mem _ ha, hr⟩

section Answered

variable {k : EncryptedKey} (hprocs : cfg.procs.Lawful) (hs : Sound cfg s) (hplain : Plain cfg t p)
  (hk : k ∈ candidates cfg s t p) (c : Chance) (isValid : Bool)

include hprocs hs hplain hk

theorem answered_local : Local t p (remember t p k isValid s)
    ⟨markValidated cfg c k isValid none (remember t p k isValid s), .validity isValid, [k]⟩ := by
  obtain ⟨howned, hmem⟩ := owned_of_candidate hs.addressed hplain hk
  have haddressed : Addressed (remember t p k isValid s).memory := hs.addressed
  have hrow : cfg.enabled = true → k ∈ (remember t p k isValid s).rows.rows := hmem
  exact markValidated_local hprocs haddressed howned hrow c isValid none _

variable (hone : ∀ k ∈ candidates cfg s t p, ∀ k' ∈ candidates cfg s t p, k = k')

include hone

theorem answered_answersFor :
    AnswersFor cfg (markValidated cfg c k isValid none (remember t p k isValid s)) t p isValid := by
  intro k' hk'
  obtain ⟨k'', hk'', hid, hsecret⟩ :=
    exists_of_forall₂ (candidates_markValidated hprocs c k isValid none (remember t p k isValid s) t p) hk'
  obtain rfl := hone k hk k'' hk''
  rw [(answered_local hprocs hs hplain hk c isValid).answers, hid, hsecret]
  exact mem_cons_self

theorem sound_answered : Sound cfg (markValidated cfg c k isValid none (remember t p k isValid s)) := by
  have hlocal := answered_local hprocs hs hplain hk c isValid
  refine ⟨hlocal.addressed, ?_⟩
  rw [hlocal.cache, hlocal.now]
  intro e he
  have hget := get?_of_mem he
  rw [remember, get?_put] at hget
  split at hget
  · cases hget
    exact ⟨t, p, rfl, hplain, fun _ => answered_answersFor hprocs hs hplain hk c isValid hone⟩
  next hother =>
  obtain ⟨t', p', hkey, hplain', hfresh⟩ := hs.cached e (mem_of_get? hget)
  refine ⟨t', p', hkey, hplain', fun hyoung k' hk' => ?_⟩
  have hne : ¬(t' = t ∧ p' = p) := by
    rintro ⟨rfl, rfl⟩
    exact hother hkey.symm
  rw [hlocal.answers]
  exact mem_cons_of_mem _ (hfresh hyoung k' ((candidates_framed hlocal.framed hne hplain hplain').mp hk'))

omit hone hs hplain in
theorem answered_candidates :
    candidates cfg (markValidated cfg c k isValid none (remember t p k isValid s)) t p ≠ [] := by
  intro hnil
  have hlength := (candidates_markValidated hprocs c k isValid none (remember t p k isValid s) t p).length_eq
  rw [hnil] at hlength
  have hempty : (candidates cfg s t p).length = 0 := hlength
  rw [length_eq_zero_iff.mp hempty] at hk
  cases hk

end Answered

theorem validateKey_spec (hprocs : cfg.procs.Lawful) (hs : Sound cfg s) (hplain : Plain cfg t p)
    (hone : ∀ k ∈ candidates cfg s t p, ∀ k' ∈ candidates cfg s t p, k = k') (c : Chance) :
    Sound cfg (validateKey cfg c t p s).vault ∧ Isolated cfg (.validate t p) s (validateKey cfg c t p s) ∧
      Current cfg (.validate t p) (validateKey cfg c t p s) := by
  have hfail {read : List EncryptedKey} (hread : ∀ k ∈ read, Owned t p k) : Sound cfg (fail s read).vault ∧
      Isolated cfg (.validate t p) s (fail s read) ∧ Current cfg (.validate t p) (fail s read) :=
    ⟨hs, isolated_of_local hs hplain (local_fail hs.addressed hread) fun _ => Iff.rfl, current_of_failed rfl⟩
  rw [validateKey]
  cases hpick : getActiveKey cfg c.pick s t p with
  | none => exact hfail (by simp)
  | some k =>
    have hk : k ∈ candidates cfg s t p := mem_of_pick hpick
    obtain ⟨howned, hmem⟩ := owned_of_candidate hs.addressed hplain hk
    have hread : ∀ k' ∈ [k], Owned t p k' := by simpa using howned
    dsimp only
    cases cfg.decryptKey k.secret with
    | none => exact hfail hread
    | some plainKey =>
      dsimp only
      cases hcached : cachedValidity s t p with
      | some isValid =>
        -- the entry that is young enough is the one of this tenant and provider
        obtain ⟨e, he, hkey, hyoung, rfl⟩ := cachedValidity_eq_some hcached
        obtain ⟨t', p', hkey', hplain', hfresh⟩ := hs.cached e he
        obtain ⟨rfl, rfl⟩ := same_of_cacheKey (hkey'.symm.trans hkey) hplain hplain'
        have hlocal : Local t' p' s ⟨s, .validity e.isValid, [k]⟩ :=
          ⟨.refl t' p' s, hs.addressed, rfl, rfl, rfl, hread⟩
        exact ⟨hs, isolated_of_local hs hplain hlocal fun _ => Iff.rfl,
          current_of_answersFor rfl (ne_nil_of_mem hk) (hfresh hyoung)⟩
      | none =>
        have hlater := sound_later hs c.took
        dsimp only
        cases validateWithProvider c.response p plainKey with
        | error err =>
          have hlocal := markValidated_local hprocs hlater.addressed howned hmem c false (some err) .failed
          refine ⟨sound_of_local hlater hplain (cachedValidity_later hcached c.took) hlocal,
            ⟨fun k' hk' => ?_, hlocal.read⟩, current_of_failed rfl⟩
          exact (stored_framed hlocal.framed hplain hs.addressed hlocal.addressed hk' :)
        | ok isValid =>
          have hk : k ∈ candidates cfg { s with now := s.now + c.took } t p := hk
          have hlocal := answered_local hprocs hlater hplain hk c isValid
          have hsound := sound_answered hprocs hlater hplain hk c isValid hone
          refine ⟨hsound, ⟨fun k' hk' => ?_, hlocal.read⟩, ?_⟩
          · exact (stored_framed hlocal.framed hplain hs.addressed hlocal.addressed hk' :)
          exact current_of_answersFor rfl (answered_candidates hprocs hk c isValid)
            (answered_answersFor hprocs hlater hplain hk c isValid hone)

theorem getKey_spec (hs : Sound cfg s) (hplain : Plain cfg t p) (c : Chance) :
    Local t p s (getKey cfg c t p s) ∧ (getKey cfg c t p s).vault = s := by
  rw [getKey]
  cases hpick : getActiveKey cfg c.pick s t p with
  | none => exact ⟨local_fail hs.addressed (by simp), rfl⟩
  | some k =>
    have hread : ∀ k' ∈ [k], Owned t p k' := by
      simpa using (owned_of_candidate hs.addressed hplain (mem_of_pick hpick)).1
    dsimp only
    cases cfg.decryptKey k.secret with
    | none => exact ⟨local_fail hs.addressed hread, rfl⟩
    | some plain => exact ⟨⟨.refl t p s, hs.addressed, rfl, rfl, rfl, hread⟩, rfl⟩

theorem listKeys_spec (hs : Sound cfg s) (ht : ':' ∉ t) (c : Chance) :
    (listKeys cfg c t s).vault = s ∧ ∀ k ∈ (listKeys cfg c t s).read, k.tenantID = t := by
  rw [listKeys]
  split
  · dsimp only
    split
    · refine ⟨rfl, fun k hk => ?_⟩
      simpa using (mem_filter.mp hk).2
    · exact ⟨rfl, fun k hk => (not_mem_nil hk).elim⟩
  refine ⟨rfl, fun k hk => ?_⟩
  obtain ⟨e, he, rfl⟩ := mem_map.mp hk
  obtain ⟨hmem, hfront⟩ := mem_filter.mp he
  obtain ⟨haddress, htenant, -⟩ := hs.addressed e hmem
  obtain ⟨rest, hrest⟩ := isPrefixOf_iff_prefix.mp hfront
  rw [haddress, mapKeyOf, append_assoc, singleton_append] at hrest
  exact (Delimited.cut_first hrest ht htenant).1.symm

theorem changed_spec (hs : Sound cfg s) (hplain : Plain cfg t p) (hforgotten : cachedValidity s t p = none) {op : Op}
    {o : Outcome} (hlocal : Local t p s o) (hconcerns : ∀ k, Concerns op k ↔ Owned t p k)
    (hnot : ∀ t p, op ≠ .validate t p) : Sound cfg o.vault ∧ Isolated cfg op s o ∧ Current cfg op o :=
  ⟨sound_of_local hs hplain hforgotten hlocal, isolated_of_local hs hplain hlocal hconcerns,
    fun t p _ h => absurd h (hnot t p)⟩

theorem step_spec (hprocs : cfg.procs.Lawful) (hs : Sound cfg s) (c : Chance) {op : Op} (hop : Careful cfg s op) :
    Sound cfg (step cfg c s op).vault ∧ Isolated cfg op s (step cfg c s op) ∧ Current cfg op (step cfg c s op) := by
  cases op with
  | store t p keyName plainKey createdBy =>
    exact changed_spec hs hop.1 hop.2 (storeKey_local hs.addressed hop.1 hprocs c keyName plainKey createdBy)
      (fun _ => Iff.rfl) nofun
  | rotate t p keyName plainKey rotatedBy =>
    exact changed_spec hs hop.1 hop.2 (rotateKey_local hs.addressed hop.1 hprocs c keyName plainKey rotatedBy)
      (fun _ => Iff.rfl) nofun
  | expire t p keyName expiredBy =>
    exact changed_spec hs hop.1 hop.2 (expireKey_local hs.addressed hop.1 hprocs c keyName expiredBy)
      (fun _ => Iff.rfl) nofun
  | delete t p =>
    exact changed_spec hs hop.1 hop.2 (deleteKey_local hs.addressed c) (fun _ => Iff.rfl) nofun
  | list t =>
    obtain ⟨hsame, hread⟩ := listKeys_spec hs hop c
    refine ⟨?_, ⟨fun k _ => ?_, hread⟩, nofun⟩
    · rw [step, hsame]
      exact hs
    · rw [step, hsame]
  | get t p =>
    obtain ⟨hlocal, hsame⟩ := getKey_spec hs hop c
    refine ⟨?_, isolated_of_local hs hop hlocal fun _ => Iff.rfl, nofun⟩
    rw [step, hsame]
    exact hs
  | validate t p => exact validateKey_spec hprocs hs hop.1 hop.2 c
  | wait time =>
    exact ⟨sound_later hs time, ⟨fun _ _ => Iff.rfl, fun _ hk => (not_mem_nil hk).elim⟩, nofun⟩

theorem sound_of_reaches (hprocs : cfg.procs.Lawful) (h : Reaches cfg s) : Sound cfg s := by
  induction h with
  | start => exact sound_start
  | step _ c op hop ih => exact (step_spec hprocs ih c hop).1

/-- After any number of careful operations, a careful one reads and changes only keys of its tenant and provider, and
a validity it returns was said of the key that is active. -/
theorem vault_isolated_and_current (cfg : Config) (hprocs : cfg.procs.Lawful) (s : Vault) (h : Reaches cfg s)
    (c : Chance) (op : Op) (hop : Careful cfg s op) :
    Isolated cfg op s (step cfg c s op) ∧ Current cfg op (step cfg c s op) :=
  (step_spec hprocs (sound_of_reaches hprocs h) c hop).2

section Sample

instance (cfg : Config) (t p : Text) : Decidable (Plain cfg t p) := inferInstanceAs (Decidable (_ ∧ _))

instance (cfg : Config) (s : Vault) : (op : Op) → Decidable (Careful cfg s op)
  | .store .. | .rotate .. | .expire .. | .delete .. => inferInstanceAs (Decidable (_ ∧ _))
  | .list _ => inferInstanceAs (Decidable (¬_))
  | .get .. => inferInstanceAs (Decidable (Plain ..))
  | .validate .. => inferInstanceAs (Decidable (_ ∧ ∀ _ ∈ _, _))
  | .wait _ => inferInstanceAs (Decidable True)

def runOps (cfg : Config) : Vault → List (Chance × Op) → Vault
  | s, [] => s
  | s, (c, op) :: rest => runOps cfg (step cfg c s op).vault rest

def carefulOps (cfg : Config) : Vault → List (Chance × Op) → Bool
  | _, [] => true
  | s, (c, op) :: rest => decide (Careful cfg s op) && carefulOps cfg (step cfg c s op).vault rest

theorem reaches_runOps {ops : List (Chance × Op)} (h : Reaches cfg s) (hops : carefulOps cfg s ops = true) :
    Reaches cfg (runOps cfg s ops) := by
  induction ops generalizing s with
  | nil => exact h
  | cons op ops ih =>
    obtain ⟨c, op⟩ := op
    rw [carefulOps, Bool.and_eq_true, decide_eq_true_eq] at hops
    exact ih (h.step c op hops.1) hops.2

def addRow (args : KeyArgs) (rows : KeyTable) : Option (KeyTable × Text) :=
  let id := mapKeyOf args.tenantID args.provider args.keyName ++ Nat.toDigits 10 rows.rows.length
  let key : EncryptedKey := ⟨id, args.tenantID, args.provider, args.keyName, args.secret, 1, true, none, none,
    rows.rows.length, args.createdBy⟩
  if id ∈ rows.rows.map EncryptedKey.id then none else some (rows.putNew key, id)

def sampleProcs : Procedures where
  storeTenantKey := addRow
  rotateTenantKey args rows := addRow args (rows.alter (fun k =>
    if Owned args.tenantID args.provider k then { k with isActive := false } else k) fun k => by split <;> rfl)
  expireTenantKey id _ rows :=
    some (rows.alter (fun k => if k.id = id then { k with isActive := false } else k) fun k => by split <;> rfl)
  markKeyValidated id isValid _ rows := some (rows.alter (fun k =>
    if k.id = id then { k with isValid := some isValid, lastValidated := none } else k) fun k => by split <;> rfl)

theorem addRow_writesFor : WritesFor addRow := by
  intro args rows rows' id h
  rw [addRow] at h
  split at h
  · cases h
  next hnew =>
  cases h
  constructor
  · intro k hk
    rw [rows_putNew_of_not_mem hnew, mem_append, mem_singleton, or_iff_left]
    rintro rfl
    exact hk ⟨rfl, rfl⟩
  intro k hk
  rw [get?_putNew, get?_eq_none_iff.mpr hnew, none_or, if_pos rfl] at hk
  rw [← some.inj hk]
  exact ⟨rfl, rfl⟩

theorem sampleProcs_lawful : sampleProcs.Lawful := by
  refine ⟨addRow_writesFor, ?_, ?_, ?_⟩
  · intro args rows rows' id h
    obtain ⟨hothers, hid⟩ := addRow_writesFor args _ rows' id h
    refine ⟨fun k hk => (hothers k hk).trans ?_, hid⟩
    rw [Table.alter, List.mem_map]
    constructor
    · rintro ⟨k', hk', rfl⟩
      split at hk
      · next howned => exact absurd howned hk
      next howned =>
      rw [if_neg howned]
      exact hk'
    · intro hk'
      exact ⟨k, hk', if_neg hk⟩
  · intro id expiredBy rows rows' h
    obtain rfl := Option.some.inj h
    exact ⟨fun k => { k with isActive := false }, fun _ => ⟨rfl, rfl⟩, rfl⟩
  · intro id isValid err rows rows' h
    obtain rfl := Option.some.inj h
    exact ⟨some isValid, none, rfl⟩

def sampleConfig (enabled : Bool) : Config :=
  ⟨enabled, sampleProcs, fun plain iv => ⟨plain, iv, []⟩, fun secret => some secret.encryptedKey⟩

def sampleChance (id : String) : Chance := ⟨id.toList, id.toList, 0, true, true, none, 0⟩

def storeAcme : Chance × Op :=
  (sampleChance "1", .store "acme" "benchmark" "default" "key-1" "ann")

def validateAcme : Op := .validate "acme" "benchmark"

def rotateAcme : Chance × Op :=
  (sampleChance "2", .rotate "acme" "benchmark" "default" "key-2" "ann")

def rotatedLater : List (Chance × Op) :=
  [storeAcme, (sampleChance "", validateAcme), (sampleChance "", .wait hour), rotateAcme]

theorem rotated_later_current :
    (Isolated (sampleConfig false) validateAcme (runOps (sampleConfig false) {} rotatedLater)
        (step (sampleConfig false) (sampleChance "") (runOps (sampleConfig false) {} rotatedLater) validateAcme) ∧
      Current (sampleConfig false) validateAcme
        (step (sampleConfig false) (sampleChance "") (runOps (sampleConfig false) {} rotatedLater) validateAcme)) ∧
    (Isolated (sampleConfig true) validateAcme (runOps (sampleConfig true) {} rotatedLater)
        (step (sampleConfig true) (sampleChance "") (runOps (sampleConfig true) {} rotatedLater) validateAcme) ∧
      Current (sampleConfig true) validateAcme
        (step (sampleConfig true) (sampleChance "") (runOps (sampleConfig true) {} rotatedLater) validateAcme)) :=
  ⟨vault_isolated_and_current (sampleConfig false) sampleProcs_lawful _
      (reaches_runOps .start (by decide +kernel)) _ _ (by decide +kernel),
    vault_isolated_and_current (sampleConfig true) sampleProcs_lawful _
      (reaches_runOps .start (by decide +kernel)) _ _ (by decide +kernel)⟩

/-- Tenant `a` with provider `b:c` is given the key of tenant `a:b` with provider `c`; and a validity is returned for
a key that was rotated away, in memory and in the database. -/
theorem foreign_key_and_stale_validity :
    (¬Isolated (sampleConfig false) (.get "a".toList "b:c".toList)
        (runOps (sampleConfig false) {} [(sampleChance "1", .store "a:b".toList "c".toList "default".toList [] [])])
        (step (sampleConfig false) (sampleChance "")
          (runOps (sampleConfig false) {} [(sampleChance "1", .store "a:b".toList "c".toList "default".toList [] [])])
          (.get "a".toList "b:c".toList))) ∧
    ¬Current (sampleConfig false) validateAcme (step (sampleConfig false) (sampleChance "")
        (runOps (sampleConfig false) {} [storeAcme, (sampleChance "", validateAcme), rotateAcme]) validateAcme) ∧
    ¬Current (sampleConfig true) validateAcme (step (sampleConfig true) (sampleChance "")
        (runOps (sampleConfig true) {} [storeAcme, (sampleChance "", validateAcme), rotateAcme]) validateAcme) := by
  have hstale {cfg : Config} {o : Outcome} (hreply : o.reply = .validity true)
      (hkey : (getActiveKey cfg 0 o.vault "acme" "benchmark").any
        (fun k => decide (⟨k.id, k.secret, true⟩ ∉ o.vault.answers)) = true) : ¬Current cfg validateAcme o := by
    intro hcurrent
    obtain ⟨k, hk, hnot⟩ := (any_eq_true _ _).mp hkey
    exact of_decide_eq_true hnot ((hcurrent _ _ true rfl hreply).2 0 k hk)
  refine ⟨fun hisolated => ?_, hstale (by decide +kernel) (by decide +kernel),
    hstale (by decide +kernel) (by decide +kernel)⟩
  have hread := all_eq_true.mpr fun k hk =>
    decide_eq_true (p := Owned "a" "b:c" k) (hisolated.read k hk)
  exact absurd hread (by decide +kernel)

end Sample

end Overture.KeyVault
