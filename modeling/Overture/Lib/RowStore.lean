import Overture.Lib.Table

/-!
# Transactions on row-locked tables

One table has a primary key and another unique index; a second table holds entries that
refer to its rows and is only added to. A transaction keeps what it wrote to itself until it
commits, and holds a lock on every row it read for update, wrote or referred to. A thread
has at most one open transaction. What is written outside of one is committed at once.
-/

structure Schema (α β κ υ : Type) where
  key : α → κ
  index : α → υ
  ref : β → κ

namespace RowStore

variable {α β κ υ : Type}

structure Tx (sc : Schema α β κ υ) where
  failed : Bool
  rows : Table sc.key
  entries : List β

end RowStore

/-- What is committed, who holds which lock, and the open transaction of each thread. -/
structure RowStore {α β κ υ : Type} (sc : Schema α β κ υ) where
  rows : Table sc.key
  entries : List β
  lock : κ → Option Nat
  indexLock : υ → Option Nat
  tx : Nat → Option (RowStore.Tx sc)

namespace RowStore

variable {α β κ υ : Type} {sc : Schema α β κ υ} [DecidableEq κ]

def empty : RowStore sc := ⟨.empty, [], fun _ => none, fun _ => none, fun _ => none⟩

def view (s : RowStore sc) (i : Nat) : Table sc.key :=
  match s.tx i with
  | none => s.rows
  | some t => s.rows.putAll t.rows.rows

def entriesOf (s : RowStore sc) (k : κ) : List β := s.entries.filter fun b => sc.ref b = k

def free (s : RowStore sc) (i : Nat) (k : κ) : Bool := (s.lock k).all (· == i)

def indexFree (s : RowStore sc) (i : Nat) (u : υ) : Bool := (s.indexLock u).all (· == i)

def acquire (i : Nat) (ks : List κ) (s : RowStore sc) : RowStore sc :=
  { s with lock := fun k => if k ∈ ks then some i else s.lock k }

def begin (i : Nat) (s : RowStore sc) : RowStore sc :=
  { s with tx := Function.update s.tx i (some ⟨false, .empty, []⟩) }

def abort (i : Nat) (s : RowStore sc) : RowStore sc :=
  { s with tx := Function.update s.tx i ((s.tx i).map fun t => { t with failed := true }) }

def release [DecidableEq υ] (i : Nat) (s : RowStore sc) : RowStore sc :=
  { s with
    lock := fun k => if s.lock k = some i then none else s.lock k
    indexLock := fun u => if s.indexLock u = some i then none else s.indexLock u
    tx := Function.update s.tx i none }

def commit [DecidableEq υ] (i : Nat) (s : RowStore sc) : RowStore sc :=
  release i { s with
    rows := s.view i
    entries := s.entries ++ ((s.tx i).map Tx.entries).getD [] }

def store (as : List α) (s : RowStore sc) : RowStore sc := { s with rows := s.rows.putAll as }

def write (i : Nat) (as : List α) (s : RowStore sc) : RowStore sc :=
  match s.tx i with
  | none => s
  | some t =>
    { s.acquire i (as.map sc.key) with
      tx := Function.update s.tx i (some { t with rows := t.rows.putAll as }) }

def insert [DecidableEq υ] (i : Nat) (a : α) (s : RowStore sc) : RowStore sc :=
  { s.write i [a] with indexLock := fun u => if u = sc.index a then some i else s.indexLock u }

def append (i : Nat) (b : β) (s : RowStore sc) : RowStore sc :=
  match s.tx i with
  | none => s
  | some t =>
    { s.acquire i [sc.ref b] with tx := Function.update s.tx i (some { t with entries := t.entries ++ [b] }) }

theorem get?_view (s : RowStore sc) (i : Nat) (k : κ) :
    (s.view i).get? k = ((s.tx i).bind fun t => t.rows.get? k).or (s.rows.get? k) := by
  unfold view
  cases s.tx i with
  | none => simp
  | some t => simp [Table.get?_putAll_rows]

omit [DecidableEq κ] in
theorem free_iff {s : RowStore sc} {i : Nat} {k : κ} : s.free i k = true ↔ ∀ j, s.lock k = some j → j = i := by
  cases h : s.lock k <;> simp [free, h]

structure Isolated (s : RowStore sc) : Prop where
  rows : ∀ i t a, s.tx i = some t → a ∈ t.rows.rows → s.lock (sc.key a) = some i
  entries : ∀ i t b, s.tx i = some t → b ∈ t.entries → s.lock (sc.ref b) = some i

structure Frame (j : Nat) (s s' : RowStore sc) : Prop where
  tx : s'.tx j = s.tx j
  lock : ∀ k, s'.lock k = some j ↔ s.lock k = some j
  rows : ∀ k, s.lock k = some j → s'.rows.get? k = s.rows.get? k
  entries : ∀ k, s.lock k = some j → s'.entriesOf k = s.entriesOf k

theorem Frame.refl (j : Nat) (s : RowStore sc) : Frame j s s := ⟨rfl, fun _ => .rfl, fun _ _ => rfl, fun _ _ => rfl⟩

theorem Frame.trans {j : Nat} {s₁ s₂ s₃ : RowStore sc} (h₁ : Frame j s₁ s₂) (h₂ : Frame j s₂ s₃) :
    Frame j s₁ s₃ where
  tx := h₂.tx.trans h₁.tx
  lock k := (h₂.lock k).trans (h₁.lock k)
  rows k hk := (h₂.rows k ((h₁.lock k).mpr hk)).trans (h₁.rows k hk)
  entries k hk := (h₂.entries k ((h₁.lock k).mpr hk)).trans (h₁.entries k hk)

/-- A step of thread `i` keeps the transactions isolated and leaves the others alone. -/
def Acts (i : Nat) (s s' : RowStore sc) : Prop := s.Isolated → s'.Isolated ∧ ∀ j, j ≠ i → Frame j s s'

theorem acts_refl (i : Nat) (s : RowStore sc) : Acts i s s := fun h => ⟨h, fun j _ => .refl j s⟩

theorem acts_acquire {i : Nat} {ks : List κ} {s : RowStore sc} (hfree : ∀ k ∈ ks, s.free i k = true) :
    Acts i s (s.acquire i ks) := by
  have hown : ∀ k j, s.lock k = some j → (s.acquire i ks).lock k = some j := by
    intro k j hk
    simp only [acquire]
    split
    · next hmem => rw [free_iff.mp (hfree k hmem) j hk]
    · exact hk
  intro h
  refine ⟨⟨fun j t a ht ha => hown _ j (h.rows j t a ht ha), fun j t b ht hb => hown _ j (h.entries j t b ht hb)⟩,
    fun j hj => ⟨rfl, fun k => ⟨fun hk => ?_, hown k j⟩, fun _ _ => rfl, fun _ _ => rfl⟩⟩
  simp only [acquire] at hk
  split at hk
  · exact absurd (Option.some.inj hk) (Ne.symm hj)
  · exact hk

theorem acts_update {i : Nat} {t' : Option (Tx sc)} {s : RowStore sc}
    (hrows : ∀ t, t' = some t → ∀ a ∈ t.rows.rows, s.lock (sc.key a) = some i)
    (hentries : ∀ t, t' = some t → ∀ b ∈ t.entries, s.lock (sc.ref b) = some i) :
    Acts i s { s with tx := Function.update s.tx i t' } := by
  intro h
  refine ⟨⟨fun j t a ht ha => ?_, fun j t b ht hb => ?_⟩, fun j hj =>
    ⟨Function.update_of_ne hj _ _, fun _ => .rfl, fun _ _ => rfl, fun _ _ => rfl⟩⟩
  · by_cases hj : j = i
    · subst hj
      exact hrows t (by simpa using ht) a ha
    · exact h.rows j t a (by simpa [hj] using ht) ha
  · by_cases hj : j = i
    · subst hj
      exact hentries t (by simpa using ht) b hb
    · exact h.entries j t b (by simpa [hj] using ht) hb

theorem acts_begin (i : Nat) (s : RowStore sc) : Acts i s (s.begin i) := by
  apply acts_update
  · rintro t ⟨⟩ a ha
    exact absurd ha (by simp [Table.empty])
  · rintro t ⟨⟩ b hb
    exact absurd hb (by simp)

theorem acts_abort (i : Nat) (s : RowStore sc) : Acts i s (s.abort i) := by
  intro h
  refine acts_update ?_ ?_ h
  · intro t ht a ha
    obtain ⟨t₀, ht₀, rfl⟩ := Option.map_eq_some_iff.mp ht
    exact h.rows i t₀ a ht₀ ha
  intro t ht b hb
  obtain ⟨t₀, ht₀, rfl⟩ := Option.map_eq_some_iff.mp ht
  exact h.entries i t₀ b ht₀ hb

theorem acts_release [DecidableEq υ] (i : Nat) (s : RowStore sc) : Acts i s (s.release i) := by
  have hlock : ∀ k j, j ≠ i → ((s.release i).lock k = some j ↔ s.lock k = some j) := by
    intro k j hj
    simp only [release]
    split
    · next hk => simp [hk, Ne.symm hj]
    · exact .rfl
  have htx : ∀ j t, (s.release i).tx j = some t → j ≠ i ∧ s.tx j = some t := by
    intro j t ht
    by_cases hj : j = i
    · subst hj
      simp [release] at ht
    · exact ⟨hj, by simpa [release, hj] using ht⟩
  intro h
  refine ⟨⟨fun j t a ht ha => ?_, fun j t b ht hb => ?_⟩, fun j hj =>
    ⟨Function.update_of_ne hj _ _, fun k => hlock k j hj, fun _ _ => rfl, fun _ _ => rfl⟩⟩
  · obtain ⟨hj, ht'⟩ := htx j t ht
    exact (hlock _ j hj).mpr (h.rows j t a ht' ha)
  · obtain ⟨hj, ht'⟩ := htx j t ht
    exact (hlock _ j hj).mpr (h.entries j t b ht' hb)

theorem acts_replace {i : Nat} {rows : Table sc.key} {entries : List β} {s : RowStore sc}
    (hrows : ∀ j k, j ≠ i → s.lock k = some j → rows.get? k = s.rows.get? k)
    (hentries : ∀ j k, j ≠ i → s.lock k = some j →
      (entries.filter fun b => sc.ref b = k) = s.entriesOf k) :
    Acts i s { s with rows := rows, entries := entries } := fun h =>
  ⟨⟨h.rows, h.entries⟩, fun j hj =>
    ⟨rfl, fun _ => .rfl, fun k hk => hrows j k hj hk, fun k hk => hentries j k hj hk⟩⟩

theorem acts_store {i : Nat} {as : List α} {s : RowStore sc} (hfree : ∀ a ∈ as, s.lock (sc.key a) = none) :
    Acts i s (s.store as) := by
  refine acts_replace (fun j k hj hk => ?_) (fun _ _ _ _ => rfl)
  rw [Table.get?_putAll, List.find?_eq_none.mpr, Option.none_or]
  intro a ha hkey
  have hnone := hfree a ha
  rw [of_decide_eq_true hkey, hk] at hnone
  simp at hnone

theorem Acts.trans {i : Nat} {s₁ s₂ s₃ : RowStore sc} (h₁ : Acts i s₁ s₂) (h₂ : Acts i s₂ s₃) :
    Acts i s₁ s₃ := by
  intro h
  obtain ⟨hi₂, hf₂⟩ := h₁ h
  obtain ⟨hi₃, hf₃⟩ := h₂ hi₂
  exact ⟨hi₃, fun j hj => (hf₂ j hj).trans (hf₃ j hj)⟩

theorem acts_commit [DecidableEq υ] (i : Nat) (s : RowStore sc) : Acts i s (s.commit i) := by
  intro h
  refine Acts.trans (acts_replace ?_ ?_) (acts_release i _) h
  · intro j k hj hk
    rw [get?_view]
    cases ht : s.tx i with
    | none => simp
    | some t =>
      have hnone : t.rows.get? k = none := by
        refine Option.eq_none_iff_forall_ne_some.mpr fun a ha => hj ?_
        obtain ⟨hmem, rfl⟩ := Table.get?_eq_some_iff.mp ha
        exact Option.some.inj (hk.symm.trans (h.rows i t a ht hmem))
      simp [hnone]
  intro j k hj hk
  rw [List.filter_append, entriesOf, List.append_right_eq_self, List.filter_eq_nil_iff]
  intro b hb
  obtain ⟨t, ht, hbt⟩ : ∃ t, s.tx i = some t ∧ b ∈ t.entries := by
    cases ht : s.tx i with
    | none => simp [ht] at hb
    | some t => exact ⟨t, rfl, by simpa [ht] using hb⟩
  rintro hkey
  have hlocked := h.entries i t b ht hbt
  rw [of_decide_eq_true hkey, hk] at hlocked
  exact hj (Option.some.inj hlocked)

theorem acts_write {i : Nat} {as : List α} {s : RowStore sc}
    (hfree : ∀ a ∈ as, s.free i (sc.key a) = true) : Acts i s (s.write i as) := by
  intro h
  unfold write
  cases ht : s.tx i with
  | none => exact acts_refl i s h
  | some t =>
    have hkeys : ∀ k ∈ as.map sc.key, s.free i k = true := by
      intro k hk
      obtain ⟨a, ha, rfl⟩ := List.mem_map.mp hk
      exact hfree a ha
    have hacq := acts_acquire hkeys
    have hiso := (hacq h).1
    refine Acts.trans hacq (acts_update ?_ ?_) h
    · rintro _ ⟨⟩ a ha
      rcases Table.mem_putAll ha with hnew | hold
      · simp only [acquire]
        rw [if_pos (List.mem_map_of_mem hnew)]
      · exact hiso.rows i t a ht hold
    · rintro _ ⟨⟩ b hb
      exact hiso.entries i t b ht hb

theorem acts_indexLock {i : Nat} {f : υ → Option Nat} (s : RowStore sc) :
    Acts i s { s with indexLock := f } := fun h =>
  ⟨⟨h.rows, h.entries⟩, fun _ _ => ⟨rfl, fun _ => .rfl, fun _ _ => rfl, fun _ _ => rfl⟩⟩

theorem acts_insert [DecidableEq υ] {i : Nat} {a : α} {s : RowStore sc}
    (hfree : s.free i (sc.key a) = true) : Acts i s (s.insert i a) :=
  (acts_write (by simpa using hfree)).trans (acts_indexLock _)

theorem acts_append {i : Nat} {b : β} {s : RowStore sc} (hfree : s.free i (sc.ref b) = true) :
    Acts i s (s.append i b) := by
  intro h
  unfold append
  cases ht : s.tx i with
  | none => exact acts_refl i s h
  | some t =>
    have hacq := acts_acquire (show ∀ k ∈ [sc.ref b], s.free i k = true by simpa using hfree)
    have hiso := (hacq h).1
    refine Acts.trans hacq (acts_update ?_ ?_) h
    · rintro _ ⟨⟩ a ha
      exact hiso.rows i t a ht ha
    rintro _ ⟨⟩ b' hb'
    rcases List.mem_append.mp hb' with hold | hnew
    · exact hiso.entries i t b' ht hold
    · simp [acquire, List.mem_singleton.mp hnew]

def Quiet (s s' : RowStore sc) : Prop := s'.rows = s.rows ∧ ∀ i t', s'.tx i = some t' →
  t'.rows = .empty ∨ ∃ t, s.tx i = some t ∧ t'.rows = t.rows

omit [DecidableEq κ] in
theorem quiet_refl (s : RowStore sc) : Quiet s s := ⟨rfl, fun _ t ht => .inr ⟨t, ht, rfl⟩⟩

theorem quiet_acquire (i : Nat) (ks : List κ) (s : RowStore sc) : Quiet s (s.acquire i ks) :=
  ⟨rfl, fun _ t ht => .inr ⟨t, ht, rfl⟩⟩

omit [DecidableEq κ] in
theorem tx_update {i j : Nat} {o : Option (Tx sc)} {t : Tx sc} {s : RowStore sc}
    (h : Function.update s.tx i o j = some t) : (j = i ∧ o = some t) ∨ (j ≠ i ∧ s.tx j = some t) := by
  by_cases hj : j = i
  · subst hj
    exact .inl ⟨rfl, by simpa using h⟩
  · exact .inr ⟨hj, by simpa [hj] using h⟩

omit [DecidableEq κ] in
theorem quiet_begin (i : Nat) (s : RowStore sc) : Quiet s (s.begin i) := by
  refine ⟨rfl, fun j t' ht' => ?_⟩
  rcases tx_update ht' with ⟨-, ⟨⟩⟩ | ⟨-, ht⟩
  · exact .inl rfl
  · exact .inr ⟨t', ht, rfl⟩

omit [DecidableEq κ] in
theorem quiet_abort (i : Nat) (s : RowStore sc) : Quiet s (s.abort i) := by
  refine ⟨rfl, fun j t' ht' => ?_⟩
  rcases tx_update ht' with ⟨rfl, ht⟩ | ⟨-, ht⟩
  · obtain ⟨t, ht₀, rfl⟩ := Option.map_eq_some_iff.mp ht
    exact .inr ⟨t, ht₀, rfl⟩
  · exact .inr ⟨t', ht, rfl⟩

omit [DecidableEq κ] in
theorem quiet_release [DecidableEq υ] (i : Nat) (s : RowStore sc) : Quiet s (s.release i) := by
  refine ⟨rfl, fun j t' ht' => ?_⟩
  rcases tx_update ht' with ⟨-, ht⟩ | ⟨-, ht⟩
  · simp at ht
  · exact .inr ⟨t', ht, rfl⟩

theorem quiet_append (i : Nat) (b : β) (s : RowStore sc) : Quiet s (s.append i b) := by
  unfold append
  cases ht : s.tx i with
  | none => exact quiet_refl s
  | some t =>
    refine ⟨rfl, fun j t' ht' => ?_⟩
    rcases tx_update ht' with ⟨rfl, ⟨⟩⟩ | ⟨-, ht'⟩
    · exact .inr ⟨t, ht, rfl⟩
    · exact .inr ⟨t', ht', rfl⟩

/-! Rows move along a preorder: what a transaction wrote is ahead of what is committed. -/

section Moves

variable (E : α → α → Prop) (N : α → Prop)

/-- The second row may take the place of the first, or of none. -/
def Ahead : Option α → Option α → Prop
  | some a, some b => E a b
  | none, some b => ∃ a, N a ∧ E a b
  | none, none => True
  | some _, none => False

def Derived (s : RowStore sc) : Prop := ∀ i t k b, s.tx i = some t → t.rows.get? k = some b →
  Ahead E N (s.rows.get? k) (some b)

def Moved (s s' : RowStore sc) : Prop := ∀ k, Ahead E N (s.rows.get? k) (s'.rows.get? k)

variable {E N}

omit [DecidableEq κ] in
theorem Ahead.refl (hrefl : ∀ a, E a a) (o : Option α) : Ahead E N o o := by
  cases o with
  | none => trivial
  | some a => exact hrefl a

theorem Ahead.trans (htrans : ∀ a b c, E a b → E b c → E a c) {o₁ o₂ o₃ : Option α}
    (h₁ : Ahead E N o₁ o₂) (h₂ : Ahead E N o₂ o₃) : Ahead E N o₁ o₃ := by
  cases o₃ with
  | none =>
    cases o₂ with
    | none => exact h₁
    | some b => exact h₂.elim
  | some c =>
    cases o₂ with
    | none =>
      cases o₁ with
      | none => exact h₂
      | some a => exact h₁.elim
    | some b =>
      cases o₁ with
      | none =>
        obtain ⟨a, ha, hab⟩ := h₁
        exact ⟨a, ha, htrans a b c hab h₂⟩
      | some a => exact htrans a b c h₁ h₂

theorem Moved.trans (htrans : ∀ a b c, E a b → E b c → E a c) {s₁ s₂ s₃ : RowStore sc}
    (h₁ : Moved E N s₁ s₂) (h₂ : Moved E N s₂ s₃) : Moved E N s₁ s₃ :=
  fun k => (h₁ k).trans htrans (h₂ k)

theorem Quiet.moved (hrefl : ∀ a, E a a) {s s' : RowStore sc} (h : Quiet s s') : Moved E N s s' := by
  intro k
  rw [h.1]
  exact Ahead.refl hrefl _

theorem Quiet.derived {s s' : RowStore sc} (h : Quiet s s') (hder : Derived E N s) : Derived E N s' := by
  intro i t' k b ht' hb
  rw [h.1]
  rcases h.2 i t' ht' with hempty | ⟨t, ht, heq⟩
  · simp [hempty, Table.empty, Table.get?] at hb
  · exact hder i t k b ht (heq ▸ hb)

theorem found {as : List α} {k : κ} {a : α}
    (h : (as.find? fun a => sc.key a = k) = some a) : a ∈ as ∧ sc.key a = k :=
  ⟨List.mem_of_find?_eq_some h, by simpa using List.find?_some h⟩

theorem moved_store (hrefl : ∀ a, E a a) {as : List α} {s : RowStore sc} (hiso : s.Isolated)
    (hder : Derived E N s) (hfree : ∀ a ∈ as, s.lock (sc.key a) = none)
    (hahead : ∀ a ∈ as, Ahead E N (s.rows.get? (sc.key a)) (some a)) :
    Derived E N (s.store as) ∧ Moved E N s (s.store as) := by
  constructor
  · intro j t k b htj hb
    simp only [store, Table.get?_putAll]
    cases hfind : as.find? fun a => sc.key a = k with
    | none => simpa using hder j t k b htj hb
    | some a =>
      -- a row that a transaction wrote is locked
      obtain ⟨ha, rfl⟩ := found hfind
      obtain ⟨hmem, hkey⟩ := Table.get?_eq_some_iff.mp hb
      have hlock := hiso.rows j t b htj hmem
      rw [hkey, hfree a ha] at hlock
      simp at hlock
  intro k
  simp only [store, Table.get?_putAll]
  cases hfind : as.find? fun a => sc.key a = k with
  | none => simpa using Ahead.refl hrefl _
  | some a =>
    obtain ⟨ha, rfl⟩ := found hfind
    simpa using hahead a ha

theorem moved_write (hrefl : ∀ a, E a a) (htrans : ∀ a b c, E a b → E b c → E a c)
    {i : Nat} {as : List α} {s : RowStore sc} (hder : Derived E N s)
    (hahead : ∀ a ∈ as, Ahead E N ((s.view i).get? (sc.key a)) (some a)) :
    Derived E N (s.write i as) ∧ Moved E N s (s.write i as) := by
  unfold write
  cases ht : s.tx i with
  | none => exact ⟨hder, fun k => Ahead.refl hrefl _⟩
  | some t =>
    refine ⟨?_, fun k => Ahead.refl hrefl _⟩
    intro j t' k b htj hb
    rcases tx_update htj with ⟨rfl, ⟨⟩⟩ | ⟨-, htj⟩
    · simp only [Table.get?_putAll] at hb
      cases hfind : as.find? fun a => sc.key a = k with
      | none => exact hder j t k b ht (by simpa [hfind] using hb)
      | some a =>
        obtain ⟨ha, rfl⟩ := found hfind
        obtain rfl : a = b := by simpa [hfind] using hb
        have hab := hahead a ha
        rw [get?_view, ht, Option.bind_some] at hab
        cases hown : t.rows.get? (sc.key a) with
        | none => simpa [hown, acquire] using hab
        | some c => exact (hder j t _ c ht hown).trans htrans (by simpa [hown] using hab)
    · exact hder j t' k b htj hb

theorem moved_insert [DecidableEq υ] (hrefl : ∀ a, E a a) (htrans : ∀ a b c, E a b → E b c → E a c)
    {i : Nat} {a : α} {s : RowStore sc} (hder : Derived E N s)
    (hnew : (s.view i).get? (sc.key a) = none) (hN : N a) :
    Derived E N (s.insert i a) ∧ Moved E N s (s.insert i a) := by
  refine moved_write hrefl htrans (i := i) hder fun b hb => ?_
  obtain rfl := List.mem_singleton.mp hb
  rw [hnew]
  exact ⟨b, hN, hrefl b⟩

theorem moved_commit [DecidableEq υ] (hrefl : ∀ a, E a a) (i : Nat) {s : RowStore sc} (hiso : s.Isolated)
    (hder : Derived E N s) : Derived E N (s.commit i) ∧ Moved E N s (s.commit i) := by
  have hget : ∀ k, (s.commit i).rows.get? k = (s.view i).get? k := fun _ => rfl
  constructor
  · intro j t k b htj hb
    obtain ⟨hj, ht⟩ : j ≠ i ∧ s.tx j = some t := by
      by_cases hj : j = i
      · subst hj
        simp [commit, release] at htj
      · exact ⟨hj, by simpa [commit, release, hj] using htj⟩
    obtain ⟨hmem, hkey⟩ := Table.get?_eq_some_iff.mp hb
    have hlock := hiso.rows j t b ht hmem
    rw [hkey] at hlock
    rw [((acts_commit i s hiso).2 j hj).rows k hlock]
    exact hder j t k b ht hb
  intro k
  rw [hget, get?_view]
  cases ht : s.tx i with
  | none => exact Ahead.refl hrefl _
  | some t =>
    cases hk : t.rows.get? k with
    | none => simpa [hk] using Ahead.refl hrefl _
    | some b => simpa [hk] using hder i t k b ht hk

end Moves

end RowStore
