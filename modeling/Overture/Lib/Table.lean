import Mathlib

/-!
# Tables with a primary key

The rows of a table have different keys. Writing a row replaces the one with its key or adds
it at the end.
-/

structure Table {α κ : Type} (key : α → κ) where
  rows : List α
  nodup : (rows.map key).Nodup

namespace Table

open List Option

variable {α κ : Type} {key : α → κ} [DecidableEq κ]

def empty : Table key := ⟨[], by simp⟩

def get? (t : Table key) (k : κ) : Option α := t.rows.find? fun a => key a = k

variable {t : Table key} {k : κ} {a : α}

theorem get?_eq_some_iff : t.get? k = some a ↔ a ∈ t.rows ∧ key a = k := by
  have hfound : ∀ b, t.get? k = some b → b ∈ t.rows ∧ key b = k := by
    intro b hb
    exact ⟨mem_of_find?_eq_some hb, by simpa using find?_some hb⟩
  refine ⟨hfound a, fun ⟨ha, hk⟩ => ?_⟩
  cases hget : t.get? k with
  | none =>
    rw [get?, find?_eq_none] at hget
    exact absurd (by simpa using hk) (hget a ha)
  | some b =>
    obtain ⟨hb, hkb⟩ := hfound b hget
    rw [inj_on_of_nodup_map t.nodup hb ha (hkb.trans hk.symm)]

theorem get?_of_mem (h : a ∈ t.rows) : t.get? (key a) = some a :=
  get?_eq_some_iff.mpr ⟨h, rfl⟩

theorem mem_of_get? (h : t.get? k = some a) : a ∈ t.rows :=
  (get?_eq_some_iff.mp h).1

theorem key_of_get? (h : t.get? k = some a) : key a = k :=
  (get?_eq_some_iff.mp h).2

theorem get?_eq_none_iff : t.get? k = none ↔ k ∉ t.rows.map key := by
  simp [get?]

def put (a : α) (t : Table key) : Table key :=
  if h : key a ∈ t.rows.map key then
    ⟨t.rows.map fun b => if key b = key a then a else b, by
      have hkeys : ((t.rows.map fun b => if key b = key a then a else b).map key) = t.rows.map key := by
        rw [List.map_map]
        refine List.map_congr_left fun b _ => ?_
        simp only [Function.comp_apply]
        split <;> simp_all
      rw [hkeys]
      exact t.nodup⟩
  else ⟨t.rows ++ [a], by simpa [List.nodup_append, t.nodup] using fun b hb he => h (by simp [← he]; exact ⟨b, hb, rfl⟩)⟩

theorem get?_put (a : α) (t : Table key) (k : κ) :
    (t.put a).get? k = if key a = k then some a else t.get? k := by
  split
  · next hk =>
    refine get?_eq_some_iff.mpr ⟨?_, hk⟩
    rw [put]
    split
    · next hmem =>
      obtain ⟨b, hb, hkb⟩ := List.mem_map.mp hmem
      exact List.mem_map.mpr ⟨b, hb, by simp [hkb]⟩
    · simp
  next hk =>
  apply Option.ext
  intro b
  rw [get?_eq_some_iff, get?_eq_some_iff, and_congr_left_iff]
  rintro rfl
  rw [put]
  split
  · simp only [List.mem_map]
    constructor
    · rintro ⟨c, hc, he⟩
      split at he
      · next => exact absurd (congrArg key he) (by simpa using hk)
      · exact he ▸ hc
    · intro hb
      exact ⟨b, hb, by simp [Ne.symm hk]⟩
  · simp only [List.mem_append, List.mem_singleton, or_iff_left_iff_imp]
    rintro rfl
    exact absurd rfl hk

/-- Writes several rows; where two have one key, the first counts. -/
def putAll (as : List α) (t : Table key) : Table key := as.foldr put t

theorem get?_putAll (as : List α) (t : Table key) (k : κ) :
    (t.putAll as).get? k = (as.find? fun a => key a = k).or (t.get? k) := by
  induction as with
  | nil => simp [putAll]
  | cons a as ih =>
    rw [putAll, foldr_cons, ← putAll, get?_put, ih, find?_cons]
    by_cases hk : key a = k <;> simp [hk]

theorem get?_putAll_rows (u t : Table key) (k : κ) :
    (t.putAll u.rows).get? k = (u.get? k).or (t.get? k) := get?_putAll u.rows t k

theorem mem_putAll {as : List α} (h : a ∈ (t.putAll as).rows) :
    a ∈ as ∨ a ∈ t.rows := by
  have hget := get?_of_mem h
  rw [get?_putAll] at hget
  rcases or_eq_some_iff.mp hget with hfind | ⟨-, hold⟩
  · exact .inl (mem_of_find?_eq_some hfind)
  · exact .inr (mem_of_get? hold)

def putNew (a : α) (t : Table key) : Table key := if key a ∈ t.rows.map key then t else t.put a

theorem rows_putNew_of_mem (h : key a ∈ t.rows.map key) : (t.putNew a).rows = t.rows := by
  rw [putNew, if_pos h]

theorem rows_putNew_of_not_mem (h : key a ∉ t.rows.map key) :
    (t.putNew a).rows = t.rows ++ [a] := by
  rw [putNew, if_neg h, put, dif_neg h]

theorem get?_putNew (a : α) (t : Table key) (k : κ) :
    (t.putNew a).get? k = (t.get? k).or (if key a = k then some a else none) := by
  rw [putNew]
  by_cases hmem : key a ∈ t.rows.map key
  · rw [if_pos hmem]
    by_cases hk : key a = k
    · subst hk
      obtain ⟨b, hb, hkb⟩ := mem_map.mp hmem
      rw [← hkb, get?_of_mem hb, some_or]
    · rw [if_neg hk, or_none]
  rw [if_neg hmem, get?_put]
  by_cases hk : key a = k
  · subst hk
    rw [if_pos rfl, if_pos rfl, get?_eq_none_iff.mpr hmem, none_or]
  · rw [if_neg hk, if_neg hk, or_none]

theorem mem_putNew {b : α} (h : b ∈ (t.putNew a).rows) : b = a ∨ b ∈ t.rows := by
  by_cases hmem : key a ∈ t.rows.map key
  · rw [rows_putNew_of_mem hmem] at h
    exact .inr h
  · rw [rows_putNew_of_not_mem hmem, mem_append, mem_singleton] at h
    exact h.symm

theorem rows_foldl_putNew {as : List α} (h : ((t.rows ++ as).map key).Nodup) :
    (as.foldl (fun t a => t.putNew a) t).rows = t.rows ++ as := by
  induction as generalizing t with
  | nil => simp
  | cons a as ih =>
    have hnew : key a ∉ t.rows.map key := by
      rw [map_append, nodup_append] at h
      intro hmem
      exact h.2.2 _ hmem _ (by simp) rfl
    have hrows := rows_putNew_of_not_mem hnew
    rw [foldl_cons, ih (by simpa [hrows] using h), hrows]
    simp

def addAll (accepts : α → Bool) (as : List α) (t : Table key) : Table key :=
  as.foldl (fun t a => if accepts a = true then t.putNew a else t) t

def Room (accepts : α → Bool) (as : List α) (t : Table key) : Prop :=
  (∀ a ∈ as, accepts a = true) ∧ (as.map key).Nodup ∧ ∀ a ∈ as, key a ∉ t.rows.map key

theorem rows_addAll (accepts : α → Bool) (as : List α) (t : Table key) :
    ∃ added, (t.addAll accepts as).rows = t.rows ++ added ∧ added.Sublist as ∧
      (added = as ↔ Room accepts as t) := by
  induction as generalizing t with
  | nil => exact ⟨[], by simp [addAll], List.Sublist.refl [], by simp [Room]⟩
  | cons a as ih =>
    by_cases hnew : accepts a = true ∧ key a ∉ t.rows.map key
    · obtain ⟨hacc, hkey⟩ := hnew
      obtain ⟨added, hrows, hsub, hroom⟩ := ih (t.putNew a)
      refine ⟨a :: added, ?_, hsub.cons_cons a, ?_⟩
      · rw [addAll, List.foldl_cons, if_pos hacc, ← addAll, hrows, rows_putNew_of_not_mem hkey]
        simp
      rw [List.cons.injEq, hroom]
      simp only [Room, rows_putNew_of_not_mem hkey]
      simp only [List.map_append, List.map_cons, List.map_nil, List.mem_append, List.mem_singleton,
        List.forall_mem_cons, List.nodup_cons, List.mem_map]
      grind
    -- the row is left out, so what is added is shorter than the list
    have hskip : (if accepts a = true then t.putNew a else t).rows = t.rows := by
      split
      · next hacc => exact rows_putNew_of_mem (by grind)
      · rfl
    obtain ⟨added, hrows, hsub, -⟩ := ih (if accepts a = true then t.putNew a else t)
    refine ⟨added, ?_, hsub.cons a, ?_⟩
    · rw [addAll, List.foldl_cons, ← addAll, hrows, hskip]
    constructor
    · rintro rfl
      have hlen := hsub.length_le
      simp at hlen
    · rintro ⟨hacc, -, hkey⟩
      exact absurd ⟨hacc a (by simp), hkey a (by simp)⟩ hnew

def keep (p : α → Bool) (t : Table key) : Table key :=
  ⟨t.rows.filter p, t.nodup.sublist (List.filter_sublist.map key)⟩

theorem get?_keep {p : α → Bool} :
    (t.keep p).get? k = some a ↔ t.get? k = some a ∧ p a = true := by
  rw [get?_eq_some_iff, get?_eq_some_iff, keep, mem_filter]
  tauto

def alter (f : α → α) (hf : ∀ a, key (f a) = key a) (t : Table key) : Table key :=
  ⟨t.rows.map f, by
    rw [List.map_map, show key ∘ f = key from funext hf]
    exact t.nodup⟩

theorem get?_alter {f : α → α} (hf : ∀ a, key (f a) = key a) (t : Table key) (k : κ) :
    (t.alter f hf).get? k = (t.get? k).map f := by
  apply Option.ext
  intro b
  rw [get?_eq_some_iff, Option.map_eq_some_iff]
  simp only [get?_eq_some_iff, alter, List.mem_map]
  constructor
  · rintro ⟨⟨a, ha, rfl⟩, hk⟩
    exact ⟨a, ⟨ha, (hf a).symm.trans hk⟩, rfl⟩
  · rintro ⟨a, ⟨ha, hk⟩, rfl⟩
    exact ⟨⟨a, ha, rfl⟩, (hf a).trans hk⟩

omit [DecidableEq κ] in
theorem countP_alter {f : α → α} {hf : ∀ a, key (f a) = key a} {p : α → Bool} {t : Table key}
    (h : ∀ a ∈ t.rows, p (f a) = p a) : (t.alter f hf).rows.countP p = t.rows.countP p := by
  rw [alter, countP_map]
  exact countP_congr fun a ha => by simp [h a ha]

omit [DecidableEq κ] in
theorem countP_alter_of_lost {f : α → α} {hf : ∀ a, key (f a) = key a} {p : α → Bool} {t : Table key} {a : α}
    (ha : a ∈ t.rows) (hbefore : p a = true) (hafter : p (f a) = false)
    (hothers : ∀ b ∈ t.rows, key b ≠ key a → p (f b) = p b) :
    t.rows.countP p = (t.alter f hf).rows.countP p + 1 := by
  obtain ⟨front, back, hsplit⟩ := append_of_mem ha
  have hnodup := t.nodup
  rw [hsplit, map_append, map_cons, nodup_middle, nodup_cons, mem_append] at hnodup
  have hsame : ∀ part : List α, (∀ b ∈ part, b ∈ t.rows) → key a ∉ part.map key →
      part.countP (p ∘ f) = part.countP p := by
    intro part hpart hfresh
    apply countP_congr
    intro b hb
    have hne : key b ≠ key a := by
      intro heq
      exact hfresh (heq ▸ mem_map_of_mem hb)
    simp [hothers b (hpart b hb) hne]
  have hfront := hsame front (by simp_all) (fun h => hnodup.1 (.inl h))
  have hback := hsame back (by simp_all) (fun h => hnodup.1 (.inr h))
  simp only [alter, countP_map, hsplit, countP_append, countP_cons, hfront, hback,
    Function.comp_apply, hbefore, hafter]
  simp only [if_true, Bool.false_eq_true, if_false]
  omega

end Table
