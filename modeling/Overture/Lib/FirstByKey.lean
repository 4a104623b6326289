import Mathlib

/-!
# Keeping the first value of each key

A loop that keeps the first value it sees under each key and stops at a later value of
the same key that does not match. When matching is symmetric and transitive, the loop
goes through exactly when any two values of one key match, whatever their order.
-/

namespace FirstByKey

open List

variable {α κ : Type} (key : α → κ) (same : α → α → Bool)

def Agree (l : List α) : Prop := l.Pairwise fun a b => key a = key b → same a b = true

variable {key same} in
theorem agree_append_singleton {seen : List α} {a : α} :
    Agree key same (seen ++ [a]) ↔
      Agree key same seen ∧ ∀ b ∈ seen, key b = key a → same b a = true := by
  simp [Agree, pairwise_append]

variable {key same} in
theorem Agree.perm (hsymm : ∀ a b, same a b = true → same b a = true) {l l' : List α}
    (h : Agree key same l) (hp : l.Perm l') : Agree key same l' := by
  refine (hp.pairwise_iff ?_).mp h
  intro a b hab hk
  exact hsymm a b (hab hk.symm)

variable [DecidableEq κ]

def lookup (k : κ) (kept : List α) : Option α := kept.find? fun a => key a = k

def insert (kept : List α) (a : α) : Option (List α) :=
  match lookup key (key a) kept with
  | some b => if same b a then some kept else none
  | none => some (kept ++ [a])

def insertAll : List α → List α → Option (List α)
  | kept, [] => some kept
  | kept, a :: rest => (insert key same kept a).bind fun kept => insertAll kept rest

structure Kept (seen kept : List α) : Prop where
  agree : Agree key same seen
  lookup_eq : ∀ k, lookup key k kept = lookup key k seen

variable {key same}

theorem lookup_append (k : κ) (a b : List α) : lookup key k (a ++ b) = (lookup key k a).or (lookup key k b) :=
  find?_append

theorem lookup_eq_some {k : κ} {a : α} {l : List α} (h : lookup key k l = some a) : a ∈ l ∧ key a = k :=
  ⟨mem_of_find?_eq_some h, by simpa using find?_some h⟩

theorem lookup_eq_none {k : κ} {l : List α} : lookup key k l = none ↔ ∀ a ∈ l, key a ≠ k := by
  simp [lookup]

theorem lookup_isSome {k : κ} {l : List α} : (∃ a, lookup key k l = some a) ↔ ∃ a ∈ l, key a = k := by
  rw [← Option.isSome_iff_exists]
  simp [lookup]

section

variable (hsymm : ∀ a b, same a b = true → same b a = true)
  (htrans : ∀ a b c, same a b = true → same b c = true → same a c = true)

include hsymm htrans in
theorem Agree.match_of_lookup {seen : List α} {a b : α} (h : Agree key same seen)
    (hb : lookup key (key a) seen = some b) (hm : same b a = true) :
    ∀ c ∈ seen, key c = key a → same c a = true := by
  intro c hc hk
  obtain ⟨hbs, hkb⟩ := lookup_eq_some hb
  by_cases hcb : c = b
  · rwa [hcb]
  -- the first value of the key stands before every other one
  obtain ⟨pre, post, rfl, hpre⟩ : ∃ pre post, seen = pre ++ b :: post ∧ ∀ x ∈ pre, key x ≠ key a := by
    obtain ⟨-, pre, post, hs, hpre⟩ := find?_eq_some_iff_append.mp hb
    exact ⟨pre, post, hs, by simpa using hpre⟩
  have hcpost : c ∈ post := by
    rcases mem_append.mp hc with hc | hc
    · exact absurd hk (hpre c hc)
    · exact (mem_cons.mp hc).resolve_left hcb
  have hbc : same b c = true :=
    (pairwise_cons.mp (pairwise_append.mp h).2.1).1 c hcpost (hkb.trans hk.symm)
  exact htrans c b a (hsymm b c hbc) hm

include hsymm htrans in
theorem Kept.insert_spec {seen kept : List α} (h : Kept key same seen kept) (a : α) :
    (∀ kept', insert key same kept a = some kept' → Kept key same (seen ++ [a]) kept') ∧
      ((∃ kept', insert key same kept a = some kept') ↔
        ∀ b ∈ seen, key b = key a → same b a = true) := by
  unfold insert
  rw [h.lookup_eq]
  cases hb : lookup key (key a) seen with
  | none =>
    have hnone := (lookup_eq_none).mp hb
    refine ⟨?_, ⟨fun _ b hbs hk => absurd hk (hnone b hbs), fun _ => ⟨_, rfl⟩⟩⟩
    rintro kept' hkept
    cases hkept
    refine ⟨(agree_append_singleton).mpr ⟨h.agree, fun b hbs hk => absurd hk (hnone b hbs)⟩, ?_⟩
    intro k
    rw [lookup_append, lookup_append, h.lookup_eq]
  | some b =>
    obtain ⟨hbs, hkb⟩ := lookup_eq_some hb
    by_cases hm : same b a = true
    · have hall := h.agree.match_of_lookup hsymm htrans hb hm
      simp only [hm, if_true, Option.some.injEq]
      refine ⟨?_, ⟨fun _ => hall, fun _ => ⟨kept, rfl⟩⟩⟩
      rintro kept' rfl
      refine ⟨(agree_append_singleton).mpr ⟨h.agree, hall⟩, ?_⟩
      intro k
      rw [lookup_append, h.lookup_eq]
      by_cases hk : key a = k
      · subst hk; simp [hb]
      have : lookup key k [a] = none := (lookup_eq_none).mpr (by simpa using hk)
      simp [this]
    · simp only [hm, Bool.false_eq_true, if_false, false_implies, implies_true, exists_false,
        false_iff, true_and, reduceCtorEq]
      intro hall
      exact hm (hall b hbs hkb)

include hsymm htrans in
theorem Kept.insertAll_spec {seen kept : List α} (h : Kept key same seen kept) (l : List α) :
    (∀ kept', insertAll key same kept l = some kept' → Kept key same (seen ++ l) kept') ∧
      ((∃ kept', insertAll key same kept l = some kept') ↔ Agree key same (seen ++ l)) := by
  induction l generalizing seen kept with
  | nil =>
    rw [append_nil]
    refine ⟨fun kept' hk => ?_, ⟨fun _ => h.agree, fun _ => ⟨kept, rfl⟩⟩⟩
    cases hk
    exact h
  | cons a rest ih =>
    obtain ⟨hkeep, hgo⟩ := h.insert_spec hsymm htrans a
    rw [append_cons, insertAll]
    cases hins : insert key same kept a with
    | none =>
      refine ⟨by simp, ⟨by simp, fun hagree => ?_⟩⟩
      have hpre : Agree key same (seen ++ [a]) := (pairwise_append.mp hagree).1
      obtain ⟨kept', hk⟩ := hgo.mpr ((agree_append_singleton).mp hpre).2
      rw [hins] at hk
      cases hk
    | some kept' => exact ih (hkeep kept' hins)

end

theorem insertAll_append {kept a b : List α} :
    insertAll key same kept (a ++ b) =
      (insertAll key same kept a).bind fun kept => insertAll key same kept b := by
  induction a generalizing kept with
  | nil => rfl
  | cons x rest ih =>
    rw [cons_append, insertAll, insertAll]
    cases insert key same kept x with
    | none => rfl
    | some kept => exact ih

theorem Kept.nil : Kept key same [] [] := ⟨List.Pairwise.nil, fun _ => rfl⟩

end FirstByKey
