import Mathlib

/-!
# Numbering before and after a filter

Two loops select elements of one list and number them. One numbers all elements and then
selects; the other first drops the elements a partial function has no value for, numbers
what is left, and then selects. Their numbers agree exactly when nothing is dropped up to
the last selected element.
-/

namespace Numbering

open List

variable {α β : Type} (f : α → Option β) (p : β → Bool) (q : α → Bool)

def ofAll (k : Nat) (l : List α) : List (α × Nat) := (l.zipIdx k).filter fun n => q n.1

def ofKept (k : Nat) (l : List α) : List (β × Nat) := ((l.filterMap f).zipIdx k).filter fun n => p n.1

def CompleteUpTo (l : List α) : Prop :=
  ∀ before a after, l = before ++ a :: after → q a = true → ∀ b ∈ before ++ [a], (f b).isSome = true

variable {f p q}

theorem ofAll_cons (k : Nat) (a : α) (l : List α) :
    ofAll q k (a :: l) = if q a = true then (a, k) :: ofAll q (k + 1) l else ofAll q (k + 1) l := by
  simp only [ofAll, zipIdx_cons, filter_cons]

theorem ofKept_cons_none (k : Nat) {a : α} (l : List α) (ha : f a = none) :
    ofKept f p k (a :: l) = ofKept f p k l := by
  simp only [ofKept, filterMap_cons_none ha]

theorem ofKept_cons_some (k : Nat) {a : α} {b : β} (l : List α) (ha : f a = some b) :
    ofKept f p k (a :: l) =
      if p b = true then (b, k) :: ofKept f p (k + 1) l else ofKept f p (k + 1) l := by
  simp only [ofKept, filterMap_cons_some ha, zipIdx_cons, filter_cons]

theorem completeUpTo_nil : CompleteUpTo f q [] := by
  intro before a after h
  simp at h

theorem completeUpTo_cons_iff {a : α} {l : List α} :
    CompleteUpTo f q (a :: l) ↔
      CompleteUpTo f q l ∧ ((q a = true ∨ ∃ b ∈ l, q b = true) → (f a).isSome = true) := by
  constructor
  · intro h
    refine ⟨fun before b after hl hq c hc => ?_, ?_⟩
    · exact h (a :: before) b after (by simp [hl]) hq c (mem_cons_of_mem a hc)
    rintro (hq | ⟨b, hb, hq⟩)
    · exact h [] a l rfl hq a (by simp)
    obtain ⟨before, after, rfl⟩ := append_of_mem hb
    exact h (a :: before) b after (by simp) hq a (by simp)
  rintro ⟨htail, hhead⟩ before b after hl hq c hc
  cases before with
  | nil =>
    cases hl
    obtain rfl : c = a := by simpa using hc
    exact hhead (.inl hq)
  | cons d before =>
    cases hl
    rcases mem_cons.mp hc with rfl | hc
    · exact hhead (.inr ⟨b, by simp, hq⟩)
    · exact htail before b after rfl hq c hc

theorem ofAll_eq_nil_iff {k : Nat} {l : List α} : ofAll q k l = [] ↔ ∀ b ∈ l, ¬ q b = true := by
  induction l generalizing k with
  | nil => simp [ofAll]
  | cons a l ih =>
    rw [ofAll_cons]
    split
    · next ha => simp [ha]
    · next ha => simp [ih, ha]

section

variable (hpq : ∀ a b, f a = some b → p b = q a)

include hpq

theorem length_ofKept_le (k m : Nat) (l : List α) : (ofKept f p k l).length ≤ (ofAll q m l).length := by
  induction l generalizing k m with
  | nil => simp [ofKept]
  | cons a l ih =>
    rw [ofAll_cons]
    cases ha : f a with
    | none =>
      rw [ofKept_cons_none k l ha]
      split
      · exact (ih k (m + 1)).trans (by simp)
      · exact ih k (m + 1)
    | some b =>
      rw [ofKept_cons_some k l ha, hpq a b ha]
      split
      · simpa using ih (k + 1) (m + 1)
      · exact ih (k + 1) (m + 1)

theorem ofKept_eq_of_complete (k : Nat) {l : List α} (h : CompleteUpTo f q l) :
    ofKept f p k l = (ofAll q k l).filterMap fun n => (f n.1).map fun b => (b, n.2) := by
  induction l generalizing k with
  | nil => simp [ofKept, ofAll]
  | cons a l ih =>
    obtain ⟨htail, hhead⟩ := (completeUpTo_cons_iff).mp h
    rw [ofAll_cons]
    cases ha : f a with
    | none =>
      -- a dropped element has no selected one at or after it, so both sides are empty
      have hnone : ∀ b ∈ l, ¬ q b = true := fun b hb hq => by simpa [ha] using hhead (.inr ⟨b, hb, hq⟩)
      have hqa : ¬ q a = true := fun hq => by simpa [ha] using hhead (.inl hq)
      have hall : ofAll q (k + 1) l = [] := (ofAll_eq_nil_iff).mpr hnone
      have hkept : ofKept f p k l = [] := by
        have hlen := length_ofKept_le hpq k (k + 1) l
        rw [hall] at hlen
        exact eq_nil_of_length_eq_zero (Nat.le_zero.mp hlen)
      rw [ofKept_cons_none k l ha, if_neg hqa, hall, hkept]
      rfl
    | some b =>
      rw [ofKept_cons_some k l ha, hpq a b ha, ih (k + 1) htail]
      split
      · simp [ha]
      · rfl

theorem complete_of_positions_eq {k m : Nat} (hkm : k ≤ m) {l : List α}
    (h : (ofKept f p k l).map Prod.snd = (ofAll q m l).map Prod.snd) :
    CompleteUpTo f q l ∧ (k = m ∨ ofAll q m l = []) := by
  induction l generalizing k m with
  | nil => exact ⟨completeUpTo_nil, .inr rfl⟩
  | cons a l ih =>
    rw [ofAll_cons] at h ⊢
    cases ha : f a with
    | none =>
      rw [ofKept_cons_none k l ha] at h
      split at h
      · -- the selected element itself was dropped: one number is missing
        have hlen := congrArg length h
        have hle := length_ofKept_le hpq k (m + 1) l
        simp only [length_map, length_cons] at hlen
        omega
      next hqa =>
      obtain ⟨htail, hdrift⟩ := ih (by omega) h
      have hnil : ofAll q (m + 1) l = [] := hdrift.resolve_left (by omega)
      refine ⟨(completeUpTo_cons_iff).mpr ⟨htail, ?_⟩, .inr (by rw [if_neg hqa, hnil])⟩
      rintro (hq | ⟨b, hb, hq⟩)
      · exact absurd hq hqa
      · exact absurd hq ((ofAll_eq_nil_iff).mp hnil b hb)
    | some b =>
      rw [ofKept_cons_some k l ha, hpq a b ha] at h
      have hsome : (f a).isSome = true := by simp [ha]
      split at h
      · next hqa =>
        simp only [map_cons, cons.injEq] at h
        obtain ⟨hhead, htail⟩ := h
        exact ⟨(completeUpTo_cons_iff).mpr ⟨(ih (by omega) htail).1, fun _ => hsome⟩, .inl hhead⟩
      next hqa =>
      obtain ⟨htail, hdrift⟩ := ih (by omega) h
      refine ⟨(completeUpTo_cons_iff).mpr ⟨htail, fun _ => hsome⟩, ?_⟩
      rw [if_neg hqa]
      exact hdrift.imp_left (by omega)

end

theorem pairwise_ofAll (k : Nat) (l : List α) : ((ofAll q k l).map Prod.snd).Pairwise (· < ·) := by
  have hsub : ((ofAll q k l).map Prod.snd).Sublist ((l.zipIdx k).map Prod.snd) :=
    filter_sublist.map _
  rw [zipIdx_map_snd] at hsub
  exact List.Pairwise.sublist hsub (pairwise_lt_range' 1)

theorem pairwise_ofKept (k : Nat) (l : List α) : ((ofKept f p k l).map Prod.snd).Pairwise (· < ·) := by
  have hsub : ((ofKept f p k l).map Prod.snd).Sublist (((l.filterMap f).zipIdx k).map Prod.snd) :=
    filter_sublist.map _
  rw [zipIdx_map_snd] at hsub
  exact List.Pairwise.sublist hsub (pairwise_lt_range' 1)

end Numbering
