import Mathlib

/-!
# Hash chains

Every record of a chain names the hash of the record before it; the first one names none. When
the hash of a record determines what it names, no hash occurs twice. A chain may be cut into
segments, which form a chain of their own.
-/

namespace HashChain

open List

variable {ε η : Type} (prev : ε → Option η) (hash : ε → η)

/-- The records follow one another, and the first follows `start`. -/
def Links : Option η → List ε → Prop
  | _, [] => True
  | start, e :: rest => prev e = start ∧ Links (some (hash e)) rest

def tip : Option η → List ε → Option η
  | start, [] => start
  | _, e :: rest => tip (some (hash e)) rest

variable {prev hash}

theorem links_map {δ : Type} (f : δ → ε) {start : Option η} {ds : List δ} :
    Links prev hash start (ds.map f) ↔ Links (prev ∘ f) (hash ∘ f) start ds := by
  induction ds generalizing start with
  | nil => exact Iff.rfl
  | cons d ds ih => exact and_congr_right fun _ => ih

theorem tip_map {δ : Type} (f : δ → ε) (start : Option η) (ds : List δ) :
    tip hash start (ds.map f) = tip (hash ∘ f) start ds := by
  induction ds generalizing start with
  | nil => rfl
  | cons d ds ih => exact ih (some (hash (f d)))

theorem tip_append (start : Option η) (es fs : List ε) :
    tip hash start (es ++ fs) = tip hash (tip hash start es) fs := by
  induction es generalizing start with
  | nil => rfl
  | cons e es ih => exact ih (some (hash e))

theorem links_append {start : Option η} {es fs : List ε} :
    Links prev hash start (es ++ fs) ↔ Links prev hash start es ∧ Links prev hash (tip hash start es) fs := by
  induction es generalizing start with
  | nil => simp [Links, tip]
  | cons e es ih => rw [cons_append, Links, Links, ih, tip, and_assoc]

variable (hash) in
theorem tip_cons_mem (start : Option η) (e : ε) (es : List ε) :
    ∃ f ∈ e :: es, tip hash start (e :: es) = some (hash f) := by
  induction es generalizing start e with
  | nil => exact ⟨e, by simp, rfl⟩
  | cons f es ih =>
    obtain ⟨g, hg, htip⟩ := ih (some (hash e)) f
    exact ⟨g, mem_cons_of_mem e hg, htip⟩

theorem tip_eq_getLast? (es : List ε) : tip hash none es = es.getLast?.map hash := by
  induction es using reverseRecOn with
  | nil => rfl
  | append_singleton es e _ => simp [tip_append, tip]

variable {es l r : List ε} {e : ε}

theorem mem_of_tip {h : η} (htip : tip hash none es = some h) : ∃ e ∈ es, hash e = h := by
  cases es with
  | nil => cases htip
  | cons e es =>
    obtain ⟨f, hf, hlast⟩ := tip_cons_mem hash none e es
    exact ⟨f, hf, Option.some.inj (hlast.symm.trans htip)⟩

theorem prev_eq_of_links {start : Option η} (h : Links prev hash start (l ++ e :: r)) :
    prev e = tip hash start l := ((links_append).mp h).2.1

theorem tip_ne_of_nodup (hnodup : ((l ++ e :: r).map hash).Nodup) :
    tip hash none l ≠ tip hash none (l ++ e :: r) := by
  intro htip
  obtain ⟨f, hf, hlast⟩ := tip_cons_mem hash (tip hash none l) e r
  rw [tip_append, hlast] at htip
  obtain ⟨g, hg, hgf⟩ := mem_of_tip htip
  rw [map_append, nodup_append] at hnodup
  exact hnodup.2.2 _ (mem_map_of_mem hg) _ (mem_map_of_mem hf) hgf

theorem prev_ne_of_links (h : Links prev hash none (es ++ [e])) (hnodup : (es.map hash).Nodup) {f : ε} (hf : f ∈ es) :
    prev f ≠ prev e := by
  obtain ⟨hes, he⟩ := (links_append).mp h
  obtain ⟨l, r, rfl⟩ := append_of_mem hf
  rw [prev_eq_of_links hes, he.1]
  exact tip_ne_of_nodup hnodup

theorem nodup_of_links (h : Links prev hash none es)
    (hprev : ∀ e ∈ es, ∀ f ∈ es, hash e = hash f → prev e = prev f) : (es.map hash).Nodup := by
  induction es using reverseRecOn with
  | nil => exact nodup_nil
  | append_singleton es e ih =>
    have hnodup := ih ((links_append).mp h).1 fun a ha b hb => hprev a (by simp [ha]) b (by simp [hb])
    rw [← concat_eq_append, map_concat, nodup_concat]
    refine ⟨fun he => ?_, hnodup⟩
    obtain ⟨f, hf, heq⟩ := mem_map.mp he
    exact prev_ne_of_links h hnodup hf (hprev f (by simp [hf]) e (by simp) heq)

theorem nodup_prev_of_links (h : Links prev hash none es) (hnodup : (es.map hash).Nodup) :
    (es.map prev).Nodup := by
  induction es using reverseRecOn with
  | nil => exact nodup_nil
  | append_singleton es e ih =>
    have hsub : (es.map hash).Nodup := hnodup.sublist ((sublist_append_left es [e]).map hash)
    rw [← concat_eq_append, map_concat, nodup_concat]
    refine ⟨fun he => ?_, ih ((links_append).mp h).1 hsub⟩
    obtain ⟨f, hf, heq⟩ := mem_map.mp he
    exact prev_ne_of_links h hsub hf heq

theorem unextended_iff_of_links (h : Links prev hash none es) (hnodup : (es.map hash).Nodup)
    (he : e ∈ es) : (∀ f ∈ es, prev f ≠ some (hash e)) ↔ tip hash none es = some (hash e) := by
  obtain ⟨l, r, rfl⟩ := append_of_mem he
  cases r with
  | nil =>
    refine iff_of_true ?_ (tip_append none l [e])
    intro f hf heq
    obtain ⟨l', r', hcut⟩ := append_of_mem hf
    rw [hcut] at h hnodup
    apply tip_ne_of_nodup hnodup
    rw [← prev_eq_of_links h, heq, ← hcut, tip_append]
    rfl
  | cons g r =>
    refine iff_of_false ?_ ?_
    · intro hfree
      apply hfree g (by simp)
      have hg : prev g = tip hash none (l ++ [e]) := prev_eq_of_links (r := r) (by simpa using h)
      rw [hg, tip_append]
      rfl
    intro htip
    have hcut : l ++ e :: g :: r = (l ++ [e]) ++ g :: r := by simp
    rw [hcut] at hnodup htip
    apply tip_ne_of_nodup hnodup
    rw [htip, tip_append]
    rfl

theorem links_congr {fs : List ε} {start : Option η}
    (h : List.Forall₂ (fun e f => prev e = prev f ∧ hash e = hash f) es fs) :
    Links prev hash start es ↔ Links prev hash start fs := by
  induction h generalizing start with
  | nil => exact Iff.rfl
  | cons hef _ ih => rw [Links, Links, hef.1, hef.2, ih]

theorem head_eq_of_links (h : Links prev hash none (l ++ r)) (hnodup : ((l ++ r).map hash).Nodup)
    (he : e ∈ l ++ r) (hprev : prev e = tip hash none l) : ∃ r', r = e :: r' := by
  have hcut : ∀ a b, l = a ++ e :: b → False := by
    rintro a b rfl
    have hsub : ((a ++ e :: b).map hash).Nodup := hnodup.sublist ((sublist_append_left _ r).map hash)
    apply tip_ne_of_nodup hsub
    rw [← hprev, ← prev_eq_of_links ((links_append).mp h).1]
  rcases mem_append.mp he with he | he
  · obtain ⟨a, b, hl⟩ := append_of_mem he
    exact (hcut a b hl).elim
  · cases r with
    | nil => cases he
    | cons f r =>
      refine ⟨r, ?_⟩
      rcases mem_cons.mp he with rfl | hmem
      · rfl
      have hprevs := nodup_prev_of_links h hnodup
      rw [map_append, map_cons] at hprevs
      have hfirst := (nodup_append.mp hprevs).2.1
      rw [nodup_cons] at hfirst
      refine (hfirst.1 (mem_map.mpr ⟨e, hmem, ?_⟩)).elim
      rw [hprev, prev_eq_of_links h]

theorem isPrefix_of_links {fs : List ε} (h : Links prev hash none fs) (hnodup : (fs.map hash).Nodup)
    (hes : Links prev hash none es) (hmem : ∀ e ∈ es, e ∈ fs) : es <+: fs := by
  induction es using reverseRecOn with
  | nil => exact nil_prefix
  | append_singleton es e ih =>
    obtain ⟨hlinks, hlast⟩ := (links_append).mp hes
    obtain ⟨r, rfl⟩ := ih hlinks fun a ha => hmem a (by simp [ha])
    obtain ⟨r', rfl⟩ := head_eq_of_links h hnodup (hmem e (by simp)) hlast.1
    exact ⟨r', by simp⟩

section Segments

variable {σ : Type} {sprev : σ → Option η} {shash : σ → η} {records : σ → List ε}

variable (prev hash sprev shash records) in
/-- The segment stands for its records: it names what the first one names and has the hash of the last. -/
structure Covers (s : σ) : Prop where
  links : Links prev hash (sprev s) (records s)
  nonempty : records s ≠ []
  tip_eq : tip hash (sprev s) (records s) = some (shash s)

theorem Covers.mem {s : σ} (h : Covers prev hash sprev shash records s) : shash s ∈ (records s).map hash := by
  cases hrecords : records s with
  | nil => exact absurd hrecords h.nonempty
  | cons e es =>
    obtain ⟨f, hf, hlast⟩ := tip_cons_mem hash (sprev s) e es
    have htip := h.tip_eq
    rw [hrecords, hlast] at htip
    exact mem_map.mpr ⟨f, hf, Option.some.inj htip⟩

theorem links_flatMap {start : Option η} {ss : List σ} (hcovers : ∀ s ∈ ss, Covers prev hash sprev shash records s)
    (h : Links sprev shash start ss) : Links prev hash start (ss.flatMap records) := by
  induction ss generalizing start with
  | nil => trivial
  | cons s ss ih =>
    obtain ⟨rfl, hrest⟩ := h
    have hs := hcovers s (by simp)
    rw [flatMap_cons, links_append, hs.tip_eq]
    exact ⟨hs.links, ih (fun t ht => hcovers t (by simp [ht])) hrest⟩

theorem nodup_segments {ss : List σ} (hcovers : ∀ s ∈ ss, Covers prev hash sprev shash records s)
    (h : ((ss.flatMap records).map hash).Nodup) : (ss.map shash).Nodup := by
  induction ss with
  | nil => exact nodup_nil
  | cons s ss ih =>
    rw [flatMap_cons, map_append, nodup_append] at h
    rw [map_cons, nodup_cons]
    refine ⟨?_, ih (fun t ht => hcovers t (by simp [ht])) h.2.1⟩
    intro hmem
    obtain ⟨t, ht, heq⟩ := mem_map.mp hmem
    obtain ⟨e, he, heh⟩ := mem_map.mp (hcovers t (by simp [ht])).mem
    refine h.2.2 _ (hcovers s (by simp)).mem _ (mem_map_of_mem (mem_flatMap.mpr ⟨t, ht, he⟩)) ?_
    rw [heh, heq]

end Segments

end HashChain
