import Overture.Lib.Json.Compact

/-!
# The entries of a written map

A map is written from its assignments: one entry for each key, in ascending order of the keys,
with the value that was assigned last.
-/

namespace Json

open List

variable {σ : Type}

def Ascending (l : List (Text × σ)) : Prop := l.Pairwise fun a b => a.1 < b.1

variable {key : Text} {x : σ} {l : List (Text × σ)}

theorem mem_keys_insertEntry {k : Text} :
    k ∈ (insertEntry key x l).map Prod.fst ↔ k = key ∨ k ∈ l.map Prod.fst := by
  induction l with
  | nil => simp [insertEntry]
  | cons e l ih =>
    unfold insertEntry
    split_ifs with hlt heq
    · simp
    · subst heq
      simp
    · rw [map_cons, mem_cons, ih, map_cons, mem_cons]
      tauto

theorem mem_of_mem_insertEntry {e : Text × σ}
    (h : e ∈ insertEntry key x l) : e = (key, x) ∨ e ∈ l := by
  induction l with
  | nil => simpa [insertEntry] using h
  | cons a l ih =>
    unfold insertEntry at h
    split_ifs at h
    · exact mem_cons.mp h
    · exact .inr h
    rcases mem_cons.mp h with rfl | h
    · exact .inr (by simp)
    · exact (ih h).imp id (mem_cons_of_mem a)

theorem insertEntry_ascending (h : Ascending l) :
    Ascending (insertEntry key x l) := by
  induction l with
  | nil => exact pairwise_singleton _ _
  | cons e l ih =>
    obtain ⟨hhead, htail⟩ := pairwise_cons.mp h
    unfold insertEntry
    split_ifs with hlt heq
    · refine pairwise_cons.mpr ⟨?_, h⟩
      intro b hb
      rcases mem_cons.mp hb with rfl | hb
      · exact hlt
      · exact hlt.trans (hhead b hb)
    · exact h
    refine pairwise_cons.mpr ⟨?_, ih htail⟩
    intro b hb
    rcases mem_of_mem_insertEntry hb with rfl | hb
    · exact lt_of_le_of_ne (not_lt.mp hlt) (Ne.symm heq)
    · exact hhead b hb

theorem insertEntry_of_mem (hl : Ascending l)
    (h : key ∈ l.map Prod.fst) : insertEntry key x l = l := by
  induction l with
  | nil => simp at h
  | cons e l ih =>
    obtain ⟨hhead, htail⟩ := pairwise_cons.mp hl
    rw [map_cons, mem_cons] at h
    unfold insertEntry
    rcases h with rfl | h
    · rw [if_neg (lt_irrefl _), if_pos rfl]
    obtain ⟨b, hb, rfl⟩ := mem_map.mp h
    have hlt := hhead b hb
    rw [if_neg hlt.not_gt, if_neg hlt.ne', ih htail h]

theorem perm_insertEntry (h : key ∉ l.map Prod.fst) :
    (insertEntry key x l).Perm ((key, x) :: l) := by
  induction l with
  | nil => exact List.Perm.refl _
  | cons e l ih =>
    rw [map_cons, mem_cons, not_or] at h
    unfold insertEntry
    split_ifs with hlt heq
    · exact List.Perm.refl _
    · exact absurd heq h.1
    · exact ((ih h.2).cons e).trans (List.Perm.swap _ _ _)

theorem mapEntries_ascending (l : List (Text × σ)) : Ascending (mapEntries l) := by
  induction l with
  | nil => exact List.Pairwise.nil
  | cons e l ih => exact insertEntry_ascending ih

theorem mem_keys_mapEntries {k : Text} :
    k ∈ (mapEntries l).map Prod.fst ↔ k ∈ l.map Prod.fst := by
  induction l with
  | nil => rfl
  | cons e l ih =>
    change k ∈ (insertEntry e.1 e.2 (mapEntries l)).map Prod.fst ↔ _
    rw [mem_keys_insertEntry, ih, map_cons, mem_cons]

theorem mem_of_mem_mapEntries {e : Text × σ} (h : e ∈ mapEntries l) : e ∈ l := by
  induction l with
  | nil => exact h
  | cons a l ih =>
    rcases mem_of_mem_insertEntry h with rfl | h
    · simp
    · exact mem_cons_of_mem a (ih h)

theorem mapEntries_append_of_covered {base : List (Text × σ)}
    (h : ∀ key ∈ base.map Prod.fst, key ∈ l.map Prod.fst) : mapEntries (base ++ l) = mapEntries l := by
  induction base with
  | nil => rfl
  | cons e base ih =>
    have hrest := ih fun key hkey => h key (by simp [hkey])
    change insertEntry e.1 e.2 (mapEntries (base ++ l)) = _
    rw [hrest]
    exact insertEntry_of_mem (mapEntries_ascending l) (mem_keys_mapEntries.mpr (h e.1 (by simp)))

theorem perm_mapEntries (h : (l.map Prod.fst).Nodup) : (mapEntries l).Perm l := by
  induction l with
  | nil => exact List.Perm.refl _
  | cons e l ih =>
    obtain ⟨hnew, hrest⟩ := nodup_cons.mp h
    exact (perm_insertEntry (mt mem_keys_mapEntries.mp hnew)).trans ((ih hrest).cons e)

theorem Ascending.nodup_keys (h : Ascending l) : (l.map Prod.fst).Nodup :=
  pairwise_map.mpr (h.imp fun hlt => hlt.ne)

theorem mapEntries_of_perm {l' : List (Text × σ)} (hl : Ascending l) (h : l'.Perm l) : mapEntries l' = l := by
  have hnodup : (l'.map Prod.fst).Nodup := (h.map Prod.fst).nodup_iff.mpr hl.nodup_keys
  refine List.Perm.eq_of_pairwise ?_ (mapEntries_ascending l') hl ((perm_mapEntries hnodup).trans h)
  intro a b _ _ hab hba
  exact absurd hab hba.not_gt

theorem insertEntry_map {τ : Type} (f : Text → σ → τ) (key : Text) (x : σ) (l : List (Text × σ)) :
    (insertEntry key x l).map (fun e => (e.1, f e.1 e.2)) =
      insertEntry key (f key x) (l.map fun e => (e.1, f e.1 e.2)) := by
  induction l with
  | nil => rfl
  | cons e l ih =>
    rw [map_cons]
    unfold insertEntry
    dsimp only
    split_ifs
    · rfl
    · rfl
    · rw [map_cons, ih]

theorem mapEntries_map {τ : Type} (f : Text → σ → τ) (l : List (Text × σ)) :
    (mapEntries l).map (fun e => (e.1, f e.1 e.2)) = mapEntries (l.map fun e => (e.1, f e.1 e.2)) := by
  induction l with
  | nil => rfl
  | cons e l ih =>
    change (insertEntry e.1 e.2 (mapEntries l)).map (fun e => (e.1, f e.1 e.2)) = _
    rw [insertEntry_map, ih]
    rfl

theorem mapEntries_idem (l : List (Text × σ)) : mapEntries (mapEntries l) = mapEntries l :=
  mapEntries_of_perm (mapEntries_ascending l) (List.Perm.refl _)

end Json
