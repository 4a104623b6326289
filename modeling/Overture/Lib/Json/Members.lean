import Overture.Lib.Json.Doc

/-!
# The members of a document

A member of an object is what was assigned to its key last. Two objects that are written alike
have members that are written alike.
-/

namespace Json

open Option List

variable {σ τ ν : Type}

def assigned (key : Text) : List (Text × σ) → Option σ
  | [] => none
  | e :: rest => (assigned key rest).or (if e.1 = key then some e.2 else none)

variable {key : Text} {l : List (Text × σ)}

theorem assigned_eq_none_iff : assigned key l = none ↔ key ∉ l.map Prod.fst := by
  induction l with
  | nil => exact iff_of_true rfl (by simp)
  | cons e l ih =>
    rw [assigned, or_eq_none_iff, ih, map_cons, mem_cons, not_or, and_comm]
    refine and_congr_left fun _ => ?_
    simp [eq_comm]

theorem assigned_append (key : Text) (l m : List (Text × σ)) :
    assigned key (l ++ m) = (assigned key m).or (assigned key l) := by
  induction l with
  | nil => exact (Option.or_none).symm
  | cons e l ih => rw [List.cons_append, assigned, assigned, ih, Option.or_assoc]

theorem assigned_map (f : σ → τ) (key : Text) (l : List (Text × σ)) :
    assigned key (l.map fun e => (e.1, f e.2)) = (assigned key l).map f := by
  induction l with
  | nil => rfl
  | cons e l ih =>
    rw [map_cons, assigned, assigned, ih]
    cases assigned key l with
    | some x => rfl
    | none => split <;> rfl

theorem mem_mapEntries_iff {x : σ} :
    (key, x) ∈ mapEntries l ↔ assigned key l = some x := by
  induction l with
  | nil => simp [mapEntries, assigned]
  | cons e l ih =>
    obtain ⟨k, y⟩ := e
    change (key, x) ∈ insertEntry k y (mapEntries l) ↔ _
    rw [assigned]
    by_cases hmem : k ∈ l.map Prod.fst
    · rw [insertEntry_of_mem (mapEntries_ascending l) (mem_keys_mapEntries.mpr hmem), ih]
      by_cases hkey : k = key
      · subst hkey
        cases hl : assigned k l with
        | none => exact absurd hmem (assigned_eq_none_iff.mp hl)
        | some z => rfl
      · rw [if_neg hkey, or_none]
    rw [(perm_insertEntry (mt mem_keys_mapEntries.mp hmem)).mem_iff, mem_cons, ih]
    by_cases hkey : k = key
    · subst hkey
      rw [assigned_eq_none_iff.mpr hmem, if_pos rfl]
      simp [eq_comm]
    · rw [if_neg hkey, or_none]
      simp [Ne.symm hkey]

theorem assigned_congr {l' : List (Text × σ)} (h : mapEntries l = mapEntries l') (key : Text) :
    assigned key l = assigned key l' := by
  apply ext
  intro x
  rw [← mem_mapEntries_iff, ← mem_mapEntries_iff, h]

theorem mem_of_assigned {x : σ} (h : assigned key l = some x) : (key, x) ∈ l := by
  induction l with
  | nil => cases h
  | cons e l ih =>
    rw [assigned, or_eq_some_iff] at h
    rcases h with h | ⟨-, h⟩
    · exact mem_cons_of_mem e (ih h)
    split at h
    · next hkey =>
      cases h
      rw [← hkey]
      exact mem_cons_self
    · cases h

theorem mapEntries_ext {l' : List (Text × σ)} (h : ∀ key, assigned key l = assigned key l') :
    mapEntries l = mapEntries l' := by
  have hperm : (mapEntries l).Perm (mapEntries l') := by
    apply (perm_ext_iff_of_nodup (List.Nodup.of_map _ (mapEntries_ascending l).nodup_keys)
      (List.Nodup.of_map _ (mapEntries_ascending l').nodup_keys)).mpr
    rintro ⟨key, x⟩
    rw [mem_mapEntries_iff, mem_mapEntries_iff, h]
  rw [← mapEntries_of_perm (mapEntries_ascending l) (.refl _), mapEntries_of_perm (mapEntries_ascending l') hperm]

namespace DocMap

def get? (key : Text) (fields : DocMap ν) : Option (Doc ν) := assigned key fields.toList

def text? (key : Text) (fields : DocMap ν) : Option Text :=
  match fields.get? key with
  | some (.str s) => some s
  | _ => none

def without (keys : List Text) : DocMap ν → DocMap ν
  | .nil => .nil
  | .cons key d rest => if key ∈ keys then rest.without keys else .cons key d (rest.without keys)

variable {keys : List Text} {key : Text}

theorem get?_without (hkey : key ∉ keys) (fields : DocMap ν) :
    (fields.without keys).get? key = fields.get? key := by
  cases fields with
  | nil => rfl
  | cons k d rest =>
    have ih := get?_without hkey rest
    rw [get?, get?] at ih
    rw [get?, get?, without, toList, assigned]
    split
    · next hk =>
      rw [ih, if_neg (by rintro rfl; exact hkey hk), or_none]
    · rw [toList, assigned, ih]

theorem get?_without_of_mem (hkey : key ∈ keys) (fields : DocMap ν) :
    (fields.without keys).get? key = none := by
  cases fields with
  | nil => rfl
  | cons k d rest =>
    have ih := get?_without_of_mem hkey rest
    rw [without]
    split
    · exact ih
    next hk =>
    rw [get?] at ih
    rw [get?, toList, assigned, ih, none_or, if_neg]
    rintro rfl
    exact hk hkey

def set (key : Text) (d : Doc ν) : DocMap ν → DocMap ν
  | .nil => .cons key d .nil
  | .cons k x rest => .cons k x (rest.set key d)

theorem toList_set (key : Text) (d : Doc ν) (fields : DocMap ν) :
    (fields.set key d).toList = fields.toList ++ [(key, d)] := by
  cases fields with
  | nil => rfl
  | cons k x rest => rw [set, toList, toList, toList_set key d rest, cons_append]

theorem get?_set (key : Text) (d : Doc ν) (fields : DocMap ν) (k : Text) :
    (fields.set key d).get? k = if key = k then some d else fields.get? k := by
  rw [get?, toList_set, assigned_append, get?]
  simp only [assigned, none_or]
  split <;> rfl

theorem without_set (hkey : key ∈ keys) (d : Doc ν) (fields : DocMap ν) :
    (fields.set key d).without keys = fields.without keys := by
  cases fields with
  | nil => simp [set, without, hkey]
  | cons k x rest => rw [set, without, without, without_set hkey d rest]

theorem without_eq_self {fields : DocMap ν} (h : ∀ key ∈ keys, fields.get? key = none) :
    fields.without keys = fields := by
  cases fields with
  | nil => rfl
  | cons k x rest =>
    have hcons : ∀ key ∈ keys, rest.get? key = none ∧ k ≠ key := by
      intro key hkey
      have hnone := h key hkey
      rw [get?, toList, assigned, or_eq_none_iff] at hnone
      exact ⟨hnone.1, by simpa using hnone.2⟩
    have hk : k ∉ keys := fun hk => (hcons k hk).2 rfl
    rw [without, if_neg hk, without_eq_self fun key hkey => (hcons key hkey).1]

end DocMap

section Written

variable {number : ν → Text} {spell : Char → Text} {q : ν → Bool}

theorem flatMap_spell_inj (hspell : Spells spell) {s t : Text} (h : s.flatMap spell = t.flatMap spell) : s = t := by
  rw [← unquote_spelled hspell s, h, unquote_spelled hspell t]

theorem DocMap.get?_written (hspell : Spells spell) {m m' : DocMap ν}
    (h : (Doc.obj m).write number spell = (Doc.obj m').write number spell) (key : Text) :
    (m.get? key).map (Doc.write number spell) = (m'.get? key).map (Doc.write number spell) := by
  rw [Doc.write, Doc.write, Value.rawObject_inj] at h
  have hinj : Function.Injective (spelled spell) := by
    rintro ⟨k, v⟩ ⟨k', v'⟩ heq
    obtain ⟨hk, hv⟩ := Prod.mk.inj heq
    exact Prod.ext (flatMap_spell_inj hspell hk) hv
  have hentries := assigned_congr (map_injective_iff.mpr hinj h) key
  rw [write_eq, write_eq] at hentries
  exact (assigned_map _ key m.toList).symm.trans (hentries.trans (assigned_map _ key m'.toList))

mutual

theorem Doc.wf_of_all (hspell : Spells spell) (hnumber : ∀ n, q n = true → IsNumber (number n)) :
    (d : Doc ν) → d.all q (fun _ => true) = true → (d.write number spell).WF
  | .null, _ => trivial
  | .bool _, _ => trivial
  | .num n, h => hnumber n h
  | .str s, _ => isRaw_spelled hspell s
  | .arr items, h => Value.array_wf (items.wf_of_all hspell hnumber h)
  | .obj fields, h => by
    rw [Doc.write, DocMap.write_eq, ← mapEntries_map fun _ d => Doc.write number spell d]
    refine Value.rawObject_wf fun m hm => ?_
    simp only [List.map_map, List.mem_map] at hm
    obtain ⟨e, he, rfl⟩ := hm
    refine ⟨isRaw_spelled hspell e.1, fields.wf_of_all hspell hnumber e (mem_of_mem_mapEntries he) ?_⟩
    rw [Doc.all, DocMap.all_eq, ← mapEntries_map fun _ d => true && Doc.all q (fun _ => true) d,
      List.all_map, List.all_eq_true] at h
    simpa using h e he

theorem Docs.wf_of_all (hspell : Spells spell) (hnumber : ∀ n, q n = true → IsNumber (number n)) :
    (items : Docs ν) → items.all q (fun _ => true) = true → ∀ v ∈ items.write number spell, v.WF
  | .nil, _ => by simp [Docs.write]
  | .cons d rest, h => by
    obtain ⟨hd, hrest⟩ := Bool.and_eq_true_iff.mp h
    intro v hv
    rcases mem_cons.mp hv with rfl | hv
    · exact d.wf_of_all hspell hnumber hd
    · exact rest.wf_of_all hspell hnumber hrest v hv

theorem DocMap.wf_of_all (hspell : Spells spell) (hnumber : ∀ n, q n = true → IsNumber (number n)) :
    (fields : DocMap ν) → ∀ e ∈ fields.toList, e.2.all q (fun _ => true) = true → (e.2.write number spell).WF
  | .nil => by simp [DocMap.toList]
  | .cons key d rest => by
    intro e he hall
    rcases List.mem_cons.mp he with rfl | he
    · exact d.wf_of_all hspell hnumber hall
    · exact rest.wf_of_all hspell hnumber e he hall

end

end Written

end Json
