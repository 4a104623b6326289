import Overture.Lib.Json.Float
import Overture.Lib.Json.Entries

/-!
# Decoded documents

A value that was decoded from a document can be written, and what is written is read back
as the value. Maps are compared by the entries they hold.
-/

namespace Json

open List AnyMap Value Members Any

/-! ## Entries of maps -/

@[elab_as_elim, induction_eliminator]
theorem AnyMap.entries_induction {motive : AnyMap → Prop} (nil : motive .nil)
    (cons : ∀ key v rest, motive rest → motive (.cons key v rest)) : ∀ fields, motive fields
  | .nil => nil
  | .cons key v rest => cons key v rest (entries_induction nil cons rest)

namespace AnyMap

variable {key k : Text} {fields : AnyMap} {v : Any} {l : List (Text × Any)}

theorem get?_of_above (h : fields.Above key) (hk : k ≤ key) :
    fields.get? k = none := by
  induction fields with
  | nil => rfl
  | cons k' v rest ih =>
    obtain ⟨hlt, habove⟩ := h
    rw [get?, if_neg (by rintro rfl; exact absurd hk (not_le.mpr hlt)), ih habove]

theorem Above.mono (h : fields.Above key) (hk : k ≤ key) : fields.Above k := by
  induction fields with
  | nil => trivial
  | cons k' v rest ih => exact ⟨lt_of_le_of_lt hk h.1, ih h.2⟩

theorem above_insertNew (h : fields.Above k) (hk : k < key) :
    (fields.insertNew key v).Above k := by
  induction fields with
  | nil => exact ⟨hk, trivial⟩
  | cons k' w rest ih =>
    unfold insertNew
    split_ifs with hlt heq
    · exact ⟨hk, h⟩
    · exact h
    · exact ⟨h.1, ih h.2⟩

theorem canonical_insertNew (key : Text) (hv : v.Canonical) (h : fields.Canonical) :
    (fields.insertNew key v).Canonical := by
  induction fields with
  | nil => exact ⟨trivial, hv, trivial⟩
  | cons k' w rest ih =>
    obtain ⟨habove, hw, hrest⟩ := h
    unfold insertNew
    split_ifs with hlt heq
    · exact ⟨⟨hlt, habove.mono hlt.le⟩, hv, habove, hw, hrest⟩
    · exact ⟨habove, hw, hrest⟩
    · exact ⟨above_insertNew habove (lt_of_le_of_ne (not_lt.mp hlt) (Ne.symm heq)), hw, ih hrest⟩

theorem get?_insertNew (h : fields.Canonical) (k : Text) :
    (fields.insertNew key v).get? k = (fields.get? k).or (if key = k then some v else none) := by
  induction fields with
  | nil => simp [insertNew, get?]
  | cons k' w rest ih =>
    obtain ⟨habove, -, hrest⟩ := h
    rcases lt_trichotomy key k' with hlt | rfl | hgt
    · rw [insertNew, if_pos hlt, get?]
      split_ifs with hkey
      · subst hkey
        have hnew : (cons k' w rest).Above key := ⟨hlt, habove.mono hlt.le⟩
        rw [get?_of_above hnew le_rfl]
        rfl
      · rw [Option.or_none]
    · rw [insertNew, if_neg (lt_irrefl _), if_pos rfl, get?]
      split_ifs <;> simp
    · rw [insertNew, if_neg hgt.not_gt, if_neg hgt.ne', get?, get?, ih hrest]
      split_ifs <;> simp

theorem lt_of_mem_above (h : fields.Above key)
    (hmem : (k, v) ∈ fields.toList) : key < k := by
  induction fields with
  | nil => simp [toList] at hmem
  | cons k' w rest ih =>
    rcases mem_cons.mp hmem with heq | hmem
    · cases heq
      exact h.1
    · exact ih h.2 hmem

theorem get?_eq_some_iff (h : fields.Canonical) :
    fields.get? key = some v ↔ (key, v) ∈ fields.toList := by
  induction fields with
  | nil => simp [get?, toList]
  | cons k w rest ih =>
    rw [get?, toList, mem_cons, Prod.mk.injEq]
    split_ifs with hk
    · subst hk
      have hrest : (k, v) ∉ rest.toList := fun hmem => lt_irrefl k (lt_of_mem_above h.1 hmem)
      simp [hrest, eq_comm]
    · simp [Ne.symm hk, ih h.2.2]

def ofEntries (l : List (Text × Any)) : AnyMap := l.foldr (fun e m => m.insertNew e.1 e.2) .nil

def ofList : List (Text × Any) → AnyMap
  | [] => .nil
  | e :: l => .cons e.1 e.2 (ofList l)

theorem above_ofList (h : ∀ k ∈ l.map Prod.fst, key < k) :
    (ofList l).Above key := by
  induction l with
  | nil => trivial
  | cons e l ih => exact ⟨h e.1 (by simp), ih fun k hk => h k (by simp [hk])⟩

theorem canonical_ofList (hkeys : (l.map Prod.fst).Pairwise (· < ·))
    (hvalues : ∀ a ∈ l.map Prod.snd, a.Canonical) : (ofList l).Canonical := by
  induction l with
  | nil => trivial
  | cons e l ih =>
    obtain ⟨hhead, htail⟩ := pairwise_cons.mp hkeys
    exact ⟨above_ofList hhead, hvalues e.2 (by simp), ih htail fun a ha => hvalues a (by simp [ha])⟩

theorem insertNew_of_get? {w : Any} (hf : fields.Canonical)
    (h : fields.get? key = some w) : fields.insertNew key v = fields := by
  induction fields with
  | nil => simp [get?] at h
  | cons k x rest ih =>
    rw [get?] at h
    split_ifs at h with hk
    · subst hk
      rw [insertNew, if_neg (lt_irrefl _), if_pos rfl]
    · have hlt : k < key := lt_of_mem_above hf.1 ((get?_eq_some_iff hf.2.2).mp h)
      rw [insertNew, if_neg hlt.not_gt, if_neg (Ne.symm hk), ih hf.2.2 h]

theorem ofList_toList (m : AnyMap) : ofList m.toList = m := by
  induction m with
  | nil => rfl
  | cons key v rest ih => rw [toList, ofList, ih]

theorem insertNew_ofList (key : Text) (v : Any) (l : List (Text × Any)) :
    (ofList l).insertNew key v = ofList (insertEntry key v l) := by
  induction l with
  | nil => rfl
  | cons e l ih =>
    rw [ofList, insertNew, insertEntry]
    split_ifs with hlt heq
    · rfl
    · rfl
    · rw [ofList, ih]

theorem ofEntries_eq (l : List (Text × Any)) : ofEntries l = ofList (mapEntries l) := by
  induction l with
  | nil => rfl
  | cons e l ih =>
    change (ofEntries l).insertNew e.1 e.2 = ofList (insertEntry e.1 e.2 (mapEntries l))
    rw [ih, insertNew_ofList]

theorem ascending_toList {m : AnyMap} (h : m.Canonical) : Ascending m.toList := by
  induction m with
  | nil => exact List.Pairwise.nil
  | cons key v rest ih =>
    exact pairwise_cons.mpr ⟨fun e he => lt_of_mem_above h.1 he, ih h.2.2⟩

theorem ofEntries_perm {m : AnyMap} (hm : m.Canonical) (h : l.Perm m.toList) :
    ofEntries l = m := by
  rw [ofEntries_eq, mapEntries_of_perm (ascending_toList hm) h, ofList_toList]

end AnyMap

/-! ## Decoding gives a value that can be written -/

mutual

def Any.Readable : Any → Prop
  | .num x => x.Normal
  | .arr items => items.Readable
  | .obj fields => fields.Readable
  | _ => True

def Anys.Readable : Anys → Prop
  | .nil => True
  | .cons v rest => v.Readable ∧ rest.Readable

def AnyMap.Readable : AnyMap → Prop
  | .nil => True
  | .cons _ v rest => v.Readable ∧ rest.Readable

end

variable {key : Text} {v : Any} {fields : AnyMap}

theorem AnyMap.readable_insertNew (hv : v.Readable) (h : fields.Readable) :
    (fields.insertNew key v).Readable := by
  induction fields with
  | nil => exact ⟨hv, trivial⟩
  | cons k w rest ih =>
    unfold insertNew
    split_ifs
    · exact ⟨hv, h⟩
    · exact h
    · exact ⟨h.1, ih h.2⟩

theorem AnyMap.depth_insertNew (key : Text) (v : Any) (fields : AnyMap) :
    (fields.insertNew key v).depth ≤ max v.depth fields.depth := by
  induction fields with
  | nil => simp [insertNew, depth]
  | cons k w rest ih =>
    unfold insertNew
    split_ifs
    · rfl
    · exact le_max_right _ _
    simp only [depth]
    omega

theorem AnyMap.depth_insertNew_of_none (h : fields.get? key = none) :
    (fields.insertNew key v).depth = max v.depth fields.depth := by
  induction fields with
  | nil => rfl
  | cons k w rest ih =>
    rw [get?] at h
    split_ifs at h with hk
    unfold insertNew
    split_ifs with hlt heq
    · rfl
    · exact absurd heq.symm hk
    · rw [depth, depth, ih h, max_left_comm]

theorem AnyMap.depth_le_of_get? (h : fields.get? key = some v) :
    v.depth ≤ fields.depth := by
  induction fields with
  | nil => simp [get?] at h
  | cons k w rest ih =>
    rw [get?] at h
    split_ifs at h with hk
    · cases h
      exact le_max_left _ _
    · exact (ih h).trans (le_max_right _ _)

mutual

theorem Value.toAny_spec (v : Value) {a : Any} (h : v.toAny = some a) :
    a.Canonical ∧ a.Readable ∧ a.depth ≤ v.depth := by
  cases v with
  | null | bool b | str raw | emptyArr gap | emptyObj gap =>
    rw [toAny] at h
    cases h
    exact ⟨trivial, trivial, le_rfl⟩
  | num lit =>
    obtain ⟨x, hx, rfl⟩ := Option.map_eq_some_iff.mp h
    exact ⟨trivial, Float64.parse_normal hx, le_rfl⟩
  | arr items =>
    obtain ⟨as, has, rfl⟩ := Option.map_eq_some_iff.mp h
    obtain ⟨hc, hr, hd⟩ := items.toAnys_spec has
    exact ⟨hc, hr, Nat.succ_le_succ hd⟩
  | obj members =>
    obtain ⟨m, hm, rfl⟩ := Option.map_eq_some_iff.mp h
    obtain ⟨hc, hr, hd⟩ := members.toMap_spec hm
    exact ⟨hc, hr, Nat.succ_le_succ hd⟩

theorem Items.toAnys_spec (items : Items) {as : Anys} (h : items.toAnys = some as) :
    as.Canonical ∧ as.Readable ∧ as.depth ≤ items.depth := by
  cases items with
  | last pre v post =>
    obtain ⟨a, ha, rfl⟩ := Option.map_eq_some_iff.mp h
    obtain ⟨hc, hr, hd⟩ := v.toAny_spec ha
    exact ⟨⟨hc, trivial⟩, ⟨hr, trivial⟩, by simpa [Anys.depth, Items.depth] using hd⟩
  | more pre v post rest =>
    rw [Items.toAnys] at h
    split at h
    · next a as' ha has =>
      cases h
      obtain ⟨hc, hr, hd⟩ := v.toAny_spec ha
      obtain ⟨hcs, hrs, hds⟩ := rest.toAnys_spec has
      exact ⟨⟨hc, hcs⟩, ⟨hr, hrs⟩, max_le_max hd hds⟩
    · simp at h

theorem Members.toMap_spec (members : Members) {m : AnyMap} (h : members.toMap = some m) :
    m.Canonical ∧ m.Readable ∧ m.depth ≤ members.depth := by
  cases members with
  | last pre key mid gap v post =>
    obtain ⟨a, ha, rfl⟩ := Option.map_eq_some_iff.mp h
    obtain ⟨hc, hr, hd⟩ := v.toAny_spec ha
    exact ⟨⟨trivial, hc, trivial⟩, ⟨hr, trivial⟩, by simpa [AnyMap.depth, Members.depth] using hd⟩
  | more pre key mid gap v post rest =>
    rw [Members.toMap] at h
    split at h
    · next a m' ha hm =>
      cases h
      obtain ⟨hc, hr, hd⟩ := v.toAny_spec ha
      obtain ⟨hcs, hrs, hds⟩ := rest.toMap_spec hm
      refine ⟨AnyMap.canonical_insertNew _ hc hcs, AnyMap.readable_insertNew hr hrs, ?_⟩
      exact (AnyMap.depth_insertNew _ _ _).trans (max_le_max hd hds)
    · simp at h

end

mutual

theorem Any.toValue_isSome (a : Any) (h : a.Readable) : ∃ v, a.toValue = some v := by
  cases a with
  | num x =>
    obtain ⟨lit, hlit⟩ := Option.isSome_iff_exists.mp (Float64.format_isSome h)
    exact ⟨.num lit, by simp [toValue, hlit]⟩
  | arr items =>
    obtain ⟨vs, hvs⟩ := items.toValues_isSome h
    exact ⟨array vs, by simp [toValue, hvs]⟩
  | obj fields =>
    obtain ⟨ms, hms⟩ := fields.toMembers_isSome h
    exact ⟨object ms, by simp [toValue, hms]⟩
  | _ => exact ⟨_, rfl⟩

theorem Anys.toValues_isSome (items : Anys) (h : items.Readable) : ∃ vs, items.toValues = some vs := by
  cases items with
  | nil => exact ⟨[], rfl⟩
  | cons a rest =>
    obtain ⟨v, hv⟩ := a.toValue_isSome h.1
    obtain ⟨vs, hvs⟩ := rest.toValues_isSome h.2
    exact ⟨v :: vs, by simp [Anys.toValues, hv, hvs]⟩

theorem AnyMap.toMembers_isSome (fields : AnyMap) (h : fields.Readable) : ∃ ms, fields.toMembers = some ms := by
  cases fields with
  | nil => exact ⟨[], rfl⟩
  | cons key a rest =>
    obtain ⟨v, hv⟩ := a.toValue_isSome h.1
    obtain ⟨ms, hms⟩ := rest.toMembers_isSome h.2
    exact ⟨(key, v) :: ms, by simp [toMembers, hv, hms]⟩

end

variable {a : Any} {w : Value} {ws : List Value} {as : Anys} {es : List (Text × Value)} {m : AnyMap}

theorem unmarshal_marshal (hc : a.Canonical) (hr : a.Readable) (hd : a.depth ≤ maxNestingDepth) :
    ∃ v, a.toValue = some v ∧ (parse v.print).bind toAny = some a := by
  obtain ⟨v, hv⟩ := a.toValue_isSome hr
  obtain ⟨hany, hwf, hvd⟩ := a.toValue_spec hc hv
  exact ⟨v, hv, by rw [parse_print hwf (hvd.trans hd)]; exact hany⟩

/-! ## Documents that were written

A document stands for a value when it is read as the value and no part of it is lost in reading. -/

structure Value.StandsFor (w : Value) (a : Any) : Prop where
  toAny_eq : w.toAny = some a
  wf : w.WF
  depth_eq : w.depth = a.depth

def standForItems : List Value → Anys → Prop
  | [], .nil => True
  | w :: ws, .cons a as => w.StandsFor a ∧ standForItems ws as
  | _, _ => False

def standForEntries : List (Text × Value) → AnyMap → Prop
  | [], .nil => True
  | e :: es, .cons key a m => e.1 = key ∧ e.2.StandsFor a ∧ standForEntries es m
  | _, _ => False

theorem Value.StandsFor.canonical (h : w.StandsFor a) : a.Canonical :=
  (w.toAny_spec h.toAny_eq).1

theorem standForItems.toAnys (h : standForItems ws as) :
    valuesToAnys ws = some as ∧ ∀ w ∈ ws, w.WF := by
  induction ws generalizing as with
  | nil =>
    cases as with
    | nil => exact ⟨rfl, by simp⟩
    | cons a as => exact h.elim
  | cons w ws ih =>
    cases as with
    | nil => exact h.elim
    | cons a as =>
      obtain ⟨hany, hwf⟩ := ih h.2
      refine ⟨by simp [valuesToAnys, h.1.toAny_eq, hany], ?_⟩
      intro x hx
      rcases mem_cons.mp hx with rfl | hx
      · exact h.1.wf
      · exact hwf x hx

theorem standForItems.depth (h : standForItems (w :: ws) as) :
    (itemsOf w ws).depth = as.depth := by
  induction ws generalizing w as with
  | nil =>
    cases as with
    | nil => exact h.elim
    | cons a as =>
      cases as with
      | nil => simp [itemsOf, Items.depth, Anys.depth, h.1.depth_eq]
      | cons b as => exact h.2.elim
  | cons x ws ih =>
    cases as with
    | nil => exact h.elim
    | cons a as => rw [itemsOf, Items.depth, Anys.depth, h.1.depth_eq, ih h.2]

theorem standsFor_array (h : standForItems ws as) :
    (Value.array ws).StandsFor (.arr as) where
  toAny_eq := by rw [Value.array_toAny, h.toAnys.1]; rfl
  wf := Value.array_wf h.toAnys.2
  depth_eq := by
    cases ws with
    | nil =>
      cases as with
      | nil => rfl
      | cons a as => exact h.elim
    | cons w ws => rw [Value.array, Value.depth, Any.depth, h.depth]

theorem standForEntries.toMap (h : standForEntries es m)
    (hm : m.Canonical) : membersToMap es = some m ∧ ∀ e ∈ es, e.2.WF := by
  induction es generalizing m with
  | nil =>
    cases m with
    | nil => exact ⟨rfl, by simp⟩
    | cons key a m => exact h.elim
  | cons e es ih =>
    cases m with
    | nil => exact h.elim
    | cons key a m =>
      obtain ⟨rfl, hstand, hrest⟩ := h
      obtain ⟨hmap, hwf⟩ := ih hrest hm.2.2
      refine ⟨by simp [membersToMap, hstand.toAny_eq, hmap, insertNew_of_above hm.1], ?_⟩
      intro x hx
      rcases mem_cons.mp hx with rfl | hx
      · exact hstand.wf
      · exact hwf x hx

theorem standForEntries.depth {e : Text × Value}
    (h : standForEntries (e :: es) m) : (membersOf e es).depth = m.depth := by
  induction es generalizing e m with
  | nil =>
    cases m with
    | nil => exact h.elim
    | cons key a m =>
      cases m with
      | nil => simp [membersOf, Members.depth, AnyMap.depth, h.2.1.depth_eq]
      | cons key b m => exact h.2.2.elim
  | cons x es ih =>
    cases m with
    | nil => exact h.elim
    | cons key a m => rw [membersOf, Members.depth, AnyMap.depth, h.2.1.depth_eq, ih h.2.2]

theorem standForEntries.forall₂ (h : standForEntries es m) :
    List.Forall₂ (fun e a => e.1 = a.1 ∧ e.2.StandsFor a.2) es m.toList := by
  induction es generalizing m with
  | nil =>
    cases m with
    | nil => exact .nil
    | cons key a m => exact h.elim
  | cons e es ih =>
    cases m with
    | nil => exact h.elim
    | cons key a m => exact .cons ⟨h.1, h.2.1⟩ (ih h.2.2)

theorem standForEntries.keys (h : standForEntries es m) :
    es.map Prod.fst = m.toList.map Prod.fst :=
  forall₂_eq_eq_eq ▸ forall₂_map_left_iff.mpr (forall₂_map_right_iff.mpr (h.forall₂.imp fun _ _ hea => hea.1))

theorem standsFor_object (h : standForEntries es m) (hm : m.Canonical) :
    (Value.object es).StandsFor (.obj m) where
  toAny_eq := by rw [Value.object_toAny, (h.toMap hm).1]; rfl
  wf := Value.object_wf (h.toMap hm).2
  depth_eq := by
    cases es with
    | nil =>
      cases m with
      | nil => rfl
      | cons key a m => exact h.elim
    | cons e es => rw [Value.object, Value.depth, Any.depth, h.depth]

theorem standForEntries.insert (h : standForEntries es m) (key : Text)
    (hw : w.StandsFor a) : standForEntries (insertEntry key w es) (m.insertNew key a) := by
  induction es generalizing m with
  | nil =>
    cases m with
    | nil => exact ⟨rfl, hw, trivial⟩
    | cons k b m => exact h.elim
  | cons e es ih =>
    cases m with
    | nil => exact h.elim
    | cons k b m =>
      obtain ⟨rfl, hb, hrest⟩ := h
      unfold insertEntry insertNew
      split_ifs
      · exact ⟨rfl, hw, rfl, hb, hrest⟩
      · exact ⟨rfl, hb, hrest⟩
      · exact ⟨rfl, hb, ih hrest⟩

theorem standForEntries_mapEntries {as : List (Text × Any)}
    (h : List.Forall₂ (fun e a => e.1 = a.1 ∧ e.2.StandsFor a.2) es as) :
    standForEntries (mapEntries es) (ofEntries as) := by
  induction h with
  | nil => trivial
  | @cons e a es as hea _ ih =>
    change standForEntries (insertEntry e.1 e.2 (mapEntries es)) ((ofEntries as).insertNew a.1 a.2)
    rw [hea.1]
    exact ih.insert a.1 hea.2

mutual

theorem Any.standsFor (a : Any) (ha : a.Canonical) {w : Value} (h : a.toValue = some w) : w.StandsFor a := by
  cases a with
  | arr items =>
    obtain ⟨vs, hvs, rfl⟩ := Option.map_eq_some_iff.mp h
    exact standsFor_array (items.standFor ha hvs)
  | obj fields =>
    obtain ⟨ms, hms, rfl⟩ := Option.map_eq_some_iff.mp h
    exact standsFor_object (fields.standFor ha hms) ha
  | null | bool b | num x | str s =>
    obtain ⟨hany, hwf, hd⟩ := toValue_spec _ ha h
    exact ⟨hany, hwf, Nat.le_zero.mp hd⟩

theorem Anys.standFor (items : Anys) (hi : items.Canonical) {vs : List Value} (h : items.toValues = some vs) :
    standForItems vs items := by
  cases items with
  | nil =>
    cases h
    trivial
  | cons a rest =>
    rw [Anys.toValues] at h
    split at h
    · next w ws hw hws =>
      cases h
      exact ⟨a.standsFor hi.1 hw, rest.standFor hi.2 hws⟩
    · simp at h

theorem AnyMap.standFor (fields : AnyMap) (hf : fields.Canonical) {ms : List (Text × Value)}
    (h : fields.toMembers = some ms) : standForEntries ms fields := by
  cases fields with
  | nil =>
    cases h
    trivial
  | cons key a rest =>
    rw [toMembers] at h
    split at h
    · next w ws hw hws =>
      cases h
      exact ⟨rfl, a.standsFor hf.2.1 hw, rest.standFor hf.2.2 hws⟩
    · simp at h

end

theorem Value.StandsFor.unmarshal {w : Value} {a : Any} (h : w.StandsFor a) :
    (parse w.print).bind toAny = if a.depth ≤ maxNestingDepth then some a else none := by
  rw [parse_print_eq h.wf, h.depth_eq]
  split
  · exact h.toAny_eq
  · rfl

end Json
