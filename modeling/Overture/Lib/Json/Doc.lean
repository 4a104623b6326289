import Overture.Lib.Json.Entries

/-!
# Documents without spelling

A document with numbers of any type, its objects given by their assignments. Writing takes how a
number and how a rune of a string is spelled; reading keeps the literals of the numbers. What is
read back from a written document is written as the document would be, in whatever spelling.
-/

namespace Json

open Value List

def rawMembersOf (m : Text × Value) : List (Text × Value) → Members
  | [] => .last [] m.1 [] [] m.2 []
  | n :: rest => .more [] m.1 [] [] m.2 [] (rawMembersOf n rest)

def Value.rawObject : List (Text × Value) → Value
  | [] => .emptyObj []
  | m :: rest => .obj (rawMembersOf m rest)

theorem rawMembersOf_wf {m : Text × Value} {rest : List (Text × Value)} (hm : IsRaw m.1 ∧ m.2.WF)
    (hrest : ∀ n ∈ rest, IsRaw n.1 ∧ n.2.WF) : (rawMembersOf m rest).WF := by
  induction rest generalizing m with
  | nil => exact ⟨isGap_nil, hm.1, isGap_nil, isGap_nil, hm.2, isGap_nil⟩
  | cons n rest ih =>
    exact ⟨isGap_nil, hm.1, isGap_nil, isGap_nil, hm.2, isGap_nil,
      ih (hrest n (by simp)) fun x hx => hrest x (by simp [hx])⟩

theorem Value.rawObject_wf {ms : List (Text × Value)} (h : ∀ m ∈ ms, IsRaw m.1 ∧ m.2.WF) :
    (rawObject ms).WF := by
  cases ms with
  | nil => exact isGap_nil
  | cons m rest => exact rawMembersOf_wf (h m (by simp)) fun n hn => h n (by simp [hn])

theorem rawMembersOf_toList (m : Text × Value) (rest : List (Text × Value)) :
    (rawMembersOf m rest).toList = m :: rest := by
  induction rest generalizing m with
  | nil => rfl
  | cons n rest ih => rw [rawMembersOf, Members.toList, ih]

theorem Value.rawObject_inj {ms ns : List (Text × Value)} : rawObject ms = rawObject ns ↔ ms = ns := by
  constructor
  · intro h
    cases ms with
    | nil =>
      cases ns with
      | nil => rfl
      | cons _ _ => cases h
    | cons m ms =>
      cases ns with
      | nil => cases h
      | cons n ns =>
        rw [← rawMembersOf_toList m ms, obj.inj h, rawMembersOf_toList]
  · rintro rfl
    rfl

mutual

inductive Doc (ν : Type) where
  | null
  | bool (b : Bool)
  | num (n : ν)
  | str (s : Text)
  | arr (items : Docs ν)
  | obj (fields : DocMap ν)

inductive Docs (ν : Type) where
  | nil
  | cons (d : Doc ν) (rest : Docs ν)

inductive DocMap (ν : Type) where
  | nil
  | cons (key : Text) (d : Doc ν) (rest : DocMap ν)

end

deriving instance DecidableEq for Doc, Docs, DocMap

variable {ν : Type}

def Docs.toList : Docs ν → List (Doc ν)
  | .nil => []
  | .cons d rest => d :: rest.toList

def DocMap.toList : DocMap ν → List (Text × Doc ν)
  | .nil => []
  | .cons key d rest => (key, d) :: rest.toList

section Write

variable (number : ν → Text) (spell : Char → Text)

def spelled (e : Text × Value) : Text × Value := (e.1.flatMap spell, e.2)

mutual

def Doc.write : Doc ν → Value
  | .null => .null
  | .bool b => .bool b
  | .num n => .num (number n)
  | .str s => .str (s.flatMap spell)
  | .arr items => .array items.write
  | .obj fields => .rawObject ((mapEntries fields.write).map (spelled spell))

def Docs.write : Docs ν → List Value
  | .nil => []
  | .cons d rest => d.write :: rest.write

def DocMap.write : DocMap ν → List (Text × Value)
  | .nil => []
  | .cons key d rest => (key, d.write) :: rest.write

end

theorem Docs.write_eq : (items : Docs ν) → items.write number spell = items.toList.map (Doc.write number spell)
  | .nil => rfl
  | .cons d rest => by rw [Docs.write, Docs.toList, map_cons, rest.write_eq]

theorem DocMap.write_eq : (fields : DocMap ν) →
    fields.write number spell = fields.toList.map fun e => (e.1, e.2.write number spell)
  | .nil => rfl
  | .cons key d rest => by rw [DocMap.write, DocMap.toList, map_cons, rest.write_eq]

variable {number spell}

mutual

theorem Doc.write_wf (hnumber : ∀ n, IsNumber (number n)) (hspell : Spells spell) :
    (d : Doc ν) → (d.write number spell).WF
  | .null => trivial
  | .bool _ => trivial
  | .num n => hnumber n
  | .str s => isRaw_spelled hspell s
  | .arr items => array_wf (items.write_wf hnumber hspell)
  | .obj fields => by
    refine rawObject_wf fun m hm => ?_
    obtain ⟨e, he, rfl⟩ := mem_map.mp hm
    exact ⟨isRaw_spelled hspell e.1, fields.write_wf hnumber hspell e (mem_of_mem_mapEntries he)⟩

theorem Docs.write_wf (hnumber : ∀ n, IsNumber (number n)) (hspell : Spells spell) :
    (items : Docs ν) → ∀ v ∈ items.write number spell, v.WF
  | .nil => by simp [Docs.write]
  | .cons d rest => by
    intro v hv
    rcases List.mem_cons.mp hv with rfl | hv
    · exact d.write_wf hnumber hspell
    · exact rest.write_wf hnumber hspell v hv

theorem DocMap.write_wf (hnumber : ∀ n, IsNumber (number n)) (hspell : Spells spell) :
    (fields : DocMap ν) → ∀ m ∈ fields.write number spell, m.2.WF
  | .nil => by simp [DocMap.write]
  | .cons key d rest => by
    intro m hm
    rcases List.mem_cons.mp hm with rfl | hm
    · exact d.write_wf hnumber hspell
    · exact rest.write_wf hnumber hspell m hm

end

end Write

mutual

def Value.doc : Value → Doc Text
  | .null => .null
  | .bool b => .bool b
  | .num lit => .num lit
  | .str raw => .str (unquote raw)
  | .emptyArr _ => .arr .nil
  | .arr items => .arr items.docs
  | .emptyObj _ => .obj .nil
  | .obj members => .obj members.docs

def Items.docs : Items → Docs Text
  | .last _ v _ => .cons v.doc .nil
  | .more _ v _ rest => .cons v.doc rest.docs

def Members.docs : Members → DocMap Text
  | .last _ key _ _ v _ => .cons (unquote key) v.doc .nil
  | .more _ key _ _ v _ rest => .cons (unquote key) v.doc rest.docs

end

section Reading

variable {number : ν → Text} {spell spell' : Char → Text} {number' : Text → Text}

theorem itemsOf_docs (v : Value) (rest : List Value) : (itemsOf v rest).docs.toList = (v :: rest).map doc := by
  induction rest generalizing v with
  | nil => rfl
  | cons w rest ih => rw [itemsOf, Items.docs, Docs.toList, ih]; rfl

theorem Value.doc_array (vs : List Value) :
    (array vs).doc.write number' spell' = .array (vs.map fun v => v.doc.write number' spell') := by
  cases vs with
  | nil => rfl
  | cons v rest =>
    rw [array, doc, Doc.write, Docs.write_eq, itemsOf_docs, map_map]
    rfl

theorem rawMembersOf_docs (m : Text × Value) (rest : List (Text × Value)) :
    (rawMembersOf m rest).docs.toList = (m :: rest).map fun e => (unquote e.1, e.2.doc) := by
  induction rest generalizing m with
  | nil => rfl
  | cons n rest ih => rw [rawMembersOf, Members.docs, DocMap.toList, ih]; rfl

theorem Value.doc_rawObject (ms : List (Text × Value)) :
    (rawObject ms).doc.write number' spell' =
      .rawObject ((mapEntries (ms.map fun m => (unquote m.1, m.2.doc.write number' spell'))).map
        (spelled spell')) := by
  cases ms with
  | nil => rfl
  | cons m rest =>
    rw [rawObject, doc, Doc.write, DocMap.write_eq, rawMembersOf_docs, map_map]
    rfl

mutual

theorem Doc.write_doc_write (hspell : Spells spell) : (d : Doc ν) →
    (d.write number spell).doc.write number' spell' = d.write (fun n => number' (number n)) spell'
  | .null => rfl
  | .bool _ => rfl
  | .num _ => rfl
  | .str s => by
    rw [Doc.write, doc, unquote_spelled hspell]
    rfl
  | .arr items => by
    rw [Doc.write, doc_array, items.write_doc_write hspell]
    rfl
  | .obj fields => by
    have hkeys : ((mapEntries (fields.write number spell)).map (spelled spell)).map
        (fun m => (unquote m.1, m.2.doc.write number' spell')) =
          (mapEntries (fields.write number spell)).map fun e => (e.1, e.2.doc.write number' spell') := by
      rw [map_map]
      refine map_congr_left fun e _ => ?_
      exact Prod.ext (unquote_spelled hspell e.1) rfl
    rw [Doc.write, doc_rawObject, hkeys, mapEntries_map fun _ (v : Value) => v.doc.write number' spell',
      mapEntries_idem, fields.write_doc_write hspell]
    rfl

theorem Docs.write_doc_write (hspell : Spells spell) : (items : Docs ν) →
    (items.write number spell).map (fun v => v.doc.write number' spell') =
      items.write (fun n => number' (number n)) spell'
  | .nil => rfl
  | .cons d rest => by
    rw [Docs.write, map_cons, d.write_doc_write hspell, rest.write_doc_write hspell]
    rfl

theorem DocMap.write_doc_write (hspell : Spells spell) : (fields : DocMap ν) →
    (fields.write number spell).map (fun e => (e.1, e.2.doc.write number' spell')) =
      fields.write (fun n => number' (number n)) spell'
  | .nil => rfl
  | .cons key d rest => by
    rw [DocMap.write, map_cons, d.write_doc_write hspell, rest.write_doc_write hspell]
    rfl

end

end Reading

section All

variable (q : ν → Bool) (p : Text → Bool)

mutual

/-- Every number that is written has the one property, and every string and key the other. -/
def Doc.all : Doc ν → Bool
  | .num n => q n
  | .str s => p s
  | .arr items => items.all
  | .obj fields => (mapEntries fields.all).all Prod.snd
  | _ => true

def Docs.all : Docs ν → Bool
  | .nil => true
  | .cons d rest => d.all && rest.all

def DocMap.all : DocMap ν → List (Text × Bool)
  | .nil => []
  | .cons key d rest => (key, p key && d.all) :: rest.all

end

theorem DocMap.all_eq : (fields : DocMap ν) →
    fields.all q p = fields.toList.map fun e => (e.1, p e.1 && e.2.all q p)
  | .nil => rfl
  | .cons key d rest => by rw [DocMap.all, DocMap.toList, map_cons, rest.all_eq]

variable {q p}
variable {number number' : ν → Text} {spell spell' : Char → Text}

theorem DocMap.write_obj_eq_iff (fields : DocMap ν) :
    (Doc.obj fields).write number spell = (Doc.obj fields).write number' spell' ↔
      ∀ e ∈ mapEntries fields.toList, e.1.flatMap spell = e.1.flatMap spell' ∧
        e.2.write number spell = e.2.write number' spell' := by
  rw [Doc.write, Doc.write, rawObject_inj, DocMap.write_eq, DocMap.write_eq,
    ← mapEntries_map fun _ d => Doc.write number spell d, ← mapEntries_map fun _ d => Doc.write number' spell' d,
    map_map, map_map, map_inj_left]
  refine forall₂_congr fun e _ => ?_
  exact Prod.mk.injEq _ _ _ _ ▸ Iff.rfl

mutual

theorem Doc.write_eq_iff (hq : ∀ n, number n = number' n ↔ q n = true)
    (hp : ∀ s, s.flatMap spell = s.flatMap spell' ↔ p s = true) : (d : Doc ν) →
    (d.write number spell = d.write number' spell' ↔ d.all q p = true)
  | .null => by simp [Doc.write, Doc.all]
  | .bool _ => by simp [Doc.write, Doc.all]
  | .num n => by rw [Doc.write, Doc.write, Doc.all, Value.num.injEq, hq]
  | .str s => by rw [Doc.write, Doc.write, Doc.all, Value.str.injEq, hp]
  | .arr items => by rw [Doc.write, Doc.write, Doc.all, array_inj, items.write_eq_iff hq hp]
  | .obj fields => by
    rw [fields.write_obj_eq_iff, Doc.all, DocMap.all_eq, ← mapEntries_map fun key d => p key && Doc.all q p d,
      all_map, all_eq_true]
    refine forall₂_congr fun e he => ?_
    rw [hp, fields.write_eq_iff hq hp e (mem_of_mem_mapEntries he)]
    simp

theorem Docs.write_eq_iff (hq : ∀ n, number n = number' n ↔ q n = true)
    (hp : ∀ s, s.flatMap spell = s.flatMap spell' ↔ p s = true) : (items : Docs ν) →
    (items.write number spell = items.write number' spell' ↔ items.all q p = true)
  | .nil => by simp [Docs.write, Docs.all]
  | .cons d rest => by
    rw [Docs.write, Docs.write, Docs.all, List.cons.injEq, d.write_eq_iff hq hp, rest.write_eq_iff hq hp,
      Bool.and_eq_true]

theorem DocMap.write_eq_iff (hq : ∀ n, number n = number' n ↔ q n = true)
    (hp : ∀ s, s.flatMap spell = s.flatMap spell' ↔ p s = true) : (fields : DocMap ν) →
    ∀ e ∈ fields.toList, (e.2.write number spell = e.2.write number' spell' ↔ e.2.all q p = true)
  | .nil => by simp [DocMap.toList]
  | .cons key d rest => by
    intro e he
    rcases List.mem_cons.mp he with rfl | he
    · exact d.write_eq_iff hq hp
    · exact rest.write_eq_iff hq hp e he

end

end All

def validNumber (lit : Text) : Bool := scanNumber lit == some (lit, [])

theorem IsNumber.valid {lit : Text} (h : IsNumber lit) : validNumber lit = true := by
  have hscan := h.2 [] (by simp [Ends])
  rw [append_nil] at hscan
  simpa [validNumber] using hscan

section Numbers

variable {q : Text → Bool}

mutual

theorem Value.doc_numbers (hq : ∀ lit, IsNumber lit → q lit = true) :
    (v : Value) → v.WF → v.doc.all q (fun _ => true) = true
  | .null, _ => rfl
  | .bool _, _ => rfl
  | .num lit, h => hq lit h
  | .str _, _ => rfl
  | .emptyArr _, _ => rfl
  | .arr items, h => items.doc_numbers hq h
  | .emptyObj _, _ => rfl
  | .obj members, h => by
    rw [doc, Doc.all, all_eq_true]
    intro e he
    exact members.doc_numbers hq h e (mem_of_mem_mapEntries he)

theorem Items.doc_numbers (hq : ∀ lit, IsNumber lit → q lit = true) :
    (items : Items) → items.WF → items.docs.all q (fun _ => true) = true
  | .last _ v _, h => by rw [Items.docs, Docs.all, v.doc_numbers hq h.2.1]; rfl
  | .more _ v _ rest, h => by
    rw [Items.docs, Docs.all, v.doc_numbers hq h.2.1, rest.doc_numbers hq h.2.2.2]
    rfl

theorem Members.doc_numbers (hq : ∀ lit, IsNumber lit → q lit = true) :
    (members : Members) → members.WF → ∀ e ∈ members.docs.all q (fun _ => true), e.2 = true
  | .last _ _ _ _ v _, h => by
    intro e he
    obtain rfl := mem_singleton.mp he
    exact v.doc_numbers hq h.2.2.2.2.1
  | .more _ _ _ _ v _ rest, h => by
    intro e he
    rcases mem_cons.mp he with rfl | he
    · exact v.doc_numbers hq h.2.2.2.2.1
    · exact rest.doc_numbers hq h.2.2.2.2.2.2 e he

end

end Numbers

mutual

def Doc.depth : Doc ν → Nat
  | .arr items => items.depth + 1
  | .obj fields => fields.depth + 1
  | _ => 0

def Docs.depth : Docs ν → Nat
  | .nil => 0
  | .cons d rest => max d.depth rest.depth

def DocMap.depth : DocMap ν → Nat
  | .nil => 0
  | .cons _ d rest => max d.depth rest.depth

end

end Json
