import Overture.Lib.Json.Decode

/-!
# Structs of one field

Every member whose name is that of the field up to case is decoded over what the members
before it left. What the decoder returns is therefore a fold over these members, and two
decoders that run alike on the members run alike on the struct.
-/

namespace Json

open List Decoder Value

variable {σ τ : Type}

def Value.named (name : Text) : Value → List Value
  | .obj members => (members.toList.filter fun m => foldName (unquote m.1) == foldName name).map Prod.snd
  | _ => []

def Value.objectOrNull : Value → Bool
  | .obj _ | .emptyObj _ | .null => true
  | _ => false

def Value.arrayOrNull : Value → Bool
  | .arr _ | .emptyArr _ | .null => true
  | _ => false

def Value.elements : Value → List Value
  | .arr items => items.toList
  | _ => []

variable (d : Decoder σ) (zero : σ) (name : String)

def decodeAll (vs : List Value) (acc : σ × Bool) : σ × Bool :=
  vs.foldl (fun acc v => ((d v acc.1).1, acc.2 && (d v acc.1).2)) acc

@[simp] theorem decodeAll_nil (acc : σ × Bool) : decodeAll d [] acc = acc := rfl

@[simp] theorem decodeAll_cons (v : Value) (vs : List Value) (acc : σ × Bool) :
    decodeAll d (v :: vs) acc = decodeAll d vs ((d v acc.1).1, acc.2 && (d v acc.1).2) := rfl

theorem decodeAll_flag (vs : List Value) (s : σ) (ok : Bool) :
    decodeAll d vs (s, ok) = ((decodeAll d vs (s, true)).1, ok && (decodeAll d vs (s, true)).2) := by
  induction vs generalizing s ok with
  | nil => simp
  | cons v vs ih =>
    rw [decodeAll_cons, decodeAll_cons, ih, ih (d v s).1 (true && (d v s).2)]
    simp [Bool.and_assoc]

theorem decodeAll_append (vs ws : List Value) (acc : σ × Bool) :
    decodeAll d (vs ++ ws) acc = decodeAll d ws (decodeAll d vs acc) := foldl_append

theorem membersOf_toList (m : Text × Value) (rest : List (Text × Value)) :
    (membersOf m rest).toList = (m :: rest).map fun e => (quote e.1, e.2) := by
  induction rest generalizing m with
  | nil => rfl
  | cons n rest ih => rw [membersOf, Members.toList, ih]; rfl

theorem Members.print_closes : (members : Members) → ∃ t, members.print = t ++ ['\x7d']
  | .last pre key mid gap v post =>
    ⟨pre ++ (quoted key ++ (mid ++ ':' :: (gap ++ (v.print ++ post)))), by simp [Members.print]⟩
  | .more pre key mid gap v post rest => by
    obtain ⟨t, ht⟩ := rest.print_closes
    exact ⟨pre ++ (quoted key ++ (mid ++ ':' :: (gap ++ (v.print ++ (post ++ ',' :: t))))),
      by simp [Members.print, ht]⟩

theorem Value.print_object (ms : List (Text × Value)) : ∃ t, (object ms).print = '\x7b' :: (t ++ ['\x7d']) := by
  cases ms with
  | nil => exact ⟨[], rfl⟩
  | cons m rest =>
    obtain ⟨t, ht⟩ := (membersOf m rest).print_closes
    exact ⟨t, by rw [object, print, ht]⟩

def decodeNamed (fields : List (StructField σ)) (acc : σ × Bool) (m : Text × Value) : σ × Bool :=
  match findField fields m.1 with
  | some f => ((f.decode m.2 acc.1).1, acc.2 && (f.decode m.2 acc.1).2)
  | none => acc

theorem decodeNamed_of {fields : List (StructField σ)} {f : StructField σ} (key : Text) (acc : σ × Bool) (v : Value)
    (h : findField fields key = some f) :
    decodeNamed fields acc (key, v) = ((f.decode v acc.1).1, acc.2 && (f.decode v acc.1).2) := by
  unfold decodeNamed
  dsimp only
  rw [h]

theorem text_quote (t old : Text) : text (.str (quote t)) old = (t, true) := by
  rw [text, unquote_quote]

theorem struct_object (fields : List (StructField σ)) (ms : List (Text × Value)) (old : σ) :
    struct fields (object ms) old = ms.foldl (decodeNamed fields) (old, true) := by
  cases ms with
  | nil => rfl
  | cons m rest =>
    rw [object, struct, membersOf_toList, foldl_map]
    refine foldl_ext _ _ _ fun acc e _ => ?_
    rw [decodeMember, unquote_quote]
    rfl

def Decoder.single (name : String) (d : Decoder σ) : Decoder σ :=
  struct [StructField.of name id (fun _ x => x) d]

theorem decodeMember_single (d : Decoder σ) (acc : σ × Bool) (m : Text × Value) :
    decodeMember [StructField.of name id (fun _ x => x) d] acc m =
      if foldName (unquote m.1) = foldName name.toList then ((d m.2 acc.1).1, acc.2 && (d m.2 acc.1).2)
      else acc := by
  unfold decodeMember findField
  by_cases hexact : name.toList = unquote m.1
  · simp [StructField.of, hexact]
  by_cases hfold : foldName name.toList = foldName (unquote m.1)
  · simp [StructField.of, hexact, hfold]
  · simp [StructField.of, hexact, hfold, Ne.symm hfold]

theorem single_eq (d : Decoder σ) (v : Value) (old : σ) :
    single name d v old = decodeAll d (v.named name.toList) (old, v.objectOrNull) := by
  cases v with
  | obj members =>
    simp only [single, struct, named, objectOrNull, decodeAll]
    rw [foldl_map, foldl_filter]
    refine foldl_ext _ _ _ fun acc m _ => ?_
    rw [decodeMember_single]
    simp
  | _ => rfl

theorem decodeAll_single (d : Decoder σ) (vs : List Value) (s : σ) :
    decodeAll (single name d) vs (s, true) =
      ((decodeAll d (vs.flatMap (named name.toList)) (s, true)).1,
        vs.all objectOrNull && (decodeAll d (vs.flatMap (named name.toList)) (s, true)).2) := by
  induction vs generalizing s with
  | nil => rfl
  | cons v vs ih =>
    rw [decodeAll_cons, decodeAll_flag, ih, flatMap_cons, decodeAll_append, single_eq,
      decodeAll_flag d (v.named name.toList) s v.objectOrNull]
    rw [decodeAll_flag d (vs.flatMap _) _ (decodeAll d (v.named name.toList) (s, true)).2]
    simp only [all_cons, Bool.true_and, Prod.mk.injEq, true_and]
    grind

def Slice.at (zero : σ) (s : Slice σ) (i : Nat) : σ := s.cells[i]?.getD zero

theorem decodeItems_at (d : Decoder σ) (vs : List Value) (cells : List σ) (i : Nat) :
    (decodeItems zero d vs cells).1[i]?.getD zero =
      match vs[i]? with
      | some v => (d v (cells[i]?.getD zero)).1
      | none => cells[i]?.getD zero := by
  induction vs generalizing cells i with
  | nil => simp [decodeItems]
  | cons v vs ih =>
    cases i with
    | zero => cases cells <;> simp [decodeItems]
    | succ i => simpa [decodeItems] using ih cells.tail i

theorem decodeItems_flag (d : Decoder σ) (vs : List Value) (cells : List σ) :
    (decodeItems zero d vs cells).2 = true ↔
      ∀ (i : Nat) (v : Value), vs[i]? = some v → (d v (cells[i]?.getD zero)).2 = true := by
  induction vs generalizing cells with
  | nil => simp [decodeItems]
  | cons v vs ih =>
    simp only [decodeItems, Bool.and_eq_true, ih]
    constructor
    · rintro ⟨hhead, htail⟩ i w hw
      cases i with
      | zero =>
        cases hw
        cases cells <;> simpa using hhead
      | succ i => simpa using htail i w (by simpa using hw)
    · intro h
      refine ⟨?_, fun i w hw => by simpa using h (i + 1) w (by simpa using hw)⟩
      have hzero := h 0 v rfl
      cases cells <;> simpa using hzero

theorem decodeItems_length (d : Decoder σ) (vs : List Value) (cells : List σ) :
    vs.length ≤ (decodeItems zero d vs cells).1.length := by
  induction vs generalizing cells with
  | nil => simp
  | cons v vs ih => simpa [decodeItems] using ih cells.tail

def Slice.Full (s : Slice σ) : Prop := s.len ≤ s.cells.length

theorem Slice.full_empty : (Slice.empty : Slice σ).Full := le_refl 0

theorem slice_full (d : Decoder σ) (v : Value) {old : Slice σ} (h : old.Full) :
    (slice zero d v old).1.Full := by
  cases v with
  | arr items => exact decodeItems_length zero d items.toList old.cells
  | emptyArr gap | null => exact Slice.full_empty
  | _ => exact h

theorem slice_len (d : Decoder σ) {v : Value} (hv : v.arrayOrNull = true) (old : Slice σ) :
    (slice zero d v old).1.len = v.elements.length := by
  cases v with
  | arr items => rfl
  | emptyArr gap => rfl
  | null => rfl
  | _ => simp [arrayOrNull] at hv

theorem Slice.toList_eq {s : Slice σ} (h : s.Full) : s.toList = (range s.len).map (s.at zero) := by
  apply ext_getElem?
  intro i
  unfold Slice.toList
  by_cases hi : i < s.len
  · have hlt : i < s.cells.length := lt_of_lt_of_le hi h
    simp [Slice.at, hi, hlt]
  · simp [hi]

/-- Where the first decoder reports no error the second reports none either, and they stay related. -/
def Simulates (R : σ → τ → Prop) (d : Decoder σ) (e : Decoder τ) : Prop :=
  ∀ v s t, R s t → (d v s).2 = true → (e v t).2 = true ∧ R (d v s).1 (e v t).1

variable {R : σ → τ → Prop} {d : Decoder σ} {e : Decoder τ}

theorem Simulates.decodeAll (h : Simulates R d e)
    (vs : List Value) {s : σ} {t : τ} (hR : R s t) (hok : (decodeAll d vs (s, true)).2 = true) :
    (decodeAll e vs (t, true)).2 = true ∧ R (decodeAll d vs (s, true)).1 (decodeAll e vs (t, true)).1 := by
  induction vs generalizing s t with
  | nil => exact ⟨rfl, hR⟩
  | cons v vs ih =>
    simp only [decodeAll_cons, Bool.true_and] at hok ⊢
    rw [decodeAll_flag d vs (d v s).1 (d v s).2] at hok ⊢
    rw [decodeAll_flag e vs (e v t).1 (e v t).2]
    simp only [Bool.and_eq_true] at hok ⊢
    obtain ⟨hhead, htail⟩ := hok
    obtain ⟨hhead', hR'⟩ := h v s t hR hhead
    obtain ⟨htail', hlast⟩ := ih hR' htail
    exact ⟨⟨hhead', htail'⟩, hlast⟩

theorem Simulates.single (h : Simulates R d e) (name : String) :
    Simulates R (single name d) (single name e) := by
  intro v s t hR hok
  rw [single_eq name d, decodeAll_flag d _ s v.objectOrNull] at hok ⊢
  rw [single_eq name e, decodeAll_flag e _ t v.objectOrNull]
  simp only [Bool.and_eq_true] at hok ⊢
  obtain ⟨hobj, hmembers⟩ := hok
  obtain ⟨hmembers', hR'⟩ := h.decodeAll (v.named name.toList) hR hmembers
  exact ⟨⟨hobj, hmembers'⟩, hR'⟩

def Slice.Rel (R : σ → τ → Prop) (zero : σ) (zero' : τ) (s : Slice σ) (t : Slice τ) : Prop :=
  s.len = t.len ∧ ∀ i, R (s.at zero i) (t.at zero' i)

theorem Simulates.slice (h : Simulates R d e)
    {zero : σ} {zero' : τ} (hzero : R zero zero') :
    Simulates (Slice.Rel R zero zero') (Decoder.slice zero d) (Decoder.slice zero' e) := by
  have hempty : Slice.Rel R zero zero' (Slice.empty : Slice σ) (Slice.empty : Slice τ) := ⟨rfl, fun _ => hzero⟩
  intro v s t hR hok
  cases v with
  | arr items =>
    have hflag := (decodeItems_flag zero d items.toList s.cells).mp hok
    refine ⟨(decodeItems_flag zero' e items.toList t.cells).mpr ?_, rfl, fun i => ?_⟩
    · intro i w hw
      exact (h w _ _ (hR.2 i) (hflag i w hw)).1
    simp only [Slice.at, Decoder.slice, decodeItems_at]
    cases hw : items.toList[i]? with
    | none => exact hR.2 i
    | some w => exact (h w _ _ (hR.2 i) (hflag i w hw)).2
  | emptyArr gap | null => exact ⟨rfl, hempty⟩
  | _ => simp [Decoder.slice] at hok

end Json
