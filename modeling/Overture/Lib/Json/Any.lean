import Overture.Lib.Json.Quote
import Overture.Lib.Json.Number

/-!
# Values of the type `interface{}`

What `encoding/json` builds when it decodes into an empty interface, and how it writes such
a value. A map is kept as the list of its entries in ascending order of the keys, the order
`json.Marshal` writes them in. Writing a value and reading it gives the value back.
-/

namespace Json

open Value

/-! ## Compact documents -/

def itemsOf (v : Value) : List Value → Items
  | [] => .last [] v []
  | w :: rest => .more [] v [] (itemsOf w rest)

def Value.array : List Value → Value
  | [] => .emptyArr []
  | v :: rest => .arr (itemsOf v rest)

def membersOf (m : Text × Value) : List (Text × Value) → Members
  | [] => .last [] (quote m.1) [] [] m.2 []
  | n :: rest => .more [] (quote m.1) [] [] m.2 [] (membersOf n rest)

def Value.object : List (Text × Value) → Value
  | [] => .emptyObj []
  | m :: rest => .obj (membersOf m rest)

theorem isGap_nil : IsGap [] := by simp [IsGap]

variable {v : Value} {vs : List Value} {m : Text × Value} {ms : List (Text × Value)} {n : Nat}

theorem itemsOf_wf {rest : List Value} (hv : v.WF) (hrest : ∀ w ∈ rest, w.WF) :
    (itemsOf v rest).WF := by
  induction rest generalizing v with
  | nil => exact ⟨isGap_nil, hv, isGap_nil⟩
  | cons w rest ih =>
    exact ⟨isGap_nil, hv, isGap_nil, ih (hrest w (by simp)) fun x hx => hrest x (by simp [hx])⟩

theorem Value.array_wf (h : ∀ v ∈ vs, v.WF) : (array vs).WF := by
  cases vs with
  | nil => exact isGap_nil
  | cons v rest => exact itemsOf_wf (h v (by simp)) fun w hw => h w (by simp [hw])

theorem membersOf_wf {rest : List (Text × Value)} (hm : m.2.WF)
    (hrest : ∀ n ∈ rest, n.2.WF) : (membersOf m rest).WF := by
  induction rest generalizing m with
  | nil => exact ⟨isGap_nil, isRaw_quote _, isGap_nil, isGap_nil, hm, isGap_nil⟩
  | cons n rest ih =>
    exact ⟨isGap_nil, isRaw_quote _, isGap_nil, isGap_nil, hm, isGap_nil,
      ih (hrest n (by simp)) fun x hx => hrest x (by simp [hx])⟩

theorem Value.object_wf (h : ∀ m ∈ ms, m.2.WF) : (object ms).WF := by
  cases ms with
  | nil => exact isGap_nil
  | cons m rest => exact membersOf_wf (h m (by simp)) fun n hn => h n (by simp [hn])

theorem itemsOf_depth {rest : List Value} (hv : v.depth ≤ n)
    (hrest : ∀ w ∈ rest, w.depth ≤ n) : (itemsOf v rest).depth ≤ n := by
  induction rest generalizing v with
  | nil => exact hv
  | cons w rest ih =>
    exact max_le hv (ih (hrest w (by simp)) fun x hx => hrest x (by simp [hx]))

theorem Value.array_depth (h : ∀ v ∈ vs, v.depth ≤ n) :
    (array vs).depth ≤ n + 1 := by
  cases vs with
  | nil => simp [array, depth]
  | cons v rest =>
    exact Nat.succ_le_succ (itemsOf_depth (h v (by simp)) fun w hw => h w (by simp [hw]))

theorem membersOf_depth {rest : List (Text × Value)} (hm : m.2.depth ≤ n)
    (hrest : ∀ k ∈ rest, k.2.depth ≤ n) : (membersOf m rest).depth ≤ n := by
  induction rest generalizing m with
  | nil => exact hm
  | cons k rest ih =>
    exact max_le hm (ih (hrest k (by simp)) fun x hx => hrest x (by simp [hx]))

theorem Value.object_depth (h : ∀ m ∈ ms, m.2.depth ≤ n) :
    (object ms).depth ≤ n + 1 := by
  cases ms with
  | nil => simp [object, depth]
  | cons m rest =>
    exact Nat.succ_le_succ (membersOf_depth (h m (by simp)) fun k hk => h k (by simp [hk]))

theorem itemsOf_inj {w : Value} {ws : List Value} (h : itemsOf v vs = itemsOf w ws) : v = w ∧ vs = ws := by
  induction vs generalizing v w ws with
  | nil =>
    cases ws with
    | nil => exact ⟨(Items.last.inj h).2.1, rfl⟩
    | cons _ _ => cases h
  | cons x vs ih =>
    cases ws with
    | nil => cases h
    | cons y ws =>
      obtain ⟨-, hv, -, hrest⟩ := Items.more.inj h
      obtain ⟨rfl, rfl⟩ := ih hrest
      exact ⟨hv, rfl⟩

theorem Value.array_inj {ws : List Value} : array vs = array ws ↔ vs = ws := by
  constructor
  · intro h
    cases vs with
    | nil =>
      cases ws with
      | nil => rfl
      | cons _ _ => cases h
    | cons v vs =>
      cases ws with
      | nil => cases h
      | cons w ws =>
        obtain ⟨rfl, rfl⟩ := itemsOf_inj (arr.inj h)
        rfl
  · rintro rfl
    rfl

theorem quote_inj {t u : Text} : quote t = quote u ↔ t = u := by
  constructor
  · intro h
    rw [← unquote_quote t, h, unquote_quote]
  · rintro rfl
    rfl

theorem membersOf_inj {n : Text × Value} {ns : List (Text × Value)} (h : membersOf m ms = membersOf n ns) :
    m = n ∧ ms = ns := by
  induction ms generalizing m n ns with
  | nil =>
    cases ns with
    | nil =>
      obtain ⟨-, hkey, -, -, hv, -⟩ := Members.last.inj h
      exact ⟨Prod.ext (quote_inj.mp hkey) hv, rfl⟩
    | cons _ _ => cases h
  | cons x ms ih =>
    cases ns with
    | nil => cases h
    | cons y ns =>
      obtain ⟨-, hkey, -, -, hv, -, hrest⟩ := Members.more.inj h
      obtain ⟨rfl, rfl⟩ := ih hrest
      exact ⟨Prod.ext (quote_inj.mp hkey) hv, rfl⟩

theorem Value.object_inj {ns : List (Text × Value)} : object ms = object ns ↔ ms = ns := by
  constructor
  · intro h
    cases ms with
    | nil =>
      cases ns with
      | nil => rfl
      | cons _ _ => cases h
    | cons m ms =>
      cases ns with
      | nil => cases h
      | cons n ns =>
        obtain ⟨rfl, rfl⟩ := membersOf_inj (obj.inj h)
        rfl
  · rintro rfl
    rfl

/-! ## Decoded values -/

mutual

inductive Any where
  | null
  | bool (b : Bool)
  | num (x : Float64)
  | str (s : Text)
  | arr (items : Anys)
  | obj (fields : AnyMap)

inductive Anys where
  | nil
  | cons (v : Any) (rest : Anys)

inductive AnyMap where
  | nil
  | cons (key : Text) (v : Any) (rest : AnyMap)

end

deriving instance DecidableEq for Any, Anys, AnyMap

namespace AnyMap

def toList : AnyMap → List (Text × Any)
  | .nil => []
  | .cons key v rest => (key, v) :: rest.toList

def get? (key : Text) : AnyMap → Option Any
  | .nil => none
  | .cons k v rest => if k = key then some v else rest.get? key

end AnyMap

/-- Add an entry unless the key has one: members are read from the last to the first, and the last one of
a key wins. -/
def AnyMap.insertNew (key : Text) (v : Any) : AnyMap → AnyMap
  | .nil => .cons key v .nil
  | .cons k w rest =>
    if key < k then .cons key v (.cons k w rest)
    else if key = k then .cons k w rest
    else .cons k w (rest.insertNew key v)

mutual

def Value.toAny : Value → Option Any
  | .null => some .null
  | .bool b => some (.bool b)
  | .num lit => (Float64.parse lit).map .num
  | .str raw => some (.str (unquote raw))
  | .emptyArr _ => some (.arr .nil)
  | .arr items => items.toAnys.map .arr
  | .emptyObj _ => some (.obj .nil)
  | .obj members => members.toMap.map .obj

def Items.toAnys : Items → Option Anys
  | .last _ v _ => v.toAny.map (.cons · .nil)
  | .more _ v _ rest =>
    match v.toAny, rest.toAnys with
    | some a, some as => some (.cons a as)
    | _, _ => none

def Members.toMap : Members → Option AnyMap
  | .last _ key _ _ v _ => v.toAny.map (.cons (unquote key) · .nil)
  | .more _ key _ _ v _ rest =>
    match v.toAny, rest.toMap with
    | some a, some m => some (m.insertNew (unquote key) a)
    | _, _ => none

end

mutual

def Any.toValue : Any → Option Value
  | .null => some .null
  | .bool b => some (.bool b)
  | .num x => x.format.map .num
  | .str s => some (.str (quote s))
  | .arr items => items.toValues.map .array
  | .obj fields => fields.toMembers.map .object

def Anys.toValues : Anys → Option (List Value)
  | .nil => some []
  | .cons v rest =>
    match v.toValue, rest.toValues with
    | some w, some ws => some (w :: ws)
    | _, _ => none

def AnyMap.toMembers : AnyMap → Option (List (Text × Value))
  | .nil => some []
  | .cons key v rest =>
    match v.toValue, rest.toMembers with
    | some w, some ms => some ((key, w) :: ms)
    | _, _ => none

end

mutual

def Any.depth : Any → Nat
  | .arr items => items.depth + 1
  | .obj fields => fields.depth + 1
  | _ => 0

def Anys.depth : Anys → Nat
  | .nil => 0
  | .cons v rest => max v.depth rest.depth

def AnyMap.depth : AnyMap → Nat
  | .nil => 0
  | .cons _ v rest => max v.depth rest.depth

end

def AnyMap.Above (key : Text) : AnyMap → Prop
  | .nil => True
  | .cons k _ rest => key < k ∧ rest.Above key

mutual

def Any.Canonical : Any → Prop
  | .arr items => items.Canonical
  | .obj fields => fields.Canonical
  | _ => True

def Anys.Canonical : Anys → Prop
  | .nil => True
  | .cons v rest => v.Canonical ∧ rest.Canonical

def AnyMap.Canonical : AnyMap → Prop
  | .nil => True
  | .cons key v rest => rest.Above key ∧ v.Canonical ∧ rest.Canonical

end

def valuesToAnys : List Value → Option Anys
  | [] => some .nil
  | v :: rest =>
    match v.toAny, valuesToAnys rest with
    | some a, some as => some (.cons a as)
    | _, _ => none

def membersToMap : List (Text × Value) → Option AnyMap
  | [] => some .nil
  | m :: rest =>
    match m.2.toAny, membersToMap rest with
    | some a, some fields => some (fields.insertNew m.1 a)
    | _, _ => none

theorem itemsOf_toAnys (v : Value) (rest : List Value) :
    (itemsOf v rest).toAnys = valuesToAnys (v :: rest) := by
  induction rest generalizing v with
  | nil => cases h : v.toAny <;> simp [itemsOf, Items.toAnys, valuesToAnys, h]
  | cons w rest ih => rw [itemsOf, Items.toAnys, ih w]; rfl

theorem Value.array_toAny (vs : List Value) : (array vs).toAny = (valuesToAnys vs).map .arr := by
  cases vs with
  | nil => rfl
  | cons v rest => rw [array, toAny, itemsOf_toAnys]

theorem membersOf_toMap (m : Text × Value) (rest : List (Text × Value)) :
    (membersOf m rest).toMap = membersToMap (m :: rest) := by
  induction rest generalizing m with
  | nil =>
    cases h : m.2.toAny <;>
      simp [membersOf, Members.toMap, membersToMap, h, unquote_quote, AnyMap.insertNew]
  | cons n rest ih => rw [membersOf, Members.toMap, ih n, unquote_quote]; rfl

theorem Value.object_toAny (ms : List (Text × Value)) :
    (object ms).toAny = (membersToMap ms).map .obj := by
  cases ms with
  | nil => rfl
  | cons m rest => rw [object, toAny, membersOf_toMap]

theorem AnyMap.insertNew_of_above {key : Text} {v : Any} {fields : AnyMap} (h : fields.Above key) :
    fields.insertNew key v = .cons key v fields := by
  cases fields with
  | nil => rfl
  | cons k w rest => rw [insertNew, if_pos h.1]

mutual

theorem Any.toValue_spec (a : Any) (ha : a.Canonical) {v : Value} (h : a.toValue = some v) :
    v.toAny = some a ∧ v.WF ∧ v.depth ≤ a.depth := by
  cases a with
  | null | bool b =>
    rw [Any.toValue] at h
    cases h
    exact ⟨rfl, trivial, le_rfl⟩
  | num x =>
    obtain ⟨lit, hlit, rfl⟩ := Option.map_eq_some_iff.mp h
    obtain ⟨hnum, hparse⟩ := Float64.format_spec hlit
    exact ⟨by simp [toAny, hparse], hnum, le_rfl⟩
  | str s =>
    cases h
    exact ⟨by simp [toAny, unquote_quote], isRaw_quote s, le_rfl⟩
  | arr items =>
    obtain ⟨vs, hvs, rfl⟩ := Option.map_eq_some_iff.mp h
    obtain ⟨hany, hwf⟩ := items.toValues_spec ha hvs
    exact ⟨by rw [array_toAny, hany]; rfl, array_wf fun w hw => (hwf w hw).1,
      array_depth fun w hw => (hwf w hw).2⟩
  | obj fields =>
    obtain ⟨ms, hms, rfl⟩ := Option.map_eq_some_iff.mp h
    obtain ⟨hany, hwf⟩ := fields.toMembers_spec ha hms
    exact ⟨by rw [object_toAny, hany]; rfl, object_wf fun w hw => (hwf w hw).1,
      object_depth fun w hw => (hwf w hw).2⟩
termination_by sizeOf a

theorem Anys.toValues_spec (items : Anys) (hi : items.Canonical) {vs : List Value}
    (h : items.toValues = some vs) :
    valuesToAnys vs = some items ∧ ∀ v ∈ vs, v.WF ∧ v.depth ≤ items.depth := by
  cases items with
  | nil =>
    cases h
    exact ⟨rfl, by simp⟩
  | cons a rest =>
    rw [Anys.toValues] at h
    split at h
    · next w ws hw hws =>
      cases h
      obtain ⟨ha, hwf, hd⟩ := a.toValue_spec hi.1 hw
      obtain ⟨hrest, hrwf⟩ := rest.toValues_spec hi.2 hws
      refine ⟨by simp [valuesToAnys, ha, hrest], ?_⟩
      intro v hv
      rcases List.mem_cons.mp hv with rfl | hv
      · exact ⟨hwf, le_max_of_le_left hd⟩
      · exact ⟨(hrwf v hv).1, le_max_of_le_right (hrwf v hv).2⟩
    · simp at h
termination_by sizeOf items

theorem AnyMap.toMembers_spec (fields : AnyMap) (hf : fields.Canonical) {ms : List (Text × Value)}
    (h : fields.toMembers = some ms) :
    membersToMap ms = some fields ∧ ∀ m ∈ ms, m.2.WF ∧ m.2.depth ≤ fields.depth := by
  cases fields with
  | nil =>
    cases h
    exact ⟨rfl, by simp⟩
  | cons key a rest =>
    rw [AnyMap.toMembers] at h
    split at h
    · next w ws hw hws =>
      cases h
      obtain ⟨ha, hwf, hd⟩ := a.toValue_spec hf.2.1 hw
      obtain ⟨hrest, hrwf⟩ := rest.toMembers_spec hf.2.2 hws
      refine ⟨by simp [membersToMap, ha, hrest, AnyMap.insertNew_of_above hf.1], ?_⟩
      intro m hm
      rcases List.mem_cons.mp hm with rfl | hm
      · exact ⟨hwf, le_max_of_le_left hd⟩
      · exact ⟨(hrwf m hm).1, le_max_of_le_right (hrwf m hm).2⟩
    · simp at h
termination_by sizeOf fields

end

end Json
