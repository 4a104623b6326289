import Overture.Lib.Except
import Overture.Lib.Instant
import Overture.Lib.Json.Members
import Overture.Lib.Json.Struct
import Overture.Lib.Utf8

/-!
# The arguments of a called action

The arguments of `call_action` are decoded twice: into a map of raw members, which is validated, and into a struct,
which is used. The last member of a name counts in the map; in the struct an object is decoded into the entries that
earlier members of its name have left.
-/

namespace Overture.McpArguments

open Json List Except Option Decoder
open Text (trimSpace)

/-- A decoded object with members in their order, as assignments to a map. -/
abbrev Fields := List (Text × Value)

structure MapOrder where
  visit : Fields → List Text
  mem_visit : ∀ fields key, key ∈ visit fields ↔ key ∈ fields.map Prod.fst

def members : Value → Fields
  | .obj ms => ms.toList.map fun m => (unquote m.1, m.2)
  | _ => []

def unmarshalMCPObject (raw : Text) : Except Text Fields :=
  if trimSpace raw = [] ∨ trimSpace raw = "null" then .ok []
  else if (trimSpace raw).head? ≠ some '\x7b' then .error "MCP arguments must be an object"
  else
    match parse raw with
    | some v => .ok (members v)
    | none => .error "invalid MCP arguments"

/-! ## Validation -/

inductive FieldType where
  | text
  | dateTime
  | object

def callActionProperties : List (Text × FieldType) :=
  [("action_id", .text), ("action_name", .text), ("id", .text), ("name", .text),
    ("input", .object), ("metadata", .object), ("idempotency_key", .text),
    ("deadline_at", .dateTime), ("agent_id", .text), ("agent_name", .text)]

def forbiddenMCPCallActionFields : List Text :=
  ["tenant_id", "task_definition", "task_type", "runtime_target", "execution_graph", "ciphertext", "nonce",
    "key_material", "private_key", "raw_body", "request_body", "response_body", "runtime_endpoint",
    "runtime_id"].map String.toList

def schemaVersion : Text := "schema_version"

def mcpStringField (raw : Value) (name : Text) : Except Text Text :=
  match text raw [] with
  | (_, false) => .error (name ++ " must be a string")
  | (value, true) =>
    if trimSpace value = [] then .error (name ++ " must not be empty") else .ok (trimSpace value)

abbrev anyMap : Decoder (Option (List (Text × Any))) := map .null .any

def validateMCPField (name : Text) (raw : Value) : FieldType → Except Text Unit
  | .text => do
    let value ← mcpStringField raw name
    ensure "idempotency_key is too long"
      (decide (name = "idempotency_key" → (Utf8.encode value).length ≤ 200))
  | .dateTime => do
    let value ← mcpStringField raw name
    ensure (name ++ " must be an RFC3339 timestamp") (Instant.parse value).isSome
  | .object =>
    ensure (name ++ " must be an object") ((anyMap raw none).2 && (anyMap raw none).1.isSome)

def checkKey (fields : Fields) (key : Text) : Except Text Unit :=
  if key = schemaVersion then .ok ()
  else if key ∈ forbiddenMCPCallActionFields then .error "unsupported call_action field"
  else
    match callActionProperties.lookup key, assigned key fields with
    | some type, some raw => validateMCPField key raw type
    | _, _ => .error "unsupported MCP argument"

def checkKeys (fields : Fields) : List Text → Except Text Unit
  | [] => .ok ()
  | key :: keys => do
    checkKey fields key
    checkKeys fields keys

def mcpNonEmptyFieldPresent (fields : Fields) (name : Text) : Bool :=
  match assigned name fields with
  | none | some .null => false
  | some (.str raw) => (mcpStringField (.str raw) name).isOk
  | some _ => true

def checkVersion (fields : Fields) : Except Text Unit :=
  match assigned schemaVersion fields with
  | none => .ok ()
  | some raw => do
    let version ← mcpStringField raw schemaVersion
    ensure "unsupported schema_version" (version == "2026-06-06")

def validateMCPToolArguments (order : MapOrder) (raw : Text) : Except Text Unit := do
  let fields ← unmarshalMCPObject raw
  checkVersion fields
  checkKeys fields (order.visit fields)
  ensure "exactly one action or run identifier is required".toList
    (["action_id".toList, "action_name".toList, "id".toList, "name".toList].countP
      (mcpNonEmptyFieldPresent fields) == 1)

structure CallActionArgs where
  (id actionID name actionName : Text)
  (input metadata : Option (List (Text × Any)))
  idempotencyKey : Text
  deadlineAt : Option Time
  (agentID agentName : Text)

def deadline : Decoder (Option Time)
  | .str raw, _ => (Time.parse raw, (Time.parse raw).isSome)
  | .null, _ => (none, true)
  | _, old => (old, false)

def callActionFields : List (StructField CallActionArgs) :=
  [.of "id" (·.id) (fun r t => { r with id := t }) .text,
    .of "action_id" (·.actionID) (fun r t => { r with actionID := t }) .text,
    .of "name" (·.name) (fun r t => { r with name := t }) .text,
    .of "action_name" (·.actionName) (fun r t => { r with actionName := t }) .text,
    .of "input" (·.input) (fun r m => { r with input := m }) anyMap,
    .of "metadata" (·.metadata) (fun r m => { r with metadata := m }) anyMap,
    .of "idempotency_key" (·.idempotencyKey) (fun r t => { r with idempotencyKey := t }) .text,
    .of "deadline_at" (·.deadlineAt) (fun r t => { r with deadlineAt := t }) deadline,
    .of "agent_id" (·.agentID) (fun r t => { r with agentID := t }) .text,
    .of "agent_name" (·.agentName) (fun r t => { r with agentName := t }) .text]

def CallActionArgs.zero : CallActionArgs := ⟨[], [], [], [], none, none, [], none, [], []⟩

/-- What `callAction` hands to the run; nothing if the arguments cannot be decoded. -/
def callActionArgs (raw : Text) : Option CallActionArgs :=
  match unmarshal (struct callActionFields) raw .zero with
  | (req, true) => some req
  | (_, false) => none

def valuesOf (key : String) (fields : Fields) : List Value := (fields.filter (·.1 = key.toList)).map Prod.snd

/-- The value of the member that was validated, zero if there is none. -/
def valueOf {τ : Type} (d : Decoder τ) (zero : τ) (key : String) (fields : Fields) : τ :=
  ((assigned key.toList fields).map fun raw => (d raw zero).1).getD zero

def SameMap (a b : Option (List (Text × Any))) : Prop :=
  (a = none ↔ b = none) ∧ ∀ key, assigned key (a.getD []) = assigned key (b.getD [])

structure UsesValidated (fields : Fields) (req : CallActionArgs) : Prop where
  id : req.id = valueOf .text [] "id" fields
  actionID : req.actionID = valueOf .text [] "action_id" fields
  name : req.name = valueOf .text [] "name" fields
  actionName : req.actionName = valueOf .text [] "action_name" fields
  idempotencyKey : req.idempotencyKey = valueOf .text [] "idempotency_key" fields
  deadlineAt : req.deadlineAt = valueOf deadline none "deadline_at" fields
  agentID : req.agentID = valueOf .text [] "agent_id" fields
  agentName : req.agentName = valueOf .text [] "agent_name" fields
  input : SameMap req.input (valueOf anyMap none "input" fields)
  metadata : SameMap req.metadata (valueOf anyMap none "metadata" fields)
  allowed : ∀ key ∈ fields.map Prod.fst, key ∉ forbiddenMCPCallActionFields

def keysOf (v : Value) : List Text := (members v).map Prod.fst

/-- A member has no key that the last one has not, unless there is a null between them. -/
def Covered (vs : List Value) : Prop :=
  ∀ before v between last, vs = before ++ v :: between ++ [last] → .null ∉ between → keysOf v ⊆ keysOf last

variable {fields : Fields} {req : CallActionArgs} {key : Text} {type : FieldType} {raw : Value} {vs : List Value}
  {τ : Type} {d : Decoder τ} {get : CallActionArgs → τ} {name : String}

theorem assigned_eq_getLast? (name : String) (fields : Fields) :
    assigned name.toList fields = (valuesOf name fields).getLast? := by
  induction fields with
  | nil => rfl
  | cons m rest ih =>
    rw [assigned, ih, valuesOf, valuesOf, filter_cons]
    by_cases hkey : m.1 = name.toList
    · simp only [hkey, if_true, decide_true, map_cons, getLast?_cons]
      cases (map Prod.snd (rest.filter (·.1 = name.toList))).getLast? <;> rfl
    · simp [hkey]

/-- What a field holds after the values of its members were decoded one over the other. -/
def decoded (d : Decoder τ) (vs : List Value) (zero : τ) : τ := vs.foldl (fun s v => (d v s).1) zero

theorem decoded_eq_valueOf {zero : τ}
    (h : ∀ last, assigned name.toList fields = some last → ∀ s, (d last s).1 = (d last zero).1) :
    decoded d (valuesOf name fields) zero = valueOf d zero name fields := by
  unfold valueOf
  rw [assigned_eq_getLast?] at h ⊢
  rcases eq_nil_or_concat (valuesOf name fields) with hnil | ⟨init, last, hlast⟩
  · rw [hnil]
    rfl
  rw [hlast, concat_eq_append, getLast?_concat] at h
  rw [hlast, concat_eq_append, getLast?_concat, decoded, foldl_append]
  exact h last rfl _

def Projects (get : CallActionArgs → τ) (d : Decoder τ) (name : String) : Prop :=
  ∀ f ∈ callActionFields, ∀ v s, get (f.decode v s).1 = if f.name = name.toList then (d v (get s)).1 else get s

theorem projects : Projects (·.id) .text "id" ∧ Projects (·.actionID) .text "action_id" ∧
    Projects (·.name) .text "name" ∧ Projects (·.actionName) .text "action_name" ∧
    Projects (·.idempotencyKey) .text "idempotency_key" ∧ Projects (·.deadlineAt) deadline "deadline_at" ∧
    Projects (·.agentID) .text "agent_id" ∧ Projects (·.agentName) .text "agent_name" ∧
    Projects (·.input) anyMap "input" ∧ Projects (·.metadata) anyMap "metadata" := by
  refine ⟨?_, ?_, ?_, ?_, ?_, ?_, ?_, ?_, ?_, ?_⟩ <;>
  · intro f hf v s
    simp only [callActionFields, mem_cons, not_mem_nil, or_false] at hf
    rcases hf with rfl | rfl | rfl | rfl | rfl | rfl | rfl | rfl | rfl | rfl <;> rfl

theorem get_foldl (h : Projects get d name)
    (hname : (callActionFields.find? fun f => f.name == name.toList).isSome = true)
    (hfind : ∀ m ∈ fields, findField callActionFields m.1 = callActionFields.find? fun f => f.name == m.1)
    (acc : CallActionArgs × Bool) :
    get (fields.foldl (decodeNamed callActionFields) acc).1 = decoded d (valuesOf name fields) (get acc.1) := by
  induction fields generalizing acc with
  | nil => rfl
  | cons m rest ih =>
    rw [foldl_cons, ih fun m hm => hfind m (mem_cons_of_mem _ hm), decodeNamed.eq_def,
      hfind m mem_cons_self, valuesOf, valuesOf, filter_cons]
    cases hf : callActionFields.find? fun f => f.name == m.1 with
    | none =>
      have hne : m.1 ≠ name.toList := by
        intro heq
        rw [← heq, hf] at hname
        cases hname
      simp [hne]
    | some f =>
      have hfname : f.name = m.1 := by simpa using find?_some hf
      dsimp only
      rw [h f (mem_of_find?_eq_some hf), hfname]
      by_cases hkey : m.1 = name.toList
      · simp [hkey, decoded]
      · simp [hkey]

theorem checkKey_of_mem {keys : List Text} (h : checkKeys fields keys = .ok ()) (hkey : key ∈ keys) :
    checkKey fields key = .ok () := by
  induction keys with
  | nil => cases hkey
  | cons k keys ih =>
    obtain ⟨hk, h⟩ := ok_of_bind_ok h
    rcases mem_cons.mp hkey with rfl | hkey
    · exact hk
    · exact ih h hkey

theorem checkKey_cases (h : checkKey fields key = .ok ()) :
    key = schemaVersion ∨ key ∉ forbiddenMCPCallActionFields ∧ ∃ type, callActionProperties.lookup key = some type ∧
      ∀ raw, assigned key fields = some raw → validateMCPField key raw type = .ok () := by
  unfold checkKey at h
  split at h
  · next hversion => exact .inl hversion
  split at h
  · cases h
  next hallowed =>
  split at h
  · next type raw htype hraw =>
    refine .inr ⟨hallowed, type, htype, fun raw' hraw' => ?_⟩
    cases hraw.symm.trans hraw'
    exact h
  · cases h

theorem str_of_mcpStringField {value : Text} (h : mcpStringField raw key = .ok value) : ∃ s, raw = .str s := by
  cases raw with
  | str s => exact ⟨s, rfl⟩
  | _ => cases h

theorem isSome_find? (h : callActionProperties.lookup key = some type) :
    (callActionFields.find? fun f => f.name == key).isSome = true := by
  obtain ⟨l₁, l₂, hl, -⟩ := lookup_eq_some_iff.mp h
  have hmem : (key, type) ∈ callActionProperties := by
    rw [hl]
    simp
  simp only [callActionProperties, mem_cons, not_mem_nil, or_false, Prod.mk.injEq] at hmem
  rcases hmem with ⟨rfl, -⟩ | ⟨rfl, -⟩ | ⟨rfl, -⟩ | ⟨rfl, -⟩ | ⟨rfl, -⟩ | ⟨rfl, -⟩ | ⟨rfl, -⟩ | ⟨rfl, -⟩ | ⟨rfl, -⟩ |
    ⟨rfl, -⟩ <;> rfl

theorem findField_eq (h : checkKey fields key = .ok ()) :
    findField callActionFields key = callActionFields.find? fun f => f.name == key := by
  rcases checkKey_cases h with rfl | ⟨-, type, htype, -⟩
  · rfl
  obtain ⟨f, hf⟩ := isSome_iff_exists.mp (isSome_find? htype)
  rw [findField, hf]

theorem obj_of_unmarshal {raw : Text} (h : unmarshalMCPObject raw = .ok fields) (hne : fields ≠ []) :
    ∃ ms, parse raw = some (.obj ms) ∧ fields = members (.obj ms) := by
  unfold unmarshalMCPObject at h
  split at h
  · cases h
    exact (hne rfl).elim
  split at h
  · cases h
  split at h
  · next v hparse =>
    cases h
    cases v with
    | obj ms => exact ⟨ms, hparse, rfl⟩
    | _ => exact (hne rfl).elim
  · cases h

theorem validated {order : MapOrder} {raw : Text} (hfields : unmarshalMCPObject raw = .ok fields)
    (h : validateMCPToolArguments order raw = .ok ()) :
    fields ≠ [] ∧ ∀ m ∈ fields, checkKey fields m.1 = .ok () := by
  obtain ⟨fields', hfields', h⟩ := exists_of_bind_ok h
  cases hfields.symm.trans hfields'
  obtain ⟨-, h⟩ := ok_of_bind_ok h
  obtain ⟨hkeys, h⟩ := ok_of_bind_ok h
  constructor
  · rintro rfl
    cases h
  · intro m hm
    exact checkKey_of_mem hkeys ((order.mem_visit fields m.1).mpr (mem_map_of_mem hm))

theorem validateMCPField_of_checked (hchecked : ∀ m ∈ fields, checkKey fields m.1 = .ok ())
    (htype : callActionProperties.lookup key = some type) (hraw : assigned key fields = some raw) :
    validateMCPField key raw type = .ok () := by
  rcases checkKey_cases (hchecked _ (mem_of_assigned hraw)) with hversion | ⟨-, type', htype', hvalid⟩
  · rw [show key = schemaVersion from hversion] at htype
    cases htype
  · cases htype.symm.trans htype'
    exact hvalid raw hraw

/-! ## Objects -/

def entries (v : Value) : List (Text × Any) := (members v).map fun m => (m.1, (any m.2 .null).1)

theorem keys_entries (v : Value) : (entries v).map Prod.fst = keysOf v := by
  rw [entries, keysOf, List.map_map]
  rfl

theorem anyMap_obj (ms : Members) (old : Option (List (Text × Any))) :
    (anyMap (.obj ms) old).1 = some (old.getD [] ++ entries (.obj ms)) := by
  have hfold : ∀ (l : List (Text × Value)) (acc : List (Text × Any) × Bool),
      (l.foldl (fun acc m => (acc.1 ++ [(unquote m.1, (Decoder.any m.2 .null).1)], acc.2 && (Decoder.any m.2 .null).2))
        acc).1 = acc.1 ++ l.map fun m => (unquote m.1, (Decoder.any m.2 .null).1) := by
    intro l
    induction l with
    | nil => simp
    | cons m l ih =>
      intro acc
      rw [List.foldl_cons, ih]
      simp
  rw [entries, members, List.map_map]
  exact congrArg some (hfold ms.toList (old.getD [], true))

theorem anyMap_object {v : Value} (h : (anyMap v none).1.isSome = true) (old : Option (List (Text × Any))) :
    (anyMap v old).1 = some (old.getD [] ++ entries v) := by
  cases v with
  | obj ms => exact anyMap_obj ms old
  | emptyObj gap => exact congrArg some (append_nil _).symm
  | _ => cases h

def Left (vs : List Value) (k : Text) : Prop :=
  ∃ before v between, vs = before ++ v :: between ∧ .null ∉ between ∧ k ∈ keysOf v

theorem left_concat {w : Value} : Left (vs ++ [w]) key ↔ key ∈ keysOf w ∨ w ≠ .null ∧ Left vs key := by
  constructor
  · rintro ⟨before, v, between, hvs, hnull, hk⟩
    rcases eq_nil_or_concat between with rfl | ⟨between, w', rfl⟩
    · obtain ⟨-, hw⟩ := append_inj' hvs rfl
      cases hw
      exact .inl hk
    rw [concat_eq_append, ← cons_append, ← append_assoc] at hvs
    obtain ⟨rfl, hw⟩ := append_inj' hvs rfl
    cases hw
    rw [concat_eq_append, mem_append, not_or, mem_singleton] at hnull
    exact .inr ⟨Ne.symm hnull.2, before, v, between, rfl, hnull.1, hk⟩
  rintro (hk | ⟨hw, before, v, between, rfl, hnull, hk⟩)
  · exact ⟨vs, w, [], rfl, not_mem_nil, hk⟩
  refine ⟨before, v, between ++ [w], by simp, ?_, hk⟩
  rw [mem_append, not_or, mem_singleton]
  exact ⟨hnull, Ne.symm hw⟩

theorem mem_keys_decoded : key ∈ ((decoded anyMap vs none).getD []).map Prod.fst ↔ Left vs key := by
  induction vs using List.reverseRecOn with
  | nil => simp [decoded, Left]
  | append_singleton vs w ih =>
    rw [left_concat, ← ih, decoded, List.foldl_append, ← decoded]
    change key ∈ (((anyMap w (decoded anyMap vs none)).1).getD []).map Prod.fst ↔ _
    cases w with
    | obj ms =>
      rw [anyMap_obj, Option.getD_some, List.map_append, List.mem_append, keys_entries]
      simp [or_comm]
    | _ => simp [anyMap, Decoder.map, keysOf, members]

theorem covered_of_length_le (h : vs.length ≤ 1) : Covered vs := by
  rintro before v between last rfl
  simp only [length_append, length_cons, length_nil] at h
  omega

theorem covered_concat {last : Value} : Covered (vs ++ [last]) ↔ ∀ k, Left vs k → k ∈ keysOf last := by
  constructor
  · rintro h k ⟨before, v, between, rfl, hnull, hk⟩
    exact h before v between last rfl hnull hk
  intro h before v between last' heq hnull k hk
  obtain ⟨rfl, hlast⟩ := append_inj' heq rfl
  cases hlast
  exact h k ⟨before, v, between, rfl, hnull, hk⟩

theorem assigned_append_eq_iff {l m : List (Text × Any)} :
    (∀ k, assigned k (l ++ m) = assigned k m) ↔ l.map Prod.fst ⊆ m.map Prod.fst := by
  constructor
  · intro h k hk
    by_contra hnot
    have hnone := h k
    rw [assigned_append, assigned_eq_none_iff.mpr hnot, none_or] at hnone
    exact assigned_eq_none_iff.mp hnone hk
  intro h k
  rw [assigned_append]
  cases hm : assigned k m with
  | some x => rfl
  | none =>
    rw [none_or, assigned_eq_none_iff]
    exact fun hk => assigned_eq_none_iff.mp hm (h hk)

theorem sameMap_iff (hobject : ∀ last, assigned name.toList fields = some last → (anyMap last none).1.isSome = true) :
    SameMap (decoded anyMap (valuesOf name fields) none) (valueOf anyMap none name fields) ↔
      Covered (valuesOf name fields) := by
  unfold valueOf
  rw [assigned_eq_getLast?] at hobject ⊢
  rcases eq_nil_or_concat (valuesOf name fields) with hnil | ⟨init, last, hlast⟩
  · rw [hnil]
    exact iff_of_true ⟨Iff.rfl, fun _ => rfl⟩ (covered_of_length_le (Nat.zero_le 1))
  rw [hlast, concat_eq_append, getLast?_concat] at hobject ⊢
  have hmap := anyMap_object (hobject last rfl)
  rw [decoded, foldl_append, ← decoded, covered_concat, map_some, getD_some, hmap]
  change SameMap (anyMap last (decoded anyMap init none)).1 _ ↔ _
  rw [hmap, SameMap, and_iff_right (by simp)]
  simp only [getD_some, getD_none, nil_append, assigned_append_eq_iff, keys_entries]
  exact forall_congr' fun k => imp_congr_left mem_keys_decoded

section

variable {raw : Text} (hfields : unmarshalMCPObject raw = .ok fields) (hne : fields ≠ [])
  (hchecked : ∀ m ∈ fields, checkKey fields m.1 = .ok ()) (hreq : callActionArgs raw = some req)

include hfields hne hchecked hreq

theorem get_callActionArgs (h : Projects get d name) (htype : callActionProperties.lookup name.toList = some type) :
    get req = decoded d (valuesOf name fields) (get .zero) := by
  obtain ⟨ms, hparse, rfl⟩ := obj_of_unmarshal hfields hne
  have hget := get_foldl h (isSome_find? htype) (fun m hm => findField_eq (hchecked m hm)) (.zero, true)
  rw [← hget, members, foldl_map]
  unfold callActionArgs unmarshal at hreq
  rw [hparse] at hreq
  dsimp only [struct] at hreq
  split at hreq
  · next r heq =>
    cases hreq
    exact congrArg (fun out => get out.1) heq.symm
  · cases hreq

theorem text_eq_valueOf {get : CallActionArgs → Text} (h : Projects get .text name)
    (htype : callActionProperties.lookup name.toList = some .text) (hzero : get .zero = []) :
    get req = valueOf .text [] name fields := by
  rw [get_callActionArgs hfields hne hchecked hreq h htype, hzero]
  apply decoded_eq_valueOf
  intro last hlast s
  obtain ⟨value, hvalue, -⟩ := exists_of_bind_ok (validateMCPField_of_checked hchecked htype hlast)
  obtain ⟨t, rfl⟩ := str_of_mcpStringField hvalue
  rfl

theorem object_iff {get : CallActionArgs → Option (List (Text × Any))} (h : Projects get anyMap name)
    (htype : callActionProperties.lookup name.toList = some .object) (hzero : get .zero = none) :
    SameMap (get req) (valueOf anyMap none name fields) ↔ Covered (valuesOf name fields) := by
  rw [get_callActionArgs hfields hne hchecked hreq h htype, hzero]
  apply sameMap_iff
  intro last hlast
  have hchecks := ensure_eq_ok.mp (validateMCPField_of_checked hchecked htype hlast)
  exact (Bool.and_eq_true_iff.mp hchecks).2

end

def inOrder : MapOrder := ⟨fun fields => fields.map Prod.fst, fun _ _ => Iff.rfl⟩

def oneInput : Text := "\x7b\"name\":\"a\",\"input\":\x7b\"x\":1\x7d\x7d"

def twoInputs : Text := "\x7b\"name\":\"a\",\"input\":\x7b\"x\":1\x7d,\"input\":\x7b\x7d\x7d"

end Overture.McpArguments
