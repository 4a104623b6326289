import Overture.Lib.Json.Struct
import Overture.Coordinator.Definition

/-!
# The gates of an accepted definition

The validator reads exact keys, the policy decodes structs: a member counts for it under any case of its name, a later
member of one name replaces an earlier one, and one member of the wrong type makes it give up the graph. Here is when
what the policy has in view includes the nodes the validator has seen.
-/

namespace Overture

open Json Decoder Slice Value Option

def nodeArrays (v : Value) : List Value := (v.named "graph").flatMap (named "nodes")

def graphShape (v : Value) : Bool :=
  v.objectOrNull && (v.named "graph").all objectOrNull && (nodeArrays v).all arrayOrNull

def nodesInView (v : Value) : List Value := ((nodeArrays v).getLast?.map elements).getD []

variable {σ : Type} {v : Value} {definition : Text}

theorem graphNodes_eq (zero : σ) (d : Decoder σ) (v : Value) (old : Slice σ) :
    graphNodes zero d v old =
      ((decodeAll (slice zero d) (nodeArrays v) (old, true)).1,
        v.objectOrNull && ((v.named "graph").all objectOrNull &&
          (decodeAll (slice zero d) (nodeArrays v) (old, true)).2)) := by
  have hstruct : graphNodes zero d = single "graph" (single "nodes" (slice zero d)) := rfl
  rw [hstruct, single_eq, decodeAll_flag, decodeAll_single]
  rfl

theorem arrayOrNull_of_slice {zero : σ} {d : Decoder σ} {old : Slice σ}
    (h : (slice zero d v old).2 = true) : v.arrayOrNull = true := by
  cases v <;> first | rfl | simp [slice] at h

theorem decodeAll_slice (zero : σ) (d : Decoder σ) (arrays : List Value) {old : Slice σ} (hold : old.Full)
    (hok : (decodeAll (slice zero d) arrays (old, true)).2 = true) :
    (decodeAll (slice zero d) arrays (old, true)).1.Full ∧ arrays.all arrayOrNull = true ∧
      (decodeAll (slice zero d) arrays (old, true)).1.len =
        (arrays.getLast?.map fun a => a.elements.length).getD old.len := by
  induction arrays generalizing old with
  | nil => exact ⟨hold, rfl, rfl⟩
  | cons a arrays ih =>
    rw [decodeAll_cons, Bool.true_and, decodeAll_flag, Bool.and_eq_true] at hok
    obtain ⟨ha, hrest⟩ := hok
    have harr := arrayOrNull_of_slice ha
    obtain ⟨hfull, hall, hlen⟩ := ih (slice_full zero d a hold) hrest
    rw [decodeAll_cons, Bool.true_and, ha]
    refine ⟨hfull, by simp [harr, hall], ?_⟩
    rw [hlen, slice_len zero d harr]
    cases arrays with
    | nil => rfl
    | cons b arrays => simp [List.getLast?_cons]

theorem slice_raw_flag (v : Value) (old : Slice (Option Value)) :
    (slice none raw v old).2 = v.arrayOrNull := by
  cases v with
  | arr items => exact (decodeItems_flag none raw items.toList old.cells).mpr fun _ _ _ => rfl
  | _ => rfl

theorem decodeAll_raw_flag (arrays : List Value) (old : Slice (Option Value)) :
    (decodeAll (slice none raw) arrays (old, true)).2 = arrays.all arrayOrNull := by
  induction arrays generalizing old with
  | nil => rfl
  | cons a arrays ih => rw [decodeAll_cons, decodeAll_flag, ih, slice_raw_flag]; simp

theorem slice_raw_elements (hv : v.arrayOrNull = true) (old : Slice (Option Value)) :
    (Decoder.slice none Decoder.raw v old).1.toList.filterMap id = v.elements := by
  cases v with
  | arr items =>
    have hcells (vs : List Value) (cells : List (Option Value)) :
        ((decodeItems none Decoder.raw vs cells).1.take vs.length) = vs.map some := by
      induction vs generalizing cells with
      | nil => simp
      | cons w vs ih => simp [decodeItems, Decoder.raw, ih]
    simp [Decoder.slice, Slice.toList, hcells, Value.elements]
  | emptyArr gap => rfl
  | null => rfl
  | _ => simp [Value.arrayOrNull] at hv

theorem decodeAll_raw_elements (arrays : List Value) (hall : arrays.all arrayOrNull = true)
    (old : Slice (Option Value)) :
    (decodeAll (slice none raw) arrays (old, true)).1.toList.filterMap id =
      (arrays.getLast?.map elements).getD (old.toList.filterMap id) := by
  induction arrays generalizing old with
  | nil => rfl
  | cons a arrays ih =>
    rw [List.all_cons, Bool.and_eq_true] at hall
    rw [decodeAll_cons, Bool.true_and, slice_raw_flag, hall.1, ih hall.2, slice_raw_elements hall.1]
    cases arrays with
    | nil => rfl
    | cons b arrays => simp [List.getLast?_cons]

theorem rawNodes_eq (definition : Text) :
    rawNodes definition = (parse definition).bind fun v => if graphShape v then some (nodesInView v) else none := by
  unfold rawNodes unmarshal
  cases parse definition with
  | none => rfl
  | some v =>
    have hflag : (v.objectOrNull && ((v.named "graph").all objectOrNull &&
        (nodeArrays v).all arrayOrNull)) = graphShape v := by rw [graphShape, Bool.and_assoc]
    simp only [bind_some, graphNodes_eq, decodeAll_raw_flag, hflag]
    split
    · next hshape =>
      have hall : (nodeArrays v).all arrayOrNull = true := by
        simp only [graphShape, Bool.and_eq_true] at hshape
        exact hshape.2
      rw [decodeAll_raw_elements _ hall]
      rfl
    · rfl

def IrreversibleInView (definition : Text) : Prop :=
  (∃ v, parse definition = some v ∧ graphShape v = true ∧ ∃ node ∈ nodesInView v, nodeIrreversible node = true) ∨
    ((∀ v, parse definition = some v → graphShape v = true → nodesInView v = []) ∧
      containsIrreversibleActionToken (Text.toLower definition) = true)

theorem taskHasIrreversibleAction_iff_inView (definition : Text) :
    taskHasIrreversibleAction definition = true ↔ IrreversibleInView definition := by
  unfold taskHasIrreversibleAction IrreversibleInView
  rw [rawNodes_eq]
  cases parse definition with
  | none => simp
  | some v =>
    simp only [bind_some, some.injEq, exists_eq_left', forall_eq']
    cases hshape : graphShape v with
    | false => simp
    | true => cases hview : nodesInView v <;> simp

/-! ## Approval -/

def elementShape (element : Value) : Bool :=
  element.objectOrNull && (element.named "metadata").all objectOrNull

def assignMetadata (old : RawMap) (member : Value) : RawMap := (map none raw member old).1

/-- The metadata that builds up at one position over the arrays: an element is decoded over what an earlier
array left there, and an array that is empty or null starts afresh. -/
def metadataAt (i : Nat) (arrays : List Value) (old : RawMap) : RawMap :=
  arrays.foldl (fun old a =>
    match a with
    | .arr items =>
      match items.toList[i]? with
      | some element => (element.named "metadata").foldl assignMetadata old
      | none => old
    | _ => none) old

def approvalDeclared (metadata : RawMap) : Bool :=
  match lookup metadata "approval_required" with
  | some (some raw) => bool raw false == (true, true)
  | _ => false

theorem map_raw_flag (v : Value) (old : RawMap) : (map none raw v old).2 = v.objectOrNull := by
  cases v with
  | obj members =>
    have hfold (ms : List (Text × Value)) (acc : List (Text × Option Value) × Bool) :
        (ms.foldl (fun acc m => (acc.1 ++ [(unquote m.1, (raw m.2 none).1)],
          acc.2 && (raw m.2 none).2)) acc).2 = acc.2 := by
      induction ms generalizing acc with
      | nil => rfl
      | cons m ms ih => rw [List.foldl_cons, ih]; simp [raw]
    exact hfold members.toList (old.getD [], true)
  | _ => rfl

theorem decodeAll_map_raw (members : List Value) (old : RawMap) :
    decodeAll (map none raw) members (old, true) =
      (members.foldl assignMetadata old, members.all objectOrNull) := by
  induction members generalizing old with
  | nil => rfl
  | cons m members ih =>
    rw [decodeAll_cons, decodeAll_flag, ih, map_raw_flag]; simp [assignMetadata]

theorem metadataField_eq (element : Value) (old : RawMap) :
    metadataField none raw element old =
      ((element.named "metadata").foldl assignMetadata old, elementShape element) := by
  have hstruct : metadataField none raw = single "metadata" (map none raw) := rfl
  rw [hstruct, single_eq, decodeAll_flag, decodeAll_map_raw]
  rfl

theorem slice_metadata_flag (a : Value) (old : Slice RawMap) :
    (slice none (metadataField none raw) a old).2 =
      (a.arrayOrNull && a.elements.all elementShape) := by
  cases a with
  | arr items =>
    rw [Bool.eq_iff_iff]
    refine (decodeItems_flag none (metadataField none raw) items.toList old.cells).trans ?_
    simp only [metadataField_eq, arrayOrNull, elements, Bool.true_and, List.all_eq_true]
    constructor
    · intro h element hmem
      obtain ⟨i, hi⟩ := List.getElem?_of_mem hmem
      exact h i element hi
    · intro h i element hi
      exact h element (List.mem_of_getElem? hi)
  | _ => rfl

theorem slice_metadata_at (a : Value) (ha : a.arrayOrNull = true) (old : Slice RawMap) (i : Nat) :
    (Decoder.slice none (metadataField none Decoder.raw) a old).1.at none i = metadataAt i [a] (old.at none i) := by
  cases a with
  | arr items =>
    simp only [Slice.at, Decoder.slice, decodeItems_at, metadataAt, List.foldl_cons, List.foldl_nil]
    cases items.toList[i]? with
    | none => rfl
    | some element => exact congrArg Prod.fst (metadataField_eq element _)
  | emptyArr gap => rfl
  | null => rfl
  | _ => simp [Value.arrayOrNull] at ha

theorem decodeAll_metadata (arrays : List Value) (old : Slice RawMap) :
    (decodeAll (slice none (metadataField none raw)) arrays (old, true)).2 =
        (arrays.all arrayOrNull && arrays.all fun a => a.elements.all elementShape) ∧
      (arrays.all arrayOrNull = true → ∀ i,
        (decodeAll (slice none (metadataField none raw)) arrays (old, true)).1.at none i =
          metadataAt i arrays (old.at none i)) := by
  induction arrays generalizing old with
  | nil => exact ⟨rfl, fun _ _ => rfl⟩
  | cons a arrays ih =>
    obtain ⟨ihFlag, ihAt⟩ := ih (slice none (metadataField none raw) a old).1
    rw [decodeAll_cons, decodeAll_flag, ihFlag, slice_metadata_flag]
    refine ⟨?_, fun hall i => ?_⟩
    · simp only [List.all_cons, Bool.true_and]
      grind
    rw [List.all_cons, Bool.and_eq_true] at hall
    rw [ihAt hall.2 i, slice_metadata_at a hall.1 old i]
    rfl

def approvalShape (v : Value) : Bool :=
  graphShape v && (nodeArrays v).all fun a => a.elements.all elementShape

theorem nodeMetadata_eq (definition : Text) :
    nodeMetadata none raw definition = (parse definition).bind fun v =>
      if approvalShape v then
        some ((List.range (nodesInView v).length).map fun i => metadataAt i (nodeArrays v) none)
      else none := by
  unfold nodeMetadata unmarshal
  cases parse definition with
  | none => rfl
  | some v =>
    obtain ⟨hflag, hat⟩ := decodeAll_metadata (nodeArrays v) empty
    have hshape : (v.objectOrNull && ((v.named "graph").all objectOrNull &&
        (decodeAll (slice none (metadataField none raw)) (nodeArrays v) (empty, true)).2)) =
        approvalShape v := by
      rw [hflag, approvalShape, graphShape]
      simp only [Bool.and_assoc]
    simp only [bind_some, graphNodes_eq, hshape]
    split
    · next hok =>
      have hdecoded : (decodeAll (slice none (metadataField none raw)) (nodeArrays v)
          (empty, true)).2 = true := by
        rw [← hshape, Bool.and_eq_true, Bool.and_eq_true] at hok
        exact hok.2.2
      obtain ⟨hfull, hall, hlen⟩ := decodeAll_slice none _ (nodeArrays v) full_empty hdecoded
      rw [toList_eq none hfull, hlen]
      have hcount : ((nodeArrays v).getLast?.map fun a => a.elements.length).getD (empty : Slice RawMap).len =
          (nodesInView v).length := by
        unfold nodesInView
        cases (nodeArrays v).getLast? <;> rfl
      rw [hcount]
      refine congrArg some (List.map_congr_left fun i _ => ?_)
      rw [hat hall i]
      rfl
    · rfl

def ApprovalInView (definition : Text) : Prop :=
  ((Text.toLower definition).contains "\"approval\"" = true ∧
      ((Text.toLower definition).contains "\"required\":true" = true ∨
        (Text.toLower definition).contains "\"human_approval\"" = true)) ∨
    ∃ v, parse definition = some v ∧ approvalShape v = true ∧
      ∃ i < (nodesInView v).length, approvalDeclared (metadataAt i (nodeArrays v) none) = true

theorem taskRequiresHumanApproval_iff_inView (definition : Text) :
    taskRequiresHumanApproval definition = true ↔ ApprovalInView definition := by
  unfold taskRequiresHumanApproval ApprovalInView
  rw [nodeMetadata_eq]
  dsimp only
  split
  · next h =>
    simp only [Bool.and_eq_true, Bool.or_eq_true] at h
    exact iff_of_true rfl (.inl h)
  next h =>
  simp only [Bool.and_eq_true, Bool.or_eq_true] at h
  rw [or_iff_right h]
  cases parse definition with
  | none => simp
  | some v =>
    simp only [bind_some, some.injEq, exists_eq_left']
    cases approvalShape v with
    | false => simp
    | true =>
      change ((List.range (nodesInView v).length).map fun i => metadataAt i (nodeArrays v) none).any
        approvalDeclared = true ↔ _
      simp only [List.any_map, List.any_eq_true, List.mem_range, Function.comp_apply, true_and]

/-! ## Bound contracts

A bound contract reads its approval flag from the same metadata, so it never asks for an approval that the
check on the metadata does not ask for. -/

def SameAssignment (a : Text × Any) (r : Text × Option Value) : Prop :=
  a.1 = r.1 ∧ ∃ v, r.2 = some v ∧ v.toAny = some a.2

def SameMetadata (a : Option (List (Text × Any))) (r : RawMap) : Prop :=
  List.Forall₂ SameAssignment (a.getD []) (r.getD [])

def assignAll {σ : Type} (zero : σ) (d : Decoder σ) (ms : List (Text × Value)) (acc : List (Text × σ) × Bool) :
    List (Text × σ) × Bool :=
  ms.foldl (fun acc m => (acc.1 ++ [(unquote m.1, (d m.2 zero).1)], acc.2 && (d m.2 zero).2)) acc

theorem assignAll_flag (zero : σ) (d : Decoder σ) (ms : List (Text × Value)) (l : List (Text × σ))
    {ok : Bool} (h : (assignAll zero d ms (l, ok)).2 = true) : ok = true := by
  induction ms generalizing l ok with
  | nil => exact h
  | cons m ms ih => exact (Bool.and_eq_true _ _ ▸ ih _ h).1

theorem assignAll_same (ms : List (Text × Value)) {l : List (Text × Any)} {l' : List (Text × Option Value)}
    (hl : List.Forall₂ SameAssignment l l') (h : (assignAll .null any ms (l, true)).2 = true) :
    (assignAll none raw ms (l', true)).2 = true ∧
      List.Forall₂ SameAssignment (assignAll .null any ms (l, true)).1
        (assignAll none raw ms (l', true)).1 := by
  induction ms generalizing l l' with
  | nil => exact ⟨rfl, hl⟩
  | cons m ms ih =>
    have hm : (any m.2 .null).2 = true := assignAll_flag .null any ms _ h
    simp only [assignAll, List.foldl_cons, Bool.true_and] at h ⊢
    rw [hm] at h ⊢
    refine ih (List.rel_append hl (.cons ⟨rfl, m.2, rfl, ?_⟩ .nil)) h
    unfold any at hm ⊢
    cases hany : m.2.toAny with
    | none => simp [hany] at hm
    | some a => rfl

theorem simulates_map : Simulates SameMetadata (map .null any) (map none raw) := by
  intro v s t hR hok
  cases v with
  | obj members => exact assignAll_same members.toList hR hok
  | emptyObj gap => exact ⟨rfl, hR⟩
  | null => exact ⟨rfl, .nil⟩
  | _ => simp [map] at hok

theorem simulates_graphNodes :
    Simulates (Slice.Rel SameMetadata none none) (graphNodes none (metadataField .null any))
      (graphNodes none (metadataField none raw)) := by
  have hzero : SameMetadata none none := .nil
  exact (((simulates_map.single "metadata").slice hzero).single "nodes").single "graph"

theorem find?_same {l : List (Text × Any)} {l' : List (Text × Option Value)} (h : List.Forall₂ SameAssignment l l')
    {key : Text} {a : Text × Any} (hfind : l.find? (fun e => e.1 == key) = some a) :
    ∃ r, l'.find? (fun e => e.1 == key) = some r ∧ SameAssignment a r := by
  induction h with
  | nil => simp at hfind
  | @cons b r l l' hbr hrest ih =>
    rw [List.find?_cons] at hfind ⊢
    rw [← hbr.1]
    split at hfind
    · cases hfind
      exact ⟨r, rfl, hbr⟩
    · exact ih hfind

theorem lookup_same {a : Option (List (Text × Any))} {r : RawMap} (h : SameMetadata a r) {key : Text} {x : Any}
    (hlookup : lookup a key = some x) : ∃ v, lookup r key = some (some v) ∧ v.toAny = some x := by
  obtain ⟨e, hfind, rfl⟩ := map_eq_some_iff.mp hlookup
  obtain ⟨e', hfind', -, v, hv, hany⟩ := find?_same (List.rel_reverse h) hfind
  exact ⟨v, by rw [lookup, hfind', map_some, hv], hany⟩

theorem toAny_bool {b : Bool} (h : v.toAny = some (.bool b)) : v = .bool b := by
  cases v with
  | bool c => simpa [toAny] using h
  | _ => simp [toAny] at h

theorem approvalDeclared_of_same {a : Option (List (Text × Any))} {r : RawMap} (h : SameMetadata a r)
    (hbool : anyBool (lookup a "approval_required") = true) : approvalDeclared r = true := by
  unfold approvalDeclared
  generalize "approval_required" = key at hbool ⊢
  cases hlookup : lookup a key with
  | none => simp [hlookup, anyBool] at hbool
  | some x =>
    obtain ⟨v, hv, hany⟩ := lookup_same h hlookup
    have htrue : x = .bool true := by
      rw [hlookup] at hbool
      cases x with
      | bool b => exact congrArg Any.bool hbool
      | _ => simp [anyBool] at hbool
    obtain rfl : v = .bool true := toAny_bool (by rw [hany, htrue])
    rw [hv]
    rfl

theorem nodeBoundPolicy_approval {metadata : Option (List (Text × Any))} {bound : BoundActionPolicy}
    (h : nodeBoundPolicy metadata = some bound) :
    bound.approvalRequired = anyBool (lookup metadata "approval_required") := by
  unfold nodeBoundPolicy at h
  dsimp only at h
  split at h
  · cases h
  · cases h
    rfl

theorem graphNodes_full {zero : σ} {d : Decoder σ}
    (h : (graphNodes zero d v empty).2 = true) : (graphNodes zero d v empty).1.Full := by
  rw [graphNodes_eq, Bool.and_eq_true, Bool.and_eq_true] at h
  rw [graphNodes_eq]
  exact (decodeAll_slice zero d (nodeArrays v) full_empty h.2.2).1

theorem extractBoundActionPolicy_approval
    (h : (extractBoundActionPolicy definition).approvalRequired = true) :
    ∃ nodes, nodeMetadata .null any definition = some nodes ∧
      ∃ metadata ∈ nodes, anyBool (lookup metadata "approval_required") = true := by
  unfold extractBoundActionPolicy at h
  cases hnodes : nodeMetadata .null any definition with
  | none => rw [hnodes] at h; cases h
  | some nodes =>
    rw [hnodes] at h
    dsimp only at h
    cases hfind : nodes.findSome? nodeBoundPolicy with
    | none => rw [hfind] at h; cases h
    | some bound =>
      rw [hfind, getD_some] at h
      obtain ⟨metadata, hmem, hbound⟩ := List.exists_of_findSome?_eq_some hfind
      exact ⟨nodes, rfl, metadata, hmem, nodeBoundPolicy_approval hbound ▸ h⟩

theorem nodeMetadata_same {nodes : List (Option (List (Text × Any)))}
    (h : nodeMetadata .null any definition = some nodes) :
    ∃ raws, nodeMetadata none raw definition = some raws ∧
      ∀ metadata ∈ nodes, ∃ raw ∈ raws, SameMetadata metadata raw := by
  unfold nodeMetadata unmarshal at h ⊢
  cases hparse : parse definition with
  | none => simp [hparse] at h
  | some v =>
    simp only [hparse] at h ⊢
    split at h
    · next hok =>
      cases h
      obtain ⟨hok', hlen, hat⟩ := simulates_graphNodes v empty empty ⟨rfl, fun _ => .nil⟩ hok
      refine ⟨_, if_pos hok', fun metadata hmem => ?_⟩
      rw [toList_eq none (graphNodes_full hok)] at hmem
      obtain ⟨i, hi, rfl⟩ := List.mem_map.mp hmem
      rw [toList_eq none (graphNodes_full hok')]
      exact ⟨_, List.mem_map.mpr ⟨i, by rwa [← hlen], rfl⟩, hat i⟩
    · cases h

theorem taskRequiresHumanApproval_of_bound
    (h : (extractBoundActionPolicy definition).approvalRequired = true) :
    taskRequiresHumanApproval definition = true := by
  obtain ⟨nodes, hnodes, metadata, hmem, hbool⟩ := extractBoundActionPolicy_approval h
  obtain ⟨raws, hraws, hsame⟩ := nodeMetadata_same hnodes
  obtain ⟨raw, hraw, hrel⟩ := hsame metadata hmem
  unfold taskRequiresHumanApproval
  rw [hraws]
  dsimp only
  split
  · rfl
  · exact List.any_eq_true.mpr ⟨raw, hraw, approvalDeclared_of_same hrel hbool⟩

/-! ## The decision -/

theorem evaluateActionPolicy_nonRetryable {input : ActionPolicyInput}
    (h : taskHasIrreversibleAction input.taskDefinition = true) :
    (evaluateActionPolicy input).replayClass = .nonRetryable := by
  unfold evaluateActionPolicy
  simp only [h, if_true, ite_self]

theorem evaluateActionPolicy_humanGated (input : ActionPolicyInput) :
    (evaluateActionPolicy input).humanGated = taskRequiresHumanApproval input.taskDefinition := by
  change (taskRequiresHumanApproval input.taskDefinition ||
    ((extractBoundActionPolicy input.taskDefinition).present &&
      (extractBoundActionPolicy input.taskDefinition).approvalRequired)) = _
  cases happroval : (extractBoundActionPolicy input.taskDefinition).approvalRequired with
  | false => simp
  | true => simp [taskRequiresHumanApproval_of_bound happroval]

theorem evaluateActionPolicy_gated {input : ActionPolicyInput}
    (h : taskRequiresHumanApproval input.taskDefinition = true) :
    (evaluateActionPolicy input).decision ≠ .allowed ∧
      (input.recoveryAttempt = false → (evaluateActionPolicy input).decision = .approvalRequired) := by
  unfold evaluateActionPolicy
  simp only [h, Bool.true_or, if_true]
  refine ⟨?_, fun hrec => by simp [hrec]⟩
  split
  · simp
  · split <;> simp

def validatedNodes (raw : Text) : List Value :=
  match ((parse raw).bind rawMembers).map graphNodesField with
  | some (.ok nodes) => nodes
  | _ => []

def declaresApproval (node : Value) : Bool :=
  (((rawMembers node).bind fun m => RawMap.field m "metadata").bind rawMembers).any approvalDeclared

/-- An irreversible node makes the policy report the task irreversible and not to be retried, and a node that
asks for approval makes it ask for one. -/
def GatesHold (raw definition : Text) : Prop :=
  ∀ input : ActionPolicyInput, input.taskDefinition = definition →
    ((∃ node ∈ validatedNodes raw, nodeEffectClass node = "irreversible") →
      (evaluateActionPolicy input).irreversible = true ∧ (evaluateActionPolicy input).replayClass = .nonRetryable) ∧
    ((∃ node ∈ validatedNodes raw, declaresApproval node = true) →
      (evaluateActionPolicy input).humanGated = true ∧ (evaluateActionPolicy input).decision ≠ .allowed ∧
        (input.recoveryAttempt = false → (evaluateActionPolicy input).decision = .approvalRequired))

/-- Neither gate of an accepted graph can be switched off exactly when what sets it is in view. -/
theorem gatesHold_iff (raw definition : Text)
    (_haccepted : normalizePublicTaskDefinition "execution_graph".toList raw = .ok definition) :
    GatesHold raw definition ↔
      ((∃ node ∈ validatedNodes raw, nodeEffectClass node = "irreversible".toList) → IrreversibleInView definition) ∧
        ((∃ node ∈ validatedNodes raw, declaresApproval node = true) → ApprovalInView definition) := by
  rw [← taskHasIrreversibleAction_iff_inView, ← taskRequiresHumanApproval_iff_inView]
  constructor
  · intro h
    obtain ⟨hirr, happ⟩ := h ⟨[], 0, [], definition, [], [], none, false⟩ rfl
    exact ⟨fun hnode => (hirr hnode).1, fun hnode => (evaluateActionPolicy_humanGated _).symm.trans (happ hnode).1⟩
  rintro ⟨hirr, happ⟩ input rfl
  refine ⟨fun hnode => ⟨hirr hnode, evaluateActionPolicy_nonRetryable (hirr hnode)⟩, fun hnode => ?_⟩
  exact ⟨(evaluateActionPolicy_humanGated input).trans (happ hnode), evaluateActionPolicy_gated (happ hnode)⟩

def gatedGraph : Text :=
  "\x7b\"graph\":\x7b\"nodes\":[\x7b\"effect_class\":\"irreversible\",\"kind\":\"tool\",\"metadata\":" ++
    "\x7b\"approval_required\":true\x7d,\"node_id\":\"a\",\"tool_name\":\"t\"\x7d]\x7d," ++
    "\"type\":\"execution_graph\"\x7d"

theorem accepted_of_toOption {taskType raw : Text}
    (h : (normalizePublicTaskDefinition taskType raw).toOption = some definition) :
    normalizePublicTaskDefinition taskType raw = .ok definition := by
  cases hresult : normalizePublicTaskDefinition taskType raw with
  | error e =>
    rw [hresult] at h
    cases h
  | ok d =>
    rw [hresult] at h
    cases h
    rfl

theorem gatesHold_iff_gated : GatesHold gatedGraph gatedGraph :=
  (gatesHold_iff gatedGraph gatedGraph (accepted_of_toOption (by decide +kernel))).mpr
    ⟨fun _ => (taskHasIrreversibleAction_iff_inView gatedGraph).mp (by decide +kernel),
      fun _ => (taskRequiresHumanApproval_iff_inView gatedGraph).mp (by decide +kernel)⟩

def shadowedNodes : Text :=
  "\x7b\"graph\":\x7b\"nodes\":[\x7b\"effect_class\":\"irreversible\",\"kind\":\"tool\",\"metadata\":" ++
    "\x7b\"approval_required\":true\x7d,\"node_id\":\"a\",\"tool_name\":\"t\"\x7d]," ++
    "\"Nodes\":[\x7b\"effect_class\":\"retryable\",\"metadata\":null\x7d]\x7d,\"type\":\"execution_graph\"\x7d"

def spoiltMetadata : Text :=
  "\x7b\"graph\":\x7b\"nodes\":[\x7b\"kind\":\"tool\",\"metadata\":\x7b\"approval_required\":true\x7d," ++
    "\"node_id\":\"a\",\"tool_name\":\"t\"\x7d,\x7b\"kind\":\"tool\",\"metadata\":1,\"node_id\":\"b\"," ++
    "\"tool_name\":\"u\"\x7d]\x7d,\"type\":\"execution_graph\"\x7d"

/-- Both graphs are accepted; the first loses both gates, the second its approval. -/
theorem gates_switched_off :
    ((normalizePublicTaskDefinition "execution_graph".toList shadowedNodes).toOption = some shadowedNodes ∧
      (validatedNodes shadowedNodes).any (fun node => nodeEffectClass node == "irreversible".toList) = true ∧
      (evaluateActionPolicy ⟨[], 0, [], shadowedNodes, [], [], none, false⟩).irreversible = false ∧
      (validatedNodes shadowedNodes).any declaresApproval = true ∧
      (evaluateActionPolicy ⟨[], 0, [], shadowedNodes, [], [], none, false⟩).decision = .allowed) ∧
    (normalizePublicTaskDefinition "execution_graph".toList spoiltMetadata).toOption = some spoiltMetadata ∧
      (validatedNodes spoiltMetadata).any declaresApproval = true ∧
      (evaluateActionPolicy ⟨[], 0, [], spoiltMetadata, [], [], none, false⟩).decision = .allowed := by
  refine ⟨⟨?_, ?_, ?_, ?_, ?_⟩, ?_, ?_, ?_⟩ <;> decide +kernel

end Overture
