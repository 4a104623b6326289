import Overture.Lib.Numbering
import Overture.Lib.Table
import Overture.Coordinator.Definition

/-!
# The effect journal

Before a task is sent to a runtime, one pending row is written for each irreversible node.
The writer numbers the nodes it could read, while the index check of recovery numbers all
nodes of the graph.
-/

namespace Overture

open Json List Numbering

inductive JournalStatus where
  | pending
  | committed
  | failed
deriving DecidableEq, Repr

structure JournalRow where
  tenantID : Text
  taskID : Uuid
  nodeID : Text
  stepIndex : Nat
  effectClass : Text
  status : JournalStatus
deriving DecidableEq

def JournalRow.key (row : JournalRow) : Text × Uuid × Text := (row.tenantID, row.taskID, row.nodeID)

abbrev Journal := Table JournalRow.key

structure EffectNodeInfo where
  (nodeID effectClass : Text)
deriving DecidableEq

def effectNodeID (raw : Value) : Text :=
  match rawMembers raw with
  | none => []
  | some node =>
    match RawMap.field node "node_id" with
    | none => []
    | some rawID => (Decoder.text rawID []).1

def effectNode (raw : Value) : Option EffectNodeInfo :=
  if (effectNodeID raw).isEmpty then none
  else if (nodeEffectClass raw).isEmpty then
    -- a node without a class counts when its text names an irreversible action
    if containsIrreversibleActionToken (Text.toLower raw.print) then
      some ⟨effectNodeID raw, "irreversible"⟩
    else none
  else some ⟨effectNodeID raw, nodeEffectClass raw⟩

def extractEffectNodes (definition : Text) : List EffectNodeInfo :=
  ((rawNodes definition).getD []).filterMap effectNode

def pendingRow (tenantID : Text) (taskID : Uuid) (nodeID : Text) (idx : Nat) : JournalRow :=
  ⟨tenantID, taskID, nodeID, idx, "irreversible", .pending⟩

def pendingRows (tenantID : Text) (taskID : Uuid) (definition : Text) : List JournalRow :=
  ((extractEffectNodes definition).zipIdx.filter fun n => n.1.effectClass == "irreversible".toList).map
    fun n => pendingRow tenantID taskID n.1.nodeID n.2

/-- A row whose key is taken is skipped, one that the database does not accept is logged and lost.
What it accepts beyond the key (column ranges, text encoding, index size) is a parameter. -/
def writeEffectJournalPending (accepts : JournalRow → Bool) (tenantID : Text) (taskID : Uuid) (definition : Text)
    (journal : Journal) : Journal :=
  journal.addAll accepts (pendingRows tenantID taskID definition)

def JournalRow.ofTask (tenantID : Text) (taskID : Uuid) (row : JournalRow) : Bool :=
  row.tenantID == tenantID && row.taskID == taskID

def Journal.rowsOf (journal : Journal) (tenantID : Text) (taskID : Uuid) : List JournalRow :=
  journal.rows.filter (JournalRow.ofTask tenantID taskID)

def irreversibleNodes (definition : Text) : List (Value × Nat) :=
  Numbering.ofAll nodeIrreversible 0 ((rawNodes definition).getD [])

theorem irreversibleNodes_positions (definition : Text) :
    (irreversibleNodes definition).map Prod.snd = irreversibleStepIndexes definition := by
  unfold irreversibleNodes irreversibleStepIndexes
  cases rawNodes definition with
  | none => rfl
  | some nodes => rfl

def expectedRows (tenantID : Text) (taskID : Uuid) (definition : Text) : List JournalRow :=
  (irreversibleNodes definition).map fun n => pendingRow tenantID taskID (effectNodeID n.1) n.2

theorem expectedRows_steps (tenantID : Text) (taskID : Uuid) (definition : Text) :
    (expectedRows tenantID taskID definition).map JournalRow.stepIndex = irreversibleStepIndexes definition := by
  rw [← irreversibleNodes_positions, expectedRows, map_map]
  rfl

def Journalled (node : Value) : Prop :=
  effectNodeID node ≠ [] ∧
    (nodeEffectClass node ≠ [] ∨ containsIrreversibleActionToken (Text.toLower node.print) = true)

variable {node : Value} {definition tenantID : Text} {taskID : Uuid} {journal : Journal} {accepts : JournalRow → Bool}

theorem effectNode_isSome_iff : (effectNode node).isSome = true ↔ Journalled node := by
  unfold effectNode Journalled
  simp only [← List.isEmpty_iff, ne_eq]
  split
  · next h => simp [h]
  next h =>
  split
  · next hclass => split <;> simp_all
  · next hclass => simp_all

theorem effectNode_nodeID {n : EffectNodeInfo} (h : effectNode node = some n) :
    n.nodeID = effectNodeID node := by
  unfold effectNode at h
  split at h
  · cases h
  split at h
  · split at h
    · cases h; rfl
    · cases h
  · cases h; rfl

theorem effectNode_irreversible {n : EffectNodeInfo} (h : effectNode node = some n) :
    (n.effectClass == "irreversible") = nodeIrreversible node := by
  unfold effectNode at h
  unfold nodeIrreversible
  split at h
  · cases h
  split at h
  · next hclass =>
    split at h
    · next htoken => cases h; simp [hclass, htoken]
    · cases h
  · next hclass => cases h; simp [hclass]

/-- The nodes are all kept up to the last irreversible one, the irreversible ones have different ids and
the database accepts their rows. -/
structure JournalFaithful (accepts : JournalRow → Bool) (tenantID : Text) (taskID : Uuid) (definition : Text) :
    Prop where
  kept : ∀ before node after, (rawNodes definition).getD [] = before ++ node :: after →
    nodeIrreversible node = true → ∀ other ∈ before ++ [node], Journalled other
  distinct : ((irreversibleNodes definition).map fun n => effectNodeID n.1).Nodup
  accepted : ∀ row ∈ expectedRows tenantID taskID definition, accepts row = true

theorem completeUpTo_iff :
    Numbering.CompleteUpTo effectNode nodeIrreversible ((rawNodes definition).getD []) ↔
      ∀ before node after, (rawNodes definition).getD [] = before ++ node :: after →
        nodeIrreversible node = true → ∀ other ∈ before ++ [node], Journalled other := by
  simp only [Numbering.CompleteUpTo, effectNode_isSome_iff]

theorem pendingRows_eq (tenantID : Text) (taskID : Uuid) (definition : Text) :
    pendingRows tenantID taskID definition =
      (Numbering.ofKept effectNode (fun n => n.effectClass == "irreversible".toList) 0
        ((rawNodes definition).getD [])).map fun n => pendingRow tenantID taskID n.1.nodeID n.2 := rfl

theorem pendingRows_of_complete
    (h : Numbering.CompleteUpTo effectNode nodeIrreversible ((rawNodes definition).getD [])) :
    pendingRows tenantID taskID definition = expectedRows tenantID taskID definition := by
  rw [pendingRows_eq, ofKept_eq_of_complete (fun _ _ => effectNode_irreversible) 0 h]
  unfold expectedRows irreversibleNodes
  rw [map_filterMap, ← filterMap_eq_map]
  refine filterMap_congr fun n hn => ?_
  -- a selected node is kept, and its row carries its own id
  have hmem := mem_filter.mp hn
  obtain ⟨before, after, hsplit⟩ := append_of_mem (fst_mem_of_mem_zipIdx hmem.1)
  obtain ⟨info, hinfo⟩ := Option.isSome_iff_exists.mp (h before n.1 after hsplit hmem.2 n.1 (by simp))
  simp [hinfo, effectNode_nodeID hinfo]

theorem ofTask_pendingRows :
    ∀ row ∈ pendingRows tenantID taskID definition, row.ofTask tenantID taskID = true := by
  intro row hrow
  obtain ⟨n, -, rfl⟩ := mem_map.mp hrow
  simp [JournalRow.ofTask, pendingRow]

/-- Written to a journal without rows of the task, the task's rows are some of the pending ones, and all
of them exactly when there is room. -/
theorem rowsOf_write (accepts : JournalRow → Bool) (definition : Text)
    (hfresh : journal.rowsOf tenantID taskID = []) :
    ((writeEffectJournalPending accepts tenantID taskID definition journal).rowsOf tenantID taskID).Sublist
        (pendingRows tenantID taskID definition) ∧
      ((writeEffectJournalPending accepts tenantID taskID definition journal).rowsOf tenantID taskID =
          pendingRows tenantID taskID definition ↔
        journal.Room accepts (pendingRows tenantID taskID definition)) := by
  obtain ⟨added, hrows, hsub, hroom⟩ := Table.rows_addAll accepts (pendingRows tenantID taskID definition) journal
  have hadded : added.filter (JournalRow.ofTask tenantID taskID) = added :=
    filter_eq_self.mpr fun row hrow => ofTask_pendingRows row (hsub.subset hrow)
  have hof : (writeEffectJournalPending accepts tenantID taskID definition journal).rowsOf tenantID taskID =
      added := by
    unfold Journal.rowsOf at hfresh ⊢
    rw [writeEffectJournalPending, hrows, filter_append, hfresh, hadded, nil_append]
  rw [hof]
  exact ⟨hsub, hroom⟩

theorem room_expectedRows_iff (hfresh : journal.rowsOf tenantID taskID = []) :
    journal.Room accepts (expectedRows tenantID taskID definition) ↔
      (∀ row ∈ expectedRows tenantID taskID definition, accepts row = true) ∧
        ((irreversibleNodes definition).map fun n => effectNodeID n.1).Nodup := by
  have hkeys : (expectedRows tenantID taskID definition).map JournalRow.key =
      ((irreversibleNodes definition).map fun n => effectNodeID n.1).map fun id => (tenantID, taskID, id) := by
    simp [expectedRows, JournalRow.key, pendingRow, Function.comp_def]
  have hfree : ∀ row ∈ expectedRows tenantID taskID definition, row.key ∉ journal.rows.map JournalRow.key := by
    intro row hrow hmem
    obtain ⟨n, -, rfl⟩ := mem_map.mp hrow
    obtain ⟨old, hold, hkey⟩ := mem_map.mp hmem
    have htask : old.ofTask tenantID taskID = true := by
      simp only [JournalRow.key, pendingRow, Prod.mk.injEq] at hkey
      simp [JournalRow.ofTask, hkey.1, hkey.2.1]
    have hin : old ∈ journal.rowsOf tenantID taskID := mem_filter.mpr ⟨hold, htask⟩
    rw [hfresh] at hin
    exact not_mem_nil hin
  unfold Table.Room
  rw [hkeys, nodup_map_iff (fun a b h => by simpa using h)]
  exact ⟨fun h => ⟨h.1, h.2.1⟩, fun h => ⟨h.1, h.2, hfree⟩⟩

theorem rowsOf_write_of_faithful (hfresh : journal.rowsOf tenantID taskID = [])
    (h : JournalFaithful accepts tenantID taskID definition) :
    (writeEffectJournalPending accepts tenantID taskID definition journal).rowsOf tenantID taskID =
      expectedRows tenantID taskID definition := by
  have hpending : pendingRows tenantID taskID definition = expectedRows tenantID taskID definition :=
    pendingRows_of_complete (completeUpTo_iff.mpr h.kept)
  have hfit : journal.Room accepts (pendingRows tenantID taskID definition) := by
    rw [hpending]
    exact (room_expectedRows_iff hfresh).mpr ⟨h.accepted, h.distinct⟩
  rw [(rowsOf_write accepts definition hfresh).2.mpr hfit, hpending]

theorem faithful_of_steps (hfresh : journal.rowsOf tenantID taskID = [])
    (hperm : (((writeEffectJournalPending accepts tenantID taskID definition journal).rowsOf tenantID taskID).map
      JournalRow.stepIndex).Perm (irreversibleStepIndexes definition)) :
    JournalFaithful accepts tenantID taskID definition := by
  obtain ⟨hsub, hroom⟩ := rowsOf_write accepts definition hfresh
  -- the writer selects no more than there are irreversible nodes, so no pending row was lost
  have hle : (pendingRows tenantID taskID definition).length ≤ (irreversibleStepIndexes definition).length := by
    rw [pendingRows_eq, ← irreversibleNodes_positions, length_map, length_map]
    exact length_ofKept_le (fun _ _ => effectNode_irreversible) 0 0 _
  have hlen := hperm.length_eq
  rw [length_map] at hlen
  have hall := hsub.eq_of_length_le (by omega)
  have hsteps : (pendingRows tenantID taskID definition).map JournalRow.stepIndex =
      (Numbering.ofKept effectNode (fun n => n.effectClass == "irreversible") 0
        ((rawNodes definition).getD [])).map Prod.snd := by
    rw [pendingRows_eq, map_map]
    rfl
  rw [hall, hsteps, ← irreversibleNodes_positions] at hperm
  -- both lists of numbers ascend, so they are equal and not only permuted
  have heq := hperm.eq_of_pairwise (fun a b _ _ hab hba => absurd hab (by omega))
    (pairwise_ofKept 0 _) (pairwise_ofAll 0 _)
  have hcomplete := (complete_of_positions_eq (fun _ _ => effectNode_irreversible) (le_refl 0) heq).1
  have hfit := hroom.mp hall
  rw [pendingRows_of_complete hcomplete, room_expectedRows_iff hfresh] at hfit
  exact ⟨completeUpTo_iff.mp hcomplete, hfit.2, hfit.1⟩

/-- The steps in the journal are the irreversible ones exactly for the graphs that meet the condition, and
then each irreversible node has its one row, under its own id and position. -/
theorem effectJournal_steps_iff (accepts : JournalRow → Bool) (tenantID : Text) (taskID : Uuid) (definition : Text)
    (journal : Journal) (hfresh : journal.rowsOf tenantID taskID = []) :
    ((((writeEffectJournalPending accepts tenantID taskID definition journal).rowsOf tenantID taskID).map
        JournalRow.stepIndex).Perm (irreversibleStepIndexes definition) ↔
      JournalFaithful accepts tenantID taskID definition) ∧
    (JournalFaithful accepts tenantID taskID definition →
      (writeEffectJournalPending accepts tenantID taskID definition journal).rowsOf tenantID taskID =
        expectedRows tenantID taskID definition) := by
  refine ⟨⟨faithful_of_steps hfresh, fun h => ?_⟩, rowsOf_write_of_faithful hfresh⟩
  rw [rowsOf_write_of_faithful hfresh h, expectedRows_steps]

def irreversibleThenUnclassed : Text :=
  "\x7b\"graph\":\x7b\"nodes\":[\x7b\"effect_class\":\"irreversible\",\"kind\":\"tool\",\"node_id\":\"b\",".toList ++
    "\"tool_name\":\"u\"\x7d,\x7b\"kind\":\"tool\",\"node_id\":\"a\",\"tool_name\":\"t\"\x7d]\x7d,".toList ++
    "\"type\":\"execution_graph\"\x7d".toList

theorem effectJournal_steps_iff_first :
    Journal.rowsOf Table.empty [] 7 = [] ∧
      JournalFaithful (fun _ => true) [] 7 irreversibleThenUnclassed :=
  ⟨rfl, (effectJournal_steps_iff (fun _ => true) [] 7 irreversibleThenUnclassed Table.empty rfl).1.mp
    (by decide +kernel)⟩

def unclassedThenIrreversible : Text :=
  "\x7b\"graph\":\x7b\"nodes\":[\x7b\"kind\":\"tool\",\"node_id\":\"a\",\"tool_name\":\"t\"\x7d," ++
    "\x7b\"effect_class\":\"irreversible\",\"kind\":\"tool\",\"node_id\":\"b\",\"tool_name\":\"u\"\x7d]\x7d," ++
    "\"type\":\"execution_graph\"\x7d"

/-- The validator accepts the graph, whose one irreversible node is step 1 and is journalled as step 0. -/
theorem effectJournal_shifted_step :
    (normalizePublicTaskDefinition "execution_graph".toList unclassedThenIrreversible).toOption =
        some unclassedThenIrreversible ∧
      irreversibleStepIndexes unclassedThenIrreversible = [1] ∧
      ((writeEffectJournalPending (fun _ => true) [] 7 unclassedThenIrreversible Table.empty).rowsOf [] 7).map
        JournalRow.stepIndex = [0] := by
  refine ⟨?_, ?_, ?_⟩ <;> decide +kernel

end Overture
