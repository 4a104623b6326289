import Overture.Coordinator.Policy

/-!
# The recovery hand-off gate

A task may be handed to another runtime only with a usable checkpoint that lies before
every irreversible step the graph of its definition shows.
-/

namespace Overture

open Json List

variable {definition : Text}

theorem mem_irreversibleStepIndexes {i : Nat} :
    i ∈ irreversibleStepIndexes definition ↔
      ∃ nodes, rawNodes definition = some nodes ∧ ∃ node, nodes[i]? = some node ∧ nodeIrreversible node = true := by
  unfold irreversibleStepIndexes
  cases rawNodes definition with
  | none => simp
  | some nodes => simp [mem_zipIdx_iff_getElem?]

theorem taskHasIrreversibleAction_iff {nodes : List Value}
    (hnodes : rawNodes definition = some nodes) (hne : nodes ≠ []) :
    taskHasIrreversibleAction definition = true ↔ irreversibleStepIndexes definition ≠ [] := by
  have hany : taskHasIrreversibleAction definition = nodes.any nodeIrreversible := by
    unfold taskHasIrreversibleAction
    rw [hnodes]
    cases nodes with
    | nil => exact absurd rfl hne
    | cons node rest => rfl
  rw [hany, any_eq_true]
  constructor
  · rintro ⟨node, hmem, hirr⟩
    obtain ⟨i, hi⟩ := getElem?_of_mem hmem
    exact ne_nil_of_mem (mem_irreversibleStepIndexes.mpr ⟨nodes, hnodes, node, hi, hirr⟩)
  intro hindexes
  obtain ⟨i, hi⟩ := exists_mem_of_ne_nil _ hindexes
  obtain ⟨nodes', hnodes', node, hnode, hirr⟩ := mem_irreversibleStepIndexes.mp hi
  obtain rfl : nodes = nodes' := by simpa [hnodes] using hnodes'
  exact ⟨node, mem_of_getElem? hnode, hirr⟩

theorem taskHasIrreversibleAction_of_mem {i : Nat}
    (hi : i ∈ irreversibleStepIndexes definition) : taskHasIrreversibleAction definition = true := by
  obtain ⟨nodes, hnodes, node, hnode, -⟩ := mem_irreversibleStepIndexes.mp hi
  have hne : nodes ≠ [] := ne_nil_of_mem (mem_of_getElem? hnode)
  exact (taskHasIrreversibleAction_iff hnodes hne).mpr (ne_nil_of_mem hi)

theorem forwardResumeSafe_spec {taskID : Uuid} {cp : Option CheckpointPayload}
    (hsafe : recoveryForwardResumeSafe taskID definition cp = true)
    (hirr : taskHasIrreversibleAction definition = true) :
    irreversibleStepIndexes definition ≠ [] ∧
      ∃ p, cp = some p ∧ ∀ i ∈ irreversibleStepIndexes definition, p.watermark.toNat < i := by
  unfold recoveryForwardResumeSafe at hsafe
  rw [hirr] at hsafe
  cases cp with
  | none => simp at hsafe
  | some p =>
    simp only [Bool.not_true, Bool.false_eq_true, if_false, Bool.not_eq_true'] at hsafe
    split at hsafe
    · simp at hsafe
    split at hsafe
    · simp at hsafe
    next hne =>
    refine ⟨by simpa using hne, p, rfl, fun i hi => ?_⟩
    simpa using all_eq_true.mp hsafe i hi

/-- The decision of a recovery attempt allows the hand-off only without a human gate, with a usable
checkpoint and, for an irreversible task, with proof of forward resume. -/
theorem evaluateActionPolicy_allowed {input : ActionPolicyInput} (hrec : input.recoveryAttempt = true)
    (h : (evaluateActionPolicy input).decision = .allowed) :
    (evaluateActionPolicy input).humanGated = false ∧
      taskRecoveryCheckpointUsable input.taskID input.checkpoint = true ∧
      (taskHasIrreversibleAction input.taskDefinition = true →
        recoveryForwardResumeSafe input.taskID input.taskDefinition input.checkpoint = true) := by
  simp only [evaluateActionPolicy, hrec, Bool.true_and, apply_ite Prod.fst, ite_self] at h ⊢
  generalize taskRecoveryCheckpointUsable input.taskID input.checkpoint = usable at h ⊢
  generalize recoveryForwardResumeSafe input.taskID input.taskDefinition input.checkpoint = safe at h ⊢
  generalize taskHasIrreversibleAction input.taskDefinition = irreversible at h ⊢
  generalize (taskRequiresHumanApproval input.taskDefinition || _) = gated at h ⊢
  cases usable <;> cases safe <;> cases irreversible <;> cases gated <;> simp_all

theorem recoveryHandoffAllowed_imp {task : TaskRecord} {checkpoint : Option CheckpointPayload} {target : Text}
    {decision : ActionPolicyDecision}
    (h : (recoveryHandoffAllowed (some task) checkpoint target decision).1 = true) :
    decision.decision = .allowed ∧
      (decision.irreversible = true →
        recoveryForwardResumeSafe task.taskID task.taskDefinition checkpoint = true) := by
  simp only [recoveryHandoffAllowed] at h
  split at h
  · simp at h
  next hallowed =>
  split at h
  · simp at h
  · next hsafe => exact ⟨by simpa using hallowed, by simpa using hsafe⟩

structure RecoveryInput (task : TaskRecord) (checkpoint : Option CheckpointPayload)
    (input : ActionPolicyInput) : Prop where
  taskID : input.taskID = task.taskID
  taskDefinition : input.taskDefinition = task.taskDefinition
  checkpoint : input.checkpoint = checkpoint
  recoveryAttempt : input.recoveryAttempt = true

def writeDefinition : Text :=
  "\x7b\"graph\":\x7b\"nodes\":[\x7b\x7d,\x7b\"tool_name\":\"db_write\"\x7d]\x7d\x7d"

def writeTask : TaskRecord where
  taskID := 7
  tenantID := []
  status := .recovering
  runtimeID := none
  runtimeEndpoint := none
  taskDefinition := writeDefinition
  lastCheckpoint := none
  executionEnvelope := none
  executionReceipt := none
  idempotencyKey := []
  failureReason := none
  failureDetails := none
  deadlineAt := none
  dispatchedAt := none
  completedAt := none
  canceledAt := none
  attemptCount := 0
  hasIrreversibleEffect := true

def startCheckpoint : CheckpointPayload := ⟨7, ⟨0, [], []⟩, [], [], Time.zero⟩

def writeInput : ActionPolicyInput := ⟨[], 7, [], writeDefinition, [], [], some startCheckpoint, true⟩

def memberNamed (key : String) : Value → Option Value
  | .obj members => lookup (some (members.toList.map fun m => (unquote m.1, m.2))) key.toList
  | _ => none

def writtenNodes (definition : Text) : List Value :=
  match ((parse definition).bind (memberNamed "graph")).bind (memberNamed "nodes") with
  | some (.arr items) => items.toList
  | _ => []

def shadowedGraph : Text :=
  "\x7b\"graph\":\x7b\"nodes\":[\x7b\"tool_name\":\"db_write\"\x7d]\x7d,\"Graph\":5\x7d"

end Overture
