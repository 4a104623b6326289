import Overture.Coordinator.Record
import Overture.Coordinator.Lineage

/-!
# The proof state of a task

A task keeps what its execution receipt says about the proof and what the ledger holds for it.
Four writers share the columns: the save of the artifacts, the trigger on the ledger, the sync
of the store, and the endpoint that verifies a receipt. A call that fails leaves no trace.
-/

namespace Overture

open Json Option Table

inductive ProofStatus where
  | pending
  | missing
  | verified
  | mismatch
  | present
deriving DecidableEq

/-- The columns of `task_records` that the proof is kept in; the receipt is the text that was saved. -/
structure ProofTask where
  taskID : Uuid
  tenantID : Text
  executionReceipt : Option Text := none
  executionID : Option Text := none
  expectedHash : Option Text := none
  storedHash : Option Text := none
  signature : Option Text := none
  status : Option ProofStatus := none
  checkedAt : Option Int := none
deriving DecidableEq

structure ProofDb where
  tasks : Table ProofTask.taskID
  ledger : LineageTable

structure ProofRefs where
  executionID : Text := []
  receiptHash : Text := []
  hash : Text := []

def proofRefsDecoder : Decoder ProofRefs := Decoder.struct
  [.of "execution_id" (·.executionID) (fun r t => { r with executionID := t }) .text,
    .of "receipt_hash" (·.receiptHash) (fun r t => { r with receiptHash := t }) .text,
    .of "hash" (·.hash) (fun r t => { r with hash := t }) .text]

def extractProofRefs (receipt : Text) : Option (Text × Text) :=
  if receipt = [] then none
  else
    match unmarshal proofRefsDecoder receipt {} with
    | (_, false) => none
    | (refs, true) =>
      if refs.executionID = [] then none
      else if refs.receiptHash ≠ [] then some (refs.executionID, refs.receiptHash)
      else some (refs.executionID, refs.hash)

structure TaskProofState where
  (executionID expectedHash storedHash signature : Text)
  status : ProofStatus
  checkedAt : Int

def classifyProof (expectedHash storedHash : Text) : ProofStatus :=
  if expectedHash ≠ [] ∧ storedHash = expectedHash then .verified
  else if expectedHash ≠ [] then .mismatch
  else .present

def buildTaskProofState (executionID expectedHash storedHash signature : Text) (proofFound : Bool) (checkedAt : Int) :
    TaskProofState :=
  if proofFound = true then
    ⟨executionID, expectedHash, storedHash, signature, classifyProof expectedHash storedHash, checkedAt⟩
  else ⟨executionID, expectedHash, [], [], .missing, checkedAt⟩

/-! ## Writers -/

namespace ProofTask

def saveArtifacts (receipt : Text) (t : ProofTask) : ProofTask :=
  match extractProofRefs receipt with
  | none => { t with executionReceipt := (nullIfEmpty receipt).or t.executionReceipt }
  | some (executionID, expectedHash) =>
    { t with
      executionReceipt := (nullIfEmpty receipt).or t.executionReceipt
      executionID := (nullIfEmpty executionID).or t.executionID
      expectedHash := (nullIfEmpty expectedHash).or t.expectedHash
      storedHash := none
      signature := none
      status := some .pending
      checkedAt := none }

def fromLineage (row : LineageRow) (now : Int) (t : ProofTask) : ProofTask :=
  { t with
    storedHash := some row.receiptHash
    signature := some row.signature
    status :=
      if t.expectedHash.getD [] = [] then some .present
      else if t.expectedHash = some row.receiptHash then some .verified
      else some .mismatch
    checkedAt := some now }

def updateProofState (proof : TaskProofState) (t : ProofTask) : ProofTask :=
  { t with
    executionID := nullIfEmpty proof.executionID
    expectedHash := nullIfEmpty proof.expectedHash
    storedHash := nullIfEmpty proof.storedHash
    signature := nullIfEmpty proof.signature
    status := some proof.status
    checkedAt := some proof.checkedAt }

/-- The UPDATE of `UpdateTaskProofStateByExecutionID`: the state is built from the hash of the request. -/
def updateByExecutionID (executionID expectedHash storedHash signature : Text) (now : Int) (t : ProofTask) : ProofTask :=
  { t with
    expectedHash := (nullIfEmpty expectedHash).or t.expectedHash
    storedHash := some storedHash
    signature := some signature
    status := some (buildTaskProofState executionID expectedHash storedHash signature true now).status
    checkedAt := some now }

end ProofTask

structure VerifyReceiptRequest where
  (executionID expectedHash hash signature : Text)

def expectedHashFromVerifyRequest (req : VerifyReceiptRequest) : Text :=
  if req.expectedHash ≠ [] then req.expectedHash else req.hash

namespace ProofDb

def updateTasks (selects : ProofTask → Bool) (f : ProofTask → ProofTask) (hf : ∀ t, (f t).taskID = t.taskID)
    (s : ProofDb) : ProofDb where
  tasks :=
    { rows := s.tasks.rows.map fun t => if selects t = true then f t else t
      nodup := by
        have hkeys : (s.tasks.rows.map fun t => if selects t = true then f t else t).map ProofTask.taskID =
            s.tasks.rows.map ProofTask.taskID := by
          rw [List.map_map]
          refine List.map_congr_left fun t _ => ?_
          show (if selects t = true then f t else t).taskID = t.taskID
          split
          · exact hf t
          · rfl
        rw [hkeys]
        exact s.tasks.nodup }
  ledger := s.ledger

def names (tenantID executionID : Text) (t : ProofTask) : Bool :=
  t.tenantID == tenantID && t.executionID == some executionID

def saveExecutionArtifacts (taskID : Uuid) (receipt : Text) (s : ProofDb) : ProofDb :=
  s.updateTasks (fun t => t.taskID == taskID) (ProofTask.saveArtifacts receipt) fun t => by
    rw [ProofTask.saveArtifacts]
    split <;> rfl

def lineage (tenantID executionID : Text) (s : ProofDb) : Option LineageRow :=
  (s.ledger.get? executionID).filter fun row => row.tenantID == some tenantID

def saveLineage (record : LineageRecord) (now : Int) (s : ProofDb) : ProofDb :=
  match saveExecutionLineage (some record) now s.ledger with
  | .error _ => s
  | .ok ledger =>
    if (Text.trimSpace record.executionID).isEmpty = true ∨ (Text.trimSpace record.receiptHash).isEmpty = true then s
    else
      match ledger.get? record.executionID with
      | none => s
      | some row =>
        if row.executionID = [] ∨ row.tenantID.getD [] = [] then { s with ledger := ledger }
        else
          { s with ledger := ledger }.updateTasks (names (row.tenantID.getD []) row.executionID)
            (ProofTask.fromLineage row now) fun _ => rfl

def syncTaskProofState (taskID : Uuid) (tenantID : Text) (now : Int) (s : ProofDb) : ProofDb :=
  match (s.tasks.get? taskID).filter fun t => t.tenantID == tenantID with
  | none => s
  | some t =>
    let executionID := t.executionID.getD []
    if executionID = [] then s
    else
      let proof := match s.lineage tenantID executionID with
        | none => buildTaskProofState executionID (t.expectedHash.getD []) [] [] false now
        | some row => buildTaskProofState executionID (t.expectedHash.getD []) row.receiptHash row.signature true now
      s.updateTasks (fun t => t.taskID == taskID) (ProofTask.updateProofState proof) fun _ => rfl

/-- `VerifyReceipt`, as far as it writes: the hash to compare with comes from the request. -/
def verifyReceipt (tenantID : Text) (req : VerifyReceiptRequest) (now : Int) (s : ProofDb) : ProofDb :=
  if tenantID = [] ∨ req.executionID = [] then s
  else
    match s.lineage tenantID req.executionID with
    | none => s
    | some row =>
      s.updateTasks (names tenantID req.executionID)
        (ProofTask.updateByExecutionID req.executionID (expectedHashFromVerifyRequest req) row.receiptHash
          row.signature now) fun _ => rfl

end ProofDb

inductive ProofStep where
  | createTask (taskID : Uuid) (tenantID : Text)
  | saveExecutionArtifacts (taskID : Uuid) (receipt : Text)
  | saveLineage (record : LineageRecord) (now : Int)
  | syncTaskProofState (taskID : Uuid) (tenantID : Text) (now : Int)
  | verifyReceipt (tenantID : Text) (req : VerifyReceiptRequest) (now : Int)

def ProofStep.apply : ProofStep → ProofDb → ProofDb
  | createTask taskID tenantID, s => { s with tasks := s.tasks.putNew { taskID, tenantID } }
  | saveExecutionArtifacts taskID receipt, s => s.saveExecutionArtifacts taskID receipt
  | saveLineage record now, s => s.saveLineage record now
  | syncTaskProofState taskID tenantID now, s => s.syncTaskProofState taskID tenantID now
  | verifyReceipt tenantID req now, s => s.verifyReceipt tenantID req now

def receiptProofHash (receipt : Text) : Text := ((extractProofRefs receipt).map Prod.snd).getD []

namespace ProofTask

def receiptHash (t : ProofTask) : Text := (t.executionReceipt.map receiptProofHash).getD []

def expected (t : ProofTask) : Text := t.expectedHash.getD []

end ProofTask

def Classified (t : ProofTask) : Prop :=
  match t.storedHash with
  | none => t.status = none ∨ t.status = some .pending ∨ t.status = some .missing
  | some storedHash => t.status = some (classifyProof t.expected storedHash)

structure Consistent (s : ProofDb) (t : ProofTask) : Prop where
  expected : t.expected = t.receiptHash
  classified : Classified t
  ledger : ∀ storedHash, t.storedHash = some storedHash →
    ∃ executionID row, t.executionID = some executionID ∧ s.lineage t.tenantID executionID = some row ∧
      row.receiptHash = storedHash

structure ConsistentDb (s : ProofDb) : Prop where
  hashed : ∀ row ∈ s.ledger.rows, row.receiptHash ≠ []
  tasks : ∀ t ∈ s.tasks.rows, Consistent s t

theorem Consistent.verified {s : ProofDb} {t : ProofTask} (h : Consistent s t) (hv : t.status = some .verified) :
    ∃ executionID row, t.executionID = some executionID ∧ s.lineage t.tenantID executionID = some row ∧
      row.receiptHash = t.receiptHash ∧ t.receiptHash ≠ [] := by
  have hc := h.classified
  rw [Classified] at hc
  cases hstored : t.storedHash with
  | none =>
    rw [hstored, hv] at hc
    simp at hc
  | some storedHash =>
    rw [hstored, hv] at hc
    obtain ⟨executionID, row, hid, hrow, hhash⟩ := h.ledger storedHash hstored
    have hclass : classifyProof t.expected storedHash = .verified := (some.inj hc).symm
    rw [classifyProof] at hclass
    split at hclass
    · next hpair =>
      rw [← h.expected]
      exact ⟨executionID, row, hid, hrow, hhash.trans hpair.2, hpair.1⟩
    · split at hclass <;> cases hclass

/-- A saved receipt names a hash unless none was expected so far, the ledger does not hand an execution to another
tenant, and a request to verify comes with the hash that is expected. -/
def Faithful (s : ProofDb) : ProofStep → Prop
  | .saveExecutionArtifacts taskID receipt =>
    receipt ≠ [] → receiptProofHash receipt ≠ [] ∨ ∀ t, s.tasks.get? taskID = some t → t.expected = []
  | .saveLineage record _ => ∀ row, s.ledger.get? record.executionID = some row → row.tenantID = some record.tenantID
  | .verifyReceipt tenantID req _ =>
    ∀ row, s.lineage tenantID req.executionID = some row → ∀ t ∈ s.tasks.rows,
      ProofDb.names tenantID req.executionID t = true → expectedHashFromVerifyRequest req = t.expected
  | _ => True

inductive FaithfulRun : ProofDb → Prop where
  | start : FaithfulRun ⟨.empty, .empty⟩
  | step {s : ProofDb} (step : ProofStep) (h : FaithfulRun s) (hstep : Faithful s step) : FaithfulRun (step.apply s)

/-! ## Each call -/

section

variable {s : ProofDb}

theorem mem_updateTasks {selects : ProofTask → Bool} {f : ProofTask → ProofTask} {hf : ∀ t, (f t).taskID = t.taskID}
    {t : ProofTask} (h : t ∈ (s.updateTasks selects f hf).tasks.rows) :
    ∃ t' ∈ s.tasks.rows, (selects t' = true ∧ t = f t') ∨ (selects t' = false ∧ t = t') := by
  obtain ⟨t', ht', rfl⟩ := List.mem_map.mp h
  cases hsel : selects t' with
  | true => exact ⟨t', ht', .inl ⟨hsel, by simp⟩⟩
  | false => exact ⟨t', ht', .inr ⟨hsel, by simp⟩⟩

theorem Consistent.of_ledger_eq {s' : ProofDb} {t : ProofTask} (h : Consistent s t) (hledger : s'.ledger = s.ledger) :
    Consistent s' t := by
  refine ⟨h.expected, h.classified, ?_⟩
  simp only [ProofDb.lineage, hledger]
  exact h.ledger

theorem ConsistentDb.update (h : ConsistentDb s) {selects : ProofTask → Bool} {f : ProofTask → ProofTask}
    {hf : ∀ t, (f t).taskID = t.taskID}
    (hselected : ∀ t ∈ s.tasks.rows, selects t = true → Consistent s t → Consistent s (f t)) :
    ConsistentDb (s.updateTasks selects f hf) := by
  refine ⟨h.hashed, fun t ht => ?_⟩
  obtain ⟨t', ht', ⟨hsel, rfl⟩ | ⟨-, rfl⟩⟩ := mem_updateTasks ht
  · exact (hselected t' ht' hsel (h.tasks t' ht')).of_ledger_eq rfl
  · exact (h.tasks t ht').of_ledger_eq rfl

theorem getD_nullIfEmpty (t : Text) : (nullIfEmpty t).getD [] = t := by
  rw [nullIfEmpty]
  split
  · next h => rw [h]; rfl
  · rfl

theorem nullIfEmpty_of_ne {t : Text} (h : t ≠ []) : nullIfEmpty t = some t := if_neg h

theorem consistent_create (h : ConsistentDb s) (taskID : Uuid) (tenantID : Text) :
    ConsistentDb ((ProofStep.createTask taskID tenantID).apply s) := by
  refine ⟨h.hashed, fun t ht => ?_⟩
  rcases mem_putNew ht with rfl | hold
  · exact ⟨rfl, .inl rfl, by simp⟩
  · exact (h.tasks t hold).of_ledger_eq rfl

theorem consistent_saveArtifacts {t : ProofTask} {receipt : Text} (h : Consistent s t)
    (hreceipt : receipt ≠ [] → receiptProofHash receipt ≠ [] ∨ t.expected = []) :
    Consistent s (t.saveArtifacts receipt) := by
  by_cases hnil : receipt = []
  · have hnone : extractProofRefs receipt = none := if_pos hnil
    rw [ProofTask.saveArtifacts, hnone, hnil]
    exact ⟨h.expected, h.classified, h.ledger⟩
  have hstored : (nullIfEmpty receipt).or t.executionReceipt = some receipt := by
    rw [nullIfEmpty_of_ne hnil]
    rfl
  have hcases := hreceipt hnil
  rw [receiptProofHash] at hcases
  rw [ProofTask.saveArtifacts]
  cases hrefs : extractProofRefs receipt with
  | none =>
    rw [hrefs] at hcases
    have hempty : t.expected = [] := hcases.resolve_left (by simp)
    refine ⟨?_, h.classified, h.ledger⟩
    show t.expected = (((nullIfEmpty receipt).or t.executionReceipt).map receiptProofHash).getD []
    rw [hstored, hempty, map_some, receiptProofHash, hrefs]
    rfl
  | some refs =>
    obtain ⟨executionID, hash⟩ := refs
    rw [hrefs] at hcases
    refine ⟨?_, .inr (.inl rfl), by simp⟩
    show ((nullIfEmpty hash).or t.expectedHash).getD [] =
      (((nullIfEmpty receipt).or t.executionReceipt).map receiptProofHash).getD []
    rw [hstored, map_some, receiptProofHash, hrefs]
    by_cases hhash : hash = []
    · have hempty : t.expectedHash.getD [] = [] := hcases.resolve_left (by simp [hhash])
      rw [hhash]
      exact hempty
    · rw [nullIfEmpty_of_ne hhash]
      rfl

theorem consistent_of_row {t t' : ProofTask} {executionID : Text} {row : LineageRow}
    (h : t.expected = t.receiptHash) (hreceipt : t'.executionReceipt = t.executionReceipt)
    (hexpected : t'.expected = t.expected) (htenant : t'.tenantID = t.tenantID)
    (hid : t'.executionID = some executionID) (hrow : s.lineage t.tenantID executionID = some row)
    (hstored : t'.storedHash = some row.receiptHash)
    (hstatus : t'.status = some (classifyProof t.expected row.receiptHash)) : Consistent s t' where
  expected := by
    rw [hexpected, h, ProofTask.receiptHash, ProofTask.receiptHash, hreceipt]
  classified := by
    rw [Classified, hstored]
    dsimp only
    rw [hexpected, hstatus]
  ledger := by
    intro storedHash hs
    rw [hstored] at hs
    exact ⟨executionID, row, hid, by rw [htenant]; exact hrow, some.inj hs⟩

theorem mem_of_lineage {tenantID executionID : Text} {row : LineageRow} (h : s.lineage tenantID executionID = some row) :
    row ∈ s.ledger.rows := by
  rw [ProofDb.lineage, filter_eq_some_iff] at h
  exact mem_of_get? h.1

theorem consistent_sync (h : ConsistentDb s) (taskID : Uuid) (tenantID : Text) (now : Int) :
    ConsistentDb (s.syncTaskProofState taskID tenantID now) := by
  rw [ProofDb.syncTaskProofState]
  split
  · exact h
  next t ht =>
  obtain ⟨ht, htenant⟩ := filter_eq_some_iff.mp ht
  have htenant : t.tenantID = tenantID := by simpa using htenant
  dsimp only
  split
  · exact h
  next hid =>
  apply h.update
  intro t' ht' hsel hcons
  obtain rfl : t' = t := by
    have hkey : t'.taskID = taskID := by simpa using hsel
    have hget := get?_of_mem ht'
    rw [hkey, ht] at hget
    exact (some.inj hget).symm
  have hexpected : ∀ proof : TaskProofState, proof.expectedHash = t'.expected →
      (t'.updateProofState proof).expected = t'.expected := by
    intro proof hproof
    show (nullIfEmpty proof.expectedHash).getD [] = _
    rw [getD_nullIfEmpty, hproof]
  split
  · -- the ledger has no row yet
    refine ⟨(hexpected _ rfl).trans hcons.expected, .inr (.inr rfl), ?_⟩
    rintro storedHash hs
    cases hs
  next row hrow =>
  have hhash := h.hashed row (mem_of_lineage hrow)
  exact consistent_of_row hcons.expected rfl (hexpected _ rfl) rfl (nullIfEmpty_of_ne hid)
    (by rw [htenant]; exact hrow) (nullIfEmpty_of_ne hhash) rfl

theorem consistent_verify (h : ConsistentDb s) {tenantID : Text} {req : VerifyReceiptRequest} {now : Int}
    (hreq : Faithful s (.verifyReceipt tenantID req now)) : ConsistentDb (s.verifyReceipt tenantID req now) := by
  rw [ProofDb.verifyReceipt]
  split
  · exact h
  split
  · exact h
  next row hrow =>
  apply h.update
  intro t ht hsel hcons
  have hhash := hreq row hrow t ht hsel
  have hnames : t.tenantID = tenantID ∧ t.executionID = some req.executionID := by
    simpa [ProofDb.names] using hsel
  refine consistent_of_row hcons.expected rfl ?_ rfl hnames.2 (by rw [hnames.1]; exact hrow) rfl ?_
  · show ((nullIfEmpty (expectedHashFromVerifyRequest req)).or t.expectedHash).getD [] = t.expected
    rw [hhash]
    by_cases hnil : t.expected = []
    · rw [hnil]
      exact hnil
    · rw [nullIfEmpty_of_ne hnil]
      rfl
  · rw [← hhash]
    rfl

end

theorem saveExecutionLineage_cases {record : LineageRecord} {now : Int} {t t' : LineageTable}
    (h : saveExecutionLineage (some record) now t = .ok t')
    (hkept : ¬ ((Text.trimSpace record.executionID).isEmpty = true ∨ (Text.trimSpace record.receiptHash).isEmpty = true)) :
    ∃ row : LineageRow, t' = t.put row ∧ row.executionID = record.executionID ∧ row.receiptHash = record.receiptHash ∧
      row.tenantID = some record.tenantID ∧ record.tenantID ≠ [] := by
  rw [saveExecutionLineage, if_neg hkept] at h
  split at h
  · cases h
  next htenant =>
  have hne : record.tenantID ≠ [] := by
    intro hnil
    rw [hnil] at htenant
    exact htenant rfl
  split at h
  · exact ⟨record.row now, (Except.ok.inj h).symm, rfl, rfl, nullIfEmpty_of_ne hne, hne⟩
  next old hold =>
  have hkey : old.executionID = record.executionID := key_of_get? hold
  refine ⟨old.merge (record.row now), (Except.ok.inj h).symm, hkey, rfl, ?_, hne⟩
  show (nullIfEmpty record.tenantID).or old.tenantID = _
  rw [nullIfEmpty_of_ne hne]
  rfl

theorem status_fromLineage (row : LineageRow) (now : Int) (t : ProofTask) :
    (t.fromLineage row now).status = some (classifyProof t.expected row.receiptHash) := by
  show (if t.expected = [] then some ProofStatus.present
    else if t.expectedHash = some row.receiptHash then some .verified else some .mismatch) = _
  rw [classifyProof]
  by_cases hnil : t.expected = []
  · simp [hnil]
  obtain ⟨hash, hhash⟩ : ∃ hash, t.expectedHash = some hash := by
    cases hexp : t.expectedHash with
    | none => exact absurd (by rw [ProofTask.expected, hexp]; rfl) hnil
    | some hash => exact ⟨hash, rfl⟩
  have hexp : t.expected = hash := by rw [ProofTask.expected, hhash]; rfl
  rw [hexp] at hnil ⊢
  simp only [hnil, if_false, hhash, some.injEq, ne_eq, not_false_eq_true, true_and, if_true]
  by_cases heq : hash = row.receiptHash
  · rw [if_pos heq, if_pos heq.symm]
  · rw [if_neg heq, if_neg (Ne.symm heq)]

section

variable {s : ProofDb}

theorem lineage_put {ledger : LineageTable} {row : LineageRow} (hledger : ledger = s.ledger.put row)
    (tenantID executionID : Text) :
    ProofDb.lineage tenantID executionID { s with ledger := ledger } =
      if row.executionID = executionID then (some row).filter fun row => row.tenantID == some tenantID
      else s.lineage tenantID executionID := by
  rw [ProofDb.lineage, hledger, get?_put]
  split <;> rfl

/-- The trigger brings the tasks that name the execution up to date; no other task has taken its hash
from the row. -/
theorem consistent_saveLineage (h : ConsistentDb s) {record : LineageRecord} {now : Int}
    (hrecord : Faithful s (.saveLineage record now)) : ConsistentDb (s.saveLineage record now) := by
  rw [ProofDb.saveLineage]
  split
  · exact h
  next ledger hsave =>
  split
  · exact h
  next hkept =>
  obtain ⟨row, hledger, hid, hhash, htenant, hne⟩ := saveExecutionLineage_cases hsave hkept
  have hget : ledger.get? record.executionID = some row := by rw [hledger, get?_put, if_pos hid]
  have hblank := not_or.mp hkept
  have hidne : row.executionID ≠ [] := by
    rw [hid]
    rintro hnil
    exact hblank.1 (by rw [hnil]; rfl)
  have hhashne : row.receiptHash ≠ [] := by
    rw [hhash]
    rintro hnil
    exact hblank.2 (by rw [hnil]; rfl)
  rw [hget]
  dsimp only
  rw [htenant, Option.getD_some, if_neg (not_or.mpr ⟨hidne, hne⟩)]
  refine ⟨fun row' hrow' => ?_, fun t ht => ?_⟩
  · have hget' : ledger.get? row'.executionID = some row' := get?_of_mem hrow'
    rw [hledger, get?_put] at hget'
    split at hget'
    · rw [← Option.some.inj hget']
      exact hhashne
    · exact h.hashed row' (mem_of_get? hget')
  obtain ⟨t', ht', ⟨hsel, rfl⟩ | ⟨hsel, rfl⟩⟩ := mem_updateTasks ht
  · have hnames : t'.tenantID = record.tenantID ∧ t'.executionID = some row.executionID := by
      simpa [ProofDb.names] using hsel
    refine Consistent.of_ledger_eq (s := { s with ledger := ledger }) ?_ rfl
    refine consistent_of_row (h.tasks t' ht').expected rfl rfl rfl hnames.2 ?_ rfl (status_fromLineage row now t')
    rw [lineage_put hledger, if_pos rfl, hnames.1]
    simp [Option.filter, htenant]
  have hold := h.tasks t ht'
  refine Consistent.of_ledger_eq (s := { s with ledger := ledger }) ⟨hold.expected, hold.classified, ?_⟩ rfl
  intro storedHash hstored
  obtain ⟨executionID, row', hexec, hrow', hhash'⟩ := hold.ledger storedHash hstored
  refine ⟨executionID, row', hexec, ?_, hhash'⟩
  rw [lineage_put hledger, if_neg, hrow']
  intro hsame
  obtain ⟨hrow'', htenant'⟩ := Option.filter_eq_some_iff.mp hrow'
  have hother := hrecord row' (by rw [← hid, hsame]; exact hrow'')
  have htenant' : row'.tenantID = some t.tenantID := by simpa using htenant'
  rw [htenant'] at hother
  simp [ProofDb.names, hexec, hsame, Option.some.inj hother] at hsel

theorem consistent_step (h : ConsistentDb s) {step : ProofStep} (hstep : Faithful s step) :
    ConsistentDb (step.apply s) := by
  cases step with
  | createTask taskID tenantID => exact consistent_create h taskID tenantID
  | saveExecutionArtifacts taskID receipt =>
    show ConsistentDb (s.saveExecutionArtifacts taskID receipt)
    rw [ProofDb.saveExecutionArtifacts]
    apply h.update
    intro t ht hsel hcons
    have hget : s.tasks.get? t.taskID = some t := get?_of_mem ht
    rw [show t.taskID = taskID by simpa using hsel] at hget
    exact consistent_saveArtifacts hcons fun hne => (hstep hne).imp id fun hall => hall t hget
  | saveLineage record now => exact consistent_saveLineage h hstep
  | syncTaskProofState taskID tenantID now => exact consistent_sync h taskID tenantID now
  | verifyReceipt tenantID req now => exact consistent_verify h hstep

theorem FaithfulRun.consistent (h : FaithfulRun s) : ConsistentDb s := by
  induction h with
  | start => exact ⟨by simp [empty], by simp [empty]⟩
  | step step _ hstep ih => exact consistent_step ih hstep

end

def sampleReceiptText : Text :=
  ["\x7b\"execution_id\":", "\"e\",\"hash\":\"a\"\x7d"].flatMap String.toList

def sampleLineage (hash : Text) : LineageRecord where
  executionID := "e"
  transactionID := []
  transactionHash := []
  agentID := "agent"
  cpuTimeMs := 0
  wallTimeMs := 0
  memoryPeakMB := 0
  fsBytesWritten := 0
  toolCalls := 0
  violationOccurred := false
  receiptHash := hash
  previousHash := []
  signature := []
  runtimeID := []
  tenantID := "t"
  timestampUTC := 1
  status := []
  promptPreview := []
  violationDetails := none

def sampleProofSteps (hash : Text) : List ProofStep :=
  [.createTask 1 "t", .saveExecutionArtifacts 1 sampleReceiptText, .saveLineage (sampleLineage hash) 1,
   .verifyReceipt "t" ⟨"e", hash, [], []⟩ 2]

def sampleProofDb (hash : Text) : ProofDb :=
  (sampleProofSteps hash).foldl (fun s step => step.apply s) ⟨.empty, .empty⟩

theorem sampleProofDb_faithful : FaithfulRun (sampleProofDb "a") := by
  simp only [sampleProofDb, sampleProofSteps, List.foldl_cons, List.foldl_nil]
  have h₁ := FaithfulRun.step (.createTask 1 "t") .start trivial
  have h₂ := FaithfulRun.step (.saveExecutionArtifacts 1 sampleReceiptText) h₁ fun _ => .inl (by decide +kernel)
  have h₃ := FaithfulRun.step (.saveLineage (sampleLineage "a") 1) h₂ fun row hrow => by cases hrow
  refine FaithfulRun.step (.verifyReceipt "t" ⟨"e", "a", [], []⟩ 2) h₃ ?_
  intro row _ t ht _
  revert t
  decide +kernel

end Overture
